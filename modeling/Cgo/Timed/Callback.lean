import Cgo.Timed.Firing

/-!
# What timers do elsewhere

The callback of a timer acts on something that the timers know nothing of: it sends on
a channel, or releases a semaphore.  Here the timers run together with any system that
has such effects.  Every call of a callback has its effect once: the effect begins inside
the call, and the call returns after it has ended.  Nothing here keeps a callback from
being called again; that it is not follows from how timers are popped.
-/

namespace Cgo
namespace Timed

/-! ## The callbacks of the timers -/

namespace State

/-- The timer whose callback a thread runs -/
def calling? (state : State) (thread : ThreadId) : Option TimerId :=
  match state.held thread with
  | some ⟨task, true⟩ => task.fn
  | _ => none

variable {algorithms : Algorithms} {slots : Nat} {state after : State} {start : TimePoint}

theorem stored_of_reached (reached : Reached algorithms slots state start) :
    Stored slots state :=
  reached.invariant (.initial start) fun _ _ _ stored stepped => stored.step stepped

theorem once_of_reached (reached : Reached algorithms slots state start) : Once state :=
  reached.invariant_of_reachable _ (.initial start) fun _ _ _ before once stepped =>
    once.step (stored_of_reached before) stepped

theorem counting_of_reached (reached : Reached algorithms slots state start) :
    Counting state :=
  reached.invariant (.initial start) fun _ _ _ counting stepped => counting.step stepped

/-- The callback that a thread runs was called by that thread. -/
theorem fired_of_calling
    (reached : Reached algorithms slots state start)
    {thread : ThreadId}
    {timer : TimerId}
    (calls : state.calling? thread = some timer) :
    ∃ fired ∈ state.fired, fired.thread = thread ∧ fired.timer = timer := by
  refine reached.invariant_of_reachable (fun state => ∀ thread timer,
    state.calling? thread = some timer →
      ∃ fired ∈ state.fired, fired.thread = thread ∧ fired.timer = timer)
        ?_ ?_ thread timer calls
  · simp [initial, calling?]
  · intro before label after _ ran stepped thread timer calls
    cases move_of_step stepped with
    | @callback other task called holds callable =>
        by_cases same : thread = other
        · subst same
          obtain rfl : called = timer := by simpa [calling?, callable] using calls
          exact ⟨⟨thread, called, before.now⟩, by simp, rfl, rfl⟩
        · obtain ⟨fired, member, earlier⟩ :=
            ran thread timer (by simpa [calling?, same] using calls)
          exact ⟨fired, List.mem_append_left _ member, earlier⟩
    | @pop other call i task rest called running idle =>
        by_cases same : thread = other
        · subst same
          simp [calling?] at calls
        · exact ran thread timer (by simpa [calling?, same] using calls)
    | @finish other task call holds =>
        by_cases same : thread = other
        · subst same
          simp [calling?] at calls
        · exact ran thread timer (by simpa [calling?, same] using calls)
    | _ => exact ran thread timer calls

/-- No two threads run the callback of one timer. -/
theorem calling_unique
    (reached : Reached algorithms slots state start)
    {thread other : ThreadId}
    {timer : TimerId}
    (calls : state.calling? thread = some timer)
    (also : state.calling? other = some timer) :
    thread = other := by
  obtain ⟨first, inFirst, rfl, rfl⟩ := fired_of_calling reached calls
  obtain ⟨second, inSecond, rfl, same⟩ := fired_of_calling reached also
  have nodup := (once_of_reached reached).fired_nodup
  rw [List.inj_on_of_nodup_map nodup inFirst inSecond same.symm]

/-- What a step does to the calls of callbacks. -/
inductive Calls (state after : State) : Label → Prop
  | callback {thread : ThreadId} {timer : TimerId}
      (free : state.calling? thread = none)
      (calls : after.calling? = Function.update state.calling? thread (some timer))
      (fired : after.fired.map Fired.timer = state.fired.map Fired.timer ++ [timer]) :
      Calls state after (.callback thread)
  | finish {thread : ThreadId}
      (calls : after.calling? = Function.update state.calling? thread none)
      (fired : after.fired = state.fired) :
      Calls state after (.finish thread)
  | other {label : Label}
      (begins : ∀ thread, label ≠ .callback thread)
      (ends : ∀ thread, label ≠ .finish thread)
      (calls : after.calling? = state.calling?)
      (fired : after.fired = state.fired) :
      Calls state after label

theorem calls_of_step
    {label : Label}
    (counting : Counting state)
    (stepped : state.step algorithms slots label = some after) :
    Calls state after label := by
  cases move_of_step stepped with
  | @callback thread task timer holds callable =>
      refine @Calls.callback _ _ _ timer (by simp [calling?, holds]) ?_ (by simp)
      funext queried
      by_cases same : queried = thread
      · subst same
        simp [calling?, callable]
      · simp [calling?, same]
  | @finish thread task call holds =>
      refine .finish ?_ rfl
      funext queried
      by_cases same : queried = thread
      · subst same
        simp [calling?]
      · simp [calling?, same]
  | @pop thread call i task rest timer running idle =>
      refine .other nofun nofun ?_ rfl
      funext queried
      by_cases same : queried = thread
      · subst same
        simp [calling?, counting.free_of_idle running idle]
      · simp [calling?, same]
  | _ => exact .other nofun nofun rfl rfl

end State

/-! ## Effects -/

/-- A call of the callback of a timer, the first with number 0. -/
structure Invocation where
  timer : TimerId
  nth : Nat
  deriving DecidableEq

/-- A system with effects that callbacks have. -/
structure Effects (Other Action : Type) where
  step : Other → Action → Option Other
  start : Other
  /-- The timer whose callback has an effect that begins with the action. -/
  timer? : Action → Option TimerId
  /-- The call that has this effect, if not every call of the callback has it. -/
  nth? : Action → Option Nat
  /-- The callback of the timer has an effect. -/
  has : TimerId → Bool
  ended : Other → Invocation → Bool

/-- The effect of a call begins with the action. -/
def Effects.Begins {Other Action : Type}
    (effects : Effects Other Action) (call : Invocation) (action : Action) : Prop :=
  effects.timer? action = some call.timer ∧ ∀ nth ∈ effects.nth? action, nth = call.nth

instance {Other Action : Type} (effects : Effects Other Action) (call : Invocation)
    (action : Action) : Decidable (effects.Begins call action) := by
  unfold Effects.Begins
  infer_instance

/-- What has ended stays so. -/
def Effects.Lasting {Other Action : Type} (effects : Effects Other Action) : Prop :=
  ∀ before action after call, Lib.Reachable effects.step effects.start before →
    effects.step before action = some after → effects.ended before call = true →
      effects.ended after call = true

/-- What a thread does in a callback: the call, and whether its effect has begun. -/
structure Body where
  call : Invocation
  begun : Bool
  deriving DecidableEq

/-- The timers and the other system. -/
structure Hosted (Other : Type) where
  timed : State
  other : Other
  body : ThreadId → Option Body
  /-- The calls whose effects have begun, oldest first.  Nobody keeps these. -/
  begun : List Invocation

namespace Hosted

variable {Other Action : Type}

/-- The steps of the two systems. -/
inductive Label (Action : Type)
  | timed (label : Timed.Label)
  /-- The effect of the callback that a thread runs begins. -/
  | start (thread : ThreadId) (action : Action)
  | other (action : Action)

variable (algorithms : Algorithms) (slots : Nat) (effects : Effects Other Action)

/-- Neither system has made a step; the clock is at `now`. -/
def initial (now : TimePoint) : Hosted Other where
  timed := .initial now
  other := effects.start
  body := fun _ => none
  begun := []

/-- How often the callback of a timer was called. -/
def calls (hosted : Hosted Other) (timer : TimerId) : Nat :=
  (hosted.timed.fired.map Fired.timer).count timer

/-- A callback with an effect returns when the effect has ended. -/
def returns (hosted : Hosted Other) : Timed.Label → Bool
  | .finish thread =>
      (hosted.body thread).all fun body =>
        !effects.has body.call.timer || (body.begun && effects.ended hosted.other body.call)
  | _ => true

/-- What the threads do in callbacks after a step to `timed`. -/
def bodies (hosted : Hosted Other) (timed : State) : Timed.Label → ThreadId → Option Body
  | .callback thread =>
      Function.update hosted.body thread
        ((timed.calling? thread).map fun timer => ⟨⟨timer, hosted.calls timer⟩, false⟩)
  | .finish thread => Function.update hosted.body thread none
  | _ => hosted.body

/-- The next state, or `none` when the step is not enabled. -/
def step (hosted : Hosted Other) : Label Action → Option (Hosted Other)
  | .timed label =>
      if hosted.returns effects label then
        (hosted.timed.step algorithms slots label).map fun timed =>
          { hosted with timed, body := hosted.bodies timed label }
      else none
  | .start thread action =>
      match hosted.body thread with
      | some ⟨call, false⟩ =>
          if effects.Begins call action then
            (effects.step hosted.other action).map fun other =>
              { hosted with
                other
                body := Function.update hosted.body thread (some ⟨call, true⟩)
                begun := hosted.begun ++ [call] }
          else none
      | _ => none
  | .other action =>
      if effects.timer? action = none then
        (effects.step hosted.other action).map fun other => { hosted with other }
      else none

/-- The states that the two systems reach together. -/
abbrev Reached (now : TimePoint) (hosted : Hosted Other) : Prop :=
  Lib.Reachable (step algorithms slots effects) (initial effects now) hosted

variable {algorithms slots effects} {hosted after : Hosted Other} {now : TimePoint}

/-- What a step can do. -/
inductive Move (algorithms : Algorithms) (slots : Nat) (effects : Effects Other Action)
    (hosted : Hosted Other) : Hosted Other → Prop
  | timed {label : Timed.Label} {timed : State}
      (returns : hosted.returns effects label = true)
      (stepped : hosted.timed.step algorithms slots label = some timed) :
      Move algorithms slots effects hosted
        { hosted with timed, body := hosted.bodies timed label }
  | start {thread : ThreadId} {action : Action} {other : Other} {call : Invocation}
      (runs : hosted.body thread = some ⟨call, false⟩)
      (begins : effects.Begins call action)
      (stepped : effects.step hosted.other action = some other) :
      Move algorithms slots effects hosted
        { hosted with
          other
          body := Function.update hosted.body thread (some ⟨call, true⟩)
          begun := hosted.begun ++ [call] }
  | other {action : Action} {other : Other}
      (elsewhere : effects.timer? action = none)
      (stepped : effects.step hosted.other action = some other) :
      Move algorithms slots effects hosted { hosted with other }

theorem move_of_step
    {label : Label Action}
    (stepped : hosted.step algorithms slots effects label = some after) :
    Move algorithms slots effects hosted after := by
  cases label with
  | timed label =>
      simp only [step] at stepped
      split at stepped
      · next returns =>
          obtain ⟨timed, moved, rfl⟩ := Option.map_eq_some_iff.mp stepped
          exact .timed returns moved
      · cases stepped
  | start thread action =>
      simp only [step] at stepped
      split at stepped
      · next call runs =>
          split at stepped
          · next begins =>
              obtain ⟨other, moved, rfl⟩ := Option.map_eq_some_iff.mp stepped
              exact .start runs begins moved
          · cases stepped
      · cases stepped
  | other action =>
      simp only [step] at stepped
      split at stepped
      · next elsewhere =>
          obtain ⟨other, moved, rfl⟩ := Option.map_eq_some_iff.mp stepped
          exact .other elsewhere moved
      · cases stepped

/-! ## The two systems alone -/

/-- The timers run as they do alone. -/
theorem timed_reached (reached : Reached algorithms slots effects now hosted) :
    State.Reached algorithms slots hosted.timed now := by
  obtain ⟨_, path⟩ := reached
  induction path with
  | nil => exact .refl
  | snoc _ stepped inductionHypothesis =>
      cases move_of_step stepped with
      | timed returns moved => exact inductionHypothesis.tail moved
      | start => exact inductionHypothesis
      | other => exact inductionHypothesis

/-- And so does the other system. -/
theorem other_reached (reached : Reached algorithms slots effects now hosted) :
    Lib.Reachable effects.step effects.start hosted.other := by
  obtain ⟨_, path⟩ := reached
  induction path with
  | nil => exact .refl
  | snoc _ stepped inductionHypothesis =>
      cases move_of_step stepped with
      | timed => exact inductionHypothesis
      | start _ _ moved => exact inductionHypothesis.tail moved
      | other _ moved => exact inductionHypothesis.tail moved

/-! ## Callbacks and effects -/

/-- The timer's callback was called. -/
def Fired (hosted : Hosted Other) (timer : TimerId) : Prop :=
  timer ∈ hosted.timed.fired.map Timed.Fired.timer

/-- No thread runs the timer's callback. -/
def Silent (hosted : Hosted Other) (timer : TimerId) : Prop :=
  ∀ thread, hosted.timed.calling? thread ≠ some timer

/-- A callback is called once, and has its effect once. -/
structure Sound (effects : Effects Other Action) (hosted : Hosted Other) : Prop where
  /-- The bodies are those of the callbacks that run. -/
  calls : ∀ thread,
    hosted.timed.calling? thread = (hosted.body thread).map fun body => body.call.timer
  first : ∀ thread body, hosted.body thread = some body → body.call.nth = 0
  begun : ∀ thread body, hosted.body thread = some body →
    (body.begun = true ↔ body.call ∈ hosted.begun)
  nodup : hosted.begun.Nodup
  fired : ∀ call ∈ hosted.begun, call.nth = 0 ∧ hosted.Fired call.timer
  ended : ∀ timer, effects.has timer = true → hosted.Fired timer → hosted.Silent timer →
    ⟨timer, 0⟩ ∈ hosted.begun ∧ effects.ended hosted.other ⟨timer, 0⟩ = true

namespace Sound

variable {timed : State} {label : Timed.Label}

theorem initial : Sound effects (Hosted.initial effects now) where
  calls thread := rfl
  first := by simp [Hosted.initial]
  begun := by simp [Hosted.initial]
  nodup := List.nodup_nil
  fired := by simp [Hosted.initial]
  ended timer _ fired := by simp [Fired, Hosted.initial, State.initial] at fired

/-- A callback is called. -/
private theorem callback
    {thread : ThreadId}
    {timer : TimerId}
    (sound : Sound effects hosted)
    (free : hosted.timed.calling? thread = none)
    (calls : timed.calling? = Function.update hosted.timed.calling? thread (some timer))
    (fired : timed.fired.map Fired.timer = hosted.timed.fired.map Fired.timer ++ [timer])
    (once : Once timed) :
    Sound effects
      { hosted with timed, body := hosted.bodies timed (.callback thread) } := by
  -- a timer is popped once, so this is its first call
  have uncalled : ¬hosted.Fired timer := by
    have nodup := once.fired_nodup
    rw [fired] at nodup
    exact fun before => (List.nodup_append.mp nodup).2.2 timer before timer (by simp) rfl
  have bodies : hosted.bodies timed (.callback thread) =
      Function.update hosted.body thread (some ⟨⟨timer, 0⟩, false⟩) := by
    have none_ : hosted.calls timer = 0 := List.count_eq_zero.mpr uncalled
    simp [Hosted.bodies, calls, none_]
  rw [bodies]
  refine ⟨fun other => ?_, fun other body runs => ?_, fun other body runs => ?_, sound.nodup,
    fun call member => ?_, fun other has called silent => ?_⟩
  · by_cases same : other = thread
    · subst same
      simp [calls]
    · simpa [calls, same] using sound.calls other
  · by_cases same : other = thread
    · subst same
      obtain rfl : ⟨⟨timer, 0⟩, false⟩ = body := by simpa using runs
      rfl
    · exact sound.first other body (by simpa [same] using runs)
  · by_cases same : other = thread
    · subst same
      obtain rfl : ⟨⟨timer, 0⟩, false⟩ = body := by simpa using runs
      simpa using fun member => uncalled (sound.fired _ member).2
    · exact sound.begun other body (by simpa [same] using runs)
  · obtain ⟨first, before⟩ := sound.fired call member
    exact ⟨first, by rw [Fired, fired]; exact List.mem_append_left _ before⟩
  · have another : other ≠ timer := by
      rintro rfl
      exact silent thread (by simp [calls])
    have before : hosted.Fired other := by
      rw [Fired, fired, List.mem_append] at called
      exact called.resolve_right (by simpa using another)
    refine sound.ended other has before fun queried runs => ?_
    by_cases same : queried = thread
    · subst same
      simp [free] at runs
    · exact silent queried (by simpa [calls, same] using runs)

/-- A callback returns. -/
private theorem finish
    {thread : ThreadId}
    (sound : Sound effects hosted)
    (returns : hosted.returns effects (.finish thread) = true)
    (calls : timed.calling? = Function.update hosted.timed.calling? thread none)
    (fired : timed.fired = hosted.timed.fired) :
    Sound effects { hosted with timed, body := hosted.bodies timed (.finish thread) } := by
  refine ⟨fun other => ?_, fun other body runs => ?_, fun other body runs => ?_, sound.nodup,
    fun call member => ?_, fun timer has called silent => ?_⟩
  · by_cases same : other = thread
    · subst same
      simp [calls, Hosted.bodies]
    · simpa [calls, Hosted.bodies, same] using sound.calls other
  · by_cases same : other = thread
    · subst same
      simp [Hosted.bodies] at runs
    · exact sound.first other body (by simpa [Hosted.bodies, same] using runs)
  · by_cases same : other = thread
    · subst same
      simp [Hosted.bodies] at runs
    · exact sound.begun other body (by simpa [Hosted.bodies, same] using runs)
  · obtain ⟨first, before⟩ := sound.fired call member
    exact ⟨first, by rwa [Fired, fired]⟩
  · rw [Fired, fired] at called
    by_cases own : hosted.timed.calling? thread = some timer
    · rw [sound.calls thread] at own
      obtain ⟨body, runs, rfl⟩ := Option.map_eq_some_iff.mp own
      have first := sound.first thread body runs
      have same : body.call = ⟨body.call.timer, 0⟩ := by rw [← first]
      simp only [Hosted.returns, runs, Option.all_some, has, Bool.not_true, Bool.false_or,
        Bool.and_eq_true] at returns
      rw [← same]
      exact ⟨(sound.begun thread body runs).mp returns.1, returns.2⟩
    · refine sound.ended timer has called fun queried runs => ?_
      by_cases same : queried = thread
      · subst same
        exact own runs
      · exact silent queried (by simpa [calls, same] using runs)

theorem timedStep
    (sound : Sound effects hosted)
    (reached : hosted.timed.Reached algorithms slots now)
    (returns : hosted.returns effects label = true)
    (moved : hosted.timed.step algorithms slots label = some timed) :
    Sound effects { hosted with timed, body := hosted.bodies timed label } := by
  have once : Once timed := State.once_of_reached (reached.tail moved)
  cases State.calls_of_step (State.counting_of_reached reached) moved with
  | callback free calls fired => exact sound.callback free calls fired once
  | finish calls fired => exact sound.finish returns calls fired
  | other begins ends calls fired =>
      have bodies : hosted.bodies timed label = hosted.body := by
        cases label with
        | callback thread => exact absurd rfl (begins thread)
        | finish thread => exact absurd rfl (ends thread)
        | _ => rfl
      rw [bodies]
      refine ⟨fun thread => ?_, sound.first, sound.begun, sound.nodup, fun call member => ?_,
        fun timer has called silent => ?_⟩
      · rw [calls]
        exact sound.calls thread
      · rw [Fired, fired]
        exact sound.fired call member
      · rw [Fired, fired] at called
        rw [Silent, calls] at silent
        exact sound.ended timer has called silent

/-- The effect of a callback begins. -/
private theorem start
    {thread : ThreadId}
    {call : Invocation}
    {other : Other}
    (sound : Sound effects hosted)
    (reached : hosted.timed.Reached algorithms slots now)
    (runs : hosted.body thread = some ⟨call, false⟩)
    (lasts : ∀ call, effects.ended hosted.other call = true → effects.ended other call = true) :
    Sound effects
      { hosted with
        other
        body := Function.update hosted.body thread (some ⟨call, true⟩)
        begun := hosted.begun ++ [call] } := by
  have fresh : call ∉ hosted.begun := fun member => by
    simpa using (sound.begun thread _ runs).mpr member
  have calls : hosted.timed.calling? thread = some call.timer := by
    rw [sound.calls, runs]
    rfl
  refine ⟨fun queried => ?_, fun queried body ran => ?_, fun queried body ran => ?_, ?_,
    fun queried member => ?_, fun timer has called silent => ?_⟩
  · by_cases same : queried = thread
    · subst same
      simpa using calls
    · simpa [same] using sound.calls queried
  · by_cases same : queried = thread
    · subst same
      obtain rfl : ⟨call, true⟩ = body := by simpa using ran
      exact sound.first queried ⟨call, false⟩ runs
    · exact sound.first queried body (by simpa [same] using ran)
  · by_cases same : queried = thread
    · subst same
      obtain rfl : ⟨call, true⟩ = body := by simpa using ran
      simp
    · have before : hosted.body queried = some body := by simpa [same] using ran
      -- another thread runs the callback of another timer
      have another : body.call ≠ call := by
        rintro rfl
        refine same (State.calling_unique reached ?_ calls)
        rw [sound.calls, before]
        rfl
      simpa [another] using sound.begun queried body before
  · exact List.nodup_append.mpr ⟨sound.nodup, by simp, by
      rintro earlier member _ last rfl
      obtain rfl := List.mem_singleton.mp last
      exact fresh member⟩
  · rcases List.mem_append.mp member with before | last
    · exact sound.fired queried before
    · obtain rfl := List.mem_singleton.mp last
      obtain ⟨fired, inFired, _, same⟩ := State.fired_of_calling reached calls
      exact ⟨sound.first thread _ runs, List.mem_map.mpr ⟨fired, inFired, same⟩⟩
  · obtain ⟨begun, ended⟩ := sound.ended timer has called silent
    exact ⟨List.mem_append_left _ begun, lasts _ ended⟩

theorem step
    {label : Label Action}
    (lasting : effects.Lasting)
    (reached : Reached algorithms slots effects now hosted)
    (sound : Sound effects hosted)
    (stepped : hosted.step algorithms slots effects label = some after) :
    Sound effects after := by
  have otherReached := other_reached reached
  cases move_of_step stepped with
  | timed returns moved => exact sound.timedStep (timed_reached reached) returns moved
  | start runs begins moved =>
      exact sound.start (timed_reached reached) runs
        fun call => lasting _ _ _ call otherReached moved
  | other elsewhere moved =>
      refine ⟨sound.calls, sound.first, sound.begun, sound.nodup, sound.fired,
        fun timer has called silent => ?_⟩
      obtain ⟨begun, ended⟩ := sound.ended timer has called silent
      exact ⟨begun, lasting _ _ _ _ otherReached moved ended⟩

theorem of_reached
    (lasting : effects.Lasting)
    (reached : Reached algorithms slots effects now hosted) :
    Sound effects hosted :=
  reached.invariant_of_reachable _ initial fun _ _ _ before sound stepped =>
    sound.step lasting before stepped

/-- The callback of a timer has had its effect once at most. -/
theorem count_le_one
    (sound : Sound effects hosted)
    (timer : TimerId) :
    (hosted.begun.map Invocation.timer).count timer ≤ 1 := by
  refine List.nodup_iff_count_le_one.mp (sound.nodup.map_on ?_) timer
  intro first inFirst second inSecond same
  obtain ⟨timer, nth⟩ := first
  obtain ⟨other, nth'⟩ := second
  obtain rfl : nth = 0 := (sound.fired _ inFirst).1
  obtain rfl : nth' = 0 := (sound.fired _ inSecond).1
  exact congrArg (Invocation.mk · 0) same

/-- An effect that has begun did so in a call that came not before the timer's expiry. -/
theorem punctual
    {call : Invocation}
    (sound : Sound effects hosted)
    (reached : Reached algorithms slots effects now hosted)
    (begun : call ∈ hosted.begun) :
    call.timer ∈ hosted.timed.popped ∧ ∃ fired ∈ hosted.timed.fired,
      fired.timer = call.timer ∧ hosted.timed.expiry call.timer ≤ fired.time := by
  obtain ⟨fired, member, same⟩ := List.mem_map.mp (sound.fired call begun).2
  have once := State.once_of_reached (timed_reached reached)
  obtain ⟨popped, due⟩ := once.fired fired member
  rw [same] at popped due
  exact ⟨popped, fired, member, same, due⟩

end Sound

end Hosted

end Timed
end Cgo
