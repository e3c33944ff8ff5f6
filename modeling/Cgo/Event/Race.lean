import Cgo.Event.Socket

/-!
# The race of event and timeout

One call of `Socket::_wait_sock_event` with the invocations of its two callbacks, step
by step: each of them tries to claim the shared `timeout` and releases the semaphore
when it has.  A callback that does not get the claim completes at once, also when
`compare_exchange_weak` fails although nobody has claimed, and then nobody releases.
-/

namespace Cgo
namespace Event

/-- `compare_exchange_weak` from 0, and whether it succeeded. -/
def Signal.exchange (outcome : Int) (spurious : Bool) (signal : Signal) : Bool × Signal :=
  if signal.timeout = 0 ∧ spurious = false then (true, { signal with timeout := outcome })
  else (false, signal)

/-- `s->signal.release()` -/
def Signal.release (signal : Signal) : Signal :=
  { signal with signal := signal.signal + 1 }

/-- A callback that is not interrupted. -/
theorem Signal.claim_eq
    (outcome : Int)
    (spurious : Bool)
    (signal : Signal) :
    signal.claim outcome spurious =
      match signal.exchange outcome spurious with
      | (true, claimed) => claimed.release
      | (false, kept) => kept := by
  unfold Signal.claim Signal.exchange
  split <;> rfl

/-- The two callbacks of a wait. -/
inductive Race.Callback where
  | event
  | timer
  deriving DecidableEq

/-- What a callback puts into `timeout`. -/
def Race.Callback.outcome : Race.Callback → Int
  | .event => 1
  | .timer => -1

/-- Where an invocation of a callback is. -/
inductive Race.Pc where
  | exchange
  | release
  | completed
  deriving DecidableEq

/-- Where `_wait_sock_event` is. -/
inductive Race.Waiter where
  | called
  /-- After `mod`. -/
  | registered
  /-- In `aquire`, after `create_timeout` if there is a timeout. -/
  | aquiring
  /-- After `aquire`. -/
  | resumed
  | returned (ready : Bool)
  deriving DecidableEq

/-- The call, the invocations of its callbacks by number, how often the semaphore was
released, and the invocation that claimed.  The code does not keep the last two. -/
structure Race where
  signal : Signal
  waiter : Race.Waiter
  invocation : Nat → Option (Race.Callback × Race.Pc)
  releases : Nat
  claimed : Option (Nat × Race.Callback)

namespace Race

/-- `_wait_sock_event` is called. -/
def initial : Race where
  signal := .initial
  waiter := .called
  invocation := fun _ => none
  releases := 0
  claimed := none

inductive Label where
  /-- `mod` -/
  | register
  /-- `create_timeout`, if there is a timeout. -/
  | arm
  /-- A callback is invoked. -/
  | invoke (id : Nat) (callback : Callback)
  | exchange (id : Nat) (spurious : Bool)
  | release (id : Nat)
  /-- `aquire` takes the permit. -/
  | aquire
  /-- `timeout` is read. -/
  | answer

/-- The callback is known to those who invoke it. -/
def Known (timed : Bool) (race : Race) : Callback → Prop
  | .event => race.waiter ≠ .called
  | .timer => timed = true ∧ race.waiter ≠ .called ∧ race.waiter ≠ .registered

instance (timed : Bool) (race : Race) (callback : Callback) :
    Decidable (race.Known timed callback) := by
  cases callback <;> unfold Known <;> infer_instance

/-- The state after an invocation got to another point. -/
def goto (race : Race) (id : Nat) (callback : Callback) (pc : Pc) : Race :=
  { race with invocation := Function.update race.invocation id (some (callback, pc)) }

/-- One step of a call that has a timeout or not. -/
def step (timed : Bool) (race : Race) : Label → Option Race
  | .register =>
      if race.waiter = .called then some { race with waiter := .registered } else none
  | .arm =>
      if race.waiter = .registered then some { race with waiter := .aquiring } else none
  | .invoke id callback =>
      if race.Known timed callback ∧ race.invocation id = none then
        some (race.goto id callback .exchange)
      else none
  | .exchange id spurious =>
      match race.invocation id with
      | some (callback, .exchange) =>
          match race.signal.exchange callback.outcome spurious with
          | (true, signal) =>
              some { race.goto id callback .release with
                signal
                claimed := some (id, callback) }
          | (false, signal) => some { race.goto id callback .completed with signal }
      | _ => none
  | .release id =>
      match race.invocation id with
      | some (callback, .release) =>
          some { race.goto id callback .completed with
            signal := race.signal.release
            releases := race.releases + 1 }
      | _ => none
  | .aquire =>
      if race.waiter = .aquiring ∧ 0 < race.signal.signal then
        some { race with
          waiter := .resumed
          signal := { race.signal with signal := race.signal.signal - 1 } }
      else none
  | .answer =>
      if race.waiter = .resumed then
        some { race with waiter := .returned (decide (race.signal.timeout = 1)) }
      else none

/-- What a step can do. -/
inductive Move (timed : Bool) (race : Race) : Label → Race → Prop
  | register (called : race.waiter = .called) :
      Move timed race .register { race with waiter := .registered }
  | arm (registered : race.waiter = .registered) :
      Move timed race .arm { race with waiter := .aquiring }
  | invoke {id : Nat} {callback : Callback}
      (known : race.Known timed callback)
      (fresh : race.invocation id = none) :
      Move timed race (.invoke id callback) (race.goto id callback .exchange)
  | claim {id : Nat} {callback : Callback}
      (tries : race.invocation id = some (callback, .exchange))
      (unclaimed : race.signal.timeout = 0) :
      Move timed race (.exchange id false)
        { race.goto id callback .release with
          signal := { race.signal with timeout := callback.outcome }
          claimed := some (id, callback) }
  | lose {id : Nat} {callback : Callback} {spurious : Bool}
      (tries : race.invocation id = some (callback, .exchange))
      (fails : ¬(race.signal.timeout = 0 ∧ spurious = false)) :
      Move timed race (.exchange id spurious) (race.goto id callback .completed)
  | release {id : Nat} {callback : Callback}
      (holds : race.invocation id = some (callback, .release)) :
      Move timed race (.release id)
        { race.goto id callback .completed with
          signal := race.signal.release
          releases := race.releases + 1 }
  | aquire
      (aquires : race.waiter = .aquiring)
      (permitted : 0 < race.signal.signal) :
      Move timed race .aquire
        { race with
          waiter := .resumed
          signal := { race.signal with signal := race.signal.signal - 1 } }
  | answer (resumed : race.waiter = .resumed) :
      Move timed race .answer
        { race with waiter := .returned (decide (race.signal.timeout = 1)) }

section

variable {timed : Bool} {race before after : Race} {label : Label}

theorem move_of_step
    (stepped : before.step timed label = some after) :
    Move timed before label after := by
  cases label with
  | register =>
      simp only [step, Option.ite_none_right_eq_some, Option.some.injEq] at stepped
      obtain ⟨called, rfl⟩ := stepped
      exact .register called
  | arm =>
      simp only [step, Option.ite_none_right_eq_some, Option.some.injEq] at stepped
      obtain ⟨registered, rfl⟩ := stepped
      exact .arm registered
  | invoke id callback =>
      simp only [step, Option.ite_none_right_eq_some, Option.some.injEq] at stepped
      obtain ⟨⟨known, fresh⟩, rfl⟩ := stepped
      exact .invoke known fresh
  | exchange id spurious =>
      simp only [step, Signal.exchange] at stepped
      split at stepped
      · next callback tries =>
          split at stepped
          · next signal result =>
              split at result
              · next succeeds =>
                  obtain ⟨unclaimed, rfl⟩ := succeeds
                  obtain ⟨-, rfl⟩ := Prod.mk.inj result
                  obtain rfl := Option.some.inj stepped
                  exact .claim tries unclaimed
              · cases result
          · next signal result =>
              split at result
              · cases result
              · next fails =>
                  obtain ⟨-, rfl⟩ := Prod.mk.inj result
                  obtain rfl := Option.some.inj stepped
                  exact .lose tries fails
      · cases stepped
  | release id =>
      simp only [step] at stepped
      split at stepped
      · next callback holds =>
          obtain rfl := Option.some.inj stepped
          exact .release holds
      · cases stepped
  | aquire =>
      simp only [step, Option.ite_none_right_eq_some, Option.some.injEq] at stepped
      obtain ⟨⟨aquires, permitted⟩, rfl⟩ := stepped
      exact .aquire aquires permitted
  | answer =>
      simp only [step, Option.ite_none_right_eq_some, Option.some.injEq] at stepped
      obtain ⟨resumed, rfl⟩ := stepped
      exact .answer resumed

/-- A callback that nothing interrupts. -/
theorem uninterrupted
    {callback : Callback}
    {id : Nat}
    (known : race.Known timed callback)
    (spurious : Bool)
    (fresh : race.invocation id = none) :
    ∃ after, Lib.Reachable (step timed) race after ∧
      after.signal = race.signal.claim callback.outcome spurious ∧
        after.waiter = race.waiter ∧
          ∀ other, other ≠ id → after.invocation other = race.invocation other := by
  have invoked : race.step timed (.invoke id callback) =
      some (race.goto id callback .exchange) := if_pos ⟨known, fresh⟩
  have begun := Lib.Reachable.refl.tail invoked
  rw [Signal.claim_eq]
  cases result : race.signal.exchange callback.outcome spurious with
  | mk succeeded signal =>
      cases succeeded with
      | false =>
          have lost : (race.goto id callback .exchange).step timed (.exchange id spurious) =
              some { (race.goto id callback .exchange).goto id callback .completed with
                signal } := by
            simp [step, goto, result]
          exact ⟨_, begun.tail lost, rfl, rfl, fun other apart => by simp [goto, apart]⟩
      | true =>
          let claimed : Race :=
            { (race.goto id callback .exchange).goto id callback .release with
              signal
              claimed := some (id, callback) }
          have won : (race.goto id callback .exchange).step timed (.exchange id spurious) =
              some claimed := by
            simp [step, goto, result, claimed]
          have freed : claimed.step timed (.release id) = some
              { claimed.goto id callback .completed with
                signal := signal.release
                releases := race.releases + 1 } := by
            simp [step, goto, claimed]
          exact ⟨_, (begun.tail won).tail freed, rfl, rfl,
            fun other apart => by simp [goto, claimed, apart]⟩

/-! ## Who claims, releases and answers -/

/-- The waiter has taken a permit. -/
def Waiter.taken : Waiter → Nat
  | .resumed => 1
  | .returned _ => 1
  | _ => 0

/-- What holds in every state. -/
structure Sound (race : Race) : Prop where
  /-- Nobody has claimed, and nobody releases. -/
  unclaimed : race.claimed = none →
    race.signal.timeout = 0 ∧ race.releases = 0 ∧
      ∀ id callback, race.invocation id ≠ some (callback, .release)
  /-- The one that has claimed releases, or has released. -/
  claimed : ∀ id callback, race.claimed = some (id, callback) →
    race.signal.timeout = callback.outcome ∧
      (race.invocation id = some (callback, .release) ∧ race.releases = 0 ∨
        race.invocation id = some (callback, .completed) ∧ race.releases = 1)
  releasing : ∀ id callback, race.invocation id = some (callback, .release) →
    race.claimed = some (id, callback)
  permits : race.signal.signal + race.waiter.taken = race.releases
  answered : ∀ ready, race.waiter = .returned ready →
    (ready = true ↔ ∃ id, race.claimed = some (id, .event))

namespace Sound

theorem initial : Sound Race.initial where
  unclaimed := by simp [Race.initial, Signal.initial]
  claimed := by simp [Race.initial]
  releasing := by simp [Race.initial]
  permits := rfl
  answered := by simp [Race.initial]

/-- A claimed `timeout` is not 0. -/
theorem claimed_of_timeout
    (sound : Sound race)
    (timeout : race.signal.timeout ≠ 0) :
    ∃ id callback, race.claimed = some (id, callback) := by
  cases claimed : race.claimed with
  | none => exact absurd (sound.unclaimed claimed).1 timeout
  | some winner => exact ⟨winner.1, winner.2, rfl⟩

theorem unclaimed_of_timeout
    (sound : Sound race)
    (timeout : race.signal.timeout = 0) :
    race.claimed = none := by
  cases claimed : race.claimed with
  | none => rfl
  | some winner =>
      have outcome := (sound.claimed winner.1 winner.2 claimed).1
      rw [timeout] at outcome
      cases callback : winner.2 <;> simp [callback, Callback.outcome] at outcome

/-- The semaphore is released at most once. -/
theorem releases_le
    (sound : Sound race) :
    race.releases ≤ 1 := by
  cases claimed : race.claimed with
  | none =>
      have none := (sound.unclaimed claimed).2.1
      omega
  | some winner =>
      rcases (sound.claimed winner.1 winner.2 claimed).2 with ⟨-, none⟩ | ⟨-, one⟩ <;> omega

/-- Only the waiter moves. -/
theorem of_waiter
    (sound : Sound race)
    {waiter : Waiter}
    (taken : waiter.taken = race.waiter.taken)
    (answered : ∀ ready, waiter = .returned ready →
      (ready = true ↔ ∃ id, race.claimed = some (id, .event))) :
    Sound { race with waiter } where
  unclaimed := sound.unclaimed
  claimed := sound.claimed
  releasing := sound.releasing
  permits := by
    rw [taken]
    exact sound.permits
  answered := answered

/-- An invocation that has not claimed moves. -/
theorem of_goto
    (sound : Sound race)
    {id : Nat}
    {callback : Callback}
    {pc : Pc}
    (other : ∀ winner, race.claimed = some (id, winner) → False)
    (pcOther : pc ≠ .release) :
    Sound (race.goto id callback pc) where
  unclaimed := by
    intro none
    obtain ⟨timeout, releases, nobody⟩ := sound.unclaimed none
    refine ⟨timeout, releases, fun someone callback' => ?_⟩
    rcases eq_or_ne someone id with rfl | apart
    · simp [goto, pcOther]
    · simpa [goto, apart] using nobody someone callback'
  claimed := by
    intro winner callback' claimed
    have apart : winner ≠ id := by
      rintro rfl
      exact other callback' claimed
    simpa [goto, apart] using sound.claimed winner callback' claimed
  releasing := by
    intro someone callback' holds
    rcases eq_or_ne someone id with rfl | apart
    · simp [goto, pcOther] at holds
    · exact sound.releasing someone callback' (by simpa [goto, apart] using holds)
  permits := sound.permits
  answered := sound.answered

/-- What a step preserves. -/
theorem step
    (sound : Sound before)
    (stepped : before.step timed label = some after) :
    Sound after := by
  cases move_of_step stepped with
  | register called => exact sound.of_waiter (by simp [called, Waiter.taken]) (by simp)
  | arm registered => exact sound.of_waiter (by simp [registered, Waiter.taken]) (by simp)
  | @invoke id callback known fresh =>
      apply sound.of_goto _ (by simp)
      intro winner claimed
      rcases (sound.claimed id winner claimed).2 with ⟨present, -⟩ | ⟨present, -⟩ <;>
        simp [fresh] at present
  | @lose id callback spurious tries fails =>
      apply sound.of_goto _ (by simp)
      intro winner claimed
      rcases (sound.claimed id winner claimed).2 with ⟨present, -⟩ | ⟨present, -⟩ <;>
        simp [tries] at present
  | @claim id callback tries unclaimed =>
      have none := sound.unclaimed_of_timeout unclaimed
      obtain ⟨-, releases, nobody⟩ := sound.unclaimed none
      exact {
        unclaimed := by simp
        claimed := by
          rintro winner callback' ⟨⟩
          exact ⟨rfl, .inl ⟨by simp [goto], releases⟩⟩
        releasing := by
          intro someone callback' holds
          rcases eq_or_ne someone id with rfl | apart
          · obtain rfl : callback = callback' := by simpa [goto] using holds
            rfl
          · exact absurd (by simpa [goto, apart] using holds) (nobody someone callback')
        permits := sound.permits
        answered := by
          intro ready returned
          have permits := sound.permits
          have waiter : before.waiter = .returned ready := returned
          rw [releases, waiter] at permits
          simp [Waiter.taken] at permits }
  | @release id callback holds =>
      have claimed := sound.releasing id callback holds
      obtain ⟨outcome, state⟩ := sound.claimed id callback claimed
      have releases : before.releases = 0 := by
        rcases state with ⟨-, none⟩ | ⟨completed, -⟩
        · exact none
        · simp [holds] at completed
      exact {
        unclaimed := by simp [goto, claimed]
        claimed := by
          intro winner callback' same
          obtain ⟨rfl, rfl⟩ : id = winner ∧ callback = callback' := by
            simpa [goto, claimed] using same
          exact ⟨outcome, .inr ⟨by simp [goto], by simp [releases]⟩⟩
        releasing := by
          intro someone callback' holds'
          rcases eq_or_ne someone id with rfl | apart
          · simp [goto] at holds'
          · exact sound.releasing someone callback' (by simpa [goto, apart] using holds')
        permits := by
          have permits := sound.permits
          simp only [goto, Signal.release]
          omega
        answered := sound.answered }
  | aquire aquires permitted =>
      exact {
        unclaimed := sound.unclaimed
        claimed := sound.claimed
        releasing := sound.releasing
        permits := by
          have permits := sound.permits
          simp only [aquires, Waiter.taken] at permits ⊢
          omega
        answered := by simp }
  | answer resumed =>
      apply sound.of_waiter (by simp [resumed, Waiter.taken])
      rintro ready ⟨⟩
      have permits := sound.permits
      rw [resumed, Waiter.taken] at permits
      rw [decide_eq_true_iff]
      cases claimed : before.claimed with
      | none =>
          have none := (sound.unclaimed claimed).2.1
          omega
      | some winner =>
          have outcome := (sound.claimed winner.1 winner.2 claimed).1
          obtain ⟨id, callback⟩ := winner
          cases callback <;> simp [outcome, Callback.outcome]

theorem of_reached
    (reached : Lib.Reachable (Race.step timed) Race.initial race) :
    Sound race :=
  reached.invariant .initial fun _ _ _ sound stepped => sound.step stepped

end Sound

/-! ## When the first callback to complete finds the semaphore released -/

/-- A callback has completed. -/
def Completed (race : Race) : Prop :=
  ∃ id callback, race.invocation id = some (callback, .completed)

/-- As soon as a callback has completed, the semaphore was released once; it is not
released again; and the call returns `true` when an event callback has claimed, and
`false` otherwise. -/
structure Decided (race : Race) : Prop where
  released : race.Completed → race.releases = 1
  once : race.releases ≤ 1
  answer : ∀ ready, race.waiter = .returned ready →
    (ready = true ↔ ∃ id, race.claimed = some (id, .event))

/-- The exchange does not fail on an unclaimed `timeout`, and on a claimed one only after
the semaphore was released. -/
def Prompt (transition : Lib.Transition Race Label) : Prop :=
  match transition.label with
  | .exchange _ spurious =>
      if transition.before.signal.timeout = 0 then spurious = false
      else transition.before.releases = 1
  | _ => True

instance (transition : Lib.Transition Race Label) : Decidable (Prompt transition) := by
  unfold Prompt
  split <;> infer_instance

/-- A step that is not prompt lets a callback complete with the semaphore not released. -/
theorem prompt_of_decided
    (sound : Sound before)
    (stepped : before.step timed label = some after)
    (decided : Decided after) :
    Prompt ⟨before, label, after⟩ := by
  cases move_of_step stepped with
  | claim tries unclaimed => simp [Prompt, unclaimed]
  | @lose id callback spurious tries fails =>
      have released : before.releases = 1 :=
        decided.released ⟨id, callback, by simp [goto]⟩
      have claimed : before.signal.timeout ≠ 0 := by
        intro unclaimed
        have none := (sound.unclaimed (sound.unclaimed_of_timeout unclaimed)).2.1
        omega
      simp [Prompt, claimed, released]
  | _ => trivial

/-- An invocation that moves on and has not completed changes nothing here. -/
theorem completed_of_goto
    {id : Nat}
    {callback : Callback}
    {pc : Pc}
    (running : pc ≠ .completed)
    (completed : (race.goto id callback pc).Completed) :
    race.Completed := by
  obtain ⟨someone, callback', completed⟩ := completed
  rcases eq_or_ne someone id with rfl | apart
  · simp [goto, running] at completed
  · exact ⟨someone, callback', by simpa [goto, apart] using completed⟩

/-- What a prompt step preserves. -/
theorem released_of_step
    (sound : Sound before)
    (released : before.Completed → before.releases = 1)
    (stepped : before.step timed label = some after)
    (prompt : Prompt ⟨before, label, after⟩) :
    after.Completed → after.releases = 1 := by
  cases move_of_step stepped with
  | register called => exact released
  | arm registered => exact released
  | invoke known fresh => exact fun completed => released (completed_of_goto (by simp) completed)
  | claim tries unclaimed => exact fun completed => released (completed_of_goto (by simp) completed)
  | @lose id callback spurious tries fails =>
      intro _
      rcases eq_or_ne before.signal.timeout 0 with unclaimed | claimed
      · simp only [Prompt, unclaimed, if_true] at prompt
        exact absurd ⟨unclaimed, prompt⟩ fails
      · simpa [Prompt, claimed, goto] using prompt
  | @release id callback holds =>
      intro _
      have claimed := sound.releasing id callback holds
      rcases (sound.claimed id callback claimed).2 with ⟨-, none⟩ | ⟨completed, -⟩
      · simp [none]
      · simp [holds] at completed
  | aquire aquires permitted => exact released
  | answer resumed => exact released

/-- The exchange does not fail on an unclaimed `timeout`. -/
def Strong (transition : Lib.Transition Race Label) : Prop :=
  ∀ id spurious, transition.label = .exchange id spurious →
    transition.before.signal.timeout = 0 → spurious = false

/-- Without spurious failures, a callback that has completed was the one that released, or
the one that claimed releases next. -/
theorem released_or_releasing
    {taken : List (Lib.Transition Race Label)}
    (path : Lib.Path (Race.step timed) Race.initial taken race)
    (strong : ∀ transition ∈ taken, Strong transition)
    (completed : race.Completed) :
    race.releases = 1 ∨ ∃ id callback, race.invocation id = some (callback, .release) := by
  have claimed : race.claimed ≠ none := by
    revert completed
    apply path.guarded_invariant strong
    · simp [Completed, Race.initial]
    · intro before label after reached inductionHypothesis strong stepped completed
      have sound := Sound.of_reached reached
      cases move_of_step stepped with
      | register called => exact inductionHypothesis completed
      | arm registered => exact inductionHypothesis completed
      | invoke known fresh =>
          exact inductionHypothesis (completed_of_goto (by simp) completed)
      | claim tries unclaimed => simp
      | lose tries fails =>
          have claimed : before.signal.timeout ≠ 0 :=
            fun unclaimed => fails ⟨unclaimed, strong _ _ rfl unclaimed⟩
          obtain ⟨id, callback, winner⟩ := sound.claimed_of_timeout claimed
          simp [goto, winner]
      | release holds => simp [goto, sound.releasing _ _ holds]
      | aquire aquires permitted => exact inductionHypothesis completed
      | answer resumed => exact inductionHypothesis completed
  obtain ⟨winner, isWinner⟩ := Option.ne_none_iff_exists'.mp claimed
  rcases ((Sound.of_reached ⟨_, path⟩).claimed winner.1 winner.2 isWinner).2 with
    ⟨releases, -⟩ | ⟨-, released⟩
  · exact .inr ⟨_, _, releases⟩
  · exact .inl released

end

end Race

open Race in
/-- In every run of a call with or without a timeout: every state is decided as it should
be exactly when no exchange fails on an unclaimed `timeout`, and none on a claimed one
before the semaphore was released. -/
theorem race_decided_iff
    (timed : Bool)
    {taken : List (Lib.Transition Race Race.Label)}
    {race : Race}
    (path : Lib.Path (Race.step timed) Race.initial taken race) :
    (∀ transition ∈ taken, Decided transition.after) ↔
      ∀ transition ∈ taken, Prompt transition := by
  constructor
  · intro decided transition member
    obtain ⟨reached, stepped⟩ := path.mem_transition member
    exact prompt_of_decided (Sound.of_reached reached) stepped (decided transition member)
  · intro prompt
    suffices (race.Completed → race.releases = 1) ∧
        ∀ transition ∈ taken, Decided transition.after from this.2
    induction path with
    | nil => exact ⟨by simp [Completed, Race.initial], by simp⟩
    | @snoc _ before after label prior stepped inductionHypothesis =>
        simp only [List.forall_mem_append, List.forall_mem_singleton] at prompt ⊢
        obtain ⟨released, decided⟩ := inductionHypothesis prompt.1
        have sound := Sound.of_reached ⟨_, prior⟩
        have soundAfter := sound.step stepped
        have releasedAfter := released_of_step sound released stepped prompt.2
        exact ⟨releasedAfter, decided, releasedAfter, soundAfter.releases_le,
          soundAfter.answered⟩

/-- The event comes before the wait, and the timer after it. -/
private def eventFirst : List Race.Label :=
  [.register, .invoke 0 .event, .exchange 0 false, .release 0, .arm, .invoke 1 .timer,
    .exchange 1 false, .aquire, .answer]

theorem race_decided_iff_sample :
    (Lib.runFrom (Race.step true) Race.initial eventFirst).releases = 1 ∧
      ∀ transition ∈ Lib.trace (Race.step true) Race.initial eventFirst,
        transition.after.Decided := by
  have path : Lib.Path (Race.step true) Race.initial
      (Lib.trace (Race.step true) Race.initial eventFirst)
      (Lib.runFrom (Race.step true) Race.initial eventFirst) := Lib.path_runFrom (by decide)
  refine ⟨by decide, ?_⟩
  apply (race_decided_iff true path).mpr
  decide

/-- The only event is lost when the exchange fails spuriously. -/
theorem spurious_failure_loses_event :
    ¬∀ (timed : Bool) (race : Race), Lib.Reachable (Race.step timed) Race.initial race →
      race.Decided := by
  intro decided
  have lost := decided false
    (Lib.runFrom (Race.step false) Race.initial
      [.register, .arm, .invoke 0 .event, .exchange 0 true])
    (Lib.Reachable.runFrom _ _ _)
  exact absurd (lost.released ⟨0, .event, by decide⟩) (by decide)

end Event
end Cgo
