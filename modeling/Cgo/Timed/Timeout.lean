import Cgo.Channel.Nowait
import Cgo.Timed.Callback

/-!
# Timeouts

`timeout` makes a channel of capacity one and a timer whose callback sends on it with
`nowait`.  The timers run together with the channels: the callback sends once, and not
before the timer has expired.  While nobody else sends on the channel, the send is not
refused, and a receiver gets one value.
-/

namespace Cgo
namespace Channel

/-- A message enters once, and only a call under way returns. -/
theorem phase_of_step
    {α : Type}
    [Inhabited α]
    {program : Program α}
    {system after : System α}
    {label : Label}
    (wellFormed : WellFormed program system)
    (stepped : System.step program system label = some after)
    (message : MsgId) :
    after.phase message = system.phase message ∨
      (label = .enter message ∧ system.phase message = .fresh) ∨
        system.phase message = .inCall := by
  cases label with
  | enter other =>
      obtain ⟨fresh, _, rfl⟩ := System.step_enter stepped
      by_cases same : message = other
      · subst same
        exact .inr (.inl ⟨rfl, fresh⟩)
      · exact .inl (by simp [same])
  | turn id =>
      obtain ⟨call, holds, rfl⟩ := System.step_turn stepped
      by_cases same : message = call.message
      · subst same
        exact .inr (.inr (wellFormed.held id call holds).2)
      · exact .inl (by simp [System.settle, same])
  | fire select key =>
      obtain ⟨_, rfl⟩ := System.step_fire stepped
      exact .inl rfl
  | drop other =>
      obtain ⟨_, _, rfl⟩ := System.step_drop stepped
      exact .inl rfl

namespace Nowait

variable {α : Type} [Inhabited α] {program : Program α} {system after : System α}

/-! ## A nowait send that is alone -/

/-- No other send on the channel has begun, and the channel has room for it. -/
structure Alone (send : Send program) (system : System α) : Prop where
  room : 0 < program.capacity send.chan
  only : ∀ other, (program.msg other).chan = send.chan →
    (program.msg other).side = .send → system.phase other ≠ .fresh → other = send.message

/-- The call stores its message, and then hands it on. -/
structure Served (send : Send program) (system : System α) : Prop where
  calling : ∀ pc, (system.chan send.chan).call = some ⟨send.message, pc⟩ →
    pc = .buffer ∨ (pc = .shift ∧ system.world.commits send.message ≠ 0)
  ended : (system.phase send.message).Ended →
    system.phase send.message = .returned .ok ∧ system.world.commits send.message ≠ 0

namespace Served

variable {send : Send program}

omit [Inhabited α] in
theorem initial : Served send (System.initial program) := by
  constructor
  · simp [System.initial, Chan.initial]
  · simp [System.initial, Phase.Ended]

omit [Inhabited α] in
/-- A step that is not a turn of the call. -/
theorem of_same
    (served : Served send system)
    (committed : system.world.commits send.message ≠ 0 →
      after.world.commits send.message ≠ 0)
    (call : ∀ pc, (after.chan send.chan).call = some ⟨send.message, pc⟩ →
      pc = .buffer ∨ (system.chan send.chan).call = some ⟨send.message, pc⟩)
    (phase : (after.phase send.message).Ended →
      after.phase send.message = system.phase send.message) :
    Served send after where
  calling pc holds := by
    rcases call pc holds with start | before
    · exact .inl start
    · exact (served.calling pc before).imp_right fun shift => ⟨shift.1, committed shift.2⟩
  ended complete := by
    have same := phase complete
    rw [same] at complete ⊢
    exact ⟨(served.ended complete).1, committed (served.ended complete).2⟩

omit [Inhabited α] in
/-- Before the send nothing has gone into the buffer. -/
theorem unbuffered
    (alone : Alone send system)
    (delivered : Delivered program system)
    (uncommitted : system.world.commits send.message = 0) :
    (system.chan send.chan).buffer = [] := by
  refine List.eq_nil_iff_forall_not_mem.mpr fun sent buffered => ?_
  have taken : sent.origin ∈ (system.chan send.chan).taken.map Sent.origin := by
    rw [delivered.fifo]
    exact List.mem_map_of_mem (List.mem_append_right _ buffered)
  obtain ⟨here, sends, committed⟩ := (delivered.mem_taken _ _).mp taken
  have begun : system.phase sent.origin ≠ .fresh :=
    fun fresh => committed (delivered.fresh _ fresh)
  rw [alone.only sent.origin here sends begun] at committed
  exact committed uncommitted

/-- A turn of the call. -/
theorem turn
    {pc : Pc}
    {outcome : World α × Chan α × Next}
    (alone : Alone send system)
    (delivered : Delivered program system)
    (served : Served send system)
    (holds : (system.chan send.chan).call = some ⟨send.message, pc⟩)
    (turned : Turn program (program.capacity send.chan) .send system.world
      (system.chan send.chan) send.message pc outcome) :
    (outcome.2.2 = .goto .shift ∨ outcome.2.2 = .returned .ok) ∧
      outcome.1.commits send.message ≠ 0 := by
  have atShift : pc = .shift → system.world.commits send.message ≠ 0 := by
    rintro rfl
    simpa using served.calling .shift holds
  have notScan : pc ≠ .scan := by
    rintro rfl
    simpa using served.calling .scan holds
  cases turned with
  | pass closed =>
      have pending := delivered.pending send.message (.inr ⟨.buffer, by simp, holds⟩)
      have empty := unbuffered alone delivered pending
      have room := alone.room
      rcases closed with full | refused
      · simp only [Chan.Closed, empty, List.length_nil] at full
        omega
      · simp at refused
  | store => exact ⟨.inl rfl, by simp⟩
  | served => exact ⟨.inr rfl, atShift rfl⟩
  | @handOver recver rest front behind =>
      refine ⟨.inr rfl, ?_⟩
      by_cases same : send.message = recver
      · simp [same]
      · simpa [same] using atShift rfl
  | discard => exact ⟨.inl rfl, atShift rfl⟩
  | fetch receiving => cases receiving
  | refill receiving => cases receiving
  | _ => exact absurd rfl notScan

theorem step
    {label : Label}
    (alone : Alone send system)
    (reached : System.Reached program system)
    (served : Served send system)
    (stepped : System.step program system label = some after) :
    Served send after := by
  have committed : system.world.commits send.message ≠ 0 →
      after.world.commits send.message ≠ 0 := committed_of_step reached stepped
  have wellFormed := WellFormed.of_reached reached
  cases label with
  | enter message =>
      obtain ⟨fresh, free, rfl⟩ := System.step_enter stepped
      refine served.of_same committed (fun pc holds => ?_) fun complete => ?_
      · by_cases same : send.chan = (program.msg message).chan
        · cases side : (program.msg message).side with
          | send =>
              simp [same, side, Chan.enter] at holds
              exact .inl holds.2.symm
          | recv =>
              simp [same, side, Chan.enter] at holds
              exact .inl holds.2.symm
        · exact .inr (by simpa [same] using holds)
      · by_cases same : send.message = message
        · simp [same, Phase.Ended] at complete
        · simp [same]
  | turn id =>
      obtain ⟨call, holds, rfl⟩ := System.step_turn stepped
      by_cases own : call.message = send.message
      · obtain ⟨message, pc⟩ := call
        obtain rfl : message = send.message := own
        obtain rfl : id = send.chan := (wellFormed.held id _ holds).1.symm
        have turned := turn_spec program (program.capacity send.chan) system.world
          (system.chan send.chan) ⟨send.message, pc⟩ (wellFormed.unlinked holds _)
        rw [send.sends] at turned
        obtain ⟨goes, done⟩ := served.turn alone (.of_reached reached) holds turned
        refine ⟨fun later held => ?_, fun complete => ?_⟩
        · simp only [System.settle, Function.update_self] at held
          obtain ⟨-, goto⟩ := Chan.call_resume held
          rw [goto] at goes
          exact .inr ⟨by simpa using goes, done⟩
        · simp only [System.settle, Function.update_self] at complete ⊢
          rcases goes with goto | returned
          · simp [goto, Next.phase, Phase.Ended] at complete
          · exact ⟨by rw [returned, Next.phase], done⟩
      · refine served.of_same committed (fun pc held => ?_) fun _ => ?_
        · by_cases same : send.chan = id
          · subst same
            simp only [System.settle, Function.update_self] at held
            exact absurd (Chan.call_resume held).1.symm own
          · exact .inr (by simpa [System.settle, same] using held)
        · simp [System.settle, Ne.symm own]
  | fire select key =>
      obtain ⟨_, rfl⟩ := System.step_fire stepped
      exact served.of_same committed (fun pc holds => .inr holds) fun _ => rfl
  | drop message =>
      obtain ⟨_, free, rfl⟩ := System.step_drop stepped
      refine served.of_same committed (fun pc holds => ?_) fun _ => rfl
      by_cases same : send.chan = (program.msg message).chan
      · simp [same, Chan.unlinkThis, free] at holds
      · exact .inr (by simpa [same] using holds)

end Served

end Nowait
end Channel

namespace Timed

open Channel

variable {α : Type} {program : Program α}

/-! ## The calls of `timeout` -/

variable (program) in
/-- The calls of `timeout` in a program: the sends that the calls of the callback of a
timer make, all on one channel of capacity one. -/
structure Timeouts where
  send? : TimerId → Option (Nat → Nowait.Send program)
  /-- the call of a callback that sends a message -/
  call? : MsgId → Option Invocation
  sends : ∀ timer nth message, call? message = some ⟨timer, nth⟩ ↔
    ∃ sends, send? timer = some sends ∧ (sends nth).message = message
  chan : ∀ timer sends, send? timer = some sends → ∀ nth, (sends nth).chan = (sends 0).chan
  capacity : ∀ timer sends, send? timer = some sends → program.capacity (sends 0).chan = 1

variable [Inhabited α] {timeouts : Timeouts program}

namespace Timeouts

variable (timeouts) in
/-- The channels as the callbacks of timers see them.  The effect of a call begins when
its message enters the channel, and has ended when the call of `recv_from` has returned. -/
def effects : Effects (Channel.System α) Channel.Label where
  step := System.step program
  start := .initial program
  timer?
    | .enter message => (timeouts.call? message).map Invocation.timer
    | _ => none
  nth?
    | .enter message => (timeouts.call? message).map Invocation.nth
    | _ => none
  has timer := (timeouts.send? timer).isSome
  ended system call :=
    (timeouts.send? call.timer).all fun sends =>
      decide (system.phase (sends call.nth).message).Ended

theorem ended_iff
    {system : Channel.System α}
    {call : Invocation} :
    timeouts.effects.ended system call = true ↔
      ∀ sends, timeouts.send? call.timer = some sends →
        (system.phase (sends call.nth).message).Ended := by
  simp [effects, Option.all_eq_true]

theorem lasting : timeouts.effects.Lasting := by
  intro before action after call reached stepped ended
  refine ended_iff.mpr fun sends made => ?_
  have complete := ended_iff.mp ended sends made
  have wellFormed : WellFormed program before := .of_reached reached
  rcases phase_of_step wellFormed stepped (sends call.nth).message with
    same | ⟨_, fresh⟩ | calls
  · rwa [same]
  · simp [fresh, Phase.Ended] at complete
  · simp [calls, Phase.Ended] at complete

end Timeouts

/-- What the channel of a `timeout` promises while nobody else sends on it. -/
structure Ticks
    (hosted : Hosted (Channel.System α))
    (timer : TimerId)
    (send : Nowait.Send program) : Prop where
  /-- One value at most goes through the channel: it waits in the buffer or was
  received. -/
  once : (hosted.other.chan send.chan).buffer.length +
    (hosted.other.chan send.chan).given.length ≤ 1
  /-- Whoever receives a value receives it after the timer has expired. -/
  punctual : (hosted.other.chan send.chan).given ≠ [] →
    ∃ fired ∈ hosted.timed.fired, fired.timer = timer ∧
      hosted.timed.expiry timer ≤ fired.time
  /-- When the callback has returned, its value is in the channel or was received. -/
  kept : hosted.Fired timer → hosted.Silent timer →
    hosted.other.phase send.message = .returned .ok ∧
      (hosted.other.chan send.chan).buffer.length +
        (hosted.other.chan send.chan).given.length = 1

/-- All sends on the channel are those of the callback. -/
def Sole (sends : Nat → Nowait.Send program) : Prop :=
  ∀ other, (program.msg other).chan = (sends 0).chan → (program.msg other).side = .send →
    ∃ nth, (sends nth).message = other

/-- What a call of `timeout` promises. -/
structure TicksOnce
    (hosted : Hosted (Channel.System α))
    (timer : TimerId)
    (sends : Nat → Nowait.Send program) : Prop where
  /-- One send at most has begun. -/
  once : ∀ nth, hosted.other.phase (sends nth).message ≠ .fresh → nth = 0
  /-- It began after the timer was popped, in a call that came not before its expiry. -/
  punctual : hosted.other.phase (sends 0).message ≠ .fresh → timer ∈ hosted.timed.popped ∧
    ∃ fired ∈ hosted.timed.fired, fired.timer = timer ∧ hosted.timed.expiry timer ≤ fired.time
  /-- When the callback has returned, the send has. -/
  returned : hosted.Fired timer → hosted.Silent timer →
    (hosted.other.phase (sends 0).message).Ended
  sole : Sole sends → Ticks hosted timer (sends 0)

namespace Hosted

variable {algorithms : Algorithms} {slots : Nat} {now : TimePoint}
variable {hosted : Hosted (Channel.System α)} {timer : TimerId}
variable {sends : Nat → Nowait.Send program}

/-- A send of a callback that has begun did so as the effect of its call. -/
theorem begun_of_entered
    (reached : Reached algorithms slots timeouts.effects now hosted)
    {message : MsgId}
    {call : Invocation}
    (calls : timeouts.call? message = some call)
    (entered : hosted.other.phase message ≠ .fresh) :
    call ∈ hosted.begun := by
  refine reached.invariant_of_reachable (fun hosted =>
    hosted.other.phase message ≠ .fresh → call ∈ hosted.begun) ?_ ?_ entered
  · simp [initial, Timeouts.effects, System.initial]
  · intro before label after reachedBefore known stepped entered
    have wellFormed : WellFormed program before.other := .of_reached (other_reached reachedBefore)
    cases move_of_step stepped with
    | timed => exact known entered
    | @start thread action other begun runs begins moved =>
        rcases phase_of_step wellFormed moved message with same | ⟨rfl, _⟩ | inCall
        · exact List.mem_append_left _ (known (same ▸ entered))
        · obtain ⟨ofTimer, ofNth⟩ := begins
          have sameTimer : call.timer = begun.timer := by
            simpa [Timeouts.effects, calls] using ofTimer
          have sameNth : call.nth = begun.nth := ofNth call.nth (by simp [Timeouts.effects, calls])
          have same : call = begun := by
            cases call
            cases begun
            simp_all
          simp [same]
        · exact List.mem_append_left _ (known (by simp [inCall]))
    | @other action other elsewhere moved =>
        rcases phase_of_step wellFormed moved message with same | ⟨rfl, _⟩ | inCall
        · exact known (same ▸ entered)
        · simp [Timeouts.effects, calls] at elsewhere
        · exact known (by simp [inCall])

/-- Of the sends of a callback only the first begins. -/
theorem first_of_entered
    (reached : Reached algorithms slots timeouts.effects now hosted)
    (made : timeouts.send? timer = some sends)
    {nth : Nat}
    (entered : hosted.other.phase (sends nth).message ≠ .fresh) :
    nth = 0 := by
  have sound : Sound timeouts.effects hosted := .of_reached Timeouts.lasting reached
  have calls := (timeouts.sends timer nth (sends nth).message).mpr ⟨sends, made, rfl⟩
  exact (sound.fired _ (begun_of_entered reached calls entered)).1

theorem alone_of_sole
    (reached : Reached algorithms slots timeouts.effects now hosted)
    (made : timeouts.send? timer = some sends)
    (sole : Sole sends) :
    Nowait.Alone (sends 0) hosted.other where
  room := by
    rw [timeouts.capacity timer sends made]
    exact Nat.one_pos
  only other here side begun := by
    obtain ⟨nth, rfl⟩ := sole other here side
    rw [first_of_entered reached made begun]

theorem served_of_sole
    (reached : Reached algorithms slots timeouts.effects now hosted)
    (made : timeouts.send? timer = some sends)
    (sole : Sole sends) :
    Nowait.Served (sends 0) hosted.other := by
  refine reached.invariant_of_reachable (fun hosted => Nowait.Served (sends 0) hosted.other)
    .initial ?_
  intro before label after reachedBefore served stepped
  have alone := alone_of_sole reachedBefore made sole
  have otherReached : Channel.System.Reached program before.other := other_reached reachedBefore
  cases move_of_step stepped with
  | timed => exact served
  | start _ _ moved => exact served.step alone otherReached moved
  | other _ moved => exact served.step alone otherReached moved

/-- What goes through the channel while nobody else sends on it. -/
theorem ticks_of_sole
    (reached : Reached algorithms slots timeouts.effects now hosted)
    (made : timeouts.send? timer = some sends)
    (punctual : hosted.other.phase (sends 0).message ≠ .fresh →
      ∃ fired ∈ hosted.timed.fired, fired.timer = timer ∧
        hosted.timed.expiry timer ≤ fired.time)
    (returned : hosted.Fired timer → hosted.Silent timer →
      (hosted.other.phase (sends 0).message).Ended)
    (sole : Sole sends) :
    Ticks hosted timer (sends 0) := by
  have otherReached : Channel.System.Reached program hosted.other := other_reached reached
  have delivered := Delivered.of_reached otherReached
  have alone := alone_of_sole reached made sole
  have served := served_of_sole reached made sole
  -- only the send of the callback is ever taken
  have taken : ∀ origin, origin ∈ (hosted.other.chan (sends 0).chan).taken.map Sent.origin →
      origin = (sends 0).message ∧ hosted.other.world.commits (sends 0).message ≠ 0 := by
    intro origin member
    obtain ⟨here, side, committed⟩ := (delivered.mem_taken _ _).mp member
    obtain rfl := alone.only origin here side
      fun fresh => committed (delivered.fresh _ fresh)
    exact ⟨rfl, committed⟩
  have length : (hosted.other.chan (sends 0).chan).taken.length =
      (hosted.other.chan (sends 0).chan).buffer.length +
        (hosted.other.chan (sends 0).chan).given.length := by
    rw [delivered.fifo, List.length_append, List.length_map, Nat.add_comm]
  have once : (hosted.other.chan (sends 0).chan).taken.length ≤ 1 := by
    have nodup := delivered.taken_nodup (sends 0).chan
    rw [List.eq_replicate_length.mpr fun origin member => (taken origin member).1] at nodup
    simpa using List.nodup_replicate.mp nodup
  refine ⟨length ▸ once, fun received => ?_, fun fired silent => ?_⟩
  · have some_taken : (hosted.other.chan (sends 0).chan).taken ≠ [] := by
      rw [delivered.fifo]
      simp [received]
    obtain ⟨sent, member⟩ := List.exists_mem_of_ne_nil _ some_taken
    have committed := (taken sent.origin (List.mem_map_of_mem member)).2
    exact punctual fun fresh => committed (delivered.fresh _ fresh)
  · obtain ⟨ok, committed⟩ := served.ended (returned fired silent)
    have member : (sends 0).message ∈
        (hosted.other.chan (sends 0).chan).taken.map Sent.origin :=
      (delivered.mem_taken _ _).mpr ⟨rfl, (sends 0).sends, committed⟩
    have positive := List.length_pos_of_mem member
    rw [List.length_map] at positive
    exact ⟨ok, by omega⟩

end Hosted

/-- In every state that timers and channels reach together, every call of `timeout`
keeps its promise. -/
theorem timeout_ticks_once
    (timeouts : Timeouts program)
    {algorithms : Algorithms}
    {slots : Nat}
    {now : TimePoint}
    {hosted : Hosted (Channel.System α)}
    {timer : TimerId}
    {sends : Nat → Nowait.Send program}
    (reached : Hosted.Reached algorithms slots timeouts.effects now hosted)
    (made : timeouts.send? timer = some sends) :
    TicksOnce hosted timer sends := by
  have sound : Hosted.Sound timeouts.effects hosted := .of_reached Timeouts.lasting reached
  have punctual : hosted.other.phase (sends 0).message ≠ .fresh →
      timer ∈ hosted.timed.popped ∧ ∃ fired ∈ hosted.timed.fired, fired.timer = timer ∧
        hosted.timed.expiry timer ≤ fired.time := by
    intro entered
    have calls := (timeouts.sends timer 0 (sends 0).message).mpr ⟨sends, made, rfl⟩
    exact sound.punctual reached (Hosted.begun_of_entered reached calls entered)
  have returned : hosted.Fired timer → hosted.Silent timer →
      (hosted.other.phase (sends 0).message).Ended := by
    intro fired silent
    have has : timeouts.effects.has timer = true := by simp [Timeouts.effects, made]
    exact Timeouts.ended_iff.mp (sound.ended timer has fired silent).2 sends made
  exact ⟨fun _ entered => Hosted.first_of_entered reached made entered, punctual, returned,
    Hosted.ticks_of_sole reached made (fun entered => (punctual entered).2) returned⟩

/-- The even messages are the sends of a `timeout` on channel 0, one for each call of its
callback, and the others receive from it. -/
private def oneTimeout : Program Nat where
  capacity _ := 1
  msg message :=
    if message % 2 = 0 then ⟨.simplex (some message) false, 0, .send, true⟩
    else ⟨.simplex (some message) true, 0, .recv, false⟩
  mem var := var
  sends_data message _ := by
    split <;> simp [Variant.data]

/-- The sends, whose `Nil` is bound to a variable next to their own. -/
private def tick (nth : Nat) : Nowait.Send oneTimeout where
  message := 2 * nth
  data := 2 * nth
  overload := .rvalue (2 * nth + 1)
  simplex := by simp [oneTimeout]
  sends := by simp [oneTimeout]
  oneshot := by simp [oneTimeout]
  own x := by
    rintro ⟨⟩
    exact Nat.succ_ne_self _

/-- The callback of timer 0 makes the sends. -/
private def onlyTimeout : Timeouts oneTimeout where
  send?
    | 0 => some tick
    | _ => none
  call? message := if message % 2 = 0 then some ⟨0, message / 2⟩ else none
  sends timer nth message := by
    cases timer with
    | zero =>
        simp only [Option.ite_none_right_eq_some, Option.some.injEq, Invocation.mk.injEq,
          true_and, exists_eq_left', tick]
        constructor
        · rintro ⟨even, rfl⟩
          exact Nat.mul_div_cancel' (Nat.dvd_of_mod_eq_zero even)
        · rintro rfl
          simp
    | succ timer => simp
  chan timer sends made nth := by
    cases timer with
    | zero =>
        obtain rfl := Option.some.inj made
        simp [Nowait.Send.chan, tick, oneTimeout]
    | succ timer => cases made
  capacity timer sends made := rfl

/-- A receive waits on the channel before the timer has expired, and gets the tick. -/
private def waiting : List (Hosted.Label Channel.Label) :=
  [.timed (.draw 0 50), .timed (.stamp 0), .timed (.push 0),
    .other (.enter 1), .other (.turn 0), .other (.turn 0),
    .timed (.tick 150), .timed (.call 1 7 4), .timed (.loop 1), .timed (.callback 1),
    .start 1 (.enter 0), .other (.turn 0), .other (.turn 0), .timed (.finish 1)]

/-- The state after it. -/
private def ticked : Hosted (Channel.System Nat) :=
  Lib.runFrom (Hosted.step (Lib.HeapAlgorithms.sorting Task.ex) 1 onlyTimeout.effects)
    (.initial onlyTimeout.effects 100) waiting

theorem timeout_ticks_once_sample :
    (ticked.timed.fired = [⟨1, 0, 150⟩] ∧ (ticked.other.chan 0).given.map Given.target = [1]) ∧
      TicksOnce ticked 0 tick ∧ Ticks ticked 0 (tick 0) := by
  have once : TicksOnce ticked 0 tick :=
    timeout_ticks_once onlyTimeout (Lib.Reachable.runFrom _ _ _) rfl
  refine ⟨by decide, once, once.sole fun other _ sends => ⟨other / 2, ?_⟩⟩
  have even : other % 2 = 0 := by
    by_contra odd
    simp [oneTimeout, odd] at sends
  exact Nat.mul_div_cancel' (Nat.dvd_of_mod_eq_zero even)

end Timed
end Cgo
