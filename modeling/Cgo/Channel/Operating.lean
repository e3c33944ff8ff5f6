import Cgo.Channel.Select
import Cgo.Schedule.Component
import Mathlib.Algebra.Ring.Parity

/-!
# Channel operations on the scheduler

A plain send or receive and `operator()` of a select end with `co_await signal.aquire()`,
on a semaphore of their own that the commit of their message releases.  Here channels and
selects run together with the contexts and their semaphores.  A lock that a commit holds
while it releases a semaphore is free again when the release was made.
-/

namespace Cgo
namespace Channel

open Schedule (Component Config Scheduled Signals)

/-! ## The releases that the channels count -/

section

variable {α : Type} {program : Program α}

@[simp] theorem World.released_move (world : World α) (src dst : Ptr α) (signal : Signal) :
    (world.move src dst).released signal = world.released signal := by
  cases signal <;> simp [World.released]

/-- A commit takes no release back. -/
theorem World.released_le_commit (world : World α) (message : MsgId) (signal : Signal) :
    world.released signal ≤ (world.commit program message).released signal := by
  cases signal with
  | own other =>
      simp only [World.released, World.commit_signal]
      split <;> omega
  | shared select =>
      simp only [World.released, World.commit_selectSignal]
      split <;> omega

/-- What was released is the semaphore of a committed message. -/
theorem Ledger.committed_of_released
    {world : World α}
    {signal : Signal}
    {operation : MsgId}
    (ledger : Ledger program world)
    (made : program.signal? operation = some signal)
    (released : world.released signal ≠ 0) :
    ∃ message, program.signal? message = some signal ∧ world.commits message ≠ 0 := by
  rcases Program.signal_cases made with ⟨select, rfl, owned⟩ | ⟨rfl, own⟩
  · by_contra none_
    refine released (ledger.idle select fun message caseOf => ?_)
    by_contra committed
    refine none_ ⟨message, ?_, committed⟩
    unfold Program.select? Variant.select? at caseOf
    unfold Program.signal?
    split at caseOf
    · cases caseOf
    · next variant =>
        obtain rfl := Option.some.inj caseOf
        rw [variant]
  · refine ⟨operation, made, ?_⟩
    rwa [World.released, ledger.own operation own] at released

theorem Ledger.released_le_one
    {world : World α}
    {signal : Signal}
    {operation : MsgId}
    (ledger : Ledger program world)
    (made : program.signal? operation = some signal) :
    world.released signal ≤ 1 := by
  by_cases released : world.released signal = 0
  · omega
  · obtain ⟨message, own, committed⟩ := ledger.committed_of_released made released
    exact (ledger.released_once committed own).le

variable [Inhabited α]

theorem Deal.released_le
    {world moved : World α}
    {chan after : Chan α}
    (deal : Deal program world chan moved after)
    (signal : Signal) :
    world.released signal ≤ moved.released signal := by
  cases deal with
  | idle => exact le_rfl
  | take =>
      rw [World.take, ← World.released_move world]
      exact World.released_le_commit _ _ signal
  | hand =>
      rw [World.hand, ← World.released_move world]
      exact World.released_le_commit _ _ signal
  | exchange =>
      rw [World.exchange, ← World.released_move world]
      exact (World.released_le_commit _ _ signal).trans
        (World.released_le_commit _ _ signal)

/-- No step of the channels takes a release back. -/
theorem System.released_le_of_step
    {system after : System α}
    {label : Label}
    (reached : System.Reached program system)
    (stepped : System.step program system label = some after)
    (signal : Signal) :
    system.world.released signal ≤ after.world.released signal := by
  have wellFormed := WellFormed.of_reached reached
  cases label with
  | enter message =>
      obtain ⟨_, _, rfl⟩ := System.step_enter stepped
      exact le_rfl
  | turn id =>
      obtain ⟨call, outcome, held, turn, rfl⟩ := wellFormed.turn stepped
      exact (wellFormed.deal (Matched.of_reached reached id) held turn).released_le signal
  | fire select key =>
      obtain ⟨_, rfl⟩ := System.step_fire stepped
      cases signal <;> exact le_rfl
  | drop message =>
      obtain ⟨_, _, rfl⟩ := System.step_drop stepped
      exact le_rfl

end

/-! ## The operations as a component -/

namespace Operating

section

variable (program : Program α) (signals : Signals Signal)
variable (selecting : Selecting α) (sys : Schedule.System)

/-- The commits of a message have released its semaphore. -/
def quiet (signal : Signal) : Bool :=
  signals.quiet sys signal (selecting.system.world.released signal)

/-- The commits of a channel have.  Until then its lock is not free. -/
def settled (id : ChanId) : Bool :=
  let chan := selecting.system.chan id
  (chan.sends ++ chan.recvs).all fun message =>
    selecting.system.world.commits message == 0 ||
      (program.signal? message).all (quiet signals selecting sys)

/-- The coroutine of a plain message has come to its end. -/
def ended (message : MsgId) : Bool :=
  match selecting.system.phase message with
  | .threw _ => true
  | _ => (program.signal? message).all (signals.left sys)

/-- The message whose channel a select locks next. -/
def locking? (select : SelectId) : Option MsgId :=
  match selecting.pc select with
  | .poll listeners => listeners.head?
  | .calling message _ => some message
  | _ => none

/-- The lock of a message's channel is free. -/
def unlocked (message : MsgId) : Bool :=
  settled program signals selecting sys (program.msg message).chan

/-- The locks that a step needs are free, and its coroutine has come as far. -/
def enabled (selects : Selects program) : Selecting.Label → Bool
  | .enter message => unlocked program signals selecting sys message
  | .turn id => settled program signals selecting sys id
  | .drop message =>
      unlocked program signals selecting sys message &&
        ended program signals selecting sys message
  | .start _ _ => true
  | .poll select =>
      (locking? selecting select).all (unlocked program signals selecting sys)
  | .resume select =>
      (locking? selecting select).all (unlocked program signals selecting sys)
  | .check select => quiet signals selecting sys (.shared select)
  | .decide select =>
      (selects.defaultKey select).isNone || quiet signals selecting sys (.shared select)
  | .wake _ => false
  | .destroy select => (sys.sched.task (signals.task (.shared select))).destroyed
  | .dropNext select =>
      (selecting.msgs select).head?.all (unlocked program signals selecting sys)

/-- The operation is at its `co_await signal.aquire()`. -/
def waits : Signal → Bool
  | .own message =>
      match selecting.system.phase message with
      | .returned _ =>
          unlocked program signals selecting sys message &&
            sys.taken (signals.sem (.own message)) == 0
      | _ => false
  | .shared select => decide (selecting.pc select = .aquire)

end

/-- The operation after its `aquire` is complete: a select returns `_key`. -/
def aquired (selecting : Selecting α) : Signal → Selecting α
  | .own _ => selecting
  | .shared select =>
      selecting.goto select (.returned (selecting.system.world.key select))

variable [Inhabited α] {program : Program α}

/-- The channels and selects as a component that waits for semaphores. -/
def operations (selects : Selects program) (signals : Signals Signal) :
    Component (Selecting α) Selecting.Label Signal where
  step := Selecting.step selects
  start := .initial program
  releases selecting signal := selecting.system.world.released signal
  enabled selecting sys := enabled program signals selecting sys selects
  waits := waits program signals
  aquired := aquired

variable {config : Config} {selects : Selects program} {signals : Signals Signal}
variable {operating : Scheduled (Selecting α)}

theorem lawful : (operations selects signals).Lawful where
  grows selecting label after signal reached stepped := by
    rcases Selecting.step_system stepped with same | ⟨action, channelStep, _⟩
    · exact (congrArg (fun system => system.world.released signal) same).ge
    · exact System.released_le_of_step (Selecting.system_reached reached) channelStep signal
  wakes selecting sys signal _ waiting released := by
    cases signal with
    | own message => exact .inl rfl
    | shared select =>
        exact .inr ⟨.wake select, if_pos ⟨of_decide_eq_true waiting, released⟩⟩
  still selecting signal other := by
    cases signal <;> rfl

/-- Channels and selects whose waiting is done by the semaphores of the scheduler run as
they do when their waiting is a count of releases. -/
theorem semaphores_implement_waiting
    (reached : Scheduled.Reached (operations selects signals) config signals operating) :
    Selecting.Reached selects operating.state :=
  (Scheduled.Consistent.of_reached lawful reached).state

/-- The semaphores of plain messages have even numbers, those of selects odd ones.  Task 1
runs the plain operations, and task 0 the selects. -/
private def paritySignals : Signals Signal where
  start _ := 0
  sem
    | .own message => 2 * message
    | .shared select => 2 * select + 1
  signal? id := some (if id % 2 = 0 then .own (id / 2) else .shared (id / 2))
  task
    | .own _ => ⟨0, 1⟩
    | .shared _ => ⟨0, 0⟩
  signals id signal := by
    obtain ⟨half, rfl | rfl⟩ := Nat.even_or_odd' id
    · cases signal with
      | own message => simp [eq_comm]
      | shared select => simp [Nat.two_mul_ne_two_mul_add_one.symm]
    · cases signal with
      | own message => simp [Nat.add_mod, Nat.two_mul_ne_two_mul_add_one]
      | shared select => simp [Nat.add_mod, Nat.mul_add_div, eq_comm]
  empty _ := rfl

/-- The select of task 0 waits on both channels, and the send of task 1 meets it. -/
private def meeting : List (Scheduled.Step Selecting.Label Signal) :=
  [.sys (.sched (.create 0 0)), .sys (.sched (.push 0)),
    .sys (.sched (.create 0 0)), .sys (.sched (.push 0)),
    .sys (.sched (.pop ⟨0, 0⟩ 0)), .sys (.sched (.resume ⟨0, 0⟩)),
    .component (.start 0 [2, 3]), .component (.poll 0), .component (.turn 0), .component (.turn 0),
    .component (.resume 0), .component (.check 0), .component (.poll 0), .component (.turn 1),
    .component (.turn 1), .component (.resume 0), .component (.check 0), .component (.poll 0),
    .component (.decide 0), .aquire ⟨0, 0⟩ (.shared 0), .sys (.sched (.settle ⟨0, 0⟩)),
    .sys (.sched (.pop ⟨0, 0⟩ 0)), .sys (.sched (.resume ⟨0, 0⟩)),
    .component (.enter 4), .component (.turn 1), .component (.turn 1),
    .release (.shared 0), .release (.own 4), .aquire ⟨0, 0⟩ (.own 4), .component (.drop 4),
    .sys (.sched (.pause ⟨0, 0⟩ .finish)), .sys (.sched (.settle ⟨0, 0⟩)),
    .sys (.sched (.pop ⟨0, 0⟩ 0)), .sys (.sched (.resume ⟨0, 0⟩)),
    .aquire ⟨0, 0⟩ (.shared 0)]

/-- The state after it. -/
private def met : Scheduled (Selecting Nat) :=
  Lib.runFrom
    (Scheduled.step (operations Selecting.sample paritySignals) Schedule.oneWorker
      paritySignals)
    (.initial (operations Selecting.sample paritySignals) paritySignals) meeting

theorem semaphores_implement_waiting_sample :
    met.state.pc 0 = .returned (some ⟨11, by decide⟩) ∧
      Selecting.Reached Selecting.sample met.state :=
  ⟨by decide, semaphores_implement_waiting (Lib.Reachable.runFrom _ _ _)⟩

/-! ## Every operation ends once -/

/-- What an operation that waits for its semaphore promises. -/
structure EndsOnce (program : Program α) (signals : Signals Signal)
    (operating : Scheduled (Selecting α)) (signal : Signal) : Prop where
  /-- The semaphore is released once at most, `aquire` completes once at most, and while no
  context is shut down the task is not left blocked after the release. -/
  oneshot : operating.sys.Oneshot (signals.sem signal)
  /-- When the semaphore is released, and so when `aquire` has completed, one message of the
  operation was committed. -/
  matched : operating.sys.released (signals.sem signal) ≠ 0 →
    ∃! message, program.signal? message = some signal ∧
      operating.state.system.world.commits message ≠ 0
  /-- A commit has released the semaphore before the lock of its channel is free. -/
  kept : ∀ message, program.signal? message = some signal →
    operating.state.system.world.commits message ≠ 0 →
      unlocked program signals operating.state operating.sys message = true →
        operating.sys.released (signals.sem signal) = 1

omit [Inhabited α] in
/-- Messages with one semaphore are one message, or cases of one select. -/
theorem eq_or_sameSelect
    {left right : MsgId}
    {signal : Signal}
    (isLeft : program.signal? left = some signal)
    (isRight : program.signal? right = some signal) :
    left = right ∨ program.SameSelect left right := by
  rcases Program.signal_cases isLeft with ⟨select, rfl, leftOwned⟩ | ⟨rfl, _⟩
  · rcases Program.signal_cases isRight with ⟨other, same, rightOwned⟩ | ⟨same, _⟩
    · obtain rfl : select = other := by simpa using same
      exact .inr ⟨select, leftOwned, rightOwned⟩
    · cases same
  · rcases Program.signal_cases isRight with ⟨other, same, _⟩ | ⟨same, _⟩
    · cases same
    · exact .inl (by simpa using same)

/-- A committed message is in the history of its channel. -/
theorem recorded_of_committed
    {system : System α}
    {message : MsgId}
    (reached : System.Reached program system)
    (committed : system.world.commits message ≠ 0) :
    message ∈ (system.chan (program.msg message).chan).sends ++
      (system.chan (program.msg message).chan).recvs := by
  have entered := ((WellFormed.of_reached reached).entered _ _ message).mpr
    ⟨rfl, rfl, fun fresh => committed ((Delivered.of_reached reached).fresh message fresh)⟩
  cases side : (program.msg message).side with
  | send =>
      rw [side] at entered
      exact List.mem_append_left _ entered
  | recv =>
      rw [side] at entered
      exact List.mem_append_right _ entered

/-- In every state that channels, selects and contexts reach together, every operation that
waits for a semaphore ends once, after one of its messages was committed, and is not left
waiting for it afterwards. -/
theorem operation_ends_once
    {signal : Signal}
    (reached : Scheduled.Reached (operations selects signals) config signals operating)
    (operation : MsgId)
    (made : program.signal? operation = some signal) :
    EndsOnce program signals operating signal := by
  have consistent := Scheduled.Consistent.of_reached lawful reached
  have channelReached := Selecting.system_reached consistent.state
  have ledger := (Delivered.of_reached channelReached).ledger
  have oneshot : operating.sys.Oneshot (signals.sem signal) :=
    Scheduled.oneshot_of_reached lawful reached (ledger.released_le_one made)
  refine ⟨oneshot, fun released => ?_, fun message own committed free => ?_⟩
  · have counted : operating.sys.released (signals.sem signal) ≤
        operating.state.system.world.released signal := consistent.released signal
    obtain ⟨message, own, committed⟩ := ledger.committed_of_released made (by omega)
    refine ⟨message, ⟨own, committed⟩, fun other ⟨otherOwn, otherCommitted⟩ => ?_⟩
    rcases eq_or_sameSelect otherOwn own with same | same
    · exact same
    · exact ledger.single other message otherCommitted committed same
  · have called := List.all_eq_true.mp free message
      (recorded_of_committed channelReached committed)
    have released : operating.sys.released (signals.sem signal) =
        operating.state.system.world.released signal := by
      simpa [committed, own, quiet, Signals.quiet] using called
    exact released.trans (ledger.released_once committed own)

theorem operation_ends_once_sample :
    met.sys.taken (paritySignals.sem (.own 4)) = 1 ∧
      EndsOnce .sample paritySignals met (.own 4) :=
  ⟨by decide, operation_ends_once (Lib.Reachable.runFrom _ _ _) 4 rfl⟩

end Operating

end Channel
end Cgo
