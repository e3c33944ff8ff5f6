import Cgo.Locking.Order

/-!
# The locks of the whole library

Beside the operations on channels and tasks, workers handle events, run timers and
create and destroy tasks, and they do so with locks of their own.  An event callback
runs under the lock of its handler, and a timer is pushed under the lock of its slot;
both reach locks of the other operations from there.  A wait on a lazy signal, which
nothing in the library makes, is not among these operations; with it the order is lost.
-/

namespace Cgo
namespace Locking

open Lib.Prog (Above Beyond guarded)

/-- The locks of the event handlers, of the timers' slots and of the allocators. -/
inductive WorkerLock
  | handler (address : Nat)
  | timers (slot : Nat)
  | allocator (address : Nat)
  deriving DecidableEq

/-- All spinlocks of the library. -/
abbrev AnyLock := Lock ⊕ WorkerLock

/-- Handlers come before semaphores, timers before signals. -/
def WorkerLock.rank : WorkerLock → Nat ×ₗ Nat
  | .handler _ => toLex (1, 1)
  | .timers _ => toLex (5, 1)
  | .allocator _ => toLex (7, 0)

/-- The order of all locks. -/
def AnyLock.rank : AnyLock → Nat ×ₗ Nat :=
  Sum.elim Lock.rank WorkerLock.rank

/-- What a handler calls for an event: `EventLazySignal::_callback`, the callback of
`_wait_sock_event`, or that of a socket on which nobody waits. -/
inductive EventCallback
  | signal (signal : Nat)
  | waiter (sem : SemId)
  | nothing

/-- What a timer calls: the callback of `timeout`, of `sleep`, or of
`_wait_sock_event`. -/
inductive TimerCallback
  | timeout (chan : Nat)
  | sleep (sem : SemId)
  | waiter (sem : SemId)

/-- What the workers read besides. -/
inductive WorkerCell
  /-- the callback that `_tid_calls` has for an event -/
  | registered (handler event : Nat)
  /-- `callback.on & ev` -/
  | wanted (handler event : Nat)
  /-- `compare_exchange_weak` on the state of a waiter goes through. -/
  | claimed (sem : SemId)
  /-- The slot is empty, or the new timer comes before its top. -/
  | first (slot : Nat)
  /-- `_signal` of a slot -/
  | attached (slot : Nat)
  /-- the timer that `pop` takes from a slot -/
  | expired (slot : Nat)

/-- What a cell holds. -/
def WorkerCell.Content : WorkerCell → Type
  | .registered _ _ => Option EventCallback
  | .wanted _ _ => Bool
  | .claimed _ => Bool
  | .first _ => Bool
  | .attached _ => Option Nat
  | .expired _ => Option TimerCallback

/-- Everything there is to read. -/
abbrev AnyCell := Cell ⊕ WorkerCell

/-- What a cell holds. -/
abbrev AnyCell.Content : AnyCell → Type :=
  Sum.elim Cell.Content WorkerCell.Content

/-- The programs of the threads. -/
abbrev Task (Result : Type) := Lib.Prog AnyLock AnyCell AnyCell.Content Result

/-- A cell of the workers is read. -/
def look (cell : WorkerCell) : Task cell.Content :=
  Lib.Prog.get (Sum.inr cell : AnyCell)

/-! ## Events -/

/-- `Handler::add`, `Handler::mod` and `Handler::del` -/
def register (handler : Nat) : Task Unit :=
  guarded (.inr (.handler handler)) (pure ())

/-- `EventLazySignal::_callback` -/
def signalCallback (signal : Nat) : Task Unit :=
  guarded (.inl (.signal signal)) (pure ())

/-- Who wins the race for a waiter releases its semaphore. -/
def claim (sem : SemId) : Task Unit := do
  let claimed : Bool ← look (.claimed sem)
  if claimed then (release sem).within else pure ()

/-- The callback of an event -/
def EventCallback.run : EventCallback → Task Unit
  | .signal address => signalCallback address
  | .waiter sem => claim sem
  | .nothing => pure ()

/-- One event of `Handler::handle` -/
def handleEvent (handler event : Nat) : Task Unit :=
  guarded (.inr (.handler handler)) do
    let registered : Option EventCallback ← look (.registered handler event)
    match registered with
    | none => pure ()
    | some callback => do
        let wanted : Bool ← look (.wanted handler event)
        if wanted then callback.run else pure ()

/-- The loop of `Handler::handle` over the events that `epoll_wait` gave -/
def handle (handler : Nat) : List Nat → Task Unit
  | [] => pure ()
  | event :: rest => do
      handleEvent handler event
      handle handler rest

/-! ## Timers -/

/-- `TimedContext::Scheduler::push` -/
def timerPush (slot : Nat) : Task Unit :=
  guarded (.inr (.timers slot)) do
    let first : Bool ← look (.first slot)
    if first then do
      let attached : Option Nat ← look (.attached slot)
      match attached with
      | some signal => (emit signal).within
      | none => pure ()
    else pure ()

/-- `TimedContext::Scheduler::pop` -/
def timerPop (slot : Nat) : Task (Option TimerCallback) :=
  guarded (.inr (.timers slot)) (look (.expired slot))

/-- The callback of a timer, which runs without the lock of the slot -/
def TimerCallback.run : TimerCallback → Task Unit
  | .timeout chan => (Operation.nowait chan).run.within
  | .sleep sem => (release sem).within
  | .waiter sem => claim sem

/-- `run_timeout`, with the slots in the order in which it tries them, however often -/
def runTimeout : List Nat → Task Unit
  | [] => pure ()
  | slot :: rest => do
      let popped ← timerPop slot
      match popped with
      | some callback => do
          callback.run
          runTimeout rest
      | none => runTimeout rest

/-- `next_schedule_time` -/
def nextScheduleTime (slot : Nat) : Task Unit :=
  guarded (.inr (.timers slot)) (pure ())

/-! ## Tasks -/

/-- `Allocator::create` and `Allocator::destroy`; what the program's own objects do when the
frame of a task that is done goes with it is left out. -/
def allocate (allocator : Nat) : Task Unit :=
  guarded (.inr (.allocator allocator)) (pure ())

/-- `create_scheduled` -/
def createScheduled (allocator scheduler : Nat) : Task Unit := do
  allocate allocator
  (push scheduler).within

/-! ## What threads do -/

/-- Everything that takes a lock, but for `BaseLazySignal::wait`. -/
inductive LibraryOperation
  /-- an operation on channels, semaphores or tasks -/
  | plain (operation : Operation)
  /-- A descriptor is registered, changed or taken out. -/
  | register (handler : Nat)
  | handle (handler : Nat) (events : List Nat)
  | createTimeout (slot : Nat)
  | runTimeout (slots : List Nat)
  | nextScheduleTime (slot : Nat)
  | createScheduled (allocator scheduler : Nat)
  /-- `_execute` destroys a task that is done. -/
  | destroy (allocator : Nat)

/-- The program of an operation. -/
def LibraryOperation.run : LibraryOperation → Task Unit
  | .plain operation => operation.run.within
  | .register handler => Locking.register handler
  | .handle handler events => Locking.handle handler events
  | .createTimeout slot => timerPush slot
  | .runTimeout slots => Locking.runTimeout slots
  | .nextScheduleTime slot => Locking.nextScheduleTime slot
  | .createScheduled allocator scheduler => Locking.createScheduled allocator scheduler
  | .destroy allocator => allocate allocator

/-! ## The order -/

variable {limit : Nat ×ₗ Nat} {Result : Type}

section Beyond

/-- All that a semaphore's release takes is above the semaphore. -/
theorem beyond_emit
    {signal : Nat}
    (below : limit < (Lock.signal signal).rank) :
    (emit signal).Beyond Lock.rank limit := by
  apply Beyond.bind (Beyond.get _)
  intro waited
  apply Beyond.bind (Beyond.get _)
  intro emitted
  split
  · exact Beyond.guarded below (Beyond.bind (Beyond.get _) fun _ =>
      Beyond.bind (Beyond.get _) fun _ => Beyond.done ())
  · exact Beyond.done ()

theorem beyond_push
    {scheduler : Nat}
    (below : limit < (Lock.scheduler scheduler).rank) :
    (push scheduler).Beyond Lock.rank limit := by
  apply Beyond.guarded below
  apply Beyond.bind (Beyond.get _)
  intro attached
  cases attached with
  | some signal => exact beyond_emit (below.trans (scheduler_lt_signal _ _))
  | none => exact Beyond.done ()

theorem beyond_release
    {sem : SemId}
    (below : limit < (Lock.semaphore sem).rank) :
    (release sem).Beyond Lock.rank limit := by
  have belowCondition := below.trans (semaphore_lt_condition sem)
  apply Beyond.guarded below
  apply Beyond.guarded belowCondition
  apply Beyond.bind (Beyond.get _)
  intro blocked
  cases blocked with
  | none => exact Beyond.done ()
  | some scheduler => exact beyond_push (belowCondition.trans (condition_lt_scheduler _ _))

end Beyond

/-- An operation that takes its locks in order does so among the others. -/
theorem above_within
    {prog : Act Result}
    (above : prog.Above Lock.rank limit)
    (beyond : prog.Beyond Lock.rank limit) :
    (prog.within : Task Result).Above AnyLock.rank limit :=
  Above.within above beyond

theorem above_look (cell : WorkerCell) : (look cell).Above AnyLock.rank limit :=
  Above.get _

theorem handler_lt_semaphore (handler : Nat) (sem : SemId) :
    (WorkerLock.handler handler).rank < (Lock.semaphore sem).rank :=
  Prod.Lex.lt_iff.mpr (.inl (show 1 < 3 by decide))

theorem handler_lt_signal (handler signal : Nat) :
    (WorkerLock.handler handler).rank < (Lock.signal signal).rank :=
  Prod.Lex.lt_iff.mpr (.inl (show 1 < 6 by decide))

theorem timers_lt_signal (slot signal : Nat) :
    (WorkerLock.timers slot).rank < (Lock.signal signal).rank :=
  Prod.Lex.lt_iff.mpr (.inl (show 5 < 6 by decide))

/-- The callbacks of events run under the lock of the handler. -/
theorem above_eventCallback
    (callback : EventCallback)
    (handler : Nat) :
    callback.run.Above AnyLock.rank (WorkerLock.handler handler).rank := by
  cases callback with
  | signal address => exact Above.guarded (handler_lt_signal handler address) (Above.done ())
  | waiter sem =>
      apply Above.bind (above_look _)
      intro (claimed : Bool)
      have below := handler_lt_semaphore handler sem
      cases claimed with
      | true => exact above_within (above_release below) (beyond_release below)
      | false => exact Above.done ()
  | nothing => exact Above.done ()

/-- Nothing is below all locks. -/
theorem beyond_bottom (prog : Act Result) : prog.Beyond Lock.rank bottom := by
  induction prog with
  | done result => trivial
  | lock mutex rest inductionHypothesis => exact ⟨bottom_lt mutex, inductionHypothesis⟩
  | unlock mutex rest inductionHypothesis => exact inductionHypothesis
  | read cell rest inductionHypothesis => exact inductionHypothesis

theorem bottom_lt_worker (mutex : WorkerLock) : bottom < mutex.rank := by
  cases mutex with
  | handler address => exact Prod.Lex.lt_iff.mpr (.inl Nat.zero_lt_one)
  | timers slot => exact Prod.Lex.lt_iff.mpr (.inl (Nat.succ_pos 4))
  | allocator address => exact Prod.Lex.lt_iff.mpr (.inl (Nat.succ_pos 6))

/-- A section under one lock in which nothing more is taken. -/
theorem above_section (mutex : WorkerLock) (body : Task Result)
    (inner : body.Above AnyLock.rank mutex.rank) :
    (guarded (.inr mutex) body).Above AnyLock.rank bottom :=
  Above.guarded (bottom_lt_worker mutex) inner

theorem above_timerCallback (callback : TimerCallback) :
    callback.run.Above AnyLock.rank bottom := by
  cases callback with
  | timeout chan => exact above_within (above_run _) (beyond_bottom _)
  | sleep sem => exact above_within (above_release (bottom_lt _)) (beyond_bottom _)
  | waiter sem =>
      apply Above.bind (above_look _)
      intro (claimed : Bool)
      cases claimed with
      | true => exact above_within (above_release (bottom_lt _)) (beyond_bottom _)
      | false => exact Above.done ()

theorem above_handle
    (handler : Nat)
    (events : List Nat) :
    (handle handler events).Above AnyLock.rank bottom := by
  induction events with
  | nil => exact Above.done ()
  | cons event rest inductionHypothesis =>
      have first : (handleEvent handler event).Above AnyLock.rank bottom := by
        apply above_section
        apply Above.bind (above_look _)
        intro registered
        cases registered with
        | none => exact Above.done ()
        | some callback =>
            apply Above.bind (above_look _)
            intro (wanted : Bool)
            cases wanted with
            | true => exact above_eventCallback callback handler
            | false => exact Above.done ()
      exact Above.bind first fun _ => inductionHypothesis

theorem above_timerPush (slot : Nat) : (timerPush slot).Above AnyLock.rank bottom := by
  apply above_section
  apply Above.bind (above_look _)
  intro (first : Bool)
  cases first with
  | false => exact Above.done ()
  | true =>
      apply Above.bind (above_look _)
      intro attached
      cases attached with
      | none => exact Above.done ()
      | some signal =>
          have below := timers_lt_signal slot signal
          exact above_within (above_emit below) (beyond_emit below)

theorem above_runTimeout (slots : List Nat) :
    (runTimeout slots).Above AnyLock.rank bottom := by
  induction slots with
  | nil => exact Above.done ()
  | cons slot rest inductionHypothesis =>
      apply Above.bind (above_section _ _ (above_look _))
      intro popped
      cases popped with
      | none => exact inductionHypothesis
      | some callback =>
          exact Above.bind (above_timerCallback callback) fun _ => inductionHypothesis

/-- Everything takes its locks in order. -/
theorem above_libraryRun (operation : LibraryOperation) :
    operation.run.Above AnyLock.rank bottom := by
  cases operation with
  | plain operation => exact above_within (above_run operation) (beyond_bottom _)
  | register handler => exact above_section _ _ (Above.done ())
  | handle handler events => exact above_handle handler events
  | createTimeout slot => exact above_timerPush slot
  | runTimeout slots => exact above_runTimeout slots
  | nextScheduleTime slot => exact above_section _ _ (Above.done ())
  | createScheduled allocator scheduler =>
      apply Above.bind (above_section _ _ (Above.done ()))
      exact fun _ => above_within (above_push (bottom_lt _)) (beyond_bottom _)
  | destroy allocator => exact above_section _ _ (Above.done ())

theorem orderly_libraryRun (operation : LibraryOperation) :
    operation.run.Orderly AnyLock.rank ∅ fun _ held => held = ∅ :=
  above_libraryRun operation ∅ fun other member => absurd member (Set.notMem_empty other)

/-! ## No circle -/

/-- In every state that threads reach with any of these operations, a thread that is about
to take a lock holds only smaller ones, and no threads wait for one another in a circle. -/
theorem library_locks_in_order
    (threads : Lib.Threads Nat AnyLock AnyCell AnyCell.Content)
    (reached : Lib.Reachable (Lib.Threads.step LibraryOperation.run) Lib.Threads.idle threads) :
    (∀ thread mutex held, threads.Wants thread mutex → threads.holder held = some thread →
      AnyLock.rank held < AnyLock.rank mutex) ∧
        ∀ thread, ¬Relation.TransGen threads.WaitsFor thread thread := by
  have obedient : threads.Obedient AnyLock.rank :=
    Lib.Threads.Obedient.of_reachable orderly_libraryRun reached
  exact ⟨fun _ _ _ => obedient.lt_of_wants, obedient.no_cycle⟩

/-- A memory in which every event is that of signal 5, which nobody has emitted. -/
private def pending : ∀ cell : AnyCell, cell.Content
  | .inl (.chosen _) => false
  | .inl (.vacant _) => (0 : UInt64)
  | .inl (.blocked _) => (none : Option Nat)
  | .inl (.scheduledHere _) => false
  | .inl (.attached _) => some (5 : Nat)
  | .inl (.runnable _) => false
  | .inl (.waited _) => true
  | .inl (.emitted _) => false
  | .inl (.bufferEmpty _) => true
  | .inl (.bufferFull _) => true
  | .inl (.senders _) => ([] : List Msg)
  | .inl (.recvers _) => ([] : List Msg)
  | .inr (.registered _ _) => some (EventCallback.signal 5)
  | .inr (.wanted _ _) => true
  | .inr (.claimed _) => true
  | .inr (.first _) => true
  | .inr (.attached _) => some (5 : Nat)
  | .inr (.expired _) => (none : Option TimerCallback)

/-- Thread 0 pushes a timer, holds the lock of its slot and is about to take that of the
signal, which thread 1 holds in a callback under the lock of its handler. -/
private def signalling : List (Lib.Activity Nat LibraryOperation AnyCell AnyCell.Content) :=
  [.start 0 (.createTimeout 3), .advance 0 pending, .advance 0 pending, .advance 0 pending,
    .advance 0 pending, .advance 0 pending,
    .start 1 (.handle 2 [9]), .advance 1 pending, .advance 1 pending, .advance 1 pending,
    .advance 1 pending]

/-- The state after it. -/
private def signalled : Lib.Threads Nat AnyLock AnyCell AnyCell.Content :=
  Lib.runFrom (Lib.Threads.step LibraryOperation.run) .idle signalling

theorem library_locks_in_order_sample :
    (signalled.WaitsFor 0 1 ∧ signalled.holder (.inr (.timers 3)) = some 0 ∧
      signalled.holder (.inr (.handler 2)) = some 1) ∧
      (∀ thread mutex held, signalled.Wants thread mutex →
        signalled.holder held = some thread → AnyLock.rank held < AnyLock.rank mutex) ∧
          ∀ thread, ¬Relation.TransGen signalled.WaitsFor thread thread := by
  refine ⟨⟨⟨.inl (.signal 5), ⟨_, rfl⟩, rfl⟩, rfl, rfl⟩, ?_⟩
  exact library_locks_in_order signalled (Lib.Reachable.runFrom _ _ _)

/-! ## A wait on an event signal -/

/-- `BaseLazySignal::wait` on an `EventLazySignal`, which nothing in the library calls:
`_wait` gives the lock away while it waits, and registers the descriptor anew under
it. -/
def signalWait (signal handler : Nat) : Task Unit := do
  let emitted : Bool ← (load (.emitted signal)).within
  if emitted then pure ()
  else
    guarded (.inl (.signal signal)) do
      let emitted : Bool ← (load (.emitted signal)).within
      if emitted then pure ()
      else
        .unlock (.inl (.signal signal))
          (.lock (.inl (.signal signal)) (register handler))

/-- A wait of thread 0 comes back while thread 1 handles an event of the signal. -/
private def inverting :
    List (Lib.Activity Nat (LibraryOperation ⊕ Nat × Nat) AnyCell AnyCell.Content) :=
  [.start 0 (.inr (5, 2)), .advance 0 pending, .advance 0 pending, .advance 0 pending,
    .advance 0 pending, .advance 0 pending,
    .start 1 (.inl (.handle 2 [9])), .advance 1 pending, .advance 1 pending, .advance 1 pending]

/-- The state after it. -/
private def inverted : Lib.Threads Nat AnyLock AnyCell AnyCell.Content :=
  Lib.runFrom
    (Lib.Threads.step
      (Sum.elim LibraryOperation.run fun wait : Nat × Nat => signalWait wait.1 wait.2))
    .idle inverting

/-- With such waits the order is lost: the wait takes the handler's lock under that of
the signal, and the callback the other way round. -/
theorem signal_wait_closes_circle :
    ∃ threads, Lib.Reachable
        (Lib.Threads.step
          (Sum.elim LibraryOperation.run fun wait : Nat × Nat => signalWait wait.1 wait.2))
        Lib.Threads.idle threads ∧
      Relation.TransGen threads.WaitsFor 0 0 := by
  refine ⟨inverted, Lib.Reachable.runFrom _ _ inverting, ?_⟩
  have forth : inverted.WaitsFor 0 1 := ⟨.inr (.handler 2), ⟨_, rfl⟩, rfl⟩
  have back : inverted.WaitsFor 1 0 := ⟨.inl (.signal 5), ⟨_, rfl⟩, rfl⟩
  exact (Relation.TransGen.single forth).tail back

end Locking
end Cgo
