import Cgo.Lib.Batch
import Cgo.Lib.Path
import Cgo.Lib.PriorityQueue
import Mathlib.Data.Nat.ModEq

/-!
# Timers

`TimedContext`: `create_timeout` draws a number, reads the clock and pushes the
timer on the priority queue of its slot, and `run_timeout` pops expired timers
and calls them back.  Any thread creates timers at any time, also from inside a
callback, and any number of threads run timers.  Each locked section is one
step; the clock goes on between them.
-/

namespace Cgo
namespace Timed

/-- The timers in the order in which `create_timeout` was called.  The code knows
them by their callbacks. -/
abbrev TimerId := Nat

abbrev ThreadId := Nat

/-- A count of the ticks of `steady_clock`. -/
abbrev TimePoint := Int

/-- The value fits the 64 bits of a `TimePoint`. -/
def Representable (time : Int) : Prop := -2 ^ 63 ≤ time ∧ time < 2 ^ 63

instance (time : Int) : Decidable (Representable time) :=
  inferInstanceAs (Decidable (_ ∧ _))

/-- `TimedContext::Task`.  `fn` is the callback of a timer, and `none` after a
move. -/
structure Task where
  id : UInt64
  fn : Option TimerId
  ex : TimePoint
  deriving DecidableEq

/-- What `std::move` leaves of a task: the callback is gone, the expiry stays. -/
def Task.moved (task : Task) : Task := { task with fn := none }

/-- `_pq_timer`, with `std::greater<Task>` over `ex`. -/
abbrev Heap := Lib.PriorityQueue Task.ex

/-- The algorithms of the library's heaps. -/
abbrev Algorithms := Lib.HeapAlgorithms Task.ex

/-- `Scheduler::pop`: the top is moved out before it is popped. -/
def Scheduler.pop (algorithms : Algorithms) (now : TimePoint) (heap : Heap) :
    Option (Task × Heap) :=
  match heap.top with
  | none => none
  | some top =>
      if now ≥ top.ex then
        some (top, (heap.modifyTop Task.moved fun _ => rfl).pop algorithms)
      else none

/-- A `create_timeout` under way: its number, the timeout in ticks, and the expiry
once it has read the clock. -/
structure Creation where
  timer : TimerId
  id : UInt64
  ticks : Int
  ex : Option TimePoint
  deriving DecidableEq

/-- The `task` of a `run_timeout`, and whether its callback has been called. -/
structure Held where
  task : Task
  called : Bool
  deriving DecidableEq

/-- A call of a callback. -/
structure Fired where
  thread : ThreadId
  timer : TimerId
  time : TimePoint
  deriving DecidableEq

/-- The state of a context.  The last five fields are histories: how many timers
were begun, the expiry each was given, those that were pushed, those that were
popped, and the callbacks that were called, oldest first. -/
structure State where
  now : TimePoint
  /-- `_tid` -/
  tid : UInt64
  /-- `_schedulers` -/
  heap : Nat → Heap
  creating : ThreadId → Option Creation
  /-- the `pindex` with which a thread called `run_timeout` -/
  pindex : ThreadId → UInt64
  calls : Lib.Batch.Calls ThreadId TimerId
  held : ThreadId → Option Held
  begun : Nat
  expiry : TimerId → TimePoint
  created : List TimerId
  popped : List TimerId
  fired : List Fired

inductive Label
  /-- The clock goes on. -/
  | tick (now : TimePoint)
  /-- `create_timeout` takes a number. -/
  | draw (thread : ThreadId) (ticks : Int)
  /-- It reads the clock. -/
  | stamp (thread : ThreadId)
  /-- It pushes the timer. -/
  | push (thread : ThreadId)
  /-- A thread calls `run_timeout`. -/
  | call (thread : ThreadId) (pindex : UInt64) (batchSize : Nat)
  /-- Its call tests the condition of its loop and pops, or leaves the loop. -/
  | loop (thread : ThreadId)
  /-- `task->fn()` begins. -/
  | callback (thread : ThreadId)
  /-- `task->fn()` returns. -/
  | finish (thread : ThreadId)
  deriving DecidableEq

namespace State

/-- A context before any timer, with the clock at `now`. -/
def initial (now : TimePoint) : State where
  now := now
  tid := 0
  heap := fun _ => .empty
  creating := fun _ => none
  pindex := fun _ => 0
  calls := .initial
  held := fun _ => none
  begun := 0
  expiry := fun _ => 0
  created := []
  popped := []
  fired := []

variable (algorithms : Algorithms) (slots : Nat) (state : State)

/-- The slot that a thread tries as the `i`-th from its own on. -/
def slot (thread : ThreadId) (i : Nat) : Nat :=
  ((state.pindex thread).toNat + i) % 2 ^ 64 % slots

/-- One turn of the loops of `run_timeout`. -/
def runTimeout (thread : ThreadId) (call : Lib.Batch.Call TimerId) : Option State :=
  if call.pc.executing then none
  else
    match call.offset? slots with
    | none => some { state with calls := state.calls.settle thread call.left }
    | some i =>
        let slot := state.slot slots thread i
        match Scheduler.pop algorithms state.now (state.heap slot) with
        | none => some { state with calls := state.calls.settle thread call.missed }
        | some (task, rest) =>
            task.fn.map fun timer =>
              { state with
                heap := Function.update state.heap slot rest
                calls := state.calls.settle thread (.goesOn (call.found timer))
                held := Function.update state.held thread (some ⟨task, false⟩)
                popped := state.popped ++ [timer] }

/-- The next state, or `none` when the step is not enabled. -/
def step : Label → Option State
  | .tick now => if state.now ≤ now then some { state with now } else none
  | .draw thread ticks =>
      if state.creating thread = none ∧ 0 < slots then
        some { state with
          tid := state.tid + 1
          creating := Function.update state.creating thread
            (some ⟨state.begun, state.tid, ticks, none⟩)
          begun := state.begun + 1 }
      else none
  | .stamp thread =>
      match state.creating thread with
      | some ⟨timer, id, ticks, none⟩ =>
          if Representable (state.now + ticks) then
            some { state with
              creating := Function.update state.creating thread
                (some ⟨timer, id, ticks, some (state.now + ticks)⟩)
              expiry := Function.update state.expiry timer (state.now + ticks) }
          else none
      | _ => none
  | .push thread =>
      match state.creating thread with
      | some ⟨timer, id, _, some ex⟩ =>
          let slot := id.toNat % slots
          some { state with
            heap := Function.update state.heap slot
              ((state.heap slot).push algorithms ⟨id, some timer, ex⟩)
            creating := Function.update state.creating thread none
            created := state.created ++ [timer] }
      | _ => none
  | .call thread pindex batchSize =>
      if (state.calls.running thread).isNone = true ∧ 0 < slots then
        some { state with
          pindex := Function.update state.pindex thread pindex
          calls := state.calls.settle thread (.goesOn (.start batchSize)) }
      else none
  | .loop thread =>
      (state.calls.running thread).bind (state.runTimeout algorithms slots thread)
  | .callback thread =>
      match state.held thread with
      | some ⟨task, false⟩ =>
          task.fn.map fun timer =>
            { state with
              held := Function.update state.held thread (some ⟨task, true⟩)
              fired := state.fired ++ [⟨thread, timer, state.now⟩] }
      | _ => none
  | .finish thread =>
      match state.held thread, state.calls.running thread with
      | some ⟨_, true⟩, some call =>
          some { state with
            calls := state.calls.settle thread call.finished
            held := Function.update state.held thread none }
      | _, _ => none

/-- What a step can do, with the guards under which it does it. -/
inductive Move : Label → State → Prop
  | tick {now : TimePoint}
      (later : state.now ≤ now) :
      Move (.tick now) { state with now }
  | draw {thread : ThreadId} {ticks : Int}
      (idle : state.creating thread = none)
      (slotted : 0 < slots) :
      Move (.draw thread ticks)
        { state with
          tid := state.tid + 1
          creating := Function.update state.creating thread
            (some ⟨state.begun, state.tid, ticks, none⟩)
          begun := state.begun + 1 }
  | stamp {thread : ThreadId} {timer : TimerId} {id : UInt64} {ticks : Int}
      (creates : state.creating thread = some ⟨timer, id, ticks, none⟩)
      (fits : Representable (state.now + ticks)) :
      Move (.stamp thread)
        { state with
          creating := Function.update state.creating thread
            (some ⟨timer, id, ticks, some (state.now + ticks)⟩)
          expiry := Function.update state.expiry timer (state.now + ticks) }
  | push {thread : ThreadId} {timer : TimerId} {id : UInt64} {ticks : Int} {ex : TimePoint}
      (creates : state.creating thread = some ⟨timer, id, ticks, some ex⟩) :
      Move (.push thread)
        { state with
          heap := Function.update state.heap (id.toNat % slots)
            ((state.heap (id.toNat % slots)).push algorithms ⟨id, some timer, ex⟩)
          creating := Function.update state.creating thread none
          created := state.created ++ [timer] }
  | call {thread : ThreadId} {pindex : UInt64} {batchSize : Nat}
      (idle : state.calls.running thread = none)
      (slotted : 0 < slots) :
      Move (.call thread pindex batchSize)
        { state with
          pindex := Function.update state.pindex thread pindex
          calls := state.calls.settle thread (.goesOn (.start batchSize)) }
  | leave {thread : ThreadId} {call : Lib.Batch.Call TimerId}
      (running : state.calls.running thread = some call)
      (idle : call.pc.executing = false)
      (stops : call.offset? slots = none) :
      Move (.loop thread) { state with calls := state.calls.settle thread call.left }
  | miss {thread : ThreadId} {call : Lib.Batch.Call TimerId} {i : Nat}
      (running : state.calls.running thread = some call)
      (idle : call.pc.executing = false)
      (tries : call.offset? slots = some i)
      (nothing : Scheduler.pop algorithms state.now
        (state.heap (state.slot slots thread i)) = none) :
      Move (.loop thread) { state with calls := state.calls.settle thread call.missed }
  | pop {thread : ThreadId} {call : Lib.Batch.Call TimerId} {i : Nat} {task : Task}
      {rest : Heap} {timer : TimerId}
      (running : state.calls.running thread = some call)
      (idle : call.pc.executing = false)
      (tries : call.offset? slots = some i)
      (pops : Scheduler.pop algorithms state.now
        (state.heap (state.slot slots thread i)) = some (task, rest))
      (callable : task.fn = some timer) :
      Move (.loop thread)
        { state with
          heap := Function.update state.heap (state.slot slots thread i) rest
          calls := state.calls.settle thread (.goesOn (call.found timer))
          held := Function.update state.held thread (some ⟨task, false⟩)
          popped := state.popped ++ [timer] }
  | callback {thread : ThreadId} {task : Task} {timer : TimerId}
      (holds : state.held thread = some ⟨task, false⟩)
      (callable : task.fn = some timer) :
      Move (.callback thread)
        { state with
          held := Function.update state.held thread (some ⟨task, true⟩)
          fired := state.fired ++ [⟨thread, timer, state.now⟩] }
  | finish {thread : ThreadId} {task : Task} {call : Lib.Batch.Call TimerId}
      (holds : state.held thread = some ⟨task, true⟩)
      (running : state.calls.running thread = some call) :
      Move (.finish thread)
        { state with
          calls := state.calls.settle thread call.finished
          held := Function.update state.held thread none }

variable {algorithms slots state}

theorem move_of_runTimeout
    {thread : ThreadId}
    {call : Lib.Batch.Call TimerId}
    {after : State}
    (running : state.calls.running thread = some call)
    (stepped : state.runTimeout algorithms slots thread call = some after) :
    Move algorithms slots state (.loop thread) after := by
  simp only [runTimeout] at stepped
  split at stepped
  · cases stepped
  next idle =>
  rw [Bool.not_eq_true] at idle
  split at stepped
  · next stops =>
      obtain rfl := Option.some.inj stepped
      exact .leave running idle stops
  next i tries =>
  split at stepped
  · next nothing =>
      obtain rfl := Option.some.inj stepped
      exact .miss running idle tries nothing
  · next task rest pops =>
      obtain ⟨timer, callable, rfl⟩ := Option.map_eq_some_iff.mp stepped
      exact .pop running idle tries pops callable

theorem move_of_step
    {label : Label}
    {after : State}
    (stepped : state.step algorithms slots label = some after) :
    Move algorithms slots state label after := by
  cases label with
  | tick now =>
      simp only [step] at stepped
      split at stepped
      · next later =>
          obtain rfl := Option.some.inj stepped
          exact .tick later
      · cases stepped
  | draw thread ticks =>
      simp only [step] at stepped
      split at stepped
      · next enabled =>
          obtain rfl := Option.some.inj stepped
          exact .draw enabled.1 enabled.2
      · cases stepped
  | stamp thread =>
      simp only [step] at stepped
      split at stepped
      · next timer id ticks creates =>
          split at stepped
          · next fits =>
              obtain rfl := Option.some.inj stepped
              exact .stamp creates fits
          · cases stepped
      · cases stepped
  | push thread =>
      simp only [step] at stepped
      split at stepped
      · next timer id ticks ex creates =>
          obtain rfl := Option.some.inj stepped
          exact .push creates
      · cases stepped
  | call thread pindex batchSize =>
      simp only [step] at stepped
      split at stepped
      · next enabled =>
          obtain rfl := Option.some.inj stepped
          exact .call (Option.isNone_iff_eq_none.mp enabled.1) enabled.2
      · cases stepped
  | loop thread =>
      obtain ⟨call, running, looped⟩ := Option.bind_eq_some_iff.mp stepped
      exact move_of_runTimeout running looped
  | callback thread =>
      simp only [step] at stepped
      split at stepped
      · next task holds =>
          obtain ⟨timer, callable, rfl⟩ := Option.map_eq_some_iff.mp stepped
          exact .callback holds callable
      · cases stepped
  | finish thread =>
      simp only [step] at stepped
      split at stepped
      · next holds running =>
          obtain rfl := Option.some.inj stepped
          exact .finish holds running
      · cases stepped

variable (algorithms slots state)

/-- The states that a context can reach when its clock starts at `start`. -/
abbrev Reached (start : TimePoint) : Prop :=
  Lib.Reachable (step algorithms slots) (initial start) state

end State

end Timed
end Cgo
