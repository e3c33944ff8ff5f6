import Mathlib.Data.List.Basic
import Mathlib.Logic.Function.Basic

/-!
# Batches with work stealing

A call that executes up to `batchSize` items.  Its first loop takes them from
the call's own queue, as long as that has any; its second loop tries every queue
once, from its own on.  What else happens between two attempts is left open, and
so is where the items come from: whoever runs the calls says what each attempt
found.
-/

namespace Cgo
namespace Lib
namespace Batch

universe u v

/-- Where a call stands: before an attempt in its first or its second loop, or
executing what the attempt found. -/
inductive Pc
  | own
  | ownExecute
  | steal (i : Nat)
  | stealExecute (i : Nat)
  deriving DecidableEq

/-- An item is being executed. -/
def Pc.executing : Pc → Bool
  | .ownExecute => true
  | .stealExecute _ => true
  | _ => false

/-- The call is in its second loop. -/
def Pc.stealing : Pc → Bool
  | .steal _ => true
  | .stealExecute _ => true
  | _ => false

/-- A call.  The last two fields are histories: what it has begun to execute, and
whether an attempt of its first loop found nothing. -/
structure Call (α : Type u) where
  batchSize : Nat
  cnt : Nat
  pc : Pc
  executed : List α
  foundEmpty : Bool
  deriving DecidableEq

/-- How a turn of a call ends. -/
inductive Outcome (α : Type u)
  | goesOn (call : Call α)
  | returns (call : Call α)

namespace Call

variable {α : Type u}

/-- A call before its first attempt. -/
def start (batchSize : Nat) : Call α where
  batchSize := batchSize
  cnt := 0
  pc := .own
  executed := []
  foundEmpty := false

/-- Which queue the call tries next, counted from its own on; `none` when the
condition of its loop is false, or while it executes. -/
def offset? (queues : Nat) (call : Call α) : Option Nat :=
  match call.pc with
  | .own => if call.cnt < call.batchSize then some 0 else none
  | .steal i => if i < queues then some i else none
  | _ => none

/-- Between the loops: `if (cnt == batch_size) return cnt`. -/
def leaveOwn (call : Call α) : Outcome α :=
  if call.cnt = call.batchSize then .returns call
  else .goesOn { call with pc := .steal 0 }

/-- The condition of the loop is false. -/
def left (call : Call α) : Outcome α :=
  match call.pc with
  | .own => call.leaveOwn
  | _ => .returns call

/-- An attempt found an item. -/
def found (call : Call α) (item : α) : Call α :=
  { call with
    pc := match call.pc with
      | .steal i => .stealExecute i
      | _ => .ownExecute
    executed := call.executed ++ [item] }

@[simp] theorem executing_found (call : Call α) (item : α) :
    (call.found item).pc.executing = true := by
  unfold found
  cases call.pc <;> rfl

/-- An attempt found nothing: the first loop breaks, the second goes on. -/
def missed (call : Call α) : Outcome α :=
  match call.pc with
  | .steal i => .goesOn { call with pc := .steal (i + 1) }
  | _ => { call with foundEmpty := true }.leaveOwn

/-- The item was executed: `++cnt`, and in the second loop the `break`. -/
def finished (call : Call α) : Outcome α :=
  let counted := { call with cnt := call.cnt + 1 }
  match call.pc with
  | .stealExecute i =>
      if counted.cnt = call.batchSize then .returns counted
      else .goesOn { counted with pc := .steal (i + 1) }
  | _ => .goesOn { counted with pc := .own }

/-- The counters of a call that is under way. -/
structure Sound (call : Call α) : Prop where
  counted : call.executed.length = call.cnt + call.pc.executing.toNat
  bounded : call.executed.length ≤ call.batchSize
  /-- The second loop is entered, and goes on, with room for another item. -/
  room : call.pc.stealing = true → call.cnt < call.batchSize
  emptied : call.pc.stealing = true → call.foundEmpty = true

/-- The counters of a call that returns: it has executed as many items as it
says, and less than a batch only if its own queue had no more. -/
structure Complete (call : Call α) : Prop where
  counted : call.cnt = call.executed.length
  bounded : call.cnt ≤ call.batchSize
  emptied : call.cnt < call.batchSize → call.foundEmpty = true

end Call

namespace Outcome

variable {α : Type u}

/-- The call, whether it goes on or returns. -/
def call : Outcome α → Call α
  | .goesOn call => call
  | .returns call => call

def Sound : Outcome α → Prop
  | .goesOn call => call.Sound
  | .returns call => call.Complete

end Outcome

namespace Call

variable {α : Type u} (call : Call α)

@[simp] theorem executed_leaveOwn : call.leaveOwn.call.executed = call.executed := by
  unfold leaveOwn
  split <;> rfl

@[simp] theorem executed_left : call.left.call.executed = call.executed := by
  unfold left
  split
  · exact call.executed_leaveOwn
  · rfl

@[simp] theorem executed_missed : call.missed.call.executed = call.executed := by
  unfold missed
  split
  · rfl
  · exact executed_leaveOwn _

@[simp] theorem executed_finished : call.finished.call.executed = call.executed := by
  simp only [finished]
  split
  · split <;> rfl
  · rfl

end Call

namespace Call.Sound

variable {α : Type u} {call : Call α}

theorem start (batchSize : Nat) : (Call.start batchSize : Call α).Sound where
  counted := rfl
  bounded := Nat.zero_le _
  room := by simp [Call.start, Pc.stealing]
  emptied := by simp [Call.start, Pc.stealing]

theorem complete
    (sound : call.Sound)
    (idle : call.pc.executing = false)
    (emptied : call.cnt < call.batchSize → call.foundEmpty = true) :
    call.Complete := by
  have counted := sound.counted
  have bounded := sound.bounded
  rw [idle, Bool.toNat_false, Nat.add_zero] at counted
  exact ⟨counted.symm, counted ▸ bounded, emptied⟩

/-- After the first loop either the batch is complete or there is room. -/
theorem leaveOwn
    (complete : call.Complete) :
    call.leaveOwn.Sound := by
  have counted := complete.counted
  have bounded := complete.bounded
  simp only [Call.leaveOwn]
  split
  · exact complete
  · next different =>
      have room : call.cnt < call.batchSize := by omega
      refine ⟨?_, ?_, fun _ => room, fun _ => complete.emptied room⟩
      · simp [counted, Pc.executing]
      · simp only
        omega

theorem left
    {queues : Nat}
    (sound : call.Sound)
    (idle : call.pc.executing = false)
    (stops : call.offset? queues = none) :
    call.left.Sound := by
  simp only [Call.left]
  split
  · next own =>
      apply leaveOwn
      apply sound.complete idle
      intro less
      simp [Call.offset?, own, less] at stops
  · next other =>
      apply sound.complete idle
      intro _
      apply sound.emptied
      cases pc : call.pc with
      | own => exact absurd pc other
      | steal => rfl
      | ownExecute => simp [pc, Pc.executing] at idle
      | stealExecute => simp [pc, Pc.executing] at idle

theorem found
    {queues offset : Nat}
    (sound : call.Sound)
    (tries : call.offset? queues = some offset)
    (item : α) :
    (call.found item).Sound := by
  have counted := sound.counted
  have bounded := sound.bounded
  cases pc : call.pc with
  | own =>
      have room : call.cnt < call.batchSize := by
        by_contra full
        simp [Call.offset?, pc, full] at tries
      simp only [pc, Pc.executing, Bool.toNat_false, Nat.add_zero] at counted
      refine ⟨?_, ?_, ?_, ?_⟩
      · simp [Call.found, pc, counted, Pc.executing]
      · simp [Call.found, counted]
        omega
      · simp [Call.found, pc, Pc.stealing]
      · simp [Call.found, pc, Pc.stealing]
  | steal i =>
      have room := sound.room (by rw [pc]; rfl)
      have emptied := sound.emptied (by rw [pc]; rfl)
      simp only [pc, Pc.executing, Bool.toNat_false, Nat.add_zero] at counted
      refine ⟨?_, ?_, fun _ => room, fun _ => emptied⟩
      · simp [Call.found, pc, counted, Pc.executing]
      · simp [Call.found, counted]
        omega
  | ownExecute => simp [Call.offset?, pc] at tries
  | stealExecute => simp [Call.offset?, pc] at tries

theorem missed
    {queues offset : Nat}
    (sound : call.Sound)
    (tries : call.offset? queues = some offset) :
    call.missed.Sound := by
  have counted := sound.counted
  have bounded := sound.bounded
  cases pc : call.pc with
  | own =>
      simp only [pc, Pc.executing, Bool.toNat_false, Nat.add_zero] at counted
      simp only [Call.missed, pc]
      exact leaveOwn ⟨counted.symm, counted ▸ bounded, fun _ => rfl⟩
  | steal i =>
      have room := sound.room (by rw [pc]; rfl)
      have emptied := sound.emptied (by rw [pc]; rfl)
      simp only [Call.missed, pc]
      exact ⟨by simpa [pc, Pc.executing] using counted, bounded, fun _ => room, fun _ => emptied⟩
  | ownExecute => simp [Call.offset?, pc] at tries
  | stealExecute => simp [Call.offset?, pc] at tries

theorem finished
    (sound : call.Sound)
    (executing : call.pc.executing = true) :
    call.finished.Sound := by
  have counted := sound.counted
  have bounded := sound.bounded
  rw [executing, Bool.toNat_true] at counted
  cases pc : call.pc with
  | ownExecute =>
      simp only [Call.finished, pc]
      refine ⟨by simpa [Pc.executing] using counted, bounded, ?_, ?_⟩
      · simp [Pc.stealing]
      · simp [Pc.stealing]
  | stealExecute i =>
      have emptied := sound.emptied (by rw [pc]; rfl)
      simp only [Call.finished, pc]
      split
      · exact ⟨counted.symm, counted ▸ bounded, fun _ => emptied⟩
      · next different =>
          refine ⟨by simpa [Pc.executing] using counted, bounded, fun _ => ?_, fun _ => emptied⟩
          simp only
          omega
  | own => simp [pc, Pc.executing] at executing
  | steal => simp [pc, Pc.executing] at executing

end Call.Sound

/-! ## The calls of many workers -/

/-- A call that has returned `value`. -/
structure Returned (Worker : Type v) (α : Type u) where
  worker : Worker
  call : Call α
  value : Nat
  deriving DecidableEq

/-- The call that each worker makes, and those that have returned, oldest first. -/
structure Calls (Worker : Type v) (α : Type u) where
  running : Worker → Option (Call α)
  returned : List (Returned Worker α)

namespace Calls

variable {Worker : Type v} {α : Type u} [DecidableEq Worker]

omit [DecidableEq Worker] in
/-- Nobody has called yet. -/
def initial : Calls Worker α where
  running := fun _ => none
  returned := []

/-- The call of a worker has made a turn. -/
def settle (calls : Calls Worker α) (worker : Worker) : Outcome α → Calls Worker α
  | .goesOn call => { calls with running := Function.update calls.running worker (some call) }
  | .returns call =>
      { running := Function.update calls.running worker none
        returned := calls.returned ++ [⟨worker, call, call.cnt⟩] }

/-- What the call of a worker has executed so far. -/
def current (calls : Calls Worker α) (worker : Worker) : List α :=
  (calls.running worker).elim [] Call.executed

/-- What the calls of a worker that have returned have executed. -/
def past (calls : Calls Worker α) (worker : Worker) : List α :=
  (calls.returned.filter fun returned => returned.worker = worker).flatMap fun returned =>
    returned.call.executed

@[simp] theorem running_settle_goesOn (calls : Calls Worker α) (worker : Worker)
    (call : Call α) : (calls.settle worker (.goesOn call)).running worker = some call := by
  simp [settle]

theorem running_settle_of_ne
    {worker other : Worker}
    (calls : Calls Worker α)
    (apart : other ≠ worker)
    (outcome : Outcome α) :
    (calls.settle worker outcome).running other = calls.running other := by
  cases outcome <;> simp [settle, apart]

theorem current_settle_of_ne
    {worker other : Worker}
    (calls : Calls Worker α)
    (apart : other ≠ worker)
    (outcome : Outcome α) :
    (calls.settle worker outcome).current other = calls.current other := by
  rw [current, current, calls.running_settle_of_ne apart]

theorem past_settle_of_ne
    {worker other : Worker}
    (calls : Calls Worker α)
    (apart : other ≠ worker)
    (outcome : Outcome α) :
    (calls.settle worker outcome).past other = calls.past other := by
  cases outcome <;> simp [settle, past, apart.symm]

@[simp] theorem past_settle_goesOn (calls : Calls Worker α) (worker : Worker) (call : Call α) :
    (calls.settle worker (.goesOn call)).past = calls.past := rfl

@[simp] theorem past_settle_returns (calls : Calls Worker α) (worker : Worker) (call : Call α) :
    (calls.settle worker (.returns call)).past worker = calls.past worker ++ call.executed := by
  simp [settle, past]

/-- The calls count what they execute; `history` is what each worker has begun to
execute, oldest first. -/
structure Sound (calls : Calls Worker α) (history : Worker → List α) : Prop where
  running : ∀ worker call, calls.running worker = some call → call.Sound
  returned : ∀ returned ∈ calls.returned, returned.call.Complete ∧
    returned.value = returned.call.cnt
  executed : ∀ worker, history worker = calls.past worker ++ calls.current worker

namespace Sound

variable {calls : Calls Worker α} {history : Worker → List α} {worker : Worker}

theorem initial : (Calls.initial : Calls Worker α).Sound fun _ => [] where
  running := by simp [Calls.initial]
  returned := by simp [Calls.initial]
  executed := by simp [Calls.initial, Calls.past, Calls.current]

theorem congr
    {other : Worker → List α}
    (sound : calls.Sound history)
    (same : ∀ worker, other worker = history worker) :
    calls.Sound other := by
  rw [funext same]
  exact sound

/-- A turn after which the worker has executed `taken` more. -/
theorem settle
    {outcome : Outcome α}
    (sound : calls.Sound history)
    (kept : outcome.Sound)
    (taken : List α)
    (executed : outcome.call.executed = calls.current worker ++ taken) :
    (calls.settle worker outcome).Sound
      (Function.update history worker (history worker ++ taken)) := by
  have before := sound.executed
  cases outcome with
  | goesOn call =>
      refine ⟨fun other held running => ?_, sound.returned, fun other => ?_⟩
      · rcases eq_or_ne other worker with rfl | apart
        · obtain rfl : call = held := by simpa [Calls.settle] using running
          exact kept
        · exact sound.running other held (by simpa [Calls.settle, apart] using running)
      · rcases eq_or_ne other worker with rfl | apart
        · have current : call.executed = calls.current other ++ taken := executed
          simp [Calls.settle, Calls.past, Calls.current, before, current]
        · simpa [Calls.settle, Calls.past, Calls.current, apart] using before other
  | returns call =>
      refine ⟨fun other held running => ?_, fun returned member => ?_, fun other => ?_⟩
      · rcases eq_or_ne other worker with rfl | apart
        · simp [Calls.settle] at running
        · exact sound.running other held (by simpa [Calls.settle, apart] using running)
      · rcases List.mem_append.mp member with earlier | last
        · exact sound.returned returned earlier
        · obtain rfl := List.mem_singleton.mp last
          exact ⟨kept, rfl⟩
      · rcases eq_or_ne other worker with rfl | apart
        · have current : call.executed = calls.current other ++ taken := executed
          simp [Calls.settle, Calls.past, Calls.current, before, current]
        · simpa [Calls.settle, Calls.past, Calls.current, apart, apart.symm] using before other

/-- A turn in which the worker begins to execute nothing. -/
theorem quiet
    {outcome : Outcome α}
    (sound : calls.Sound history)
    (kept : outcome.Sound)
    (executed : outcome.call.executed = calls.current worker) :
    (calls.settle worker outcome).Sound history := by
  simpa using sound.settle kept [] (by simpa using executed)

variable {call : Call α} {queues : Nat}

/-- A worker without a call makes one. -/
theorem start
    (sound : calls.Sound history)
    (idle : calls.running worker = none)
    (batchSize : Nat) :
    (calls.settle worker (.goesOn (.start batchSize))).Sound history :=
  sound.quiet (.start batchSize) (by simp [Calls.current, idle, Outcome.call, Call.start])

theorem found
    {offset : Nat}
    (sound : calls.Sound history)
    (running : calls.running worker = some call)
    (tries : call.offset? queues = some offset)
    (item : α) :
    (calls.settle worker (.goesOn (call.found item))).Sound
      (Function.update history worker (history worker ++ [item])) := by
  have kept : (Outcome.goesOn (call.found item)).Sound :=
    (sound.running worker call running).found tries item
  apply sound.settle kept [item]
  simp [Calls.current, running, Outcome.call, Call.found]

theorem missed
    {offset : Nat}
    (sound : calls.Sound history)
    (running : calls.running worker = some call)
    (tries : call.offset? queues = some offset) :
    (calls.settle worker call.missed).Sound history :=
  sound.quiet ((sound.running worker call running).missed tries)
    (by simp [Calls.current, running])

theorem left
    (sound : calls.Sound history)
    (running : calls.running worker = some call)
    (idle : call.pc.executing = false)
    (stops : call.offset? queues = none) :
    (calls.settle worker call.left).Sound history :=
  sound.quiet ((sound.running worker call running).left idle stops)
    (by simp [Calls.current, running])

theorem finished
    (sound : calls.Sound history)
    (running : calls.running worker = some call)
    (executing : call.pc.executing = true) :
    (calls.settle worker call.finished).Sound history :=
  sound.quiet ((sound.running worker call running).finished executing)
    (by simp [Calls.current, running])

end Sound

end Calls

end Batch
end Lib
end Cgo
