import Cgo.Coroutine.Machine
import Cgo.Lib.Path

/-!
# Owners of coroutine frames

`BaseFrame` objects own coroutine frames, and frames hold `BaseFrame` objects:
their parameters, their locals, and the temporaries that they await.  A frame is
destroyed through its handle, which ends the objects in it, whose destructors
destroy further frames.  The heap here follows the objects and their pointers;
what the bodies of the coroutines compute is left out, so at any time anyone who
can act may do anything to the objects within reach.  `none` stands for a
pointer that is followed although it is null or dangling, for a frame that is
destroyed twice, and for destructors that nest deeper than the stack has room.
-/

namespace Cgo
namespace Coroutine

/-- `BasePromise`, but for its links and `_error`. -/
structure BasePromise where
  /-- `_onwer` -/
  onwer : Option ObjectId
  /-- `_entry` -/
  entry : Option FrameId
  /-- `_current` -/
  current : Option FrameId

/-- Where a `Coroutine` object is. -/
inductive Place
  /-- in no frame, such as in the pool of a scheduler -/
  | outside
  /-- among the parameters, locals and temporaries of a frame -/
  | frame (frame : FrameId)
  deriving DecidableEq

/-- The heap.  The last field is a history: the frames that were destroyed,
oldest first. -/
structure Heap where
  links : Links FrameId
  promise : FrameId → BasePromise
  alive : FrameId → Bool
  /-- `none` before an object is constructed and after it has ended -/
  object : ObjectId → Option Object
  /-- the objects of a place in the order of their construction -/
  objects : Place → List ObjectId
  nextFrame : FrameId
  nextObject : ObjectId
  destroyed : List FrameId

namespace Heap

/-- Nothing is allocated. -/
def empty : Heap where
  links := .empty
  promise := fun _ => ⟨none, none, none⟩
  alive := fun _ => false
  object := fun _ => none
  objects := fun _ => []
  nextFrame := 0
  nextObject := 0
  destroyed := []

variable (heap : Heap)

/-- `_handler` of an object. -/
def handler (object : ObjectId) : Option FrameId :=
  (heap.object object).bind Object.handler

/-- A pointer to a promise is followed. -/
def read (frame : FrameId) : Option BasePromise :=
  if heap.alive frame then some (heap.promise frame) else none

/-- The heap with another promise. -/
def setPromise (frame : FrameId) (value : BasePromise) : Heap :=
  { heap with promise := Function.update heap.promise frame value }

/-- The heap with another value of an object. -/
def setObject (object : ObjectId) (value : Object) : Heap :=
  { heap with object := Function.update heap.object object (some value) }

/-- Frames are freed and objects end. -/
def remove (frames : List FrameId) (objects : List ObjectId) : Heap :=
  { heap with
    alive := fun frame => heap.alive frame && decide (frame ∉ frames)
    object := fun object => if object ∈ objects then none else heap.object object
    objects := fun place => (heap.objects place).filter fun object => decide (object ∉ objects)
    destroyed := heap.destroyed ++ frames }

/-! ## Constructors -/

/-- `BaseFrame()` at the next address: `_handler` and `_promise` are null. -/
def construct (place : Place) : Heap :=
  { heap with
    object := Function.update heap.object heap.nextObject (some ⟨none, none⟩)
    objects := Function.update heap.objects place (heap.objects place ++ [heap.nextObject])
    nextObject := heap.nextObject + 1 }

/-- A frame is allocated and given to an object: `BaseFrame(coroutine_handle)`. -/
def allocate (object : ObjectId) : Heap :=
  { heap with
    links := heap.links.create heap.nextFrame
    promise := Function.update heap.promise heap.nextFrame ⟨some object, none, none⟩
    alive := Function.update heap.alive heap.nextFrame true
    object := Function.update heap.object object (some ⟨some heap.nextFrame, some heap.nextFrame⟩)
    nextFrame := heap.nextFrame + 1 }

/-- The call of a coroutine function, with `get_return_object`. -/
def create (place : Place) : Heap :=
  (heap.construct place).allocate heap.nextObject

/-- The swaps of `BaseFrame(BaseFrame&&)`, and the owner of the promise. -/
def swap (this rhs : ObjectId) : Option Heap :=
  match heap.object this, heap.object rhs with
  | some left, some right =>
      match right.promise with
      | none => none
      | some promise =>
          match heap.read promise with
          | none => none
          | some value =>
              some (((heap.setObject this right).setObject rhs left).setPromise promise
                { value with onwer := some this })
  | _, _ => none

/-- `BaseFrame(BaseFrame&& rhs)` at the next address; its `_destroy` finds the
null handler of the new object. -/
def move (rhs : ObjectId) (place : Place) : Option Heap :=
  (heap.construct place).swap heap.nextObject rhs

/-! ## The call stack -/

/-- `_call_stack_create` -/
def callStackCreate (entry : ObjectId) : Option Heap :=
  match (heap.object entry).bind Object.promise with
  | none => none
  | some promise =>
      match heap.read promise with
      | none => none
      | some value =>
          some (heap.setPromise promise
            { value with entry := some promise, current := some promise })

/-- `_call_stack_push` -/
def callStackPush (self callee : FrameId) : Option Heap := do
  let entry ← (← heap.read self).entry
  let caller ← (← heap.read entry).current
  let _ ← heap.read caller
  let linked := { heap with links := heap.links.linkBack caller callee }
  let entered := linked.setPromise callee
    { (← linked.read callee) with entry := some entry }
  return entered.setPromise entry { (← entered.read entry) with current := some callee }

/-- `await_suspend` -/
def awaitSuspend (object : ObjectId) (caller : FrameId) : Option Heap := do
  let callee ← (← heap.object object).promise
  let value ← heap.read callee
  (heap.setPromise callee { value with onwer := some object }).callStackPush caller callee

/-- The links once the caller, if there is one, has unlinked its callee. -/
def unlinkCallee : Option FrameId → Links FrameId
  | none => heap.links
  | some caller => heap.links.unlinkBack caller

/-- `_call_stack_pop` -/
def callStackPop (self : FrameId) : Option Heap := do
  let entry ← (← heap.read self).entry
  let value ← heap.read entry
  let current ← value.current
  let _ ← heap.read current
  let next := heap.links.front current
  let unlinked := { heap with links := heap.unlinkCallee next }
  return unlinked.setPromise entry { value with current := next }

/-! ## Destructors -/

/-- `~BaseFrame`, with `coroutine_handle::destroy` as a parameter. -/
def destruct
    (destroy : FrameId → Heap → Option Heap)
    (heap : Heap)
    (object : ObjectId) : Option Heap :=
  match heap.object object with
  | none => none
  | some value =>
      match value.handler with
      | none => some (heap.remove [] [object])
      | some handler => (destroy handler heap).map fun after => after.remove [] [object]

/-- `coroutine_handle::destroy`: the objects of the frame end, the last one first,
and the frame is freed.  The first argument is how deep the calls may nest. -/
def handlerDestroy : Nat → FrameId → Heap → Option Heap
  | 0, _, _ => none
  | depth + 1, frame, heap =>
      if heap.alive frame then
        ((heap.objects (.frame frame)).reverse.foldlM (destruct (handlerDestroy depth)) heap).map
          fun after => after.remove [frame] []
      else none

/-- The loop of `_call_stack_destroy`, which makes so many passes at most. -/
def destroyLoop (depth : Nat) : Nat → Option FrameId → Heap → Option Heap
  | _, none, heap => some heap
  | 0, some _, _ => none
  | passes + 1, some current, heap => do
      let onwer ← (← heap.read current).onwer
      let value ← heap.object onwer
      let handler ← value.handler
      let next := heap.links.front current
      let after ← handlerDestroy depth handler (heap.setObject onwer { value with handler := none })
      destroyLoop depth passes next after

/-- `_call_stack_destroy` -/
def callStackDestroy (depth : Nat) (entry : ObjectId) : Option Heap := do
  let promise ← (← heap.object entry).promise
  let current := (← heap.read (← (← heap.read promise).entry)).current
  destroyLoop depth depth current heap

end Heap

/-! ## The system -/

namespace Ownership

/-- The heap, and the call stacks of the entries, the running frame first.  The
code knows a call stack by its pointers only. -/
structure State where
  heap : Heap
  stack : FrameId → List FrameId

/-- Who acts: code in no coroutine, or the running frame of an entry. -/
inductive Actor
  | outside
  | running (entry : FrameId)
  deriving DecidableEq

/-- Where a `Coroutine` object is moved to. -/
inductive Target
  /-- where it is -/
  | here
  /-- out of the coroutines, as by `spawn` -/
  | outside
  /-- a parameter of a coroutine, whose object is here -/
  | parameter (callee : ObjectId)
  deriving DecidableEq

inductive Label
  /-- `Coroutine(nullptr_t)` -/
  | null (actor : Actor)
  /-- A coroutine function is called. -/
  | create (actor : Actor)
  | move (actor : Actor) (rhs : ObjectId) (target : Target)
  /-- An object goes out of scope. -/
  | drop (actor : Actor) (object : ObjectId) (depth : Nat)
  /-- `FrameOperator::init` -/
  | init (entry : ObjectId)
  /-- The running frame awaits an object that it holds. -/
  | await (entry : FrameId) (object : ObjectId)
  /-- The running frame has finished or thrown. -/
  | pop (entry : FrameId)
  /-- `FrameOperator::destroy` -/
  | destroy (entry : ObjectId) (depth : Nat)
  deriving DecidableEq

namespace State

def initial : State where
  heap := .empty
  stack := fun _ => []

variable (state : State)

/-- The objects within reach of an actor are those of one place. -/
def place : Actor → Option Place
  | .outside => some .outside
  | .running entry => (state.stack entry).head?.map .frame

/-- Where the new object is constructed.  An entry that is suspended is not handed
to a coroutine. -/
def target (place : Place) (rhs : ObjectId) : Target → Option Place
  | .here => some place
  | .outside => some .outside
  | .parameter callee =>
      if callee ≠ rhs ∧ callee ∈ state.heap.objects place ∧
          ((state.heap.handler rhs).map state.stack).getD [] = [] then
        (state.heap.handler callee).map .frame
      else none

/-- Another heap. -/
def setHeap (heap : Heap) : State :=
  { state with heap }

/-- The state with another call stack of an entry. -/
def setStack (entry : FrameId) (stack : List FrameId) : State :=
  { state with stack := Function.update state.stack entry stack }

@[simp] theorem setHeap_heap (heap : Heap) : (state.setHeap heap).heap = heap := rfl

@[simp] theorem setHeap_stack (heap : Heap) : (state.setHeap heap).stack = state.stack := rfl

@[simp] theorem setStack_heap (entry : FrameId) (stack : List FrameId) :
    (state.setStack entry stack).heap = state.heap := rfl

@[simp] theorem setStack_stack (entry : FrameId) (stack : List FrameId) :
    (state.setStack entry stack).stack = Function.update state.stack entry stack := rfl

/-- A `Coroutine` object is moved. -/
def move (place : Place) (rhs : ObjectId) (target : Target) : Option State :=
  if rhs ∈ state.heap.objects place then
    match state.target place rhs target with
    | none => none
    | some target => (state.heap.move rhs target).map state.setHeap
  else none

/-- An object goes out of scope, with the call stack of an entry that it owns. -/
def drop (place : Place) (object : ObjectId) (depth : Nat) : Option State :=
  if object ∈ state.heap.objects place then
    (Heap.destruct (Heap.handlerDestroy depth) state.heap object).map fun heap =>
      match state.heap.handler object with
      | none => state.setHeap heap
      | some handler => (state.setHeap heap).setStack handler []
  else none

/-- `FrameOperator::init` of an object that is no entry yet. -/
def init (entry : ObjectId) : Option State :=
  match state.heap.handler entry with
  | none => none
  | some handler =>
      if entry ∈ state.heap.objects .outside ∧ state.stack handler = [] then
        (state.heap.callStackCreate entry).map fun heap =>
          (state.setHeap heap).setStack handler [handler]
      else none

/-- The running frame awaits an object. -/
def await (entry : FrameId) (object : ObjectId) : Option State :=
  match state.stack entry, state.heap.handler object with
  | caller :: rest, some callee =>
      if object ∈ state.heap.objects (.frame caller) then
        (state.heap.awaitSuspend object caller).map fun heap =>
          (state.setHeap heap).setStack entry (callee :: caller :: rest)
      else none
  | _, _ => none

/-- The running frame leaves the call stack; its object keeps it. -/
def pop (entry : FrameId) : Option State :=
  match state.stack entry with
  | [] => none
  | _ :: rest =>
      (state.heap.callStackPop entry).map fun heap => (state.setHeap heap).setStack entry rest

/-- `FrameOperator::destroy` of a suspended entry. -/
def destroy (entry : ObjectId) (depth : Nat) : Option State :=
  match state.heap.handler entry with
  | none => none
  | some handler =>
      if entry ∈ state.heap.objects .outside ∧ state.stack handler ≠ [] then
        (state.heap.callStackDestroy depth entry).map fun heap =>
          (state.setHeap heap).setStack handler []
      else none

end State

/-- One step of the system. -/
def step (state : State) : Label → Option State
  | .null actor =>
      (state.place actor).map fun place => state.setHeap (state.heap.construct place)
  | .create actor =>
      (state.place actor).map fun place => state.setHeap (state.heap.create place)
  | .move actor rhs target =>
      (state.place actor).bind fun place => state.move place rhs target
  | .drop actor object depth =>
      (state.place actor).bind fun place => state.drop place object depth
  | .init entry => state.init entry
  | .await entry object => state.await entry object
  | .pop entry => state.pop entry
  | .destroy entry depth => state.destroy entry depth

end Ownership

end Coroutine
end Cgo
