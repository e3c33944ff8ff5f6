import Cgo.Coroutine.Construct

/-!
# Nests of coroutines

The frames on the call stack of an entry are a path in the forest of owners: each
caller holds the object of its callee, and the object of the entry is outside.
`_call_stack_create`, `_call_stack_push` and `_call_stack_pop` keep that.
-/

namespace Cgo
namespace Coroutine

open Relation

namespace Heap

/-- The pointers and the owners of the frames on a call stack, the running frame
first. -/
structure CallStack (heap : Heap) (entry : FrameId) (stack : List FrameId) : Prop where
  linked : heap.links.Stacked stack
  last : ∀ top ∈ stack.head?, heap.links.next top = none
  chain : stack.IsChain fun callee caller => heap.Contains caller callee
  bottom : stack.getLast? = some entry
  root : heap.Holds .outside entry
  entries : ∀ frame ∈ stack, (heap.promise frame).entry = some entry
  current : (heap.promise entry).current = stack.head?

variable {heap after : Heap} {entry other : FrameId} {stack otherStack : List FrameId}

theorem Tidy.alive_of_holds
    (tidy : heap.Tidy)
    {place : Place}
    {frame : FrameId}
    (holds : heap.Holds place frame) :
    heap.alive frame = true := by
  obtain ⟨object, _, owns⟩ := holds
  exact (tidy.owned owns).1

/-- A frame whose object is outside is in no frame. -/
theorem Tidy.not_contains_of_outside
    (tidy : heap.Tidy)
    {root : FrameId}
    (outside : heap.Holds .outside root)
    (parent : FrameId) :
    ¬heap.Contains parent root := by
  intro contains
  simpa using tidy.place_eq outside contains

namespace CallStack

theorem mem_entry (callStack : heap.CallStack entry stack) : entry ∈ stack :=
  List.mem_of_getLast? callStack.bottom

theorem reach
    (callStack : heap.CallStack entry stack)
    {frame : FrameId}
    (member : frame ∈ stack) :
    ReflTransGen heap.Contains entry frame :=
  Lib.reach_of_isChain callStack.chain callStack.bottom member

/-- Every frame of the stack has an owner. -/
theorem holds
    (callStack : heap.CallStack entry stack)
    {frame : FrameId}
    (member : frame ∈ stack) :
    ∃ place, heap.Holds place frame := by
  rcases ReflTransGen.cases_tail (callStack.reach member) with same | ⟨parent, _, contains⟩
  · exact ⟨.outside, same ▸ callStack.root⟩
  · exact ⟨.frame parent, contains⟩

theorem alive
    (callStack : heap.CallStack entry stack)
    (tidy : heap.Tidy)
    {frame : FrameId}
    (member : frame ∈ stack) :
    heap.alive frame = true := by
  obtain ⟨place, holds⟩ := callStack.holds member
  exact tidy.alive_of_holds holds

theorem nodup
    (callStack : heap.CallStack entry stack)
    (tidy : heap.Tidy) :
    stack.Nodup :=
  tidy.ranked.nodup_of_isChain callStack.chain

/-- What a frame of the stack reaches belongs to its entry only. -/
theorem entry_eq
    (callStack : heap.CallStack entry stack)
    (tidy : heap.Tidy)
    {root frame : FrameId}
    (member : frame ∈ stack)
    (outside : heap.Holds .outside root)
    (path : ReflTransGen heap.Contains root frame) :
    root = entry :=
  Lib.eq_of_roots tidy.parents (tidy.not_contains_of_outside outside)
    (tidy.not_contains_of_outside callStack.root) path (callStack.reach member)

/-- Two call stacks share no frame. -/
theorem disjoint
    (callStack : heap.CallStack entry stack)
    (another : heap.CallStack other otherStack)
    (tidy : heap.Tidy)
    {frame : FrameId}
    (member : frame ∈ stack)
    (memberOther : frame ∈ otherStack) :
    other = entry :=
  callStack.entry_eq tidy member another.root (another.reach memberOther)

/-- What the running frame holds is not on the call stack. -/
theorem not_mem_of_running
    {running : FrameId}
    {callers : List FrameId}
    (callStack : heap.CallStack entry (running :: callers))
    (tidy : heap.Tidy)
    {child frame : FrameId}
    (contains : heap.Contains running child)
    (path : ReflTransGen heap.Contains child frame) :
    frame ∉ running :: callers := by
  intro member
  refine tidy.ranked.no_return contains (path.trans ?_)
  rcases List.mem_cons.mp member with rfl | below
  · exact .refl
  · exact (Lib.reach_head_of_isChain callStack.chain below).to_reflTransGen

/-- What a step does not touch. -/
theorem congr
    (callStack : heap.CallStack entry stack)
    (links : ∀ frame ∈ stack, after.links.prev frame = heap.links.prev frame ∧
      after.links.next frame = heap.links.next frame)
    (promise : ∀ frame ∈ stack, (after.promise frame).entry = (heap.promise frame).entry ∧
      (after.promise frame).current = (heap.promise frame).current)
    (holds : ∀ place, ∀ frame ∈ stack, heap.Holds place frame → after.Holds place frame) :
    after.CallStack entry stack where
  linked := by
    cases stack with
    | nil => trivial
    | cons top rest =>
        exact callStack.linked.congr (fun frame member => (links frame member).1)
          fun frame member => (links frame (List.mem_cons_of_mem _ member)).2
  last := by
    intro top isTop
    rw [(links top (List.mem_of_mem_head? isTop)).2]
    exact callStack.last top isTop
  chain := by
    refine List.IsChain.imp_of_mem_imp (fun callee caller isCallee _ contains => ?_) callStack.chain
    exact holds _ callee isCallee contains
  bottom := callStack.bottom
  root := holds _ _ callStack.mem_entry callStack.root
  entries := by
    intro frame member
    rw [(promise frame member).1]
    exact callStack.entries frame member
  current := by
    rw [(promise entry callStack.mem_entry).2]
    exact callStack.current

end CallStack

/-! ## The operations -/

section Operations

variable {object : ObjectId} {callee caller : FrameId} {callers : List FrameId}

/-- The heap after `_call_stack_create`. -/
def created (heap : Heap) (frame : FrameId) : Heap :=
  heap.setPromise frame { heap.promise frame with entry := some frame, current := some frame }

/-- The heap after `_call_stack_push`. -/
def pushed (heap : Heap) (entry caller callee : FrameId) : Heap :=
  let linked := { heap with links := heap.links.linkBack caller callee }
  let entered := linked.setPromise callee { heap.promise callee with entry := some entry }
  entered.setPromise entry { entered.promise entry with current := some callee }

/-- The heap after `_call_stack_pop`. -/
def popped (heap : Heap) (entry : FrameId) (callers : List FrameId) : Heap :=
  let unlinked := { heap with links := heap.unlinkCallee callers.head? }
  unlinked.setPromise entry { heap.promise entry with current := callers.head? }

theorem Tidy.created
    (tidy : heap.Tidy)
    (frame : FrameId) :
    (heap.created frame).Tidy :=
  tidy.setPromise rfl

theorem Tidy.pushed
    (tidy : heap.Tidy)
    (entry caller callee : FrameId) :
    (heap.pushed entry caller callee).Tidy := by
  let linked := { heap with links := heap.links.linkBack caller callee }
  have tidyLinked : linked.Tidy := tidy.setLinks _
  let entered := linked.setPromise callee { heap.promise callee with entry := some entry }
  have tidyEntered : entered.Tidy := tidyLinked.setPromise rfl
  exact tidyEntered.setPromise rfl

theorem Tidy.popped
    (tidy : heap.Tidy)
    (entry : FrameId)
    (callers : List FrameId) :
    (heap.popped entry callers).Tidy := by
  have tidyLinked := tidy.setLinks (heap.unlinkCallee callers.head?)
  exact tidyLinked.setPromise rfl

theorem Tidy.callStackCreate_eq
    (tidy : heap.Tidy)
    {frame : FrameId}
    (owns : heap.handler object = some frame) :
    heap.callStackCreate object = some (heap.created frame) := by
  obtain ⟨alive, _, present⟩ := tidy.owned owns
  simp [callStackCreate, present, read, alive, Heap.created]

/-- A frame that is not linked is a call stack of its own. -/
theorem callStack_created
    {frame : FrameId}
    (outside : heap.Holds .outside frame)
    (prev : heap.links.prev frame = none)
    (next : heap.links.next frame = none) :
    (heap.created frame).CallStack frame [frame] where
  linked := prev
  last := by simpa [created, setPromise] using next
  chain := List.isChain_singleton _
  bottom := rfl
  root := outside
  entries := by simp [created, setPromise]
  current := by simp [created, setPromise]

theorem CallStack.callStackPush_eq
    (callStack : heap.CallStack entry (caller :: callers))
    (tidy : heap.Tidy)
    (alive : heap.alive callee = true) :
    heap.callStackPush caller callee = some (heap.pushed entry caller callee) := by
  have aliveCaller := callStack.alive tidy List.mem_cons_self
  have aliveEntry := callStack.alive tidy callStack.mem_entry
  have isEntry := callStack.entries caller List.mem_cons_self
  simp [callStackPush, read, alive, aliveCaller, isEntry, aliveEntry, callStack.current, pushed,
    setPromise]

theorem CallStack.awaitSuspend_eq
    (callStack : heap.CallStack entry (caller :: callers))
    (tidy : heap.Tidy)
    (owns : heap.handler object = some callee) :
    heap.awaitSuspend object caller = some (heap.pushed entry caller callee) := by
  obtain ⟨alive, onwer, present⟩ := tidy.owned owns
  -- the owner is up to date: the assignment in `await_suspend` changes nothing
  have same : heap.setPromise callee { heap.promise callee with onwer := some object } = heap := by
    simp [setPromise, ← onwer]
  calc heap.awaitSuspend object caller
      = (heap.setPromise callee
          { heap.promise callee with onwer := some object }).callStackPush caller callee := by
        simp [Heap.awaitSuspend, present, read, alive]
    _ = some (heap.pushed entry caller callee) := by
        rw [same, callStack.callStackPush_eq tidy alive]

/-- The child of the running frame goes on the call stack. -/
theorem CallStack.push
    (callStack : heap.CallStack entry (caller :: callers))
    (tidy : heap.Tidy)
    (contains : heap.Contains caller callee) :
    (heap.pushed entry caller callee).CallStack entry (callee :: caller :: callers) := by
  have fresh := callStack.not_mem_of_running tidy contains .refl
  have last := callStack.last caller rfl
  obtain ⟨linked, lastCallee⟩ :=
    callStack.linked.linkBack last (callStack.nodup tidy) fresh
  have different : entry ≠ callee := by
    rintro rfl
    exact fresh callStack.mem_entry
  refine ⟨linked, ?_, ?_, ?_, callStack.root, ?_, ?_⟩
  · intro top isTop
    obtain rfl : callee = top := by simpa using isTop
    exact lastCallee
  · exact List.isChain_cons_cons.mpr ⟨contains, callStack.chain⟩
  · simpa using callStack.bottom
  · intro frame member
    by_cases isEntry : frame = entry
    · subst isEntry
      simpa [pushed, setPromise, different] using callStack.entries frame callStack.mem_entry
    · rcases List.mem_cons.mp member with rfl | below
      · simp [pushed, setPromise, isEntry]
      · have other : frame ≠ callee := by
          rintro rfl
          exact fresh below
        simpa [pushed, setPromise, isEntry, other] using callStack.entries frame below
  · simp [pushed, setPromise]

/-- A push on one call stack leaves the others. -/
theorem CallStack.frame_push
    (another : heap.CallStack other otherStack)
    (last : heap.links.next caller = none)
    (calleeOff : callee ∉ otherStack)
    (callerOff : caller ∉ otherStack)
    (entryOff : entry ∉ otherStack) :
    (heap.pushed entry caller callee).CallStack other otherStack := by
  refine another.congr (fun frame member => ?_) (fun frame member => ?_) fun _ _ _ holds => holds
  · have isCallee : frame ≠ callee := fun same => calleeOff (same ▸ member)
    have isCaller : frame ≠ caller := fun same => callerOff (same ▸ member)
    simp [pushed, setPromise, Links.prev_linkBack last, Links.next_linkBack last, isCallee,
      isCaller]
  · have isCallee : frame ≠ callee := fun same => calleeOff (same ▸ member)
    have isEntry : frame ≠ entry := fun same => entryOff (same ▸ member)
    simp [pushed, setPromise, isCallee, isEntry]

theorem CallStack.callStackPop_eq
    (callStack : heap.CallStack entry (caller :: callers))
    (tidy : heap.Tidy) :
    heap.callStackPop entry = some (heap.popped entry callers) := by
  have aliveEntry := callStack.alive tidy callStack.mem_entry
  have aliveCaller := callStack.alive tidy List.mem_cons_self
  have isEntry := callStack.entries entry callStack.mem_entry
  have front : heap.links.front caller = callers.head? := by
    cases callers with
    | nil => exact callStack.linked
    | cons below rest => exact callStack.linked.1
  simp [Heap.callStackPop, read, aliveEntry, aliveCaller, isEntry, callStack.current, front,
    popped]

/-- The running frame goes off the call stack. -/
theorem CallStack.pop
    {below : FrameId}
    (callStack : heap.CallStack entry (caller :: below :: callers))
    (tidy : heap.Tidy) :
    (heap.popped entry (below :: callers)).CallStack entry (below :: callers) := by
  have last := callStack.last caller rfl
  obtain ⟨linked, lastBelow⟩ := callStack.linked.unlinkBack last (callStack.nodup tidy)
  refine ⟨linked, ?_, ?_, ?_, callStack.root, ?_, ?_⟩
  · intro top isTop
    obtain rfl : below = top := by simpa using isTop
    exact lastBelow
  · exact (List.isChain_cons_cons.mp callStack.chain).2
  · simpa using callStack.bottom
  · intro frame member
    have isEntry := callStack.entries frame (List.mem_cons_of_mem _ member)
    by_cases same : frame = entry
    · subst same
      simpa [popped, setPromise, unlinkCallee] using isEntry
    · simpa [popped, setPromise, unlinkCallee, same] using isEntry
  · simp [popped, setPromise, unlinkCallee]

/-- The pointers after a pop: those of the frame that goes are null. -/
theorem CallStack.links_popped
    (callStack : heap.CallStack entry (caller :: callers))
    (frame : FrameId) :
    (frame = caller → (heap.popped entry callers).links.prev frame = none ∧
      (heap.popped entry callers).links.next frame = none) ∧
    (frame ∉ caller :: callers →
      (heap.popped entry callers).links.prev frame = heap.links.prev frame ∧
      (heap.popped entry callers).links.next frame = heap.links.next frame) := by
  have last := callStack.last caller rfl
  cases callers with
  | nil =>
      refine ⟨fun same => ?_, fun _ => ⟨rfl, rfl⟩⟩
      rw [same]
      exact ⟨callStack.linked, last⟩
  | cons below rest =>
      have up : heap.links.next below = some caller := callStack.linked.2.1
      simp only [popped, setPromise, unlinkCallee, List.head?_cons, Links.prev_unlinkBack up last,
        Links.next_unlinkBack up last]
      refine ⟨fun same => ?_, fun off => ?_⟩
      · simp [same]
      · obtain ⟨isCaller, isBelow, _⟩ := by simpa using off
        simp [isCaller, isBelow]

/-- A pop off one call stack leaves the others. -/
theorem CallStack.frame_pop
    (callStack : heap.CallStack entry (caller :: callers))
    (another : heap.CallStack other otherStack)
    (apart : ∀ frame ∈ otherStack, frame ∉ caller :: callers) :
    (heap.popped entry callers).CallStack other otherStack := by
  refine another.congr (fun frame member => ?_) (fun frame member => ?_) fun _ _ _ holds => holds
  · exact (callStack.links_popped frame).2 (apart frame member)
  · have isEntry : frame ≠ entry := by
      rintro rfl
      exact apart frame member callStack.mem_entry
    simp [popped, setPromise, unlinkCallee, isEntry]

end Operations

end Heap

end Coroutine
end Cgo
