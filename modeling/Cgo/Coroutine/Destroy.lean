import Cgo.Coroutine.Nest

/-!
# A call stack is destroyed

Two ways lead to the destruction of frames: the destructor of an object, and the
loop of `_call_stack_destroy`, which takes each frame of the call stack from its
owner before it destroys it.  Both destroy a list of frames once each: all that
the frames they start from can reach.
-/

namespace Cgo
namespace Coroutine

open Relation

namespace Heap

/-- The frames of the log are destroyed, in this order: the roots among them, and
what can be reached from the roots, each before the frame that holds it. -/
structure Razed (heap after : Heap) (roots log : List FrameId) : Prop where
  links : after.links = heap.links
  promise : after.promise = heap.promise
  nextFrame : after.nextFrame = heap.nextFrame
  nextObject : after.nextObject = heap.nextObject
  destroyed : after.destroyed = heap.destroyed ++ log
  nodup : log.Nodup
  were : ∀ {frame}, frame ∈ log → heap.alive frame = true
  alive : ∀ frame, after.alive frame = (heap.alive frame && decide (frame ∉ log))
  order : roots.Sublist log
  insideOut : log.Pairwise fun earlier later => ¬heap.Contains earlier later
  reached : ∀ {frame}, frame ∈ log →
    ∃ root ∈ roots, ReflTransGen heap.Contains root frame
  closed : ∀ {parent child}, parent ∈ log → heap.Contains parent child → child ∈ log
  fewer : ∀ {place frame}, after.Holds place frame → heap.Holds place frame
  holds : ∀ {place frame}, frame ∉ log → heap.Holds place frame → after.Holds place frame
  /-- An object is what it was, or it has lost its frame. -/
  object : ∀ {object value}, after.object object = some value →
    heap.object object = some value ∨
      value.handler = none ∧ ∃ frame ∈ log, value.promise = some frame

variable {heap middle after : Heap}

namespace Razed

variable {roots others log later : List FrameId}

theorem refl (heap : Heap) : heap.Razed heap [] [] := by
  refine ⟨rfl, rfl, rfl, rfl, by simp, List.nodup_nil, ?_, ?_, List.nil_sublist _, .nil, ?_, ?_, ?_,
    ?_, ?_⟩
  · simp
  · simp
  · simp
  · simp
  · exact fun holds => holds
  · exact fun _ holds => holds
  · exact fun present => .inl present

/-- What is alive afterwards was alive before. -/
theorem alive_before
    (razed : heap.Razed after roots log)
    {frame : FrameId}
    (alive : after.alive frame = true) :
    heap.alive frame = true := by
  rw [razed.alive, Bool.and_eq_true] at alive
  exact alive.1

/-- What is alive afterwards was not destroyed. -/
theorem not_mem_of_alive
    (razed : heap.Razed after roots log)
    {frame : FrameId}
    (alive : after.alive frame = true) :
    frame ∉ log := by
  rw [razed.alive, Bool.and_eq_true] at alive
  exact of_decide_eq_true alive.2

/-- One destruction after another. -/
theorem trans
    (first : heap.Razed middle roots log)
    (second : middle.Razed after others later) :
    heap.Razed after (roots ++ others) (log ++ later) where
  links := second.links.trans first.links
  promise := second.promise.trans first.promise
  nextFrame := second.nextFrame.trans first.nextFrame
  nextObject := second.nextObject.trans first.nextObject
  destroyed := by rw [second.destroyed, first.destroyed, List.append_assoc]
  nodup := by
    refine List.nodup_append.mpr ⟨first.nodup, second.nodup, ?_⟩
    rintro frame early other late rfl
    exact first.not_mem_of_alive (second.were late) early
  were := by
    intro frame member
    rcases List.mem_append.mp member with early | late
    · exact first.were early
    · exact first.alive_before (second.were late)
  alive := by
    intro frame
    simp [second.alive, first.alive, Bool.and_assoc]
  order := first.order.append second.order
  insideOut := by
    have kept : ∀ frame ∈ later, frame ∉ log :=
      fun frame late => first.not_mem_of_alive (second.were late)
    refine List.pairwise_append.mpr ⟨first.insideOut, ?_, ?_⟩
    · refine second.insideOut.imp_of_mem fun _ isLate apart contains => ?_
      exact apart (first.holds (kept _ isLate) contains)
    · intro parent early child late contains
      exact kept child late (first.closed early contains)
  reached := by
    intro frame member
    rcases List.mem_append.mp member with early | late
    · obtain ⟨root, isRoot, path⟩ := first.reached early
      exact ⟨root, List.mem_append_left _ isRoot, path⟩
    · obtain ⟨root, isRoot, path⟩ := second.reached late
      exact ⟨root, List.mem_append_right _ isRoot,
        ReflTransGen.mono (fun _ _ => first.fewer) _ _ path⟩
  closed := by
    intro parent child member contains
    by_cases early : child ∈ log
    · exact List.mem_append_left _ early
    · rcases List.mem_append.mp member with parentEarly | parentLate
      · exact absurd (first.closed parentEarly contains) early
      · exact List.mem_append_right _ (second.closed parentLate (first.holds early contains))
  fewer := fun holds => first.fewer (second.fewer holds)
  holds := by
    intro place frame kept holds
    rw [List.mem_append, not_or] at kept
    exact second.holds kept.2 (first.holds kept.1 holds)
  object := by
    intro object value present
    rcases second.object present with was | ⟨null, frame, member, promise⟩
    · rcases first.object was with still | ⟨null, frame, member, promise⟩
      · exact .inl still
      · exact .inr ⟨null, frame, List.mem_append_left _ member, promise⟩
    · exact .inr ⟨null, frame, List.mem_append_right _ member, promise⟩

/-- All that the roots reach is destroyed, and nothing else. -/
theorem mem_iff
    (razed : heap.Razed after roots log)
    {frame : FrameId} :
    frame ∈ log ↔ ∃ root ∈ roots, ReflTransGen heap.Contains root frame := by
  refine ⟨razed.reached, ?_⟩
  rintro ⟨root, isRoot, path⟩
  induction path with
  | refl => exact razed.order.subset isRoot
  | tail _ contains inductionHypothesis => exact razed.closed inductionHypothesis contains

/-- No object owns a destroyed frame any more. -/
theorem handler
    (razed : heap.Razed after roots log)
    {object : ObjectId}
    {frame : FrameId}
    (owns : after.handler object = some frame) :
    heap.handler object = some frame := by
  obtain ⟨value, present, isFrame⟩ := Option.bind_eq_some_iff.mp owns
  rcases razed.object present with was | ⟨null, _⟩
  · simp [Heap.handler, was, isFrame]
  · simp [null] at isFrame

/-- A call stack whose frames are not destroyed stays. -/
theorem callStack
    (razed : heap.Razed after roots log)
    {entry : FrameId}
    {stack : List FrameId}
    (callStack : heap.CallStack entry stack)
    (kept : ∀ frame ∈ stack, frame ∉ log) :
    after.CallStack entry stack := by
  refine callStack.congr (fun frame _ => ?_) (fun frame _ => ?_) fun place frame member holds => ?_
  · simp [razed.links]
  · simp [razed.promise]
  · exact razed.holds (kept frame member) holds

end Razed

/-! ## A destructor -/

/-- A removal destroys what can be reached from its roots. -/
theorem Removal.razed
    {frames roots : List FrameId}
    {objects : List ObjectId}
    (removal : heap.Removal frames objects)
    (order : roots.Sublist frames)
    (reached : ∀ frame ∈ frames, ∃ root ∈ roots, ReflTransGen heap.Contains root frame) :
    heap.Razed (heap.remove frames objects) roots frames where
  links := rfl
  promise := rfl
  nextFrame := rfl
  nextObject := rfl
  destroyed := rfl
  nodup := removal.nodup
  were := removal.alive
  alive := fun _ => rfl
  order := order
  insideOut := removal.order
  reached := fun {frame} member => reached frame member
  closed := removal.closed
  fewer := Holds.of_remove
  holds := removal.holds
  object := by
    intro object value present
    by_cases removed : object ∈ objects
    · simp [remove, removed] at present
    · exact .inl (by simpa [remove, removed] using present)

/-- The end of an object destroys what its frame can reach. -/
theorem Ends.razed
    {object : ObjectId}
    {frames : List FrameId}
    {objects : List ObjectId}
    (ends : heap.Ends [object] frames objects) :
    heap.Razed (heap.remove frames objects) (heap.handler object).toList frames := by
  refine ends.removal.razed ?_ fun frame member => ?_
  · cases owns : heap.handler object with
    | none => exact List.nil_sublist _
    | some root =>
        exact List.singleton_sublist.mpr (ends.complete List.mem_cons_self owns .refl)
  · obtain ⟨other, isObject, root, owns, path⟩ := ends.beneath member
    rw [List.mem_singleton.mp isObject] at owns
    exact ⟨root, by simp [owns], path⟩

/-! ## The loop -/

section Loop

variable {object : ObjectId} {frame : FrameId} {frames : List FrameId} {objects : List ObjectId}

/-- What is destroyed after a frame has lost its owner. -/
theorem Razed.of_released
    {log : List FrameId}
    (tidy : heap.Tidy)
    (owns : heap.handler object = some frame)
    (razed : (heap.released object frame).Razed after [frame] log) :
    heap.Razed after [frame] log where
  links := razed.links
  promise := razed.promise
  nextFrame := razed.nextFrame
  nextObject := razed.nextObject
  destroyed := razed.destroyed
  nodup := razed.nodup
  were := razed.were
  alive := razed.alive
  order := razed.order
  insideOut := by
    refine razed.insideOut.imp_of_mem fun {parent child} isParent _ apart contains => ?_
    -- what goes with the frame does not hold it
    have different : child ≠ frame := by
      rintro rfl
      obtain ⟨root, isRoot, path⟩ := razed.reached isParent
      rw [List.mem_singleton.mp isRoot] at path
      exact tidy.ranked.no_return contains
        (ReflTransGen.mono (fun _ _ => Holds.of_released) _ _ path)
    exact apart (contains.released owns different)
  reached := by
    intro other member
    obtain ⟨root, isRoot, path⟩ := razed.reached member
    exact ⟨root, isRoot, ReflTransGen.mono (fun _ _ => Holds.of_released) _ _ path⟩
  closed := by
    intro parent child member contains
    by_cases same : child = frame
    · rw [same]
      exact razed.order.subset (List.mem_singleton_self _)
    · exact razed.closed member (contains.released owns same)
  fewer := fun holds => (razed.fewer holds).of_released
  holds := by
    intro place other kept holds
    have different : other ≠ frame := by
      rintro rfl
      exact kept (razed.order.subset (List.mem_singleton_self _))
    exact razed.holds kept (holds.released owns different)
  object := by
    intro other value present
    rcases razed.object present with was | null
    · by_cases same : other = object
      · have isValue : Object.mk none (some frame) = value := by
          simpa [Heap.released, setObject, same] using was
        refine .inr ⟨by simp [← isValue], frame, ?_, by simp [← isValue]⟩
        exact razed.order.subset (List.mem_singleton_self _)
      · exact .inl (by simpa [Heap.released, setObject, same] using was)
    · exact .inr null

/-- A frame is taken from its owner and destroyed. -/
theorem Tidy.raze
    (tidy : heap.Tidy)
    {height : FrameId → Nat}
    {depth : Nat}
    (descends : Lib.Descends heap.Contains height)
    (owns : heap.handler object = some frame)
    (shallow : height frame < depth) :
    ∃ after log,
      handlerDestroy depth frame (heap.released object frame) = some after ∧
      after.Tidy ∧ heap.Razed after [frame] log ∧
      ∀ other ∈ heap.objects .outside, other ∈ after.objects .outside := by
  obtain ⟨alive, _, _⟩ := tidy.owned owns
  have tidyReleased := tidy.released owns
  obtain ⟨frames, objects, result, ends⟩ :=
    destroys height depth _ tidyReleased (descends.mono fun _ _ => Holds.of_released) frame alive
      shallow
  have alone : ∀ other, (heap.released object frame).handler other ≠ some frame := by
    intro other ownsOther
    obtain ⟨different, ownsOther⟩ := handler_of_released ownsOther
    exact different (tidy.owner_eq ownsOther owns)
  have removal : (heap.released object frame).Removal (frames ++ [frame]) (objects ++ []) :=
    ends.last tidyReleased alive (fun other ownsOther => absurd ownsOther (alone other)) (by simp)
  rw [List.append_nil] at removal
  refine ⟨_, frames ++ [frame], result, tidyReleased.remove removal, ?_, fun other here => ?_⟩
  · have last : [frame].Sublist (frames ++ [frame]) := List.sublist_append_right _ _
    refine .of_released tidy owns (removal.razed last fun inner member => ?_)
    refine ⟨frame, List.mem_singleton_self _, ?_⟩
    rcases List.mem_append.mp member with early | late
    · obtain ⟨owner, inside, child, ownsChild, path⟩ := ends.beneath early
      exact .head ⟨owner, inside, ownsChild⟩ path
    · rw [List.mem_singleton.mp late]
  · -- only objects in frames have ended
    refine mem_objects_remove.mpr ⟨here, fun ended => ?_⟩
    rcases ends.held ended with inside | ⟨inner, _, inside⟩
    · simpa using tidy.apart here inside
    · simpa using tidy.apart here inside

/-- `_call_stack_destroy` from a frame on. -/
theorem Tidy.destroyLoop
    (tidy : heap.Tidy)
    {height : FrameId → Nat}
    {depth passes : Nat}
    {stack : List FrameId}
    (descends : Lib.Descends heap.Contains height)
    (linked : heap.links.Stacked stack)
    (chain : stack.IsChain fun callee caller => heap.Contains caller callee)
    (held : ∀ frame ∈ stack, ∃ place, heap.Holds place frame)
    (shallow : ∀ frame ∈ stack, height frame < depth)
    (enough : stack.length ≤ passes) :
    ∃ after log,
      Heap.destroyLoop depth passes stack.head? heap = some after ∧
      after.Tidy ∧ heap.Razed after stack log ∧
      ∀ other ∈ heap.objects .outside, other ∈ after.objects .outside := by
  induction stack generalizing heap passes with
  | nil =>
      exact ⟨heap, [], by simp [Heap.destroyLoop], tidy, .refl heap, fun _ here => here⟩
  | cons top rest inductionHypothesis =>
      obtain ⟨passes, rfl⟩ := Nat.exists_eq_succ_of_ne_zero (Nat.ne_zero_of_lt enough)
      obtain ⟨place, owner, _, owns⟩ := held top List.mem_cons_self
      obtain ⟨alive, onwer, present⟩ := tidy.owned owns
      obtain ⟨middle, log, result, tidyMiddle, razed, outside⟩ :=
        tidy.raze descends owns (shallow top List.mem_cons_self)
      have front : heap.links.front top = rest.head? := by
        cases rest with
        | nil => exact linked
        | cons below rest => exact linked.1
      -- the callers reach the frame, so they are not destroyed with it
      have kept : ∀ frame ∈ rest, frame ∉ log := by
        intro frame member destroyed
        obtain ⟨root, isRoot, path⟩ := razed.reached destroyed
        rw [List.mem_singleton.mp isRoot] at path
        exact tidy.ranked.irrefl frame
          ((Lib.reach_head_of_isChain chain member).trans_left path)
      have linkedRest : middle.links.Stacked rest := by
        rw [razed.links]
        cases rest with
        | nil => trivial
        | cons below rest => exact linked.2.2
      have chainRest : rest.IsChain fun callee caller => middle.Contains caller callee :=
        chain.of_cons.imp_of_mem_imp fun callee caller isCallee _ contains =>
          razed.holds (kept callee isCallee) contains
      have heldRest : ∀ frame ∈ rest, ∃ place, middle.Holds place frame := by
        intro frame member
        obtain ⟨location, holds⟩ := held frame (List.mem_cons_of_mem _ member)
        exact ⟨location, razed.holds (kept frame member) holds⟩
      obtain ⟨after, later, resultRest, tidyAfter, razedRest, outsideRest⟩ :=
        inductionHypothesis tidyMiddle (descends.mono fun _ _ => razed.fewer) linkedRest chainRest
          heldRest (fun frame member => shallow frame (List.mem_cons_of_mem _ member))
          (Nat.le_of_succ_le_succ enough)
      refine ⟨after, log ++ later, ?_, tidyAfter, razed.trans razedRest, fun other here =>
        outsideRest other (outside other here)⟩
      calc Heap.destroyLoop depth (passes + 1) (some top) heap
          = (handlerDestroy depth top (heap.released owner top)).bind fun middle =>
              Heap.destroyLoop depth passes rest.head? middle := by
            simp [Heap.destroyLoop, read, alive, onwer, present, front, Heap.released]
        _ = some after := by
            rw [result, Option.bind_some, resultRest]

/-- `_call_stack_destroy` of an entry: with room for the destructors to nest, every
pointer that it follows is valid. -/
theorem CallStack.destroy
    {entry : FrameId}
    {stack : List FrameId}
    (callStack : heap.CallStack entry stack)
    (tidy : heap.Tidy)
    (owns : heap.handler object = some entry) :
    ∃ enough after log,
      heap.callStackDestroy enough object = some after ∧
      after.Tidy ∧ heap.Razed after stack log ∧
      ∀ other ∈ heap.objects .outside, other ∈ after.objects .outside := by
  obtain ⟨height, descends⟩ := tidy.ranked
  let enough := height entry + 1 + stack.length
  have shallow : ∀ frame ∈ stack, height frame < enough := by
    intro frame member
    have below : height frame ≤ height entry := by
      rcases ReflTransGen.cases_head_iff.mp (callStack.reach member) with rfl | ⟨child, step, path⟩
      · exact Nat.le_refl _
      · exact Nat.le_of_lt (descends.lt_of_transGen (.head' step path))
    omega
  obtain ⟨after, log, result, rest⟩ :=
    tidy.destroyLoop descends callStack.linked callStack.chain (fun _ => callStack.holds) shallow
      (show stack.length ≤ enough by omega)
  refine ⟨enough, after, log, ?_, rest⟩
  obtain ⟨alive, _, present⟩ := tidy.owned owns
  have isEntry := callStack.entries entry callStack.mem_entry
  simpa [callStackDestroy, present, read, alive, isEntry, callStack.current] using result

/-! ## Room for more -/

section Room

variable {few more : FrameId → Heap → Option Heap}

theorem destruct_mono
    (agree : ∀ frame heap after, few frame heap = some after → more frame heap = some after)
    (destructed : destruct few heap object = some after) :
    destruct more heap object = some after := by
  cases present : heap.object object with
  | none => simp [destruct, present] at destructed
  | some value =>
      cases isHandler : value.handler with
      | none => simpa [destruct, present, isHandler] using destructed
      | some handler =>
          simp only [destruct, present, isHandler, Option.map_eq_some_iff] at destructed ⊢
          obtain ⟨middle, result, rfl⟩ := destructed
          exact ⟨middle, agree _ _ _ result, rfl⟩

theorem foldlM_destruct_mono
    (agree : ∀ frame heap after, few frame heap = some after → more frame heap = some after)
    (destructed : objects.foldlM (destruct few) heap = some after) :
    objects.foldlM (destruct more) heap = some after := by
  induction objects generalizing heap with
  | nil => exact destructed
  | cons first rest inductionHypothesis =>
      obtain ⟨middle, result, others⟩ := Option.bind_eq_some_iff.mp destructed
      exact Option.bind_eq_some_iff.mpr
        ⟨middle, destruct_mono agree result, inductionHypothesis others⟩

/-- Destructors that end within some depth do the same with more room. -/
theorem handlerDestroy_mono
    {depth room : Nat}
    (wider : depth ≤ room)
    {frame : FrameId}
    (destroyed : handlerDestroy depth frame heap = some after) :
    handlerDestroy room frame heap = some after := by
  induction depth generalizing room frame heap after with
  | zero => simp [handlerDestroy] at destroyed
  | succ depth inductionHypothesis =>
      obtain ⟨room, rfl⟩ := Nat.exists_eq_succ_of_ne_zero (Nat.ne_zero_of_lt wider)
      cases alive : heap.alive frame with
      | false => simp [handlerDestroy, alive] at destroyed
      | true =>
          simp only [handlerDestroy, alive, if_true, Option.map_eq_some_iff] at destroyed ⊢
          obtain ⟨middle, result, rfl⟩ := destroyed
          refine ⟨middle, foldlM_destruct_mono (fun frame heap after => ?_) result, rfl⟩
          exact inductionHypothesis (Nat.le_of_succ_le_succ wider)

theorem destroyLoop_mono
    {depth room passes rounds : Nat}
    (wider : depth ≤ room)
    (longer : passes ≤ rounds)
    {current : Option FrameId}
    (destroyed : destroyLoop depth passes current heap = some after) :
    destroyLoop room rounds current heap = some after := by
  induction passes generalizing rounds current heap with
  | zero =>
      cases current with
      | none => simpa [destroyLoop] using destroyed
      | some frame => simp [destroyLoop] at destroyed
  | succ passes inductionHypothesis =>
      cases current with
      | none => simpa [destroyLoop] using destroyed
      | some frame =>
          obtain ⟨rounds, rfl⟩ := Nat.exists_eq_succ_of_ne_zero (Nat.ne_zero_of_lt longer)
          simp only [destroyLoop, Option.bind_eq_bind, Option.bind_eq_some_iff] at destroyed ⊢
          obtain ⟨promise, isRead, onwer, isOnwer, value, present, handler, isHandler, middle,
            result, others⟩ := destroyed
          exact ⟨promise, isRead, onwer, isOnwer, value, present, handler, isHandler, middle,
            handlerDestroy_mono wider result,
            inductionHypothesis (Nat.le_of_succ_le_succ longer) others⟩

theorem callStackDestroy_mono
    {depth room : Nat}
    (wider : depth ≤ room)
    (destroyed : heap.callStackDestroy depth object = some after) :
    heap.callStackDestroy room object = some after := by
  simp only [callStackDestroy, Option.bind_eq_bind, Option.bind_eq_some_iff] at destroyed ⊢
  obtain ⟨value, present, promise, isPromise, entry, isRead, self, isSelf, other, isOther,
    result⟩ := destroyed
  exact ⟨value, present, promise, isPromise, entry, isRead, self, isSelf, other, isOther,
    destroyLoop_mono wider wider result⟩

end Room

/-- `~BaseFrame` of an object, whenever it ends. -/
theorem Tidy.destruct
    (tidy : heap.Tidy)
    {depth : Nat}
    (constructed : (heap.object object).isSome)
    (destructed : Heap.destruct (handlerDestroy depth) heap object = some after) :
    ∃ frames objects, after = heap.remove frames objects ∧ heap.Ends [object] frames objects := by
  obtain ⟨height, descends⟩ := tidy.ranked
  let room := depth + ((heap.handler object).map fun frame => height frame + 1).getD 0
  have shallow : ∀ frame, heap.handler object = some frame → height frame < room := by
    intro frame owns
    simp only [room, owns, Option.map_some, Option.getD_some]
    omega
  obtain ⟨frames, objects, result, ends⟩ :=
    (destroys height room).destruct tidy descends constructed shallow
  refine ⟨frames, objects, ?_, ends⟩
  have same : Heap.destruct (handlerDestroy room) heap object = some after :=
    destruct_mono (fun _ _ _ => handlerDestroy_mono (Nat.le_add_right _ _)) destructed
  exact Option.some.inj (same.symm.trans result)

end Loop

end Heap

end Coroutine
end Cgo
