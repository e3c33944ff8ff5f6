import Cgo.Coroutine.Destroy

/-!
# The steps of the system

The invariant of the system, and what each step does to a state in which it
holds: every pointer that the code follows is valid, so a step is one of seven
changes of the heap.
-/

namespace Cgo
namespace Coroutine
namespace Ownership

open Relation

namespace State

/-- The invariant of the system. -/
structure Sound (state : State) : Prop where
  tidy : state.heap.Tidy
  nested : ∀ {entry}, state.stack entry ≠ [] →
    state.heap.CallStack entry (state.stack entry)
  /-- A frame on no call stack is not linked. -/
  unlinked : ∀ {frame}, state.heap.alive frame = true →
    (∀ entry, frame ∉ state.stack entry) →
      state.heap.links.prev frame = none ∧ state.heap.links.next frame = none
  /-- A pointer to a promise belongs to the owner of the frame, or it dangles. -/
  pointing : ∀ {object value frame}, state.heap.object object = some value →
    value.promise = some frame →
      frame < state.heap.nextFrame ∧
        (state.heap.alive frame = true → value.handler = some frame)

/-- What a step does to a sound state. -/
inductive Change (state : State) : State → Prop
  | null {place : Place} :
      (∀ frame, place = .frame frame → state.heap.alive frame = true) →
      Change state (state.setHeap (state.heap.construct place))
  | create {place : Place} :
      (∀ frame, place = .frame frame → state.heap.alive frame = true) →
      Change state (state.setHeap (state.heap.create place))
  | move {rhs : ObjectId} {frame : FrameId} {target : Place} :
      (∀ parent, target = .frame parent → state.heap.alive parent = true) →
      state.heap.handler rhs = some frame →
      (∀ parent, target = .frame parent → ¬ReflTransGen state.heap.Contains frame parent) →
      (∀ entry, frame ∈ state.stack entry → state.heap.Holds target frame) →
      Change state (state.setHeap
        ((state.heap.construct target).given state.heap.nextObject rhs frame))
  | init {frame : FrameId} :
      state.heap.Holds .outside frame →
      state.stack frame = [] →
      Change state ((state.setHeap (state.heap.created frame)).setStack frame [frame])
  | push {entry caller callee : FrameId} {callers : List FrameId} :
      state.stack entry = caller :: callers →
      state.heap.Contains caller callee →
      Change state ((state.setHeap (state.heap.pushed entry caller callee)).setStack entry
        (callee :: caller :: callers))
  | pop {entry caller : FrameId} {callers : List FrameId} :
      state.stack entry = caller :: callers →
      Change state ((state.setHeap (state.heap.popped entry callers)).setStack entry callers)
  | raze {after : Heap} {roots log : List FrameId} {stack : FrameId → List FrameId} :
      after.Tidy →
      state.heap.Razed after roots log →
      (∀ entry, stack entry = state.stack entry ∧ (∀ frame ∈ state.stack entry, frame ∉ log) ∨
        stack entry = [] ∧ ∀ frame ∈ state.stack entry, frame ∈ log) →
      Change state ⟨after, stack⟩

variable {state next : State}

namespace Sound

theorem callStack
    (sound : state.Sound)
    {entry frame : FrameId}
    (member : frame ∈ state.stack entry) :
    state.heap.CallStack entry (state.stack entry) :=
  sound.nested (List.ne_nil_of_mem member)

theorem callStack_cons
    (sound : state.Sound)
    {entry running : FrameId}
    {callers : List FrameId}
    (isStack : state.stack entry = running :: callers) :
    state.heap.CallStack entry (running :: callers) := by
  have callStack := sound.nested (isStack ▸ List.cons_ne_nil running callers)
  rwa [isStack] at callStack

/-- What the running frame of an entry holds is on no call stack. -/
theorem not_mem_stack
    (sound : state.Sound)
    {entry running : FrameId}
    {callers : List FrameId}
    (isStack : state.stack entry = running :: callers)
    {child frame : FrameId}
    (contains : state.heap.Contains running child)
    (path : ReflTransGen state.heap.Contains child frame)
    (other : FrameId) :
    frame ∉ state.stack other := by
  intro member
  have callStack := sound.callStack_cons isStack
  have down : ReflTransGen state.heap.Contains entry frame :=
    (callStack.reach List.mem_cons_self).trans (.head contains path)
  obtain rfl := (sound.callStack member).entry_eq sound.tidy member callStack.root down
  rw [isStack] at member
  exact callStack.not_mem_of_running sound.tidy contains path member

/-- A frame that is outside is on its own call stack only. -/
theorem eq_of_outside
    (sound : state.Sound)
    {root frame entry : FrameId}
    (outside : state.heap.Holds .outside root)
    (path : ReflTransGen state.heap.Contains root frame)
    (member : frame ∈ state.stack entry) :
    root = entry :=
  (sound.callStack member).entry_eq sound.tidy member outside path

/-! ## What the steps do -/

/-- The place of an actor is outside or the running frame of an entry. -/
theorem place_cases
    {actor : Actor}
    {place : Place}
    (isPlace : state.place actor = some place) :
    place = .outside ∨ ∃ entry running callers,
      state.stack entry = running :: callers ∧ place = .frame running := by
  cases actor with
  | outside => exact .inl (Option.some.inj isPlace).symm
  | running entry =>
      cases isStack : state.stack entry with
      | nil => simp [State.place, isStack] at isPlace
      | cons running callers =>
          refine .inr ⟨entry, running, callers, isStack, ?_⟩
          simpa [State.place, isStack] using isPlace.symm

theorem alive_place
    (sound : state.Sound)
    {actor : Actor}
    {place : Place}
    (isPlace : state.place actor = some place)
    (frame : FrameId)
    (inFrame : place = .frame frame) :
    state.heap.alive frame = true := by
  rcases place_cases isPlace with outside | ⟨entry, running, callers, isStack, isRunning⟩
  · simp [outside] at inFrame
  · obtain rfl : frame = running := by simpa [inFrame] using isRunning
    have member : frame ∈ state.stack entry := by simp [isStack]
    exact (sound.callStack member).alive sound.tidy member

/-- A move goes through only from the owner of a frame. -/
theorem handler_of_move
    (sound : state.Sound)
    {rhs : ObjectId}
    {target place : Place}
    {heap : Heap}
    (here : rhs ∈ state.heap.objects place)
    (moved : state.heap.move rhs target = some heap) :
    ∃ frame, state.heap.handler rhs = some frame := by
  obtain ⟨value, present⟩ := Option.isSome_iff_exists.mp (sound.tidy.constructed here)
  have old : rhs ≠ state.heap.nextObject := Nat.ne_of_lt (sound.tidy.lt_nextObject here)
  cases isPromise : value.promise with
  | none => simp [Heap.move, Heap.swap, Heap.construct, old, present, isPromise] at moved
  | some frame =>
      cases alive : state.heap.alive frame with
      | false =>
          simp [Heap.move, Heap.swap, Heap.construct, old, present, isPromise, Heap.read,
            alive] at moved
      | true =>
          have isHandler := (sound.pointing present isPromise).2 alive
          exact ⟨frame, by simp [Heap.handler, present, isHandler]⟩

/-- The new object after a move. -/
theorem move_eq
    (sound : state.Sound)
    {rhs : ObjectId}
    {frame : FrameId}
    {target : Place}
    (alive : ∀ parent, target = .frame parent → state.heap.alive parent = true)
    (owns : state.heap.handler rhs = some frame) :
    state.heap.move rhs target =
      some ((state.heap.construct target).given state.heap.nextObject rhs frame) := by
  have tidy := sound.tidy.construct alive
  refine tidy.swap_eq (by simp [Heap.construct]) ?_
  rw [sound.tidy.handler_construct, owns]

/-- The new place of a frame that is moved: it is alive and not in the frame
itself, and frames of call stacks stay where they are. -/
theorem target_cases
    (sound : state.Sound)
    {actor : Actor}
    {place target : Place}
    {rhs : ObjectId}
    {frame : FrameId}
    {towards : Target}
    (isPlace : state.place actor = some place)
    (here : rhs ∈ state.heap.objects place)
    (owns : state.heap.handler rhs = some frame)
    (isTarget : state.target place rhs towards = some target) :
    (∀ parent, target = .frame parent → state.heap.alive parent = true) ∧
      (∀ parent, target = .frame parent → ¬ReflTransGen state.heap.Contains frame parent) ∧
      ∀ entry, frame ∈ state.stack entry → state.heap.Holds target frame := by
  have holds : state.heap.Holds place frame := ⟨rhs, here, owns⟩
  -- only an entry can be on a call stack
  have isEntry : ∀ entry, frame ∈ state.stack entry → place = .outside ∧ frame = entry := by
    intro entry member
    rcases place_cases isPlace with rfl | ⟨other, running, callers, isStack, rfl⟩
    · exact ⟨rfl, sound.eq_of_outside holds .refl member⟩
    · exact absurd member (sound.not_mem_stack isStack holds .refl entry)
  cases towards with
  | here =>
      obtain rfl : place = target := by simpa [State.target] using isTarget
      refine ⟨sound.alive_place isPlace, ?_, fun _ _ => holds⟩
      rintro parent rfl
      exact sound.tidy.ranked.no_return holds
  | outside =>
      obtain rfl : Place.outside = target := by simpa [State.target] using isTarget
      refine ⟨by simp, by simp, fun entry member => ?_⟩
      exact (isEntry entry member).1 ▸ holds
  | parameter callee =>
      simp only [State.target, owns, Option.map_some, Option.getD_some] at isTarget
      split at isTarget
      · obtain ⟨different, calleeHere, notStacked⟩ : _ ∧ _ ∧ state.stack frame = [] := ‹_›
        obtain ⟨child, ownsChild, rfl⟩ := Option.map_eq_some_iff.mp isTarget
        refine ⟨?_, ?_, ?_⟩
        · rintro parent ⟨rfl⟩
          exact (sound.tidy.owned ownsChild).1
        · rintro parent ⟨rfl⟩ path
          rcases ReflTransGen.cases_tail path with rfl | ⟨above, pathAbove, contains⟩
          · exact different (sound.tidy.owner_eq ownsChild owns)
          · -- what holds the callee holds the frame as well
            have same : Place.frame above = place :=
              sound.tidy.place_eq contains ⟨callee, calleeHere, ownsChild⟩
            rw [← same] at holds
            exact sound.tidy.ranked.no_return holds pathAbove
        · intro entry member
          obtain ⟨_, rfl⟩ := isEntry entry member
          simp [notStacked] at member
      · simp at isTarget

/-- With a dropped object goes a whole call stack, or no frame of one. -/
theorem raze_drop
    (sound : state.Sound)
    {actor : Actor}
    {place : Place}
    {object : ObjectId}
    {frames : List FrameId}
    {objects : List ObjectId}
    (isPlace : state.place actor = some place)
    (here : object ∈ state.heap.objects place)
    (ends : state.heap.Ends [object] frames objects)
    {frame : FrameId}
    (owns : state.heap.handler object = some frame)
    (entry : FrameId) :
    Function.update state.stack frame [] entry = state.stack entry ∧
        (∀ other ∈ state.stack entry, other ∉ frames) ∨
      Function.update state.stack frame [] entry = [] ∧
        ∀ other ∈ state.stack entry, other ∈ frames := by
  have holds : state.heap.Holds place frame := ⟨object, here, owns⟩
  have path : ∀ other ∈ frames, ReflTransGen state.heap.Contains frame other := by
    intro other member
    obtain ⟨root, isRoot, reaches⟩ := ends.razed.reached member
    obtain rfl : root = frame := by simpa [owns] using isRoot
    exact reaches
  by_cases same : entry = frame
  · subst same
    refine .inr ⟨by simp, fun other member => ?_⟩
    exact ends.complete List.mem_cons_self owns ((sound.callStack member).reach member)
  · refine .inl ⟨by simp [same], fun other member removed => ?_⟩
    rcases place_cases isPlace with rfl | ⟨running, top, callers, isStack, rfl⟩
    · exact same (sound.eq_of_outside holds (path other removed) member).symm
    · exact sound.not_mem_stack isStack holds (path other removed) entry member

theorem change_move
    (sound : state.Sound)
    {actor : Actor}
    {place : Place}
    {rhs : ObjectId}
    {towards : Target}
    (isPlace : state.place actor = some place)
    (moved : state.move place rhs towards = some next) :
    Change state next := by
  rw [State.move] at moved
  split at moved
  · rename_i here
    cases isTarget : state.target place rhs towards with
    | none => simp [isTarget] at moved
    | some target =>
        simp only [isTarget, Option.map_eq_some_iff] at moved
        obtain ⟨heap, result, rfl⟩ := moved
        obtain ⟨frame, owns⟩ := sound.handler_of_move here result
        obtain ⟨alive, acyclic, stays⟩ := sound.target_cases isPlace here owns isTarget
        rw [sound.move_eq alive owns] at result
        obtain rfl := Option.some.inj result
        exact .move alive owns acyclic stays
  · simp at moved

theorem change_drop
    (sound : state.Sound)
    {actor : Actor}
    {place : Place}
    {object : ObjectId}
    {depth : Nat}
    (isPlace : state.place actor = some place)
    (dropped : state.drop place object depth = some next) :
    Change state next := by
  rw [State.drop] at dropped
  split at dropped
  · rename_i here
    obtain ⟨heap, result, rfl⟩ := Option.map_eq_some_iff.mp dropped
    obtain ⟨frames, objects, rfl, ends⟩ :=
      sound.tidy.destruct (sound.tidy.constructed here) result
    have tidy := sound.tidy.remove ends.removal
    cases owns : state.heap.handler object with
    | none =>
        refine .raze tidy ends.razed fun entry => .inl ⟨rfl, fun frame _ removed => ?_⟩
        obtain ⟨root, isRoot, _⟩ := ends.razed.reached removed
        simp [owns] at isRoot
    | some frame => exact .raze tidy ends.razed (sound.raze_drop isPlace here ends owns)
  · simp at dropped

theorem change_init
    (sound : state.Sound)
    {entry : ObjectId}
    (inited : state.init entry = some next) :
    Change state next := by
  rw [State.init] at inited
  cases owns : state.heap.handler entry with
  | none => simp [owns] at inited
  | some frame =>
      simp only [owns, sound.tidy.callStackCreate_eq owns, Option.map_some] at inited
      split at inited
      · obtain ⟨outside, unused⟩ : _ ∧ state.stack frame = [] := ‹_›
        obtain rfl := Option.some.inj inited
        exact .init ⟨entry, outside, owns⟩ unused
      · simp at inited

theorem change_await
    (sound : state.Sound)
    {entry : FrameId}
    {object : ObjectId}
    (awaited : state.await entry object = some next) :
    Change state next := by
  cases isStack : state.stack entry with
  | nil => simp [State.await, isStack] at awaited
  | cons caller callers =>
      cases owns : state.heap.handler object with
      | none => simp [State.await, isStack, owns] at awaited
      | some callee =>
          have callStack := sound.callStack_cons isStack
          simp only [State.await, isStack, owns, callStack.awaitSuspend_eq sound.tidy owns,
            Option.map_some] at awaited
          split at awaited
          · obtain rfl := Option.some.inj awaited
            exact .push isStack ⟨object, ‹_›, owns⟩
          · simp at awaited

theorem change_pop
    (sound : state.Sound)
    {entry : FrameId}
    (popped : state.pop entry = some next) :
    Change state next := by
  cases isStack : state.stack entry with
  | nil => simp [State.pop, isStack] at popped
  | cons caller callers =>
      have callStack := sound.callStack_cons isStack
      simp only [State.pop, isStack, callStack.callStackPop_eq sound.tidy,
        Option.map_some] at popped
      obtain rfl := Option.some.inj popped
      exact .pop isStack

/-- `FrameOperator::destroy` and the destructions that it makes. -/
theorem destroy_eq
    (sound : state.Sound)
    {entry : ObjectId}
    {frame : FrameId}
    (outside : entry ∈ state.heap.objects .outside)
    (owns : state.heap.handler entry = some frame)
    (suspended : state.stack frame ≠ []) :
    ∃ enough heap log,
      (∀ depth, enough ≤ depth →
        state.destroy entry depth = some ((state.setHeap heap).setStack frame [])) ∧
      (∀ depth next, state.destroy entry depth = some next →
        next = (state.setHeap heap).setStack frame []) ∧
      heap.Tidy ∧ state.heap.Razed heap (state.stack frame) log ∧
      entry ∈ heap.objects .outside := by
  obtain ⟨enough, heap, log, result, tidy, razed, kept⟩ :=
    (sound.nested suspended).destroy sound.tidy owns
  refine ⟨enough, heap, log, fun depth wide => ?_, fun depth next destroyed => ?_, tidy, razed,
    kept entry outside⟩
  · simp [State.destroy, owns, outside, suspended, Heap.callStackDestroy_mono wide result]
  · simp only [State.destroy, owns, outside, suspended, ne_eq, not_false_eq_true, and_self,
      if_true, Option.map_eq_some_iff] at destroyed
    obtain ⟨other, resultOther, rfl⟩ := destroyed
    -- both results are that of a common depth
    have same : some other = some heap :=
      (Heap.callStackDestroy_mono (Nat.le_max_left depth enough) resultOther).symm.trans
        (Heap.callStackDestroy_mono (Nat.le_max_right depth enough) result)
    rw [Option.some.inj same]

theorem change_destroyed
    (sound : state.Sound)
    {entry : ObjectId}
    {frame : FrameId}
    {heap : Heap}
    {log : List FrameId}
    (outside : entry ∈ state.heap.objects .outside)
    (owns : state.heap.handler entry = some frame)
    (tidy : heap.Tidy)
    (razed : state.heap.Razed heap (state.stack frame) log) :
    Change state ((state.setHeap heap).setStack frame []) := by
  refine .raze tidy razed fun other => ?_
  by_cases same : other = frame
  · subst same
    exact .inr ⟨by simp [State.setHeap], fun inner member => razed.order.subset member⟩
  · refine .inl ⟨by simp [State.setHeap, same], fun inner member destroyed => ?_⟩
    obtain ⟨root, isRoot, path⟩ := razed.reached destroyed
    have down := ((sound.callStack isRoot).reach isRoot).trans path
    exact same (sound.eq_of_outside ⟨entry, outside, owns⟩ down member).symm

theorem change_destroy
    (sound : state.Sound)
    {entry : ObjectId}
    {depth : Nat}
    (destroyed : state.destroy entry depth = some next) :
    Change state next := by
  cases owns : state.heap.handler entry with
  | none => simp [State.destroy, owns] at destroyed
  | some frame =>
      by_cases enabled : entry ∈ state.heap.objects .outside ∧ state.stack frame ≠ []
      · obtain ⟨_, heap, log, _, unique, tidy, razed, _⟩ :=
          sound.destroy_eq enabled.1 owns enabled.2
        rw [unique depth next destroyed]
        exact sound.change_destroyed enabled.1 owns tidy razed
      · simp only [State.destroy, owns, if_neg enabled] at destroyed
        simp at destroyed

/-- The steps of the system. -/
theorem change
    (sound : state.Sound)
    {label : Label}
    (stepped : step state label = some next) :
    Change state next := by
  cases label with
  | null actor =>
      obtain ⟨place, isPlace, rfl⟩ := Option.map_eq_some_iff.mp stepped
      exact .null (sound.alive_place isPlace)
  | create actor =>
      obtain ⟨place, isPlace, rfl⟩ := Option.map_eq_some_iff.mp stepped
      exact .create (sound.alive_place isPlace)
  | move actor rhs target =>
      obtain ⟨place, isPlace, moved⟩ := Option.bind_eq_some_iff.mp stepped
      exact sound.change_move isPlace moved
  | drop actor object depth =>
      obtain ⟨place, isPlace, dropped⟩ := Option.bind_eq_some_iff.mp stepped
      exact sound.change_drop isPlace dropped
  | init entry => exact sound.change_init stepped
  | await entry object => exact sound.change_await stepped
  | pop entry => exact sound.change_pop stepped
  | destroy entry depth => exact sound.change_destroy stepped

end Sound

end State

end Ownership
end Coroutine
end Cgo
