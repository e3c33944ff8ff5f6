import Cgo.Coroutine.Steps

/-!
# Every frame is destroyed once

In every state that the system reaches, the heap is tidy and every call stack is
a path from its entry.  So `FrameOperator::destroy` goes through, it destroys
what the frames of the call stack reach, each frame before the one that holds it,
and no destructor after it finds any of these frames.
-/

namespace Cgo
namespace Coroutine
namespace Ownership

open Relation

namespace State

variable {state next : State}

/-! ## The invariant -/

namespace Sound

theorem initial : State.initial.Sound where
  tidy := by
    refine ⟨?_, ?_, ?_, ?_, ?_, ?_, ?_, ?_, ?_, ?_⟩
    · exact fun _ => List.nodup_nil
    · exact fun member => absurd member List.not_mem_nil
    · exact fun member => absurd member List.not_mem_nil
    · exact fun member => absurd member List.not_mem_nil
    · intro object frame owns
      simp [Heap.handler, State.initial, Heap.empty] at owns
    · refine ⟨fun _ => 0, ?_⟩
      rintro parent child ⟨object, member, _⟩
      exact absurd member List.not_mem_nil
    · intro object isSome
      simp [State.initial, Heap.empty] at isSome
    · intro frame alive
      simp [State.initial, Heap.empty] at alive
    · exact fun member => absurd member List.not_mem_nil
    · exact List.nodup_nil
  nested := fun suspended => absurd rfl suspended
  unlinked := fun _ _ => ⟨rfl, rfl⟩
  pointing := by
    intro object value frame present
    simp [State.initial, Heap.empty] at present

theorem construct
    (sound : state.Sound)
    {place : Place}
    (alive : ∀ frame, place = .frame frame → state.heap.alive frame = true) :
    (state.setHeap (state.heap.construct place)).Sound where
  tidy := sound.tidy.construct alive
  nested := by
    intro entry suspended
    refine (sound.nested suspended).congr (fun _ _ => ⟨rfl, rfl⟩) (fun _ _ => ⟨rfl, rfl⟩) ?_
    exact fun _ _ _ holds => sound.tidy.holds_construct.mpr holds
  unlinked := sound.unlinked
  pointing := by
    intro object value frame present isPromise
    by_cases same : object = state.heap.nextObject
    · obtain rfl : Object.mk none none = value := by
        simpa [Heap.construct, same] using present
      simp at isPromise
    · have was : state.heap.object object = some value := by
        simpa [Heap.construct, same] using present
      exact sound.pointing was isPromise

theorem allocate
    (sound : state.Sound)
    {object : ObjectId}
    {place : Place}
    (null : state.heap.handler object = none)
    (here : object ∈ state.heap.objects place) :
    (state.setHeap (state.heap.allocate object)).Sound where
  tidy := sound.tidy.allocate null here
  nested := by
    intro entry suspended
    have callStack := sound.nested suspended
    have old : ∀ frame ∈ state.stack entry, frame ≠ state.heap.nextFrame :=
      fun frame member => sound.tidy.ne_nextFrame (callStack.alive sound.tidy member)
    refine callStack.congr (fun frame member => ?_) (fun frame member => ?_)
      fun _ _ _ holds => (sound.tidy.holds_allocate null here).mpr (.inl holds)
    · simp [Heap.allocate, Links.create, Links.setPrev, Links.setNext,
        old frame member]
    · simp [Heap.allocate, old frame member]
  unlinked := by
    intro frame alive off
    by_cases same : frame = state.heap.nextFrame
    · simp [Heap.allocate, Links.create, Links.setPrev, Links.setNext, same]
    · have was : state.heap.alive frame = true := by
        simpa [Heap.allocate, same] using alive
      simpa [Heap.allocate, Links.create, Links.setPrev, Links.setNext, same] using
        sound.unlinked was off
  pointing := by
    intro other value frame present isPromise
    by_cases same : other = object
    · obtain rfl : Object.mk (some state.heap.nextFrame) (some state.heap.nextFrame) = value := by
        simpa [Heap.allocate, same] using present
      obtain rfl := Option.some.inj isPromise
      exact ⟨Nat.lt_succ_self _, fun _ => rfl⟩
    · have was : state.heap.object other = some value := by
        simpa [Heap.allocate, same] using present
      obtain ⟨below, isOwner⟩ := sound.pointing was isPromise
      refine ⟨Nat.lt_succ_of_lt below, fun alive => isOwner ?_⟩
      simpa [Heap.allocate, Nat.ne_of_lt below] using alive

theorem given
    (sound : state.Sound)
    {this rhs : ObjectId}
    {frame : FrameId}
    {place : Place}
    (null : state.heap.object this = some ⟨none, none⟩)
    (owns : state.heap.handler rhs = some frame)
    (here : this ∈ state.heap.objects place)
    (acyclic : ∀ parent, place = .frame parent → ¬ReflTransGen state.heap.Contains frame parent)
    (stays : ∀ entry, frame ∈ state.stack entry → state.heap.Holds place frame) :
    (state.setHeap (state.heap.given this rhs frame)).Sound where
  tidy := sound.tidy.given null owns here acyclic
  nested := by
    intro entry suspended
    refine (sound.nested suspended).congr (fun _ _ => ⟨rfl, rfl⟩) (fun other _ => ?_)
      fun other child member holds => (sound.tidy.holds_given null owns here).mpr ?_
    · by_cases same : other = frame
      · subst same
        simp [Heap.given, Heap.setPromise]
      · simp [Heap.given, Heap.setPromise, Heap.setObject, same]
    · by_cases same : child = frame
      · subst same
        exact .inr ⟨rfl, sound.tidy.place_eq holds (stays entry member)⟩
      · exact .inl ⟨same, holds⟩
  unlinked := sound.unlinked
  pointing := by
    intro object value child present isPromise
    by_cases isRhs : object = rhs
    · obtain rfl : Object.mk none none = value := by
        simpa [Heap.given, Heap.setPromise, Heap.setObject, isRhs] using present
      simp at isPromise
    · by_cases isThis : object = this
      · subst isThis
        obtain rfl : Object.mk (some frame) (some frame) = value := by
          simpa [Heap.given, Heap.setPromise, Heap.setObject, isRhs] using present
        obtain rfl := Option.some.inj isPromise
        exact ⟨sound.tidy.freshFrame (sound.tidy.owned owns).1, fun _ => rfl⟩
      · have was : state.heap.object object = some value := by
          simpa [Heap.given, Heap.setPromise, Heap.setObject, isRhs, isThis] using
            present
        exact sound.pointing was isPromise

/-- A frame on no call stack, before one of them changed. -/
theorem off_stacks
    {entry frame : FrameId}
    {stack : List FrameId}
    (here : frame ∉ state.stack entry)
    (off : ∀ other, frame ∉ Function.update state.stack entry stack other)
    (other : FrameId) :
    frame ∉ state.stack other := by
  by_cases same : other = entry
  · rwa [same]
  · have there := off other
    rwa [Function.update_of_ne same] at there

theorem created
    (sound : state.Sound)
    {frame : FrameId}
    (outside : state.heap.Holds .outside frame)
    (unused : state.stack frame = []) :
    ((state.setHeap (state.heap.created frame)).setStack frame [frame]).Sound := by
  have off : ∀ entry, frame ∉ state.stack entry := by
    intro entry member
    obtain rfl := sound.eq_of_outside outside .refl member
    simp [unused] at member
  obtain ⟨prev, next⟩ := sound.unlinked (sound.tidy.alive_of_holds outside) off
  refine ⟨sound.tidy.created frame, ?_, ?_, sound.pointing⟩
  · intro entry suspended
    by_cases same : entry = frame
    · subst same
      simpa using Heap.callStack_created outside prev next
    · have was : state.stack entry ≠ [] := by
        simpa [same] using suspended
      simp only [setStack_stack, setHeap_stack, Function.update_of_ne same]
      refine (sound.nested was).congr (fun _ _ => ⟨rfl, rfl⟩) (fun other member => ?_)
        fun _ _ _ holds => holds
      have different : other ≠ frame := by
        rintro rfl
        exact off entry member
      simp [Heap.created, Heap.setPromise, different]
  · intro other alive offAfter
    exact sound.unlinked alive (off_stacks (by simp [unused]) offAfter)

theorem pushed
    (sound : state.Sound)
    {entry caller callee : FrameId}
    {callers : List FrameId}
    (isStack : state.stack entry = caller :: callers)
    (contains : state.heap.Contains caller callee) :
    ((state.setHeap (state.heap.pushed entry caller callee)).setStack entry
      (callee :: caller :: callers)).Sound := by
  have callStack := sound.callStack_cons isStack
  have last := callStack.last caller rfl
  have calleeOff := sound.not_mem_stack isStack contains .refl
  refine ⟨sound.tidy.pushed entry caller callee, ?_, ?_, sound.pointing⟩
  · intro other suspended
    by_cases same : other = entry
    · subst same
      simpa using callStack.push sound.tidy contains
    · have was : state.stack other ≠ [] := by simpa [same] using suspended
      have off : ∀ frame ∈ caller :: callers, frame ∉ state.stack other := by
        intro frame member memberOther
        exact same (callStack.disjoint (sound.nested was) sound.tidy member memberOther)
      simpa [same] using (sound.nested was).frame_push last (calleeOff other)
        (off caller List.mem_cons_self) (off entry callStack.mem_entry)
  · intro frame alive off
    have here := off entry
    simp only [setStack_stack, Function.update_self, List.mem_cons, not_or] at here
    have offBefore := off_stacks (by simp [isStack, here.2.1, here.2.2]) off
    simpa [Heap.pushed, Heap.setPromise, Links.prev_linkBack last, Links.next_linkBack last,
      here.1, here.2.1] using sound.unlinked alive offBefore

theorem popped
    (sound : state.Sound)
    {entry caller : FrameId}
    {callers : List FrameId}
    (isStack : state.stack entry = caller :: callers) :
    ((state.setHeap (state.heap.popped entry callers)).setStack entry callers).Sound := by
  have callStack := sound.callStack_cons isStack
  refine ⟨sound.tidy.popped entry callers, ?_, ?_, sound.pointing⟩
  · intro other suspended
    by_cases same : other = entry
    · subst same
      cases callers with
      | nil => simp at suspended
      | cons below rest => simpa using callStack.pop sound.tidy
    · have was : state.stack other ≠ [] := by simpa [same] using suspended
      have off : ∀ frame ∈ state.stack other, frame ∉ caller :: callers := by
        intro frame memberOther member
        exact same (callStack.disjoint (sound.nested was) sound.tidy member memberOther)
      simpa [same] using callStack.frame_pop (sound.nested was) off
  · intro frame alive off
    have here : frame ∉ callers := by simpa using off entry
    obtain ⟨gone, kept⟩ := callStack.links_popped frame
    by_cases isCaller : frame = caller
    · exact gone isCaller
    · have offStack : frame ∉ caller :: callers := by simp [isCaller, here]
      have offBefore := off_stacks (isStack ▸ offStack) off
      obtain ⟨prev, next⟩ := sound.unlinked alive offBefore
      exact ⟨(kept offStack).1.trans prev, (kept offStack).2.trans next⟩

theorem razed
    (sound : state.Sound)
    {after : Heap}
    {roots log : List FrameId}
    {stack : FrameId → List FrameId}
    (tidy : after.Tidy)
    (razed : state.heap.Razed after roots log)
    (keeps : ∀ entry,
      stack entry = state.stack entry ∧ (∀ frame ∈ state.stack entry, frame ∉ log) ∨
        stack entry = [] ∧ ∀ frame ∈ state.stack entry, frame ∈ log) :
    State.Sound ⟨after, stack⟩ where
  tidy := tidy
  nested := by
    intro entry suspended
    rcases keeps entry with ⟨same, kept⟩ | ⟨gone, _⟩
    · simp only [same] at suspended ⊢
      exact razed.callStack (sound.nested suspended) kept
    · exact absurd gone suspended
  unlinked := by
    intro frame alive off
    have off : ∀ entry, frame ∉ state.stack entry := by
      intro entry member
      rcases keeps entry with ⟨same, _⟩ | ⟨_, gone⟩
      · rw [← same] at member
        exact off entry member
      · exact razed.not_mem_of_alive alive (gone frame member)
    simpa [razed.links] using sound.unlinked (razed.alive_before alive) off
  pointing := by
    intro object value frame present isPromise
    rcases razed.object present with was | ⟨_, lost, member, isLost⟩
    · obtain ⟨below, isOwner⟩ := sound.pointing was isPromise
      exact ⟨razed.nextFrame.symm ▸ below, fun alive => isOwner (razed.alive_before alive)⟩
    · obtain rfl : lost = frame := Option.some.inj (isLost.symm.trans isPromise)
      refine ⟨razed.nextFrame.symm ▸ sound.tidy.freshFrame (razed.were member), fun alive => ?_⟩
      exact absurd member (razed.not_mem_of_alive alive)

/-- Every change keeps the invariant. -/
theorem of_change
    (sound : state.Sound)
    (change : Change state next) :
    next.Sound := by
  cases change with
  | null alive => exact sound.construct alive
  | @create place alive =>
      have here : state.heap.nextObject ∈ (state.heap.construct place).objects place :=
        Heap.mem_objects_construct.mpr (.inr ⟨rfl, rfl⟩)
      have null : (state.heap.construct place).handler state.heap.nextObject = none := by
        simp [Heap.handler, Heap.construct]
      exact (sound.construct alive).allocate null here
  | @move rhs frame target alive owns acyclic stays =>
      have here : state.heap.nextObject ∈ (state.heap.construct target).objects target :=
        Heap.mem_objects_construct.mpr (.inr ⟨rfl, rfl⟩)
      have null : (state.heap.construct target).object state.heap.nextObject =
          some ⟨none, none⟩ := by
        simp [Heap.construct]
      have ownsAfter : (state.heap.construct target).handler rhs = some frame := by
        rw [sound.tidy.handler_construct, owns]
      refine (sound.construct alive).given null ownsAfter here ?_ ?_
      · simpa [sound.tidy.contains_construct] using acyclic
      · exact fun entry member => sound.tidy.holds_construct.mpr (stays entry member)
  | init outside unused => exact sound.created outside unused
  | push isStack contains => exact sound.pushed isStack contains
  | pop isStack => exact sound.popped isStack
  | raze tidy razed keeps => exact sound.razed tidy razed keeps

theorem of_reachable (reachable : Lib.Reachable step .initial state) : state.Sound := by
  refine reachable.invariant initial fun before label after sound stepped => ?_
  exact sound.of_change (sound.change stepped)

end Sound

/-! ## Afterwards -/

/-- The object was constructed and owns nothing; it never will again. -/
def Spent (state : State) (object : ObjectId) : Prop :=
  object < state.heap.nextObject ∧ state.heap.handler object = none

namespace Sound

/-- A move hands a frame to a new object only. -/
theorem spent
    (sound : state.Sound)
    (change : Change state next)
    {object : ObjectId}
    (spent : state.Spent object) :
    next.Spent object := by
  obtain ⟨old, null⟩ := spent
  have notNew : object ≠ state.heap.nextObject := Nat.ne_of_lt old
  cases change with
  | null alive =>
      refine ⟨Nat.lt_succ_of_lt old, ?_⟩
      rw [setHeap_heap, sound.tidy.handler_construct, null]
  | create alive =>
      refine ⟨Nat.lt_succ_of_lt old, ?_⟩
      rw [setHeap_heap, Heap.create, Heap.handler_allocate, if_neg notNew,
        sound.tidy.handler_construct, null]
  | move alive owns acyclic stays =>
      refine ⟨Nat.lt_succ_of_lt old, ?_⟩
      rw [setHeap_heap, Heap.handler_given, if_neg notNew, sound.tidy.handler_construct, null,
        ite_self]
  | init outside unused => exact ⟨old, null⟩
  | push isStack contains => exact ⟨old, null⟩
  | pop isStack => exact ⟨old, null⟩
  | raze tidy razed keeps =>
      refine ⟨razed.nextObject.symm ▸ old, ?_⟩
      refine Option.eq_none_iff_forall_ne_some.mpr fun frame owns => ?_
      simp [razed.handler owns] at null

/-- What is destroyed stays in the history. -/
theorem destroyed_append
    (change : Change state next) :
    ∃ more, next.heap.destroyed = state.heap.destroyed ++ more := by
  cases change with
  | raze tidy razed keeps => exact ⟨_, razed.destroyed⟩
  | null | create | move | init | push | pop => exact ⟨[], (List.append_nil _).symm⟩

/-- The destructor of an object that owns nothing. -/
theorem drop_spent
    (sound : state.Sound)
    {actor : Actor}
    {place : Place}
    {object : ObjectId}
    (spent : state.Spent object)
    (isPlace : state.place actor = some place)
    (here : object ∈ state.heap.objects place)
    (depth : Nat) :
    ∃ ended, step state (.drop actor object depth) = some ended ∧
      ended.heap.destroyed = state.heap.destroyed := by
  obtain ⟨value, present⟩ := Option.isSome_iff_exists.mp (sound.tidy.constructed here)
  have null : value.handler = none := by
    have handler := spent.2
    rwa [Heap.handler, present, Option.bind_some] at handler
  refine ⟨state.setHeap (state.heap.remove [] [object]), ?_, by simp [Heap.remove]⟩
  simp [step, isPlace, State.drop, here, Heap.destruct, present, null, spent.2]

end Sound

/-- What holds between a sound state and all that follow it. -/
structure Follows (state later : State) : Prop where
  sound : later.Sound
  history : ∃ more, later.heap.destroyed = state.heap.destroyed ++ more
  spent : ∀ {object}, state.Spent object → later.Spent object

theorem Sound.follows
    (sound : state.Sound)
    {later : State}
    (reachable : Lib.Reachable step state later) :
    state.Follows later := by
  refine reachable.invariant ⟨sound, ⟨[], (List.append_nil _).symm⟩, fun spent => spent⟩ ?_
  intro before label after follows stepped
  have change := follows.sound.change stepped
  obtain ⟨more, history⟩ := follows.history
  obtain ⟨newer, appended⟩ := Sound.destroyed_append change
  refine ⟨follows.sound.of_change change, ⟨more ++ newer, ?_⟩, fun spent => ?_⟩
  · rw [appended, history, List.append_assoc]
  · exact follows.sound.spent change (follows.spent spent)

end State

/-- `FrameOperator::destroy` of a suspended entry, after any run, with room for its
destructors to nest.  The frames of the call stack and those that they own are
destroyed, once, the callees before their callers, and every frame before the one
that holds it.  Whatever happens later, none of them is destroyed again, and the
destructors of their owners, that of the entry among them, destroy nothing. -/
theorem destroy_once_inside_out
    {state : State}
    (reachable : Lib.Reachable step .initial state)
    {entry : ObjectId}
    {frame : FrameId}
    (outside : entry ∈ state.heap.objects .outside)
    (owns : state.heap.handler entry = some frame)
    (suspended : state.stack frame ≠ []) :
    state.heap.CallStack frame (state.stack frame) ∧
      ∃ enough after log,
        (∀ depth, enough ≤ depth → step state (.destroy entry depth) = some after) ∧
        after.heap.destroyed = state.heap.destroyed ++ log ∧
        log.Nodup ∧
        (state.stack frame).Sublist log ∧
        (log.Pairwise fun earlier later => ¬state.heap.Contains earlier later) ∧
        (∀ other, other ∈ log ↔
          ∃ root ∈ state.stack frame, ReflTransGen state.heap.Contains root other) ∧
        (∀ other ∈ log, state.heap.alive other = true ∧ after.heap.alive other = false) ∧
        entry ∈ after.heap.objects .outside ∧
        ∀ later, Lib.Reachable step after later →
          (∀ other ∈ log, later.heap.destroyed.count other = 1) ∧
          ∀ owner other, state.heap.handler owner = some other → other ∈ log →
            later.heap.handler owner = none ∧
            ∀ actor place depth, later.place actor = some place →
              owner ∈ later.heap.objects place →
                ∃ ended, step later (.drop actor owner depth) = some ended ∧
                  ended.heap.destroyed = later.heap.destroyed := by
  have sound := State.Sound.of_reachable reachable
  obtain ⟨enough, heap, log, result, _, tidy, razed, kept⟩ :=
    sound.destroy_eq outside owns suspended
  have soundAfter := sound.of_change (sound.change_destroyed outside owns tidy razed)
  refine ⟨sound.nested suspended, enough, _, log, result, razed.destroyed, razed.nodup,
    razed.order, razed.insideOut, fun _ => razed.mem_iff, fun other member => ?_, kept,
    fun later continued => ?_⟩
  · exact ⟨razed.were member, by simp [razed.alive, member]⟩
  · have follows := soundAfter.follows continued
    obtain ⟨more, history⟩ := follows.history
    refine ⟨fun other member => ?_, fun owner other ownsOther member => ?_⟩
    · refine List.count_eq_one_of_mem follows.sound.tidy.once ?_
      rw [history]
      refine List.mem_append_left _ ?_
      simp [razed.destroyed, member]
    · have spent : ((state.setHeap heap).setStack frame []).Spent owner := by
        refine ⟨?_, ?_⟩
        · have present := (sound.tidy.owned ownsOther).2.2
          have old : owner < state.heap.nextObject :=
            sound.tidy.freshObject (by simp [present])
          exact razed.nextObject.symm ▸ old
        · refine Option.eq_none_iff_forall_ne_some.mpr fun still ownsStill => ?_
          obtain rfl : other = still :=
            Option.some.inj (ownsOther.symm.trans (razed.handler ownsStill))
          exact razed.not_mem_of_alive (tidy.owned ownsStill).1 member
      have spentLater := follows.spent spent
      exact ⟨spentLater.2, fun actor place depth isPlace here =>
        follows.sound.drop_spent spentLater isPlace here depth⟩

/-- An entry that is moved and started.  It holds a coroutine that never started,
and awaits one that took another as a parameter, has awaited one that finished,
and now awaits a third. -/
def nested : List Label :=
  [.create .outside, .move .outside 0 .outside, .init 1, .create (.running 0),
    .create (.running 0), .create (.running 0), .move (.running 0) 3 (.parameter 4), .await 0 4,
    .create (.running 0), .await 0 6, .pop 0, .create (.running 0), .await 0 7]

theorem destroy_once_inside_out_sample :
    let state := Lib.runFrom step .initial nested
    state.stack 0 = [5, 3, 0] ∧
      ((step state (.destroy 1 4)).map fun after => after.heap.destroyed) =
        some [5, 4, 2, 3, 1, 0] ∧
      ∃ enough after log,
        (∀ depth, enough ≤ depth → step state (.destroy 1 depth) = some after) ∧
        after.heap.destroyed = state.heap.destroyed ++ log ∧
        log.Nodup ∧
        (state.stack 0).Sublist log := by
  intro state
  refine ⟨by decide, by decide, ?_⟩
  obtain ⟨_, enough, after, log, result, history, nodup, order, _⟩ :=
    @destroy_once_inside_out state (Lib.Reachable.runFrom _ _ _) 1 0 (by decide) (by decide)
      (by decide)
  exact ⟨enough, after, log, result, history, nodup, order⟩

end Ownership
end Coroutine
end Cgo
