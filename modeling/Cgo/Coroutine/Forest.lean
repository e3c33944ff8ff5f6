import Cgo.Coroutine.Ownership
import Cgo.Lib.Ranked

/-!
# The forest of owners

Every frame is owned by one object, every object is in one place, and no frame
holds itself.  So the frames are a forest, and what goes with a frame when it is
destroyed is what can be reached from it: every frame of its tree once.
-/

namespace Cgo
namespace Coroutine

open Relation

namespace Heap

/-- An object of the place owns the frame. -/
def Holds (heap : Heap) (place : Place) (frame : FrameId) : Prop :=
  ∃ object ∈ heap.objects place, heap.handler object = some frame

/-- An object in the first frame owns the second. -/
def Contains (heap : Heap) (parent child : FrameId) : Prop :=
  heap.Holds (.frame parent) child

/-- The objects and the frames fit together. -/
structure Tidy (heap : Heap) : Prop where
  nodup : ∀ place, (heap.objects place).Nodup
  apart : ∀ {object left right},
    object ∈ heap.objects left → object ∈ heap.objects right → left = right
  constructed : ∀ {object place}, object ∈ heap.objects place → (heap.object object).isSome
  housed : ∀ {object frame}, object ∈ heap.objects (.frame frame) → heap.alive frame = true
  owned : ∀ {object frame}, heap.handler object = some frame →
    heap.alive frame = true ∧ (heap.promise frame).onwer = some object ∧
      heap.object object = some ⟨some frame, some frame⟩
  ranked : Lib.Ranked heap.Contains
  freshObject : ∀ {object}, (heap.object object).isSome → object < heap.nextObject
  freshFrame : ∀ {frame}, heap.alive frame = true → frame < heap.nextFrame
  dead : ∀ {frame}, frame ∈ heap.destroyed →
    frame < heap.nextFrame ∧ heap.alive frame = false
  once : heap.destroyed.Nodup

/-- Frames and objects that can be removed together: with a frame the objects in
it and its owner, with an object the frame that it owns.  A frame goes before the
one that holds it. -/
structure Removal
    (heap : Heap)
    (frames : List FrameId)
    (objects : List ObjectId) : Prop where
  nodup : frames.Nodup
  alive : ∀ {frame}, frame ∈ frames → heap.alive frame = true
  inside : ∀ {frame object}, frame ∈ frames → object ∈ heap.objects (.frame frame) →
    object ∈ objects
  owner : ∀ {frame object}, frame ∈ frames → heap.handler object = some frame →
    object ∈ objects
  owned : ∀ {frame object}, object ∈ objects → heap.handler object = some frame →
    frame ∈ frames
  order : frames.Pairwise fun earlier later => ¬heap.Contains earlier later

/-- A removal of some objects and of what can be reached from them. -/
structure Ends
    (heap : Heap)
    (roots : List ObjectId)
    (frames : List FrameId)
    (objects : List ObjectId) : Prop where
  removal : heap.Removal frames objects
  all : ∀ {object}, object ∈ roots → object ∈ objects
  beneath : ∀ {frame}, frame ∈ frames →
    ∃ object ∈ roots, ∃ root, heap.handler object = some root ∧
      ReflTransGen heap.Contains root frame
  held : ∀ {object}, object ∈ objects →
    object ∈ roots ∨ ∃ frame ∈ frames, object ∈ heap.objects (.frame frame)

variable {heap : Heap}

/-! ## Removing -/

section Remove

variable {frames later : List FrameId} {objects ended : List ObjectId}

theorem handler_remove (object : ObjectId) :
    (heap.remove frames objects).handler object =
      if object ∈ objects then none else heap.handler object := by
  by_cases removed : object ∈ objects <;> simp [handler, remove, removed]

theorem handler_of_remove
    {object : ObjectId}
    {frame : FrameId}
    (owns : (heap.remove frames objects).handler object = some frame) :
    object ∉ objects ∧ heap.handler object = some frame := by
  rw [handler_remove] at owns
  split at owns
  · simp at owns
  · exact ⟨‹_›, owns⟩

theorem alive_of_remove
    {frame : FrameId}
    (alive : (heap.remove frames objects).alive frame = true) :
    heap.alive frame = true ∧ frame ∉ frames := by
  simpa [remove] using alive

theorem mem_objects_remove {object : ObjectId} {place : Place} :
    object ∈ (heap.remove frames objects).objects place ↔
      object ∈ heap.objects place ∧ object ∉ objects := by
  simp [remove]

theorem remove_remove :
    (heap.remove frames objects).remove later ended =
      heap.remove (frames ++ later) (objects ++ ended) := by
  simp only [remove, mk.injEq, true_and]
  refine ⟨?_, ?_, ?_, ?_⟩
  · funext frame
    simp [Bool.and_assoc]
  · funext object
    by_cases first : object ∈ objects <;> by_cases second : object ∈ ended <;>
      simp [first, second]
  · funext place
    rw [List.filter_filter]
    refine List.filter_congr fun object _ => ?_
    by_cases first : object ∈ objects <;> by_cases second : object ∈ ended <;>
      simp [first, second]
  · rw [List.append_assoc]

theorem Holds.of_remove
    {place : Place}
    {frame : FrameId}
    (holds : (heap.remove frames objects).Holds place frame) :
    heap.Holds place frame := by
  obtain ⟨object, member, owns⟩ := holds
  exact ⟨object, (mem_objects_remove.mp member).1, (handler_of_remove owns).2⟩

/-- What is not removed stays where it is. -/
theorem Removal.holds
    (removal : heap.Removal frames objects)
    {place : Place}
    {frame : FrameId}
    (kept : frame ∉ frames)
    (holds : heap.Holds place frame) :
    (heap.remove frames objects).Holds place frame := by
  obtain ⟨object, member, owns⟩ := holds
  have stays : object ∉ objects := fun removed => kept (removal.owned removed owns)
  refine ⟨object, mem_objects_remove.mpr ⟨member, stays⟩, ?_⟩
  rw [handler_remove, if_neg stays, owns]

/-- With a frame goes what it holds. -/
theorem Removal.closed
    (removal : heap.Removal frames objects)
    {parent child : FrameId}
    (member : parent ∈ frames)
    (contains : heap.Contains parent child) :
    child ∈ frames := by
  obtain ⟨object, inside, owns⟩ := contains
  exact removal.owned (removal.inside member inside) owns

/-- One removal after another. -/
theorem Removal.append
    (first : heap.Removal frames objects)
    (second : (heap.remove frames objects).Removal later ended) :
    heap.Removal (frames ++ later) (objects ++ ended) where
  nodup := by
    refine List.nodup_append.mpr ⟨first.nodup, second.nodup, ?_⟩
    rintro frame early other late rfl
    exact (alive_of_remove (second.alive late)).2 early
  alive := by
    intro frame member
    rcases List.mem_append.mp member with early | late
    · exact first.alive early
    · exact (alive_of_remove (second.alive late)).1
  inside := by
    intro frame object member inside
    by_cases removed : object ∈ objects
    · exact List.mem_append_left _ removed
    · rcases List.mem_append.mp member with early | late
      · exact absurd (first.inside early inside) removed
      · exact List.mem_append_right _
          (second.inside late (mem_objects_remove.mpr ⟨inside, removed⟩))
  owner := by
    intro frame object member owns
    by_cases removed : object ∈ objects
    · exact List.mem_append_left _ removed
    · rcases List.mem_append.mp member with early | late
      · exact absurd (first.owner early owns) removed
      · refine List.mem_append_right _ (second.owner late ?_)
        rw [handler_remove, if_neg removed, owns]
  owned := by
    intro frame object member owns
    by_cases removed : object ∈ objects
    · exact List.mem_append_left _ (first.owned removed owns)
    · rcases List.mem_append.mp member with early | late
      · exact absurd early removed
      · refine List.mem_append_right _ (second.owned late ?_)
        rw [handler_remove, if_neg removed, owns]
  order := by
    have kept : ∀ frame ∈ later, frame ∉ frames :=
      fun frame late => (alive_of_remove (second.alive late)).2
    refine List.pairwise_append.mpr ⟨first.order, ?_, ?_⟩
    · refine second.order.imp_of_mem fun _ isLate apart contains => ?_
      exact apart (first.holds (kept _ isLate) contains)
    · intro parent early child late contains
      exact kept child late (first.closed early contains)

/-- One end after another. -/
theorem Ends.append
    {roots others : List ObjectId}
    (first : heap.Ends roots frames objects)
    (second : (heap.remove frames objects).Ends others later ended) :
    heap.Ends (roots ++ others) (frames ++ later) (objects ++ ended) where
  removal := first.removal.append second.removal
  all := by
    intro object member
    rcases List.mem_append.mp member with early | late
    · exact List.mem_append_left _ (first.all early)
    · exact List.mem_append_right _ (second.all late)
  beneath := by
    intro frame member
    rcases List.mem_append.mp member with early | late
    · obtain ⟨object, root, rest⟩ := first.beneath early
      exact ⟨object, List.mem_append_left _ root, rest⟩
    · obtain ⟨object, root, top, owns, path⟩ := second.beneath late
      exact ⟨object, List.mem_append_right _ root, top, (handler_of_remove owns).2,
        ReflTransGen.mono (fun _ _ => Holds.of_remove) _ _ path⟩
  held := by
    intro object member
    rcases List.mem_append.mp member with early | late
    · rcases first.held early with root | ⟨frame, removed, inside⟩
      · exact .inl (List.mem_append_left _ root)
      · exact .inr ⟨frame, List.mem_append_left _ removed, inside⟩
    · rcases second.held late with root | ⟨frame, removed, inside⟩
      · exact .inl (List.mem_append_right _ root)
      · exact .inr ⟨frame, List.mem_append_right _ removed, (mem_objects_remove.mp inside).1⟩

end Remove

/-! ## Forests -/

namespace Tidy

/-- A frame is in one place. -/
theorem place_eq
    (tidy : heap.Tidy)
    {left right : Place}
    {frame : FrameId}
    (inLeft : heap.Holds left frame)
    (inRight : heap.Holds right frame) :
    left = right := by
  obtain ⟨object, member, owns⟩ := inLeft
  obtain ⟨other, memberOther, ownsOther⟩ := inRight
  have same : some object = some other :=
    (tidy.owned owns).2.1.symm.trans (tidy.owned ownsOther).2.1
  obtain rfl := Option.some.inj same
  exact tidy.apart member memberOther

theorem parents
    (tidy : heap.Tidy)
    (left right child : FrameId)
    (first : heap.Contains left child)
    (second : heap.Contains right child) :
    left = right := by
  simpa using tidy.place_eq first second

/-- The owner of a frame. -/
theorem owner_eq
    (tidy : heap.Tidy)
    {object other : ObjectId}
    {frame : FrameId}
    (owns : heap.handler object = some frame)
    (ownsOther : heap.handler other = some frame) :
    object = other :=
  Option.some.inj ((tidy.owned owns).2.1.symm.trans (tidy.owned ownsOther).2.1)

/-- What can be removed leaves a tidy heap. -/
theorem remove
    (tidy : heap.Tidy)
    {frames : List FrameId}
    {objects : List ObjectId}
    (removal : heap.Removal frames objects) :
    (heap.remove frames objects).Tidy where
  nodup := fun place => (tidy.nodup place).filter _
  apart := fun inLeft inRight =>
    tidy.apart (mem_objects_remove.mp inLeft).1 (mem_objects_remove.mp inRight).1
  constructed := by
    intro object place member
    obtain ⟨member, stays⟩ := mem_objects_remove.mp member
    simpa [Heap.remove, stays] using tidy.constructed member
  housed := by
    intro object frame member
    obtain ⟨member, stays⟩ := mem_objects_remove.mp member
    have kept : frame ∉ frames := fun removed => stays (removal.inside removed member)
    simpa [Heap.remove, kept] using tidy.housed member
  owned := by
    intro object frame owns
    obtain ⟨stays, owns⟩ := handler_of_remove owns
    have kept : frame ∉ frames := fun removed => stays (removal.owner removed owns)
    obtain ⟨alive, onwer, value⟩ := tidy.owned owns
    refine ⟨?_, onwer, ?_⟩
    · simpa [Heap.remove, kept] using alive
    · simpa [Heap.remove, stays] using value
  ranked := tidy.ranked.mono fun _ _ contains => contains.of_remove
  freshObject := by
    intro object present
    by_cases removed : object ∈ objects
    · simp [Heap.remove, removed] at present
    · refine tidy.freshObject ?_
      simpa [Heap.remove, removed] using present
  freshFrame := fun alive => tidy.freshFrame (alive_of_remove alive).1
  dead := by
    intro frame member
    rcases List.mem_append.mp member with early | late
    · obtain ⟨below, dead⟩ := tidy.dead early
      exact ⟨below, by simp [Heap.remove, dead]⟩
    · exact ⟨tidy.freshFrame (removal.alive late), by simp [Heap.remove, late]⟩
  once := by
    refine List.nodup_append.mpr ⟨tidy.once, removal.nodup, ?_⟩
    rintro frame early other late rfl
    have alive := removal.alive late
    rw [(tidy.dead early).2] at alive
    simp at alive

/-- What goes with the objects of a frame does not hold the frame. -/
theorem not_mem_of_ends
    (tidy : heap.Tidy)
    {roots objects : List ObjectId}
    {frames : List FrameId}
    {frame : FrameId}
    (ends : heap.Ends roots frames objects)
    (here : ∀ object ∈ roots, object ∈ heap.objects (.frame frame)) :
    frame ∉ frames := by
  intro removed
  obtain ⟨object, root, child, owns, path⟩ := ends.beneath removed
  exact tidy.ranked.no_return ⟨object, here object root, owns⟩ path

/-- The end of one object leaves its neighbours. -/
theorem mem_objects_of_ends
    (tidy : heap.Tidy)
    {object neighbour : ObjectId}
    {frames : List FrameId}
    {objects : List ObjectId}
    {frame : FrameId}
    (ends : heap.Ends [object] frames objects)
    (here : object ∈ heap.objects (.frame frame))
    (near : neighbour ∈ heap.objects (.frame frame))
    (other : neighbour ≠ object) :
    neighbour ∈ (heap.remove frames objects).objects (.frame frame) := by
  refine mem_objects_remove.mpr ⟨near, fun removed => ?_⟩
  rcases ends.held removed with root | ⟨inner, inFrames, inside⟩
  · exact other (List.mem_singleton.mp root)
  · obtain rfl : frame = inner := by simpa using tidy.apart near inside
    refine tidy.not_mem_of_ends ends (fun root isRoot => ?_) inFrames
    rwa [List.mem_singleton.mp isRoot]

end Tidy

/-- All that can be reached goes. -/
theorem Ends.complete
    {roots objects : List ObjectId}
    {frames : List FrameId}
    (ends : heap.Ends roots frames objects)
    {object : ObjectId}
    {root frame : FrameId}
    (member : object ∈ roots)
    (owns : heap.handler object = some root)
    (path : ReflTransGen heap.Contains root frame) :
    frame ∈ frames := by
  induction path with
  | refl => exact ends.removal.owned (ends.all member) owns
  | tail _ contains inductionHypothesis =>
      exact ends.removal.closed inductionHypothesis contains

/-! ## Destructors -/

section Destroy

variable {height : FrameId → Nat} {depth : Nat}

/-- What `coroutine_handle::destroy` does to the frames of a height below the
depth. -/
def Destroys (height : FrameId → Nat) (depth : Nat) : Prop :=
  ∀ heap : Heap, heap.Tidy → Lib.Descends heap.Contains height →
    ∀ frame, heap.alive frame = true → height frame < depth →
      ∃ frames objects,
        handlerDestroy depth frame heap = some (heap.remove (frames ++ [frame]) objects) ∧
        heap.Ends (heap.objects (.frame frame)) frames objects

/-- A frame goes after what is in it, with its owners. -/
theorem Ends.last
    (tidy : heap.Tidy)
    {frame : FrameId}
    {frames : List FrameId}
    {objects owners : List ObjectId}
    (alive : heap.alive frame = true)
    (owner : ∀ object, heap.handler object = some frame → object ∈ owners)
    (owned : ∀ object ∈ owners, ∀ child, heap.handler object = some child → child = frame)
    (ends : heap.Ends (heap.objects (.frame frame)) frames objects) :
    heap.Removal (frames ++ [frame]) (objects ++ owners) := by
  have absent : frame ∉ frames := tidy.not_mem_of_ends ends fun _ here => here
  refine ends.removal.append ⟨List.nodup_singleton _, ?_, ?_, ?_, ?_, List.pairwise_singleton _ _⟩
  · intro other member
    simp [List.mem_singleton.mp member, remove, alive, absent]
  · intro other inner member inside
    -- the frame is empty by now
    rw [List.mem_singleton.mp member] at inside
    obtain ⟨here, stays⟩ := mem_objects_remove.mp inside
    exact absurd (ends.all here) stays
  · intro other object member owns
    rw [List.mem_singleton.mp member] at owns
    exact owner object (handler_of_remove owns).2
  · intro child object member owns
    exact List.mem_singleton.mpr (owned object member child (handler_of_remove owns).2)

/-- The object of a frame ends after the frame. -/
theorem Ends.own
    (tidy : heap.Tidy)
    {object : ObjectId}
    {frame : FrameId}
    {frames : List FrameId}
    {objects : List ObjectId}
    (owns : heap.handler object = some frame)
    (ends : heap.Ends (heap.objects (.frame frame)) frames objects) :
    heap.Ends [object] (frames ++ [frame]) (objects ++ [object]) where
  removal := by
    refine ends.last tidy (tidy.owned owns).1 (fun other ownsOther => ?_) ?_
    · exact List.mem_singleton.mpr (tidy.owner_eq ownsOther owns)
    · intro other member child ownsChild
      rw [List.mem_singleton.mp member, owns] at ownsChild
      exact (Option.some.inj ownsChild).symm
  all := by
    intro other member
    exact List.mem_append_right _ member
  beneath := by
    intro other member
    refine ⟨object, List.mem_singleton_self _, frame, owns, ?_⟩
    rcases List.mem_append.mp member with early | late
    · obtain ⟨inner, inside, child, ownsChild, path⟩ := ends.beneath early
      exact .head ⟨inner, inside, ownsChild⟩ path
    · rw [List.mem_singleton.mp late]
  held := by
    intro other member
    rcases List.mem_append.mp member with early | late
    · refine .inr ?_
      rcases ends.held early with root | ⟨inner, removed, inside⟩
      · exact ⟨frame, by simp, root⟩
      · exact ⟨inner, List.mem_append_left _ removed, inside⟩
    · exact .inl late

/-- `~BaseFrame` of an object. -/
theorem Destroys.destruct
    (destroys : Destroys height depth)
    (tidy : heap.Tidy)
    (descends : Lib.Descends heap.Contains height)
    {object : ObjectId}
    (constructed : (heap.object object).isSome)
    (shallow : ∀ frame, heap.handler object = some frame → height frame < depth) :
    ∃ frames objects,
      Heap.destruct (handlerDestroy depth) heap object = some (heap.remove frames objects) ∧
      heap.Ends [object] frames objects := by
  obtain ⟨value, present⟩ := Option.isSome_iff_exists.mp constructed
  cases isHandler : value.handler with
  | none =>
      have null : heap.handler object = none := by simp [handler, present, isHandler]
      refine ⟨[], [object], by simp [Heap.destruct, present, isHandler], ⟨?_, ?_, ?_, ?_, ?_, ?_⟩,
        fun member => member, by simp, fun member => .inl member⟩
      · exact List.nodup_nil
      · simp
      · simp
      · simp
      · intro frame other member owns
        rw [List.mem_singleton.mp member, null] at owns
        simp at owns
      · exact .nil
  | some frame =>
      have owns : heap.handler object = some frame := by simp [handler, present, isHandler]
      obtain ⟨frames, objects, result, ends⟩ :=
        destroys heap tidy descends frame (tidy.owned owns).1 (shallow frame owns)
      refine ⟨frames ++ [frame], objects ++ [object], ?_, ends.own tidy owns⟩
      simp [Heap.destruct, present, isHandler, result, remove_remove]

/-- The destructors of objects in one frame, one after the other. -/
theorem Destroys.foldlM
    (destroys : Destroys height depth)
    {frame : FrameId}
    (bound : height frame ≤ depth)
    {objects : List ObjectId}
    (tidy : heap.Tidy)
    (descends : Lib.Descends heap.Contains height)
    (here : ∀ object ∈ objects, object ∈ heap.objects (.frame frame))
    (nodup : objects.Nodup) :
    ∃ frames ended,
      objects.foldlM (Heap.destruct (handlerDestroy depth)) heap =
        some (heap.remove frames ended) ∧
      heap.Ends objects frames ended := by
  induction objects generalizing heap with
  | nil =>
      refine ⟨[], [], by simp [remove], ⟨?_, ?_, ?_, ?_, ?_, ?_⟩, ?_, ?_, ?_⟩ <;> simp
  | cons object rest inductionHypothesis =>
      obtain ⟨absent, nodup⟩ := List.nodup_cons.mp nodup
      have member := here object List.mem_cons_self
      have shallow : ∀ child, heap.handler object = some child → height child < depth := by
        intro child owns
        exact Nat.lt_of_lt_of_le (descends frame child ⟨object, member, owns⟩) bound
      obtain ⟨frames, ended, result, ends⟩ :=
        destroys.destruct tidy descends (tidy.constructed member) shallow
      have near : ∀ other ∈ rest,
          other ∈ (heap.remove frames ended).objects (.frame frame) := by
        intro other isOther
        refine tidy.mem_objects_of_ends ends member (here other (List.mem_cons_of_mem _ isOther)) ?_
        rintro rfl
        exact absent isOther
      obtain ⟨later, endedLater, resultLater, endsLater⟩ :=
        inductionHypothesis (tidy.remove ends.removal)
          (descends.mono fun _ _ contains => contains.of_remove) near nodup
      refine ⟨frames ++ later, ended ++ endedLater, ?_, ends.append endsLater⟩
      rw [List.foldlM_cons, result, ← remove_remove]
      exact resultLater

/-- `coroutine_handle::destroy` destroys the tree of a frame. -/
theorem destroys (height : FrameId → Nat) (depth : Nat) : Destroys height depth := by
  induction depth with
  | zero =>
      intro heap _ _ frame _ shallow
      omega
  | succ depth inductionHypothesis =>
      intro heap tidy descends frame alive shallow
      obtain ⟨frames, objects, result, ends⟩ :=
        inductionHypothesis.foldlM (Nat.lt_succ_iff.mp shallow) tidy descends
          (fun object member => List.mem_reverse.mp member)
          (List.nodup_reverse.mpr (tidy.nodup (.frame frame)))
      refine ⟨frames, objects, ?_, ends.removal, ?_, ?_, ?_⟩
      · simp [handlerDestroy, alive, result, remove_remove]
      · exact fun member => ends.all (List.mem_reverse.mpr member)
      · intro other member
        simpa using ends.beneath member
      · intro object member
        simpa using ends.held member

end Destroy

end Heap

end Coroutine
end Cgo
