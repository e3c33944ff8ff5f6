import Cgo.Coroutine.Forest

/-!
# The forest grows and is moved

The constructors of `BaseFrame` and the assignments to pointers keep the heap
tidy.  A move takes one tree from its place to another; it keeps the forest as
long as the new place is not in that tree.
-/

namespace Cgo
namespace Coroutine

open Relation

namespace Heap

variable {heap : Heap}

/-! ## Pointers -/

theorem handler_setObject
    (object other : ObjectId)
    (value : Object) :
    (heap.setObject object value).handler other =
      if other = object then value.handler else heap.handler other := by
  by_cases same : other = object
  · subst same
    simp [handler, setObject]
  · simp [handler, setObject, same]

/-- The links do not matter. -/
theorem Tidy.setLinks
    (tidy : heap.Tidy)
    (links : Links FrameId) :
    { heap with links }.Tidy where
  nodup := tidy.nodup
  apart := tidy.apart
  constructed := tidy.constructed
  housed := tidy.housed
  owned := tidy.owned
  ranked := tidy.ranked
  freshObject := tidy.freshObject
  freshFrame := tidy.freshFrame
  dead := tidy.dead
  once := tidy.once

/-- Of a promise only the owner matters. -/
theorem Tidy.setPromise
    (tidy : heap.Tidy)
    {frame : FrameId}
    {value : BasePromise}
    (onwer : value.onwer = (heap.promise frame).onwer) :
    (heap.setPromise frame value).Tidy where
  nodup := tidy.nodup
  apart := tidy.apart
  constructed := tidy.constructed
  housed := tidy.housed
  owned := by
    intro object child owns
    obtain ⟨alive, isOnwer, present⟩ := tidy.owned owns
    refine ⟨alive, ?_, present⟩
    by_cases same : child = frame
    · subst same
      simpa [Heap.setPromise, onwer] using isOnwer
    · simpa [Heap.setPromise, same] using isOnwer
  ranked := tidy.ranked
  freshObject := tidy.freshObject
  freshFrame := tidy.freshFrame
  dead := tidy.dead
  once := tidy.once

/-! ## A frame loses its owner -/

section Release

variable {object : ObjectId} {frame : FrameId}

/-- `_handler` of the owner of a frame is null. -/
def released (heap : Heap) (object : ObjectId) (frame : FrameId) : Heap :=
  heap.setObject object ⟨none, some frame⟩

theorem handler_released (other : ObjectId) :
    (heap.released object frame).handler other =
      if other = object then none else heap.handler other :=
  handler_setObject object other ⟨none, some frame⟩

theorem handler_of_released
    {other : ObjectId}
    {child : FrameId}
    (owns : (heap.released object frame).handler other = some child) :
    other ≠ object ∧ heap.handler other = some child := by
  rw [handler_released] at owns
  split at owns
  · simp at owns
  · exact ⟨‹_›, owns⟩

theorem Holds.of_released
    {place : Place}
    {child : FrameId}
    (holds : (heap.released object frame).Holds place child) :
    heap.Holds place child := by
  obtain ⟨other, member, owns⟩ := holds
  exact ⟨other, member, (handler_of_released owns).2⟩

/-- The other frames stay with their owners. -/
theorem Holds.released
    (owns : heap.handler object = some frame)
    {place : Place}
    {other : FrameId}
    (different : other ≠ frame)
    (holds : heap.Holds place other) :
    (heap.released object frame).Holds place other := by
  obtain ⟨owner, member, ownsOther⟩ := holds
  have stays : owner ≠ object := by
    rintro rfl
    exact different (Option.some.inj (ownsOther.symm.trans owns))
  exact ⟨owner, member, by rw [handler_released, if_neg stays, ownsOther]⟩

theorem Tidy.released
    (tidy : heap.Tidy)
    (owns : heap.handler object = some frame) :
    (heap.released object frame).Tidy where
  nodup := tidy.nodup
  apart := tidy.apart
  constructed := by
    intro other place member
    by_cases same : other = object
    · simp [Heap.released, setObject, same]
    · simpa [Heap.released, setObject, same] using tidy.constructed member
  housed := tidy.housed
  owned := by
    intro other child ownsOther
    obtain ⟨different, ownsOther⟩ := handler_of_released ownsOther
    simpa [Heap.released, setObject, different] using tidy.owned ownsOther
  ranked := tidy.ranked.mono fun _ _ => Holds.of_released
  freshObject := by
    intro other isSome
    refine tidy.freshObject ?_
    by_cases same : other = object
    · simp [same, (tidy.owned owns).2.2]
    · simpa [Heap.released, setObject, same] using isSome
  freshFrame := tidy.freshFrame
  dead := tidy.dead
  once := tidy.once

end Release

/-! ## Null objects -/

namespace Tidy

theorem absent_nextObject (tidy : heap.Tidy) : heap.object heap.nextObject = none := by
  cases present : heap.object heap.nextObject with
  | none => rfl
  | some value => exact absurd (tidy.freshObject (by simp [present])) (Nat.lt_irrefl _)

theorem lt_nextObject
    (tidy : heap.Tidy)
    {object : ObjectId}
    {place : Place}
    (member : object ∈ heap.objects place) :
    object < heap.nextObject :=
  tidy.freshObject (tidy.constructed member)

theorem handler_construct
    (tidy : heap.Tidy)
    (place : Place)
    (object : ObjectId) :
    (heap.construct place).handler object = heap.handler object := by
  by_cases same : object = heap.nextObject
  · simp [handler, Heap.construct, same, tidy.absent_nextObject]
  · simp [handler, Heap.construct, same]

end Tidy

theorem mem_objects_construct
    {place other : Place}
    {object : ObjectId} :
    object ∈ (heap.construct place).objects other ↔
      object ∈ heap.objects other ∨ other = place ∧ object = heap.nextObject := by
  by_cases same : other = place
  · subst same
    simp [construct]
  · simp [construct, same]

theorem Tidy.holds_construct
    (tidy : heap.Tidy)
    {place other : Place}
    {frame : FrameId} :
    (heap.construct place).Holds other frame ↔ heap.Holds other frame := by
  constructor
  · rintro ⟨object, member, owns⟩
    rw [tidy.handler_construct] at owns
    rcases mem_objects_construct.mp member with old | ⟨_, rfl⟩
    · exact ⟨object, old, owns⟩
    · simp [handler, tidy.absent_nextObject] at owns
  · rintro ⟨object, member, owns⟩
    refine ⟨object, mem_objects_construct.mpr (.inl member), ?_⟩
    rw [tidy.handler_construct, owns]

theorem Tidy.contains_construct
    (tidy : heap.Tidy)
    (place : Place) :
    (heap.construct place).Contains = heap.Contains := by
  funext parent child
  exact propext tidy.holds_construct

/-- `BaseFrame()` in a frame that is alive. -/
theorem Tidy.construct
    (tidy : heap.Tidy)
    {place : Place}
    (alive : ∀ frame, place = .frame frame → heap.alive frame = true) :
    (heap.construct place).Tidy where
  nodup := by
    intro other
    by_cases same : other = place
    · subst same
      have absent : heap.nextObject ∉ heap.objects other :=
        fun member => Nat.lt_irrefl _ (tidy.lt_nextObject member)
      simpa [Heap.construct, List.nodup_append] using
        ⟨tidy.nodup other, fun object member => by
          rintro rfl
          exact absent member⟩
    · simpa [Heap.construct, same] using tidy.nodup other
  apart := by
    intro object left right inLeft inRight
    rcases mem_objects_construct.mp inLeft with oldLeft | ⟨rfl, rfl⟩
    · rcases mem_objects_construct.mp inRight with oldRight | ⟨_, rfl⟩
      · exact tidy.apart oldLeft oldRight
      · exact absurd (tidy.lt_nextObject oldLeft) (Nat.lt_irrefl _)
    · rcases mem_objects_construct.mp inRight with oldRight | ⟨rfl, _⟩
      · exact absurd (tidy.lt_nextObject oldRight) (Nat.lt_irrefl _)
      · rfl
  constructed := by
    intro object other member
    rcases mem_objects_construct.mp member with old | ⟨_, rfl⟩
    · have different : object ≠ heap.nextObject := Nat.ne_of_lt (tidy.lt_nextObject old)
      simpa [Heap.construct, different] using tidy.constructed old
    · simp [Heap.construct]
  housed := by
    intro object frame member
    rcases mem_objects_construct.mp member with old | ⟨rfl, _⟩
    · exact tidy.housed old
    · exact alive frame rfl
  owned := by
    intro object frame owns
    rw [tidy.handler_construct] at owns
    obtain ⟨isAlive, onwer, present⟩ := tidy.owned owns
    have different : object ≠ heap.nextObject :=
      Nat.ne_of_lt (tidy.freshObject (by simp [present]))
    exact ⟨isAlive, onwer, by simpa [Heap.construct, different] using present⟩
  ranked := tidy.ranked.mono fun _ _ => tidy.holds_construct.mp
  freshObject := by
    intro object isSome
    by_cases same : object = heap.nextObject
    · rw [same]
      exact Nat.lt_succ_self _
    · refine Nat.lt_succ_of_lt (tidy.freshObject ?_)
      simpa [Heap.construct, same] using isSome
  freshFrame := tidy.freshFrame
  dead := tidy.dead
  once := tidy.once

/-! ## A frame is allocated -/

section Allocate

variable {object : ObjectId} {place : Place}

theorem handler_allocate (other : ObjectId) :
    (heap.allocate object).handler other =
      if other = object then some heap.nextFrame else heap.handler other := by
  by_cases same : other = object <;> simp [handler, allocate, same]

theorem Tidy.ne_nextFrame
    (tidy : heap.Tidy)
    {frame : FrameId}
    (alive : heap.alive frame = true) :
    frame ≠ heap.nextFrame :=
  Nat.ne_of_lt (tidy.freshFrame alive)

theorem Tidy.holds_allocate
    (tidy : heap.Tidy)
    (null : heap.handler object = none)
    (here : object ∈ heap.objects place)
    {other : Place}
    {frame : FrameId} :
    (heap.allocate object).Holds other frame ↔
      heap.Holds other frame ∨ other = place ∧ frame = heap.nextFrame := by
  constructor
  · rintro ⟨owner, member, owns⟩
    rw [handler_allocate] at owns
    split at owns
    · subst owner
      exact .inr ⟨tidy.apart member here, (Option.some.inj owns).symm⟩
    · exact .inl ⟨owner, member, owns⟩
  · rintro (⟨owner, member, owns⟩ | ⟨rfl, rfl⟩)
    · have different : owner ≠ object := by
        rintro rfl
        simp [null] at owns
      exact ⟨owner, member, by rw [handler_allocate, if_neg different, owns]⟩
    · exact ⟨object, here, by rw [handler_allocate, if_pos rfl]⟩

/-- A new frame for a null object. -/
theorem Tidy.allocate
    (tidy : heap.Tidy)
    (null : heap.handler object = none)
    (here : object ∈ heap.objects place) :
    (heap.allocate object).Tidy where
  nodup := tidy.nodup
  apart := tidy.apart
  constructed := by
    intro other location member
    by_cases same : other = object
    · simp [Heap.allocate, same]
    · simpa [Heap.allocate, same] using tidy.constructed member
  housed := by
    intro other frame member
    have alive := tidy.housed member
    simpa [Heap.allocate, tidy.ne_nextFrame alive] using alive
  owned := by
    intro other frame owns
    rw [handler_allocate] at owns
    split at owns
    · subst other
      obtain rfl := Option.some.inj owns
      simp [Heap.allocate]
    · obtain ⟨alive, onwer, present⟩ := tidy.owned owns
      have different : other ≠ object := ‹_›
      simpa [Heap.allocate, tidy.ne_nextFrame alive, different] using ⟨alive, onwer, present⟩
  ranked := by
    cases place with
    | outside =>
        refine tidy.ranked.mono fun parent child contains => ?_
        rcases (tidy.holds_allocate null here).mp contains with old | ⟨isPlace, _⟩
        · exact old
        · simp at isPlace
    | frame frame =>
        -- nothing is in the new frame yet
        have leaf : ¬ReflTransGen heap.Contains heap.nextFrame frame := by
          intro path
          rcases ReflTransGen.cases_head path with same | ⟨child, ⟨inner, inside, _⟩, _⟩
          · exact tidy.ne_nextFrame (tidy.housed here) same.symm
          · exact tidy.ne_nextFrame (tidy.housed inside) rfl
        refine tidy.ranked.insert leaf fun parent child contains => ?_
        rcases (tidy.holds_allocate null here).mp contains with old | ⟨isPlace, isNew⟩
        · exact .inl old
        · exact .inr ⟨by simpa using isPlace, isNew⟩
  freshObject := by
    intro other isSome
    by_cases same : other = object
    · subst other
      exact tidy.lt_nextObject here
    · refine tidy.freshObject ?_
      simpa [Heap.allocate, same] using isSome
  freshFrame := by
    intro frame alive
    by_cases same : frame = heap.nextFrame
    · rw [same]
      exact Nat.lt_succ_self _
    · refine Nat.lt_succ_of_lt (tidy.freshFrame ?_)
      simpa [Heap.allocate, same] using alive
  dead := by
    intro frame member
    obtain ⟨below, dead⟩ := tidy.dead member
    refine ⟨Nat.lt_succ_of_lt below, ?_⟩
    simpa [Heap.allocate, Nat.ne_of_lt below] using dead
  once := tidy.once

end Allocate

/-! ## A frame changes its owner -/

section Swap

variable {this rhs : ObjectId} {frame : FrameId} {place : Place}

/-- The heap after the swaps. -/
def given (heap : Heap) (this rhs : ObjectId) (frame : FrameId) : Heap :=
  ((heap.setObject this ⟨some frame, some frame⟩).setObject rhs ⟨none, none⟩).setPromise frame
    { heap.promise frame with onwer := some this }

theorem Tidy.swap_eq
    (tidy : heap.Tidy)
    (null : heap.object this = some ⟨none, none⟩)
    (owns : heap.handler rhs = some frame) :
    heap.swap this rhs = some (heap.given this rhs frame) := by
  obtain ⟨alive, _, present⟩ := tidy.owned owns
  simp [Heap.swap, null, present, read, alive, given]

theorem handler_given (object : ObjectId) :
    (heap.given this rhs frame).handler object =
      if object = rhs then none
      else if object = this then some frame else heap.handler object := by
  by_cases isRhs : object = rhs
  · simp [handler, given, Heap.setPromise, setObject, isRhs]
  · by_cases isThis : object = this
    · subst isThis
      simp [handler, given, Heap.setPromise, setObject, isRhs]
    · simp [handler, given, Heap.setPromise, setObject, isRhs, isThis]

theorem Tidy.ne_of_null
    (null : heap.object this = some ⟨none, none⟩)
    (owns : heap.handler rhs = some frame) :
    this ≠ rhs := by
  rintro rfl
  simp [handler, null] at owns

theorem Tidy.holds_given
    (tidy : heap.Tidy)
    (null : heap.object this = some ⟨none, none⟩)
    (owns : heap.handler rhs = some frame)
    (here : this ∈ heap.objects place)
    {other : Place}
    {child : FrameId} :
    (heap.given this rhs frame).Holds other child ↔
      child ≠ frame ∧ heap.Holds other child ∨ child = frame ∧ other = place := by
  have different := ne_of_null null owns
  constructor
  · rintro ⟨object, member, ownsChild⟩
    rw [handler_given] at ownsChild
    split at ownsChild
    · simp at ownsChild
    · rename_i notRhs
      split at ownsChild
      · subst object
        exact .inr ⟨(Option.some.inj ownsChild).symm, tidy.apart member here⟩
      · refine .inl ⟨?_, object, member, ownsChild⟩
        rintro rfl
        exact notRhs (tidy.owner_eq ownsChild owns)
  · rintro (⟨distinct, object, member, ownsChild⟩ | ⟨rfl, rfl⟩)
    · have notRhs : object ≠ rhs := by
        rintro rfl
        exact distinct (Option.some.inj (ownsChild.symm.trans owns))
      have notThis : object ≠ this := by
        rintro rfl
        simp [handler, null] at ownsChild
      exact ⟨object, member, by rw [handler_given, if_neg notRhs, if_neg notThis, ownsChild]⟩
    · exact ⟨this, here, by rw [handler_given, if_neg different, if_pos rfl]⟩

/-- A null object takes a frame over. -/
theorem Tidy.given
    (tidy : heap.Tidy)
    (null : heap.object this = some ⟨none, none⟩)
    (owns : heap.handler rhs = some frame)
    (here : this ∈ heap.objects place)
    (acyclic : ∀ parent, place = .frame parent → ¬ReflTransGen heap.Contains frame parent) :
    (heap.given this rhs frame).Tidy where
  nodup := tidy.nodup
  apart := tidy.apart
  constructed := by
    intro object other member
    by_cases isRhs : object = rhs
    · simp [Heap.given, Heap.setPromise, setObject, isRhs]
    · by_cases isThis : object = this
      · subst isThis
        simp [Heap.given, Heap.setPromise, setObject, isRhs]
      · simpa [Heap.given, Heap.setPromise, setObject, isRhs, isThis] using
          tidy.constructed member
  housed := tidy.housed
  owned := by
    intro object child ownsChild
    rw [handler_given] at ownsChild
    split at ownsChild
    · simp at ownsChild
    · rename_i notRhs
      split at ownsChild
      · subst object
        obtain rfl := Option.some.inj ownsChild
        refine ⟨(tidy.owned owns).1, ?_, ?_⟩
        · simp [Heap.given, Heap.setPromise]
        · simp [Heap.given, Heap.setPromise, setObject, notRhs]
      · rename_i notThis
        obtain ⟨alive, onwer, present⟩ := tidy.owned ownsChild
        have different : child ≠ frame := by
          rintro rfl
          exact notRhs (tidy.owner_eq ownsChild owns)
        refine ⟨alive, ?_, ?_⟩
        · simpa [Heap.given, Heap.setPromise, setObject, different] using onwer
        · simpa [Heap.given, Heap.setPromise, setObject, notRhs, notThis] using present
  ranked := by
    cases place with
    | outside =>
        refine tidy.ranked.mono fun parent child contains => ?_
        rcases (tidy.holds_given null owns here).mp contains with ⟨_, old⟩ | ⟨_, isPlace⟩
        · exact old
        · simp at isPlace
    | frame parent =>
        refine tidy.ranked.insert (acyclic parent rfl) fun other child contains => ?_
        rcases (tidy.holds_given null owns here).mp contains with ⟨_, old⟩ | ⟨isFrame, isPlace⟩
        · exact .inl old
        · exact .inr ⟨by simpa using isPlace, isFrame⟩
  freshObject := by
    intro object isSome
    by_cases isRhs : object = rhs
    · subst isRhs
      exact tidy.freshObject (by simp [(tidy.owned owns).2.2])
    · by_cases isThis : object = this
      · subst isThis
        exact tidy.freshObject (by simp [null])
      · refine tidy.freshObject ?_
        simpa [Heap.given, Heap.setPromise, setObject, isRhs, isThis] using isSome
  freshFrame := tidy.freshFrame
  dead := tidy.dead
  once := tidy.once

end Swap

end Heap

end Coroutine
end Cgo
