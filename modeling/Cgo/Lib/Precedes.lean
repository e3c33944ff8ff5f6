import Mathlib.Data.List.Nodup

/-!
# One element before another

`Precedes list first second`: in the list, some occurrence of `first` stands
before one of `second`.  In a list without repetitions this is a strict total
order of its elements, and every sublist inherits it.
-/

namespace Cgo
namespace Lib

universe u

variable {α : Type u} {list part : List α} {first second : α}

/-- `first` stands before `second` in the list. -/
def Precedes (list : List α) (first second : α) : Prop :=
  [first, second].Sublist list

instance [DecidableEq α] : Decidable (Precedes list first second) :=
  inferInstanceAs (Decidable ([first, second].Sublist list))

theorem precedes_append
    {left right : List α}
    (inLeft : first ∈ left)
    (inRight : second ∈ right) :
    Precedes (left ++ right) first second :=
  (List.singleton_sublist.mpr inLeft).append (List.singleton_sublist.mpr inRight)

/-- Two elements of a list stand in one of the two orders. -/
theorem precedes_total
    (hasFirst : first ∈ list)
    (hasSecond : second ∈ list)
    (different : first ≠ second) :
    Precedes list first second ∨ Precedes list second first := by
  obtain ⟨left, right, rfl⟩ := List.append_of_mem hasFirst
  rcases List.mem_append.mp hasSecond with inLeft | inRight
  · exact .inr (precedes_append inLeft List.mem_cons_self)
  · left
    have inTail : second ∈ right := (List.mem_cons.mp inRight).resolve_left different.symm
    rw [List.append_cons]
    exact precedes_append (by simp) inTail

namespace Precedes

theorem of_sublist
    (precedes : Precedes part first second)
    (isPart : part.Sublist list) :
    Precedes list first second :=
  precedes.trans isPart

theorem ne
    (precedes : Precedes list first second)
    (nodup : list.Nodup) :
    first ≠ second := by
  have pair := precedes.nodup nodup
  simpa using pair

/-- Without repetitions the order cannot be both ways. -/
theorem asymm
    (precedes : Precedes list first second)
    (nodup : list.Nodup) :
    ¬Precedes list second first := by
  intro reversed
  induction list with
  | nil => simp [Precedes] at precedes
  | cons head tail inductionHypothesis =>
      obtain ⟨absent, tailNodup⟩ := List.nodup_cons.mp nodup
      have notHead : ∀ {left right : α}, Precedes (head :: tail) left right →
          left = head ∨ Precedes tail left right := by
        intro left right ordered
        cases ordered with
        | cons _ inTail => exact .inr inTail
        | cons_cons _ inTail => exact .inl rfl
      have later : ∀ {left right : α}, Precedes (head :: tail) left right →
          right ∈ tail := by
        intro left right ordered
        cases ordered with
        | cons _ inTail => exact inTail.subset (by simp)
        | cons_cons _ inTail => exact inTail.subset (by simp)
      rcases notHead precedes with rfl | inTail
      · exact absent (later reversed)
      · rcases notHead reversed with rfl | reversedInTail
        · exact absent (later precedes)
        · exact inductionHypothesis inTail tailNodup reversedInTail

/-- A sublist keeps the order of those of its elements that stand in it. -/
theorem in_part
    (precedes : Precedes list first second)
    (nodup : list.Nodup)
    (isPart : part.Sublist list)
    (hasFirst : first ∈ part)
    (hasSecond : second ∈ part) :
    Precedes part first second := by
  rcases precedes_total hasFirst hasSecond (precedes.ne nodup) with inOrder | reversed
  · exact inOrder
  · exact absurd (reversed.of_sublist isPart) (precedes.asymm nodup)

end Precedes

end Lib
end Cgo
