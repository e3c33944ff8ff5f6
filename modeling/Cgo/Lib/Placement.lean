import Mathlib.Logic.Function.Basic

/-!
# Things that are in one place at a time

A placement says of a relation `At` between things and places that every thing
is at one place or at none: `there` is that place.  Taking a thing away and
putting it somewhere keep this, so a system whose steps are made of takes and
puts never has a thing at two places.
-/

namespace Cgo
namespace Lib

universe u v

variable {Thing : Type u} {Place : Type v}

/-- Every thing is where `there` says, and nowhere else. -/
structure Placement (At : Thing → Place → Prop) (there : Thing → Option Place) : Prop where
  at_iff : ∀ thing place, At thing place ↔ there thing = some place

namespace Placement

variable {At After : Thing → Place → Prop} {there : Thing → Option Place}

/-- A thing is at one place at most. -/
theorem unique
    (placement : Placement At there)
    {thing : Thing}
    {left right : Place}
    (atLeft : At thing left)
    (atRight : At thing right) :
    left = right := by
  rw [placement.at_iff] at atLeft atRight
  exact Option.some.inj (atLeft.symm.trans atRight)

/-- A thing that is nowhere according to `there` is at no place. -/
theorem nowhere
    (placement : Placement At there)
    {thing : Thing}
    (missing : there thing = none)
    (place : Place) :
    ¬At thing place := by
  rw [placement.at_iff, missing]
  simp

/-- The same placement for a relation that holds of the same pairs. -/
theorem congr
    (placement : Placement At there)
    (same : ∀ thing place, After thing place ↔ At thing place) :
    Placement After there where
  at_iff thing place := by rw [same, placement.at_iff]

variable [DecidableEq Thing]

/-- One thing is taken away, wherever it is. -/
theorem erase
    (placement : Placement At there)
    {taken : Thing}
    (takes : ∀ thing place, After thing place ↔ At thing place ∧ thing ≠ taken) :
    Placement After (Function.update there taken none) where
  at_iff thing place := by
    rw [takes, placement.at_iff]
    by_cases same : thing = taken
    · simp [same]
    · simp [same]

/-- One thing is taken away from the place where it is. -/
theorem take
    (placement : Placement At there)
    {taken : Thing}
    {source : Place}
    (atSource : At taken source)
    (here : ∀ thing, After thing source ↔ At thing source ∧ thing ≠ taken)
    (elsewhere : ∀ thing place, place ≠ source → (After thing place ↔ At thing place)) :
    Placement After (Function.update there taken none) := by
  refine placement.erase fun thing place => ?_
  by_cases same : place = source
  · rw [same, here]
  · rw [elsewhere thing place same]
    refine ⟨fun atPlace => ⟨atPlace, ?_⟩, And.left⟩
    rintro rfl
    exact same (placement.unique atPlace atSource)

/-- One thing that was nowhere is put at a place. -/
theorem put
    (placement : Placement At there)
    {added : Thing}
    {target : Place}
    (missing : there added = none)
    (here : ∀ thing, After thing target ↔ At thing target ∨ thing = added)
    (elsewhere : ∀ thing place, place ≠ target → (After thing place ↔ At thing place)) :
    Placement After (Function.update there added (some target)) where
  at_iff thing place := by
    have puts : After thing place ↔ At thing place ∨ (thing = added ∧ target = place) := by
      by_cases same : place = target
      · rw [same, here]
        simp
      · rw [elsewhere thing place same]
        simp [Ne.symm same]
    rw [puts, placement.at_iff]
    by_cases same : thing = added
    · simp [same, missing]
    · simp [same]

end Placement

end Lib
end Cgo
