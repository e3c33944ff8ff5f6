import Mathlib.Algebra.Group.Nat.Defs
import Mathlib.Data.List.Basic
import Mathlib.Data.Nat.ModEq
import Mathlib.Logic.Function.Basic

/-!
# Registries with changing numbers

A registry keeps entries for keys.  A key that is registered again gets a new
number, and its entry is found under the number only, so that a message which
carries a number of the past finds nothing.  The two partial maps, from a key to
its current number and from a number to the entry held under it, have to be
inverse to each other for that.  Numbers come from a counter of fixed width that
wraps.
-/

namespace Cgo
namespace Lib

universe u v w

/-- Every key with a number has its own entry under it, and every number with an
entry is the current one of the entry's key. -/
structure Inverse
    {Key : Type u} {Id : Type v} {Entry : Type w}
    (keyOf : Entry → Key)
    (current : Key → Option Id)
    (entries : Id → Option Entry) : Prop where
  entry : ∀ {key id}, current key = some id →
    ∃ entry, entries id = some entry ∧ keyOf entry = key
  current : ∀ {id entry}, entries id = some entry → current (keyOf entry) = some id

namespace Inverse

variable {Key : Type u} {Id : Type v} {Entry : Type w}
variable {keyOf : Entry → Key} {current : Key → Option Id} {entries : Id → Option Entry}

theorem empty :
    Inverse keyOf (fun _ => (none : Option Id)) (fun _ => none) where
  entry := by simp
  current := by simp

/-- No two keys share a number. -/
theorem injective
    (inverse : Inverse keyOf current entries)
    {key other : Key}
    {id : Id}
    (first : current key = some id)
    (second : current other = some id) :
    key = other := by
  obtain ⟨_, held, rfl⟩ := inverse.entry first
  obtain ⟨_, same, rfl⟩ := inverse.entry second
  rw [held] at same
  rw [Option.some.inj same]

/-- A number with an entry is not the current one of another key. -/
theorem ne_of_entry
    (inverse : Inverse keyOf current entries)
    {key : Key}
    {id number : Id}
    {entry : Entry}
    (registered : current key = some id)
    (held : entries number = some entry)
    (apart : keyOf entry ≠ key) :
    number ≠ id := by
  rintro rfl
  exact apart (inverse.injective (inverse.current held) registered)

/-- A number without an entry is nobody's. -/
theorem ne_of_vacant
    (inverse : Inverse keyOf current entries)
    {key : Key}
    {id number : Id}
    (registered : current key = some id)
    (vacant : entries number = none) :
    number ≠ id := by
  rintro rfl
  obtain ⟨_, held, -⟩ := inverse.entry registered
  rw [vacant] at held
  cases held

variable [DecidableEq Key] [DecidableEq Id]

/-- A new key is registered under a vacant number. -/
theorem register
    (inverse : Inverse keyOf current entries)
    {id : Id}
    {entry : Entry}
    (unknown : current (keyOf entry) = none)
    (vacant : entries id = none) :
    Inverse keyOf
      (Function.update current (keyOf entry) (some id))
      (Function.update entries id (some entry)) where
  entry := by
    intro key number registered
    rcases eq_or_ne key (keyOf entry) with rfl | apart
    · obtain rfl : id = number := by simpa using registered
      exact ⟨entry, by simp, rfl⟩
    · rw [Function.update_of_ne apart] at registered
      have fresh : number ≠ id := (inverse.ne_of_vacant registered vacant).symm
      simpa [fresh] using inverse.entry registered
  current := by
    intro number held found
    rcases eq_or_ne number id with rfl | apart
    · obtain rfl : entry = held := by simpa using found
      simp
    · rw [Function.update_of_ne apart] at found
      have known : keyOf held ≠ keyOf entry := by
        intro same
        have registered := inverse.current found
        rw [same, unknown] at registered
        cases registered
      simpa [known] using inverse.current found

/-- A key is taken out together with the entry under its number. -/
theorem remove
    (inverse : Inverse keyOf current entries)
    {key : Key}
    {id : Id}
    (registered : current key = some id) :
    Inverse keyOf
      (Function.update current key none)
      (Function.update entries id none) where
  entry := by
    intro other number found
    rcases eq_or_ne other key with rfl | apart
    · simp at found
    · rw [Function.update_of_ne apart] at found
      have kept : number ≠ id := by
        rintro rfl
        exact apart (inverse.injective found registered)
      simpa [kept] using inverse.entry found
  current := by
    intro number entry found
    rcases eq_or_ne number id with rfl | apart
    · simp at found
    · rw [Function.update_of_ne apart] at found
      have other : keyOf entry ≠ key := by
        rintro rfl
        rw [inverse.current found] at registered
        exact apart (Option.some.inj registered)
      simpa [other] using inverse.current found

/-- A registered key is registered again: the new entry goes under a vacant number
before the old one is erased. -/
theorem replace
    (inverse : Inverse keyOf current entries)
    {old id : Id}
    {entry : Entry}
    (registered : current (keyOf entry) = some old)
    (vacant : entries id = none) :
    Inverse keyOf
      (Function.update current (keyOf entry) (some id))
      (Function.update (Function.update entries id (some entry)) old none) := by
  have apart : id ≠ old := inverse.ne_of_vacant registered vacant
  have stillVacant : Function.update entries old none id = none := by
    simpa [apart] using vacant
  have again : Inverse keyOf
      (Function.update (Function.update current (keyOf entry) none) (keyOf entry) (some id))
      (Function.update (Function.update entries old none) id (some entry)) :=
    (inverse.remove registered).register (by simp) stillVacant
  rwa [Function.update_idem, Function.update_comm apart.symm] at again

end Inverse

/-- A counter of `width` bits gives a number again exactly after a multiple of
`2 ^ width` others. -/
theorem counter_eq_iff
    {width first later : Nat}
    (ordered : first ≤ later) :
    BitVec.ofNat width first = BitVec.ofNat width later ↔ 2 ^ width ∣ later - first := by
  rw [← BitVec.toNat_inj, BitVec.toNat_ofNat, BitVec.toNat_ofNat]
  exact Nat.modEq_iff_dvd' ordered

/-- So it gives `2 ^ width` different numbers before it gives one again. -/
theorem counter_ne
    {width first later : Nat}
    (ordered : first < later)
    (bounded : later < 2 ^ width) :
    BitVec.ofNat width first ≠ BitVec.ofNat width later := by
  rw [Ne, counter_eq_iff ordered.le]
  intro multiple
  have enough := Nat.le_of_dvd (by omega) multiple
  omega

end Lib
end Cgo
