import Mathlib.Data.Finset.Card
import Mathlib.Logic.Function.Basic

/-!
# Barriers

A barrier that is used again and again counts those that have not arrived yet; the last
one to arrive starts a new phase and sets the count back.  Who has arrived waits until
the phase is no longer the one it arrived in.
-/

namespace Cgo
namespace Lib

/-- A barrier with the number of arrivals that end a phase, those that are missing, and
the phases that have ended. -/
structure Barrier where
  expected : Nat
  pending : Nat
  phase : Nat
  deriving DecidableEq

namespace Barrier

/-- A new barrier. -/
def ofExpected (expected : Nat) : Barrier where
  expected := expected
  pending := expected
  phase := 0

/-- One party arrives. -/
def arrive (barrier : Barrier) : Barrier :=
  if barrier.pending = 1 then
    { barrier with pending := barrier.expected, phase := barrier.phase + 1 }
  else { barrier with pending := barrier.pending - 1 }

variable {Party : Type}

/-- What a barrier knows of its parties.  `gate` counts how often a party has arrived
and how often it has passed, together, so it is odd while the party waits; `token` is
the phase in which it arrived last. -/
structure Counts
    (barrier : Barrier)
    (parties : Finset Party)
    (gate token : Party → Nat) : Prop where
  expected : barrier.expected = parties.card
  pending : barrier.pending = (parties.filter fun party => gate party ≤ 2 * barrier.phase).card
  pending_pos : parties.Nonempty → 0 < barrier.pending
  lower : ∀ party ∈ parties, 2 * barrier.phase ≤ gate party + 1
  upper : ∀ party ∈ parties, gate party ≤ 2 * barrier.phase + 1
  token : ∀ party ∈ parties, gate party % 2 = 1 → gate party = 2 * token party + 1

namespace Counts

variable {barrier : Barrier} {parties : Finset Party} {gate token : Party → Nat}

theorem initial (parties : Finset Party) (token : Party → Nat) :
    (ofExpected parties.card).Counts parties (fun _ => 0) token where
  expected := rfl
  pending := by simp [ofExpected]
  pending_pos := Finset.Nonempty.card_pos
  lower := by simp [ofExpected]
  upper := by simp [ofExpected]
  token := by simp

/-- Who waits may pass when everybody has come as far. -/
theorem open_iff
    {party : Party}
    (counts : barrier.Counts parties gate token)
    (member : party ∈ parties)
    (waits : gate party % 2 = 1) :
    barrier.phase ≠ token party ↔ ∀ other ∈ parties, gate party ≤ gate other := by
  have own := counts.token party member waits
  have ownLower := counts.lower party member
  have ownUpper := counts.upper party member
  constructor
  · intro ended other known
    have otherLower := counts.lower other known
    omega
  · intro all same
    have positive := counts.pending_pos ⟨party, member⟩
    rw [counts.pending, Finset.card_pos] at positive
    obtain ⟨missing, absent⟩ := positive
    obtain ⟨known, late⟩ := Finset.mem_filter.mp absent
    have behind := all missing known
    omega

variable [DecidableEq Party]

/-- Who passes keeps the counts. -/
theorem pass
    {party : Party}
    (counts : barrier.Counts parties gate token)
    (member : party ∈ parties)
    (waits : gate party % 2 = 1)
    (ended : barrier.phase ≠ token party) :
    barrier.Counts parties (Function.update gate party (gate party + 1)) token := by
  have own := counts.token party member waits
  have ownLower := counts.lower party member
  have ownUpper := counts.upper party member
  refine ⟨counts.expected, ?_, counts.pending_pos, ?_, ?_, ?_⟩
  · rw [counts.pending]
    apply congrArg
    apply Finset.filter_congr
    intro other known
    rcases eq_or_ne other party with rfl | different
    · rw [Function.update_self]
      omega
    · rw [Function.update_of_ne different]
  · intro other known
    rcases eq_or_ne other party with rfl | different
    · rw [Function.update_self]
      omega
    · rw [Function.update_of_ne different]
      exact counts.lower other known
  · intro other known
    rcases eq_or_ne other party with rfl | different
    · rw [Function.update_self]
      omega
    · rw [Function.update_of_ne different]
      exact counts.upper other known
  · intro other known odd
    rcases eq_or_ne other party with rfl | different
    · rw [Function.update_self] at odd
      omega
    · rw [Function.update_of_ne different] at odd ⊢
      exact counts.token other known odd

/-- Who arrives and does not wait yet is one of those that were missing. -/
private theorem arrived
    {party : Party}
    (counts : barrier.Counts parties gate token)
    (member : party ∈ parties)
    (outside : gate party % 2 = 0) :
    gate party = 2 * barrier.phase ∧
      (parties.filter fun other =>
        Function.update gate party (gate party + 1) other ≤ 2 * barrier.phase) =
          (parties.filter fun other => gate other ≤ 2 * barrier.phase).erase party := by
  have ownLower := counts.lower party member
  have ownUpper := counts.upper party member
  have own : gate party = 2 * barrier.phase := by omega
  refine ⟨own, ?_⟩
  ext other
  rw [Finset.mem_erase, Finset.mem_filter, Finset.mem_filter]
  rcases eq_or_ne other party with rfl | different
  · simp [own]
  · simp [different]

/-- Who arrives keeps the counts, and keeps the phase as its token. -/
theorem arrive
    {party : Party}
    (counts : barrier.Counts parties gate token)
    (member : party ∈ parties)
    (outside : gate party % 2 = 0) :
    barrier.arrive.Counts parties (Function.update gate party (gate party + 1))
      (Function.update token party barrier.phase) := by
  obtain ⟨own, fewer⟩ := counts.arrived member outside
  have missing : party ∈ parties.filter fun other => gate other ≤ 2 * barrier.phase :=
    Finset.mem_filter.mpr ⟨member, own.le⟩
  have tokens : ∀ other ∈ parties,
      Function.update gate party (gate party + 1) other % 2 = 1 →
        Function.update gate party (gate party + 1) other =
          2 * Function.update token party barrier.phase other + 1 := by
    intro other known odd
    rcases eq_or_ne other party with rfl | different
    · simp [own]
    · rw [Function.update_of_ne different] at odd ⊢
      rw [Function.update_of_ne different]
      exact counts.token other known odd
  rw [Barrier.arrive]
  split
  · next last =>
    -- everybody else has arrived, so all are in time for the next phase
    have only : (parties.filter fun other => gate other ≤ 2 * barrier.phase) = {party} := by
      obtain ⟨single, same⟩ := Finset.card_eq_one.mp (counts.pending.symm.trans last)
      rw [same, Finset.mem_singleton] at missing
      rw [same, missing]
    have ahead : ∀ other ∈ parties, other ≠ party → gate other = 2 * barrier.phase + 1 := by
      intro other known different
      have upper := counts.upper other known
      by_contra behind
      have late : other ∈ parties.filter fun other => gate other ≤ 2 * barrier.phase :=
        Finset.mem_filter.mpr ⟨known, by omega⟩
      rw [only, Finset.mem_singleton] at late
      exact different late
    have exactly_ : ∀ other ∈ parties,
        Function.update gate party (gate party + 1) other = 2 * barrier.phase + 1 := by
      intro other known
      rcases eq_or_ne other party with rfl | different
      · rw [Function.update_self, own]
      · rw [Function.update_of_ne different]
        exact ahead other known different
    refine ⟨counts.expected, ?_, ?_, ?_, ?_, tokens⟩
    · rw [Finset.filter_true_of_mem]
      · exact counts.expected
      · intro other known
        rw [exactly_ other known]
        simp only
        omega
    · intro nonempty
      simpa [counts.expected] using nonempty.card_pos
    · intro other known
      rw [exactly_ other known]
      simp only
      omega
    · intro other known
      rw [exactly_ other known]
      simp only
      omega
  · next more =>
    have positive := counts.pending_pos ⟨party, member⟩
    refine ⟨counts.expected, ?_, fun _ => ?_, ?_, ?_, tokens⟩
    · simp only
      rw [fewer, Finset.card_erase_of_mem missing, counts.pending]
    · simp only
      omega
    · intro other known
      have before := counts.lower other known
      rcases eq_or_ne other party with rfl | different
      · rw [Function.update_self]
        simp only
        omega
      · rw [Function.update_of_ne different]
        exact before
    · intro other known
      rcases eq_or_ne other party with rfl | different
      · rw [Function.update_self, own]
      · rw [Function.update_of_ne different]
        exact counts.upper other known

end Counts
end Barrier
end Lib
end Cgo
