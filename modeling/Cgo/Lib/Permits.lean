import Mathlib.Data.List.Basic
import Mathlib.Data.Nat.ModEq

/-!
# Permits without hand-over

A counter of permits whose release wakes one waiter and does not reserve the
permit for it.  A woken waiter tries again like a newcomer; when the permit is
gone it is linked again at the end of the queue.  Between the refusal and the
link nobody else may use the counter.

The promise of such a counter is that a waiter that counts is never left
blocked with more permits free than waiters on the way to take them.
-/

namespace Cgo
namespace Lib

universe u

/-- The counter, its waiters, and how often it was released and taken. -/
structure Permits (Waiter : Type u) where
  vacant : Nat
  released : Nat
  taken : Nat
  blocked : List Waiter
  /-- The waiters that were woken and have not tried again. -/
  woken : List Waiter
  /-- A waiter was refused and is not linked yet. -/
  linking : Bool

namespace Permits

variable {Waiter : Type u}

/-- The first blocked waiter is woken. -/
def wake (permits : Permits Waiter) : Permits Waiter :=
  match permits.blocked with
  | [] => permits
  | waiter :: blocked => { permits with blocked, woken := permits.woken ++ [waiter] }

/-- One permit more, and one waiter is woken. -/
def release (bound : Nat) (permits : Permits Waiter) : Permits Waiter :=
  wake { permits with
    vacant := (permits.vacant + 1) % bound
    released := permits.released + 1 }

/-- A refused waiter is linked. -/
def link (permits : Permits Waiter) (waiter : Waiter) : Permits Waiter :=
  { permits with blocked := permits.blocked ++ [waiter], linking := false }

variable [DecidableEq Waiter]

/-- A newcomer or a woken waiter takes a permit. -/
def take (permits : Permits Waiter) (waiter : Waiter) : Permits Waiter :=
  { permits with
    vacant := permits.vacant - 1
    taken := permits.taken + 1
    woken := permits.woken.erase waiter }

/-- A newcomer or a woken waiter finds no permit. -/
def refuse (permits : Permits Waiter) (waiter : Waiter) : Permits Waiter :=
  { permits with woken := permits.woken.erase waiter, linking := true }

/-- A waiter goes away, blocked or woken. -/
def discard (permits : Permits Waiter) (waiter : Waiter) : Permits Waiter :=
  { permits with
    blocked := permits.blocked.erase waiter
    woken := permits.woken.erase waiter }

/-- The moves of a counter.  A waiter that goes away here wakes another. -/
inductive Move (bound : Nat) (permits : Permits Waiter) : Permits Waiter → Prop
  | take (waiter : Waiter) :
      permits.linking = false → 0 < permits.vacant → Move bound permits (permits.take waiter)
  | refuse (waiter : Waiter) :
      permits.linking = false → permits.vacant = 0 → Move bound permits (permits.refuse waiter)
  | link (waiter : Waiter) :
      permits.linking = true → Move bound permits (permits.link waiter)
  | release :
      permits.linking = false → Move bound permits (permits.release bound)
  | handOver (waiter : Waiter) :
      Move bound permits (permits.discard waiter).wake

/-! ## Wakes -/

omit [DecidableEq Waiter] in
@[simp] theorem wake_vacant (permits : Permits Waiter) :
    permits.wake.vacant = permits.vacant := by
  unfold wake
  split <;> rfl

omit [DecidableEq Waiter] in
@[simp] theorem wake_released (permits : Permits Waiter) :
    permits.wake.released = permits.released := by
  unfold wake
  split <;> rfl

omit [DecidableEq Waiter] in
@[simp] theorem wake_taken (permits : Permits Waiter) :
    permits.wake.taken = permits.taken := by
  unfold wake
  split <;> rfl

omit [DecidableEq Waiter] in
@[simp] theorem wake_linking (permits : Permits Waiter) :
    permits.wake.linking = permits.linking := by
  unfold wake
  split <;> rfl

omit [DecidableEq Waiter] in
/-- Whoever is still blocked was blocked before. -/
theorem mem_of_mem_wake
    {permits : Permits Waiter}
    {waiter : Waiter}
    (member : waiter ∈ permits.wake.blocked) :
    waiter ∈ permits.blocked := by
  unfold wake at member
  split at member
  · exact member
  · rename_i blocked waits
    rw [waits]
    exact List.mem_cons_of_mem _ member

omit [DecidableEq Waiter] in
/-- When somebody is still blocked, somebody else was woken. -/
theorem wake_woken
    {permits : Permits Waiter}
    {waiter : Waiter}
    (member : waiter ∈ permits.wake.blocked) :
    permits.wake.woken.length = permits.woken.length + 1 := by
  have before := mem_of_mem_wake member
  unfold wake
  split
  · rename_i empty
    rw [empty] at before
    simp at before
  · simp

/-- At most one waiter is erased. -/
theorem length_le_erase (waiters : List Waiter) (waiter : Waiter) :
    waiters.length ≤ (waiters.erase waiter).length + 1 := by
  rw [List.length_erase]
  split <;> omega

/-! ## The account -/

/-- What was released is free or taken, up to the size of the counter. -/
structure Balanced (bound start : Nat) (permits : Permits Waiter) : Prop where
  below : permits.vacant < bound
  account : permits.vacant + permits.taken ≡ start + permits.released [MOD bound]
  at_most : permits.vacant + permits.taken ≤ start + permits.released
  /-- While a refused waiter is being linked no permit is free. -/
  linking : permits.linking = true → permits.vacant = 0

namespace Balanced

variable {bound start : Nat} {permits after : Permits Waiter}

theorem take
    (balanced : Balanced bound start permits)
    (waiter : Waiter)
    (unlinked : permits.linking = false)
    (free : 0 < permits.vacant) :
    Balanced bound start (permits.take waiter) := by
  have moved : permits.vacant - 1 + (permits.taken + 1) = permits.vacant + permits.taken := by
    omega
  refine ⟨?_, ?_, ?_, ?_⟩
  · have below := balanced.below
    simp only [Permits.take]
    omega
  · simpa [Permits.take, moved] using balanced.account
  · simpa [Permits.take, moved] using balanced.at_most
  · simp [Permits.take, unlinked]

omit [DecidableEq Waiter] in
theorem release
    (balanced : Balanced bound start permits)
    (unlinked : permits.linking = false) :
    Balanced bound start (permits.release bound) := by
  have positive : 0 < bound := Nat.zero_lt_of_lt balanced.below
  refine ⟨?_, ?_, ?_, ?_⟩
  · simpa [Permits.release] using Nat.mod_lt _ positive
  · have counted : (permits.vacant + 1) % bound + permits.taken ≡
        permits.vacant + 1 + permits.taken [MOD bound] :=
      (Nat.mod_modEq _ _).add_right _
    have more : permits.vacant + 1 + permits.taken ≡
        start + (permits.released + 1) [MOD bound] := by
      have account := balanced.account.add_right 1
      rwa [Nat.add_right_comm, Nat.add_assoc start] at account
    simpa [Permits.release] using counted.trans more
  · have wrapped := Nat.mod_le (permits.vacant + 1) bound
    have at_most := balanced.at_most
    simp only [Permits.release, wake_vacant, wake_taken, wake_released]
    omega
  · simp [Permits.release, unlinked]

theorem discard
    (balanced : Balanced bound start permits)
    (waiter : Waiter) :
    Balanced bound start (permits.discard waiter) :=
  ⟨balanced.below, balanced.account, balanced.at_most, balanced.linking⟩

/-- Every move keeps the account. -/
theorem move
    (balanced : Balanced bound start permits)
    (moved : Move bound permits after) :
    Balanced bound start after := by
  cases moved with
  | take waiter unlinked free => exact balanced.take waiter unlinked free
  | refuse waiter unlinked gone =>
      exact ⟨balanced.below, balanced.account, balanced.at_most, fun _ => gone⟩
  | link waiter linking =>
      exact ⟨balanced.below, balanced.account, balanced.at_most, by simp [Permits.link]⟩
  | release unlinked => exact balanced.release unlinked
  | handOver waiter =>
      have discarded := balanced.discard waiter
      refine ⟨?_, ?_, ?_, ?_⟩
      · simpa using discarded.below
      · simpa using discarded.account
      · simpa using discarded.at_most
      · simpa using discarded.linking

omit [DecidableEq Waiter] in
/-- The exact account of a counter that never wrapped around. -/
theorem exact_account
    (balanced : Balanced bound start permits)
    (small : start + permits.released < bound) :
    permits.vacant + permits.taken = start + permits.released := by
  have at_most := balanced.at_most
  exact balanced.account.eq_of_lt_of_lt (by omega) small

end Balanced

/-! ## The promise -/

/-- While a waiter that counts is blocked, the woken ones can take every free
permit. -/
def Covered (Counts : Waiter → Prop) (permits : Permits Waiter) : Prop :=
  (∃ waiter ∈ permits.blocked, Counts waiter) → permits.vacant ≤ permits.woken.length

namespace Covered

variable {Counts : Waiter → Prop} {bound start : Nat} {permits after : Permits Waiter}

omit [DecidableEq Waiter] in
/-- Fewer waiters count. -/
theorem weaken
    {Fewer : Waiter → Prop}
    (covered : Covered Counts permits)
    (fewer : ∀ waiter, Fewer waiter → Counts waiter) :
    Covered Fewer permits := by
  rintro ⟨waiter, member, counts⟩
  exact covered ⟨waiter, member, fewer waiter counts⟩

/-- Every move keeps the promise. -/
theorem move
    (covered : Covered Counts permits)
    (balanced : Balanced bound start permits)
    (moved : Move bound permits after) :
    Covered Counts after := by
  rintro ⟨waiter, member, counts⟩
  cases moved with
  | take taker unlinked free =>
      have before := covered ⟨waiter, member, counts⟩
      have kept := length_le_erase permits.woken taker
      simp only [Permits.take]
      omega
  | refuse refused unlinked gone =>
      simp [Permits.refuse, gone]
  | link linked linking =>
      simp [Permits.link, balanced.linking linking]
  | release unlinked =>
      simp only [Permits.release] at member
      have stays := mem_of_mem_wake member
      have before := covered ⟨waiter, stays, counts⟩
      have woken := wake_woken member
      have wrapped := Nat.mod_le (permits.vacant + 1) bound
      simp only [Permits.release, wake_vacant] at woken ⊢
      omega
  | handOver gone =>
      have before := covered
        ⟨waiter, List.mem_of_mem_erase (mem_of_mem_wake member), counts⟩
      have woken := wake_woken member
      have kept := length_le_erase permits.woken gone
      simp only [wake_vacant, Permits.discard] at woken ⊢
      omega

/-- A waiter may go away without waking another unless it was woken, a waiter
that counts stays blocked, and every woken waiter is needed. -/
theorem discard
    (covered : Covered Counts permits)
    (gone : Waiter)
    (spared : ¬(gone ∈ permits.woken ∧ (∃ waiter ∈ permits.blocked, Counts waiter) ∧
      permits.woken.length ≤ permits.vacant)) :
    Covered Counts (permits.discard gone) := by
  rintro ⟨waiter, member, counts⟩
  have stays : ∃ waiter ∈ permits.blocked, Counts waiter :=
    ⟨waiter, List.mem_of_mem_erase member, counts⟩
  have before := covered stays
  simp only [Permits.discard]
  by_cases woken : gone ∈ permits.woken
  · have fewer := List.length_erase_of_mem woken
    have unneeded : permits.vacant < permits.woken.length := by
      by_contra needed
      exact spared ⟨woken, stays, by omega⟩
    omega
  · rw [List.erase_of_not_mem woken]
    exact before

end Covered

end Permits

end Lib
end Cgo
