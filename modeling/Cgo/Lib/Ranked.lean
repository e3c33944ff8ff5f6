import Mathlib.Data.List.Chain
import Mathlib.Logic.Relation

/-!
# Relations with a height

A relation along which a height falls has no infinite path, and the height
bounds how deep a recursion along it goes.  Where every element has one parent,
such a relation is a forest.
-/

namespace Cgo
namespace Lib

open Relation

universe u

/-- The height falls along the relation. -/
def Descends {α : Type u} (R : α → α → Prop) (height : α → Nat) : Prop :=
  ∀ a b, R a b → height b < height a

/-- Some height falls along the relation. -/
def Ranked {α : Type u} (R : α → α → Prop) : Prop :=
  ∃ height, Descends R height

variable {α : Type u} {R S : α → α → Prop}

namespace Descends

variable {height : α → Nat}

theorem mono
    (descends : Descends R height)
    (fewer : ∀ a b, S a b → R a b) :
    Descends S height := by
  intro a b related
  exact descends a b (fewer a b related)

theorem lt_of_transGen
    (descends : Descends R height)
    {a b : α}
    (path : TransGen R a b) :
    height b < height a := by
  induction path with
  | single related => exact descends _ _ related
  | tail _ related inductionHypothesis =>
      exact Nat.lt_trans (descends _ _ related) inductionHypothesis

end Descends

namespace Ranked

theorem mono
    (ranked : Ranked R)
    (fewer : ∀ a b, S a b → R a b) :
    Ranked S := by
  obtain ⟨height, descends⟩ := ranked
  exact ⟨height, descends.mono fewer⟩

theorem irrefl
    (ranked : Ranked R)
    (a : α) :
    ¬TransGen R a a := by
  obtain ⟨height, descends⟩ := ranked
  intro path
  exact Nat.lt_irrefl _ (descends.lt_of_transGen path)

/-- No way leads back. -/
theorem no_return
    (ranked : Ranked R)
    {a b : α}
    (step : R a b) :
    ¬ReflTransGen R b a := by
  intro path
  exact ranked.irrefl a (TransGen.head' step path)

/-- A pair is added whose second element does not lead to the first. -/
theorem insert
    (ranked : Ranked R)
    {parent child : α}
    (acyclic : ¬ReflTransGen R child parent)
    (added : ∀ a b, S a b → R a b ∨ a = parent ∧ b = child) :
    Ranked S := by
  classical
  obtain ⟨height, descends⟩ := ranked
  -- whatever leads to the parent rises above the child
  refine ⟨fun a => height a + if ReflTransGen R a parent then height child + 1 else 0, ?_⟩
  intro a b related
  rcases added a b related with old | ⟨rfl, rfl⟩
  · have falls := descends a b old
    by_cases leads : ReflTransGen R b parent
    · have also : ReflTransGen R a parent := .head old leads
      simpa [leads, also] using falls
    · simp only [leads, if_false]
      omega
  · have itself : ReflTransGen R a a := .refl
    simp only [acyclic, itself, if_true, if_false]
    omega

end Ranked

/-- Two elements from which a third can be reached, in a relation where every
element has one parent. -/
theorem comparable_of_parents
    (parents : ∀ a b c, R a c → R b c → a = b)
    {a b c : α}
    (first : ReflTransGen R a c)
    (second : ReflTransGen R b c) :
    ReflTransGen R a b ∨ ReflTransGen R b a := by
  have unique : Relator.RightUnique (Function.swap R) :=
    fun child left right isLeft isRight => parents left right child isLeft isRight
  rcases ReflTransGen.total_of_right_unique unique (reflTransGen_swap.mpr first)
      (reflTransGen_swap.mpr second) with up | down
  · exact .inr (reflTransGen_swap.mp up)
  · exact .inl (reflTransGen_swap.mp down)

/-- A root is the only one from which an element can be reached. -/
theorem eq_of_roots
    (parents : ∀ a b c, R a c → R b c → a = b)
    {a b c : α}
    (rootLeft : ∀ parent, ¬R parent a)
    (rootRight : ∀ parent, ¬R parent b)
    (first : ReflTransGen R a c)
    (second : ReflTransGen R b c) :
    a = b := by
  rcases comparable_of_parents parents first second with path | path
  · rcases ReflTransGen.cases_tail path with same | ⟨parent, _, last⟩
    · exact same.symm
    · exact absurd last (rootRight parent)
  · rcases ReflTransGen.cases_tail path with same | ⟨parent, _, last⟩
    · exact same
    · exact absurd last (rootLeft parent)

/-! ## Paths as lists -/

section Chain

variable {path : List α}

/-- The last element of a path, which is its start, reaches all of it. -/
theorem reach_of_isChain
    {start : α}
    (chain : path.IsChain fun child parent => R parent child)
    (last : path.getLast? = some start)
    {a : α}
    (member : a ∈ path) :
    ReflTransGen R start a := by
  induction path generalizing a with
  | nil => simp at member
  | cons first rest inductionHypothesis =>
      cases rest with
      | nil =>
          obtain rfl : first = start := by simpa using last
          obtain rfl := List.mem_singleton.mp member
          exact .refl
      | cons second rest =>
          obtain ⟨step, tail⟩ := List.isChain_cons_cons.mp chain
          have lastRest : (second :: rest).getLast? = some start := by simpa using last
          rcases List.mem_cons.mp member with rfl | later
          · exact (inductionHypothesis tail lastRest List.mem_cons_self).tail step
          · exact inductionHypothesis tail lastRest later

/-- All of a path reaches its first element, which is its end. -/
theorem reach_head_of_isChain
    {target : α}
    (chain : (target :: path).IsChain fun child parent => R parent child)
    {a : α}
    (member : a ∈ path) :
    TransGen R a target := by
  induction path generalizing target with
  | nil => simp at member
  | cons second rest inductionHypothesis =>
      obtain ⟨step, tail⟩ := List.isChain_cons_cons.mp chain
      rcases List.mem_cons.mp member with rfl | later
      · exact .single step
      · exact (inductionHypothesis tail later).tail step

/-- A path visits nothing twice. -/
theorem Ranked.nodup_of_isChain
    (ranked : Ranked R)
    (chain : path.IsChain fun child parent => R parent child) :
    path.Nodup := by
  induction path with
  | nil => exact List.nodup_nil
  | cons first rest inductionHypothesis =>
      refine List.nodup_cons.mpr ⟨fun member => ?_, inductionHypothesis chain.of_cons⟩
      exact ranked.irrefl first (reach_head_of_isChain chain member)

end Chain

end Lib
end Cgo
