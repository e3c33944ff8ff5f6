import Mathlib.Data.List.Chain
import Mathlib.Data.List.Nodup
import Mathlib.Logic.Function.Basic

/-!
# Doubly linked chains on one heap

Any number of chains live in the pointers of one heap.  A chain is a list of
nodes that point at their neighbours, no node is in two chains, and the pointers
of all others are null.  To put a node between two neighbours and to take it out
again changes four pointers, and one chain.
-/

namespace Cgo
namespace Lib

universe u v

variable {Node : Type u} {Index : Type v}

/-- Two nodes point at each other. -/
def Joined (prev next : Node → Option Node) (a b : Node) : Prop :=
  next a = some b ∧ prev b = some a

/-- The nodes form one doubly linked chain, in this order. -/
structure Doubly (prev next : Node → Option Node) (nodes : List Node) : Prop where
  joined : nodes.IsChain (Joined prev next)
  first : ∀ a ∈ nodes.head?, prev a = none
  last : ∀ a ∈ nodes.getLast?, next a = none
  nodup : nodes.Nodup

/-- The pointers form these chains and no others. -/
structure Chained
    (prev next : Node → Option Node)
    (chains : Index → List Node) : Prop where
  doubly : ∀ i, Doubly prev next (chains i)
  disjoint : ∀ {i j a}, a ∈ chains i → a ∈ chains j → i = j
  free : ∀ {a}, (∀ i, a ∉ chains i) → prev a = none ∧ next a = none

/-! ## One chain -/

section Joined

variable {prev next prevAfter nextAfter : Node → Option Node}
variable {before after : List Node} {a x b : Node}

/-- What the last node has behind it and the first before it does not matter. -/
theorem isChain_congr
    {nodes : List Node}
    (chain : nodes.IsChain (Joined prev next))
    (nexts : ∀ node ∈ nodes.dropLast, nextAfter node = next node)
    (prevs : ∀ node ∈ nodes.tail, prevAfter node = prev node) :
    nodes.IsChain (Joined prevAfter nextAfter) := by
  induction chain with
  | nil => exact .nil
  | singleton node => exact .singleton node
  | @cons_cons first second rest joined _ inductionHypothesis =>
      refine .cons_cons ⟨?_, ?_⟩ (inductionHypothesis ?_ ?_)
      · rw [nexts first List.mem_cons_self]
        exact joined.1
      · rw [prevs second List.mem_cons_self]
        exact joined.2
      · exact fun node member => nexts node (List.mem_cons_of_mem _ member)
      · exact fun node member => prevs node (List.mem_cons_of_mem _ member)

/-- The nodes between two neighbours change; the pointers behind the second and
before the first stay. -/
theorem isChain_rejoin
    {inner : List Node}
    (left : (before ++ [a]).IsChain (Joined prev next))
    (right : (b :: after).IsChain (Joined prev next))
    (nexts : ∀ node ∈ before ++ b :: after, nextAfter node = next node)
    (prevs : ∀ node ∈ before ++ a :: after, prevAfter node = prev node)
    (middle : (a :: (inner ++ [b])).IsChain (Joined prevAfter nextAfter)) :
    (before ++ a :: (inner ++ b :: after)).IsChain (Joined prevAfter nextAfter) := by
  rw [List.isChain_split, List.isChain_cons_split]
  refine ⟨?_, middle, ?_⟩
  · refine isChain_congr left (fun node member => nexts node ?_) fun node member => prevs node ?_
    · rw [List.dropLast_concat] at member
      exact List.mem_append_left _ member
    · rcases List.mem_append.mp (List.mem_of_mem_tail member) with inside | isLast
      · exact List.mem_append_left _ inside
      · rw [List.mem_singleton.mp isLast]
        exact List.mem_append_right _ List.mem_cons_self
  · refine isChain_congr right (fun node member => nexts node ?_) fun node member => prevs node ?_
    · exact List.mem_append_right _ (List.dropLast_subset _ member)
    · exact List.mem_append_right _ (List.mem_cons_of_mem _ member)

/-- The pointers of other nodes do not matter. -/
theorem Doubly.congr
    {nodes : List Node}
    (doubly : Doubly prev next nodes)
    (same : ∀ node ∈ nodes, prevAfter node = prev node ∧ nextAfter node = next node) :
    Doubly prevAfter nextAfter nodes where
  joined :=
    isChain_congr doubly.joined (fun node member => (same node (List.dropLast_subset _ member)).2)
      fun node member => (same node (List.mem_of_mem_tail member)).1
  first := by
    intro node isFirst
    rw [(same node (List.mem_of_mem_head? isFirst)).1]
    exact doubly.first node isFirst
  last := by
    intro node isLast
    rw [(same node (List.mem_of_getLast? isLast)).2]
    exact doubly.last node isLast
  nodup := doubly.nodup

/-- The nodes between two neighbours of a chain are exchanged.  Only their
pointers and those of the neighbours towards each other change. -/
theorem Doubly.rejoin
    {old inner : List Node}
    (doubly : Doubly prev next (before ++ a :: (old ++ b :: after)))
    (nodup : (before ++ a :: (inner ++ b :: after)).Nodup)
    (middle : (a :: (inner ++ [b])).IsChain (Joined prevAfter nextAfter))
    (nexts : ∀ node, node ≠ a → node ∉ old → node ∉ inner → nextAfter node = next node)
    (prevs : ∀ node, node ≠ b → node ∉ old → node ∉ inner → prevAfter node = prev node) :
    Doubly prevAfter nextAfter (before ++ a :: (inner ++ b :: after)) := by
  have chain := doubly.joined
  rw [List.isChain_split, List.isChain_cons_split] at chain
  -- no node outside the two neighbours is one of the exchanged
  have nextsOuter : ∀ node ∈ before ++ b :: after, nextAfter node = next node := by
    intro node member
    have offOld : node ≠ a ∧ node ∉ old := by grind [doubly.nodup]
    have offInner : node ∉ inner := by grind
    exact nexts node offOld.1 offOld.2 offInner
  have prevsOuter : ∀ node ∈ before ++ a :: after, prevAfter node = prev node := by
    intro node member
    have offOld : node ≠ b ∧ node ∉ old := by grind [doubly.nodup]
    have offInner : node ∉ inner := by grind
    exact prevs node offOld.1 offOld.2 offInner
  refine ⟨isChain_rejoin chain.1 chain.2.2 nextsOuter prevsOuter middle, ?_, ?_, nodup⟩
  · intro node isFirst
    have wasFirst : node ∈ (before ++ a :: (old ++ b :: after)).head? := by
      rw [List.head?_append] at isFirst ⊢
      exact isFirst
    have outer : node ∈ before ++ a :: after := by
      cases before with
      | nil => simp_all
      | cons _ _ => simp_all
    rw [prevsOuter node outer]
    exact doubly.first node wasFirst
  · intro node isLast
    rw [← List.cons_append, ← List.append_assoc, List.getLast?_append_cons] at isLast
    have wasLast : node ∈ (before ++ a :: (old ++ b :: after)).getLast? := by
      rw [← List.cons_append, ← List.append_assoc, List.getLast?_append_cons]
      exact isLast
    have outer := List.mem_append_right before (List.mem_of_getLast? isLast)
    rw [nextsOuter node outer]
    exact doubly.last node wasLast

end Joined

/-! ## All chains -/

namespace Chained

variable {prev next prevAfter nextAfter : Node → Option Node}
variable {chains : Index → List Node} {i : Index}
variable {before after : List Node} {a x b : Node}

/-- Neighbours in a chain point at each other. -/
theorem neighbours
    (chained : Chained prev next chains)
    (here : chains i = before ++ a :: b :: after) :
    next a = some b ∧ prev b = some a := by
  have chain := (chained.doubly i).joined
  rw [here] at chain
  exact (List.isChain_append_cons_cons.mp chain).2.1

/-- Without chains no pointer is set. -/
theorem empty : Chained (fun _ : Node => none) (fun _ => none) fun _ : Index => [] where
  doubly := by
    intro i
    exact ⟨.nil, by simp, by simp, List.nodup_nil⟩
  disjoint := by
    intro i j a member
    simp at member
  free := fun _ => ⟨rfl, rfl⟩

variable [DecidableEq Index]

/-- One chain becomes another one, of its own nodes and of free ones. -/
theorem replace
    (chained : Chained prev next chains)
    {nodes : List Node}
    (doubly : Doubly prevAfter nextAfter nodes)
    (origin : ∀ node ∈ nodes, node ∈ chains i ∨ ∀ j, node ∉ chains j)
    (freed : ∀ node ∈ chains i, node ∉ nodes →
      prevAfter node = none ∧ nextAfter node = none)
    (kept : ∀ node, node ∉ chains i → node ∉ nodes →
      prevAfter node = prev node ∧ nextAfter node = next node) :
    Chained prevAfter nextAfter (Function.update chains i nodes) := by
  have elsewhere : ∀ j, j ≠ i → ∀ node ∈ chains j, node ∉ chains i ∧ node ∉ nodes := by
    intro j different node member
    have off : node ∉ chains i := fun here => different (chained.disjoint member here)
    refine ⟨off, fun inside => ?_⟩
    rcases origin node inside with here | nowhere
    · exact off here
    · exact nowhere j member
  refine ⟨fun j => ?_, ?_, ?_⟩
  · by_cases same : j = i
    · rw [same, Function.update_self]
      exact doubly
    · rw [Function.update_of_ne same]
      refine (chained.doubly j).congr fun node member => ?_
      obtain ⟨off, outside⟩ := elsewhere j same node member
      exact kept node off outside
  · intro left right node inLeft inRight
    by_cases isLeft : left = i
    · by_cases isRight : right = i
      · rw [isLeft, isRight]
      · rw [isLeft, Function.update_self] at inLeft
        rw [Function.update_of_ne isRight] at inRight
        exact absurd inLeft (elsewhere right isRight node inRight).2
    · rw [Function.update_of_ne isLeft] at inLeft
      by_cases isRight : right = i
      · rw [isRight, Function.update_self] at inRight
        exact absurd inRight (elsewhere left isLeft node inLeft).2
      · rw [Function.update_of_ne isRight] at inRight
        exact chained.disjoint inLeft inRight
  · intro node absent
    have outside : node ∉ nodes := by simpa using absent i
    by_cases here : node ∈ chains i
    · exact freed node here outside
    · have nowhere : ∀ j, node ∉ chains j := by
        intro j
        by_cases same : j = i
        · rwa [same]
        · have off := absent j
          rwa [Function.update_of_ne same] at off
      rw [(kept node here outside).1, (kept node here outside).2]
      exact chained.free nowhere

/-- The nodes between two neighbours are exchanged: the old ones are free, the
new ones were. -/
theorem rejoin
    (chained : Chained prev next chains)
    (old inner : List Node)
    (here : chains i = before ++ a :: (old ++ b :: after))
    (nodup : (before ++ a :: (inner ++ b :: after)).Nodup)
    (origin : ∀ node ∈ inner, ∀ j, node ∉ chains j)
    (middle : (a :: (inner ++ [b])).IsChain (Joined prevAfter nextAfter))
    (nexts : ∀ node, node ≠ a → node ∉ old → node ∉ inner → nextAfter node = next node)
    (prevs : ∀ node, node ≠ b → node ∉ old → node ∉ inner → prevAfter node = prev node)
    (freed : ∀ node ∈ old, prevAfter node = none ∧ nextAfter node = none) :
    Chained prevAfter nextAfter
      (Function.update chains i (before ++ a :: (inner ++ b :: after))) := by
  have doubly := chained.doubly i
  rw [here] at doubly
  refine chained.replace (doubly.rejoin nodup middle nexts prevs) ?_ ?_ ?_
  · intro node member
    by_cases isNew : node ∈ inner
    · exact .inr (origin node isNew)
    · refine .inl ?_
      rw [here]
      grind
  · intro node member absent
    rw [here] at member
    have isOld : node ∈ old := by grind
    exact freed node isOld
  · intro node member absent
    rw [here] at member
    have off : node ∉ old ∧ node ∉ inner := by grind
    have apart : node ≠ a ∧ node ≠ b := by grind
    exact ⟨prevs node apart.2 off.1 off.2, nexts node apart.1 off.1 off.2⟩

variable [DecidableEq Node]

/-- Two free nodes become a chain. -/
theorem start
    (chained : Chained prev next chains)
    (here : chains i = [])
    (different : a ≠ b)
    (freeLeft : ∀ j, a ∉ chains j)
    (freeRight : ∀ j, b ∉ chains j) :
    Chained (Function.update prev b (some a)) (Function.update next a (some b))
      (Function.update chains i [a, b]) := by
  have nullLeft := chained.free freeLeft
  have nullRight := chained.free freeRight
  refine chained.replace ⟨?_, ?_, ?_, ?_⟩ ?_ ?_ ?_
  · exact List.isChain_pair.mpr ⟨by simp, by simp⟩
  · simpa [different] using nullLeft.1
  · simpa [different.symm] using nullRight.2
  · simpa using different
  · intro node member
    simp only [List.mem_cons, List.not_mem_nil, or_false] at member
    rcases member with rfl | rfl
    · exact .inr freeLeft
    · exact .inr freeRight
  · simp [here]
  · intro node _ outside
    simp only [List.mem_cons, List.not_mem_nil, or_false, not_or] at outside
    simp [outside.1, outside.2]

/-- A free node comes between two neighbours. -/
theorem insert
    (chained : Chained prev next chains)
    (here : chains i = before ++ a :: b :: after)
    (isFree : ∀ j, x ∉ chains j) :
    Chained (Function.update (Function.update prev b (some x)) x (some a))
      (Function.update (Function.update next a (some x)) x (some b))
      (Function.update chains i (before ++ a :: x :: b :: after)) := by
  have absent : x ∉ before ++ a :: b :: after := here ▸ isFree i
  have nodup : (before ++ a :: b :: after).Nodup := here ▸ (chained.doubly i).nodup
  have apart : x ≠ a ∧ x ≠ b := by grind
  have nodupAfter : (before ++ a :: ([x] ++ b :: after)).Nodup := by grind
  refine chained.rejoin [] [x] here nodupAfter ?_ ?_ ?_ ?_ ?_
  · simpa using isFree
  · refine .cons_cons ⟨?_, ?_⟩ (List.isChain_pair.mpr ⟨?_, ?_⟩)
    · simp [apart.1.symm]
    · simp
    · simp
    · simp [apart.2.symm]
  · intro node other _ outside
    simp only [List.mem_singleton] at outside
    simp [other, outside]
  · intro node other _ outside
    simp only [List.mem_singleton] at outside
    simp [other, outside]
  · simp

/-- A node between two neighbours goes and is free. -/
theorem remove
    (chained : Chained prev next chains)
    (here : chains i = before ++ a :: x :: b :: after) :
    Chained (Function.update (Function.update prev b (some a)) x none)
      (Function.update (Function.update next a (some b)) x none)
      (Function.update chains i (before ++ a :: b :: after)) := by
  have nodup : (before ++ a :: x :: b :: after).Nodup := here ▸ (chained.doubly i).nodup
  have apart : x ≠ a ∧ x ≠ b := by grind
  have nodupAfter : (before ++ a :: ([] ++ b :: after)).Nodup := by grind
  refine chained.rejoin [x] [] here nodupAfter ?_ ?_ ?_ ?_ ?_
  · simp
  · refine List.isChain_pair.mpr ⟨?_, ?_⟩
    · simp [apart.1.symm]
    · simp [apart.2.symm]
  · intro node other outside _
    simp only [List.mem_singleton] at outside
    simp [other, outside]
  · intro node other outside _
    simp only [List.mem_singleton] at outside
    simp [other, outside]
  · simp

end Chained

end Lib
end Cgo
