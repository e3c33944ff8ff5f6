import Mathlib.Data.List.Sort

/-!
# Priority queues over a container

`std::priority_queue` keeps its elements in a container that is a heap: it pushes
with `push_heap`, pops with `pop_heap`, and its top is the front.  How the two
algorithms arrange the container is up to the library, so they are a parameter
with what their documentation promises.  The element on top is one with the
least key.
-/

namespace Cgo
namespace Lib

universe u v

/-- `std::is_heap` of a list of keys: none is less than its parent. -/
def IsHeap {Key : Type v} [LE Key] (keys : List Key) : Prop :=
  ∀ i parent child, keys[i / 2]? = some parent → keys[i + 1]? = some child → parent ≤ child

namespace IsHeap

variable {Key : Type v} [LinearOrder Key] {keys : List Key}

omit [LinearOrder Key] in
theorem nil [LE Key] : IsHeap ([] : List Key) := by
  intro i parent child isParent
  simp at isParent

/-- The front of a heap is a least key. -/
theorem front_le
    {front : Key}
    (heap : IsHeap keys)
    (first : keys[0]? = some front)
    (i : Nat)
    {key : Key}
    (at_ : keys[i]? = some key) :
    front ≤ key := by
  induction i using Nat.strongRecOn generalizing key with
  | ind i inductionHypothesis =>
      cases i with
      | zero =>
          rw [first] at at_
          exact (Option.some.inj at_).le
      | succ i =>
          have inside : i / 2 < keys.length := by
            obtain ⟨bound, _⟩ := List.getElem?_eq_some_iff.mp at_
            omega
          have parent : keys[i / 2]? = some keys[i / 2] := List.getElem?_eq_getElem inside
          calc front ≤ keys[i / 2] := inductionHypothesis (i / 2) (by omega) parent
            _ ≤ key := heap i _ _ parent at_

/-- A sorted list is a heap. -/
theorem of_sorted
    (sorted : keys.Pairwise (· ≤ ·)) :
    IsHeap keys := by
  intro i parent child isParent isChild
  obtain ⟨_, rfl⟩ := List.getElem?_eq_some_iff.mp isParent
  obtain ⟨_, rfl⟩ := List.getElem?_eq_some_iff.mp isChild
  exact List.pairwise_iff_getElem.mp sorted _ _ _ _ (by omega)

end IsHeap

theorem isHeap_insertionSort
    {α : Type u}
    {Key : Type v}
    [LinearOrder Key]
    (key : α → Key)
    (c : List α) :
    IsHeap ((c.insertionSort fun left right => key left ≤ key right).map key) := by
  have : Std.Total fun left right : α => key left ≤ key right := ⟨fun _ _ => le_total _ _⟩
  have : IsTrans α fun left right => key left ≤ key right := ⟨fun _ _ _ => le_trans⟩
  apply IsHeap.of_sorted
  rw [List.pairwise_map]
  exact List.pairwise_insertionSort _ c

/-- `std::push_heap` and `std::pop_heap` for elements compared by a key.  The first
takes a heap with an element behind it, the second a heap that is not empty. -/
structure HeapAlgorithms {α : Type u} {Key : Type v} [LE Key] (key : α → Key) where
  pushHeap : List α → List α
  popHeap : List α → List α
  pushHeap_perm : ∀ c last, IsHeap (c.map key) → (pushHeap (c ++ [last])).Perm (c ++ [last])
  pushHeap_heap : ∀ c last, IsHeap (c.map key) → IsHeap ((pushHeap (c ++ [last])).map key)
  /-- The front is swapped to the end, and the rest made into a heap. -/
  popHeap_eq : ∀ front rest, IsHeap ((front :: rest).map key) →
    ∃ kept, popHeap (front :: rest) = kept ++ [front] ∧ kept.Perm rest ∧ IsHeap (kept.map key)

/-- Algorithms that sort the container. -/
def HeapAlgorithms.sorting {α : Type u} {Key : Type v} [LinearOrder Key] (key : α → Key) :
    HeapAlgorithms key where
  pushHeap c := c.insertionSort fun left right => key left ≤ key right
  popHeap
    | [] => []
    | front :: rest => rest.insertionSort (fun left right => key left ≤ key right) ++ [front]
  pushHeap_perm _ _ _ := List.perm_insertionSort _ _
  pushHeap_heap _ _ _ := isHeap_insertionSort key _
  popHeap_eq _ _ _ :=
    ⟨_, rfl, List.perm_insertionSort _ _, isHeap_insertionSort key _⟩

/-- A `std::priority_queue` whose top has the least key. -/
structure PriorityQueue {α : Type u} {Key : Type v} [LE Key] (key : α → Key) where
  c : List α
  heap : IsHeap (c.map key)

namespace PriorityQueue

variable {α : Type u} {Key : Type v} [LinearOrder Key] {key : α → Key}

def empty : PriorityQueue key where
  c := []
  heap := .nil

def top (queue : PriorityQueue key) : Option α := queue.c.head?

/-- `c.push_back(value)` and `push_heap`. -/
def push (algorithms : HeapAlgorithms key) (queue : PriorityQueue key) (value : α) :
    PriorityQueue key where
  c := algorithms.pushHeap (queue.c ++ [value])
  heap := algorithms.pushHeap_heap _ _ queue.heap

/-- `pop_heap` and `c.pop_back()`, of a queue that is not empty. -/
def pop (algorithms : HeapAlgorithms key) (queue : PriorityQueue key) : PriorityQueue key :=
  match queue with
  | ⟨[], heap⟩ => ⟨[], heap⟩
  | ⟨front :: rest, heap⟩ =>
      { c := (algorithms.popHeap (front :: rest)).dropLast
        heap := by
          obtain ⟨kept, popped, _, isHeap⟩ := algorithms.popHeap_eq front rest heap
          simpa [popped] using isHeap }

/-- An assignment to the element on top that leaves its key. -/
def modifyTop (queue : PriorityQueue key) (f : α → α) (kept : ∀ value, key (f value) = key value) :
    PriorityQueue key where
  c := queue.c.modifyHead f
  heap := by
    have same : (queue.c.modifyHead f).map key = queue.c.map key := by
      cases queue.c <;> simp [kept]
    rw [same]
    exact queue.heap

theorem c_of_top
    {queue : PriorityQueue key}
    {front : α}
    (onTop : queue.top = some front) :
    ∃ rest, queue.c = front :: rest :=
  List.head?_eq_some_iff.mp onTop

/-- The top is a least element. -/
theorem top_le
    {queue : PriorityQueue key}
    {front : α}
    (onTop : queue.top = some front) :
    ∀ value ∈ queue.c, key front ≤ key value := by
  obtain ⟨rest, c⟩ := c_of_top onTop
  intro value member
  obtain ⟨i, at_⟩ := List.mem_iff_getElem?.mp member
  refine queue.heap.front_le ?_ i ?_
  · simp [c]
  · simp [at_]

theorem push_perm
    (algorithms : HeapAlgorithms key)
    (queue : PriorityQueue key)
    (value : α) :
    (queue.push algorithms value).c.Perm (value :: queue.c) :=
  (algorithms.pushHeap_perm _ _ queue.heap).trans (List.perm_append_singleton _ _)

/-- `pop` removes the top, also when it was assigned to before. -/
theorem pop_perm
    (algorithms : HeapAlgorithms key)
    {queue : PriorityQueue key}
    {front : α}
    {rest : List α}
    (c : queue.c = front :: rest) :
    (queue.pop algorithms).c.Perm rest := by
  obtain ⟨all, heap⟩ := queue
  subst c
  obtain ⟨kept, popped, perm, _⟩ := algorithms.popHeap_eq front rest heap
  simpa [pop, popped] using perm

end PriorityQueue

end Lib
end Cgo
