import Cgo.Coroutine.Linked
import Cgo.Lib.Chains
import Cgo.Lib.Path
import Mathlib.Data.List.Basic
import Mathlib.Logic.Relation

/-!
# Queues in the intrusive list

The queues of channels, conditions and schedulers are two sentinels each, a head
and a tail, and what waits is linked between them.  Nothing but the pointers says
what waits in which queue.  A queue is set up by linking its tail behind its head;
then nodes come before the tail, the first goes, and any node is unlinked,
whether it waits or not.
-/

namespace Cgo
namespace Coroutine

universe u v

/-- The nodes: two sentinels for each queue and the items. -/
inductive QueueNode (Queue : Type u) (Item : Type v)
  | head (queue : Queue)
  | tail (queue : Queue)
  | item (item : Item)
  deriving DecidableEq

namespace Links

section Operations

variable {Node : Type u}

/-- `back` -/
def back (links : Links Node) (node : Node) : Option Node :=
  links.next node

variable [DecidableEq Node]

/-- `link_front` -/
def linkFront (links : Links Node) (node bx : Node) : Links Node :=
  let oldPrev := links.prev node
  let linked := ((links.setPrev node (some bx)).setPrev bx oldPrev).setNext bx (some node)
  match oldPrev with
  | some old => linked.setNext old (some bx)
  | none => linked

/-- `unlink_this`; the neighbours are written before the answer is read. -/
def unlinkThis (links : Links Node) (node : Node) : Bool × Links Node :=
  let oldPrev := links.prev node
  let oldNext := links.next node
  let left :=
    match oldPrev with
    | some old => links.setNext old oldNext
    | none => links
  let right :=
    match oldNext with
    | some old => left.setPrev old oldPrev
    | none => left
  let ok := (right.prev node).isSome || (right.next node).isSome
  (ok, (right.setPrev node none).setNext node none)

variable {links : Links Node} {node x before after : Node}

/-- Two nodes without a pointer are linked. -/
theorem linkBack_null
    (apart : x ≠ node)
    (first : links.next node = none)
    (last : links.next x = none) :
    links.linkBack node x =
      { prev := Function.update links.prev x (some node)
        next := Function.update links.next node (some x) } := by
  have stays : Function.update (Function.update links.next node (some x)) x none =
      Function.update links.next node (some x) := by
    funext other
    by_cases isLast : other = x
    · simp [isLast, apart, last]
    · simp [isLast]
  simp [linkBack, first, setPrev, setNext, stays]

/-- A node comes between another one and the one before it. -/
theorem linkFront_eq
    (prev : links.prev node = some before)
    (apart : x ≠ before) :
    links.linkFront node x =
      { prev := Function.update (Function.update links.prev node (some x)) x (some before)
        next := Function.update (Function.update links.next before (some x)) x (some node) } := by
  simp [linkFront, prev, setPrev, setNext, Function.update_comm apart]

/-- The node behind another one is unlinked. -/
theorem unlinkBack_eq
    (next : links.next node = some x)
    (behind : links.next x = some after) :
    links.unlinkBack node =
      { prev := Function.update (Function.update links.prev after (some node)) x none
        next := Function.update (Function.update links.next node (some after)) x none } := by
  simp [unlinkBack, next, behind, setPrev, setNext]

/-- There is nothing to unlink behind the last node. -/
theorem unlinkBack_null (next : links.next node = none) : links.unlinkBack node = links := by
  simp [unlinkBack, next]

/-- A node between two others is unlinked. -/
theorem unlinkThis_eq
    (prev : links.prev x = some before)
    (next : links.next x = some after) :
    links.unlinkThis x =
      (true,
        { prev := Function.update (Function.update links.prev after (some before)) x none
          next := Function.update (Function.update links.next before (some after)) x none }) := by
  have answer : (Function.update links.prev after (some before) x).isSome := by
    by_cases same : x = after
    · simp [same]
    · simp [same, prev]
  simp [unlinkThis, prev, next, setPrev, setNext, answer]

/-- A node without pointers is unlinked already. -/
theorem unlinkThis_null
    (prev : links.prev x = none)
    (next : links.next x = none) :
    links.unlinkThis x = (false, links) := by
  have prevStays : Function.update links.prev x none = links.prev := by
    rw [← prev, Function.update_eq_self]
  have nextStays : Function.update links.next x none = links.next := by
    rw [← next, Function.update_eq_self]
  simp [unlinkThis, setPrev, setNext, prev, next, prevStays, nextStays]

end Operations

end Links

/-! ## Operations on queues -/

/-- What the library does with queues and items. -/
inductive QueueOperation (Queue : Type u) (Item : Type v)
  /-- `head.link_back(&tail)` -/
  | setUp (queue : Queue)
  /-- `tail.link_front(item)` -/
  | linkFront (queue : Queue) (item : Item)
  /-- `head.unlink_back()` -/
  | unlinkBack (queue : Queue)
  /-- `item.unlink_this()` -/
  | unlinkThis (item : Item)
  deriving DecidableEq

variable {Queue : Type u} {Item : Type v}

section Steps

variable [DecidableEq Queue] [DecidableEq Item]

namespace Links

/-- One operation on the pointers.  A queue is set up once, an item that is linked
has no pointers, and the first node is taken unless it is the tail. -/
def step (links : Links (QueueNode Queue Item)) :
    QueueOperation Queue Item → Option (Links (QueueNode Queue Item))
  | .setUp queue =>
      if links.back (.head queue) = none then
        some (links.linkBack (.head queue) (.tail queue))
      else none
  | .linkFront queue item =>
      if links.front (.tail queue) ≠ none ∧
          links.front (.item item) = none ∧ links.back (.item item) = none then
        some (links.linkFront (.tail queue) (.item item))
      else none
  | .unlinkBack queue =>
      if links.back (.head queue) ≠ some (.tail queue) then
        some (links.unlinkBack (.head queue))
      else none
  | .unlinkThis item => some (links.unlinkThis (.item item)).2

/-- The same without the checks, of which the source has none. -/
def operate (links : Links (QueueNode Queue Item)) :
    QueueOperation Queue Item → Links (QueueNode Queue Item)
  | .setUp queue => links.linkBack (.head queue) (.tail queue)
  | .linkFront queue item => links.linkFront (.tail queue) (.item item)
  | .unlinkBack queue => links.unlinkBack (.head queue)
  | .unlinkThis item => (links.unlinkThis (.item item)).2

/-- A checked operation that goes through is the operation. -/
theorem operate_of_step
    {links changed : Links (QueueNode Queue Item)}
    {operation : QueueOperation Queue Item}
    (stepped : links.step operation = some changed) :
    links.operate operation = changed := by
  cases operation with
  | setUp queue => exact Option.some.inj (Option.ite_none_right_eq_some.mp stepped).2
  | linkFront queue item => exact Option.some.inj (Option.ite_none_right_eq_some.mp stepped).2
  | unlinkBack queue => exact Option.some.inj (Option.ite_none_right_eq_some.mp stepped).2
  | unlinkThis item => exact Option.some.inj stepped

end Links

/-! ## Sequences -/

variable (Queue Item) in
/-- What waits in each queue, the oldest first; `none` before it is set up. -/
abbrev Sequences :=
  Queue → Option (List Item)

namespace Sequences

variable (queues : Sequences Queue Item)

omit [DecidableEq Queue] [DecidableEq Item] in
/-- The item waits nowhere. -/
def Unlinked (item : Item) : Prop :=
  ∀ queue items, queues queue = some items → item ∉ items

omit [DecidableEq Queue] [DecidableEq Item] in
/-- The library may do this. -/
def Permitted : QueueOperation Queue Item → Prop
  | .setUp queue => queues queue = none
  | .linkFront queue item => (queues queue).isSome ∧ queues.Unlinked item
  | .unlinkBack queue => queues queue ≠ some []
  | .unlinkThis _ => True

/-- Items are appended at the end, taken from the front, and taken out. -/
def apply : QueueOperation Queue Item → Sequences Queue Item
  | .setUp queue => Function.update queues queue (some [])
  | .linkFront queue item =>
      Function.update queues queue ((queues queue).map fun items => items ++ [item])
  | .unlinkBack queue => Function.update queues queue ((queues queue).map List.tail)
  | .unlinkThis item => fun queue => (queues queue).map fun items => items.erase item

/-- The sequences after the operations. -/
def after (operations : List (QueueOperation Queue Item)) : Sequences Queue Item :=
  operations.foldl apply fun _ => none

end Sequences

end Steps

/-! ## The chains of the queues -/

/-- The nodes of a queue, from its head to its tail. -/
def nodes (queue : Queue) : Option (List Item) → List (QueueNode Queue Item)
  | none => []
  | some items => .head queue :: (items.map .item ++ [.tail queue])

section Nodes

variable {queue other : Queue} {waiting : Option (List Item)} {x : Item}

theorem head_mem_nodes :
    .head other ∈ nodes queue waiting ↔ other = queue ∧ waiting.isSome := by
  cases waiting with
  | none => simp [nodes]
  | some items => simp [nodes]

theorem tail_mem_nodes :
    .tail other ∈ nodes queue waiting ↔ other = queue ∧ waiting.isSome := by
  cases waiting with
  | none => simp [nodes]
  | some items => simp [nodes]

theorem item_mem_nodes :
    .item x ∈ nodes queue waiting ↔ ∃ items, waiting = some items ∧ x ∈ items := by
  cases waiting with
  | none => simp [nodes]
  | some items => simp [nodes]

/-- The chains after the change of one queue. -/
theorem nodes_update
    [DecidableEq Queue]
    (queues : Sequences Queue Item)
    (queue : Queue)
    (waiting : Option (List Item)) :
    (fun other => nodes other (Function.update queues queue waiting other)) =
      Function.update (fun other => nodes other (queues other)) queue (nodes queue waiting) := by
  funext other
  exact Function.apply_update nodes queues queue waiting other

/-- The node before what comes behind some items. -/
theorem exists_before (queue : Queue) (items : List Item) :
    ∃ before a, QueueNode.head queue :: items.map .item = before ++ [a] :=
  ⟨_, _, (List.dropLast_append_getLast (List.cons_ne_nil _ _)).symm⟩

/-- The node after what comes before some items. -/
theorem exists_after (queue : Queue) (items : List Item) :
    ∃ b after, items.map QueueNode.item ++ [.tail queue] = b :: after := by
  cases items with
  | nil => exact ⟨_, _, rfl⟩
  | cons first rest => exact ⟨_, _, rfl⟩

/-- The node before the tail, and the chain with an item between them. -/
theorem exists_last (queue : Queue) (items : List Item) :
    ∃ before a,
      .head queue :: items.map .item = before ++ [a] ∧
        nodes queue (some items) = before ++ a :: [.tail queue] ∧
          ∀ x, nodes queue (some (items ++ [x])) = before ++ a :: .item x :: [.tail queue] := by
  obtain ⟨before, a, split⟩ := exists_before queue items
  refine ⟨before, a, split, ?_, ?_⟩
  · rw [nodes, ← List.cons_append, split]
    simp
  · intro x
    rw [nodes, List.map_append, ← List.cons_append, ← List.cons_append, split]
    simp

/-- An item between two nodes, and the chain without it. -/
theorem exists_neighbours (queue : Queue) (earlier later : List Item) (x : Item) :
    ∃ before a b after,
      nodes queue (some (earlier ++ x :: later)) = before ++ a :: .item x :: b :: after ∧
        nodes queue (some (earlier ++ later)) = before ++ a :: b :: after := by
  obtain ⟨before, a, splitBefore⟩ := exists_before queue earlier
  obtain ⟨b, after, splitAfter⟩ := exists_after queue later
  refine ⟨before, a, b, after, ?_, ?_⟩
  · calc nodes queue (some (earlier ++ x :: later))
        = (.head queue :: earlier.map .item) ++
            .item x :: (later.map .item ++ [.tail queue]) := by simp [nodes]
      _ = before ++ a :: .item x :: b :: after := by simp [splitBefore, splitAfter]
  · calc nodes queue (some (earlier ++ later))
        = (.head queue :: earlier.map .item) ++ (later.map .item ++ [.tail queue]) := by
          simp [nodes]
      _ = before ++ a :: b :: after := by simp [splitBefore, splitAfter]

end Nodes

namespace Links

/-- The pointers are one chain from head to tail for each queue that is set up, with
its items in between, and nothing else. -/
def Represents (links : Links (QueueNode Queue Item)) (queues : Sequences Queue Item) : Prop :=
  Lib.Chained links.prev links.next fun queue => nodes queue (queues queue)

namespace Represents

variable {links : Links (QueueNode Queue Item)} {queues : Sequences Queue Item}
variable {queue : Queue} {items earlier later : List Item} {x : Item}

theorem empty : (Links.empty : Links (QueueNode Queue Item)).Represents fun _ => none :=
  Lib.Chained.empty

/-- The sentinels of a queue that is not set up are in no chain. -/
theorem head_not_mem_nodes (new : queues queue = none) (other : Queue) :
    .head queue ∉ nodes other (queues other) := by
  rw [head_mem_nodes]
  rintro ⟨rfl, isSetUp⟩
  simp [new] at isSetUp

theorem tail_not_mem_nodes (new : queues queue = none) (other : Queue) :
    .tail queue ∉ nodes other (queues other) := by
  rw [tail_mem_nodes]
  rintro ⟨rfl, isSetUp⟩
  simp [new] at isSetUp

/-- Unlinked items are in no chain. -/
theorem item_not_mem_nodes (unlinked : queues.Unlinked x) (queue : Queue) :
    .item x ∉ nodes queue (queues queue) := by
  rw [item_mem_nodes]
  rintro ⟨items, waiting, member⟩
  exact unlinked queue items waiting member

/-- Unlinked items have no pointers. -/
theorem item_null
    (represents : links.Represents queues)
    (unlinked : queues.Unlinked x) :
    links.prev (.item x) = none ∧ links.next (.item x) = none :=
  represents.free (item_not_mem_nodes unlinked)

/-- Behind the head comes what is first, or the tail. -/
theorem next_head
    (represents : links.Represents queues)
    (waiting : queues queue = some items) :
    links.next (.head queue) = (items.map QueueNode.item ++ [QueueNode.tail queue]).head? := by
  obtain ⟨b, after, split⟩ := exists_after queue items
  have here : nodes queue (queues queue) = [] ++ .head queue :: b :: after := by
    simp [waiting, nodes, split]
  rw [split]
  exact (represents.neighbours here).1

/-- Before the tail comes what is last, or the head. -/
theorem prev_tail
    (represents : links.Represents queues)
    (waiting : queues queue = some items) :
    links.prev (.tail queue) = (QueueNode.head queue :: items.map QueueNode.item).getLast? := by
  obtain ⟨before, a, split, here, _⟩ := exists_last queue items
  rw [← waiting] at here
  rw [split, List.getLast?_concat]
  exact (represents.neighbours here).2

/-- An item waits once in a queue. -/
theorem items_nodup
    (represents : links.Represents queues)
    (waiting : queues queue = some items) :
    items.Nodup := by
  have nodup := (represents.doubly queue).nodup
  rw [waiting, nodes, List.nodup_cons, List.nodup_append] at nodup
  exact nodup.2.1.of_map

/-- An item waits in one queue. -/
theorem same_queue
    {other : Queue}
    {others : List Item}
    (represents : links.Represents queues)
    (waiting : queues queue = some items)
    (elsewhere : queues other = some others)
    (here : x ∈ items)
    (there : x ∈ others) :
    queue = other :=
  represents.disjoint (a := .item x)
    (item_mem_nodes.mpr ⟨items, waiting, here⟩)
    (item_mem_nodes.mpr ⟨others, elsewhere, there⟩)

/-! ### What the pointers tell -/

/-- A queue is set up when its head has a pointer. -/
theorem back_head_eq_none (represents : links.Represents queues) :
    links.back (.head queue) = none ↔ queues queue = none := by
  constructor
  · intro null
    cases waiting : queues queue with
    | none => rfl
    | some items =>
        rw [back, represents.next_head waiting, List.head?_eq_none_iff] at null
        simp at null
  · intro new
    exact (represents.free (head_not_mem_nodes new)).2

/-- And when its tail has one. -/
theorem front_tail_eq_none (represents : links.Represents queues) :
    links.front (.tail queue) = none ↔ queues queue = none := by
  constructor
  · intro null
    cases waiting : queues queue with
    | none => rfl
    | some items =>
        rw [front, represents.prev_tail waiting, List.getLast?_eq_none_iff] at null
        simp at null
  · intro new
    exact (represents.free (tail_not_mem_nodes new)).1

/-- Nothing waits when the tail is behind the head. -/
theorem back_head_eq_tail (represents : links.Represents queues) :
    links.back (.head queue) = some (.tail queue) ↔ queues queue = some [] := by
  cases waiting : queues queue with
  | none => simp [represents.back_head_eq_none.mpr waiting]
  | some items =>
      rw [back, represents.next_head waiting]
      cases items with
      | nil => simp
      | cons first rest => simp

/-- An item waits unless it has no pointers. -/
theorem item_eq_none (represents : links.Represents queues) :
    (links.front (.item x) = none ∧ links.back (.item x) = none) ↔ queues.Unlinked x := by
  constructor
  · intro null queue items waiting member
    obtain ⟨earlier, later, rfl⟩ := List.append_of_mem member
    obtain ⟨before, a, b, after, here, _⟩ := exists_neighbours queue earlier later x
    rw [← waiting] at here
    have prev := (represents.neighbours here).2
    simp [front, prev] at null
  · intro unlinked
    exact represents.item_null unlinked

variable [DecidableEq Queue] [DecidableEq Item]

/-- The pointers decide what the library may do. -/
theorem isSome_step (represents : links.Represents queues) :
    ∀ operation, (links.step operation).isSome ↔ queues.Permitted operation := by
  intro operation
  cases operation with
  | setUp queue =>
      simp [step, Sequences.Permitted, represents.back_head_eq_none]
  | linkFront queue item =>
      simp [step, Sequences.Permitted, represents.front_tail_eq_none, represents.item_eq_none,
        Option.isSome_iff_ne_none]
  | unlinkBack queue =>
      simp [step, Sequences.Permitted, represents.back_head_eq_tail]
  | unlinkThis item => simp [step, Sequences.Permitted]

/-! ### The operations -/

/-- A queue is set up. -/
theorem setUp
    (represents : links.Represents queues)
    (new : queues queue = none) :
    (links.linkBack (.head queue) (.tail queue)).Represents (queues.apply (.setUp queue)) := by
  have headFree := head_not_mem_nodes new
  have tailFree := tail_not_mem_nodes new
  have headNull := represents.free headFree
  have tailNull := represents.free tailFree
  have here : nodes queue (queues queue) = [] := by simp [new, nodes]
  rw [linkBack_null (by simp) headNull.2 tailNull.2]
  unfold Represents Sequences.apply
  rw [nodes_update]
  exact represents.start here (by simp) headFree tailFree

/-- An unlinked item is appended. -/
theorem linkFront
    (represents : links.Represents queues)
    (waiting : queues queue = some items)
    (unlinked : queues.Unlinked x) :
    (links.linkFront (.tail queue) (.item x)).Represents
      (queues.apply (.linkFront queue x)) := by
  obtain ⟨before, a, _, here, appended⟩ := exists_last queue items
  rw [← waiting] at here
  have apart : .item x ≠ a := by
    rintro rfl
    exact item_not_mem_nodes unlinked queue (by simp [here])
  rw [linkFront_eq (represents.neighbours here).2 apart]
  unfold Represents Sequences.apply
  rw [nodes_update, waiting, Option.map_some, appended]
  exact represents.insert here (item_not_mem_nodes unlinked)

/-- The first item is taken. -/
theorem unlinkBack
    (represents : links.Represents queues)
    (waiting : queues queue = some (x :: items)) :
    (links.unlinkBack (.head queue)).Represents (queues.apply (.unlinkBack queue)) := by
  obtain ⟨b, after, split⟩ := exists_after queue items
  have here : nodes queue (queues queue) = [] ++ .head queue :: .item x :: b :: after := by
    simp [waiting, nodes, split]
  have taken : nodes queue (some items) = [] ++ .head queue :: b :: after := by
    simp [nodes, split]
  have behind : nodes queue (queues queue) = [.head queue] ++ .item x :: b :: after := here
  rw [unlinkBack_eq (represents.neighbours here).1
    (represents.neighbours behind).1]
  unfold Represents Sequences.apply
  rw [nodes_update, waiting, Option.map_some, List.tail_cons, taken]
  exact represents.remove here

/-- Taking out an item changes the queue it waits in and no other. -/
theorem unlink_eq
    (represents : links.Represents queues)
    (waiting : queues queue = some (earlier ++ x :: later)) :
    queues.apply (.unlinkThis x) =
      Function.update queues queue (some (earlier ++ later)) := by
  funext other
  by_cases same : other = queue
  · have once : x ∉ earlier := by
      have nodup := represents.items_nodup waiting
      rw [List.nodup_middle, List.nodup_cons] at nodup
      exact fun member => nodup.1 (List.mem_append_left _ member)
    simp [Sequences.apply, same, waiting, List.erase_append_right _ once]
  · rw [Function.update_of_ne same]
    cases elsewhere : queues other with
    | none => simp [Sequences.apply, elsewhere]
    | some items =>
        have absent : x ∉ items := by
          intro member
          exact same (represents.same_queue elsewhere waiting member (by simp))
        simp [Sequences.apply, elsewhere, List.erase_of_not_mem absent]

/-- An item is taken out of the queue it waits in. -/
theorem unlinkThis
    (represents : links.Represents queues)
    (waiting : queues queue = some (earlier ++ x :: later)) :
    (links.unlinkThis (.item x)).1 = true ∧
      (links.unlinkThis (.item x)).2.Represents (queues.apply (.unlinkThis x)) := by
  obtain ⟨before, a, b, after, here, without⟩ := exists_neighbours queue earlier later x
  rw [← waiting] at here
  have behind : nodes queue (queues queue) = (before ++ [a]) ++ .item x :: b :: after := by
    simp [here]
  rw [unlinkThis_eq (represents.neighbours here).2
    (represents.neighbours behind).1, represents.unlink_eq waiting]
  unfold Represents
  rw [nodes_update, without]
  exact ⟨rfl, represents.remove here⟩

/-- Taking out an item that is unlinked changes nothing. -/
theorem unlinkThis_unlinked
    (represents : links.Represents queues)
    (unlinked : queues.Unlinked x) :
    links.unlinkThis (.item x) = (false, links) ∧ queues.apply (.unlinkThis x) = queues := by
  have null := represents.item_null unlinked
  refine ⟨unlinkThis_null null.1 null.2, ?_⟩
  funext queue
  cases waiting : queues queue with
  | none => simp [Sequences.apply, waiting]
  | some items =>
      simp [Sequences.apply, waiting, List.erase_of_not_mem (unlinked queue items waiting)]

/-- Every operation on the pointers is that on the sequences. -/
theorem step
    {operation : QueueOperation Queue Item}
    {changed : Links (QueueNode Queue Item)}
    (represents : links.Represents queues)
    (stepped : links.step operation = some changed) :
    changed.Represents (queues.apply operation) := by
  have permitted := (represents.isSome_step operation).mp (by simp [stepped])
  cases operation with
  | setUp queue =>
      obtain ⟨_, ⟨⟩⟩ := Option.ite_none_right_eq_some.mp stepped
      exact represents.setUp permitted
  | linkFront queue item =>
      obtain ⟨_, ⟨⟩⟩ := Option.ite_none_right_eq_some.mp stepped
      obtain ⟨items, waiting⟩ := Option.isSome_iff_exists.mp permitted.1
      exact represents.linkFront waiting permitted.2
  | unlinkBack queue =>
      obtain ⟨_, ⟨⟩⟩ := Option.ite_none_right_eq_some.mp stepped
      cases waiting : queues queue with
      | none =>
          have isNull := represents.back_head_eq_none.mpr waiting
          have same : queues.apply (.unlinkBack queue) = queues := by
            rw [Sequences.apply, waiting, Option.map_none, ← waiting, Function.update_eq_self]
          rwa [unlinkBack_null isNull, same]
      | some items =>
          cases items with
          | nil => exact absurd waiting permitted
          | cons first rest => exact represents.unlinkBack waiting
  | unlinkThis x =>
      obtain ⟨⟩ := stepped
      by_cases unlinked : queues.Unlinked x
      · rw [(represents.unlinkThis_unlinked unlinked).1,
          (represents.unlinkThis_unlinked unlinked).2]
        exact represents
      · obtain ⟨queue, items, waiting, member⟩ : ∃ queue items,
            queues queue = some items ∧ x ∈ items := by
          simpa [Sequences.Unlinked] using unlinked
        obtain ⟨earlier, later, rfl⟩ := List.append_of_mem member
        exact (represents.unlinkThis waiting).2

end Represents

/-- The pointers when all queues are set up and nothing waits. -/
def ready : Links (QueueNode Queue Item) where
  prev
    | .tail queue => some (.head queue)
    | _ => none
  next
    | .head queue => some (.tail queue)
    | _ => none

theorem ready_represents :
    (ready : Links (QueueNode Queue Item)).Represents fun _ => some [] where
  doubly := by
    intro queue
    refine ⟨List.isChain_pair.mpr ⟨rfl, rfl⟩, ?_, ?_, ?_⟩
    · simp [nodes, ready]
    · simp [nodes, ready]
    · simp [nodes]
  disjoint := by
    intro left right node inLeft inRight
    cases node with
    | head queue =>
        rw [← (head_mem_nodes.mp inLeft).1, ← (head_mem_nodes.mp inRight).1]
    | tail queue =>
        rw [← (tail_mem_nodes.mp inLeft).1, ← (tail_mem_nodes.mp inRight).1]
    | item x => simp [nodes] at inLeft
  free := by
    intro node absent
    cases node with
    | head queue => exact absurd (head_mem_nodes.mpr ⟨rfl, rfl⟩) (absent queue)
    | tail queue => exact absurd (tail_mem_nodes.mpr ⟨rfl, rfl⟩) (absent queue)
    | item x => exact ⟨rfl, rfl⟩

section Runs

variable [DecidableEq Queue] [DecidableEq Item]
variable {links : Links (QueueNode Queue Item)}
variable {taken : List
  (Lib.Transition (Links (QueueNode Queue Item)) (QueueOperation Queue Item))}

/-- What the sequences permit can be done on the pointers without any check. -/
theorem Represents.operate
    {queues : Sequences Queue Item}
    {operation : QueueOperation Queue Item}
    (represents : links.Represents queues)
    (permitted : queues.Permitted operation) :
    (links.operate operation).Represents (queues.apply operation) := by
  obtain ⟨changed, stepped⟩ :=
    Option.isSome_iff_exists.mp ((represents.isSome_step operation).mpr permitted)
  rw [operate_of_step stepped]
  exact represents.step stepped

/-- What was taken from a queue is unlinked. -/
theorem Represents.unlinked_of_taken
    {queues : Sequences Queue Item}
    {queue : Queue}
    {x : Item}
    {items : List Item}
    (represents : links.Represents queues)
    (waiting : queues queue = some (x :: items)) :
    (queues.apply (.unlinkBack queue)).Unlinked x := by
  intro other others elsewhere member
  by_cases same : other = queue
  · subst same
    obtain rfl : items = others := by simpa [Sequences.apply, waiting] using elsewhere
    exact (List.nodup_cons.mp (represents.items_nodup waiting)).1 member
  · rw [Sequences.apply, Function.update_of_ne same] at elsewhere
    exact same (represents.same_queue elsewhere waiting member List.mem_cons_self)

/-- After every run the pointers are the sequences of its operations. -/
theorem represents_after
    (path : Lib.Path step Links.empty taken links) :
    links.Represents (Sequences.after (taken.map Lib.Transition.label)) := by
  induction path with
  | nil => exact Represents.empty
  | snoc _ stepped inductionHypothesis =>
      rw [List.map_append, Sequences.after, List.foldl_append]
      exact inductionHypothesis.step stepped

/-- The intrusive list implements sequences: after every run each queue is one chain
from its head to its tail around what was appended and not yet taken, no node is in
two chains, all others have no pointers; the pointers permit what the sequences
permit, and an unlinked item is unlinked without any change. -/
theorem queues_of_operations
    (path : Lib.Path step Links.empty taken links) :
    let queues := Sequences.after (taken.map Lib.Transition.label)
    links.Represents queues ∧
      (∀ operation, (links.step operation).isSome ↔ queues.Permitted operation) ∧
        ∀ item, queues.Unlinked item → links.unlinkThis (.item item) = (false, links) := by
  have represents := represents_after path
  exact ⟨represents, represents.isSome_step, fun item unlinked =>
    (represents.unlinkThis_unlinked unlinked).1⟩

/-- Two queues and three items, one of which is taken out, comes again and waits
behind the one that is taken from the front and taken out once more. -/
def sampleOperations : List (QueueOperation Bool Nat) :=
  [.setUp true, .linkFront true 71, .setUp false, .linkFront true 72, .linkFront false 73,
    .unlinkThis 71, .linkFront true 71, .unlinkBack true, .unlinkThis 72]

theorem queues_of_operations_sample :
    let taken := Lib.trace step Links.empty sampleOperations
    let queues := Sequences.after (taken.map Lib.Transition.label)
    let links := Lib.runFrom step Links.empty sampleOperations
    (queues true = some [71] ∧ queues false = some [73]) ∧
      links.Represents queues ∧
        (∀ operation, (links.step operation).isSome ↔ queues.Permitted operation) ∧
          ∀ item, queues.Unlinked item → links.unlinkThis (.item item) = (false, links) :=
  ⟨by decide, queues_of_operations (Lib.path_runFrom (by decide))⟩

end Runs

end Links

end Coroutine
end Cgo
