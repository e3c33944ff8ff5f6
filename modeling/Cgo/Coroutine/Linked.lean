import Mathlib.Data.List.Nodup
import Mathlib.Logic.Function.Basic

/-!
# The intrusive list

`BaseLinked`: every node has a `_prev` and a `_next` pointer, and the lists of
the source are nothing but these pointers.  The operations here are those of
the call stack, which grows and shrinks behind its last node.
-/

namespace Cgo
namespace Coroutine

universe u

/-- The `_prev` and `_next` pointers of all nodes. -/
structure Links (Node : Type u) where
  prev : Node → Option Node
  next : Node → Option Node

namespace Links

variable {Node : Type u}

/-- No node is linked. -/
def empty : Links Node where
  prev := fun _ => none
  next := fun _ => none

/-- `front` -/
def front (links : Links Node) (node : Node) : Option Node :=
  links.prev node

variable [DecidableEq Node]

/-- The pointers after an assignment to `_prev` of a node. -/
def setPrev (links : Links Node) (node : Node) (target : Option Node) : Links Node :=
  { links with prev := Function.update links.prev node target }

/-- The pointers after an assignment to `_next` of a node. -/
def setNext (links : Links Node) (node : Node) (target : Option Node) : Links Node :=
  { links with next := Function.update links.next node target }

/-- The pointers of a new node. -/
def create (links : Links Node) (node : Node) : Links Node :=
  (links.setPrev node none).setNext node none

/-- `link_back` -/
def linkBack (links : Links Node) (node bx : Node) : Links Node :=
  let oldNext := links.next node
  let linked := ((links.setNext node (some bx)).setNext bx oldNext).setPrev bx (some node)
  match oldNext with
  | some old => linked.setPrev old (some bx)
  | none => linked

/-- `unlink_back`; the node that is unlinked is `_next` before the call. -/
def unlinkBack (links : Links Node) (node : Node) : Links Node :=
  match links.next node with
  | none => links
  | some x =>
      let newNext := links.next x
      let unlinked := links.setNext node newNext
      let relinked :=
        match newNext with
        | some after => unlinked.setPrev after (some node)
        | none => unlinked
      (relinked.setPrev x none).setNext x none

section Last

variable {links : Links Node} {top below callee : Node}

/-- A node is linked behind the last one: the pointers. -/
theorem prev_linkBack (last : links.next top = none) :
    (links.linkBack top callee).prev = Function.update links.prev callee (some top) := by
  simp [linkBack, last, setPrev, setNext]

theorem next_linkBack (last : links.next top = none) :
    (links.linkBack top callee).next =
      Function.update (Function.update links.next top (some callee)) callee none := by
  simp [linkBack, last, setPrev, setNext]

/-- The last node is unlinked: the pointers. -/
theorem prev_unlinkBack (up : links.next below = some top) (last : links.next top = none) :
    (links.unlinkBack below).prev = Function.update links.prev top none := by
  simp [unlinkBack, up, last, setPrev, setNext]

theorem next_unlinkBack (up : links.next below = some top) (last : links.next top = none) :
    (links.unlinkBack below).next =
      Function.update (Function.update links.next below none) top none := by
  simp [unlinkBack, up, last, setPrev, setNext]

end Last

/-! ## Stacks -/

omit [DecidableEq Node] in
/-- The nodes, from the last to the first, are linked to one another and to no
other node before them. -/
def Stacked (links : Links Node) : List Node → Prop
  | [] => True
  | [bottom] => links.prev bottom = none
  | top :: below :: rest =>
      links.prev top = some below ∧ links.next below = some top ∧
        links.Stacked (below :: rest)

omit [DecidableEq Node] in
/-- The pointers of the nodes below the last one decide. -/
theorem Stacked.congr
    {before after : Links Node}
    {top : Node}
    {rest : List Node}
    (stacked : before.Stacked (top :: rest))
    (prev : ∀ node ∈ top :: rest, after.prev node = before.prev node)
    (next : ∀ node ∈ rest, after.next node = before.next node) :
    after.Stacked (top :: rest) := by
  induction rest generalizing top with
  | nil =>
      have bottom : before.prev top = none := stacked
      exact (prev top List.mem_cons_self).trans bottom
  | cons below rest inductionHypothesis =>
      obtain ⟨down, up, stacked⟩ := stacked
      refine ⟨?_, ?_, ?_⟩
      · rw [prev top List.mem_cons_self, down]
      · rw [next below List.mem_cons_self, up]
      · exact inductionHypothesis stacked
          (fun node member => prev node (List.mem_cons_of_mem _ member))
          (fun node member => next node (List.mem_cons_of_mem _ member))

/-- A node is linked behind the last one. -/
theorem Stacked.linkBack
    {links : Links Node}
    {top callee : Node}
    {rest : List Node}
    (stacked : links.Stacked (top :: rest))
    (last : links.next top = none)
    (nodup : (top :: rest).Nodup)
    (fresh : callee ∉ top :: rest) :
    (links.linkBack top callee).Stacked (callee :: top :: rest) ∧
      (links.linkBack top callee).next callee = none := by
  have apart : ∀ node ∈ top :: rest, node ≠ callee := by
    rintro node member rfl
    exact fresh member
  simp only [Links.linkBack, last]
  refine ⟨⟨?_, ?_, ?_⟩, ?_⟩
  · simp [setPrev]
  · simp [setPrev, setNext, apart top List.mem_cons_self]
  · refine stacked.congr (fun node member => ?_) fun node member => ?_
    · simp [setPrev, setNext, apart node member]
    · have below : node ≠ top := by
        rintro rfl
        exact (List.nodup_cons.mp nodup).1 member
      simp [setPrev, setNext, below, apart node (List.mem_cons_of_mem _ member)]
  · simp [setPrev, setNext]

/-- The last node is unlinked. -/
theorem Stacked.unlinkBack
    {links : Links Node}
    {top below : Node}
    {rest : List Node}
    (stacked : links.Stacked (top :: below :: rest))
    (last : links.next top = none)
    (nodup : (top :: below :: rest).Nodup) :
    (links.unlinkBack below).Stacked (below :: rest) ∧
      (links.unlinkBack below).next below = none := by
  obtain ⟨down, up, stacked⟩ := stacked
  obtain ⟨absent, nodupBelow⟩ := List.nodup_cons.mp nodup
  have apart : ∀ node ∈ below :: rest, node ≠ top := by
    rintro node member rfl
    exact absent member
  simp only [Links.unlinkBack, up, last]
  refine ⟨stacked.congr (fun node member => ?_) fun node member => ?_, ?_⟩
  · simp [setPrev, setNext, apart node member]
  · have under : node ≠ below := by
      rintro rfl
      exact (List.nodup_cons.mp nodupBelow).1 member
    simp [setPrev, setNext, under, apart node (List.mem_cons_of_mem _ member)]
  · simp [setPrev, setNext, apart below List.mem_cons_self]

end Links

end Coroutine
end Cgo
