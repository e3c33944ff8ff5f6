import Cgo.Lib.Path
import Mathlib.Data.List.Basic

/-!
# Queues along a path

A queue is a list that every transition appends to at its end and takes from at
its front, at most one element each.  Along a path the elements that leave are
then those that came, in the order they came, and an element that enters is
overtaken by nobody: what leaves before it is what stood in front of it.
-/

namespace Cgo
namespace Lib

universe u v w

section

variable {State : Type u} {Label : Type v} {α : Type w}
variable (queue : State → List α)
variable (pushed popped : Transition State Label → Option α)

/-- The transition appends what it pushes and takes what it pops from the front. -/
def FirstInFirstOut (transition : Transition State Label) : Prop :=
  queue transition.before ++ (pushed transition).toList =
    (popped transition).toList ++ queue transition.after

/-- The transition may also take elements out of the middle. -/
def InOrder (transition : Transition State Label) : Prop :=
  ((popped transition).toList ++ queue transition.after).Sublist
    (queue transition.before ++ (pushed transition).toList)

variable {queue pushed popped}

theorem FirstInFirstOut.inOrder
    {transition : Transition State Label}
    (firstInFirstOut : FirstInFirstOut queue pushed popped transition) :
    InOrder queue pushed popped transition := by
  rw [InOrder, firstInFirstOut]

end

namespace Path

variable {State : Type u} {Label : Type v} {α : Type w}
variable {step : State → Label → Option State} {start final : State}
variable {taken : List (Transition State Label)}
variable {queue : State → List α} {pushed popped : Transition State Label → Option α}

/-- What stood in the queue and what was pushed is what was popped and what stands
there now. -/
theorem queue_eq
    (path : Path step start taken final)
    (each : ∀ transition ∈ taken, FirstInFirstOut queue pushed popped transition) :
    queue start ++ taken.filterMap pushed = taken.filterMap popped ++ queue final := by
  induction path with
  | nil => simp
  | @snoc taken before after label prior stepped inductionHypothesis =>
      have last := each ⟨before, label, after⟩ (by simp)
      have earlier := inductionHypothesis fun transition member =>
        each transition (List.mem_append_left _ member)
      simp only [FirstInFirstOut] at last
      simp only [List.filterMap_eq_flatMap_toList, List.flatMap_append,
        List.flatMap_singleton] at earlier ⊢
      rw [← List.append_assoc, earlier, List.append_assoc, last, List.append_assoc]

/-- While an element waits, exactly those in front of it are popped. -/
theorem popped_between
    {element : α}
    {ahead behind rest : List α}
    (path : Path step start taken final)
    (each : ∀ transition ∈ taken, FirstInFirstOut queue pushed popped transition)
    (queued : queue start = ahead ++ element :: behind)
    (absent : element ∉ ahead)
    (front : queue final = element :: rest)
    (waits : element ∉ taken.filterMap popped) :
    taken.filterMap popped = ahead := by
  have same := path.queue_eq each
  rw [queued, front, List.append_assoc, List.cons_append] at same
  rcases List.append_eq_append_iff.mp same with ⟨more, split, tail⟩ | ⟨more, split, tail⟩
  · cases more with
    | nil => simpa using split
    | cons head others =>
        obtain ⟨rfl, _⟩ := List.cons.inj tail
        exact absurd (by simp [split]) waits
  · cases more with
    | nil => simpa using split.symm
    | cons head others =>
        obtain ⟨rfl, _⟩ := List.cons.inj tail
        exact absurd (by simp [split]) absent

/-- Between the push of an element and its next pop exactly those that were queued at the
push are popped. -/
theorem popped_between_push
    {element : α}
    {earlier between later : List (Transition State Label)}
    {push pop : Transition State Label}
    (path : Path step start (earlier ++ push :: (between ++ pop :: later)) final)
    (each : ∀ transition ∈ earlier ++ push :: (between ++ pop :: later),
      FirstInFirstOut queue pushed popped transition)
    (pushes : pushed push = some element)
    (quiet : popped push = none)
    (fresh : element ∉ queue push.before)
    (pops : popped pop = some element)
    (still : pushed pop = none)
    (waits : element ∉ between.filterMap popped) :
    between.filterMap popped = queue push.before := by
  obtain ⟨_, _, fromPush⟩ := path.of_append
  obtain ⟨rfl, _, afterPush⟩ := fromPush.of_cons
  obtain ⟨_, middle, fromPop⟩ := afterPush.of_append
  obtain ⟨rfl, _, _⟩ := fromPop.of_cons
  have queued : queue push.after = queue push.before ++ [element] := by
    have onPush := each push (by simp)
    simpa [FirstInFirstOut, pushes, quiet] using onPush.symm
  have front : queue pop.before = element :: queue pop.after := by
    have onPop := each pop (by simp)
    simpa [FirstInFirstOut, pops, still] using onPop
  exact middle.popped_between (fun transition member => each transition (by simp [member]))
    queued fresh front waits

/-- What was popped and what stands in the queue entered it in that order, whatever was
taken out of the middle. -/
theorem queue_sublist
    (path : Path step start taken final)
    (each : ∀ transition ∈ taken, InOrder queue pushed popped transition) :
    (taken.filterMap popped ++ queue final).Sublist
      (queue start ++ taken.filterMap pushed) := by
  induction path with
  | nil => simp
  | @snoc taken before after label prior stepped inductionHypothesis =>
      have last := each ⟨before, label, after⟩ (by simp)
      have earlier := inductionHypothesis fun transition member =>
        each transition (List.mem_append_left _ member)
      simp only [InOrder] at last
      simp only [List.filterMap_eq_flatMap_toList, List.flatMap_append,
        List.flatMap_singleton] at earlier ⊢
      rw [List.append_assoc, ← List.append_assoc (queue start)]
      refine (last.append_left _).trans ?_
      rw [← List.append_assoc]
      exact earlier.append_right _

end Path

end Lib
end Cgo
