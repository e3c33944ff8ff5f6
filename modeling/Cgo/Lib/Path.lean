import Mathlib.Data.List.Basic
import Mathlib.Data.List.Induction

/-!
# Paths of a labelled transition function

A system is given by a partial function `step`, from a state and a label to the
next state.  All nondeterminism sits in the labels, so a run is determined by
its start and by the list of labels it takes.  A path records every transition
it passed, and the rules below turn a statement about one transition into a
statement about all states and all transitions of a path.
-/

namespace Cgo
namespace Lib

universe u v w

/-- One transition: the state before it, its label, and the state after it. -/
structure Transition (State : Type u) (Label : Type v) where
  before : State
  label : Label
  after : State

/-- `Path step start taken final`: from `start` the transitions `taken`, oldest
first, lead to `final`. -/
inductive Path
    {State : Type u} {Label : Type v}
    (step : State → Label → Option State)
    (start : State) : List (Transition State Label) → State → Prop
  | nil : Path step start [] start
  | snoc {taken : List (Transition State Label)} {before after : State}
      {label : Label} :
      Path step start taken before →
      step before label = some after →
      Path step start (taken ++ [⟨before, label, after⟩]) after

/-- Some path leads from one state to the other. -/
def Reachable
    {State : Type u} {Label : Type v}
    (step : State → Label → Option State)
    (start final : State) : Prop :=
  ∃ taken, Path step start taken final

namespace Path

variable {State : Type u} {Label : Type v}
variable {step : State → Label → Option State} {start final : State}
variable {taken : List (Transition State Label)}

/-- What every step keeps, every path keeps. -/
theorem invariant
    {Holds : State → Prop}
    (path : Path step start taken final)
    (initially : Holds start)
    (preserved : ∀ before label after,
      Holds before → step before label = some after → Holds after) :
    Holds final := by
  induction path with
  | nil => exact initially
  | snoc _ stepped inductionHypothesis =>
      exact preserved _ _ _ inductionHypothesis stepped

/-- What every step meeting a guard keeps, every path of such steps keeps. -/
theorem guarded_invariant
    {Holds : State → Prop}
    {Guard : Transition State Label → Prop}
    (path : Path step start taken final)
    (guarded : ∀ transition ∈ taken, Guard transition)
    (initially : Holds start)
    (preserved : ∀ before label after,
      Reachable step start before → Holds before → Guard ⟨before, label, after⟩ →
        step before label = some after → Holds after) :
    Holds final := by
  induction path with
  | nil => exact initially
  | snoc prior stepped inductionHypothesis =>
      refine preserved _ _ _ ⟨_, prior⟩ (inductionHypothesis ?_) (guarded _ (by simp)) stepped
      intro transition member
      exact guarded transition (List.mem_append_left _ member)

/-- A path continued by a path. -/
theorem trans
    {last : State}
    {later : List (Transition State Label)}
    (path : Path step start taken final)
    (continued : Path step final later last) :
    Path step start (taken ++ later) last := by
  induction continued with
  | nil => simpa using path
  | snoc _ stepped inductionHypothesis =>
      rw [← List.append_assoc]
      exact inductionHypothesis.snoc stepped

/-- A path without transitions stays where it starts. -/
theorem of_nil
    (path : Path step start [] final) :
    final = start := by
  generalize without : [] = all at path
  cases path with
  | nil => rfl
  | snoc prior stepped => simp at without

/-- The last transition of a path. -/
theorem of_concat
    {transition : Transition State Label}
    (path : Path step start (taken ++ [transition]) final) :
    Path step start taken transition.before ∧
      step transition.before transition.label = some transition.after ∧
      final = transition.after := by
  generalize whole : taken ++ [transition] = all at path
  cases path with
  | nil => simp at whole
  | snoc prior stepped =>
      obtain ⟨rfl, rfl⟩ : _ = _ ∧ transition = _ := by simpa using whole
      exact ⟨prior, stepped, rfl⟩

/-- A path splits where its list of transitions does. -/
theorem of_append
    {earlier later : List (Transition State Label)}
    (path : Path step start (earlier ++ later) final) :
    ∃ middle, Path step start earlier middle ∧ Path step middle later final := by
  induction later using List.reverseRecOn generalizing final with
  | nil => exact ⟨final, by simpa using path, .nil⟩
  | append_singleton later transition inductionHypothesis =>
      rw [← List.append_assoc] at path
      obtain ⟨prior, stepped, rfl⟩ := path.of_concat
      obtain ⟨middle, first, second⟩ := inductionHypothesis prior
      exact ⟨middle, first, second.snoc stepped⟩

/-- The first transition of a path. -/
theorem of_cons
    {transition : Transition State Label}
    (path : Path step start (transition :: taken) final) :
    transition.before = start ∧
      step start transition.label = some transition.after ∧
      Path step transition.after taken final := by
  rw [← List.singleton_append] at path
  obtain ⟨middle, first, rest⟩ := path.of_append
  have single : Path step start ([] ++ [transition]) middle := first
  obtain ⟨empty, stepped, rfl⟩ := single.of_concat
  have same := empty.of_nil
  exact ⟨same, same ▸ stepped, rest⟩

/-- Every transition of a path starts in a state the path has reached, and is
a step of the system. -/
theorem mem_transition
    (path : Path step start taken final)
    {transition : Transition State Label}
    (member : transition ∈ taken) :
    Reachable step start transition.before ∧
      step transition.before transition.label = some transition.after := by
  induction path with
  | nil => simp at member
  | snoc prior stepped inductionHypothesis =>
      rcases List.mem_append.mp member with earlier | last
      · exact inductionHypothesis earlier
      · obtain rfl := List.mem_singleton.mp last
        exact ⟨⟨_, prior⟩, stepped⟩

/-- When, in reachable states, one property of a step is equivalent to another,
they are equivalent for all steps of a path together. -/
theorem forall_iff
    {Left Right : Transition State Label → Prop}
    (path : Path step start taken final)
    (equivalent : ∀ transition, Reachable step start transition.before →
      step transition.before transition.label = some transition.after →
        (Left transition ↔ Right transition)) :
    (∀ transition ∈ taken, Left transition) ↔
      ∀ transition ∈ taken, Right transition := by
  constructor
  · intro left transition member
    obtain ⟨reached, stepped⟩ := path.mem_transition member
    exact (equivalent transition reached stepped).mp (left transition member)
  · intro right transition member
    obtain ⟨reached, stepped⟩ := path.mem_transition member
    exact (equivalent transition reached stepped).mpr (right transition member)

end Path

namespace Reachable

variable {State : Type u} {Label : Type v}
variable {step : State → Label → Option State} {start final : State}

theorem refl : Reachable step start start :=
  ⟨[], .nil⟩

theorem tail
    {last : State}
    {label : Label}
    (reached : Reachable step start final)
    (stepped : step final label = some last) :
    Reachable step start last := by
  obtain ⟨_, path⟩ := reached
  exact ⟨_, path.snoc stepped⟩

theorem trans
    {last : State}
    (reached : Reachable step start final)
    (continued : Reachable step final last) :
    Reachable step start last := by
  obtain ⟨_, path⟩ := reached
  obtain ⟨_, later⟩ := continued
  exact ⟨_, path.trans later⟩

/-- The induction rule for reachable states. -/
theorem invariant
    {Holds : State → Prop}
    (reached : Reachable step start final)
    (initially : Holds start)
    (preserved : ∀ before label after,
      Holds before → step before label = some after → Holds after) :
    Holds final := by
  obtain ⟨_, path⟩ := reached
  exact path.invariant initially preserved

/-- The induction rule when the step may also use that its start is reachable:
an invariant proved earlier is at hand in the proof of a later one. -/
theorem invariant_of_reachable
    (Holds : State → Prop)
    (reached : Reachable step start final)
    (initially : Holds start)
    (preserved : ∀ before label after,
      Reachable step start before → Holds before →
        step before label = some after → Holds after) :
    Holds final := by
  obtain ⟨_, path⟩ := reached
  induction path with
  | nil => exact initially
  | snoc prior stepped inductionHypothesis =>
      exact preserved _ _ _ ⟨_, prior⟩ inductionHypothesis stepped

end Reachable

/-- Take the labels one after the other; `none` when one of them is not
enabled. -/
def run
    {State : Type u} {Label : Type v}
    (step : State → Label → Option State) : State → List Label → Option State
  | state, [] => some state
  | state, label :: labels => (step state label).bind fun next => run step next labels

/-- The transitions that `run` passes. -/
def trace
    {State : Type u} {Label : Type v}
    (step : State → Label → Option State) :
    State → List Label → List (Transition State Label)
  | _, [] => []
  | state, label :: labels =>
      match step state label with
      | none => []
      | some next => ⟨state, label, next⟩ :: trace step next labels

/-- A run that goes through is a path. -/
theorem path_of_run
    {State : Type u} {Label : Type v}
    {step : State → Label → Option State}
    {start final : State}
    {labels : List Label}
    (completed : run step start labels = some final) :
    Path step start (trace step start labels) final := by
  induction labels generalizing start with
  | nil =>
      obtain rfl : start = final := by simpa [run] using completed
      exact .nil
  | cons label labels inductionHypothesis =>
      cases stepped : step start label with
      | none => simp [run, stepped] at completed
      | some next =>
          have rest : run step next labels = some final := by
            simpa [run, stepped] using completed
          have first : Path step start ([] ++ [⟨start, label, next⟩]) next :=
            Path.nil.snoc stepped
          simpa [trace, stepped] using first.trans (inductionHypothesis rest)

/-- The state after the labels; the start itself when one of them is not
enabled. -/
def runFrom
    {State : Type u} {Label : Type v}
    (step : State → Label → Option State)
    (start : State)
    (labels : List Label) : State :=
  (run step start labels).getD start

theorem path_runFrom
    {State : Type u} {Label : Type v}
    {step : State → Label → Option State}
    {start : State}
    {labels : List Label}
    (completed : (run step start labels).isSome) :
    Path step start (trace step start labels) (runFrom step start labels) := by
  obtain ⟨final, completed⟩ := Option.isSome_iff_exists.mp completed
  simpa [runFrom, completed] using path_of_run completed

theorem Reachable.runFrom
    {State : Type u} {Label : Type v}
    (step : State → Label → Option State)
    (start : State)
    (labels : List Label) :
    Reachable step start (runFrom step start labels) := by
  by_cases completed : (run step start labels).isSome
  · exact ⟨_, path_runFrom completed⟩
  · rw [Option.not_isSome_iff_eq_none] at completed
    simpa [Lib.runFrom, completed] using Reachable.refl

/-- A forward simulation with stuttering: every step of the concrete system is,
under `abstract`, a step of the abstract system or no change at all. -/
theorem Reachable.simulate
    {State : Type u} {Label : Type v} {Abstract : Type w} {Action : Type v}
    {step : State → Label → Option State}
    {abstractStep : Abstract → Action → Option Abstract}
    {start final : State}
    (abstract : State → Abstract)
    (simulates : ∀ before label after, step before label = some after →
      abstract after = abstract before ∨
        ∃ action, abstractStep (abstract before) action = some (abstract after))
    (reached : Reachable step start final) :
    Reachable abstractStep (abstract start) (abstract final) := by
  obtain ⟨_, path⟩ := reached
  induction path with
  | nil => exact .refl
  | snoc _ stepped inductionHypothesis =>
      rcases simulates _ _ _ stepped with same | ⟨action, matched⟩
      · rw [same]
        exact inductionHypothesis
      · exact inductionHypothesis.tail matched

/-- The same for a relation: every step of the concrete system is matched by some
steps of the abstract one. -/
theorem Reachable.refine
    {State : Type u} {Label : Type v} {Abstract : Type w} {Action : Type v}
    {step : State → Label → Option State}
    {abstractStep : Abstract → Action → Option Abstract}
    {start final : State}
    {abstractStart : Abstract}
    (Related : State → Abstract → Prop)
    (initially : Related start abstractStart)
    (simulates : ∀ before label after abstract, Related before abstract →
      step before label = some after →
        ∃ next, Related after next ∧ Reachable abstractStep abstract next)
    (reached : Reachable step start final) :
    ∃ abstract, Related final abstract ∧ Reachable abstractStep abstractStart abstract := by
  obtain ⟨_, path⟩ := reached
  induction path with
  | nil => exact ⟨abstractStart, initially, .refl⟩
  | snoc _ stepped inductionHypothesis =>
      obtain ⟨abstract, related, before⟩ := inductionHypothesis
      obtain ⟨next, relatedNext, later⟩ := simulates _ _ _ _ related stepped
      exact ⟨next, relatedNext, before.trans later⟩

/-- The same for paths, where the matching steps show what the matched step shows. -/
theorem Path.refine
    {State : Type u} {Label : Type v} {Abstract : Type w} {Action : Type v} {Event : Type w}
    {step : State → Label → Option State}
    {abstractStep : Abstract → Action → Option Abstract}
    {start final : State}
    {abstractStart : Abstract}
    {taken : List (Transition State Label)}
    (Related : State → Abstract → Prop)
    (shows : Transition State Label → List Event)
    (event : Action → Event)
    (initially : Related start abstractStart)
    (simulates : ∀ before label after abstract, Related before abstract →
      step before label = some after →
        ∃ matching next, Related after next ∧ Path abstractStep abstract matching next ∧
          matching.map (fun passed => event passed.label) = shows ⟨before, label, after⟩)
    (path : Path step start taken final) :
    ∃ matching abstract, Related final abstract ∧
      Path abstractStep abstractStart matching abstract ∧
        matching.map (fun passed => event passed.label) = taken.flatMap shows := by
  induction path with
  | nil => exact ⟨[], abstractStart, initially, .nil, rfl⟩
  | snoc _ stepped inductionHypothesis =>
      obtain ⟨matched, abstract, related, prior, same⟩ := inductionHypothesis
      obtain ⟨matching, next, relatedNext, later, shown⟩ := simulates _ _ _ _ related stepped
      refine ⟨matched ++ matching, next, relatedNext, prior.trans later, ?_⟩
      rw [List.map_append, same, shown, List.flatMap_append, List.flatMap_singleton]

end Lib
end Cgo
