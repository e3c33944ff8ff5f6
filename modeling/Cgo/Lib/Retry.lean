import Cgo.Lib.Path

/-!
# Loops that call again

A loop makes a call that may not be possible yet; then it waits and calls again.  An
answer either ends the loop or is one to wait for, and a wait may time out or throw.  What
holds of each answer holds of whole runs: what the calls have taken is what the result
contains, and the result is of a kind exactly when there was a cause on the way.
-/

namespace Cgo
namespace Lib

variable {Store Answer Result Item : Type}

/-- What a loop makes of an answer, of a wait that timed out and of one that threw. -/
structure Retry (Store Answer Result : Type) where
  /-- The store after an answer, and the result if the loop ends. -/
  decide : Store → Answer → Store × Option Result
  expired : Option Result
  /-- An exception always ends the loop. -/
  thrown : Result

namespace Retry

/-- Where the loop is. -/
inductive Pc (Result : Type)
  | calling
  | waiting
  | returned (result : Result)
  deriving DecidableEq

structure State (Store Result : Type) where
  store : Store
  pc : Pc Result
  deriving DecidableEq

/-- How a wait ends. -/
inductive Wake
  | ready
  | expired
  | thrown
  deriving DecidableEq

inductive Label (Answer : Type)
  /-- The call returns. -/
  | answer (answer : Answer)
  /-- The wait ends. -/
  | wake (ending : Wake)
  deriving DecidableEq

variable (retry : Retry Store Answer Result)

/-- After an answer. -/
def answered (store : Store) (answer : Answer) : State Store Result :=
  match retry.decide store answer with
  | (store, some result) => ⟨store, .returned result⟩
  | (store, none) => ⟨store, .waiting⟩

/-- After a wait. -/
def woken (store : Store) : Wake → State Store Result
  | .ready => ⟨store, .calling⟩
  | .expired =>
      match retry.expired with
      | some result => ⟨store, .returned result⟩
      | none => ⟨store, .calling⟩
  | .thrown => ⟨store, .returned retry.thrown⟩

/-- One step, in which only a valid answer is given. -/
def step (valid : Answer → Bool) (state : State Store Result) :
    Label Answer → Option (State Store Result)
  | .answer answer =>
      match state.pc with
      | .calling => if valid answer then some (retry.answered state.store answer) else none
      | _ => none
  | .wake ending =>
      match state.pc with
      | .waiting => some (retry.woken state.store ending)
      | _ => none

variable {retry} {valid : Answer → Bool}

/-- A loop that has ended does nothing more. -/
theorem silent
    {state : State Store Result}
    {result : Result}
    (returned : state.pc = .returned result)
    (label : Label Answer) :
    retry.step valid state label = none := by
  cases label <;> simp [step, returned]

/-- What a step can do. -/
inductive Move (retry : Retry Store Answer Result) (valid : Answer → Bool)
    (before : State Store Result) : Label Answer → State Store Result → Prop
  | ends {answer : Answer} {store : Store} {result : Result}
      (calling : before.pc = .calling)
      (possible : valid answer = true)
      (decided : retry.decide before.store answer = (store, some result)) :
      Move retry valid before (.answer answer) ⟨store, .returned result⟩
  | again {answer : Answer} {store : Store}
      (calling : before.pc = .calling)
      (possible : valid answer = true)
      (undecided : retry.decide before.store answer = (store, none)) :
      Move retry valid before (.answer answer) ⟨store, .waiting⟩
  | expires {result : Result}
      (waiting : before.pc = .waiting)
      (ends : retry.expired = some result) :
      Move retry valid before (.wake .expired) ⟨before.store, .returned result⟩
  | goesOn
      (waiting : before.pc = .waiting)
      (never : retry.expired = none) :
      Move retry valid before (.wake .expired) ⟨before.store, .calling⟩
  | wakes (waiting : before.pc = .waiting) :
      Move retry valid before (.wake .ready) ⟨before.store, .calling⟩
  | throws (waiting : before.pc = .waiting) :
      Move retry valid before (.wake .thrown) ⟨before.store, .returned retry.thrown⟩

theorem move_of_step
    {before after : State Store Result}
    {label : Label Answer}
    (stepped : retry.step valid before label = some after) :
    Move retry valid before label after := by
  cases label with
  | answer answer =>
      simp only [step] at stepped
      split at stepped
      · next calling =>
          split at stepped
          · next possible =>
              simp only [answered, Option.some.injEq] at stepped
              split at stepped
              · next store result decided =>
                  subst stepped
                  exact .ends calling possible decided
              · next store undecided =>
                  subst stepped
                  exact .again calling possible undecided
          · cases stepped
      · cases stepped
  | wake ending =>
      simp only [step] at stepped
      split at stepped
      · next waiting =>
          simp only [Option.some.injEq] at stepped
          subst stepped
          cases ending with
          | ready => exact .wakes waiting
          | thrown => exact .throws waiting
          | expired =>
              simp only [woken]
              split
              · next result ends => exact .expires waiting ends
              · next never => exact .goesOn waiting never
      · cases stepped

/-- What every decision makes good, every run makes good. -/
theorem result_of_path
    {Good : Result → Prop}
    {start state : State Store Result}
    {taken : List (Transition (State Store Result) (Label Answer))}
    (decided : ∀ store answer result, valid answer = true →
      (retry.decide store answer).2 = some result → Good result)
    (expired : ∀ result, retry.expired = some result → Good result)
    (thrown : Good retry.thrown)
    (initially : ∀ result, start.pc = .returned result → Good result)
    (path : Path (retry.step valid) start taken state) :
    ∀ result, state.pc = .returned result → Good result := by
  apply path.invariant initially
  intro before label after _ stepped result returned
  cases move_of_step stepped with
  | ends calling possible ended =>
      obtain rfl := Pc.returned.inj returned
      exact decided _ _ _ possible (by rw [ended])
  | again => cases returned
  | expires waiting ends =>
      obtain rfl := Pc.returned.inj returned
      exact expired _ ends
  | throws waiting =>
      obtain rfl := Pc.returned.inj returned
      exact thrown
  | goesOn => cases returned
  | wakes => cases returned

/-! ## What is taken is kept -/

/-- What a label takes. -/
def Label.given (given : Answer → List Item) : Label Answer → List Item
  | .answer reply => given reply
  | .wake _ => []

/-- What the loop gives to its caller. -/
def Pc.kept (kept : Result → List Item) : Pc Result → List Item
  | .returned result => kept result
  | _ => []

/-- An answer that ends the loop is kept, and any other took nothing. -/
structure Conserves
    (retry : Retry Store Answer Result)
    (valid : Answer → Bool)
    (given : Answer → List Item)
    (kept : Result → List Item) : Prop where
  answered : ∀ store answer, valid answer = true →
    given answer = (retry.decide store answer).2.elim [] kept
  expired : ∀ result, retry.expired = some result → kept result = []
  thrown : kept retry.thrown = []

namespace Conserves

variable {given : Answer → List Item} {kept : Result → List Item}

/-- What a step preserves. -/
theorem step
    {before after : State Store Result}
    {label : Label Answer}
    (conserves : Conserves retry valid given kept)
    (stepped : retry.step valid before label = some after) :
    before.pc.kept kept ++ label.given given = after.pc.kept kept := by
  cases move_of_step stepped with
  | ends calling possible decided =>
      have answered := conserves.answered before.store _ possible
      rw [decided] at answered
      rw [calling]
      exact answered
  | again calling possible undecided =>
      have answered := conserves.answered before.store _ possible
      rw [undecided] at answered
      rw [calling]
      exact answered
  | expires waiting ends =>
      rw [waiting]
      exact (conserves.expired _ ends).symm
  | throws waiting =>
      rw [waiting]
      exact conserves.thrown.symm
  | goesOn waiting =>
      rw [waiting]
      rfl
  | wakes waiting =>
      rw [waiting]
      rfl

/-- What a whole run preserves. -/
theorem of_path
    {start state : State Store Result}
    {taken : List (Transition (State Store Result) (Label Answer))}
    (conserves : Conserves retry valid given kept)
    (path : Path (retry.step valid) start taken state) :
    start.pc.kept kept ++ taken.flatMap (fun transition => transition.label.given given) =
      state.pc.kept kept := by
  induction path with
  | nil => simp
  | snoc _ stepped inductionHypothesis =>
      rw [List.flatMap_append, ← List.append_assoc, inductionHypothesis,
        ← conserves.step stepped]
      simp

end Conserves

/-! ## Results have a cause -/

/-- An answer or the end of a wait that is a cause. -/
def Label.Cause (ofAnswer : Answer → Prop) (ofWake : Wake → Prop) : Label Answer → Prop
  | .answer reply => ofAnswer reply
  | .wake ending => ofWake ending

/-- A wait that throws is the only cause. -/
theorem Label.cause_thrown_iff
    (label : Label Answer) :
    label.Cause (fun _ => False) (· = .thrown) ↔ label = .wake .thrown := by
  cases label <;> simp [Cause]

/-- A label ends the loop with a result of a kind if and only if it is a cause. -/
structure Reports
    (retry : Retry Store Answer Result)
    (valid : Answer → Bool)
    (ofAnswer : Answer → Prop)
    (ofWake : Wake → Prop)
    (Kind : Result → Prop) : Prop where
  answered : ∀ store answer, valid answer = true →
    ((∃ result ∈ (retry.decide store answer).2, Kind result) ↔ ofAnswer answer)
  ready : ¬ofWake .ready
  expired : (∃ result ∈ retry.expired, Kind result) ↔ ofWake .expired
  thrown : Kind retry.thrown ↔ ofWake .thrown

namespace Reports

variable {ofAnswer : Answer → Prop} {ofWake : Wake → Prop} {Kind : Result → Prop}

/-- What a step preserves. -/
theorem step
    {before after : State Store Result}
    {label : Label Answer}
    (reports : Reports retry valid ofAnswer ofWake Kind)
    (stepped : retry.step valid before label = some after) :
    (∃ result, after.pc = .returned result ∧ Kind result) ↔ label.Cause ofAnswer ofWake := by
  cases move_of_step stepped with
  | @ends answer _ _ calling possible decided =>
      simpa [Label.Cause, decided] using reports.answered before.store answer possible
  | @again answer _ calling possible undecided =>
      simpa [Label.Cause, undecided] using reports.answered before.store answer possible
  | expires waiting ends => simpa [Label.Cause, ends] using reports.expired
  | goesOn waiting never => simpa [Label.Cause, never] using reports.expired
  | wakes waiting => simpa [Label.Cause] using reports.ready
  | throws waiting => simpa [Label.Cause] using reports.thrown

/-- What a whole run preserves. -/
theorem of_path
    {start state : State Store Result}
    {taken : List (Transition (State Store Result) (Label Answer))}
    (reports : Reports retry valid ofAnswer ofWake Kind)
    (path : Path (retry.step valid) start taken state) :
    (∃ result, state.pc = .returned result ∧ Kind result) ↔
      (∃ result, start.pc = .returned result ∧ Kind result) ∨
        ∃ transition ∈ taken, transition.label.Cause ofAnswer ofWake := by
  induction path with
  | nil => simp
  | @snoc taken before after label prior stepped inductionHypothesis =>
      simp only [List.mem_append, List.mem_singleton, or_and_right, exists_or, exists_eq_left]
      rw [← or_assoc, ← inductionHypothesis, ← reports.step stepped]
      -- a result ends the loop, so there was none before
      have none_ : ¬∃ result, before.pc = .returned result ∧ Kind result := by
        rintro ⟨result, returned, _⟩
        rw [silent returned label] at stepped
        cases stepped
      simp only [none_, false_or]

end Reports
end Retry
end Lib
end Cgo
