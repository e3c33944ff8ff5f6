import Cgo.Lib.Path
import Cgo.Lib.Placement
import Mathlib.Data.List.Nodup

/-!
# Deferred functions

`defer` puts a function into a `DeferGuard`, which can be moved and dropped, and calls the
function when it is destroyed.  A guard's lifetime ends when its destructor starts, and a
function that a destructor calls may do anything with the other guards.
-/

namespace Cgo
namespace Schedule

/-- Number of a function that was given to `defer`, in the order of the calls. -/
abbrev FnId := Nat

/-- Address of a `DeferGuard`. -/
abbrev GuardId := Nat

/-- A guard: `_defer`, and whether its destructor has called it. -/
structure DeferGuard where
  defer : Option FnId
  calling : Bool
  deriving DecidableEq

namespace DeferGuard

/-- `DeferGuard::drop`. -/
def drop (guard : DeferGuard) : DeferGuard :=
  { guard with defer := none }

/-- `DeferGuard(DeferGuard&&)`: what the new guard and `rhs` hold after it. -/
def moved (rhs : DeferGuard) : DeferGuard × DeferGuard :=
  let guard := DeferGuard.drop ⟨none, false⟩
  ({ guard with defer := rhs.defer }, { rhs with defer := guard.defer })

end DeferGuard

/-- All guards, and the functions that were called and dropped, oldest first.  The code
does not keep the last two. -/
structure Defers where
  guard : GuardId → Option DeferGuard
  made : FnId
  called : List FnId
  dropped : List FnId

namespace Defers

/-- There is no guard. -/
def initial : Defers where
  guard := fun _ => none
  made := 0
  called := []
  dropped := []

/-- The steps of the guards. -/
inductive Label
  /-- `defer` is called, and its result constructed at the address. -/
  | defer (id : GuardId)
  /-- A guard is constructed from another. -/
  | move (id source : GuardId)
  | drop (id : GuardId)
  /-- The destructor starts, and calls `_defer` if there is one. -/
  | destroy (id : GuardId)
  /-- The call has returned. -/
  | finish (id : GuardId)
  deriving DecidableEq

variable (state : Defers)

/-- The state with another guard at an address. -/
def setGuard (id : GuardId) (guard : Option DeferGuard) : Defers :=
  { state with guard := Function.update state.guard id guard }

/-- The next state, or `none` when the step is not enabled. -/
def step : Label → Option Defers
  | .defer id =>
      if state.guard id = none then
        some { state.setGuard id (some ⟨some state.made, false⟩) with made := state.made + 1 }
      else none
  | .move id source =>
      match state.guard id, state.guard source with
      | none, some ⟨defer, false⟩ =>
          let (guard, rhs) := DeferGuard.moved ⟨defer, false⟩
          some ((state.setGuard source (some rhs)).setGuard id (some guard))
      | _, _ => none
  | .drop id =>
      match state.guard id with
      | some ⟨defer, false⟩ =>
          some { state.setGuard id (some (DeferGuard.drop ⟨defer, false⟩)) with
            dropped := state.dropped ++ defer.toList }
      | _ => none
  | .destroy id =>
      match state.guard id with
      | some ⟨some fn, false⟩ =>
          some { state.setGuard id (some ⟨some fn, true⟩) with called := state.called ++ [fn] }
      | some ⟨none, false⟩ => some (state.setGuard id none)
      | _ => none
  | .finish id =>
      match state.guard id with
      | some ⟨_, true⟩ => some (state.setGuard id none)
      | _ => none

/-- The states that the guards can reach. -/
abbrev Reached (state : Defers) : Prop :=
  Lib.Reachable step initial state

/-- What a step can do. -/
inductive Move : Label → Defers → Prop
  | defer {id : GuardId}
      (vacant : state.guard id = none) :
      Move (.defer id)
        { state.setGuard id (some ⟨some state.made, false⟩) with made := state.made + 1 }
  | move {id source : GuardId} {defer : Option FnId}
      (vacant : state.guard id = none)
      (lives : state.guard source = some ⟨defer, false⟩) :
      Move (.move id source)
        ((state.setGuard source (some ⟨none, false⟩)).setGuard id (some ⟨defer, false⟩))
  | drop {id : GuardId} {defer : Option FnId}
      (lives : state.guard id = some ⟨defer, false⟩) :
      Move (.drop id)
        { state.setGuard id (some ⟨none, false⟩) with
          dropped := state.dropped ++ defer.toList }
  | call {id : GuardId} {fn : FnId}
      (lives : state.guard id = some ⟨some fn, false⟩) :
      Move (.destroy id)
        { state.setGuard id (some ⟨some fn, true⟩) with called := state.called ++ [fn] }
  /-- A guard that holds no function, or whose function has returned, is gone. -/
  | vanish {label : Label} {id : GuardId} {guard : DeferGuard}
      (lives : state.guard id = some guard)
      (holdsNone : guard.defer = none ∨ guard.calling = true) :
      Move label (state.setGuard id none)

variable {state} {after : Defers}

theorem move_of_step
    {label : Label}
    (stepped : state.step label = some after) :
    Move state label after := by
  cases label with
  | defer id =>
      simp only [step, Option.ite_none_right_eq_some, Option.some.injEq] at stepped
      obtain ⟨vacant, rfl⟩ := stepped
      exact .defer vacant
  | move id source =>
      simp only [step] at stepped
      split at stepped
      · next vacant lives =>
          obtain rfl := Option.some.inj stepped
          exact .move vacant lives
      · cases stepped
  | drop id =>
      simp only [step] at stepped
      split at stepped
      · next lives =>
          obtain rfl := Option.some.inj stepped
          exact .drop lives
      · cases stepped
  | destroy id =>
      simp only [step] at stepped
      split at stepped
      · next lives =>
          obtain rfl := Option.some.inj stepped
          exact .call lives
      · next lives =>
          obtain rfl := Option.some.inj stepped
          exact .vanish lives (.inl rfl)
      · cases stepped
  | finish id =>
      simp only [step] at stepped
      split at stepped
      · next lives =>
          obtain rfl := Option.some.inj stepped
          exact .vanish lives (.inr rfl)
      · cases stepped

/-! ## Where a function is -/

/-- The places of a function. -/
inductive DeferPlace
  | guard (id : GuardId)
  | called
  | dropped
  deriving DecidableEq

/-- The function is at the place. -/
def At (state : Defers) (fn : FnId) : DeferPlace → Prop
  | .guard id => state.guard id = some ⟨some fn, false⟩
  | .called => fn ∈ state.called
  | .dropped => fn ∈ state.dropped

/-- Every function is where `there` says, and was called once at most. -/
structure Tidy (state : Defers) (there : FnId → Option DeferPlace) : Prop where
  placement : Lib.Placement state.At there
  made : ∀ fn, there fn ≠ none ↔ fn < state.made
  once : state.called.Nodup

namespace Tidy

variable {there : FnId → Option DeferPlace}

theorem initial : Tidy .initial fun _ => none where
  placement := ⟨fun fn place => by cases place <;> simp [At, Defers.initial]⟩
  made := by simp [Defers.initial]
  once := .nil

/-- A guard that is alive gives its function away. -/
private theorem takeGuard
    {id : GuardId}
    {fn : FnId}
    (guard : Option DeferGuard)
    (placement : Lib.Placement state.At there)
    (lives : state.guard id = some ⟨some fn, false⟩)
    (gone : ∀ other, guard ≠ some ⟨some other, false⟩) :
    Lib.Placement (state.setGuard id guard).At (Function.update there fn none) := by
  have here : state.At fn (.guard id) := lives
  refine placement.take here (fun other => ?_) fun other place apart => ?_
  · simp [At, setGuard, gone, lives, eq_comm]
  · cases place with
    | guard address =>
        have different : address ≠ id := by simpa using apart
        simp [At, setGuard, different]
    | _ => rfl

/-- A function that is nowhere is put into a new guard. -/
private theorem putGuard
    {fn : FnId}
    (id : GuardId)
    (placement : Lib.Placement state.At there)
    (missing : there fn = none)
    (vacant : state.guard id = none) :
    Lib.Placement (state.setGuard id (some ⟨some fn, false⟩)).At
      (Function.update there fn (some (.guard id))) := by
  refine placement.put missing (fun other => ?_) fun other place apart => ?_
  · simp [At, setGuard, vacant, eq_comm]
  · cases place with
    | guard address =>
        have different : address ≠ id := by simpa using apart
        simp [At, setGuard, different]
    | _ => rfl

/-- A guard that holds no function changes and holds none. -/
private theorem of_empty
    (tidy : Tidy state there)
    (id : GuardId)
    (guard : Option DeferGuard)
    (empty : ∀ fn, state.guard id ≠ some ⟨some fn, false⟩)
    (gone : ∀ fn, guard ≠ some ⟨some fn, false⟩) :
    Tidy (state.setGuard id guard) there where
  placement := tidy.placement.congr fun fn place => by
    cases place with
    | guard address =>
        by_cases same : address = id
        · subst same
          simp [At, setGuard, gone, empty]
        · simp [At, setGuard, same]
    | _ => rfl
  made := tidy.made
  once := tidy.once

/-- A function that was made stays somewhere, wherever it goes. -/
private theorem made_update
    {fn : FnId}
    {target : DeferPlace}
    (tidy : Tidy state there)
    (source : DeferPlace)
    (here : state.At fn source)
    (other : FnId) :
    Function.update there fn (some target) other ≠ none ↔ other < state.made := by
  by_cases same : other = fn
  · subst same
    have placed : there other ≠ none := by simp [(tidy.placement.at_iff other source).mp here]
    simpa using (tidy.made other).mp placed
  · simpa [same] using tidy.made other

private theorem defer
    {id : GuardId}
    (tidy : Tidy state there)
    (vacant : state.guard id = none) :
    Tidy { state.setGuard id (some ⟨some state.made, false⟩) with made := state.made + 1 }
      (Function.update there state.made (some (.guard id))) where
  placement := by
    have missing : there state.made = none := by
      by_contra placed
      exact Nat.lt_irrefl _ ((tidy.made state.made).mp placed)
    exact (putGuard id tidy.placement missing vacant).congr fun fn place => by cases place <;> rfl
  made fn := by
    by_cases same : fn = state.made
    · subst same
      simp
    · rw [Function.update_of_ne same, tidy.made fn]
      exact ⟨Nat.lt_succ_of_lt, fun earlier => Nat.lt_of_le_of_ne (Nat.le_of_lt_succ earlier) same⟩
  once := tidy.once

private theorem move
    {id source : GuardId}
    {fn : FnId}
    (tidy : Tidy state there)
    (vacant : state.guard id = none)
    (lives : state.guard source = some ⟨some fn, false⟩) :
    Tidy ((state.setGuard source (some ⟨none, false⟩)).setGuard id (some ⟨some fn, false⟩))
      (Function.update there fn (some (.guard id))) where
  placement := by
    have apart : id ≠ source := by
      rintro rfl
      simp [vacant] at lives
    have taken := takeGuard (some ⟨none, false⟩) tidy.placement lives (by simp)
    have put := putGuard id taken (Function.update_self ..)
      (by simpa [setGuard, apart] using vacant)
    rwa [Function.update_idem] at put
  made fn := tidy.made_update (.guard source) lives fn
  once := tidy.once

private theorem drop
    {id : GuardId}
    {fn : FnId}
    (tidy : Tidy state there)
    (lives : state.guard id = some ⟨some fn, false⟩) :
    Tidy { state.setGuard id (some ⟨none, false⟩) with dropped := state.dropped ++ [fn] }
      (Function.update there fn (some .dropped)) where
  placement := by
    have taken := takeGuard (some ⟨none, false⟩) tidy.placement lives (by simp)
    rw [← Function.update_idem (a := fn) none]
    refine taken.put (Function.update_self ..) (fun other => ?_) fun other place apart => ?_
    · simp [At, setGuard]
    · cases place with
      | dropped => exact absurd rfl apart
      | _ => rfl
  made fn := tidy.made_update (.guard id) lives fn
  once := tidy.once

private theorem call
    {id : GuardId}
    {fn : FnId}
    (tidy : Tidy state there)
    (lives : state.guard id = some ⟨some fn, false⟩) :
    Tidy { state.setGuard id (some ⟨some fn, true⟩) with called := state.called ++ [fn] }
      (Function.update there fn (some .called)) where
  placement := by
    have taken := takeGuard (some ⟨some fn, true⟩) tidy.placement lives (by simp)
    rw [← Function.update_idem (a := fn) none]
    refine taken.put (Function.update_self ..) (fun other => ?_) fun other place apart => ?_
    · simp [At, setGuard]
    · cases place with
      | called => exact absurd rfl apart
      | _ => rfl
  made fn := tidy.made_update (.guard id) lives fn
  once := by
    have here : state.At fn (.guard id) := lives
    have uncalled : fn ∉ state.called := by
      intro called
      have elsewhere : state.At fn .called := called
      simpa using tidy.placement.unique here elsewhere
    rw [← List.concat_eq_append]
    exact tidy.once.concat uncalled

/-- What a step preserves. -/
theorem step
    {label : Label}
    (tidy : Tidy state there)
    (stepped : state.step label = some after) :
    ∃ there, Tidy after there := by
  cases move_of_step stepped with
  | defer vacant => exact ⟨_, tidy.defer vacant⟩
  | @move id source held vacant lives =>
      cases held with
      | some fn => exact ⟨_, tidy.move vacant lives⟩
      | none =>
          have emptied := tidy.of_empty source (some ⟨none, false⟩)
            (by simp [lives]) (by simp)
          refine ⟨there, emptied.of_empty id _ (fun fn => ?_) (by simp)⟩
          by_cases same : id = source
          · simp [setGuard, same]
          · simp [setGuard, same, vacant]
  | @drop id held lives =>
      cases held with
      | some fn => exact ⟨_, tidy.drop lives⟩
      | none =>
          have kept := tidy.of_empty id (some ⟨none, false⟩)
            (by simp [lives]) (by simp)
          exact ⟨there, by simpa [setGuard] using kept⟩
  | call lives => exact ⟨_, tidy.call lives⟩
  | @vanish _ id guard lives holdsNone =>
      refine ⟨there, tidy.of_empty id _ (fun fn holds => ?_) (by simp)⟩
      obtain rfl := Option.some.inj (lives.symm.trans holds)
      simp at holdsNone

theorem of_reached (reached : Reached state) : ∃ there, Tidy state there :=
  reached.invariant_of_reachable (fun state => ∃ there, Tidy state there) ⟨_, initial⟩
    fun _ _ _ _ ⟨_, tidy⟩ stepped => tidy.step stepped

end Tidy

theorem called_of_step
    {label : Label}
    (stepped : state.step label = some after) :
    after.called = state.called ∨
      ∃ id fn, label = .destroy id ∧ state.At fn (.guard id) ∧
        after.called = state.called ++ [fn] := by
  cases move_of_step stepped with
  | @call id fn lives => exact .inr ⟨id, fn, rfl, lives, rfl⟩
  | _ => exact .inl rfl

/-- What `defer` promises. -/
structure CalledOnce (state : Defers) : Prop where
  /-- No function is called twice. -/
  once : state.called.Nodup
  /-- A function that was given to `defer` is held by one guard that is alive, or was
  called, or was dropped, and only one of these. -/
  placed : ∀ fn, fn < state.made → ∃! place, state.At fn place
  /-- No other function is called. -/
  unplaced : ∀ fn, state.made ≤ fn → ∀ place, ¬state.At fn place
  /-- When no guard is left, every function that was not dropped was called. -/
  settled : (∀ id, state.guard id = none) → ∀ fn, fn < state.made →
    (fn ∈ state.called ↔ fn ∉ state.dropped)
  /-- Only the destructor of a guard calls, and only what the guard holds. -/
  destroyed : ∀ label after, state.step label = some after →
    after.called = state.called ∨
      ∃ id fn, label = .destroy id ∧ state.At fn (.guard id) ∧
        after.called = state.called ++ [fn]

/-- In every state that guards can reach by being constructed, moved, dropped and destroyed,
every deferred function was called once, dropped, or is held by one guard, whose destructor
is the only one that calls it. -/
theorem deferred_called_once (reached : Reached state) : CalledOnce state := by
  obtain ⟨there, tidy⟩ := Tidy.of_reached reached
  have placed : ∀ fn, fn < state.made → ∃! place, state.At fn place := by
    intro fn made
    obtain ⟨place, here⟩ := Option.ne_none_iff_exists'.mp ((tidy.made fn).mpr made)
    have atPlace := (tidy.placement.at_iff fn place).mpr here
    exact ⟨place, atPlace, fun other atOther => tidy.placement.unique atOther atPlace⟩
  refine ⟨tidy.once, placed, fun fn later place => ?_, fun gone fn made => ?_,
    fun _ _ => called_of_step⟩
  · refine tidy.placement.nowhere ?_ place
    by_contra somewhere
    exact Nat.not_lt.mpr later ((tidy.made fn).mp somewhere)
  · obtain ⟨place, here, only⟩ := placed fn made
    cases place with
    | guard id => simp [At, gone id] at here
    | called =>
        refine iff_of_true here fun dropped => ?_
        simpa using only .dropped dropped
    | dropped =>
        refine iff_of_false (fun called => ?_) (not_not_intro here)
        simpa using only .called called

/-- The first function moves with its guard and is called, the second is dropped. -/
theorem deferred_called_once_sample :
    let state := Lib.runFrom step initial
      [.defer 0, .move 1 0, .defer 2, .destroy 0, .drop 2, .destroy 1, .finish 1, .destroy 2]
    (state.called = [0] ∧ state.dropped = [1]) ∧ CalledOnce state :=
  ⟨by decide, deferred_called_once (Lib.Reachable.runFrom _ _ _)⟩

end Defers

end Schedule
end Cgo
