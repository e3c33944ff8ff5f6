import Cgo.Schedule.Counting

/-!
# Semaphores for one task

A semaphore that waits for one event starts at zero, is known to one task and is
released once.  Whatever else the contexts do, its task takes one unit at most, and is not
left blocked once the unit is there.
-/

namespace Cgo
namespace Schedule
namespace System

variable {config : Config} {allows : System → Action → Bool} {start : SemId → UInt64}
variable {sys after : System} {sem : SemId} {owner : TaskId}

/-- One step of the contexts and semaphores, if it is allowed. -/
def guardedStep (config : Config) (allows : System → Action → Bool)
    (sys : System) (action : Action) : Option System :=
  if allows sys action then sys.step config action else none

theorem step_of_guarded
    {action : Action}
    (stepped : sys.guardedStep config allows action = some after) :
    allows sys action = true ∧ sys.step config action = some after := by
  simp only [guardedStep] at stepped
  split at stepped
  · next allowed => exact ⟨allowed, stepped⟩
  · cases stepped

theorem reached_of_guarded
    (reached : Lib.Reachable (guardedStep config allows) (.initial start) sys) :
    sys.Reached config start :=
  reached.simulate id fun _ action _ stepped => .inr ⟨action, (step_of_guarded stepped).2⟩

/-- Releases are counted, and nothing else is. -/
theorem released_of_step
    {action : Action}
    (stepped : sys.step config action = some after)
    (sem : SemId) :
    after.released sem = sys.released sem ∨
      after.released sem = sys.released sem + 1 ∧ ∃ holder, action = .release sem holder := by
  cases Change.of_step stepped with
  | release other holder =>
      by_cases same : sem = other
      · subst same
        exact .inr ⟨by simp [release], holder, rfl⟩
      · exact .inl (by simp [release, same])
  | _ => exact .inl rfl

/-- So are the units that `aquire` has taken. -/
theorem taken_of_step
    {action : Action}
    (stepped : sys.step config action = some after)
    (sem : SemId) :
    after.taken sem = sys.taken sem ∨
      after.taken sem = sys.taken sem + 1 ∧ ∃ worker, action = .aquire worker sem := by
  cases Change.of_step stepped with
  | take worker other =>
      by_cases same : sem = other
      · subst same
        exact .inr ⟨by simp [take], worker, rfl⟩
      · exact .inl (by simp [take, same])
  | _ => exact .inl rfl

/-- Only its owner comes to the semaphore. -/
def OwnedBy (allows : System → Action → Bool) (sem : SemId) (owner : TaskId) : Prop :=
  ∀ sys worker execution, allows sys (.aquire worker sem) = true →
    sys.sched.executing worker = some execution → execution.task = owner

/-- The task inside the semaphore's `aquire` is the owner. -/
theorem eq_owner_of_inside
    (reached : Lib.Reachable (guardedStep config allows) (.initial start) sys)
    (owned : OwnedBy allows sem owner)
    {task : TaskId}
    (within : sys.inside task = some sem) :
    task = owner := by
  refine reached.invariant_of_reachable (fun sys => ∀ task, sys.inside task = some sem →
    task = owner) ?_ ?_ task within
  · simp [initial]
  · intro before action after _ own stepped task within
    obtain ⟨allowed, moved⟩ := step_of_guarded stepped
    cases Change.of_step moved with
    | take worker other taker runs =>
        by_cases same : task = taker
        · simp [take, same] at within
        · exact own task (by simpa [take, same] using within)
    | refuse worker other waiter runs =>
        by_cases same : task = waiter
        · subst same
          obtain rfl : other = sem := by simpa using within
          exact owned before worker _ allowed runs
        · exact own task (by simpa [same] using within)
    | _ => exact own task within

/-- The owner is not left blocked with a unit there. -/
theorem not_blocked_of_vacant
    (reached : Lib.Reachable (guardedStep config allows) (.initial start) sys)
    (owned : OwnedBy allows sem owner)
    (running : ∀ ctx, sys.sched.finished ctx = false)
    (vacant : 0 < sys.vacant sem) :
    (sys.sched.cond sem).blocked = [] := by
  have sysReached := reached_of_guarded reached
  have placed := placed_of_reached sysReached
  have insides : Inside sys := .of_reached sysReached
  refine List.eq_nil_iff_forall_not_mem.mpr fun waiter blocked => ?_
  have isOwner := eq_owner_of_inside reached owned (insides.of_blocked placed blocked)
  -- the only task that could be on the way is the one that is blocked
  have nobody : (sys.sched.cond sem).notified = [] := by
    refine List.eq_nil_iff_forall_not_mem.mpr fun task woken => ?_
    have notified := Notified.of_reached sysReached
    obtain ⟨within, inHand⟩ := (notified.mem_iff_onTheWay sem task).mp woken
    obtain rfl : task = waiter := (eq_owner_of_inside reached owned within).trans isOwner.symm
    exact Notified.not_inHand_of_blocked placed blocked inHand
  have covered := covered_of_running sysReached running sem ⟨waiter, blocked, trivial⟩
  simp only [permits, nobody, List.length_nil] at covered
  omega

/-- The account of a semaphore that starts at zero. -/
theorem account
    (reached : sys.Reached config start)
    (empty : start sem = 0)
    (few : sys.released sem < sizeBound) :
    sys.vacant sem + sys.taken sem = sys.released sem := by
  have balanced := balanced_of_reached reached sem
  rw [empty] at balanced
  have small : (0 : UInt64).toNat + sys.released sem < sizeBound := by
    rwa [UInt64.toNat_zero, Nat.zero_add]
  simpa [permits] using balanced.exact_account small

/-- Nobody takes a unit before the first release. -/
theorem released_of_taken
    {worker : Worker}
    (reached : sys.Reached config start)
    (empty : start sem = 0)
    (stepped : sys.step config (.aquire worker sem) = some after)
    (took : after.taken sem ≠ sys.taken sem) :
    0 < sys.released sem := by
  by_contra unreleased
  have sum := account reached empty (by simp only [sizeBound]; omega)
  cases Change.of_step stepped with
  | take _ _ _ _ _ _ free => omega
  | refuse => exact took rfl

/-- What a semaphore for one task promises. -/
structure Oneshot (sys : System) (sem : SemId) : Prop where
  /-- The semaphore is released once at most, and `aquire` completes once at most. -/
  once : sys.taken sem ≤ sys.released sem ∧ sys.released sem ≤ 1
  /-- While no context is shut down, a task that has not taken its unit is not blocked. -/
  awake : (∀ ctx, sys.sched.finished ctx = false) →
    sys.released sem = 1 → sys.taken sem = 0 → (sys.sched.cond sem).blocked = []

/-- A semaphore for one task that is released once keeps its promise. -/
theorem Oneshot.of_reached
    (reached : Lib.Reachable (guardedStep config allows) (.initial start) sys)
    (empty : start sem = 0)
    (owned : OwnedBy allows sem owner)
    (single : sys.released sem ≤ 1) :
    Oneshot sys sem := by
  have sum := account (reached_of_guarded reached) empty (by simp only [sizeBound]; omega)
  refine ⟨⟨by omega, single⟩, fun running done left => ?_⟩
  exact not_blocked_of_vacant reached owned running (by omega)

end System
end Schedule
end Cgo
