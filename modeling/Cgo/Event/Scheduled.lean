import Cgo.Event.Race
import Cgo.Schedule.Component

/-!
# Socket waits on the scheduler

Each call of `Socket::_wait_sock_event` has a semaphore of its own, which the callback that
has claimed releases.  Here any number of calls run together with the contexts and their
semaphores.
-/

namespace Cgo
namespace Event

open Schedule (Component Config Scheduled Signals System)

/-- Number of a call of `_wait_sock_event`. -/
abbrev CallId := Nat

namespace Race

/-- After `aquire`. -/
def aquired (race : Race) : Race :=
  { race with
    waiter := .resumed
    signal := { race.signal with signal := race.signal.signal - 1 } }

/-- One step of one of the calls. -/
def stepOf (timed : CallId → Bool) (races : CallId → Race) (label : CallId × Label) :
    Option (CallId → Race) :=
  ((races label.1).step (timed label.1) label.2).map (Function.update races label.1)

/-- The step is not the end of `aquire`. -/
def Label.free : Label → Bool
  | .aquire => false
  | _ => true

/-- The calls as a component that waits for semaphores. -/
def calls (timed : CallId → Bool) :
    Component (CallId → Race) (CallId × Label) CallId where
  step := stepOf timed
  start _ := .initial
  releases races call := (races call).releases
  enabled _ _ label := label.2.free
  waits races _ call := decide ((races call).waiter = .aquiring)
  aquired races call := Function.update races call (races call).aquired

variable {timed : CallId → Bool} {races after : CallId → Race} {call : CallId}

/-- A step is one of its call, and leaves the other calls alone. -/
theorem step_of_stepOf
    {label : CallId × Label}
    (stepped : stepOf timed races label = some after) :
    (races label.1).step (timed label.1) label.2 = some (after label.1) ∧
      ∀ other, other ≠ label.1 → after other = races other := by
  obtain ⟨race, moved, rfl⟩ := Option.map_eq_some_iff.mp stepped
  exact ⟨by simpa using moved, fun other apart => by simp [apart]⟩

/-- Every call runs as it does alone. -/
theorem reached_of_races
    (reached : Lib.Reachable (stepOf timed) (fun _ => .initial) races)
    (call : CallId) :
    Lib.Reachable (step (timed call)) .initial (races call) := by
  refine Lib.Reachable.simulate (fun races => races call) ?_ reached
  intro before label after stepped
  obtain ⟨moved, others⟩ := step_of_stepOf stepped
  by_cases own : call = label.1
  · subst own
    exact .inr ⟨label.2, moved⟩
  · exact .inl (others call own)

theorem releases_le_of_step
    {timed : Bool}
    {race after : Race}
    {label : Label}
    (stepped : race.step timed label = some after) :
    race.releases ≤ after.releases := by
  cases move_of_step stepped with
  | release => exact Nat.le_succ _
  | _ => exact le_rfl

/-- Only the end of `aquire` takes a permit. -/
theorem taken_of_step
    {timed : Bool}
    {race after : Race}
    {label : Label}
    (stepped : race.step timed label = some after)
    (free : label.free = true) :
    after.waiter.taken = race.waiter.taken := by
  cases move_of_step stepped with
  | register called => simp [called, Waiter.taken]
  | arm registered => simp [registered, Waiter.taken]
  | aquire => cases free
  | answer resumed => simp [resumed, Waiter.taken]
  | _ => rfl

theorem lawful : (calls timed).Lawful where
  grows races label after call _ stepped := by
    obtain ⟨moved, others⟩ := step_of_stepOf stepped
    by_cases own : call = label.1
    · subst own
      exact releases_le_of_step moved
    · exact (congrArg Race.releases (others call own)).ge
  wakes races _ call reached waiting released := by
    have aquiring : (races call).waiter = .aquiring := of_decide_eq_true waiting
    have permits := (Sound.of_reached (reached_of_races reached call)).permits
    have permitted : 0 < (races call).signal.signal := by
      have some_ : 0 < (races call).releases := released
      simp only [aquiring, Waiter.taken] at permits
      omega
    refine .inr ⟨(call, .aquire), Option.map_eq_some_iff.mpr ⟨(races call).aquired, ?_, rfl⟩⟩
    exact if_pos ⟨aquiring, permitted⟩
  still races call other := by
    by_cases same : other = call
    · subst same
      simp [calls, aquired]
    · simp [calls, same]

variable {config : Config} {signals : Signals CallId} {waiting : Scheduled (CallId → Race)}

/-- Each call runs as it does when its waiting is a count of permits. -/
theorem race_reached
    (reached : Scheduled.Reached (calls timed) config signals waiting)
    (call : CallId) :
    Lib.Reachable (step (timed call)) .initial (waiting.state call) :=
  reached_of_races (Scheduled.Consistent.of_reached lawful reached).state call

/-- A call is past `aquire` when its semaphore gave a unit away. -/
theorem taken_eq
    (reached : Scheduled.Reached (calls timed) config signals waiting)
    (call : CallId) :
    (waiting.state call).waiter.taken = waiting.sys.taken (signals.sem call) := by
  refine reached.invariant_of_reachable (fun waiting : Scheduled (CallId → Race) =>
    (waiting.state call).waiter.taken = waiting.sys.taken (signals.sem call)) rfl ?_
  intro before label after _ same stepped
  cases Scheduled.move_of_step stepped with
  | @component label races enabled moved =>
      obtain ⟨moved, others⟩ := step_of_stepOf moved
      by_cases own : call = label.1
      · subst own
        exact (taken_of_step moved enabled).trans same
      · rw [← same, ← others call own]
  | @release _ sys _ moved =>
      rcases System.taken_of_step (System.step_of_guarded moved).2 (signals.sem call) with
        kept | ⟨_, _, taken⟩
      · exact same.trans kept.symm
      · cases taken
  | @suspend worker other sys kept moved =>
      rcases System.taken_of_step (System.step_of_guarded moved).2 (signals.sem call) with
        kept | ⟨more, _, taken⟩
      · exact same.trans kept.symm
      · obtain ⟨_, sameSem⟩ : _ ∧ signals.sem other = signals.sem call := by simpa using taken
        rw [sameSem] at kept
        omega
  | @aquire worker other sys waits took moved =>
      rcases System.taken_of_step (System.step_of_guarded moved).2 (signals.sem call) with
        kept | ⟨more, _, taken⟩
      · have apart : call ≠ other := by
          rintro rfl
          exact took kept
        simpa [calls, apart, kept] using same
      · obtain ⟨_, sameSem⟩ : _ ∧ signals.sem other = signals.sem call := by simpa using taken
        obtain rfl := Signals.sem_inj sameSem
        have aquiring : (before.state other).waiter = .aquiring := of_decide_eq_true waits
        rw [aquiring] at same
        simp [calls, aquired, Waiter.taken, more, ← same]
  | @sys action sys foreign moved =>
      rcases System.taken_of_step (System.step_of_guarded moved).2 (signals.sem call) with
        kept | ⟨_, worker, rfl⟩
      · exact same.trans kept.symm
      · simp [Signals.foreign] at foreign

/-! ## Every wait ends once -/

/-- What a wait promises. -/
structure EndsOnce (signals : Signals CallId) (waiting : Scheduled (CallId → Race))
    (call : CallId) : Prop where
  /-- The semaphore is released once at most, `aquire` completes once at most, and while no
  context is shut down the task is not left blocked after the release. -/
  oneshot : waiting.sys.Oneshot (signals.sem call)
  /-- When the semaphore is released, and so when `aquire` has completed, a callback had
  claimed. -/
  claimed : waiting.sys.released (signals.sem call) ≠ 0 → (waiting.state call).claimed ≠ none
  /-- The wait returns after that, and `true` when an event callback had claimed. -/
  answered : ∀ ready, (waiting.state call).waiter = .returned ready →
    waiting.sys.taken (signals.sem call) = 1 ∧
      (ready = true ↔ ∃ id, (waiting.state call).claimed = some (id, .event))
  /-- When a callback has claimed and called `release`, nothing is left to release. -/
  kept : signals.quiet waiting.sys call (waiting.state call).releases = true →
    (∀ id callback, (waiting.state call).invocation id ≠ some (callback, .release)) →
      (waiting.state call).claimed ≠ none → waiting.sys.released (signals.sem call) = 1

/-- In every state that the calls and the contexts reach together, every wait ends once,
after the callback that claimed, and is not left waiting afterwards. -/
theorem wait_ends_once
    (reached : Scheduled.Reached (calls timed) config signals waiting)
    (call : CallId) :
    EndsOnce signals waiting call := by
  have consistent := Scheduled.Consistent.of_reached lawful reached
  have sound := Sound.of_reached (race_reached reached call)
  have taken := taken_eq reached call
  have oneshot : waiting.sys.Oneshot (signals.sem call) :=
    Scheduled.oneshot_of_reached lawful reached sound.releases_le
  refine ⟨oneshot, fun released unclaimed => ?_, fun ready returned => ⟨?_, ?_⟩,
    fun quiet nobody claimed => ?_⟩
  · have unreleased : (waiting.state call).releases = 0 := (sound.unclaimed unclaimed).2.1
    have made : waiting.sys.released (signals.sem call) ≤ (waiting.state call).releases :=
      consistent.released call
    omega
  · rw [← taken, returned]
    rfl
  · exact sound.answered ready returned
  · obtain ⟨⟨id, callback⟩, winner⟩ := Option.ne_none_iff_exists'.mp claimed
    have made : waiting.sys.released (signals.sem call) = (waiting.state call).releases := by
      simpa [Signals.quiet] using quiet
    rcases (sound.claimed id callback winner).2 with ⟨releasing, _⟩ | ⟨_, released⟩
    · exact absurd releasing (nobody id callback)
    · exact made.trans released

/-- Each call has the semaphore and the task of its number. -/
private def ownSignals : Signals CallId where
  start _ := 0
  sem call := call
  signal? id := some id
  task call := ⟨0, call⟩
  signals _ _ := Option.some_inj.trans eq_comm
  empty _ := rfl

/-- Task 0 waits, and the event comes. -/
private def eventComes : List (Scheduled.Step (CallId × Label) CallId) :=
  [.sys (.sched (.create 0 0)), .sys (.sched (.push 0)),
    .sys (.sched (.pop ⟨0, 0⟩ 0)), .sys (.sched (.resume ⟨0, 0⟩)),
    .component (0, .register), .component (0, .arm), .aquire ⟨0, 0⟩ 0,
    .sys (.sched (.settle ⟨0, 0⟩)),
    .component (0, .invoke 0 .event), .component (0, .exchange 0 false),
    .component (0, .release 0), .release 0,
    .sys (.sched (.pop ⟨0, 0⟩ 0)), .sys (.sched (.resume ⟨0, 0⟩)), .aquire ⟨0, 0⟩ 0,
    .component (0, .answer)]

/-- The state after it. -/
private def woken : Scheduled (CallId → Race) :=
  Lib.runFrom (Scheduled.step (calls fun _ => true) Schedule.oneWorker ownSignals)
    (.initial (calls fun _ => true) ownSignals) eventComes

theorem wait_ends_once_sample :
    (woken.state 0).waiter = .returned true ∧ EndsOnce ownSignals woken 0 :=
  ⟨by decide, wait_ends_once (Lib.Reachable.runFrom _ _ _) 0⟩

end Race

end Event
end Cgo
