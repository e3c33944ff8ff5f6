import Cgo.Schedule.Oneshot

/-!
# Components that wait for semaphores

A component whose coroutines end with `co_await signal.aquire()` can be described without
the scheduler: it counts how often each semaphore has to be released, and `aquire` is over
when that is more than zero.  Here such a component runs together with the contexts and
their semaphores, which do the waiting.  A run of both is a run of the component alone, so
what is known of the component stays true.

Which worker makes a step of the component plays no part, and any may.
-/

namespace Cgo
namespace Schedule

/-- The semaphores of a component, and the tasks that wait for them. -/
structure Signals (Signal : Type) where
  start : SemId → UInt64
  sem : Signal → SemId
  signal? : SemId → Option Signal
  task : Signal → TaskId
  signals : ∀ id signal, signal? id = some signal ↔ sem signal = id
  /-- They are constructed with 0. -/
  empty : ∀ signal, start (sem signal) = 0

namespace Signals

variable {Signal : Type} (signals : Signals Signal)

/-- The semaphore is known to the task that waits for it only. -/
def permits (sys : System) : Action → Bool
  | .aquire worker sem =>
      (signals.signal? sem).all fun signal =>
        (sys.sched.executing worker).all fun execution =>
          decide (execution.task = signals.task signal)
  | _ => true

/-- The step is about no semaphore of the component. -/
def foreign : Action → Bool
  | .sched _ => true
  | .aquire _ sem => (signals.signal? sem).isNone
  | .release sem _ => (signals.signal? sem).isNone

/-- The semaphore was released that often. -/
def quiet (sys : System) (signal : Signal) (count : Nat) : Bool :=
  sys.released (signals.sem signal) == count

/-- The task is past `aquire`, or was destroyed in it. -/
def left (sys : System) (signal : Signal) : Bool :=
  sys.taken (signals.sem signal) != 0 ||
    (sys.sched.task (signals.task signal)).destroyed

@[simp] theorem signal_sem (signal : Signal) :
    signals.signal? (signals.sem signal) = some signal :=
  (signals.signals _ _).mpr rfl

variable {signals}

theorem sem_inj
    {signal other : Signal}
    (same : signals.sem signal = signals.sem other) :
    signal = other := by
  have known := signals.signal_sem signal
  rw [same, signals.signal_sem] at known
  exact (Option.some.inj known).symm

theorem owned (signal : Signal) :
    System.OwnedBy signals.permits (signals.sem signal) (signals.task signal) := by
  intro sys worker execution permitted runs
  simpa [permits, runs] using permitted

end Signals

/-- A component that waits for semaphores. -/
structure Component (State Label Signal : Type) where
  step : State → Label → Option State
  start : State
  /-- How often the semaphore has to be released. -/
  releases : State → Signal → Nat
  /-- The semaphores let the step go on. -/
  enabled : State → System → Label → Bool
  /-- A coroutine is at `co_await signal.aquire()`. -/
  waits : State → System → Signal → Bool
  /-- The state after `aquire` is complete. -/
  aquired : State → Signal → State

/-- What a component that runs alone takes for granted. -/
structure Component.Lawful {State Label Signal : Type}
    (component : Component State Label Signal) : Prop where
  /-- No release is taken back. -/
  grows : ∀ state label after signal, Lib.Reachable component.step component.start state →
    component.step state label = some after →
      component.releases state signal ≤ component.releases after signal
  /-- With a release, `aquire` completes by a step of the component, if that knows of it. -/
  wakes : ∀ state sys signal, Lib.Reachable component.step component.start state →
    component.waits state sys signal = true → 0 < component.releases state signal →
      component.aquired state signal = state ∨
        ∃ label, component.step state label = some (component.aquired state signal)
  /-- And it releases nothing. -/
  still : ∀ state signal other,
    component.releases (component.aquired state signal) other =
      component.releases state other

/-- A component on the scheduler. -/
structure Scheduled (State : Type) where
  state : State
  sys : System

namespace Scheduled

variable {State Label Signal : Type}

/-- The steps of the two systems. -/
inductive Step (Label Signal : Type)
  | component (label : Label)
  /-- A `release` that the component has to make. -/
  | release (signal : Signal)
  /-- One section of `aquire`. -/
  | aquire (worker : Worker) (signal : Signal)
  | sys (action : Action)

section

variable (component : Component State Label Signal) (config : Config)
variable (signals : Signals Signal)

/-- Neither system has made a step. -/
def initial : Scheduled State where
  state := component.start
  sys := .initial signals.start

/-- The next state, or `none` when the step is not enabled. -/
def step (scheduled : Scheduled State) : Step Label Signal → Option (Scheduled State)
  | .component label =>
      if component.enabled scheduled.state scheduled.sys label then
        (component.step scheduled.state label).map fun state => { scheduled with state }
      else none
  | .release signal =>
      if scheduled.sys.released (signals.sem signal) <
          component.releases scheduled.state signal then
        (scheduled.sys.guardedStep config signals.permits
          (.release (signals.sem signal) none)).map fun sys => { scheduled with sys }
      else none
  | .aquire worker signal =>
      if component.waits scheduled.state scheduled.sys signal then
        (scheduled.sys.guardedStep config signals.permits
          (.aquire worker (signals.sem signal))).map fun sys =>
            { sys
              state :=
                if sys.taken (signals.sem signal) =
                    scheduled.sys.taken (signals.sem signal) then scheduled.state
                else component.aquired scheduled.state signal }
      else none
  | .sys action =>
      if signals.foreign action then
        (scheduled.sys.guardedStep config signals.permits action).map fun sys =>
          { scheduled with sys }
      else none

/-- The states that the two systems reach together. -/
abbrev Reached (scheduled : Scheduled State) : Prop :=
  Lib.Reachable (step component config signals) (initial component signals) scheduled

end

variable {component : Component State Label Signal} {config : Config}
variable {signals : Signals Signal} {scheduled after : Scheduled State}

/-- What a step can do. -/
inductive Move (component : Component State Label Signal) (config : Config)
    (signals : Signals Signal) (scheduled : Scheduled State) : Scheduled State → Prop
  | component {label : Label} {state : State}
      (enabled : component.enabled scheduled.state scheduled.sys label = true)
      (stepped : component.step scheduled.state label = some state) :
      Move component config signals scheduled { scheduled with state }
  | release {signal : Signal} {sys : System}
      (owed : scheduled.sys.released (signals.sem signal) <
        component.releases scheduled.state signal)
      (stepped : scheduled.sys.guardedStep config signals.permits
        (.release (signals.sem signal) none) = some sys) :
      Move component config signals scheduled { scheduled with sys }
  /-- `aquire` suspends. -/
  | suspend {worker : Worker} {signal : Signal} {sys : System}
      (same : sys.taken (signals.sem signal) = scheduled.sys.taken (signals.sem signal))
      (stepped : scheduled.sys.guardedStep config signals.permits
        (.aquire worker (signals.sem signal)) = some sys) :
      Move component config signals scheduled { scheduled with sys }
  | aquire {worker : Worker} {signal : Signal} {sys : System}
      (waits : component.waits scheduled.state scheduled.sys signal = true)
      (took : sys.taken (signals.sem signal) ≠ scheduled.sys.taken (signals.sem signal))
      (stepped : scheduled.sys.guardedStep config signals.permits
        (.aquire worker (signals.sem signal)) = some sys) :
      Move component config signals scheduled
        { sys, state := component.aquired scheduled.state signal }
  | sys {action : Action} {sys : System}
      (foreign : signals.foreign action = true)
      (stepped : scheduled.sys.guardedStep config signals.permits action = some sys) :
      Move component config signals scheduled { scheduled with sys }

theorem move_of_step
    {label : Step Label Signal}
    (stepped : scheduled.step component config signals label = some after) :
    Move component config signals scheduled after := by
  cases label with
  | component label =>
      simp only [step] at stepped
      split at stepped
      · next enabled =>
          obtain ⟨state, moved, rfl⟩ := Option.map_eq_some_iff.mp stepped
          exact .component enabled moved
      · cases stepped
  | release signal =>
      simp only [step] at stepped
      split at stepped
      · next owed =>
          obtain ⟨sys, moved, rfl⟩ := Option.map_eq_some_iff.mp stepped
          exact .release owed moved
      · cases stepped
  | aquire worker signal =>
      simp only [step] at stepped
      split at stepped
      · next waits =>
          obtain ⟨sys, moved, rfl⟩ := Option.map_eq_some_iff.mp stepped
          by_cases same : sys.taken (signals.sem signal) =
              scheduled.sys.taken (signals.sem signal)
          · simpa [same] using Move.suspend same moved
          · simpa [same] using Move.aquire waits same moved
      · cases stepped
  | sys action =>
      simp only [step] at stepped
      split at stepped
      · next foreign =>
          obtain ⟨sys, moved, rfl⟩ := Option.map_eq_some_iff.mp stepped
          exact .sys foreign moved
      · cases stepped

/-! ## The two systems alone -/

/-- The contexts and semaphores make steps of their own. -/
theorem sys_reached (reached : Reached component config signals scheduled) :
    Lib.Reachable (System.guardedStep config signals.permits) (.initial signals.start)
      scheduled.sys := by
  refine Lib.Reachable.simulate Scheduled.sys ?_ reached
  intro before label after stepped
  cases move_of_step stepped with
  | component => exact .inl rfl
  | release _ moved => exact .inr ⟨_, moved⟩
  | suspend _ moved => exact .inr ⟨_, moved⟩
  | aquire _ _ moved => exact .inr ⟨_, moved⟩
  | sys _ moved => exact .inr ⟨_, moved⟩

/-- What the component does is a run of its own, and its semaphores are released only as
often as it says. -/
structure Consistent (component : Component State Label Signal) (signals : Signals Signal)
    (scheduled : Scheduled State) : Prop where
  state : Lib.Reachable component.step component.start scheduled.state
  released : ∀ signal, scheduled.sys.released (signals.sem signal) ≤
    component.releases scheduled.state signal

namespace Consistent

theorem initial : Consistent component signals (Scheduled.initial component signals) where
  state := .refl
  released := by simp [Scheduled.initial, System.initial]

/-- An `aquire` releases nothing. -/
private theorem released_of_aquire
    {worker : Worker}
    {signal : Signal}
    {sys : System}
    (stepped : scheduled.sys.guardedStep config signals.permits
      (.aquire worker (signals.sem signal)) = some sys)
    (other : Signal) :
    sys.released (signals.sem other) = scheduled.sys.released (signals.sem other) := by
  rcases System.released_of_step (System.step_of_guarded stepped).2 (signals.sem other) with
    same | ⟨_, _, released⟩
  · exact same
  · cases released

theorem step
    {label : Step Label Signal}
    (lawful : component.Lawful)
    (reached : Reached component config signals scheduled)
    (consistent : Consistent component signals scheduled)
    (stepped : scheduled.step component config signals label = some after) :
    Consistent component signals after := by
  have sysReached := System.reached_of_guarded (sys_reached reached)
  cases move_of_step stepped with
  | component _ moved =>
      exact ⟨consistent.state.tail moved, fun signal =>
        (consistent.released signal).trans
          (lawful.grows _ _ _ signal consistent.state moved)⟩
  | @release signal sys owed moved =>
      refine ⟨consistent.state, fun other => ?_⟩
      rcases System.released_of_step (System.step_of_guarded moved).2 (signals.sem other) with
        same | ⟨more, _, released⟩
      · rw [same]
        exact consistent.released other
      · obtain ⟨sameSem, _⟩ : signals.sem signal = signals.sem other ∧ _ := by
          simpa using released
        obtain rfl := Signals.sem_inj sameSem
        rw [more]
        exact owed
  | @suspend worker signal sys same moved =>
      refine ⟨consistent.state, fun other => ?_⟩
      rw [released_of_aquire moved other]
      exact consistent.released other
  | @aquire worker signal sys waits took moved =>
      -- the unit that was taken is there because the component has released
      have announced : 0 < component.releases scheduled.state signal :=
        (System.released_of_taken sysReached (signals.empty _)
          (System.step_of_guarded moved).2 took).trans_le (consistent.released signal)
      refine ⟨?_, fun other => ?_⟩
      · rcases lawful.wakes _ _ _ consistent.state waits announced with same | ⟨label, woken⟩
        · rw [same]
          exact consistent.state
        · exact consistent.state.tail woken
      · rw [lawful.still, released_of_aquire moved other]
        exact consistent.released other
  | @sys action sys foreign moved =>
      refine ⟨consistent.state, fun signal => ?_⟩
      rcases System.released_of_step (System.step_of_guarded moved).2 (signals.sem signal) with
        same | ⟨_, holder, rfl⟩
      · rw [same]
        exact consistent.released signal
      · simp [Signals.foreign] at foreign

theorem of_reached
    (lawful : component.Lawful)
    (reached : Reached component config signals scheduled) :
    Consistent component signals scheduled :=
  reached.invariant_of_reachable _ initial fun _ _ _ before consistent stepped =>
    consistent.step lawful before stepped

end Consistent

/-- A semaphore that the component releases at most once keeps its promise. -/
theorem oneshot_of_reached
    {signal : Signal}
    (lawful : component.Lawful)
    (reached : Reached component config signals scheduled)
    (single : component.releases scheduled.state signal ≤ 1) :
    scheduled.sys.Oneshot (signals.sem signal) :=
  .of_reached (sys_reached reached) (signals.empty signal) (Signals.owned signal)
    (((Consistent.of_reached lawful reached).released signal).trans single)

end Scheduled

end Schedule
end Cgo
