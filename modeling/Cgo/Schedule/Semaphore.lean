import Cgo.Lib.Permits
import Cgo.Schedule.Place

/-!
# Semaphores

`Semaphore::aquire` and `Semaphore::release` on top of the schedulers.  Every
condition belongs to one semaphore and has its number.  A section of `aquire`
that finds no vacant unit keeps the semaphore's lock until the worker has linked
the task, so the lock is explicit; all other sections are one step.
-/

namespace Cgo
namespace Schedule

/-- Address of a `Semaphore`; its `_cond` has the same number. -/
abbrev SemId := CondId

/-- One more than the largest `size_t`. -/
def sizeBound : Nat := 2 ^ 64

/-- All contexts and all semaphores. -/
structure System where
  sched : Sched
  /-- `_vacant` -/
  vacant : SemId → Nat
  /-- the worker that holds `_mtx` across the suspension of a task -/
  mtx : SemId → Option Worker
  /-- the semaphore in whose `aquire` the task waits -/
  inside : TaskId → Option SemId
  /-- The calls of `release`. -/
  released : SemId → Nat
  /-- The calls of `aquire` that are complete. -/
  taken : SemId → Nat
  /-- The tasks that took a unit and have not given it back. -/
  holders : SemId → List TaskId

/-- The steps of the contexts and the semaphores. -/
inductive Action
  | sched (label : Label)
  /-- A resumed task runs one section of `aquire`, up to its end or to `wait`. -/
  | aquire (worker : Worker) (sem : SemId)
  /-- `release`, by a coroutine or by a thread. -/
  | release (sem : SemId) (holder : Option TaskId)
  deriving DecidableEq

namespace System

/-- The state after the constructors of the semaphores. -/
def initial (start : SemId → UInt64) : System where
  sched := .initial
  vacant := fun sem => (start sem).toNat
  mtx := fun _ => none
  inside := fun _ => none
  released := fun _ => 0
  taken := fun _ => 0
  holders := fun _ => []

variable (config : Config) (sys : System)

/-- The steps of the schedulers that are not part of a semaphore's section.  A
coroutine inside `aquire` is suspended by `wait` only. -/
def outside : Label → Bool
  | .notify _ => false
  | .forget _ _ => false
  | .pause _ (.wait _) => false
  | .pause worker _ =>
      match sys.sched.executing worker with
      | some execution => (sys.inside execution.task).isNone
      | none => true
  | _ => true

/-- The locks after a step of the schedulers: `_suspend_to_this` unlocks
`waiting_mtx` of the task. -/
def unlocked : Label → SemId → Option Worker
  | .settle worker =>
      match sys.sched.executing worker with
      | some execution =>
          if (sys.sched.task execution.task).done || (sys.sched.task execution.task).yielded then
            sys.mtx
          else
            match (sys.sched.task execution.task).waitingCond with
            | some sem => Function.update sys.mtx sem none
            | none => sys.mtx
      | none => sys.mtx
  | _ => sys.mtx

/-- The schedulers after the task has come into the loop of `aquire`, from the
call or from `wait`. -/
def entered (sem : SemId) (task : TaskId) : Sched :=
  if sys.inside task = some sem then sys.sched.forget sem task else sys.sched

/-- `aquire` finds a vacant unit. -/
def take (sem : SemId) (task : TaskId) : System :=
  { sys with
    sched := sys.entered sem task
    vacant := Function.update sys.vacant sem (sys.vacant sem - 1)
    inside := Function.update sys.inside task none
    taken := Function.update sys.taken sem (sys.taken sem + 1)
    holders := Function.update sys.holders sem (task :: sys.holders sem) }

/-- `aquire` finds none and suspends in `wait`. -/
def refuse (worker : Worker) (sem : SemId) (task : TaskId) : Option System :=
  ((sys.entered sem task).pause worker task (.wait sem)).map fun sched =>
    { sys with
      sched
      mtx := Function.update sys.mtx sem (some worker)
      inside := Function.update sys.inside task (some sem) }

/-- `Semaphore::release`. -/
def release (sem : SemId) (holder : Option TaskId) : System :=
  { sys with
    sched := sys.sched.scheduleFromThis config sem
    vacant := Function.update sys.vacant sem ((sys.vacant sem + 1) % sizeBound)
    released := Function.update sys.released sem (sys.released sem + 1)
    holders :=
      match holder with
      | some task => Function.update sys.holders sem ((sys.holders sem).erase task)
      | none => sys.holders }

/-- The next state, or `none` when the step is not enabled. -/
def step : Action → Option System
  | .sched label =>
      if sys.outside label then
        (sys.sched.step config label).map fun sched =>
          { sys with sched, mtx := sys.unlocked label }
      else none
  | .aquire worker sem =>
      match sys.sched.executing worker with
      | some ⟨task, true⟩ =>
          if sys.mtx sem = none ∧ (sys.inside task = none ∨ sys.inside task = some sem) then
            if 0 < sys.vacant sem then some (sys.take sem task)
            else sys.refuse worker sem task
          else none
      | _ => none
  | .release sem holder =>
      if sys.mtx sem = none ∧ (sys.sched.cond sem).mtx = none then
        some (sys.release config sem holder)
      else none

/-- The states that contexts and semaphores can reach. -/
abbrev Reached (start : SemId → UInt64) : Prop :=
  Lib.Reachable (step config) (initial start) sys

/-- The semaphore as a counter of permits. -/
def permits (sem : SemId) : Lib.Permits TaskId where
  vacant := sys.vacant sem
  released := sys.released sem
  taken := sys.taken sem
  blocked := (sys.sched.cond sem).blocked
  woken := (sys.sched.cond sem).notified
  linking := (sys.mtx sem).isSome

end System

/-! ## What a step can do -/

/-- The changes of a step, by what they mean for the semaphores. -/
inductive Change (config : Config) (sys : System) : Action → System → Prop
  | create (thread : ThreadId) (ctx : ContextId) :
      sys.sched.spawning thread = none →
      Change config sys (.sched (.create thread ctx))
        { sys with sched := sys.sched.create config thread ctx }
  | push (thread : ThreadId) (task : TaskId) :
      sys.sched.spawning thread = some task →
      Change config sys (.sched (.push thread))
        { sys with
          sched := { sys.sched with
            spawning := Function.update sys.sched.spawning thread none }.push config task }
  | pop (worker : Worker) (index : Nat) (task : TaskId) (rest : List TaskId) :
      sys.sched.executing worker = none →
      sys.sched.runnable ⟨worker.ctx, index⟩ = task :: rest →
      Change config sys (.sched (.pop worker index))
        { sys with
          sched := ((sys.sched.setRunnable ⟨worker.ctx, index⟩ rest).setTask task
            { sys.sched.task task with yielded := false, waitingCond := none }).setExecuting
              worker (some ⟨task, false⟩) }
  | resume (worker : Worker) (task : TaskId) :
      sys.sched.executing worker = some ⟨task, false⟩ →
      sys.sched.canResume task = true →
      Change config sys (.sched (.resume worker))
        { sys with sched := sys.sched.setExecuting worker (some ⟨task, true⟩) }
  /-- A suspension that is not inside `aquire`, or the end of the coroutine. -/
  | pause (worker : Worker) (outcome : Outcome) (task : TaskId) (value : Task) :
      sys.sched.executing worker = some ⟨task, true⟩ →
      sys.inside task = none →
      value.waitingCond = (sys.sched.task task).waitingCond →
      Change config sys (.sched (.pause worker outcome))
        { sys with
          sched := (sys.sched.setExecuting worker (some ⟨task, false⟩)).setTask task value }
  /-- `_execute` destroys its task. -/
  | finish (worker : Worker) (task : TaskId) :
      sys.sched.executing worker = some ⟨task, false⟩ →
      (sys.sched.task task).done = true →
      Change config sys (.sched (.settle worker))
        { sys with sched := (sys.sched.setExecuting worker none).destroy config task }
  /-- `_execute` puts its task back. -/
  | requeue (worker : Worker) (task : TaskId) :
      sys.sched.executing worker = some ⟨task, false⟩ →
      (sys.sched.task task).yielded = true →
      Change config sys (.sched (.settle worker))
        { sys with sched := (sys.sched.setExecuting worker none).push config task }
  /-- `_execute` links its task to a condition. -/
  | link (worker : Worker) (task : TaskId) (sem : SemId) :
      sys.sched.executing worker = some ⟨task, false⟩ →
      (sys.sched.task task).waitingCond = some sem →
      Change config sys (.sched (.settle worker))
        { sys with
          sched := (sys.sched.setExecuting worker none).suspendToThis sem task
          mtx := Function.update sys.mtx sem none }
  /-- A context goes on with its shutdown. -/
  | shutdown (label : Label) (finished : ContextId → Bool) (exited : Worker → Bool)
      (sweep : Worker → Option (List TaskId)) :
      (∀ ctx, sys.sched.finished ctx = true → finished ctx = true) →
      Change config sys (.sched label)
        { sys with sched := { sys.sched with finished, exited, sweep } }
  /-- `final_schedule` removes a waiting task. -/
  | remove (worker : Worker) (task : TaskId) (rest : List TaskId) (sem : SemId) :
      sys.sched.finished worker.ctx = true →
      sys.sched.sweep worker = some (task :: rest) →
      (sys.sched.task task).waitingCond = some sem →
      Change config sys (.sched (.sweep worker))
        { sys with
          sched := ({ sys.sched with
            sweep := Function.update sys.sched.sweep worker (some rest) }.remove
              config sem task).setTask task { sys.sched.task task with destroyed := true } }
  | take (worker : Worker) (sem : SemId) (task : TaskId) :
      sys.sched.executing worker = some ⟨task, true⟩ →
      sys.mtx sem = none →
      sys.inside task = none ∨ sys.inside task = some sem →
      0 < sys.vacant sem →
      Change config sys (.aquire worker sem) (sys.take sem task)
  | refuse (worker : Worker) (sem : SemId) (task : TaskId) :
      sys.sched.executing worker = some ⟨task, true⟩ →
      sys.mtx sem = none →
      sys.inside task = none ∨ sys.inside task = some sem →
      sys.vacant sem = 0 →
      ((sys.entered sem task).cond sem).mtx = none →
      Change config sys (.aquire worker sem)
        { sys with
          sched := (((sys.entered sem task).setExecuting worker (some ⟨task, false⟩)).setTask task
            { (sys.entered sem task).task task with waitingCond := some sem }).setCond sem
              { (sys.entered sem task).cond sem with mtx := some worker }
          mtx := Function.update sys.mtx sem (some worker)
          inside := Function.update sys.inside task (some sem) }
  | release (sem : SemId) (holder : Option TaskId) :
      sys.mtx sem = none →
      (sys.sched.cond sem).mtx = none →
      Change config sys (.release sem holder) (sys.release config sem holder)

namespace Change

variable {config : Config} {sys after : System}

/-- `_execute` gives its task away in one of three ways. -/
private theorem of_settle
    {worker : Worker}
    {task : TaskId}
    (runs : sys.sched.executing worker = some ⟨task, false⟩)
    (stops : sys.sched.canResume task = false) :
    Change config sys (.sched (.settle worker))
      { sys with
        sched := sys.sched.giveAway config worker task
        mtx := sys.unlocked (.settle worker) } := by
  simp only [System.unlocked, runs, Sched.giveAway]
  by_cases done : (sys.sched.task task).done = true
  · simpa [done] using Change.finish worker task runs done
  · by_cases yielded : (sys.sched.task task).yielded = true
    · simpa [done, yielded] using Change.requeue worker task runs yielded
    · cases waits : (sys.sched.task task).waitingCond with
      | none => simp [Sched.canResume, done, yielded, waits] at stops
      | some sem => simpa [done, yielded, waits] using Change.link worker task sem runs waits

/-- Every step of the schedulers outside the semaphores is a change. -/
private theorem of_sched
    {label : Label}
    {sched : Sched}
    (outside : sys.outside label = true)
    (stepped : sys.sched.step config label = some sched) :
    Change config sys (.sched label) { sys with sched, mtx := sys.unlocked label } := by
  cases Sched.move_of_step stepped with
  | create free => exact .create _ _ free
  | push holds => exact .push _ _ holds
  | pop _ _ _ free queued => exact .pop _ _ _ _ free queued
  | resume runs resumable => exact .resume _ _ runs resumable
  | @suspend worker task runs =>
      have free : sys.inside task = none := by simpa [System.outside, runs] using outside
      have change : Change config sys (.sched (.pause worker .suspend))
          { sys with
            sched := (sys.sched.setExecuting worker (some ⟨task, false⟩)).setTask task
              (sys.sched.task task) } :=
        .pause worker .suspend task (sys.sched.task task) runs free rfl
      simpa [Sched.setTask, Sched.setExecuting, System.unlocked] using change
  | @yield worker task runs =>
      have free : sys.inside task = none := by simpa [System.outside, runs] using outside
      exact .pause worker .yield task _ runs free rfl
  | @finish worker task runs =>
      have free : sys.inside task = none := by simpa [System.outside, runs] using outside
      exact .pause worker .finish task _ runs free rfl
  | wait => simp [System.outside] at outside
  | settle runs stops => exact of_settle runs stops
  | notify => simp [System.outside] at outside
  | forget => simp [System.outside] at outside
  | @shutdown ctx =>
      refine .shutdown _ _ sys.sched.exited sys.sched.sweep fun other finished => ?_
      rcases eq_or_ne other ctx with rfl | apart
      · simp
      · simpa [apart] using finished
  | exit => exact .shutdown _ sys.sched.finished _ sys.sched.sweep fun _ => id
  | sweepStart => exact .shutdown _ sys.sched.finished sys.sched.exited _ fun _ => id
  | sweepSkip => exact .shutdown _ sys.sched.finished sys.sched.exited _ fun _ => id
  | sweepRemove finished _ sweeps waits => exact .remove _ _ _ _ finished sweeps waits

/-- Every step is a change. -/
theorem of_step
    {action : Action}
    (stepped : sys.step config action = some after) :
    Change config sys action after := by
  cases action with
  | sched label =>
      simp only [System.step] at stepped
      split at stepped
      · rename_i outside
        obtain ⟨sched, moved, rfl⟩ := Option.map_eq_some_iff.mp stepped
        exact of_sched outside moved
      · simp at stepped
  | aquire worker sem =>
      simp only [System.step] at stepped
      split at stepped
      · rename_i task runs
        split at stepped
        · rename_i enabled
          split at stepped
          · rename_i free
            obtain rfl := Option.some.inj stepped
            exact .take worker sem task runs enabled.1 enabled.2 free
          · rename_i gone
            obtain ⟨sched, paused, rfl⟩ := Option.map_eq_some_iff.mp stepped
            simp only [Sched.pause] at paused
            split at paused
            · rename_i unlocked
              obtain rfl := Option.some.inj paused
              exact .refuse worker sem task runs enabled.1 enabled.2 (by omega) unlocked
            · simp at paused
        · simp at stepped
      · simp at stepped
  | release sem holder =>
      simp only [System.step] at stepped
      split at stepped
      · rename_i enabled
        obtain rfl := Option.some.inj stepped
        exact .release sem holder enabled.1 enabled.2
      · simp at stepped

end Change

end Schedule
end Cgo
