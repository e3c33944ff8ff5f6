import Cgo.Lib.Path
import Mathlib.Logic.Function.Basic

/-!
# Tasks, workers and conditions

`SchedContext` and `SchedContext::Condition`: contexts with a runnable queue and
an allocator for each partition, workers that pop tasks and execute them, and
conditions that tasks wait on.  Each locked section of the source is one step,
and so is each stretch of `_execute` between two of them; the lock of a
condition is explicit because `Condition::wait` takes it inside the coroutine
and the worker releases it after the task is linked.
-/

namespace Cgo
namespace Schedule

/-- Address of a `Context`. -/
abbrev ContextId := Nat

/-- Address of a `Condition`. -/
abbrev CondId := Nat

/-- A thread that spawns. -/
abbrev ThreadId := Nat

/-- `BaseTask`: the context of a task and its number there. -/
structure TaskId where
  ctx : ContextId
  id : Nat
  deriving DecidableEq

/-- A partition of a context. -/
structure Partition where
  ctx : ContextId
  index : Nat
  deriving DecidableEq

/-- The worker that runs a partition, its `pindex`. -/
abbrev Worker := Partition

/-- The number of workers with which each context was started. -/
structure Config where
  partitions : ContextId → Nat
  partitions_pos : ∀ ctx, 0 < partitions ctx

/-- `_scheduler(id)` and `_allocator(id)` of the task's own context. -/
def Config.home (config : Config) (task : TaskId) : Partition :=
  ⟨task.ctx, task.id % config.partitions task.ctx⟩

/-- What the scheduler reads and writes of a task.  `done` is that of its
coroutine, and `destroyed` that `FrameOperator::destroy` ran on it. -/
structure Task where
  done : Bool
  yielded : Bool
  waitingCond : Option CondId
  destroyed : Bool
  deriving DecidableEq

/-- A task that has just been created. -/
def Task.fresh : Task where
  done := false
  yielded := false
  waitingCond := none
  destroyed := false

/-- A condition: the blocked list, `_scheduled_ctx`, and the worker that holds
`_mtx` across the suspension of a task. -/
structure Cond where
  blocked : List TaskId
  scheduledCtx : Option ContextId
  mtx : Option Worker
  /-- The tasks that were notified and have not come back from `wait`, oldest
  first.  The code does not keep them. -/
  notified : List TaskId

/-- `_running_task` of a worker, and whether it is inside
`FrameOperator::resume`. -/
structure Execution where
  task : TaskId
  resuming : Bool
  deriving DecidableEq

/-- The state of all contexts. -/
structure Sched where
  /-- `_tid` -/
  tid : ContextId → Nat
  /-- `_pool` of an allocator, oldest first -/
  pool : Partition → List TaskId
  runnable : Partition → List TaskId
  cond : CondId → Cond
  task : TaskId → Task
  /-- the task that a thread has created and not pushed yet -/
  spawning : ThreadId → Option TaskId
  executing : Worker → Option Execution
  /-- `_finished` -/
  finished : ContextId → Bool
  /-- the worker has left the loop of `_run` -/
  exited : Worker → Bool
  /-- the tasks that `final_schedule` still has to visit -/
  sweep : Worker → Option (List TaskId)

/-- How a call of `FrameOperator::resume` ends. -/
inductive Outcome
  /-- a suspension that the scheduler does not know of -/
  | suspend
  | yield
  /-- `Condition::wait`, which has taken the condition's lock -/
  | wait (cond : CondId)
  | finish
  deriving DecidableEq

/-- The steps of the system. -/
inductive Label
  /-- `create_scheduled` takes a number and calls `Allocator::create`. -/
  | create (thread : ThreadId) (ctx : ContextId)
  /-- `create_scheduled` pushes the new task. -/
  | push (thread : ThreadId)
  /-- `run_scheduled` pops a task, of its own partition or of another, and
  `_execute` starts. -/
  | pop (worker : Worker) (index : Nat)
  /-- The loop of `_execute` resumes the task. -/
  | resume (worker : Worker)
  /-- The resumed coroutine returns to `_execute`. -/
  | pause (worker : Worker) (outcome : Outcome)
  /-- `_execute` gives the task away. -/
  | settle (worker : Worker)
  /-- `Condition::notify`. -/
  | notify (cond : CondId)
  /-- A resumed task comes back from `Condition::wait`. -/
  | forget (worker : Worker) (cond : CondId)
  /-- `Context::shutdown` sets `_finished`. -/
  | shutdown (ctx : ContextId)
  /-- A worker leaves the loop of `_run`. -/
  | exit (worker : Worker)
  /-- `final_schedule` starts, or visits its next task. -/
  | sweep (worker : Worker)
  deriving DecidableEq

namespace Sched

/-- The state before the run. -/
def initial : Sched where
  tid := fun _ => 0
  pool := fun _ => []
  runnable := fun _ => []
  cond := fun _ => ⟨[], none, none, []⟩
  task := fun _ => .fresh
  spawning := fun _ => none
  executing := fun _ => none
  finished := fun _ => false
  exited := fun _ => false
  sweep := fun _ => none

variable (config : Config) (sched : Sched)

/-- The state with another list of tasks in a runnable queue. -/
def setRunnable (partition : Partition) (tasks : List TaskId) : Sched :=
  { sched with runnable := Function.update sched.runnable partition tasks }

/-- `Scheduler::push` on the task's own partition. -/
def push (task : TaskId) : Sched :=
  sched.setRunnable (config.home task) (sched.runnable (config.home task) ++ [task])

/-- The state with another condition. -/
def setCond (cond : CondId) (value : Cond) : Sched :=
  { sched with cond := Function.update sched.cond cond value }

/-- The state with other fields of a task. -/
def setTask (task : TaskId) (value : Task) : Sched :=
  { sched with task := Function.update sched.task task value }

/-- The state with another running task of a worker. -/
def setExecuting (worker : Worker) (execution : Option Execution) : Sched :=
  { sched with executing := Function.update sched.executing worker execution }

/-- `Condition::_schedule_from_this`. -/
def scheduleFromThis (cond : CondId) : Sched :=
  match (sched.cond cond).blocked with
  | [] => sched
  | task :: blocked =>
      (sched.setCond cond
        { sched.cond cond with
          blocked
          scheduledCtx := some task.ctx
          notified := (sched.cond cond).notified ++ [task] }).push config task

/-- The end of `Condition::wait`. -/
def forget (cond : CondId) (task : TaskId) : Sched :=
  sched.setCond cond
    { sched.cond cond with
      scheduledCtx := none
      notified := (sched.cond cond).notified.erase task }

/-- `unlink_this` of a task, from whatever list it is linked in. -/
def unlinkThis (task : TaskId) : Sched :=
  { sched with
    runnable := fun partition => (sched.runnable partition).erase task
    cond := fun cond =>
      { sched.cond cond with
        blocked := (sched.cond cond).blocked.erase task
        notified := (sched.cond cond).notified.erase task } }

/-- `Condition::_remove`. -/
def remove (cond : CondId) (task : TaskId) : Sched :=
  let unlinked := sched.unlinkThis task
  if (unlinked.cond cond).scheduledCtx = none ∨
      (unlinked.cond cond).scheduledCtx = some task.ctx then
    unlinked.scheduleFromThis config cond
  else unlinked

/-- `Condition::_suspend_to_this`. -/
def suspendToThis (cond : CondId) (task : TaskId) : Sched :=
  sched.setCond cond
    { sched.cond cond with
      blocked := (sched.cond cond).blocked ++ [task]
      mtx := none }

/-- `Allocator::create` and the number it is given. -/
def create (thread : ThreadId) (ctx : ContextId) : Sched :=
  let task : TaskId := ⟨ctx, sched.tid ctx⟩
  let home := config.home task
  { sched.setTask task .fresh with
    tid := Function.update sched.tid ctx (sched.tid ctx + 1)
    pool := Function.update sched.pool home (sched.pool home ++ [task])
    spawning := Function.update sched.spawning thread (some task) }

/-- `Allocator::destroy`. -/
def destroy (task : TaskId) : Sched :=
  let home := config.home task
  { sched with pool := Function.update sched.pool home ((sched.pool home).erase task) }

/-- The loop condition of `_execute`. -/
def canResume (task : TaskId) : Bool :=
  !(sched.task task).yielded && (sched.task task).waitingCond.isNone &&
    !(sched.task task).done

/-- The end of `_execute`, for a task that cannot be resumed again. -/
def giveAway (worker : Worker) (task : TaskId) : Sched :=
  let released := sched.setExecuting worker none
  if (sched.task task).done then released.destroy config task
  else if (sched.task task).yielded then released.push config task
  else
    match (sched.task task).waitingCond with
    | some cond => released.suspendToThis cond task
    | none => released

/-- The state after the coroutine returned to `_execute`, or `none` while it
spins on the condition's lock. -/
def pause (worker : Worker) (task : TaskId) (outcome : Outcome) : Option Sched :=
  let returned := sched.setExecuting worker (some ⟨task, false⟩)
  match outcome with
  | .suspend => some returned
  | .yield => some (returned.setTask task { sched.task task with yielded := true })
  | .finish => some (returned.setTask task { sched.task task with done := true })
  | .wait cond =>
      if (sched.cond cond).mtx = none then
        some ((returned.setTask task
          { sched.task task with waitingCond := some cond }).setCond cond
            { sched.cond cond with mtx := some worker })
      else none

/-- All workers of a context have left their loops. -/
def AllExited (ctx : ContextId) : Prop :=
  ∀ index, index < config.partitions ctx → sched.exited ⟨ctx, index⟩ = true

instance (ctx : ContextId) : Decidable (sched.AllExited config ctx) :=
  inferInstanceAs (Decidable (∀ index, index < config.partitions ctx →
    sched.exited ⟨ctx, index⟩ = true))

/-- The next state, or `none` when the step is not enabled. -/
def step : Label → Option Sched
  | .create thread ctx =>
      if sched.spawning thread = none then some (sched.create config thread ctx) else none
  | .push thread =>
      match sched.spawning thread with
      | none => none
      | some task =>
          some ({ sched with
            spawning := Function.update sched.spawning thread none }.push config task)
  | .pop worker index =>
      if worker.index < config.partitions worker.ctx ∧
          index < config.partitions worker.ctx ∧
          sched.exited worker = false ∧ sched.executing worker = none then
        match sched.runnable ⟨worker.ctx, index⟩ with
        | [] => none
        | task :: rest =>
            some (((sched.setRunnable ⟨worker.ctx, index⟩ rest).setTask task
              { sched.task task with yielded := false, waitingCond := none }).setExecuting
                worker (some ⟨task, false⟩))
      else none
  | .resume worker =>
      match sched.executing worker with
      | some ⟨task, false⟩ =>
          if sched.canResume task then some (sched.setExecuting worker (some ⟨task, true⟩))
          else none
      | _ => none
  | .pause worker outcome =>
      match sched.executing worker with
      | some ⟨task, true⟩ => sched.pause worker task outcome
      | _ => none
  | .settle worker =>
      match sched.executing worker with
      | some ⟨task, false⟩ =>
          if sched.canResume task then none else some (sched.giveAway config worker task)
      | _ => none
  | .notify cond =>
      if (sched.cond cond).mtx = none then some (sched.scheduleFromThis config cond)
      else none
  | .forget worker cond =>
      match sched.executing worker with
      | some ⟨task, true⟩ => some (sched.forget cond task)
      | _ => none
  | .shutdown ctx => some { sched with finished := Function.update sched.finished ctx true }
  | .exit worker =>
      if sched.finished worker.ctx = true ∧ sched.executing worker = none then
        some { sched with exited := Function.update sched.exited worker true }
      else none
  | .sweep worker =>
      if sched.finished worker.ctx = true ∧ sched.AllExited config worker.ctx then
        match sched.sweep worker with
        | none =>
            some { sched with
              sweep := Function.update sched.sweep worker (some (sched.pool worker)) }
        | some [] => none
        | some (task :: rest) =>
            let swept := { sched with
              sweep := Function.update sched.sweep worker (some rest) }
            match (sched.task task).waitingCond with
            | none => some swept
            | some cond =>
                if (sched.cond cond).mtx = none then
                  some ((swept.remove config cond task).setTask task
                    { sched.task task with destroyed := true })
                else none
      else none

/-- What a step can do, with the guards under which it does it. -/
inductive Move : Label → Sched → Prop
  | create {thread : ThreadId} {ctx : ContextId}
      (free : sched.spawning thread = none) :
      Move (.create thread ctx) (sched.create config thread ctx)
  | push {thread : ThreadId} {task : TaskId}
      (holds : sched.spawning thread = some task) :
      Move (.push thread)
        ({ sched with
          spawning := Function.update sched.spawning thread none }.push config task)
  | pop {worker : Worker} {index : Nat} {task : TaskId} {rest : List TaskId}
      (inRange : worker.index < config.partitions worker.ctx)
      (known : index < config.partitions worker.ctx)
      (running : sched.exited worker = false)
      (free : sched.executing worker = none)
      (queued : sched.runnable ⟨worker.ctx, index⟩ = task :: rest) :
      Move (.pop worker index)
        (((sched.setRunnable ⟨worker.ctx, index⟩ rest).setTask task
          { sched.task task with yielded := false, waitingCond := none }).setExecuting
            worker (some ⟨task, false⟩))
  | resume {worker : Worker} {task : TaskId}
      (runs : sched.executing worker = some ⟨task, false⟩)
      (resumable : sched.canResume task = true) :
      Move (.resume worker) (sched.setExecuting worker (some ⟨task, true⟩))
  | suspend {worker : Worker} {task : TaskId}
      (runs : sched.executing worker = some ⟨task, true⟩) :
      Move (.pause worker .suspend) (sched.setExecuting worker (some ⟨task, false⟩))
  | yield {worker : Worker} {task : TaskId}
      (runs : sched.executing worker = some ⟨task, true⟩) :
      Move (.pause worker .yield)
        ((sched.setExecuting worker (some ⟨task, false⟩)).setTask task
          { sched.task task with yielded := true })
  | finish {worker : Worker} {task : TaskId}
      (runs : sched.executing worker = some ⟨task, true⟩) :
      Move (.pause worker .finish)
        ((sched.setExecuting worker (some ⟨task, false⟩)).setTask task
          { sched.task task with done := true })
  | wait {worker : Worker} {task : TaskId} {cond : CondId}
      (runs : sched.executing worker = some ⟨task, true⟩)
      (unlocked : (sched.cond cond).mtx = none) :
      Move (.pause worker (.wait cond))
        (((sched.setExecuting worker (some ⟨task, false⟩)).setTask task
          { sched.task task with waitingCond := some cond }).setCond cond
            { sched.cond cond with mtx := some worker })
  | settle {worker : Worker} {task : TaskId}
      (runs : sched.executing worker = some ⟨task, false⟩)
      (stops : sched.canResume task = false) :
      Move (.settle worker) (sched.giveAway config worker task)
  | notify {cond : CondId}
      (unlocked : (sched.cond cond).mtx = none) :
      Move (.notify cond) (sched.scheduleFromThis config cond)
  | forget {worker : Worker} {cond : CondId} {task : TaskId}
      (runs : sched.executing worker = some ⟨task, true⟩) :
      Move (.forget worker cond) (sched.forget cond task)
  | shutdown {ctx : ContextId} :
      Move (.shutdown ctx) { sched with finished := Function.update sched.finished ctx true }
  | exit {worker : Worker}
      (finished : sched.finished worker.ctx = true)
      (free : sched.executing worker = none) :
      Move (.exit worker) { sched with exited := Function.update sched.exited worker true }
  | sweepStart {worker : Worker}
      (finished : sched.finished worker.ctx = true)
      (allExited : sched.AllExited config worker.ctx)
      (fresh : sched.sweep worker = none) :
      Move (.sweep worker)
        { sched with sweep := Function.update sched.sweep worker (some (sched.pool worker)) }
  | sweepSkip {worker : Worker} {task : TaskId} {rest : List TaskId}
      (finished : sched.finished worker.ctx = true)
      (allExited : sched.AllExited config worker.ctx)
      (sweeps : sched.sweep worker = some (task :: rest))
      (idle : (sched.task task).waitingCond = none) :
      Move (.sweep worker)
        { sched with sweep := Function.update sched.sweep worker (some rest) }
  | sweepRemove {worker : Worker} {task : TaskId} {rest : List TaskId} {cond : CondId}
      (finished : sched.finished worker.ctx = true)
      (allExited : sched.AllExited config worker.ctx)
      (sweeps : sched.sweep worker = some (task :: rest))
      (waits : (sched.task task).waitingCond = some cond)
      (unlocked : (sched.cond cond).mtx = none) :
      Move (.sweep worker)
        (({ sched with
          sweep := Function.update sched.sweep worker (some rest) }.remove config cond task).setTask
            task { sched.task task with destroyed := true })

variable {config sched}

theorem move_of_step
    {label : Label}
    {after : Sched}
    (stepped : sched.step config label = some after) :
    sched.Move config label after := by
  cases label with
  | create thread ctx =>
      simp only [step] at stepped
      split at stepped
      · next free =>
          obtain rfl := Option.some.inj stepped
          exact .create free
      · cases stepped
  | push thread =>
      simp only [step] at stepped
      split at stepped
      · cases stepped
      · next task holds =>
          obtain rfl := Option.some.inj stepped
          exact .push holds
  | pop worker index =>
      simp only [step] at stepped
      split at stepped
      · next enabled =>
          obtain ⟨inRange, known, running, free⟩ := enabled
          split at stepped
          · cases stepped
          · next task rest queued =>
              obtain rfl := Option.some.inj stepped
              exact .pop inRange known running free queued
      · cases stepped
  | resume worker =>
      simp only [step] at stepped
      split at stepped
      · next task runs =>
          split at stepped
          · next resumable =>
              obtain rfl := Option.some.inj stepped
              exact .resume runs resumable
          · cases stepped
      · cases stepped
  | pause worker outcome =>
      simp only [step] at stepped
      split at stepped
      · next task runs =>
          cases outcome with
          | suspend =>
              obtain rfl := Option.some.inj stepped
              exact .suspend runs
          | yield =>
              obtain rfl := Option.some.inj stepped
              exact .yield runs
          | finish =>
              obtain rfl := Option.some.inj stepped
              exact .finish runs
          | wait cond =>
              simp only [pause] at stepped
              split at stepped
              · next unlocked =>
                  obtain rfl := Option.some.inj stepped
                  exact .wait runs unlocked
              · cases stepped
      · cases stepped
  | settle worker =>
      simp only [step] at stepped
      split at stepped
      · next task runs =>
          split at stepped
          · cases stepped
          · next stops =>
              obtain rfl := Option.some.inj stepped
              exact .settle runs (by simpa using stops)
      · cases stepped
  | notify cond =>
      simp only [step] at stepped
      split at stepped
      · next unlocked =>
          obtain rfl := Option.some.inj stepped
          exact .notify unlocked
      · cases stepped
  | forget worker cond =>
      simp only [step] at stepped
      split at stepped
      · next task runs =>
          obtain rfl := Option.some.inj stepped
          exact .forget runs
      · cases stepped
  | shutdown ctx =>
      obtain rfl := Option.some.inj stepped
      exact .shutdown
  | exit worker =>
      simp only [step] at stepped
      split at stepped
      · next enabled =>
          obtain rfl := Option.some.inj stepped
          exact .exit enabled.1 enabled.2
      · cases stepped
  | sweep worker =>
      simp only [step] at stepped
      split at stepped
      · next enabled =>
          obtain ⟨finished, allExited⟩ := enabled
          split at stepped
          · next fresh =>
              obtain rfl := Option.some.inj stepped
              exact .sweepStart finished allExited fresh
          · cases stepped
          · next task rest sweeps =>
              split at stepped
              · next idle =>
                  obtain rfl := Option.some.inj stepped
                  exact .sweepSkip finished allExited sweeps idle
              · next cond waits =>
                  split at stepped
                  · next unlocked =>
                      obtain rfl := Option.some.inj stepped
                      exact .sweepRemove finished allExited sweeps waits unlocked
                  · cases stepped
      · cases stepped

variable (config sched)

/-- The states that the contexts can reach. -/
abbrev Reached : Prop :=
  Lib.Reachable (step config) initial sched

end Sched

end Schedule
end Cgo
