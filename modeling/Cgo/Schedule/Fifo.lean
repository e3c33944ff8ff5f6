import Cgo.Lib.Fifo
import Cgo.Schedule.Tasks

/-!
# The order of a runnable queue

Which task a step pushes or pops, and that until its context is shut down the
queue of a partition is first in, first out, whoever pushes and whoever pops.
-/

namespace Cgo
namespace Schedule

namespace Sched

/-- The task that a step passes to `Scheduler::push`. -/
def pushes (sched : Sched) : Label → Option TaskId
  | .push thread => sched.spawning thread
  | .settle worker =>
      match sched.executing worker with
      | some ⟨task, false⟩ =>
          if (sched.task task).done then none
          else if (sched.task task).yielded then some task
          else none
      | _ => none
  | .notify cond => (sched.cond cond).blocked.head?
  | .sweep worker =>
      match sched.sweep worker with
      | some (task :: _) =>
          match (sched.task task).waitingCond with
          | none => none
          | some cond =>
              if (sched.cond cond).scheduledCtx = none ∨
                  (sched.cond cond).scheduledCtx = some task.ctx then
                ((sched.cond cond).blocked.erase task).head?
              else none
      | _ => none
  | _ => none

/-- The queue that a step pops, and the task it gets. -/
def pops (sched : Sched) : Label → Option (Partition × TaskId)
  | .pop worker index =>
      (sched.runnable ⟨worker.ctx, index⟩).head?.map fun task => (⟨worker.ctx, index⟩, task)
  | _ => none

end Sched

/-- A step of the contexts. -/
abbrev Transition := Lib.Transition Sched Label

/-- The task that enters the queue of a partition. -/
def pushedTo (config : Config) (partition : Partition) (transition : Transition) :
    Option TaskId :=
  (transition.before.pushes transition.label).filter fun task => config.home task = partition

/-- The task that leaves the queue of a partition. -/
def poppedFrom (partition : Partition) (transition : Transition) : Option TaskId :=
  ((transition.before.pops transition.label).filter fun popped =>
    popped.1 = partition).map Prod.snd

variable {config : Config} {sched after : Sched} {partition : Partition}

theorem push_runnable
    (task : TaskId) :
    (sched.push config task).runnable partition = sched.runnable partition ++
      ((some task).filter fun pushed => config.home pushed = partition).toList := by
  rcases eq_or_ne partition (config.home task) with rfl | apart
  · simp [Sched.push, Sched.setRunnable, Option.filter_some]
  · simp [Sched.push, Sched.setRunnable, Option.filter_some, apart, apart.symm]

theorem scheduleFromThis_runnable
    (cond : CondId) :
    (sched.scheduleFromThis config cond).runnable partition = sched.runnable partition ++
      ((sched.cond cond).blocked.head?.filter fun pushed =>
        config.home pushed = partition).toList := by
  cases waits : (sched.cond cond).blocked with
  | nil => simp [sched.scheduleFromThis_nil config waits]
  | cons head rest =>
      rw [sched.scheduleFromThis_cons config waits, push_runnable]
      simp [Sched.setCond]

theorem giveAway_runnable
    (worker : Worker)
    (task : TaskId) :
    (sched.giveAway config worker task).runnable partition = sched.runnable partition ++
      ((if (sched.task task).done then none
        else if (sched.task task).yielded then some task
        else none).filter fun pushed => config.home pushed = partition).toList := by
  simp only [Sched.giveAway]
  split
  · simp [Sched.destroy, Sched.setExecuting]
  · split
    · rw [push_runnable]
      simp [Sched.setExecuting]
    · split <;> simp [Sched.suspendToThis, Sched.setCond, Sched.setExecuting]

/-- `_remove` of a task that is in another queue. -/
theorem remove_runnable_of_notMem
    {task : TaskId}
    (cond : CondId)
    (absent : task ∉ sched.runnable partition) :
    (sched.remove config cond task).runnable partition = sched.runnable partition ++
      ((if (sched.cond cond).scheduledCtx = none ∨
            (sched.cond cond).scheduledCtx = some task.ctx then
          ((sched.cond cond).blocked.erase task).head?
        else none).filter fun pushed => config.home pushed = partition).toList := by
  have unlinked : (sched.unlinkThis task).runnable partition = sched.runnable partition :=
    List.erase_of_not_mem absent
  simp only [Sched.remove]
  split
  · next wakes =>
      rw [scheduleFromThis_runnable, unlinked, if_pos (by simpa [Sched.unlinkThis] using wakes)]
      rfl
  · next silent =>
      rw [unlinked, if_neg (by simpa [Sched.unlinkThis] using silent)]
      simp

/-- In a context that is not shut down every step keeps the order of the queues. -/
theorem firstInFirstOut_of_step
    {label : Label}
    (placed : Placed config sched)
    (stepped : sched.step config label = some after)
    (running : sched.finished partition.ctx = false) :
    Lib.FirstInFirstOut (fun sched : Sched => sched.runnable partition)
      (pushedTo config partition) (poppedFrom partition) ⟨sched, label, after⟩ := by
  simp only [Lib.FirstInFirstOut, pushedTo, poppedFrom]
  cases Sched.move_of_step stepped with
  | push holds =>
      rw [push_runnable]
      simp [Sched.pushes, Sched.pops, holds]
  | @pop worker index task rest _ _ _ _ queued =>
      rcases eq_or_ne partition ⟨worker.ctx, index⟩ with rfl | apart
      · simp [Sched.pushes, Sched.pops, queued, Sched.setExecuting, Sched.setTask,
          Sched.setRunnable, Option.filter_some]
      · simp [Sched.pushes, Sched.pops, queued, Sched.setExecuting, Sched.setTask,
          Sched.setRunnable, Option.filter_some, apart, apart.symm]
  | settle runs stops =>
      rw [giveAway_runnable]
      simp [Sched.pushes, Sched.pops, runs]
  | notify =>
      rw [scheduleFromThis_runnable]
      simp [Sched.pushes, Sched.pops]
  | sweepSkip _ _ sweeps idle => simp [Sched.pushes, Sched.pops, sweeps, idle]
  | @sweepRemove worker task rest cond finished _ sweeps waits =>
      -- a swept task is of a context that is shut down, so it is in another queue
      have elsewhere : task ∉ sched.runnable partition := by
        intro member
        obtain ⟨there, tidy, -⟩ := placed.tidy
        have home := congrArg Partition.ctx (tidy.runnable_home partition task member)
        have own := placed.sweep_own worker _ sweeps task List.mem_cons_self
        rw [home, Config.home, own, finished] at running
        cases running
      have removed : (Sched.remove config { sched with
          sweep := Function.update sched.sweep worker (some rest) } cond task).runnable
            partition = _ := remove_runnable_of_notMem cond elsewhere
      simpa [Sched.pushes, Sched.pops, sweeps, waits, Sched.setTask] using removed.symm
  | sweepStart _ _ fresh => simp [Sched.pushes, Sched.pops, fresh]
  | create => simp [Sched.pushes, Sched.pops, Sched.create, Sched.setTask]
  | wait => simp [Sched.pushes, Sched.pops, Sched.setExecuting, Sched.setTask, Sched.setCond]
  | _ => simp [Sched.pushes, Sched.pops, Sched.setExecuting, Sched.setTask, Sched.forget,
      Sched.setCond]

theorem finished_of_step
    {label : Label}
    {ctx : ContextId}
    (stepped : sched.step config label = some after)
    (finished : sched.finished ctx = true) :
    after.finished ctx = true := by
  cases Sched.move_of_step stepped with
  | @shutdown other => by_cases same : ctx = other <;> simp [same, finished]
  | settle => simpa using finished
  | notify => simpa using finished
  | sweepRemove => simpa [Sched.setTask] using finished
  | _ => exact finished

/-- A task that a step pushes is in no queue before. -/
theorem not_queued_of_pushes
    {label : Label}
    {task : TaskId}
    (placed : Placed config sched)
    (stepped : sched.step config label = some after)
    (pushed : sched.pushes label = some task)
    (partition : Partition) :
    task ∉ sched.runnable partition := by
  obtain ⟨there, tidy, -⟩ := placed.tidy
  intro queued
  have only : ∀ place, sched.At task place → place = .runnable partition := by
    intro place here
    have atQueue : sched.At task (.runnable partition) := queued
    exact tidy.placement.unique here atQueue
  cases Sched.move_of_step stepped with
  | @push thread spawned holds =>
      obtain rfl : spawned = task := by simpa [Sched.pushes, holds] using pushed
      exact absurd (only (.spawner thread) holds) (by simp)
  | @settle worker executed runs stops =>
      obtain ⟨-, -, rfl⟩ : (sched.task executed).done = false ∧
          (sched.task executed).yielded = true ∧ executed = task := by
        simpa [Sched.pushes, runs] using pushed
      exact absurd (only (.worker worker) ⟨false, runs⟩) (by simp)
  | @notify cond =>
      have waits : task ∈ (sched.cond cond).blocked := List.mem_of_mem_head? pushed
      exact absurd (only (.blocked cond) waits) (by simp)
  | @sweepRemove worker removed rest cond _ _ sweeps awaits =>
      have waits : task ∈ (sched.cond cond).blocked := by
        simp only [Sched.pushes, sweeps, awaits] at pushed
        split at pushed
        · exact List.mem_of_mem_erase (List.mem_of_mem_head? pushed)
        · cases pushed
      exact absurd (only (.blocked cond) waits) (by simp)
  | sweepSkip _ _ sweeps idle => simp [Sched.pushes, sweeps, idle] at pushed
  | sweepStart _ _ fresh => simp [Sched.pushes, fresh] at pushed
  | _ => cases pushed

/-- No step pushes and pops. -/
theorem pushedTo_or_poppedFrom_eq_none
    (config : Config)
    (partition : Partition)
    (transition : Transition) :
    pushedTo config partition transition = none ∨ poppedFrom partition transition = none := by
  obtain ⟨before, label, after⟩ := transition
  cases label with
  | pop worker index => exact .inl (by simp [pushedTo, Sched.pushes])
  | _ => exact .inr (by simp [poppedFrom, Sched.pops])

section Runs

variable {taken : List Transition} {start final : Sched}

theorem running_before
    {ctx : ContextId}
    (path : Lib.Path (Sched.step config) start taken final)
    (running : final.finished ctx = false) :
    ∀ transition ∈ taken, transition.before.finished ctx = false := by
  induction path with
  | nil => simp
  | @snoc taken before after label prior stepped inductionHypothesis =>
      have runningBefore : before.finished ctx = false := by
        by_contra finished
        rw [Bool.not_eq_false] at finished
        rw [finished_of_step stepped finished] at running
        cases running
      intro transition member
      rcases List.mem_append.mp member with earlier | last
      · exact inductionHypothesis runningBefore transition earlier
      · obtain rfl := List.mem_singleton.mp last
        exact runningBefore

/-- In a run up to a state in which the context is not shut down, every step keeps
the order of its queues. -/
theorem firstInFirstOut_of_path
    (reached : start.Reached config)
    (path : Lib.Path (Sched.step config) start taken final)
    (running : final.finished partition.ctx = false) :
    ∀ transition ∈ taken, Lib.FirstInFirstOut (fun sched : Sched => sched.runnable partition)
      (pushedTo config partition) (poppedFrom partition) transition := by
  intro transition member
  obtain ⟨reachedBefore, stepped⟩ := path.mem_transition member
  exact firstInFirstOut_of_step (Placed.of_reached (reached.trans reachedBefore)) stepped
    (running_before path running transition member)

/-- What entered the queue of a partition has left it, in the order in which it
entered, or is still there. -/
theorem pushed_eq_popped_append
    (path : Lib.Path (Sched.step config) .initial taken final)
    (running : final.finished partition.ctx = false) :
    taken.filterMap (pushedTo config partition) =
      taken.filterMap (poppedFrom partition) ++ final.runnable partition := by
  simpa [Sched.initial] using
    path.queue_eq (firstInFirstOut_of_path .refl path running)

/-- Between the push of a task and its next pop exactly the tasks that were queued
at the push are popped. -/
theorem popped_between_eq
    {task : TaskId}
    {earlier between later : List Transition}
    {push pop : Transition}
    (path : Lib.Path (Sched.step config) .initial
      (earlier ++ push :: (between ++ pop :: later)) final)
    (running : final.finished partition.ctx = false)
    (pushed : pushedTo config partition push = some task)
    (popped : poppedFrom partition pop = some task)
    (next : task ∉ between.filterMap (poppedFrom partition)) :
    between.filterMap (poppedFrom partition) = push.before.runnable partition := by
  obtain ⟨_, upTo, fromPush⟩ := path.of_append
  obtain ⟨rfl, pushStep, _⟩ := fromPush.of_cons
  have fresh : task ∉ push.before.runnable partition := by
    have raised := (Option.filter_eq_some_iff.mp pushed).1
    exact not_queued_of_pushes (Placed.of_reached ⟨_, upTo⟩) pushStep raised partition
  have quiet : poppedFrom partition push = none :=
    (pushedTo_or_poppedFrom_eq_none config partition push).resolve_left (by simp [pushed])
  have still : pushedTo config partition pop = none :=
    (pushedTo_or_poppedFrom_eq_none config partition pop).resolve_right (by simp [popped])
  exact path.popped_between_push (firstInFirstOut_of_path .refl path running) pushed quiet fresh
    popped still next

end Runs

end Schedule
end Cgo
