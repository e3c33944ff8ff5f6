import Cgo.Schedule.Shutdown
import Cgo.Schedule.Tasks

/-!
# Tasks that a shutdown leaves

After the workers of a context have left their loops, `final_schedule` destroys
the tasks whose `waiting_cond` is set.  The field is null in a task that was
never run and in one that yielded and was queued again, so these keep their
frames when `shutdown` returns.
-/

namespace Cgo
namespace Schedule

variable {config : Config} {sched before after : Sched} {label : Label}

/-! ## What a step does to a task -/

/-- The step creates the task, or a worker that is in its loop takes or has it. -/
inductive Touched (config : Config) (before : Sched) (label : Label) (after : Sched)
    (task : TaskId) : Prop
  | created
      (thread : ThreadId)
      (creates : label = .create thread task.ctx)
      (number : task.id = before.tid task.ctx)
      (numbered : after.tid task.ctx = before.tid task.ctx + 1)
      (fresh : after.task task = .fresh)
      (pool : task ∈ after.pool (config.home task))
  | run
      (worker : Worker)
      (place : Place)
      (here : before.At task place)
      (own : task.ctx = worker.ctx)
      (inRange : worker.index < config.partitions worker.ctx)
      (running : before.exited worker = false)
      (kept : (after.task task).destroyed = (before.task task).destroyed)

/-- The task stays in its allocator and waits as before; its frames may be
destroyed if it waits. -/
structure Untouched (before after : Sched) (task : TaskId) : Prop where
  pool : ∀ partition, task ∈ after.pool partition ↔ task ∈ before.pool partition
  waitingCond : (after.task task).waitingCond = (before.task task).waitingCond
  destroyed : (after.task task).destroyed = (before.task task).destroyed ∨
    (before.task task).waitingCond ≠ none ∧ (after.task task).destroyed = true

/-- A step that changes neither allocators nor tasks. -/
private theorem Untouched.of_same
    {task : TaskId}
    (pool : after.pool = before.pool)
    (tasks : after.task task = before.task task) :
    Untouched before after task where
  pool partition := by rw [pool]
  waitingCond := by rw [tasks]
  destroyed := .inl (by rw [tasks])

/-- The worker that has a task is in its loop. -/
private theorem touched_of_executing
    (placed : Placed config before)
    {worker : Worker}
    {task : TaskId}
    {resuming : Bool}
    (runs : before.executing worker = some ⟨task, resuming⟩)
    (kept : (after.task task).destroyed = (before.task task).destroyed) :
    Touched config before label after task := by
  obtain ⟨there, tidy, -⟩ := placed.tidy
  obtain ⟨inRange, own⟩ := tidy.executing_ctx worker _ runs
  have running : before.exited worker = false := by
    cases exited : before.exited worker with
    | false => rfl
    | true =>
        rw [tidy.exited worker exited] at runs
        cases runs
  exact .run worker (.worker worker) ⟨resuming, runs⟩ own inRange running kept

/-- The task of a worker that comes back to `_execute` is touched, the others are
not. -/
private theorem of_running
    (placed : Placed config before)
    {worker : Worker}
    {running : TaskId}
    (runs : before.executing worker = some ⟨running, true⟩)
    {value : Task}
    (tasks : after.task = Function.update before.task running value)
    (kept : value.destroyed = (before.task running).destroyed)
    (pool : after.pool = before.pool)
    (task : TaskId) :
    Touched config before label after task ∨ Untouched before after task := by
  rcases eq_or_ne task running with rfl | apart
  · exact .inl (touched_of_executing placed runs (by rw [tasks]; simpa using kept))
  · exact .inr (.of_same pool (by rw [tasks]; simp [apart]))

/-- A step creates, runs or leaves a task. -/
theorem touched_or_untouched
    (placed : Placed config before)
    (stepped : before.step config label = some after)
    (task : TaskId) :
    Touched config before label after task ∨ Untouched before after task := by
  cases Sched.move_of_step stepped with
  | @create thread ctx =>
      rcases eq_or_ne task ⟨ctx, before.tid ctx⟩ with rfl | apart
      · left
        refine .created thread rfl rfl ?_ ?_ ?_
        · simp [Sched.create]
        · simp [Sched.create, Sched.setTask]
        · simp [Sched.create]
      · refine .inr ⟨fun partition => ?_, ?_, .inl ?_⟩
        · rcases eq_or_ne partition (config.home ⟨ctx, before.tid ctx⟩) with rfl | elsewhere
          · simp [Sched.create, apart]
          · simp [Sched.create, elsewhere]
        · simp [Sched.create, Sched.setTask, apart]
        · simp [Sched.create, Sched.setTask, apart]
  | push => exact .inr (.of_same rfl rfl)
  | @pop worker index head rest inRange _ running _ queued =>
      rcases eq_or_ne task head with rfl | apart
      · obtain ⟨there, tidy, -⟩ := placed.tidy
        have member : task ∈ before.runnable ⟨worker.ctx, index⟩ := by
          rw [queued]
          exact List.mem_cons_self
        have home := tidy.runnable_home _ task member
        exact .inl (.run worker (.runnable _) member (congrArg Partition.ctx home).symm
          inRange running (by simp [Sched.setExecuting, Sched.setTask]))
      · refine .inr (.of_same rfl ?_)
        simp [Sched.setExecuting, Sched.setTask, Sched.setRunnable, apart]
  | resume => exact .inr (.of_same rfl rfl)
  | suspend => exact .inr (.of_same rfl rfl)
  | yield runs => apply of_running placed runs <;> rfl
  | finish runs => apply of_running placed runs <;> rfl
  | wait runs => apply of_running placed runs <;> rfl
  | @settle worker running runs =>
      rcases eq_or_ne task running with rfl | apart
      · exact .inl (touched_of_executing placed runs (by simp))
      · refine .inr ⟨fun partition => ?_, by simp, .inl (by simp)⟩
        rw [Sched.giveAway_pool]
        split
        · rcases eq_or_ne partition (config.home running) with rfl | elsewhere
          · simp [List.mem_erase_of_ne apart]
          · simp [elsewhere]
        · rfl
  | notify => exact .inr (.of_same (by simp) (by simp))
  | forget => exact .inr (.of_same rfl rfl)
  | shutdown => exact .inr (.of_same rfl rfl)
  | exit => exact .inr (.of_same rfl rfl)
  | sweepStart => exact .inr (.of_same rfl rfl)
  | sweepSkip => exact .inr (.of_same rfl rfl)
  | @sweepRemove worker visited rest cond _ _ _ waits =>
      right
      rcases eq_or_ne task visited with rfl | apart
      · refine ⟨fun partition => by simp [Sched.setTask], by simp [Sched.setTask],
          .inr ⟨by simp [waits], by simp [Sched.setTask]⟩⟩
      · exact .of_same (by simp [Sched.setTask]) (by simp [Sched.setTask, apart])

/-- Only `create` takes a number, and only `exit` leaves a loop. -/
private theorem create_or_exit_or_same
    (stepped : before.step config label = some after) :
    (∃ thread ctx, label = .create thread ctx ∧ after = before.create config thread ctx) ∨
      (∃ worker, after = { before with exited := Function.update before.exited worker true }) ∨
      after.tid = before.tid ∧ after.exited = before.exited := by
  cases Sched.move_of_step stepped with
  | @create thread ctx => exact .inl ⟨thread, ctx, rfl, rfl⟩
  | @exit worker => exact .inr (.inl ⟨worker, rfl⟩)
  | settle => exact .inr (.inr ⟨by simp, by simp⟩)
  | notify => exact .inr (.inr ⟨by simp, by simp⟩)
  | sweepRemove => exact .inr (.inr ⟨by simp [Sched.setTask], by simp [Sched.setTask]⟩)
  | _ => exact .inr (.inr ⟨rfl, rfl⟩)

/-- A worker does not come back to its loop. -/
theorem allExited_of_step
    {ctx : ContextId}
    (stopped : before.AllExited config ctx)
    (stepped : before.step config label = some after) :
    after.AllExited config ctx := by
  intro index inRange
  rcases create_or_exit_or_same stepped with ⟨thread, other, rfl, rfl⟩ | ⟨worker, rfl⟩ | same
  · exact stopped index inRange
  · rcases eq_or_ne (⟨ctx, index⟩ : Worker) worker with rfl | apart
    · exact Function.update_self ..
    · simpa [apart] using stopped index inRange
  · rw [same.2]
    exact stopped index inRange

/-- A task that was created stays so. -/
theorem created_of_step
    (stepped : before.step config label = some after)
    {task : TaskId}
    (created : before.Created task) :
    after.Created task := by
  rcases create_or_exit_or_same stepped with ⟨thread, ctx, rfl, rfl⟩ | ⟨worker, rfl⟩ | same
  · rcases eq_or_ne task.ctx ctx with rfl | apart
    · simpa [Sched.Created, Sched.create] using Nat.lt_succ_of_lt created
    · simpa [Sched.Created, Sched.create, apart] using created
  · exact created
  · rw [Sched.Created, same.1]
    exact created

/-! ## Destroyed tasks -/

/-- A task whose frames were destroyed was created, and still has its
`waiting_cond`. -/
structure Remains (sched : Sched) : Prop where
  created : ∀ task, (sched.task task).waitingCond ≠ none → sched.Created task
  waits : ∀ task, (sched.task task).destroyed = true → (sched.task task).waitingCond ≠ none

/-- A destroyed task is not touched. -/
theorem Remains.untouched
    (remains : Remains before)
    (placed : Placed config before)
    (stepped : before.step config label = some after)
    {task : TaskId}
    (destroyed : (before.task task).destroyed = true) :
    Untouched before after task := by
  rcases touched_or_untouched placed stepped task with touched | untouched
  · cases touched with
    | created thread creates number _ _ _ =>
        have created := remains.created task (remains.waits task destroyed)
        exact absurd created (Nat.not_lt.mpr number.ge)
    | run worker place here => exact absurd here (placed.nowhere_of_destroyed destroyed place)
  · exact untouched

theorem Remains.initial : Remains .initial where
  created := by simp [Sched.initial, Task.fresh]
  waits := by simp [Sched.initial, Task.fresh]

/-- Frames that were destroyed stay destroyed. -/
theorem Remains.destroyed
    (remains : Remains before)
    (placed : Placed config before)
    (stepped : before.step config label = some after)
    {task : TaskId}
    (destroyed : (before.task task).destroyed = true) :
    (after.task task).destroyed = true := by
  rcases (remains.untouched placed stepped destroyed).destroyed with same | ⟨-, still⟩
  · rw [same]
    exact destroyed
  · exact still

/-- Every step keeps what is known of destroyed tasks. -/
theorem Remains.step
    (remains : Remains before)
    (placed : Placed config before)
    (stepped : before.step config label = some after) :
    Remains after where
  created task waits := by
    rcases touched_or_untouched placed stepped task with touched | untouched
    · cases touched with
      | created thread creates number numbered _ _ =>
          rw [Sched.Created, numbered, number]
          exact Nat.lt_succ_self _
      | run worker place here _ _ _ _ =>
          obtain ⟨there, tidy, alive⟩ := placed.tidy
          have somewhere : there task ≠ none := by
            rw [(tidy.placement.at_iff task place).mp here]
            simp
          have member := ((alive task).mp somewhere).1
          exact created_of_step stepped (placed.pool_home _ task member).2
    · rw [untouched.waitingCond] at waits
      exact created_of_step stepped (remains.created task waits)
  waits task destroyed := by
    rcases touched_or_untouched placed stepped task with touched | untouched
    · cases touched with
      | created _ _ _ _ fresh _ =>
          rw [fresh] at destroyed
          cases destroyed
      | run worker place here _ _ _ kept =>
          rw [kept] at destroyed
          exact absurd here (placed.nowhere_of_destroyed destroyed place)
    · rw [untouched.waitingCond]
      rcases untouched.destroyed with same | ⟨waits, -⟩
      · exact remains.waits task (same ▸ destroyed)
      · exact waits

theorem Remains.of_reached
    {sched : Sched}
    (reached : sched.Reached config) :
    Remains sched :=
  reached.invariant_of_reachable _ .initial fun _ _ _ before remains stepped =>
    remains.step (.of_reached before) stepped

/-! ## What a shutdown destroys -/

namespace Sched

variable {ctx : ContextId}

/-- Every task in the allocators of a context waits for a condition. -/
def AllWait (config : Config) (ctx : ContextId) (sched : Sched) : Prop :=
  ∀ task : TaskId, task.ctx = ctx → task ∈ sched.pool (config.home task) →
    (sched.task task).waitingCond ≠ none

/-- Every task in the allocators of a context has had its frames destroyed. -/
def AllDestroyed (config : Config) (ctx : ContextId) (sched : Sched) : Prop :=
  ∀ task : TaskId, task.ctx = ctx → task ∈ sched.pool (config.home task) →
    (sched.task task).destroyed = true

/-- Every worker of a context has run `final_schedule` to its end. -/
def SweptAll (config : Config) (ctx : ContextId) (sched : Sched) : Prop :=
  ∀ index, index < config.partitions ctx → sched.sweep ⟨ctx, index⟩ = some []

end Sched

/-- Once the workers of a context have left their loops, its tasks are as they were
until one is created. -/
theorem allWait_of_step
    {ctx : ContextId}
    (placed : Placed config before)
    (stopped : before.AllExited config ctx)
    (stepped : before.step config label = some after) :
    after.AllWait config ctx ↔
      before.AllWait config ctx ∧ ∀ thread, label ≠ .create thread ctx := by
  have cases : ∀ task : TaskId, task.ctx = ctx →
      (∃ thread, label = .create thread ctx ∧ after.task task = .fresh ∧
        task ∈ after.pool (config.home task)) ∨ Untouched before after task := by
    rintro task rfl
    refine (touched_or_untouched placed stepped task).imp_left fun touched => ?_
    cases touched with
    | created thread creates _ _ fresh pool => exact ⟨thread, creates, fresh, pool⟩
    | run worker place here own inRange running kept =>
        have exited := stopped worker.index (own ▸ inRange)
        rw [own] at exited
        rw [exited] at running
        cases running
  refine ⟨fun waits => ⟨fun task own member => ?_, ?_⟩, fun ⟨waits, creates⟩ task own member => ?_⟩
  · rcases cases task own with ⟨thread, -, fresh, pool⟩ | untouched
    · have waiting := waits task own pool
      rw [fresh] at waiting
      exact absurd rfl waiting
    · rw [← untouched.waitingCond]
      exact waits task own ((untouched.pool _).mpr member)
  · rintro thread rfl
    cases Sched.move_of_step stepped with
    | create =>
        apply waits ⟨ctx, before.tid ctx⟩ rfl
        · simp [Sched.create]
        · simp [Sched.create, Sched.setTask, Task.fresh]
  · rcases cases task own with ⟨thread, created, -⟩ | untouched
    · exact absurd created (creates thread)
    · rw [untouched.waitingCond]
      exact waits task own ((untouched.pool _).mp member)

/-- After the workers have left their loops, all tasks wait in the end if they did
at the start and none was created. -/
theorem allWait_of_path
    {ctx : ContextId}
    {transitions : List (Lib.Transition Sched Label)}
    (reached : before.Reached config)
    (stopped : before.AllExited config ctx)
    (path : Lib.Path (Sched.step config) before transitions after) :
    after.AllExited config ctx ∧
      (after.AllWait config ctx ↔
        before.AllWait config ctx ∧
          ∀ transition ∈ transitions, ∀ thread, transition.label ≠ .create thread ctx) := by
  induction path with
  | nil => exact ⟨stopped, by simp⟩
  | @snoc taken middle last label prior stepped inductionHypothesis =>
      obtain ⟨exited, waits⟩ := inductionHypothesis
      have placed : Placed config middle := .of_reached (reached.trans ⟨_, prior⟩)
      refine ⟨allExited_of_step exited stepped, ?_⟩
      rw [allWait_of_step placed exited stepped, waits, and_assoc]
      simp [or_imp, forall_and]

/-- After a shutdown all tasks are destroyed that wait, and no others. -/
theorem allDestroyed_iff
    {sched : Sched}
    {ctx : ContextId}
    (reached : sched.Reached config)
    (swept : sched.SweptAll config ctx) :
    sched.AllDestroyed config ctx ↔ sched.AllWait config ctx := by
  refine ⟨fun destroyed task own member => ?_, fun waits task own member => ?_⟩
  · exact (Remains.of_reached reached).waits task (destroyed task own member)
  · have inRange : task.id % config.partitions task.ctx < config.partitions task.ctx :=
      Nat.mod_lt _ (config.partitions_pos task.ctx)
    have sweeps : sched.sweep (config.home task) = some [] := by
      subst own
      exact swept _ inRange
    rcases (Swept.of_reached reached).visits _ _ sweeps task member (waits task own member) with
      destroyed | pending
    · exact destroyed
    · cases pending

/-- From the workers' leaving their loops to the return of `shutdown`: every task in
the allocators of the context is destroyed exactly when every one of them waited for
a condition at the start and none was created since. -/
theorem shutdown_destroys
    (config : Config)
    (ctx : ContextId)
    {before after : Sched}
    {transitions : List (Lib.Transition Sched Label)}
    (reached : before.Reached config)
    (stopped : before.AllExited config ctx)
    (path : Lib.Path (Sched.step config) before transitions after)
    (swept : after.SweptAll config ctx) :
    after.AllDestroyed config ctx ↔
      before.AllWait config ctx ∧
        ∀ transition ∈ transitions, ∀ thread, transition.label ≠ .create thread ctx := by
  rw [allDestroyed_iff (reached.trans ⟨_, path⟩) swept]
  exact (allWait_of_path reached stopped path).2

/-- A task blocks, and another one is notified. -/
private def waiting : List Label :=
  [.create 0 0, .push 0, .create 0 0, .push 0,
    .pop ⟨0, 0⟩ 0, .resume ⟨0, 0⟩, .pause ⟨0, 0⟩ (.wait 7), .settle ⟨0, 0⟩,
    .pop ⟨0, 0⟩ 0, .resume ⟨0, 0⟩, .pause ⟨0, 0⟩ (.wait 7), .settle ⟨0, 0⟩,
    .notify 7, .shutdown 0, .exit ⟨0, 0⟩]

/-- `final_schedule` of the only worker, with two tasks in its allocator. -/
private def sweeping : List Label :=
  [.sweep ⟨0, 0⟩, .sweep ⟨0, 0⟩, .sweep ⟨0, 0⟩]

/-- The state in which the worker has left its loop. -/
private def waited : Sched :=
  Lib.runFrom (Sched.step oneWorker) .initial waiting

theorem shutdown_destroys_sample :
    let swept := Lib.runFrom (Sched.step oneWorker) waited sweeping
    (waited.pool ⟨0, 0⟩ = [⟨0, 0⟩, ⟨0, 1⟩] ∧ (waited.task ⟨0, 0⟩).destroyed = false) ∧
      swept.AllDestroyed oneWorker 0 ∧ (swept.task ⟨0, 0⟩).destroyed = true := by
  intro swept
  have home : ∀ task : TaskId, task.ctx = 0 → oneWorker.home task = ⟨0, 0⟩ := by
    rintro ⟨_, id⟩ rfl
    simp [Config.home, oneWorker, Nat.mod_one]
  have tasks : waited.pool ⟨0, 0⟩ = [⟨0, 0⟩, ⟨0, 1⟩] := by decide
  have allWait : waited.AllWait oneWorker 0 := by
    intro task own member
    rw [home task own, tasks] at member
    rcases List.mem_pair.mp member with rfl | rfl <;> decide
  have onlySweeps : ∀ transition ∈ Lib.trace (Sched.step oneWorker) waited sweeping,
      transition.label = .sweep ⟨0, 0⟩ := by decide
  have sweptAll : swept.SweptAll oneWorker 0 := by
    intro index inRange
    obtain rfl : index = 0 := Nat.lt_one_iff.mp inRange
    decide
  have path : Lib.Path (Sched.step oneWorker) waited
      (Lib.trace (Sched.step oneWorker) waited sweeping) swept := Lib.path_runFrom (by decide)
  have destroys := shutdown_destroys oneWorker 0 (Lib.Reachable.runFrom _ _ _) (by decide) path
    sweptAll
  have destroyed := destroys.mpr ⟨allWait, fun transition member thread => by
    rw [onlySweeps transition member]
    nofun⟩
  exact ⟨⟨tasks, by decide⟩, destroyed, destroyed ⟨0, 0⟩ rfl (by decide)⟩

/-- Task 0 yields and is queued again, and task 1 is never run. -/
private def requeueing : List Label :=
  [.create 0 0, .push 0, .create 0 0, .push 0,
    .pop ⟨0, 0⟩ 0, .resume ⟨0, 0⟩, .pause ⟨0, 0⟩ .yield, .settle ⟨0, 0⟩,
    .shutdown 0, .exit ⟨0, 0⟩] ++ sweeping

/-- Both keep their frames. -/
theorem requeued_not_destroyed :
    ¬∀ (config : Config) (ctx : ContextId) (sched : Sched),
      sched.Reached config → sched.AllExited config ctx → sched.SweptAll config ctx →
        sched.AllDestroyed config ctx := by
  intro destroys
  let requeued : Sched := Lib.runFrom (Sched.step oneWorker) .initial requeueing
  have swept : requeued.SweptAll oneWorker 0 := by
    intro index inRange
    obtain rfl : index = 0 := Nat.lt_one_iff.mp inRange
    decide
  have destroyed := destroys oneWorker 0 requeued (Lib.Reachable.runFrom _ _ _) (by decide) swept
    ⟨0, 0⟩ rfl (by decide)
  revert destroyed
  decide

end Schedule
end Cgo
