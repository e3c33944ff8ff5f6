import Cgo.Schedule.Place

/-!
# The tasks of a run

What the places of the tasks mean for the coroutines: a task that was created
is in one place until it is destroyed, so it cannot be resumed by two workers,
cannot be resumed after it is done, and is not dropped before it is.
-/

namespace Cgo
namespace Schedule

namespace Sched

/-- `create_scheduled` has created the task. -/
def Created (sched : Sched) (task : TaskId) : Prop :=
  task.id < sched.tid task.ctx

/-- `Allocator::destroy` or `final_schedule` has destroyed the task. -/
def Destroyed (config : Config) (sched : Sched) (task : TaskId) : Prop :=
  sched.Created task ∧
    (task ∉ sched.pool (config.home task) ∨ (sched.task task).destroyed = true)

instance (sched : Sched) (task : TaskId) : Decidable (sched.Created task) :=
  inferInstanceAs (Decidable (task.id < sched.tid task.ctx))

instance (config : Config) (sched : Sched) (task : TaskId) :
    Decidable (sched.Destroyed config task) :=
  inferInstanceAs (Decidable (_ ∧ (_ ∨ _)))

end Sched

/-- The promise of the schedulers. -/
structure OnePlace (config : Config) (sched : Sched) : Prop where
  /-- A task that was created and not destroyed is in one place. -/
  placed : ∀ task, sched.Created task → ¬sched.Destroyed config task →
    ∃! place, sched.At task place
  /-- No other task is in any. -/
  unplaced : ∀ task, ¬sched.Created task ∨ sched.Destroyed config task →
    ∀ place, ¬sched.At task place
  /-- A queued task is once in the queue of its own partition. -/
  queued_once : ∀ task partition, sched.At task (.runnable partition) →
    partition = config.home task ∧ (sched.runnable partition).count task = 1
  /-- A blocked task is once in the list of the condition it waits for. -/
  blocked_once : ∀ task cond, sched.At task (.blocked cond) →
    (sched.task task).waitingCond = some cond ∧ (sched.cond cond).blocked.count task = 1
  /-- A task that a worker resumes is not done, and no other thread holds it. -/
  resumed : ∀ worker task, sched.executing worker = some ⟨task, true⟩ →
    (sched.task task).done = false ∧
      (∀ other resuming, sched.executing other = some ⟨task, resuming⟩ → other = worker) ∧
      ∀ thread, sched.spawning thread ≠ some task
  /-- A worker goes on to resume only what it holds and what is not done. -/
  resumes : ∀ worker after, sched.step config (.resume worker) = some after →
    ∃ task, sched.executing worker = some ⟨task, false⟩ ∧
      after.executing worker = some ⟨task, true⟩ ∧ (sched.task task).done = false
  /-- Unless its context is shut down, a task is done before it is destroyed. -/
  finished : ∀ task, sched.Destroyed config task →
    (sched.task task).done = true ∨ sched.finished task.ctx = true

namespace Placed

variable {config : Config} {sched : Sched}

/-- The tasks in the allocators are those created and not destroyed. -/
theorem alive_iff
    (placed : Placed config sched)
    (task : TaskId) :
    sched.Alive config task ↔ sched.Created task ∧ ¬sched.Destroyed config task := by
  constructor
  · rintro ⟨member, intact⟩
    refine ⟨(placed.pool_home _ task member).2, ?_⟩
    rintro ⟨-, missing | destroyed⟩
    · exact missing member
    · simp [intact] at destroyed
  · rintro ⟨created, kept⟩
    by_contra dead
    refine kept ⟨created, ?_⟩
    by_cases member : task ∈ sched.pool (config.home task)
    · right
      by_contra intact
      exact dead ⟨member, by simpa using intact⟩
    · exact .inl member

/-- A worker that is about to resume a task holds it unfinished. -/
theorem resume_unfinished
    {worker : Worker}
    {after : Sched}
    (stepped : sched.step config (.resume worker) = some after) :
    ∃ task, sched.executing worker = some ⟨task, false⟩ ∧
      after.executing worker = some ⟨task, true⟩ ∧ (sched.task task).done = false := by
  cases Sched.move_of_step stepped with
  | @resume worker task runs resumable =>
      refine ⟨task, runs, by simp [Sched.setExecuting], ?_⟩
      simp only [Sched.canResume, Bool.and_eq_true, Bool.not_eq_true'] at resumable
      exact resumable.2

end Placed

/-- In every state the contexts can reach, every task that was created and not
destroyed is in exactly one place. -/
theorem task_in_one_place
    (config : Config)
    (sched : Sched)
    (reached : sched.Reached config) :
    OnePlace config sched := by
  have placed := Placed.of_reached reached
  obtain ⟨there, tidy, alive⟩ := placed.tidy
  refine ⟨fun task created kept => ?_, fun task gone place => ?_,
    fun task partition queued => ?_, fun task cond waits => ?_, fun worker task runs => ?_,
    fun worker after stepped => Placed.resume_unfinished stepped, fun task destroyed => ?_⟩
  · have somewhere := (alive task).mpr ((placed.alive_iff task).mpr ⟨created, kept⟩)
    obtain ⟨place, here⟩ := Option.ne_none_iff_exists'.mp somewhere
    have atPlace := (tidy.placement.at_iff task place).mpr here
    exact ⟨place, atPlace, fun other atOther => tidy.placement.unique atOther atPlace⟩
  · refine tidy.placement.nowhere ?_ place
    by_contra somewhere
    obtain ⟨created, kept⟩ := (placed.alive_iff task).mp ((alive task).mp somewhere)
    exact gone.elim (fun uncreated => uncreated created) kept
  · exact ⟨tidy.runnable_home partition task queued,
      List.count_eq_one_of_mem (tidy.runnable_nodup partition) queued⟩
  · exact ⟨tidy.blocked_cond cond task waits,
      List.count_eq_one_of_mem (tidy.blocked_nodup cond) waits⟩
  · have atWorker : sched.At task (.worker worker) := ⟨true, runs⟩
    refine ⟨tidy.resuming worker task runs, fun other resuming holds => ?_,
      fun thread spawns => ?_⟩
    · have atOther : sched.At task (.worker other) := ⟨resuming, holds⟩
      exact Place.worker.inj (tidy.placement.unique atOther atWorker)
    · have atSpawner : sched.At task (.spawner thread) := spawns
      simpa using tidy.placement.unique atSpawner atWorker
  · obtain ⟨created, missing | destroyed⟩ := destroyed
    · exact .inl ((placed.gone_done task created).resolve_left missing)
    · exact .inr (placed.destroyed_finished task destroyed)

/-- One context with two partitions. -/
private def twoWorkers : Config := ⟨fun _ => 2, fun _ => Nat.two_pos⟩

/-- The second worker steals task 0, which waits for a condition while the
first worker runs task 1 to its end. -/
private def stealing : List Label :=
  [.create 0 0, .push 0, .pop ⟨0, 1⟩ 0, .create 1 0, .push 1, .pop ⟨0, 0⟩ 1,
    .resume ⟨0, 1⟩, .resume ⟨0, 0⟩, .pause ⟨0, 1⟩ (.wait 7), .settle ⟨0, 1⟩,
    .pause ⟨0, 0⟩ .finish, .settle ⟨0, 0⟩]

/-- The state after it. -/
private def stolen : Sched :=
  Lib.runFrom (Sched.step twoWorkers) .initial stealing

theorem task_in_one_place_sample :
    OnePlace twoWorkers stolen ∧
      (stolen.cond 7).blocked = [⟨0, 0⟩] ∧ stolen.Destroyed twoWorkers ⟨0, 1⟩ := by
  refine ⟨task_in_one_place twoWorkers stolen ?_, by decide, by decide⟩
  exact Lib.Reachable.runFrom _ _ _

end Schedule
end Cgo
