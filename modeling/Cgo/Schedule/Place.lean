import Cgo.Lib.Placement
import Cgo.Schedule.System
import Mathlib.Data.List.Nodup

/-!
# Every task is in one place

A task is in the runnable queue of its partition, held by the thread that
created it or by the worker that popped it, or in the blocked list of one
condition, and nowhere else.  Every step takes at most two tasks out of their
places and puts each into another, so it is enough to look at the single takes
and puts.
-/

namespace Cgo
namespace Schedule

/-- Where a task can be. -/
inductive Place
  | runnable (partition : Partition)
  | spawner (thread : ThreadId)
  | worker (worker : Worker)
  | blocked (cond : CondId)

namespace Sched

/-- The task is at a place. -/
def At (sched : Sched) (task : TaskId) : Place → Prop
  | .runnable partition => task ∈ sched.runnable partition
  | .spawner thread => sched.spawning thread = some task
  | .worker worker => ∃ resuming, sched.executing worker = some ⟨task, resuming⟩
  | .blocked cond => task ∈ (sched.cond cond).blocked

/-- The task was created and has not been destroyed. -/
def Alive (config : Config) (sched : Sched) (task : TaskId) : Prop :=
  task ∈ sched.pool (config.home task) ∧ (sched.task task).destroyed = false

end Sched

/-- The lists and the threads hold their tasks where `there` says. -/
structure Tidy (config : Config) (sched : Sched) (there : TaskId → Option Place) :
    Prop where
  placement : Lib.Placement sched.At there
  runnable_home : ∀ partition, ∀ task ∈ sched.runnable partition,
    partition = config.home task
  runnable_nodup : ∀ partition, (sched.runnable partition).Nodup
  blocked_nodup : ∀ cond, (sched.cond cond).blocked.Nodup
  /-- A blocked task waits for the condition that blocks it. -/
  blocked_cond : ∀ cond, ∀ task ∈ (sched.cond cond).blocked,
    (sched.task task).waitingCond = some cond
  spawning_fresh : ∀ thread task, sched.spawning thread = some task →
    (sched.task task).waitingCond = none
  executing_ctx : ∀ worker execution, sched.executing worker = some execution →
    worker.index < config.partitions worker.ctx ∧ execution.task.ctx = worker.ctx
  /-- A task inside `FrameOperator::resume` is not done. -/
  resuming : ∀ worker task, sched.executing worker = some ⟨task, true⟩ →
    (sched.task task).done = false
  exited : ∀ worker, sched.exited worker = true → sched.executing worker = none

namespace Tidy

variable {config : Config} {sched : Sched} {there : TaskId → Option Place}

theorem initial : Tidy config .initial fun _ => none where
  placement := ⟨fun task place => by cases place <;> simp [Sched.At, Sched.initial]⟩
  runnable_home := by simp [Sched.initial]
  runnable_nodup := by simp [Sched.initial]
  blocked_nodup := by simp [Sched.initial]
  blocked_cond := by simp [Sched.initial]
  spawning_fresh := by simp [Sched.initial]
  executing_ctx := by simp [Sched.initial]
  resuming := by simp [Sched.initial]
  exited := by simp [Sched.initial]

/-- What the lists and the threads do not contain may change. -/
theorem of_same
    {after : Sched}
    (tidy : Tidy config sched there)
    (runnable : after.runnable = sched.runnable)
    (cond : after.cond = sched.cond)
    (task : after.task = sched.task)
    (spawning : after.spawning = sched.spawning)
    (executing : after.executing = sched.executing)
    (exited : ∀ worker, after.exited worker = true → sched.executing worker = none) :
    Tidy config after there where
  placement := tidy.placement.congr fun other place => by
    cases place <;> simp [Sched.At, runnable, cond, spawning, executing]
  runnable_home := by simpa [runnable] using tidy.runnable_home
  runnable_nodup := by simpa [runnable] using tidy.runnable_nodup
  blocked_nodup := by simpa [cond] using tidy.blocked_nodup
  blocked_cond := by simpa [cond, task] using tidy.blocked_cond
  spawning_fresh := by simpa [spawning, task] using tidy.spawning_fresh
  executing_ctx := by simpa [executing] using tidy.executing_ctx
  resuming := by simpa [executing, task] using tidy.resuming
  exited worker left := by
    rw [executing]
    exact exited worker left

/-! ## Takes -/

/-- The head of a list without repetitions is taken. -/
private theorem mem_tail_iff
    {list rest : List TaskId}
    {head : TaskId}
    (nodup : list.Nodup)
    (heads : list = head :: rest)
    (task : TaskId) :
    task ∈ rest ↔ task ∈ list ∧ task ≠ head := by
  subst heads
  have absent := (List.nodup_cons.mp nodup).1
  constructor
  · intro member
    refine ⟨List.mem_cons_of_mem _ member, ?_⟩
    rintro rfl
    exact absent member
  · rintro ⟨member, different⟩
    exact (List.mem_cons.mp member).resolve_left different

theorem takeRunnable
    {partition : Partition}
    {task : TaskId}
    {rest : List TaskId}
    (tidy : Tidy config sched there)
    (queued : sched.runnable partition = task :: rest) :
    Tidy config (sched.setRunnable partition rest) (Function.update there task none) where
  placement := by
    have atSource : sched.At task (.runnable partition) := by simp [Sched.At, queued]
    refine tidy.placement.take atSource (fun other => ?_) fun other place different => ?_
    · simpa [Sched.At, Sched.setRunnable] using
        mem_tail_iff (tidy.runnable_nodup partition) queued other
    · cases place with
      | runnable source =>
          have apart : source ≠ partition := by simpa using different
          simp [Sched.At, Sched.setRunnable, apart]
      | _ => rfl
  runnable_home source other member := by
    by_cases same : source = partition
    · subst same
      refine tidy.runnable_home source other ?_
      rw [queued]
      exact List.mem_cons_of_mem _ (by simpa [Sched.setRunnable] using member)
    · exact tidy.runnable_home source other (by simpa [Sched.setRunnable, same] using member)
  runnable_nodup source := by
    by_cases same : source = partition
    · subst same
      have nodup := tidy.runnable_nodup source
      rw [queued] at nodup
      simpa [Sched.setRunnable] using (List.nodup_cons.mp nodup).2
    · simpa [Sched.setRunnable, same] using tidy.runnable_nodup source
  blocked_nodup := tidy.blocked_nodup
  blocked_cond := tidy.blocked_cond
  spawning_fresh := tidy.spawning_fresh
  executing_ctx := tidy.executing_ctx
  resuming := tidy.resuming
  exited := tidy.exited

theorem takeSpawner
    {thread : ThreadId}
    {task : TaskId}
    (tidy : Tidy config sched there)
    (holds : sched.spawning thread = some task) :
    Tidy config { sched with spawning := Function.update sched.spawning thread none }
      (Function.update there task none) where
  placement := by
    have atSource : sched.At task (.spawner thread) := holds
    refine tidy.placement.take atSource (fun other => ?_) fun other place different => ?_
    · simp [Sched.At, holds, eq_comm]
    · cases place with
      | spawner source =>
          have apart : source ≠ thread := by simpa using different
          simp [Sched.At, apart]
      | _ => rfl
  runnable_home := tidy.runnable_home
  runnable_nodup := tidy.runnable_nodup
  blocked_nodup := tidy.blocked_nodup
  blocked_cond := tidy.blocked_cond
  spawning_fresh source other spawns := by
    by_cases same : source = thread
    · subst same
      simp at spawns
    · exact tidy.spawning_fresh source other (by simpa [same] using spawns)
  executing_ctx := tidy.executing_ctx
  resuming := tidy.resuming
  exited := tidy.exited

theorem takeWorker
    {worker : Worker}
    {execution : Execution}
    (tidy : Tidy config sched there)
    (runs : sched.executing worker = some execution) :
    Tidy config (sched.setExecuting worker none)
      (Function.update there execution.task none) where
  placement := by
    have atSource : sched.At execution.task (.worker worker) := ⟨execution.resuming, runs⟩
    refine tidy.placement.take atSource (fun other => ?_) fun other place different => ?_
    · constructor
      · rintro ⟨resuming, still⟩
        simp [Sched.setExecuting] at still
      · rintro ⟨⟨resuming, other⟩, apart⟩
        rw [runs] at other
        exact absurd (congrArg Execution.task (Option.some.inj other)).symm apart
    · cases place with
      | worker source =>
          have apart : source ≠ worker := by simpa using different
          simp [Sched.At, Sched.setExecuting, apart]
      | _ => rfl
  runnable_home := tidy.runnable_home
  runnable_nodup := tidy.runnable_nodup
  blocked_nodup := tidy.blocked_nodup
  blocked_cond := tidy.blocked_cond
  spawning_fresh := tidy.spawning_fresh
  executing_ctx source other runs := by
    by_cases same : source = worker
    · subst same
      simp [Sched.setExecuting] at runs
    · exact tidy.executing_ctx source other (by simpa [Sched.setExecuting, same] using runs)
  resuming source other runs := by
    by_cases same : source = worker
    · subst same
      simp [Sched.setExecuting] at runs
    · exact tidy.resuming source other (by simpa [Sched.setExecuting, same] using runs)
  exited source left := by
    by_cases same : source = worker
    · subst same
      simp [Sched.setExecuting]
    · simpa [Sched.setExecuting, same] using tidy.exited source left

theorem takeBlocked
    {cond : CondId}
    {task : TaskId}
    {rest : List TaskId}
    {value : Cond}
    (tidy : Tidy config sched there)
    (waits : (sched.cond cond).blocked = task :: rest)
    (left : value.blocked = rest) :
    Tidy config (sched.setCond cond value) (Function.update there task none) where
  placement := by
    have atSource : sched.At task (.blocked cond) := by simp [Sched.At, waits]
    refine tidy.placement.take atSource (fun other => ?_) fun other place different => ?_
    · simpa [Sched.At, Sched.setCond, left] using
        mem_tail_iff (tidy.blocked_nodup cond) waits other
    · cases place with
      | blocked source =>
          have apart : source ≠ cond := by simpa using different
          simp [Sched.At, Sched.setCond, apart]
      | _ => rfl
  runnable_home := tidy.runnable_home
  runnable_nodup := tidy.runnable_nodup
  blocked_nodup source := by
    by_cases same : source = cond
    · subst same
      have nodup := tidy.blocked_nodup source
      rw [waits] at nodup
      simpa [Sched.setCond, left] using (List.nodup_cons.mp nodup).2
    · simpa [Sched.setCond, same] using tidy.blocked_nodup source
  blocked_cond source other member := by
    by_cases same : source = cond
    · subst same
      refine tidy.blocked_cond source other ?_
      rw [waits]
      exact List.mem_cons_of_mem _ (by simpa [Sched.setCond, left] using member)
    · exact tidy.blocked_cond source other (by simpa [Sched.setCond, same] using member)
  spawning_fresh := tidy.spawning_fresh
  executing_ctx := tidy.executing_ctx
  resuming := tidy.resuming
  exited := tidy.exited

/-- A task that no thread holds is unlinked from whatever list it is in. -/
theorem unlinkThis
    {task : TaskId}
    (tidy : Tidy config sched there)
    (unspawned : ∀ thread, sched.spawning thread ≠ some task)
    (idle : ∀ worker resuming, sched.executing worker ≠ some ⟨task, resuming⟩) :
    Tidy config (sched.unlinkThis task) (Function.update there task none) where
  placement := by
    refine tidy.placement.erase fun other place => ?_
    cases place with
    | runnable partition =>
        simpa [Sched.At, Sched.unlinkThis, and_comm] using
          (tidy.runnable_nodup partition).mem_erase_iff
    | blocked cond =>
        simpa [Sched.At, Sched.unlinkThis, and_comm] using
          (tidy.blocked_nodup cond).mem_erase_iff
    | spawner thread =>
        refine ⟨fun holds => ⟨holds, ?_⟩, And.left⟩
        rintro rfl
        exact unspawned thread holds
    | worker worker =>
        refine ⟨fun holds => ⟨holds, ?_⟩, And.left⟩
        rintro rfl
        obtain ⟨resuming, runs⟩ := holds
        exact idle worker resuming runs
  runnable_home partition other member :=
    tidy.runnable_home partition other (List.mem_of_mem_erase member)
  runnable_nodup partition := (tidy.runnable_nodup partition).erase task
  blocked_nodup cond := (tidy.blocked_nodup cond).erase task
  blocked_cond cond other member :=
    tidy.blocked_cond cond other (List.mem_of_mem_erase member)
  spawning_fresh := tidy.spawning_fresh
  executing_ctx := tidy.executing_ctx
  resuming := tidy.resuming
  exited := tidy.exited

/-! ## Puts -/

theorem push
    {task : TaskId}
    (tidy : Tidy config sched there)
    (missing : there task = none) :
    Tidy config (sched.push config task)
      (Function.update there task (some (.runnable (config.home task)))) where
  placement := by
    refine tidy.placement.put missing (fun other => ?_) fun other place different => ?_
    · simp [Sched.At, Sched.push, Sched.setRunnable]
    · cases place with
      | runnable target =>
          have apart : target ≠ config.home task := by simpa using different
          simp [Sched.At, Sched.push, Sched.setRunnable, apart]
      | _ => rfl
  runnable_home partition other member := by
    by_cases same : partition = config.home task
    · subst same
      have queued : other ∈ sched.runnable (config.home task) ∨ other = task := by
        simpa [Sched.push, Sched.setRunnable] using member
      rcases queued with before | rfl
      · exact tidy.runnable_home _ other before
      · rfl
    · exact tidy.runnable_home partition other
        (by simpa [Sched.push, Sched.setRunnable, same] using member)
  runnable_nodup partition := by
    by_cases same : partition = config.home task
    · subst same
      have absent := tidy.placement.nowhere missing (.runnable (config.home task))
      have appended := (tidy.runnable_nodup (config.home task)).append
        (List.nodup_singleton task) (by simpa [Sched.At] using absent)
      simpa [Sched.push, Sched.setRunnable] using appended
    · simpa [Sched.push, Sched.setRunnable, same] using tidy.runnable_nodup partition
  blocked_nodup := tidy.blocked_nodup
  blocked_cond := tidy.blocked_cond
  spawning_fresh := tidy.spawning_fresh
  executing_ctx := tidy.executing_ctx
  resuming := tidy.resuming
  exited := tidy.exited

theorem suspendToThis
    {cond : CondId}
    {task : TaskId}
    (tidy : Tidy config sched there)
    (missing : there task = none)
    (waits : (sched.task task).waitingCond = some cond) :
    Tidy config (sched.suspendToThis cond task)
      (Function.update there task (some (.blocked cond))) where
  placement := by
    refine tidy.placement.put missing (fun other => ?_) fun other place different => ?_
    · simp [Sched.At, Sched.suspendToThis, Sched.setCond]
    · cases place with
      | blocked target =>
          have apart : target ≠ cond := by simpa using different
          simp [Sched.At, Sched.suspendToThis, Sched.setCond, apart]
      | _ => rfl
  runnable_home := tidy.runnable_home
  runnable_nodup := tidy.runnable_nodup
  blocked_nodup other := by
    by_cases same : other = cond
    · subst same
      have absent := tidy.placement.nowhere missing (.blocked other)
      have appended := (tidy.blocked_nodup other).append
        (List.nodup_singleton task) (by simpa [Sched.At] using absent)
      simpa [Sched.suspendToThis, Sched.setCond] using appended
    · simpa [Sched.suspendToThis, Sched.setCond, same] using tidy.blocked_nodup other
  blocked_cond other blocked member := by
    by_cases same : other = cond
    · subst same
      have linked : blocked ∈ (sched.cond other).blocked ∨ blocked = task := by
        simpa [Sched.suspendToThis, Sched.setCond] using member
      rcases linked with before | rfl
      · exact tidy.blocked_cond other blocked before
      · exact waits
    · exact tidy.blocked_cond other blocked
        (by simpa [Sched.suspendToThis, Sched.setCond, same] using member)
  spawning_fresh := tidy.spawning_fresh
  executing_ctx := tidy.executing_ctx
  resuming := tidy.resuming
  exited := tidy.exited

theorem putSpawner
    {thread : ThreadId}
    {task : TaskId}
    (tidy : Tidy config sched there)
    (missing : there task = none)
    (free : sched.spawning thread = none)
    (fresh : (sched.task task).waitingCond = none) :
    Tidy config { sched with spawning := Function.update sched.spawning thread (some task) }
      (Function.update there task (some (.spawner thread))) where
  placement := by
    refine tidy.placement.put missing (fun other => ?_) fun other place different => ?_
    · simp [Sched.At, free, eq_comm]
    · cases place with
      | spawner target =>
          have apart : target ≠ thread := by simpa using different
          simp [Sched.At, apart]
      | _ => rfl
  runnable_home := tidy.runnable_home
  runnable_nodup := tidy.runnable_nodup
  blocked_nodup := tidy.blocked_nodup
  blocked_cond := tidy.blocked_cond
  spawning_fresh target other spawns := by
    by_cases same : target = thread
    · subst same
      obtain rfl : task = other := by simpa using spawns
      exact fresh
    · exact tidy.spawning_fresh target other (by simpa [same] using spawns)
  executing_ctx := tidy.executing_ctx
  resuming := tidy.resuming
  exited := tidy.exited

theorem putWorker
    {worker : Worker}
    {task : TaskId}
    (tidy : Tidy config sched there)
    (missing : there task = none)
    (free : sched.executing worker = none)
    (running : sched.exited worker = false)
    (inRange : worker.index < config.partitions worker.ctx)
    (own : task.ctx = worker.ctx) :
    Tidy config (sched.setExecuting worker (some ⟨task, false⟩))
      (Function.update there task (some (.worker worker))) where
  placement := by
    refine tidy.placement.put missing (fun other => ?_) fun other place different => ?_
    · simp [Sched.At, Sched.setExecuting, free, eq_comm]
    · cases place with
      | worker target =>
          have apart : target ≠ worker := by simpa using different
          simp [Sched.At, Sched.setExecuting, apart]
      | _ => rfl
  runnable_home := tidy.runnable_home
  runnable_nodup := tidy.runnable_nodup
  blocked_nodup := tidy.blocked_nodup
  blocked_cond := tidy.blocked_cond
  spawning_fresh := tidy.spawning_fresh
  executing_ctx target other runs := by
    by_cases same : target = worker
    · subst same
      obtain rfl : (⟨task, false⟩ : Execution) = other := by
        simpa [Sched.setExecuting] using runs
      exact ⟨inRange, own⟩
    · exact tidy.executing_ctx target other (by simpa [Sched.setExecuting, same] using runs)
  resuming target other runs := by
    by_cases same : target = worker
    · subst same
      simp [Sched.setExecuting] at runs
    · exact tidy.resuming target other (by simpa [Sched.setExecuting, same] using runs)
  exited target left := by
    by_cases same : target = worker
    · subst same
      have stays : sched.exited target = true := left
      rw [running] at stays
      simp at stays
    · simpa [Sched.setExecuting, same] using tidy.exited target left

/-! ## Changes in place -/

/-- A worker goes into `FrameOperator::resume` or comes out of it. -/
theorem reexecute
    {worker : Worker}
    {task : TaskId}
    {before : Bool}
    (tidy : Tidy config sched there)
    (runs : sched.executing worker = some ⟨task, before⟩)
    (now : Bool)
    (unfinished : now = true → (sched.task task).done = false) :
    Tidy config (sched.setExecuting worker (some ⟨task, now⟩)) there where
  placement := by
    refine tidy.placement.congr fun other place => ?_
    cases place with
    | worker target =>
        by_cases same : target = worker
        · subst same
          simp [Sched.At, Sched.setExecuting, runs]
        · simp [Sched.At, Sched.setExecuting, same]
    | _ => rfl
  runnable_home := tidy.runnable_home
  runnable_nodup := tidy.runnable_nodup
  blocked_nodup := tidy.blocked_nodup
  blocked_cond := tidy.blocked_cond
  spawning_fresh := tidy.spawning_fresh
  executing_ctx target other runs' := by
    by_cases same : target = worker
    · subst same
      obtain rfl : (⟨task, now⟩ : Execution) = other := by
        simpa [Sched.setExecuting] using runs'
      have own := tidy.executing_ctx target _ runs
      exact own
    · exact tidy.executing_ctx target other (by simpa [Sched.setExecuting, same] using runs')
  resuming target other runs' := by
    by_cases same : target = worker
    · subst same
      obtain ⟨rfl, isNow⟩ : task = other ∧ now = true := by
        simpa [Sched.setExecuting] using runs'
      exact unfinished isNow
    · exact tidy.resuming target other (by simpa [Sched.setExecuting, same] using runs')
  exited target left := by
    by_cases same : target = worker
    · subst same
      rw [tidy.exited target left] at runs
      simp at runs
    · simpa [Sched.setExecuting, same] using tidy.exited target left

theorem setTask
    {task : TaskId}
    {value : Task}
    (tidy : Tidy config sched there)
    (blocked : ∀ cond, task ∈ (sched.cond cond).blocked → value.waitingCond = some cond)
    (spawned : ∀ thread, sched.spawning thread = some task → value.waitingCond = none)
    (resumed : ∀ worker, sched.executing worker = some ⟨task, true⟩ → value.done = false) :
    Tidy config (sched.setTask task value) there where
  placement := tidy.placement.congr fun other place => by cases place <;> rfl
  runnable_home := tidy.runnable_home
  runnable_nodup := tidy.runnable_nodup
  blocked_nodup := tidy.blocked_nodup
  blocked_cond cond other member := by
    by_cases same : other = task
    · subst same
      simpa [Sched.setTask] using blocked cond member
    · simpa [Sched.setTask, same] using tidy.blocked_cond cond other member
  spawning_fresh thread other spawns := by
    by_cases same : other = task
    · subst same
      simpa [Sched.setTask] using spawned thread spawns
    · simpa [Sched.setTask, same] using tidy.spawning_fresh thread other spawns
  executing_ctx := tidy.executing_ctx
  resuming worker other runs := by
    by_cases same : other = task
    · subst same
      simpa [Sched.setTask] using resumed worker runs
    · simpa [Sched.setTask, same] using tidy.resuming worker other runs
  exited := tidy.exited

/-- The blocked list of a condition stays while its other fields change. -/
theorem setCond
    {cond : CondId}
    {value : Cond}
    (tidy : Tidy config sched there)
    (kept : value.blocked = (sched.cond cond).blocked) :
    Tidy config (sched.setCond cond value) there where
  placement := by
    refine tidy.placement.congr fun other place => ?_
    cases place with
    | blocked target =>
        by_cases same : target = cond
        · subst same
          simp [Sched.At, Sched.setCond, kept]
        · simp [Sched.At, Sched.setCond, same]
    | _ => rfl
  runnable_home := tidy.runnable_home
  runnable_nodup := tidy.runnable_nodup
  blocked_nodup target := by
    by_cases same : target = cond
    · subst same
      simpa [Sched.setCond, kept] using tidy.blocked_nodup target
    · simpa [Sched.setCond, same] using tidy.blocked_nodup target
  blocked_cond target other member := by
    by_cases same : target = cond
    · subst same
      exact tidy.blocked_cond target other (by simpa [Sched.setCond, kept] using member)
    · exact tidy.blocked_cond target other (by simpa [Sched.setCond, same] using member)
  spawning_fresh := tidy.spawning_fresh
  executing_ctx := tidy.executing_ctx
  resuming := tidy.resuming
  exited := tidy.exited

/-- A task that is nowhere can be given any fields. -/
theorem setTask_missing
    {task : TaskId}
    (tidy : Tidy config sched there)
    (missing : there task = none)
    (value : Task) :
    Tidy config (sched.setTask task value) there := by
  have nowhere := tidy.placement.nowhere missing
  refine tidy.setTask ?_ ?_ ?_
  · exact fun cond member => absurd member (nowhere (.blocked cond))
  · exact fun thread spawns => absurd spawns (nowhere (.spawner thread))
  · exact fun worker runs => absurd ⟨true, runs⟩ (nowhere (.worker worker))

/-! ## The functions of the source -/

/-- `_schedule_from_this` moves the first blocked task to its partition. -/
theorem scheduleFromThis
    (tidy : Tidy config sched there)
    (cond : CondId) :
    ∃ next, Tidy config (sched.scheduleFromThis config cond) next ∧
      ∀ task, next task = none ↔ there task = none := by
  unfold Sched.scheduleFromThis
  split
  · exact ⟨there, tidy, fun _ => Iff.rfl⟩
  · rename_i task rest waits
    refine ⟨_, (tidy.takeBlocked waits rfl).push (by simp), fun other => ?_⟩
    by_cases same : other = task
    · subst same
      have here := (tidy.placement.at_iff other (.blocked cond)).mp (by
        simp [Sched.At, waits])
      simp [here]
    · simp [same]

/-- `_remove` takes a waiting task out of its list. -/
theorem remove
    {task : TaskId}
    (tidy : Tidy config sched there)
    (cond : CondId)
    (unspawned : ∀ thread, sched.spawning thread ≠ some task)
    (idle : ∀ worker resuming, sched.executing worker ≠ some ⟨task, resuming⟩) :
    ∃ next, Tidy config (sched.remove config cond task) next ∧
      ∀ other, next other = none ↔ there other = none ∨ other = task := by
  have unlinked := tidy.unlinkThis unspawned idle
  have missing : ∀ other, Function.update there task none other = none ↔
      there other = none ∨ other = task := by
    intro other
    by_cases same : other = task <;> simp [same]
  simp only [Sched.remove]
  split
  · obtain ⟨next, scheduled, same⟩ := unlinked.scheduleFromThis cond
    exact ⟨next, scheduled, fun other => (same other).trans (missing other)⟩
  · exact ⟨_, unlinked, missing⟩

/-- `_execute` gives its task away: to a queue, to a condition, or to nobody
when it is done. -/
theorem giveAway
    {worker : Worker}
    {task : TaskId}
    (tidy : Tidy config sched there)
    (runs : sched.executing worker = some ⟨task, false⟩)
    (stops : sched.canResume task = false) :
    ∃ next, Tidy config (sched.giveAway config worker task) next ∧
      ∀ other, next other = none ↔
        there other = none ∨ (other = task ∧ (sched.task task).done = true) := by
  have taken := tidy.takeWorker runs
  have atWorker : there task ≠ none := by
    rw [(tidy.placement.at_iff task (.worker worker)).mp ⟨false, runs⟩]
    simp
  have kept : ∀ place other, Function.update (Function.update there task none) task
      (some place) other = none ↔ there other = none := by
    intro place other
    by_cases same : other = task
    · subst same
      simp [atWorker]
    · simp [same]
  unfold Sched.giveAway
  by_cases done : (sched.task task).done = true
  · rw [if_pos done]
    refine ⟨_, taken.of_same rfl rfl rfl rfl rfl taken.exited, fun other => ?_⟩
    by_cases same : other = task
    · subst same
      simp [done]
    · simp [same]
  · rw [if_neg done]
    by_cases yielded : (sched.task task).yielded = true
    · rw [if_pos yielded]
      refine ⟨_, taken.push (by simp), fun other => ?_⟩
      rw [kept]
      simp [done]
    · rw [if_neg yielded]
      cases waits : (sched.task task).waitingCond with
      | none => simp [Sched.canResume, done, yielded, waits] at stops
      | some cond =>
          refine ⟨_, taken.suspendToThis (by simp) waits, fun other => ?_⟩
          rw [kept]
          simp [done]

end Tidy

/-! ## What the functions leave alone -/

namespace Sched

variable (config : Config) (sched : Sched)

theorem scheduleFromThis_nil
    {cond : CondId}
    (nobody : (sched.cond cond).blocked = []) :
    sched.scheduleFromThis config cond = sched := by
  simp [scheduleFromThis, nobody]

theorem scheduleFromThis_cons
    {cond : CondId}
    {task : TaskId}
    {blocked : List TaskId}
    (waits : (sched.cond cond).blocked = task :: blocked) :
    sched.scheduleFromThis config cond =
      (sched.setCond cond
        { sched.cond cond with
          blocked
          scheduledCtx := some task.ctx
          notified := (sched.cond cond).notified ++ [task] }).push config task := by
  simp [scheduleFromThis, waits]

@[simp] theorem scheduleFromThis_pool (cond : CondId) :
    (sched.scheduleFromThis config cond).pool = sched.pool := by
  unfold scheduleFromThis
  split <;> rfl

@[simp] theorem scheduleFromThis_task (cond : CondId) :
    (sched.scheduleFromThis config cond).task = sched.task := by
  unfold scheduleFromThis
  split <;> rfl

@[simp] theorem scheduleFromThis_finished (cond : CondId) :
    (sched.scheduleFromThis config cond).finished = sched.finished := by
  unfold scheduleFromThis
  split <;> rfl

@[simp] theorem scheduleFromThis_exited (cond : CondId) :
    (sched.scheduleFromThis config cond).exited = sched.exited := by
  unfold scheduleFromThis
  split <;> rfl

@[simp] theorem scheduleFromThis_sweep (cond : CondId) :
    (sched.scheduleFromThis config cond).sweep = sched.sweep := by
  unfold scheduleFromThis
  split <;> rfl

@[simp] theorem scheduleFromThis_spawning (cond : CondId) :
    (sched.scheduleFromThis config cond).spawning = sched.spawning := by
  unfold scheduleFromThis
  split <;> rfl

@[simp] theorem scheduleFromThis_executing (cond : CondId) :
    (sched.scheduleFromThis config cond).executing = sched.executing := by
  unfold scheduleFromThis
  split <;> rfl

@[simp] theorem scheduleFromThis_tid (cond : CondId) :
    (sched.scheduleFromThis config cond).tid = sched.tid := by
  unfold scheduleFromThis
  split <;> rfl

@[simp] theorem remove_pool (cond : CondId) (task : TaskId) :
    (sched.remove config cond task).pool = sched.pool := by
  simp only [remove]
  split
  · rw [scheduleFromThis_pool]
    rfl
  · rfl

@[simp] theorem remove_task (cond : CondId) (task : TaskId) :
    (sched.remove config cond task).task = sched.task := by
  simp only [remove]
  split
  · rw [scheduleFromThis_task]
    rfl
  · rfl

@[simp] theorem remove_tid (cond : CondId) (task : TaskId) :
    (sched.remove config cond task).tid = sched.tid := by
  simp only [remove]
  split
  · rw [scheduleFromThis_tid]
    rfl
  · rfl

@[simp] theorem remove_finished (cond : CondId) (task : TaskId) :
    (sched.remove config cond task).finished = sched.finished := by
  simp only [remove]
  split
  · rw [scheduleFromThis_finished]
    rfl
  · rfl

@[simp] theorem remove_exited (cond : CondId) (task : TaskId) :
    (sched.remove config cond task).exited = sched.exited := by
  simp only [remove]
  split
  · rw [scheduleFromThis_exited]
    rfl
  · rfl

@[simp] theorem remove_sweep (cond : CondId) (task : TaskId) :
    (sched.remove config cond task).sweep = sched.sweep := by
  simp only [remove]
  split
  · rw [scheduleFromThis_sweep]
    rfl
  · rfl

@[simp] theorem giveAway_finished (worker : Worker) (task : TaskId) :
    (sched.giveAway config worker task).finished = sched.finished := by
  unfold giveAway
  split
  · rfl
  · split
    · rfl
    · split <;> rfl

@[simp] theorem giveAway_exited (worker : Worker) (task : TaskId) :
    (sched.giveAway config worker task).exited = sched.exited := by
  unfold giveAway
  split
  · rfl
  · split
    · rfl
    · split <;> rfl

@[simp] theorem giveAway_sweep (worker : Worker) (task : TaskId) :
    (sched.giveAway config worker task).sweep = sched.sweep := by
  unfold giveAway
  split
  · rfl
  · split
    · rfl
    · split <;> rfl

@[simp] theorem giveAway_task (worker : Worker) (task : TaskId) :
    (sched.giveAway config worker task).task = sched.task := by
  unfold giveAway
  split
  · rfl
  · split
    · rfl
    · split <;> rfl

@[simp] theorem giveAway_tid (worker : Worker) (task : TaskId) :
    (sched.giveAway config worker task).tid = sched.tid := by
  unfold giveAway
  split
  · rfl
  · split
    · rfl
    · split <;> rfl

/-- Only a task that is done leaves its allocator. -/
theorem giveAway_pool (worker : Worker) (task : TaskId) :
    (sched.giveAway config worker task).pool =
      if (sched.task task).done then
        Function.update sched.pool (config.home task) ((sched.pool (config.home task)).erase task)
      else sched.pool := by
  unfold giveAway
  split
  · rfl
  · split
    · rfl
    · split <;> rfl

end Sched

/-! ## The steps -/

/-- Every task that was created and not destroyed is somewhere, and no other. -/
structure Placed (config : Config) (sched : Sched) : Prop where
  tidy : ∃ there, Tidy config sched there ∧
    ∀ task, there task ≠ none ↔ sched.Alive config task
  pool_home : ∀ partition, ∀ task ∈ sched.pool partition,
    partition = config.home task ∧ task.id < sched.tid task.ctx
  pool_nodup : ∀ partition, (sched.pool partition).Nodup
  /-- A task that has left its allocator is done. -/
  gone_done : ∀ task, task.id < sched.tid task.ctx →
    task ∈ sched.pool (config.home task) ∨ (sched.task task).done = true
  sweep_own : ∀ worker tasks, sched.sweep worker = some tasks →
    ∀ task ∈ tasks, task.ctx = worker.ctx
  /-- Frames are destroyed in contexts that are shut down. -/
  destroyed_finished : ∀ task, (sched.task task).destroyed = true →
    sched.finished task.ctx = true

namespace Placed

variable {config : Config} {sched after : Sched}

theorem initial : Placed config .initial where
  tidy := ⟨_, .initial, by simp [Sched.Alive, Sched.initial]⟩
  pool_home := by simp [Sched.initial]
  pool_nodup := by simp [Sched.initial]
  gone_done := by simp [Sched.initial]
  sweep_own := by simp [Sched.initial]
  destroyed_finished := by simp [Sched.initial, Task.fresh]

/-- A step that creates and destroys nobody keeps the tasks placed if it keeps
them tidy and forgets none. -/
private theorem of_tidy
    {there next : TaskId → Option Place}
    (placed : Placed config sched)
    (alive : ∀ task, there task ≠ none ↔ sched.Alive config task)
    (tidy : Tidy config after next)
    (kept : ∀ task, next task = none ↔ there task = none)
    (tid : after.tid = sched.tid)
    (pool : after.pool = sched.pool)
    (sweep : ∀ worker tasks, after.sweep worker = some tasks →
      ∀ task ∈ tasks, task.ctx = worker.ctx)
    (finished : ∀ ctx, sched.finished ctx = true → after.finished ctx = true)
    (fields : ∀ task, (after.task task).destroyed = (sched.task task).destroyed ∧
      ((sched.task task).done = true → (after.task task).done = true)) :
    Placed config after where
  tidy := by
    refine ⟨next, tidy, fun task => ?_⟩
    rw [Ne, kept, ← Ne, alive, Sched.Alive, Sched.Alive, pool, (fields task).1]
  pool_home := by
    rw [tid, pool]
    exact placed.pool_home
  pool_nodup := by
    rw [pool]
    exact placed.pool_nodup
  gone_done task known := by
    rw [tid] at known
    rw [pool]
    exact (placed.gone_done task known).imp_right (fields task).2
  sweep_own := sweep
  destroyed_finished task destroyed := by
    rw [(fields task).1] at destroyed
    exact finished _ (placed.destroyed_finished task destroyed)

/-- One task gets other fields. -/
private theorem update_fields
    (tasks : TaskId → Task)
    {task : TaskId}
    (value : Task)
    (destroyed : value.destroyed = (tasks task).destroyed)
    (finished : (tasks task).done = true → value.done = true)
    (other : TaskId) :
    (Function.update tasks task value other).destroyed = (tasks other).destroyed ∧
      ((tasks other).done = true →
        (Function.update tasks task value other).done = true) := by
  by_cases same : other = task
  · subst same
    simpa using ⟨destroyed, finished⟩
  · simp [same]

private theorem step_create
    {thread : ThreadId}
    {ctx : ContextId}
    (placed : Placed config sched)
    (free : sched.spawning thread = none) :
    Placed config (sched.create config thread ctx) := by
  obtain ⟨there, tidy, alive⟩ := placed.tidy
  have unknown : ∀ partition, (⟨ctx, sched.tid ctx⟩ : TaskId) ∉ sched.pool partition := by
    intro partition member
    have known := (placed.pool_home partition _ member).2
    simp at known
  have missing : there ⟨ctx, sched.tid ctx⟩ = none := by
    by_contra somewhere
    exact unknown _ ((alive _).mp somewhere).1
  have put := (tidy.setTask_missing missing .fresh).putSpawner missing free
    (by simp [Sched.setTask, Task.fresh])
  have members : ∀ partition other, other ∈ (sched.create config thread ctx).pool partition ↔
      other ∈ sched.pool partition ∨
        (other = ⟨ctx, sched.tid ctx⟩ ∧ partition = config.home ⟨ctx, sched.tid ctx⟩) := by
    intro partition other
    by_cases same : partition = config.home ⟨ctx, sched.tid ctx⟩
    · subst same
      simp [Sched.create]
    · simp [Sched.create, same]
  refine ⟨⟨_, put.of_same rfl rfl rfl rfl rfl put.exited, fun other => ?_⟩,
    fun partition other member => ?_, fun partition => ?_, fun other known => ?_, placed.sweep_own,
    fun other destroyed => ?_⟩
  · by_cases same : other = ⟨ctx, sched.tid ctx⟩
    · subst same
      simp [Sched.Alive, Sched.create, Sched.setTask, Task.fresh]
    · have unchanged : ((sched.create config thread ctx).task other) = sched.task other := by
        simp [Sched.create, Sched.setTask, same]
      simp [Sched.Alive, members, unchanged, same, alive]
  · rcases (members partition other).mp member with before | ⟨rfl, rfl⟩
    · obtain ⟨home, known⟩ := placed.pool_home partition other before
      refine ⟨home, ?_⟩
      by_cases same : other.ctx = ctx
      · rw [same] at known
        simp [Sched.create, same]
        omega
      · simpa [Sched.create, same] using known
    · simp [Sched.create]
  · by_cases same : partition = config.home ⟨ctx, sched.tid ctx⟩
    · subst same
      simpa [Sched.create] using (placed.pool_nodup _).append (List.nodup_singleton _)
        (by simpa using unknown _)
    · simpa [Sched.create, same] using placed.pool_nodup partition
  · by_cases same : other = ⟨ctx, sched.tid ctx⟩
    · exact .inl ((members _ other).mpr (.inr ⟨same, by rw [same]⟩))
    · have before : other.id < sched.tid other.ctx := by
        by_cases own : other.ctx = ctx
        · subst own
          have unequal : other.id ≠ sched.tid other.ctx := by
            intro number
            apply same
            rw [← number]
          simp only [Sched.create, Function.update_self] at known
          omega
        · simpa [Sched.create, own] using known
      rcases placed.gone_done other before with member | done
      · exact .inl ((members _ other).mpr (.inl member))
      · right
        simpa [Sched.create, Sched.setTask, same] using done
  · by_cases same : other = ⟨ctx, sched.tid ctx⟩
    · subst same
      simp [Sched.create, Sched.setTask, Task.fresh] at destroyed
    · refine placed.destroyed_finished other ?_
      simpa [Sched.create, Sched.setTask, same] using destroyed

private theorem step_pop
    {worker : Worker}
    {index : Nat}
    {task : TaskId}
    {rest : List TaskId}
    (placed : Placed config sched)
    (inRange : worker.index < config.partitions worker.ctx)
    (running : sched.exited worker = false)
    (free : sched.executing worker = none)
    (queued : sched.runnable ⟨worker.ctx, index⟩ = task :: rest) :
    Placed config (((sched.setRunnable ⟨worker.ctx, index⟩ rest).setTask task
      { sched.task task with yielded := false, waitingCond := none }).setExecuting
        worker (some ⟨task, false⟩)) := by
  obtain ⟨there, tidy, alive⟩ := placed.tidy
  have queuedHere := tidy.runnable_home _ task (by rw [queued]; exact List.mem_cons_self)
  have own : task.ctx = worker.ctx := (congrArg Partition.ctx queuedHere).symm
  have atQueue := (tidy.placement.at_iff task (.runnable ⟨worker.ctx, index⟩)).mp
    (by simp [Sched.At, queued])
  refine placed.of_tidy alive (((tidy.takeRunnable queued).setTask_missing (by simp)
    _).putWorker (by simp) free running inRange own) (fun other => ?_) rfl rfl
      placed.sweep_own (fun _ => id) (update_fields sched.task
        { sched.task task with yielded := false, waitingCond := none } rfl id)
  by_cases same : other = task
  · subst same
    simp [atQueue]
  · simp [same]

/-- The task that came back to `_execute` gets other fields. -/
private theorem returned
    {there : TaskId → Option Place}
    {worker : Worker}
    {task : TaskId}
    (tidy : Tidy config sched there)
    (runs : sched.executing worker = some ⟨task, true⟩)
    (value : Task) :
    Tidy config ((sched.setExecuting worker (some ⟨task, false⟩)).setTask task value)
      there := by
  have returned := tidy.reexecute runs false (by simp)
  -- its worker holds the task, so neither a list nor a spawner does
  have here : ∀ place, (sched.setExecuting worker (some ⟨task, false⟩)).At task place →
      place = .worker worker := fun place atPlace =>
    returned.placement.unique atPlace ⟨false, by simp [Sched.setExecuting]⟩
  refine returned.setTask ?_ ?_ ?_
  · exact fun cond member => absurd (here (.blocked cond) member) (by simp)
  · exact fun thread spawns => absurd (here (.spawner thread) spawns) (by simp)
  · intro other resumes
    obtain rfl : other = worker := by simpa using here (.worker other) ⟨true, resumes⟩
    simp [Sched.setExecuting] at resumes

private theorem step_settle
    {worker : Worker}
    {task : TaskId}
    (placed : Placed config sched)
    (runs : sched.executing worker = some ⟨task, false⟩)
    (stops : sched.canResume task = false) :
    Placed config (sched.giveAway config worker task) := by
  obtain ⟨there, tidy, alive⟩ := placed.tidy
  obtain ⟨next, given, missing⟩ := tidy.giveAway runs stops
  have inPool : task ∈ sched.pool (config.home task) := by
    refine ((alive task).mp ?_).1
    rw [(tidy.placement.at_iff task (.worker worker)).mp ⟨false, runs⟩]
    simp
  have members : ∀ partition other,
      other ∈ (sched.giveAway config worker task).pool partition ↔
        other ∈ sched.pool partition ∧ ¬(other = task ∧ (sched.task task).done = true) := by
    intro partition other
    rw [Sched.giveAway_pool]
    split
    · rename_i done
      by_cases same : partition = config.home task
      · subst same
        simpa [done, and_comm] using (placed.pool_nodup _).mem_erase_iff
      · have apart : other ∈ sched.pool partition → other ≠ task := by
          rintro member rfl
          exact same (placed.pool_home partition other member).1
        simpa [same, done] using apart
    · rename_i unfinished
      simp [unfinished]
  refine ⟨⟨next, given, fun other => ?_⟩, fun partition other member => ?_,
    fun partition => ?_, fun other known => ?_, ?_, ?_⟩
  · rw [Ne, missing, not_or, ← Ne, alive]
    simp only [Sched.Alive, members, Sched.giveAway_task]
    tauto
  · rw [Sched.giveAway_tid]
    exact placed.pool_home partition other ((members partition other).mp member).1
  · rw [Sched.giveAway_pool]
    split
    · by_cases same : partition = config.home task
      · subst same
        simpa using (placed.pool_nodup _).erase task
      · simpa [same] using placed.pool_nodup partition
    · exact placed.pool_nodup partition
  · rw [Sched.giveAway_tid] at known
    rw [members, Sched.giveAway_task]
    rcases placed.gone_done other known with member | done
    · by_cases same : other = task ∧ (sched.task task).done = true
      · right
        rw [same.1]
        exact same.2
      · exact .inl ⟨member, same⟩
    · exact .inr done
  · rw [Sched.giveAway_sweep]
    exact placed.sweep_own
  · rw [Sched.giveAway_task, Sched.giveAway_finished]
    exact placed.destroyed_finished

private theorem step_push
    {thread : ThreadId}
    {task : TaskId}
    (placed : Placed config sched)
    (holds : sched.spawning thread = some task) :
    Placed config ({ sched with
      spawning := Function.update sched.spawning thread none }.push config task) := by
  obtain ⟨there, tidy, alive⟩ := placed.tidy
  have atSpawner := (tidy.placement.at_iff task (.spawner thread)).mp holds
  refine placed.of_tidy alive ((tidy.takeSpawner holds).push (by simp)) (fun other => ?_)
    rfl rfl placed.sweep_own (fun _ => id) fun _ => ⟨rfl, id⟩
  by_cases same : other = task
  · subst same
    simp [atSpawner]
  · simp [same]

private theorem step_resume
    {worker : Worker}
    {task : TaskId}
    (placed : Placed config sched)
    (runs : sched.executing worker = some ⟨task, false⟩)
    (resumes : sched.canResume task = true) :
    Placed config (sched.setExecuting worker (some ⟨task, true⟩)) := by
  obtain ⟨there, tidy, alive⟩ := placed.tidy
  have unfinished : (sched.task task).done = false := by
    simp only [Sched.canResume, Bool.and_eq_true, Bool.not_eq_true'] at resumes
    exact resumes.2
  exact placed.of_tidy alive (tidy.reexecute runs true fun _ => unfinished)
    (fun _ => Iff.rfl) rfl rfl placed.sweep_own (fun _ => id) fun _ => ⟨rfl, id⟩

private theorem step_notify
    (placed : Placed config sched)
    (cond : CondId) :
    Placed config (sched.scheduleFromThis config cond) := by
  obtain ⟨there, tidy, alive⟩ := placed.tidy
  obtain ⟨next, scheduled, same⟩ := tidy.scheduleFromThis cond
  refine placed.of_tidy alive scheduled same (by simp) (by simp) ?_ (by simp) (by simp)
  rw [Sched.scheduleFromThis_sweep]
  exact placed.sweep_own

/-- `final_schedule` removes a waiting task and destroys its frame. -/
private theorem step_remove
    {worker : Worker}
    {cond : CondId}
    {task : TaskId}
    {rest : List TaskId}
    (placed : Placed config sched)
    (finished : sched.finished worker.ctx = true)
    (exited : sched.AllExited config worker.ctx)
    (sweeps : sched.sweep worker = some (task :: rest))
    (waits : (sched.task task).waitingCond = some cond) :
    Placed config
      (({ sched with sweep := Function.update sched.sweep worker (some rest) }.remove
        config cond task).setTask task { sched.task task with destroyed := true }) := by
  obtain ⟨there, tidy, alive⟩ := placed.tidy
  have own := placed.sweep_own worker _ sweeps
  have unspawned : ∀ thread, sched.spawning thread ≠ some task := by
    intro thread spawns
    rw [tidy.spawning_fresh thread task spawns] at waits
    simp at waits
  -- the workers of its context have left, and no other context runs it
  have idle : ∀ other resuming, sched.executing other ≠ some ⟨task, resuming⟩ := by
    intro other resuming runs
    obtain ⟨inRange, ctx⟩ := tidy.executing_ctx other _ runs
    have sameCtx : other.ctx = worker.ctx := ctx.symm.trans (own task List.mem_cons_self)
    have left := exited other.index (sameCtx ▸ inRange)
    rw [← sameCtx] at left
    rw [tidy.exited other left] at runs
    simp at runs
  have swept : Tidy config
      { sched with sweep := Function.update sched.sweep worker (some rest) } there :=
    tidy.of_same rfl rfl rfl rfl rfl tidy.exited
  obtain ⟨next, removed, missing⟩ := swept.remove cond unspawned idle
  have nowhere : next task = none := (missing task).mpr (.inr rfl)
  refine ⟨⟨next, removed.setTask_missing nowhere _, fun other => ?_⟩, ?_, ?_,
    fun other known => ?_, fun other tasks sweeping => ?_, fun other destroyed => ?_⟩
  · rw [Ne, missing, not_or, ← Ne, alive]
    by_cases same : other = task
    · subst same
      simp [Sched.Alive, Sched.setTask]
    · simp [Sched.Alive, Sched.setTask, same]
  · simpa [Sched.setTask] using placed.pool_home
  · simpa [Sched.setTask] using placed.pool_nodup
  · have before := placed.gone_done other (by simpa [Sched.setTask] using known)
    by_cases same : other = task
    · subst same
      simpa [Sched.setTask] using before
    · simpa [Sched.setTask, same] using before
  · have lists : Function.update sched.sweep worker (some rest) other = some tasks := by
      simpa [Sched.setTask] using sweeping
    by_cases same : other = worker
    · subst same
      obtain rfl : rest = tasks := by simpa using lists
      exact fun visited member => own visited (List.mem_cons_of_mem _ member)
    · exact placed.sweep_own other tasks (by simpa [same] using lists)
  · by_cases same : other = task
    · subst same
      rw [own other List.mem_cons_self]
      simpa [Sched.setTask] using finished
    · have before : (sched.task other).destroyed = true := by
        simpa [Sched.setTask, same] using destroyed
      simpa [Sched.setTask] using placed.destroyed_finished other before

/-- `final_schedule` goes on with other tasks of its context. -/
private theorem step_sweep
    {worker : Worker}
    {tasks : List TaskId}
    (placed : Placed config sched)
    (own : ∀ task ∈ tasks, task.ctx = worker.ctx) :
    Placed config { sched with sweep := Function.update sched.sweep worker (some tasks) } := by
  obtain ⟨there, tidy, alive⟩ := placed.tidy
  refine placed.of_tidy alive (tidy.of_same rfl rfl rfl rfl rfl tidy.exited)
    (fun _ => Iff.rfl) rfl rfl (fun other swept sweeping => ?_)
      (fun _ => id) fun _ => ⟨rfl, id⟩
  rcases eq_or_ne other worker with rfl | apart
  · obtain rfl : tasks = swept := by simpa using sweeping
    exact own
  · exact placed.sweep_own other swept (by simpa [apart] using sweeping)

/-- Every step keeps the tasks placed. -/
theorem step
    {label : Label}
    (placed : Placed config sched)
    (stepped : sched.step config label = some after) :
    Placed config after := by
  obtain ⟨there, tidy, alive⟩ := placed.tidy
  cases Sched.move_of_step stepped with
  | create free => exact placed.step_create free
  | push holds => exact placed.step_push holds
  | pop inRange _ running free queued => exact placed.step_pop inRange running free queued
  | resume runs resumable => exact placed.step_resume runs resumable
  | suspend runs =>
      exact placed.of_tidy alive (tidy.reexecute runs false (by simp)) (fun _ => Iff.rfl)
        rfl rfl placed.sweep_own (fun _ => id) fun _ => ⟨rfl, id⟩
  | @yield worker task runs =>
      exact placed.of_tidy alive (returned tidy runs _) (fun _ => Iff.rfl) rfl rfl
        placed.sweep_own (fun _ => id)
          (update_fields sched.task { sched.task task with yielded := true } rfl id)
  | @finish worker task runs =>
      exact placed.of_tidy alive (returned tidy runs _) (fun _ => Iff.rfl) rfl rfl
        placed.sweep_own (fun _ => id)
          (update_fields sched.task { sched.task task with done := true } rfl fun _ => rfl)
  | @wait worker task cond runs =>
      refine placed.of_tidy alive ((returned tidy runs _).setCond ?_) (fun _ => Iff.rfl)
        rfl rfl placed.sweep_own (fun _ => id)
          (update_fields sched.task { sched.task task with waitingCond := some cond } rfl id)
      rfl
  | settle runs stops => exact placed.step_settle runs stops
  | notify => exact placed.step_notify _
  | forget =>
      exact placed.of_tidy alive (tidy.setCond rfl) (fun _ => Iff.rfl) rfl rfl
        placed.sweep_own (fun _ => id) fun _ => ⟨rfl, id⟩
  | @shutdown ctx =>
      refine placed.of_tidy alive (tidy.of_same rfl rfl rfl rfl rfl tidy.exited)
        (fun _ => Iff.rfl) rfl rfl placed.sweep_own (fun other finished => ?_)
        fun _ => ⟨rfl, id⟩
      rcases eq_or_ne other ctx with rfl | apart
      · simp
      · simpa [apart] using finished
  | @exit worker _ free =>
      refine placed.of_tidy alive (tidy.of_same rfl rfl rfl rfl rfl fun other left => ?_)
        (fun _ => Iff.rfl) rfl rfl placed.sweep_own (fun _ => id) fun _ => ⟨rfl, id⟩
      rcases eq_or_ne other worker with rfl | apart
      · exact free
      · exact tidy.exited other (by simpa [apart] using left)
  | @sweepStart worker =>
      refine placed.step_sweep fun task member => ?_
      have home := (placed.pool_home worker task member).1
      exact (congrArg Partition.ctx home).symm
  | @sweepSkip worker task rest _ _ sweeps =>
      refine placed.step_sweep fun other member => ?_
      exact placed.sweep_own worker _ sweeps other (List.mem_cons_of_mem _ member)
  | sweepRemove finished allExited sweeps waits =>
      exact placed.step_remove finished allExited sweeps waits

/-- In every reachable state the tasks are placed. -/
theorem of_reached
    (reached : sched.Reached config) :
    Placed config sched :=
  reached.invariant .initial fun _ _ _ placed stepped => placed.step stepped

end Placed

end Schedule
end Cgo
