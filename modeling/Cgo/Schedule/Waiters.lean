import Cgo.Schedule.Semaphore

/-!
# The waiters of a semaphore

What holds between the sections: the lock of a semaphore is held exactly while
a refused task is on its way to the blocked list, a blocked task is inside
`aquire` of the semaphore that blocks it, and the tasks that were notified and
have not tried again are those inside `aquire` that a scheduler has at hand.
-/

namespace Cgo
namespace Schedule

namespace Placed

variable {config : Config} {sched : Sched}

/-- A task is in one place at most. -/
theorem unique
    (placed : Placed config sched)
    {task : TaskId}
    {left right : Place}
    (atLeft : sched.At task left)
    (atRight : sched.At task right) :
    left = right := by
  obtain ⟨there, tidy, -⟩ := placed.tidy
  exact tidy.placement.unique atLeft atRight

/-- A task has one worker at most. -/
theorem worker_unique
    (placed : Placed config sched)
    {left right : Worker}
    {task : TaskId}
    {resumingLeft resumingRight : Bool}
    (runsLeft : sched.executing left = some ⟨task, resumingLeft⟩)
    (runsRight : sched.executing right = some ⟨task, resumingRight⟩) :
    left = right := by
  have atLeft : sched.At task (.worker left) := ⟨_, runsLeft⟩
  have atRight : sched.At task (.worker right) := ⟨_, runsRight⟩
  exact Place.worker.inj (placed.unique atLeft atRight)

/-- A task that a worker has is in no queue. -/
theorem not_runnable_of_executing
    (placed : Placed config sched)
    {worker : Worker}
    {task : TaskId}
    {resuming : Bool}
    (runs : sched.executing worker = some ⟨task, resuming⟩)
    (partition : Partition) :
    task ∉ sched.runnable partition := by
  intro queued
  have atWorker : sched.At task (.worker worker) := ⟨_, runs⟩
  have atQueue : sched.At task (.runnable partition) := queued
  simpa using placed.unique atWorker atQueue

/-- A blocked task is in no queue. -/
theorem not_runnable_of_blocked
    (placed : Placed config sched)
    {cond : CondId}
    {task : TaskId}
    (blocked : task ∈ (sched.cond cond).blocked)
    (partition : Partition) :
    task ∉ sched.runnable partition := by
  intro queued
  have atCond : sched.At task (.blocked cond) := blocked
  have atQueue : sched.At task (.runnable partition) := queued
  simpa using placed.unique atCond atQueue

/-- A blocked task has no worker. -/
theorem not_executing_of_blocked
    (placed : Placed config sched)
    {cond : CondId}
    {task : TaskId}
    (blocked : task ∈ (sched.cond cond).blocked)
    (worker : Worker)
    (resuming : Bool) :
    sched.executing worker ≠ some ⟨task, resuming⟩ := by
  intro runs
  have atCond : sched.At task (.blocked cond) := blocked
  have atWorker : sched.At task (.worker worker) := ⟨_, runs⟩
  simpa using placed.unique atCond atWorker

/-- A destroyed task is nowhere. -/
theorem nowhere_of_destroyed
    (placed : Placed config sched)
    {task : TaskId}
    (destroyed : (sched.task task).destroyed = true)
    (place : Place) :
    ¬sched.At task place := by
  obtain ⟨there, tidy, alive⟩ := placed.tidy
  refine tidy.placement.nowhere ?_ place
  by_contra somewhere
  have intact := ((alive task).mp somewhere).2
  simp [destroyed] at intact

end Placed

namespace Sched

variable (config : Config) (sched : Sched)

@[simp] theorem scheduleFromThis_mtx (cond other : CondId) :
    ((sched.scheduleFromThis config cond).cond other).mtx = (sched.cond other).mtx := by
  unfold scheduleFromThis
  split
  · rfl
  · by_cases same : other = cond
    · subst same
      simp [push, setRunnable, setCond]
    · simp [push, setRunnable, setCond, same]

@[simp] theorem remove_mtx (cond other : CondId) (task : TaskId) :
    ((sched.remove config cond task).cond other).mtx = (sched.cond other).mtx := by
  simp only [remove]
  split
  · rw [scheduleFromThis_mtx]
    rfl
  · rfl

@[simp] theorem remove_executing (cond : CondId) (task : TaskId) :
    (sched.remove config cond task).executing = sched.executing := by
  simp only [remove]
  split
  · rw [scheduleFromThis_executing]
    rfl
  · rfl

@[simp] theorem remove_spawning (cond : CondId) (task : TaskId) :
    (sched.remove config cond task).spawning = sched.spawning := by
  simp only [remove]
  split
  · rw [scheduleFromThis_spawning]
    rfl
  · rfl

/-- A task is appended to a queue. -/
theorem runnable_push
    {config : Config}
    {sched : Sched}
    {task other : TaskId}
    {partition : Partition}
    (queued : other ∈ (sched.push config task).runnable partition) :
    other ∈ sched.runnable partition ∨ other = task := by
  by_cases same : partition = config.home task
  · subst same
    simpa [Sched.push, Sched.setRunnable] using queued
  · exact .inl (by simpa [Sched.push, Sched.setRunnable, same] using queued)

/-- `_schedule_from_this` queues a blocked task. -/
theorem runnable_scheduleFromThis
    {config : Config}
    {sched : Sched}
    {cond : CondId}
    {other : TaskId}
    {partition : Partition}
    (queued : other ∈ (sched.scheduleFromThis config cond).runnable partition) :
    other ∈ sched.runnable partition ∨ other ∈ (sched.cond cond).blocked := by
  cases waits : (sched.cond cond).blocked with
  | nil =>
      rw [sched.scheduleFromThis_nil config waits] at queued
      exact .inl queued
  | cons head rest =>
      rw [sched.scheduleFromThis_cons config waits] at queued
      rcases runnable_push queued with before | rfl
      · exact .inl before
      · exact .inr List.mem_cons_self

/-- `_remove` queues a blocked task. -/
theorem runnable_remove
    {config : Config}
    {sched : Sched}
    {cond : CondId}
    {task other : TaskId}
    {partition : Partition}
    (queued : other ∈ (sched.remove config cond task).runnable partition) :
    other ∈ sched.runnable partition ∨ other ∈ (sched.cond cond).blocked := by
  simp only [Sched.remove] at queued
  split at queued
  · rcases runnable_scheduleFromThis queued with before | blocked
    · exact .inl (List.mem_of_mem_erase before)
    · exact .inr (List.mem_of_mem_erase blocked)
  · exact .inl (List.mem_of_mem_erase queued)

/-- A scheduler has the task to run it, or a worker that does not wait. -/
def InHand (task : TaskId) : Prop :=
  (∃ partition, task ∈ sched.runnable partition) ∨
    (∃ worker resuming, sched.executing worker = some ⟨task, resuming⟩) ∧
      (sched.task task).waitingCond = none

end Sched

namespace System

variable {config : Config} {start : SemId → UInt64} {sys after : System}

@[simp] theorem entered_runnable (sem : SemId) (task : TaskId) :
    (sys.entered sem task).runnable = sys.sched.runnable := by
  unfold entered
  split <;> rfl

@[simp] theorem entered_executing (sem : SemId) (task : TaskId) :
    (sys.entered sem task).executing = sys.sched.executing := by
  unfold entered
  split <;> rfl

@[simp] theorem entered_task (sem : SemId) (task : TaskId) :
    (sys.entered sem task).task = sys.sched.task := by
  unfold entered
  split <;> rfl

@[simp] theorem entered_spawning (sem : SemId) (task : TaskId) :
    (sys.entered sem task).spawning = sys.sched.spawning := by
  unfold entered
  split <;> rfl

@[simp] theorem entered_tid (sem : SemId) (task : TaskId) :
    (sys.entered sem task).tid = sys.sched.tid := by
  unfold entered
  split <;> rfl

@[simp] theorem entered_finished (sem : SemId) (task : TaskId) :
    (sys.entered sem task).finished = sys.sched.finished := by
  unfold entered
  split <;> rfl

@[simp] theorem entered_mtx (sem other : SemId) (task : TaskId) :
    ((sys.entered sem task).cond other).mtx = (sys.sched.cond other).mtx := by
  unfold entered
  split
  · by_cases same : other = sem
    · subst same
      simp [Sched.forget, Sched.setCond]
    · simp [Sched.forget, Sched.setCond, same]
  · rfl

@[simp] theorem entered_blocked (sem other : SemId) (task : TaskId) :
    ((sys.entered sem task).cond other).blocked = (sys.sched.cond other).blocked := by
  unfold entered
  split
  · by_cases same : other = sem
    · subst same
      simp [Sched.forget, Sched.setCond]
    · simp [Sched.forget, Sched.setCond, same]
  · rfl

/-- Entering is a step of the schedulers or none. -/
private theorem entered_reached
    {worker : Worker}
    {task : TaskId}
    (reached : sys.sched.Reached config)
    (runs : sys.sched.executing worker = some ⟨task, true⟩)
    (sem : SemId) :
    (sys.entered sem task).Reached config := by
  unfold entered
  split
  · refine reached.tail (?_ : sys.sched.step config (.forget worker sem) = _)
    simp [Sched.step, runs]
  · exact reached

/-- The schedulers under the semaphores are in a state that they can reach. -/
theorem sched_reached
    (reached : sys.Reached config start) :
    sys.sched.Reached config := by
  refine reached.invariant_of_reachable (fun sys => sys.sched.Reached config) .refl ?_
  intro before action after _ below stepped
  cases action with
  | sched label =>
      simp only [step] at stepped
      split at stepped
      · obtain ⟨sched, moved, rfl⟩ := Option.map_eq_some_iff.mp stepped
        exact below.tail moved
      · simp at stepped
  | aquire worker sem =>
      simp only [step] at stepped
      split at stepped
      · rename_i task runs
        have entered := entered_reached below runs sem
        split at stepped
        · split at stepped
          · obtain rfl := Option.some.inj stepped
            exact entered
          · obtain ⟨sched, paused, rfl⟩ := Option.map_eq_some_iff.mp stepped
            refine entered.tail (?_ : Sched.step config _ (.pause worker (.wait sem)) = _)
            simpa [Sched.step, runs] using paused
        · simp at stepped
      · simp at stepped
  | release sem holder =>
      simp only [step] at stepped
      split at stepped
      · rename_i enabled
        obtain rfl := Option.some.inj stepped
        refine below.tail (?_ : Sched.step config _ (.notify sem) = _)
        simp [Sched.step, enabled.2, release]
      · simp at stepped

/-- Under the semaphores the tasks are placed. -/
theorem placed_of_reached
    (reached : sys.Reached config start) :
    Placed config sys.sched :=
  Placed.of_reached (sched_reached reached)

end System

/-! ## Locks -/

/-- A semaphore and its condition are locked together, by the worker whose task
is about to be linked. -/
structure Locked (sys : System) : Prop where
  cond_mtx : ∀ sem, (sys.sched.cond sem).mtx = sys.mtx sem
  waits : ∀ worker task resuming sem,
    sys.sched.executing worker = some ⟨task, resuming⟩ →
      (sys.sched.task task).waitingCond = some sem → sys.mtx sem = some worker
  /-- A task that runs has neither yielded nor begun to wait. -/
  running : ∀ worker task, sys.sched.executing worker = some ⟨task, true⟩ →
    (sys.sched.task task).waitingCond = none ∧ (sys.sched.task task).yielded = false

namespace Locked

variable {config : Config} {start : SemId → UInt64} {sys after : System}

theorem initial : Locked (.initial start) where
  cond_mtx _ := rfl
  waits _ _ _ _ runs := by simp [System.initial, Sched.initial] at runs
  running _ _ runs := by simp [System.initial, Sched.initial] at runs

/-- The locks stay when every task in execution is new there or unchanged. -/
private theorem of_same
    (locked : Locked sys)
    (cond_mtx : ∀ sem, (after.sched.cond sem).mtx = (sys.sched.cond sem).mtx)
    (mtx : after.mtx = sys.mtx)
    (executing : ∀ worker task resuming,
      after.sched.executing worker = some ⟨task, resuming⟩ →
        ((after.sched.task task).waitingCond = none ∧
            (resuming = true → (after.sched.task task).yielded = false)) ∨
          sys.sched.executing worker = some ⟨task, resuming⟩ ∧
            (after.sched.task task).waitingCond = (sys.sched.task task).waitingCond ∧
            (after.sched.task task).yielded = (sys.sched.task task).yielded) :
    Locked after where
  cond_mtx sem := by rw [cond_mtx, mtx, locked.cond_mtx]
  waits worker task resuming sem runs waits := by
    rcases executing worker task resuming runs with ⟨idle, -⟩ | ⟨before, same, -⟩
    · simp [idle] at waits
    · rw [mtx]
      exact locked.waits worker task resuming sem before (same ▸ waits)
  running worker task runs := by
    rcases executing worker task true runs with ⟨idle, unyielded⟩ | ⟨before, wait, yielded⟩
    · exact ⟨idle, unyielded rfl⟩
    · rw [wait, yielded]
      exact locked.running worker task before

private theorem link
    {worker : Worker}
    {task : TaskId}
    {sem : SemId}
    (locked : Locked sys)
    (runs : sys.sched.executing worker = some ⟨task, false⟩)
    (waits : (sys.sched.task task).waitingCond = some sem) :
    Locked { sys with
      sched := (sys.sched.setExecuting worker none).suspendToThis sem task
      mtx := Function.update sys.mtx sem none } := by
  refine ⟨fun other => ?_, fun other linked resuming held others waitsFor => ?_,
    fun other linked others => ?_⟩
  · by_cases same : other = sem
    · subst same
      simp [Sched.suspendToThis, Sched.setCond]
    · simpa [Sched.suspendToThis, Sched.setCond, Sched.setExecuting, same] using
        locked.cond_mtx other
  · by_cases same : other = worker
    · subst same
      simp [Sched.suspendToThis, Sched.setCond, Sched.setExecuting] at others
    · have before : sys.sched.executing other = some ⟨linked, resuming⟩ := by
        simpa [Sched.suspendToThis, Sched.setCond, Sched.setExecuting, same] using others
      have holds := locked.waits other linked resuming held before waitsFor
      have apart : held ≠ sem := by
        rintro rfl
        rw [locked.waits worker task false held runs waits] at holds
        exact same (Option.some.inj holds).symm
      simpa [apart] using holds
  · by_cases same : other = worker
    · subst same
      simp [Sched.suspendToThis, Sched.setCond, Sched.setExecuting] at others
    · refine locked.running other linked ?_
      simpa [Sched.suspendToThis, Sched.setCond, Sched.setExecuting, same] using others

private theorem refuse
    {worker : Worker}
    {sem : SemId}
    {task : TaskId}
    (locked : Locked sys)
    (placed : Placed config sys.sched)
    (runs : sys.sched.executing worker = some ⟨task, true⟩)
    (unlocked : sys.mtx sem = none) :
    Locked { sys with
      sched := (((sys.entered sem task).setExecuting worker (some ⟨task, false⟩)).setTask task
        { (sys.entered sem task).task task with waitingCond := some sem }).setCond sem
          { (sys.entered sem task).cond sem with mtx := some worker }
      mtx := Function.update sys.mtx sem (some worker)
      inside := Function.update sys.inside task (some sem) } := by
  -- no other worker has the task
  have others : ∀ other held resuming, other ≠ worker →
      sys.sched.executing other = some ⟨held, resuming⟩ → held ≠ task := by
    rintro other held resuming apart runsOther rfl
    exact apart (placed.worker_unique runsOther runs)
  refine ⟨fun other => ?_, fun other held resuming sem' executes waitsFor => ?_,
    fun other held executes => ?_⟩
  · by_cases same : other = sem
    · subst same
      simp [Sched.setCond]
    · simpa [Sched.setCond, Sched.setTask, Sched.setExecuting, same] using
        locked.cond_mtx other
  · by_cases same : other = worker
    · subst same
      obtain ⟨rfl, -⟩ : task = held ∧ false = resuming := by
        simpa [Sched.setCond, Sched.setTask, Sched.setExecuting] using executes
      obtain rfl : sem = sem' := by
        simpa [Sched.setCond, Sched.setTask] using waitsFor
      simp
    · have before : sys.sched.executing other = some ⟨held, resuming⟩ := by
        simpa [Sched.setCond, Sched.setTask, Sched.setExecuting, same] using executes
      have apart := others other held resuming same before
      have holds := locked.waits other held resuming sem' before
        (by simpa [Sched.setCond, Sched.setTask, Sched.setExecuting, apart] using waitsFor)
      have different : sem' ≠ sem := by
        rintro rfl
        simp [unlocked] at holds
      simpa [different] using holds
  · by_cases same : other = worker
    · subst same
      simp [Sched.setCond, Sched.setTask, Sched.setExecuting] at executes
    · have before : sys.sched.executing other = some ⟨held, true⟩ := by
        simpa [Sched.setCond, Sched.setTask, Sched.setExecuting, same] using executes
      have apart := others other held true same before
      simpa [Sched.setCond, Sched.setTask, Sched.setExecuting, apart] using
        locked.running other held before

/-- Every change keeps the locks. -/
theorem change
    {action : Action}
    (locked : Locked sys)
    (placed : Placed config sys.sched)
    (changed : Change config sys action after) :
    Locked after := by
  cases changed with
  | create thread ctx free =>
      refine locked.of_same (fun _ => rfl) rfl fun worker task resuming runs => ?_
      by_cases same : task = ⟨ctx, sys.sched.tid ctx⟩
      · left
        subst same
        simp [Sched.create, Sched.setTask, Task.fresh]
      · right
        exact ⟨runs, by simp [Sched.create, Sched.setTask, same],
          by simp [Sched.create, Sched.setTask, same]⟩
  | push thread task holds =>
      exact locked.of_same (fun _ => rfl) rfl fun _ _ _ runs => .inr ⟨runs, rfl, rfl⟩
  | pop worker index task rest free queued =>
      refine locked.of_same (fun _ => rfl) rfl fun other held resuming runs => ?_
      by_cases same : held = task
      · left
        subst same
        simp [Sched.setExecuting, Sched.setTask]
      · right
        have apart : other ≠ worker := by
          rintro rfl
          simp [Sched.setExecuting, Ne.symm same] at runs
        refine ⟨?_, ?_, ?_⟩
        · simpa [Sched.setExecuting, Sched.setTask, Sched.setRunnable, apart] using runs
        · simp [Sched.setExecuting, Sched.setTask, Sched.setRunnable, same]
        · simp [Sched.setExecuting, Sched.setTask, Sched.setRunnable, same]
  | resume worker task runs resumes =>
      refine locked.of_same (fun _ => rfl) rfl fun other held resuming executes => ?_
      by_cases same : other = worker
      · subst same
        obtain ⟨rfl, -⟩ : task = held ∧ true = resuming := by
          simpa [Sched.setExecuting] using executes
        simp only [Sched.canResume, Bool.and_eq_true, Bool.not_eq_true',
          Option.isNone_iff_eq_none] at resumes
        exact .inl ⟨resumes.1.2, fun _ => resumes.1.1⟩
      · exact .inr ⟨by simpa [Sched.setExecuting, same] using executes, rfl, rfl⟩
  | pause worker outcome task value runs free waits =>
      refine locked.of_same (fun _ => rfl) rfl fun other held resuming executes => ?_
      by_cases same : other = worker
      · subst same
        obtain ⟨rfl, rfl⟩ : task = held ∧ false = resuming := by
          simpa [Sched.setTask, Sched.setExecuting] using executes
        left
        simpa [Sched.setTask, waits] using (locked.running other task runs).1
      · have before : sys.sched.executing other = some ⟨held, resuming⟩ := by
          simpa [Sched.setTask, Sched.setExecuting, same] using executes
        have apart : held ≠ task := by
          rintro rfl
          exact same (placed.worker_unique before runs)
        exact .inr ⟨before, by simp [Sched.setTask, Sched.setExecuting, apart],
          by simp [Sched.setTask, Sched.setExecuting, apart]⟩
  | finish worker task runs done =>
      refine locked.of_same (fun _ => rfl) rfl fun other held resuming executes => ?_
      by_cases same : other = worker
      · subst same
        simp [Sched.destroy, Sched.setExecuting] at executes
      · exact .inr ⟨by simpa [Sched.destroy, Sched.setExecuting, same] using executes, rfl, rfl⟩
  | requeue worker task runs yielded =>
      refine locked.of_same (fun _ => rfl) rfl fun other held resuming executes => ?_
      by_cases same : other = worker
      · subst same
        simp [Sched.push, Sched.setRunnable, Sched.setExecuting] at executes
      · refine .inr ⟨?_, rfl, rfl⟩
        simpa [Sched.push, Sched.setRunnable, Sched.setExecuting, same] using executes
  | link worker task sem runs waits => exact locked.link runs waits
  | shutdown label finished exited sweep grows =>
      exact locked.of_same (fun _ => rfl) rfl fun _ _ _ runs => .inr ⟨runs, rfl, rfl⟩
  | remove worker task rest sem finished sweeps waits =>
      refine locked.of_same (fun other => by simp [Sched.setTask]) rfl
        fun other held resuming executes => .inr ⟨by simpa [Sched.setTask] using executes, ?_⟩
      by_cases same : held = task
      · subst same
        simp [Sched.setTask]
      · simp [Sched.setTask, same]
  | take worker sem task runs unlocked entering free =>
      refine locked.of_same (fun other => by simp [System.take]) rfl fun _ _ _ executes => ?_
      exact .inr ⟨by simpa [System.take] using executes, by simp [System.take],
        by simp [System.take]⟩
  | refuse worker sem task runs unlocked entering gone free =>
      exact locked.refuse placed runs unlocked
  | release sem holder unlocked free =>
      refine locked.of_same (fun other => by simp [System.release]) rfl fun _ _ _ executes => ?_
      exact .inr ⟨by simpa [System.release] using executes, by simp [System.release],
        by simp [System.release]⟩

theorem of_reached
    (reached : sys.Reached config start) :
    Locked sys :=
  reached.invariant_of_reachable _ .initial fun _ _ _ before locked stepped =>
    locked.change (System.placed_of_reached before) (.of_step stepped)

end Locked

/-! ## Who is inside -/

/-- Which tasks wait inside `aquire`. -/
structure Inside (sys : System) : Prop where
  waiting : ∀ task sem, (sys.sched.task task).waitingCond = some sem →
    sys.inside task = some sem
  idle : ∀ task, (sys.sched.task task).yielded = true ∨ (sys.sched.task task).done = true →
    sys.inside task = none
  created : ∀ task, sys.inside task ≠ none → task.id < sys.sched.tid task.ctx
  spawner : ∀ thread task, sys.sched.spawning thread = some task → sys.inside task = none
  /-- A queued task waits for the semaphore that it is inside, if any. -/
  runnable : ∀ partition, ∀ task ∈ sys.sched.runnable partition,
    (sys.sched.task task).waitingCond = sys.inside task

namespace Inside

variable {config : Config} {start : SemId → UInt64} {sys after : System}

theorem initial : Inside (.initial start) where
  waiting := by simp [System.initial, Sched.initial, Task.fresh]
  idle := by simp [System.initial]
  created := by simp [System.initial]
  spawner := by simp [System.initial]
  runnable := by simp [System.initial, Sched.initial]

/-- A blocked task is inside `aquire` of the semaphore that blocks it. -/
theorem of_blocked
    (insides : Inside sys)
    (placed : Placed config sys.sched)
    {sem : SemId}
    {task : TaskId}
    (blocked : task ∈ (sys.sched.cond sem).blocked) :
    sys.inside task = some sem := by
  obtain ⟨there, tidy, -⟩ := placed.tidy
  exact insides.waiting task sem (tidy.blocked_cond sem task blocked)

/-- A step that lets nobody in or out. -/
private theorem of_same
    (insides : Inside sys)
    (inside : after.inside = sys.inside)
    (task : ∀ task, after.sched.task task = sys.sched.task task ∨
      (∀ sem, (after.sched.task task).waitingCond = some sem → sys.inside task = some sem) ∧
        ((after.sched.task task).yielded = true ∨ (after.sched.task task).done = true →
          sys.inside task = none))
    (tid : ∀ ctx, sys.sched.tid ctx ≤ after.sched.tid ctx)
    (spawner : ∀ thread task, after.sched.spawning thread = some task → sys.inside task = none)
    (runnable : ∀ partition, ∀ task ∈ after.sched.runnable partition,
      (after.sched.task task).waitingCond = sys.inside task) :
    Inside after where
  waiting other sem waits := by
    rw [inside]
    rcases task other with same | ⟨waiting, -⟩
    · exact insides.waiting other sem (same ▸ waits)
    · exact waiting sem waits
  idle other stopped := by
    rw [inside]
    rcases task other with same | ⟨-, idle⟩
    · exact insides.idle other (same ▸ stopped)
    · exact idle stopped
  created other within := by
    rw [inside] at within
    exact (insides.created other within).trans_le (tid other.ctx)
  spawner thread other spawns := by
    rw [inside]
    exact spawner thread other spawns
  runnable partition other queued := by
    rw [inside]
    exact runnable partition other queued

private theorem refuse
    {worker : Worker}
    {sem : SemId}
    {task : TaskId}
    (insides : Inside sys)
    (locked : Locked sys)
    (placed : Placed config sys.sched)
    (runs : sys.sched.executing worker = some ⟨task, true⟩) :
    Inside { sys with
      sched := (((sys.entered sem task).setExecuting worker (some ⟨task, false⟩)).setTask task
        { (sys.entered sem task).task task with waitingCond := some sem }).setCond sem
          { (sys.entered sem task).cond sem with mtx := some worker }
      mtx := Function.update sys.mtx sem (some worker)
      inside := Function.update sys.inside task (some sem) } := by
  obtain ⟨there, tidy, alive⟩ := placed.tidy
  have atWorker : sys.sched.At task (.worker worker) := ⟨_, runs⟩
  refine ⟨fun other cond waits => ?_, fun other stopped => ?_, fun other within => ?_,
    fun thread other spawns => ?_, fun partition other queued => ?_⟩
  · by_cases same : other = task
    · subst same
      obtain rfl : sem = cond := by simpa [Sched.setCond, Sched.setTask] using waits
      simp
    · simpa [same] using insides.waiting other cond
        (by simpa [Sched.setCond, Sched.setTask, Sched.setExecuting, same] using waits)
  · by_cases same : other = task
    · subst same
      have unyielded := (locked.running worker other runs).2
      have unfinished := tidy.resuming worker other runs
      simp [Sched.setCond, Sched.setTask, unyielded, unfinished] at stopped
    · simpa [same] using insides.idle other
        (by simpa [Sched.setCond, Sched.setTask, Sched.setExecuting, same] using stopped)
  · have known : other.id < sys.sched.tid other.ctx := by
      by_cases same : other = task
      · subst same
        have somewhere : there other ≠ none := by
          rw [(tidy.placement.at_iff other _).mp atWorker]
          simp
        exact (placed.pool_home _ other ((alive other).mp somewhere).1).2
      · exact insides.created other (by simpa [same] using within)
    simpa [Sched.setCond, Sched.setTask, Sched.setExecuting] using known
  · have before : sys.sched.spawning thread = some other := by
      simpa [Sched.setCond, Sched.setTask, Sched.setExecuting] using spawns
    have apart : other ≠ task := by
      rintro rfl
      have atSpawner : sys.sched.At other (.spawner thread) := before
      simpa using placed.unique atSpawner atWorker
    simpa [apart] using insides.spawner thread other before
  · have before : other ∈ sys.sched.runnable partition := by
      simpa [Sched.setCond, Sched.setTask, Sched.setExecuting] using queued
    have apart : other ≠ task := by
      rintro rfl
      exact placed.not_runnable_of_executing runs partition before
    simpa [Sched.setCond, Sched.setTask, Sched.setExecuting, apart] using
      insides.runnable partition other before

/-- A queued or blocked task waits for what it is inside. -/
private theorem waiting_eq
    (insides : Inside sys)
    (placed : Placed config sys.sched)
    {task : TaskId}
    {partition : Partition}
    {sem : SemId}
    (held : task ∈ sys.sched.runnable partition ∨ task ∈ (sys.sched.cond sem).blocked) :
    (sys.sched.task task).waitingCond = sys.inside task := by
  rcases held with queued | blocked
  · exact insides.runnable partition task queued
  · obtain ⟨there, tidy, -⟩ := placed.tidy
    rw [insides.of_blocked placed blocked]
    exact tidy.blocked_cond sem task blocked

/-- Every change keeps who is inside. -/
theorem change
    {action : Action}
    (insides : Inside sys)
    (locked : Locked sys)
    (placed : Placed config sys.sched)
    (placedAfter : Placed config after.sched)
    (changed : Change config sys action after) :
    Inside after := by
  obtain ⟨there, tidy, alive⟩ := placed.tidy
  cases changed with
  | create thread ctx free =>
      have outside : sys.inside ⟨ctx, sys.sched.tid ctx⟩ = none := by
        by_contra within
        have known := insides.created _ within
        simp at known
      refine insides.of_same rfl (fun other => ?_) (fun other => ?_)
        (fun target other spawns => ?_) fun partition other queued => ?_
      · by_cases same : other = ⟨ctx, sys.sched.tid ctx⟩
        · right
          subst same
          simp [Sched.create, Sched.setTask, Task.fresh]
        · exact .inl (by simp [Sched.create, Sched.setTask, same])
      · by_cases same : other = ctx
        · subst same
          simp [Sched.create]
        · simp [Sched.create, same]
      · by_cases same : target = thread
        · subst same
          obtain rfl : (⟨ctx, sys.sched.tid ctx⟩ : TaskId) = other := by
            simpa [Sched.create] using spawns
          exact outside
        · exact insides.spawner target other (by simpa [Sched.create, same] using spawns)
      · by_cases same : other = ⟨ctx, sys.sched.tid ctx⟩
        · subst same
          simpa [Sched.create, Sched.setTask, Task.fresh] using outside.symm
        · simpa [Sched.create, Sched.setTask, same] using
            insides.runnable partition other queued
  | push thread task holds =>
      refine insides.of_same rfl (fun _ => .inl rfl) (fun _ => le_rfl)
        (fun target other spawns => ?_) fun partition other queued => ?_
      · by_cases same : target = thread
        · subst same
          simp [Sched.push, Sched.setRunnable] at spawns
        · refine insides.spawner target other ?_
          simpa [Sched.push, Sched.setRunnable, same] using spawns
      · rcases Sched.runnable_push queued with before | rfl
        · exact insides.runnable partition other before
        · rw [insides.spawner thread other holds]
          exact tidy.spawning_fresh thread other holds
  | pop worker index task rest free queued =>
      refine insides.of_same rfl (fun other => ?_) (fun _ => le_rfl) insides.spawner
        fun partition other popped => ?_
      · by_cases same : other = task
        · right
          subst same
          simpa [Sched.setExecuting, Sched.setTask] using
            fun done => insides.idle other (.inr done)
        · exact .inl (by simp [Sched.setExecuting, Sched.setTask, Sched.setRunnable, same])
      · have apart : other ≠ task := by
          rintro rfl
          exact @Placed.not_runnable_of_executing _ _ placedAfter worker other false
            (by simp [Sched.setExecuting]) partition popped
        have before : other ∈ sys.sched.runnable partition := by
          by_cases same : partition = ⟨worker.ctx, index⟩
          · subst same
            rw [queued]
            refine List.mem_cons_of_mem _ ?_
            simpa [Sched.setExecuting, Sched.setTask, Sched.setRunnable] using popped
          · simpa [Sched.setExecuting, Sched.setTask, Sched.setRunnable, same] using popped
        simpa [Sched.setExecuting, Sched.setTask, Sched.setRunnable, apart] using
          insides.runnable partition other before
  | resume worker task runs resumes =>
      exact insides.of_same rfl (fun _ => .inl rfl) (fun _ => le_rfl) insides.spawner
        insides.runnable
  | pause worker outcome task value runs free waits =>
      refine insides.of_same rfl (fun other => ?_) (fun _ => le_rfl) insides.spawner
        fun partition other queued => ?_
      · by_cases same : other = task
        · right
          subst same
          simp [Sched.setTask, free, waits, (locked.running worker other runs).1]
        · exact .inl (by simp [Sched.setTask, Sched.setExecuting, same])
      · have apart : other ≠ task := by
          rintro rfl
          exact placed.not_runnable_of_executing runs partition queued
        simpa [Sched.setTask, Sched.setExecuting, apart] using
          insides.runnable partition other queued
  | finish worker task runs done =>
      exact insides.of_same rfl (fun _ => .inl rfl) (fun _ => le_rfl) insides.spawner
        insides.runnable
  | requeue worker task runs yielded =>
      refine insides.of_same rfl (fun _ => .inl rfl) (fun _ => le_rfl) insides.spawner
        fun partition other queued => ?_
      rcases Sched.runnable_push queued with before | rfl
      · exact insides.runnable partition other before
      · have outside := insides.idle other (.inl yielded)
        rw [outside]
        by_contra waits
        obtain ⟨sem, waits⟩ := Option.ne_none_iff_exists'.mp waits
        simp [insides.waiting other sem waits] at outside
  | link worker task sem runs waits =>
      exact insides.of_same rfl (fun _ => .inl rfl) (fun _ => le_rfl) insides.spawner
        insides.runnable
  | shutdown label finished exited sweep grows =>
      exact insides.of_same rfl (fun _ => .inl rfl) (fun _ => le_rfl) insides.spawner
        insides.runnable
  | remove worker task rest sem finished sweeps waits =>
      have kept : ∀ other, ((Function.update sys.sched.task task
          { sys.sched.task task with destroyed := true }) other).waitingCond =
            (sys.sched.task other).waitingCond := by
        intro other
        by_cases same : other = task
        · subst same
          simp
        · simp [same]
      refine insides.of_same rfl (fun other => ?_) (fun _ => by simp [Sched.setTask])
        (fun target other spawns => ?_) fun partition other queued => ?_
      · by_cases same : other = task
        · right
          subst same
          simpa [Sched.setTask] using ⟨insides.waiting other, insides.idle other⟩
        · exact .inl (by simp [Sched.setTask, same])
      · exact insides.spawner target other (by simpa [Sched.setTask] using spawns)
      · have held := Sched.runnable_remove (by simpa [Sched.setTask] using queued)
        simpa [Sched.setTask, kept] using insides.waiting_eq placed held
  | take worker sem task runs unlocked entering free =>
      refine ⟨fun other cond waits => ?_, fun other stopped => ?_, fun other within => ?_,
        fun target other spawns => ?_, fun partition other queued => ?_⟩
      · have before : (sys.sched.task other).waitingCond = some cond := by
          simpa [System.take] using waits
        have apart : other ≠ task := by
          rintro rfl
          simp [(locked.running worker other runs).1] at before
        simpa [System.take, apart] using insides.waiting other cond before
      · by_cases same : other = task
        · simp [System.take, same]
        · simpa [System.take, same] using
            insides.idle other (by simpa [System.take] using stopped)
      · have before : sys.inside other ≠ none := by
          by_cases same : other = task
          · simp [System.take, same] at within
          · simpa [System.take, same] using within
        simpa [System.take] using insides.created other before
      · by_cases same : other = task
        · simp [System.take, same]
        · simpa [System.take, same] using
            insides.spawner target other (by simpa [System.take] using spawns)
      · have before : other ∈ sys.sched.runnable partition := by
          simpa [System.take] using queued
        have apart : other ≠ task := by
          rintro rfl
          exact placed.not_runnable_of_executing runs partition before
        simpa [System.take, apart] using insides.runnable partition other before
  | refuse worker sem task runs unlocked entering gone free =>
      exact insides.refuse locked placed runs
  | release sem holder unlocked free =>
      refine insides.of_same rfl (fun other => .inl (by simp [System.release]))
        (fun _ => by simp [System.release]) (fun target other spawns => ?_)
        fun partition other queued => ?_
      · exact insides.spawner target other (by simpa [System.release] using spawns)
      · have held := Sched.runnable_scheduleFromThis queued
        simpa [System.release] using insides.waiting_eq placed held

theorem of_reached
    (reached : sys.Reached config start) :
    Inside sys := by
  refine reached.invariant_of_reachable (fun sys => Inside sys) .initial ?_
  intro before action after reachedBefore insides stepped
  exact insides.change (.of_reached reachedBefore) (System.placed_of_reached reachedBefore)
    (System.placed_of_reached (reachedBefore.tail stepped)) (.of_step stepped)

end Inside

end Schedule
end Cgo
