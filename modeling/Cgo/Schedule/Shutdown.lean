import Cgo.Schedule.Counting

/-!
# Shutting down some of the contexts

`final_schedule` removes every waiting task of its context.  A removal that
wakes nobody although the removed task had been notified can leave a unit
vacant, a waiter of another context blocked and nobody on the way; a run without
such a removal keeps the promise of every semaphore to the contexts that go on.
-/

namespace Cgo
namespace Schedule

/-! ## What `final_schedule` has done -/

/-- A partition that is being swept has lost its workers, and the tasks that
still wait are to be visited. -/
structure Swept (config : Config) (sched : Sched) : Prop where
  exited : ∀ worker tasks, sched.sweep worker = some tasks →
    sched.AllExited config worker.ctx
  visits : ∀ worker tasks, sched.sweep worker = some tasks →
    ∀ task ∈ sched.pool worker, (sched.task task).waitingCond ≠ none →
      (sched.task task).destroyed = true ∨ task ∈ tasks

namespace Swept

variable {config : Config} {sched after : Sched}

theorem initial : Swept config .initial where
  exited := by simp [Sched.initial]
  visits := by simp [Sched.initial]

/-- A step in which no task begins to wait. -/
private theorem of_same
    (swept : Swept config sched)
    (sweep : after.sweep = sched.sweep)
    (exited : ∀ worker, sched.exited worker = true → after.exited worker = true)
    (pool : ∀ worker tasks, sched.sweep worker = some tasks → ∀ task ∈ after.pool worker,
      (after.task task).waitingCond = none ∨ task ∈ sched.pool worker ∧
        (after.task task).waitingCond = (sched.task task).waitingCond ∧
        (after.task task).destroyed = (sched.task task).destroyed) :
    Swept config after where
  exited worker tasks sweeps index inRange := by
    rw [sweep] at sweeps
    exact exited _ (swept.exited worker tasks sweeps index inRange)
  visits worker tasks sweeps task member waits := by
    rw [sweep] at sweeps
    rcases pool worker tasks sweeps task member with idle | ⟨before, same, kept⟩
    · exact absurd idle waits
    · rw [kept]
      exact swept.visits worker tasks sweeps task before (same ▸ waits)

/-- In a partition that is being swept no task runs. -/
theorem not_executing
    (swept : Swept config sched)
    (placed : Placed config sched)
    {target : Worker}
    {tasks : List TaskId}
    (sweeps : sched.sweep target = some tasks)
    {task : TaskId}
    (own : task.ctx = target.ctx)
    (worker : Worker)
    (resuming : Bool) :
    sched.executing worker ≠ some ⟨task, resuming⟩ := by
  intro runs
  obtain ⟨there, tidy, -⟩ := placed.tidy
  obtain ⟨inRange, ctx⟩ := tidy.executing_ctx worker _ runs
  have sameCtx : worker.ctx = target.ctx := ctx.symm.trans own
  have left := swept.exited target tasks sweeps worker.index (sameCtx ▸ inRange)
  rw [← sameCtx] at left
  rw [tidy.exited worker left] at runs
  simp at runs

/-- The sweep of one partition goes on. -/
private theorem sweep_update
    {worker : Worker}
    {tasks : List TaskId}
    {pending : List TaskId}
    (swept : Swept config sched)
    (allExited : sched.AllExited config worker.ctx)
    (sweep : after.sweep = Function.update sched.sweep worker (some tasks))
    (exited : after.exited = sched.exited)
    (pool : after.pool = sched.pool)
    (fields : ∀ task, (after.task task).waitingCond = (sched.task task).waitingCond ∧
      ((sched.task task).destroyed = true → (after.task task).destroyed = true))
    (before : ∀ task ∈ sched.pool worker, (sched.task task).waitingCond ≠ none →
      (sched.task task).destroyed = true ∨ task ∈ pending)
    (visited : ∀ task ∈ pending, (sched.task task).waitingCond ≠ none →
      (after.task task).destroyed = true ∨ task ∈ tasks) :
    Swept config after where
  exited other sweeping sweeps index inRange := by
    rw [exited]
    rw [sweep] at sweeps
    by_cases same : other = worker
    · subst same
      exact allExited index inRange
    · exact swept.exited other sweeping (by simpa [same] using sweeps) index inRange
  visits other sweeping sweeps task member waits := by
    rw [sweep] at sweeps
    rw [pool] at member
    rw [(fields task).1] at waits
    by_cases same : other = worker
    · subst same
      obtain rfl : tasks = sweeping := by simpa using sweeps
      rcases before task member waits with destroyed | pends
      · exact .inl ((fields task).2 destroyed)
      · exact visited task pends waits
    · exact (swept.visits other sweeping (by simpa [same] using sweeps) task member waits).imp_left
        (fields task).2

/-- A step in which the fields of one task change that runs. -/
private theorem of_running
    (swept : Swept config sched)
    (placed : Placed config sched)
    {worker : Worker}
    {task : TaskId}
    (runs : sched.executing worker = some ⟨task, true⟩)
    (value : Task)
    (sweep : after.sweep = sched.sweep)
    (exited : after.exited = sched.exited)
    (pool : after.pool = sched.pool)
    (tasks : after.task = Function.update sched.task task value) :
    Swept config after := by
  refine swept.of_same sweep (fun _ left => by rwa [exited]) ?_
  intro target visits sweeps other member
  rw [pool] at member
  -- the task that a worker has is in no partition that is being swept
  have different : other ≠ task := by
    rintro rfl
    have home := (placed.pool_home target other member).1
    refine swept.not_executing placed sweeps ?_ worker true runs
    exact (congrArg Partition.ctx home).symm
  exact .inr ⟨member, by simp [tasks, different], by simp [tasks, different]⟩

/-- Every step keeps what the sweeps have done. -/
theorem step
    {label : Label}
    (swept : Swept config sched)
    (placed : Placed config sched)
    (stepped : sched.step config label = some after) :
    Swept config after := by
  have unchanged : ∀ (target : Worker) (tasks : List TaskId), sched.sweep target = some tasks →
      ∀ task ∈ sched.pool target, (sched.task task).waitingCond = none ∨
        task ∈ sched.pool target ∧
          (sched.task task).waitingCond = (sched.task task).waitingCond ∧
          (sched.task task).destroyed = (sched.task task).destroyed :=
    fun _ _ _ _ member => .inr ⟨member, rfl, rfl⟩
  cases Sched.move_of_step stepped with
  | @create thread ctx =>
      refine swept.of_same rfl (fun _ => id) fun target tasks sweeps task member => ?_
      rcases eq_or_ne task ⟨ctx, sched.tid ctx⟩ with rfl | apart
      · left
        simp [Sched.create, Sched.setTask, Task.fresh]
      · right
        refine ⟨?_, by simp [Sched.create, Sched.setTask, apart],
          by simp [Sched.create, Sched.setTask, apart]⟩
        rcases eq_or_ne target (config.home ⟨ctx, sched.tid ctx⟩) with rfl | elsewhere
        · simpa [Sched.create, apart] using member
        · simpa [Sched.create, elsewhere] using member
  | push => exact swept.of_same rfl (fun _ => id) unchanged
  | @pop worker index task rest =>
      refine swept.of_same rfl (fun _ => id) fun target tasks sweeps other member => ?_
      rcases eq_or_ne other task with rfl | apart
      · left
        simp [Sched.setExecuting, Sched.setTask]
      · right
        refine ⟨member, ?_, ?_⟩
        · simp [Sched.setExecuting, Sched.setTask, Sched.setRunnable, apart]
        · simp [Sched.setExecuting, Sched.setTask, Sched.setRunnable, apart]
  | resume => exact swept.of_same rfl (fun _ => id) unchanged
  | suspend => exact swept.of_same rfl (fun _ => id) unchanged
  | yield runs => exact swept.of_running placed runs _ rfl rfl rfl rfl
  | finish runs => exact swept.of_running placed runs _ rfl rfl rfl rfl
  | wait runs => exact swept.of_running placed runs _ rfl rfl rfl rfl
  | @settle worker task =>
      refine swept.of_same (by simp) (fun _ left => by simpa using left)
        fun target tasks sweeps other member => .inr ⟨?_, by simp, by simp⟩
      rw [Sched.giveAway_pool] at member
      split at member
      · rcases eq_or_ne target (config.home task) with rfl | elsewhere
        · exact List.mem_of_mem_erase (by simpa using member)
        · simpa [elsewhere] using member
      · exact member
  | notify =>
      refine swept.of_same (by simp) (fun _ left => by simpa using left)
        fun target tasks sweeps other member => .inr ⟨?_, by simp, by simp⟩
      simpa using member
  | forget => exact swept.of_same rfl (fun _ => id) unchanged
  | shutdown => exact swept.of_same rfl (fun _ => id) unchanged
  | @exit worker =>
      refine swept.of_same rfl (fun other left => ?_) unchanged
      rcases eq_or_ne other worker with rfl | apart
      · simp
      · simpa [apart] using left
  | sweepStart _ allExited =>
      exact swept.sweep_update allExited rfl rfl rfl (fun _ => ⟨rfl, id⟩)
        (fun _ member _ => .inr member) fun _ member _ => .inr member
  | sweepSkip _ allExited sweeps idle =>
      refine swept.sweep_update allExited rfl rfl rfl (fun _ => ⟨rfl, id⟩)
        (swept.visits _ _ sweeps)
        fun other member waits => .inr ((List.mem_cons.mp member).resolve_left ?_)
      rintro rfl
      exact waits idle
  | @sweepRemove worker task rest cond _ allExited sweeps waits =>
      refine swept.sweep_update allExited
        (by simp [Sched.setTask] : _ = Function.update sched.sweep worker (some rest))
        (by simp [Sched.setTask]) (by simp [Sched.setTask]) (fun other => ?_)
        (swept.visits worker _ sweeps) fun other member _ => ?_
      · rcases eq_or_ne other task with rfl | apart
        · simp [Sched.setTask]
        · simp [Sched.setTask, apart]
      · rcases List.mem_cons.mp member with rfl | later
        · exact .inl (by simp [Sched.setTask])
        · exact .inr later

theorem of_reached
    (reached : sched.Reached config) :
    Swept config sched :=
  reached.invariant_of_reachable _ .initial fun _ _ _ before swept stepped =>
    swept.step (.of_reached before) stepped

end Swept

/-! ## The promise to the contexts that go on -/

namespace Sched

/-- Every context that is shut down has run `final_schedule` to its end. -/
def ShutdownsComplete (config : Config) (sched : Sched) : Prop :=
  ∀ ctx, sched.finished ctx = true → ∀ index, index < config.partitions ctx →
    sched.sweep ⟨ctx, index⟩ = some []

end Sched

namespace System

variable {config : Config} {start : SemId → UInt64} {sys after : System}

/-- The step removes a task that was notified and wakes nobody, although a
waiter of a context that goes on stays blocked and every task on the way is
needed for the vacant units. -/
def strands (sys : System) (action : Action) : Bool :=
  match sys.removed action with
  | some (task, sem) =>
      decide (sys.Silent sem task ∧ task ∈ (sys.sched.cond sem).notified ∧
        (∃ waiter ∈ (sys.sched.cond sem).blocked, sys.sched.finished waiter.ctx = false) ∧
        (sys.sched.cond sem).notified.length ≤ sys.vacant sem)
  | none => false

/-- The promise of a semaphore to the waiters of the contexts that go on. -/
def Promised (sem : SemId) (sys : System) : Prop :=
  (sys.permits sem).Covered fun waiter => sys.sched.finished waiter.ctx = false

/-- A step that strands nobody keeps the promise. -/
theorem Promised.change
    {action : Action}
    {sem : SemId}
    (promised : Promised sem sys)
    (reached : sys.Reached config start)
    (changed : Change config sys action after)
    (spared : sys.strands action = false) :
    Promised sem after := by
  have fewer : ∀ waiter : TaskId, after.sched.finished waiter.ctx = false →
      sys.sched.finished waiter.ctx = false := by
    intro waiter running
    by_contra finished
    have finishedAfter := finished_of_change changed (by simpa using finished)
    simp [running] at finishedAfter
  rcases permits_of_change (.of_reached reached) (.of_reached reached) (.of_reached reached)
    (placed_of_reached reached) changed sem with same | moved | ⟨task, removes, silent, -, gone⟩
  · rw [Promised, same]
    exact promised.weaken fewer
  · exact (promised.move (balanced_of_reached reached sem) moved).weaken fewer
  · rw [Promised, gone]
    refine (promised.discard task fun stranded => ?_).weaken fewer
    simp only [strands, removes, decide_eq_false_iff_not] at spared
    exact spared ⟨silent, stranded⟩

/-- A run that strands nobody keeps the promise. -/
theorem promised_of_path
    {transitions : List (Lib.Transition System Action)}
    (path : Lib.Path (step config) (initial start) transitions sys)
    (spared : ∀ transition ∈ transitions,
      transition.before.strands transition.label = false)
    (sem : SemId) :
    Promised sem sys := by
  refine path.guarded_invariant spared ?_ ?_
  · rintro ⟨waiter, blocked, -⟩
    simp [permits, initial, Sched.initial] at blocked
  · intro before action after reached promised spared stepped
    exact promised.change reached (.of_step stepped) spared

/-- After the shutdowns a task on the way belongs to a context that goes on. -/
theorem running_of_onTheWay
    (reached : sys.Reached config start)
    (complete : sys.sched.ShutdownsComplete config)
    {sem : SemId}
    {task : TaskId}
    (onTheWay : sys.OnTheWay sem task) :
    sys.sched.finished task.ctx = false := by
  have placed := placed_of_reached reached
  have swept := Swept.of_reached (sched_reached reached)
  by_contra finished
  have inRange : task.id % config.partitions task.ctx < config.partitions task.ctx :=
    Nat.mod_lt _ (config.partitions_pos task.ctx)
  have sweeps : sys.sched.sweep (config.home task) = some [] :=
    complete task.ctx (by simpa using finished) _ inRange
  obtain ⟨within, ⟨partition, queued⟩ | ⟨⟨worker, resuming, runs⟩, -⟩⟩ := onTheWay
  · have waits : (sys.sched.task task).waitingCond ≠ none := by
      rw [(Inside.of_reached reached).runnable partition task queued, within]
      simp
    obtain ⟨there, tidy, alive⟩ := placed.tidy
    have somewhere : there task ≠ none := by
      rw [(tidy.placement.at_iff task (.runnable partition)).mp queued]
      simp
    obtain ⟨member, intact⟩ := (alive task).mp somewhere
    rcases swept.visits _ [] sweeps task member waits with destroyed | pending
    · simp [intact] at destroyed
    · simp at pending
  · exact swept.not_executing placed sweeps rfl worker resuming runs

end System

/-- In a run that strands nobody, once the shutdowns are complete, a vacant unit
and a blocked waiter of a context that goes on mean that such a waiter is on the
way. -/
theorem shutdown_keeps_wakeups
    (config : Config)
    (start : SemId → UInt64)
    {transitions : List (Lib.Transition System Action)}
    {sys : System}
    (path : Lib.Path (System.step config) (.initial start) transitions sys)
    (spared : ∀ transition ∈ transitions,
      transition.before.strands transition.label = false)
    (complete : sys.sched.ShutdownsComplete config)
    (sem : SemId)
    (vacant : 0 < sys.vacant sem)
    (blocked : ∃ waiter ∈ (sys.sched.cond sem).blocked,
      sys.sched.finished waiter.ctx = false) :
    ∃ task, sys.OnTheWay sem task ∧ sys.sched.finished task.ctx = false := by
  have reached : sys.Reached config start := ⟨transitions, path⟩
  have covered : sys.vacant sem ≤ (sys.sched.cond sem).notified.length :=
    System.promised_of_path path spared sem blocked
  obtain ⟨task, member⟩ := List.exists_mem_of_length_pos (vacant.trans_le covered)
  have onTheWay := ((Notified.of_reached reached).mem_iff_onTheWay sem task).mp member
  exact ⟨task, onTheWay, System.running_of_onTheWay reached complete onTheWay⟩

/-- A task of context 1 and two of context 2 block on a semaphore. -/
private def threeBlocked : List Action :=
  [.sched (.create 0 1), .sched (.push 0), .sched (.create 0 2), .sched (.push 0),
    .sched (.create 0 2), .sched (.push 0),
    .sched (.pop ⟨1, 0⟩ 0), .sched (.resume ⟨1, 0⟩), .aquire ⟨1, 0⟩ 5, .sched (.settle ⟨1, 0⟩),
    .sched (.pop ⟨2, 0⟩ 0), .sched (.resume ⟨2, 0⟩), .aquire ⟨2, 0⟩ 5, .sched (.settle ⟨2, 0⟩),
    .sched (.pop ⟨2, 0⟩ 0), .sched (.resume ⟨2, 0⟩), .aquire ⟨2, 0⟩ 5, .sched (.settle ⟨2, 0⟩)]

/-- Context 1 shuts down. -/
private def shutdownFirst : List Action :=
  [.sched (.shutdown 1), .sched (.exit ⟨1, 0⟩), .sched (.sweep ⟨1, 0⟩), .sched (.sweep ⟨1, 0⟩)]

/-- The task of context 1 is notified and removed before it runs. -/
private def handingOver : List Action :=
  threeBlocked ++ [.release 5 none] ++ shutdownFirst

private def handedOver : System :=
  Lib.runFrom (System.step oneWorker) (.initial fun _ => 0) handingOver

/-- Only context 1 is shut down, and it has been swept. -/
private theorem complete_of_first
    {sys : System}
    (finished : sys.sched.finished = Function.update (fun _ => false) 1 true)
    (swept : sys.sched.sweep ⟨1, 0⟩ = some []) :
    sys.sched.ShutdownsComplete oneWorker := by
  intro ctx down index inRange
  by_cases same : ctx = 1
  · subst same
    obtain rfl : index = 0 := Nat.lt_one_iff.mp inRange
    exact swept
  · rw [finished] at down
    simp [same] at down

theorem shutdown_keeps_wakeups_sample :
    ∃ task, handedOver.OnTheWay 5 task ∧ handedOver.sched.finished task.ctx = false := by
  refine shutdown_keeps_wakeups oneWorker (fun _ => 0)
    (Lib.path_runFrom (?_ : (Lib.run _ _ handingOver).isSome)) ?_
    (complete_of_first ?_ ?_) 5 ?_ ?_
  · decide
  · decide
  · rfl
  · decide
  · decide
  · decide

/-- The tasks of context 1 and of context 2 are notified, one after the other,
the first is removed before it runs, and the second takes its unit. -/
private def stranding : List Action :=
  threeBlocked ++ [.release 5 none, .release 5 none] ++ shutdownFirst ++
    [.sched (.pop ⟨2, 0⟩ 0), .sched (.resume ⟨2, 0⟩), .aquire ⟨2, 0⟩ 5]

private def stranded : System :=
  Lib.runFrom (System.step oneWorker) (.initial fun _ => 0) stranding

/-- The removal wakes nobody, and the last task waits beside a vacant unit. -/
theorem wakeup_lost :
    ¬∀ (config : Config) (start : SemId → UInt64) (sys : System),
      sys.Reached config start → sys.sched.ShutdownsComplete config →
        ∀ sem, 0 < sys.vacant sem →
          (∃ waiter ∈ (sys.sched.cond sem).blocked, sys.sched.finished waiter.ctx = false) →
            ∃ task, sys.OnTheWay sem task ∧ sys.sched.finished task.ctx = false := by
  intro keeps
  have reached : stranded.Reached oneWorker fun _ => 0 := Lib.Reachable.runFrom _ _ _
  have complete : stranded.sched.ShutdownsComplete oneWorker :=
    complete_of_first rfl (by decide)
  obtain ⟨task, onTheWay, -⟩ :=
    keeps oneWorker (fun _ => 0) stranded reached complete 5 (by decide) (by decide)
  have member := ((Notified.of_reached reached).mem_iff_onTheWay 5 task).mpr onTheWay
  have nobody : (stranded.sched.cond 5).notified = [] := by decide
  simp [nobody] at member

end Schedule
end Cgo
