import Cgo.Schedule.Waiters

/-!
# The tasks on the way

The tasks that a condition has notified and that have not come back are those
inside `aquire` that are queued, or with a worker that does not wait.  With
this, every step of the system is a move of each semaphore's counter of permits,
except for one kind of removal.
-/

namespace Cgo
namespace Schedule

/-- The task was notified and has not looked at `_vacant` again. -/
def System.OnTheWay (sys : System) (sem : SemId) (task : TaskId) : Prop :=
  sys.inside task = some sem ∧ sys.sched.InHand task

/-- The conditions remember the tasks on the way, each once. -/
structure Notified (sched : Sched) (inside : TaskId → Option SemId) : Prop where
  mem_iff : ∀ sem task,
    task ∈ (sched.cond sem).notified ↔ inside task = some sem ∧ sched.InHand task
  nodup : ∀ sem, (sched.cond sem).notified.Nodup

namespace Notified

variable {config : Config} {sched after : Sched} {inside : TaskId → Option SemId}

/-- A step that neither notifies a task nor lets one try again. -/
theorem of_same
    (notified : Notified sched inside)
    (kept : ∀ sem, (after.cond sem).notified = (sched.cond sem).notified)
    (inHand : ∀ task, inside task ≠ none → (after.InHand task ↔ sched.InHand task)) :
    Notified after inside where
  mem_iff sem task := by
    rw [kept, notified.mem_iff]
    refine and_congr_right fun within => ?_
    rw [inHand task (by simp [within])]
  nodup sem := by
    rw [kept]
    exact notified.nodup sem

private theorem inHand_push
    {task : TaskId}
    (other : TaskId) :
    (sched.push config task).InHand other ↔ sched.InHand other ∨ other = task := by
  have queued : (∃ partition, other ∈ (sched.push config task).runnable partition) ↔
      (∃ partition, other ∈ sched.runnable partition) ∨ other = task := by
    constructor
    · rintro ⟨partition, member⟩
      rcases Sched.runnable_push member with before | same
      · exact .inl ⟨partition, before⟩
      · exact .inr same
    · rintro (⟨partition, member⟩ | rfl)
      · refine ⟨partition, ?_⟩
        by_cases same : partition = config.home task
        · subst same
          simp [Sched.push, Sched.setRunnable, member]
        · simpa [Sched.push, Sched.setRunnable, same] using member
      · exact ⟨config.home other, by simp [Sched.push, Sched.setRunnable]⟩
  simp only [Sched.InHand, queued]
  simp only [Sched.push, Sched.setRunnable]
  exact or_right_comm

/-- `_schedule_from_this` notifies a task that was not on the way. -/
theorem scheduleFromThis
    (notified : Notified sched inside)
    (cond : CondId)
    (blocked : ∀ task ∈ (sched.cond cond).blocked,
      inside task = some cond ∧ ¬sched.InHand task) :
    Notified (sched.scheduleFromThis config cond) inside := by
  cases waits : (sched.cond cond).blocked with
  | nil =>
      rw [sched.scheduleFromThis_nil config waits]
      exact notified
  | cons head rest =>
      obtain ⟨within, idle⟩ := blocked head (by rw [waits]; exact List.mem_cons_self)
      rw [sched.scheduleFromThis_cons config waits]
      refine ⟨fun sem task => ?_, fun sem => ?_⟩
      · rw [inHand_push]
        by_cases same : sem = cond
        · subst same
          have before := notified.mem_iff sem task
          simp only [Sched.push, Sched.setRunnable, Sched.setCond, Function.update_self,
            List.mem_append, List.mem_singleton, before]
          constructor
          · rintro (⟨inside, inHand⟩ | rfl)
            · exact ⟨inside, .inl inHand⟩
            · exact ⟨within, .inr rfl⟩
          · rintro ⟨inside, inHand | rfl⟩
            · exact .inl ⟨inside, inHand⟩
            · exact .inr rfl
        · have before := notified.mem_iff sem task
          have apart : inside task = some sem → task ≠ head := by
            rintro elsewhere rfl
            rw [within] at elsewhere
            exact same (Option.some.inj elsewhere).symm
          simp only [Sched.push, Sched.setRunnable, Sched.setCond, Function.update_of_ne same,
            before]
          constructor
          · rintro ⟨inside, inHand⟩
            exact ⟨inside, .inl inHand⟩
          · rintro ⟨inside, inHand | rfl⟩
            · exact ⟨inside, inHand⟩
            · exact absurd rfl (apart inside)
      · by_cases same : sem = cond
        · subst same
          have absent : head ∉ (sched.cond sem).notified := by
            rw [notified.mem_iff]
            exact fun onTheWay => idle onTheWay.2
          have appended := (notified.nodup sem).append (List.nodup_singleton head)
            (by simpa using absent)
          simpa [Sched.push, Sched.setRunnable, Sched.setCond] using appended
        · simpa [Sched.push, Sched.setRunnable, Sched.setCond, same] using notified.nodup sem

/-- A task that no worker has is unlinked. -/
theorem unlinkThis
    {task : TaskId}
    (notified : Notified sched inside)
    (nodup : ∀ partition, (sched.runnable partition).Nodup)
    (idle : ∀ worker resuming, sched.executing worker ≠ some ⟨task, resuming⟩) :
    Notified (sched.unlinkThis task) inside := by
  have inHand : ∀ other, (sched.unlinkThis task).InHand other ↔
      sched.InHand other ∧ other ≠ task := by
    intro other
    simp only [Sched.InHand, Sched.unlinkThis, (nodup _).mem_erase_iff]
    by_cases same : other = task
    · subst same
      simp [idle]
    · simp [same]
  refine ⟨fun sem other => ?_, fun sem => (notified.nodup sem).erase task⟩
  rw [inHand]
  simp only [Sched.unlinkThis, (notified.nodup sem).mem_erase_iff, notified.mem_iff]
  tauto

/-- `_remove` takes a task away and may notify another. -/
theorem remove
    {task : TaskId}
    (notified : Notified sched inside)
    (nodup : ∀ partition, (sched.runnable partition).Nodup)
    (idle : ∀ worker resuming, sched.executing worker ≠ some ⟨task, resuming⟩)
    (cond : CondId)
    (blocked : ∀ task ∈ (sched.cond cond).blocked,
      inside task = some cond ∧ ¬sched.InHand task) :
    Notified (sched.remove config cond task) inside := by
  have unlinked := notified.unlinkThis nodup idle
  simp only [Sched.remove]
  split
  · refine unlinked.scheduleFromThis cond fun other member => ?_
    obtain ⟨within, waits⟩ := blocked other (List.mem_of_mem_erase member)
    refine ⟨within, fun inHand => waits ?_⟩
    rcases inHand with ⟨partition, queued⟩ | runs
    · exact .inl ⟨partition, List.mem_of_mem_erase queued⟩
    · exact .inr runs
  · exact unlinked

end Notified

/-! ## Every step -/

namespace Notified

variable {config : Config} {start : SemId → UInt64} {sys after : System}

/-- A blocked task is not on the way. -/
theorem not_inHand_of_blocked
    {sched : Sched}
    (placed : Placed config sched)
    {cond : CondId}
    {task : TaskId}
    (blocked : task ∈ (sched.cond cond).blocked) :
    ¬sched.InHand task := by
  rintro (⟨partition, queued⟩ | ⟨⟨worker, resuming, runs⟩, -⟩)
  · exact placed.not_runnable_of_blocked blocked partition queued
  · exact placed.not_executing_of_blocked blocked worker resuming runs

/-- A task that comes into the loop of `aquire` is not on the way any more. -/
theorem mem_entered
    {sem other : SemId}
    {task waiter : TaskId}
    (notified : Notified sys.sched sys.inside)
    (entering : sys.inside task = none ∨ sys.inside task = some sem) :
    waiter ∈ ((sys.entered sem task).cond other).notified ↔
      waiter ∈ (sys.sched.cond other).notified ∧ waiter ≠ task := by
  -- elsewhere the task was not notified
  have absent : sys.inside task ≠ some other → waiter ∈ (sys.sched.cond other).notified →
      waiter ≠ task := by
    rintro outside member rfl
    exact outside ((notified.mem_iff other waiter).mp member).1
  unfold System.entered
  split
  · rename_i within
    by_cases same : other = sem
    · subst same
      simp [Sched.forget, Sched.setCond, (notified.nodup other).mem_erase_iff, and_comm]
    · have outside : sys.inside task ≠ some other := by
        rw [within]
        simpa using Ne.symm same
      simpa [Sched.forget, Sched.setCond, same] using absent outside
  · rename_i free
    have outside : sys.inside task = none := entering.resolve_right free
    simpa using absent (by simp [outside])

theorem nodup_entered
    (notified : Notified sys.sched sys.inside)
    (sem other : SemId)
    (task : TaskId) :
    ((sys.entered sem task).cond other).notified.Nodup := by
  unfold System.entered
  split
  · by_cases same : other = sem
    · subst same
      simpa [Sched.forget, Sched.setCond] using (notified.nodup other).erase task
    · simpa [Sched.forget, Sched.setCond, same] using notified.nodup other
  · exact notified.nodup other

/-- The step changes neither the queues nor the tasks of the workers. -/
private theorem inHand_congr
    {sched changed : Sched}
    {task : TaskId}
    (runnable : ∀ partition, task ∈ changed.runnable partition ↔
      task ∈ sched.runnable partition)
    (executing : (∃ worker resuming, changed.executing worker = some ⟨task, resuming⟩) ↔
      ∃ worker resuming, sched.executing worker = some ⟨task, resuming⟩)
    (waits : (changed.task task).waitingCond = (sched.task task).waitingCond) :
    changed.InHand task ↔ sched.InHand task := by
  simp only [Sched.InHand, runnable, executing, waits]

/-- A worker changes what it does, and other tasks do not notice. -/
private theorem executing_congr
    {sched : Sched}
    {worker : Worker}
    {before : Option Execution}
    (other : TaskId)
    (now : Option Execution)
    (runs : sched.executing worker = before)
    (was : ∀ resuming, before ≠ some ⟨other, resuming⟩)
    (is : ∀ resuming, now ≠ some ⟨other, resuming⟩) :
    (∃ target resuming, (sched.setExecuting worker now).executing target =
        some ⟨other, resuming⟩) ↔
      ∃ target resuming, sched.executing target = some ⟨other, resuming⟩ := by
  constructor
  · rintro ⟨target, resuming, executes⟩
    by_cases same : target = worker
    · subst same
      exact absurd (by simpa [Sched.setExecuting] using executes) (is resuming)
    · exact ⟨target, resuming, by simpa [Sched.setExecuting, same] using executes⟩
  · rintro ⟨target, resuming, executes⟩
    by_cases same : target = worker
    · subst same
      exact absurd (runs.symm.trans executes) (was resuming)
    · exact ⟨target, resuming, by simpa [Sched.setExecuting, same] using executes⟩

/-- Whoever tries again is not on the way any more. -/
private theorem leaves
    {sem : SemId}
    {task : TaskId}
    {changed : Sched}
    {inside : TaskId → Option SemId}
    (notified : Notified sys.sched sys.inside)
    (entering : sys.inside task = none ∨ sys.inside task = some sem)
    (kept : ∀ other, (changed.cond other).notified =
      ((sys.entered sem task).cond other).notified)
    (gone : inside task = none ∨ ¬changed.InHand task)
    (others : ∀ other, other ≠ task →
      inside other = sys.inside other ∧ (changed.InHand other ↔ sys.sched.InHand other)) :
    Notified changed inside where
  mem_iff other waiter := by
    rw [kept, notified.mem_entered entering, notified.mem_iff]
    by_cases same : waiter = task
    · subst same
      refine iff_of_false (fun member => member.2 rfl) ?_
      rintro ⟨within, inHand⟩
      rcases gone with outside | idle
      · simp [outside] at within
      · exact idle inHand
    · obtain ⟨inside, inHand⟩ := others waiter same
      simp [same, inside, inHand]
  nodup other := by
    rw [kept]
    exact notified.nodup_entered sem other task

private theorem take
    {sem : SemId}
    {task : TaskId}
    (notified : Notified sys.sched sys.inside)
    (entering : sys.inside task = none ∨ sys.inside task = some sem) :
    Notified (sys.take sem task).sched (sys.take sem task).inside := by
  refine notified.leaves entering (fun _ => rfl) (.inl (by simp [System.take]))
    fun other apart => ⟨by simp [System.take, apart], ?_⟩
  exact inHand_congr (by simp [System.take]) (by simp [System.take]) (by simp [System.take])

private theorem refuse
    {worker : Worker}
    {sem : SemId}
    {task : TaskId}
    (notified : Notified sys.sched sys.inside)
    (placed : Placed config sys.sched)
    (runs : sys.sched.executing worker = some ⟨task, true⟩)
    (entering : sys.inside task = none ∨ sys.inside task = some sem) :
    Notified ((((sys.entered sem task).setExecuting worker (some ⟨task, false⟩)).setTask task
        { (sys.entered sem task).task task with waitingCond := some sem }).setCond sem
          { (sys.entered sem task).cond sem with mtx := some worker })
      (Function.update sys.inside task (some sem)) := by
  refine notified.leaves entering (fun other => ?_) (.inr ?_) fun other apart => ⟨?_, ?_⟩
  · by_cases same : other = sem
    · subst same
      simp [Sched.setCond]
    · simp [Sched.setCond, Sched.setTask, Sched.setExecuting, same]
  · rintro (⟨partition, queued⟩ | ⟨-, waits⟩)
    · refine placed.not_runnable_of_executing runs partition ?_
      simpa [Sched.setCond, Sched.setTask, Sched.setExecuting] using queued
    · simp [Sched.setCond, Sched.setTask] at waits
  · simp [apart]
  · have executing := executing_congr other (some ⟨task, false⟩) runs
      (by simp [Ne.symm apart]) (by simp [Ne.symm apart])
    refine inHand_congr (by simp [Sched.setCond, Sched.setTask, Sched.setExecuting]) ?_
      (by simp [Sched.setCond, Sched.setTask, Sched.setExecuting, apart])
    simpa [Sched.setCond, Sched.setTask, Sched.setExecuting] using executing

/-- Every change keeps the tasks on the way. -/
theorem change
    {action : Action}
    (notified : Notified sys.sched sys.inside)
    (insides : Inside sys)
    (placed : Placed config sys.sched)
    (placedAfter : Placed config after.sched)
    (changed : Change config sys action after) :
    Notified after.sched after.inside := by
  obtain ⟨there, tidy, -⟩ := placed.tidy
  have blocked : ∀ sem, ∀ task ∈ (sys.sched.cond sem).blocked,
      sys.inside task = some sem ∧ ¬sys.sched.InHand task :=
    fun sem task member => ⟨insides.of_blocked placed member, not_inHand_of_blocked placed member⟩
  cases changed with
  | create thread ctx free =>
      refine notified.of_same (fun _ => rfl) fun task within => ?_
      have apart : task ≠ ⟨ctx, sys.sched.tid ctx⟩ := by
        rintro rfl
        have known := insides.created _ within
        simp at known
      exact inHand_congr (fun _ => Iff.rfl) Iff.rfl
        (by simp [Sched.create, Sched.setTask, apart])
  | push thread task holds =>
      refine notified.of_same (fun _ => rfl) fun other within => ?_
      rw [inHand_push]
      have apart : other ≠ task := by
        rintro rfl
        exact within (insides.spawner thread other holds)
      simp only [apart, or_false]
      exact Iff.rfl
  | pop worker index task rest free queued =>
      refine notified.of_same (fun _ => rfl) fun other _ => ?_
      by_cases same : other = task
      · subst same
        refine iff_of_true ?_ (.inl ⟨⟨worker.ctx, index⟩, by simp [queued]⟩)
        exact .inr ⟨⟨worker, false, by simp [Sched.setExecuting]⟩,
          by simp [Sched.setExecuting, Sched.setTask]⟩
      · have executing := executing_congr other (some ⟨task, false⟩) free
          (by simp) (by simp [Ne.symm same])
        refine inHand_congr (fun partition => ?_) ?_
          (by simp [Sched.setExecuting, Sched.setTask, Sched.setRunnable, same])
        · by_cases here : partition = ⟨worker.ctx, index⟩
          · subst here
            simp [Sched.setExecuting, Sched.setTask, Sched.setRunnable, queued, same]
          · simp [Sched.setExecuting, Sched.setTask, Sched.setRunnable, here]
        · simpa [Sched.setExecuting, Sched.setTask, Sched.setRunnable] using executing
  | resume worker task runs resumes =>
      refine notified.of_same (fun _ => rfl) fun other _ => ?_
      by_cases same : other = task
      · subst same
        simp only [Sched.canResume, Bool.and_eq_true, Bool.not_eq_true',
          Option.isNone_iff_eq_none] at resumes
        refine iff_of_true (.inr ⟨⟨worker, true, ?_⟩, resumes.1.2⟩)
          (.inr ⟨⟨worker, false, runs⟩, resumes.1.2⟩)
        simp [Sched.setExecuting]
      · have executing := executing_congr other (some ⟨task, true⟩) runs
          (by simp [Ne.symm same]) (by simp [Ne.symm same])
        exact inHand_congr (fun _ => Iff.rfl) executing rfl
  | pause worker outcome task value runs free waits =>
      refine notified.of_same (fun _ => rfl) fun other within => ?_
      have apart : other ≠ task := by
        rintro rfl
        exact within free
      have executing := executing_congr other (some ⟨task, false⟩) runs
        (by simp [Ne.symm apart]) (by simp [Ne.symm apart])
      refine inHand_congr (fun _ => Iff.rfl) ?_
        (by simp [Sched.setTask, Sched.setExecuting, apart])
      simpa [Sched.setTask, Sched.setExecuting] using executing
  | finish worker task runs done =>
      refine notified.of_same (fun _ => rfl) fun other within => ?_
      have apart : other ≠ task := by
        rintro rfl
        exact within (insides.idle other (.inr done))
      have executing := executing_congr other none runs
        (by simp [Ne.symm apart]) (by simp)
      exact inHand_congr (fun _ => Iff.rfl) executing rfl
  | requeue worker task runs yielded =>
      refine notified.of_same (fun _ => rfl) fun other within => ?_
      have apart : other ≠ task := by
        rintro rfl
        exact within (insides.idle other (.inl yielded))
      have executing := executing_congr other none runs
        (by simp [Ne.symm apart]) (by simp)
      rw [inHand_push]
      simp only [apart, or_false]
      exact inHand_congr (fun _ => Iff.rfl) executing rfl
  | link worker task sem runs waits =>
      refine notified.of_same (fun other => ?_) fun other within => ?_
      · by_cases same : other = sem
        · subst same
          simp [Sched.suspendToThis, Sched.setCond, Sched.setExecuting]
        · simp [Sched.suspendToThis, Sched.setCond, Sched.setExecuting, same]
      · by_cases same : other = task
        · subst same
          refine iff_of_false (@not_inHand_of_blocked _ _ placedAfter sem other ?_) ?_
          · simp [Sched.suspendToThis, Sched.setCond]
          · rintro (⟨partition, queued⟩ | ⟨-, free⟩)
            · exact placed.not_runnable_of_executing runs partition queued
            · simp [waits] at free
        · have executing := executing_congr other none runs
            (by simp [Ne.symm same]) (by simp)
          exact inHand_congr (fun _ => Iff.rfl) executing rfl
  | shutdown label finished exited sweep grows =>
      exact notified.of_same (fun _ => rfl) fun _ _ => Iff.rfl
  | remove worker task rest sem finished sweeps waits =>
      have idle : ∀ other resuming, sys.sched.executing other ≠ some ⟨task, resuming⟩ := by
        intro other resuming runs
        refine @Placed.nowhere_of_destroyed _ _ placedAfter task ?_ (.worker other) ?_
        · simp [Sched.setTask]
        · exact ⟨resuming, by simpa [Sched.setTask] using runs⟩
      have swept : Notified { sys.sched with
          sweep := Function.update sys.sched.sweep worker (some rest) } sys.inside :=
        notified.of_same (fun _ => rfl) fun _ _ => Iff.rfl
      have removed : Notified (Sched.remove config _ sem task) sys.inside :=
        swept.remove tidy.runnable_nodup idle sem (blocked sem)
      refine removed.of_same (fun _ => rfl) fun other _ => ?_
      refine inHand_congr (fun _ => Iff.rfl) Iff.rfl ?_
      by_cases same : other = task
      · subst same
        simp [Sched.setTask]
      · simp [Sched.setTask, same]
  | take worker sem task runs unlocked entering free => exact notified.take entering
  | refuse worker sem task runs unlocked entering gone free =>
      exact notified.refuse placed runs entering
  | release sem holder unlocked free => exact notified.scheduleFromThis sem (blocked sem)

theorem initial : Notified (System.initial start).sched (System.initial start).inside where
  mem_iff := by simp [System.initial, Sched.initial]
  nodup := by simp [System.initial, Sched.initial]

theorem of_reached
    (reached : sys.Reached config start) :
    Notified sys.sched sys.inside := by
  refine reached.invariant_of_reachable (fun sys => Notified sys.sched sys.inside) .initial ?_
  intro before action after reachedBefore notified stepped
  exact notified.change (.of_reached reachedBefore) (System.placed_of_reached reachedBefore)
    (System.placed_of_reached (reachedBefore.tail stepped)) (.of_step stepped)

/-- The tasks that a semaphore's condition remembers are those on the way. -/
theorem mem_iff_onTheWay
    (notified : Notified sys.sched sys.inside)
    (sem : SemId)
    (task : TaskId) :
    task ∈ (sys.sched.cond sem).notified ↔ sys.OnTheWay sem task :=
  notified.mem_iff sem task

end Notified

end Schedule
end Cgo
