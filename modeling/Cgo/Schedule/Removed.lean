import Cgo.Lib.Precedes
import Cgo.Schedule.Unfinished

/-!
# Destroyed tasks stay out of every list

`_remove` takes its task out of whatever list it is linked in, hands at most the
first waiter of the condition over, and leaves all other tasks in their order.  A
task whose frames were destroyed is linked in no list, and no later step of any
context links or resumes it.
-/

namespace Cgo
namespace Schedule

variable {config : Config} {sched before after : Sched}

namespace Sched

/-- `_remove` appends only tasks that it hands over. -/
theorem remove_runnable
    (config : Config)
    (sched : Sched)
    (cond : CondId)
    (task : TaskId)
    (partition : Partition) :
    ∃ pushed, (sched.remove config cond task).runnable partition =
        (sched.runnable partition).erase task ++ pushed ∧ pushed.Nodup ∧
      ∀ other ∈ pushed, other ∈ (sched.cond cond).blocked.erase task := by
  simp only [remove]
  split
  · cases waits : ((sched.unlinkThis task).cond cond).blocked with
    | nil =>
        rw [scheduleFromThis_nil config _ waits]
        exact ⟨[], (List.append_nil _).symm, by simp, by simp⟩
    | cons head rest =>
        rw [scheduleFromThis_cons config _ waits]
        have member : head ∈ (sched.cond cond).blocked.erase task := by
          have here : head ∈ ((sched.unlinkThis task).cond cond).blocked := by
            rw [waits]
            exact List.mem_cons_self
          exact here
        rcases eq_or_ne partition (config.home head) with rfl | apart
        · refine ⟨[head], ?_, List.nodup_singleton _, ?_⟩
          · simp [push, setRunnable, setCond, unlinkThis]
          · intro other single
            obtain rfl := List.mem_singleton.mp single
            exact member
        · refine ⟨[], ?_, List.nodup_nil, by simp⟩
          simp [push, setRunnable, setCond, unlinkThis, apart]
  · exact ⟨[], (List.append_nil _).symm, by simp, by simp⟩

/-- `_remove` takes away its task and those at the front that it hands over. -/
theorem remove_blocked
    (config : Config)
    (sched : Sched)
    (cond other : CondId)
    (task : TaskId) :
    ∃ handed, (sched.cond other).blocked.erase task =
        handed ++ ((sched.remove config cond task).cond other).blocked ∧
      ∀ waiter ∈ handed, other = cond ∧
        waiter ∈ (sched.remove config cond task).runnable (config.home waiter) := by
  simp only [remove]
  split
  · cases waits : ((sched.unlinkThis task).cond cond).blocked with
    | nil =>
        rw [scheduleFromThis_nil config _ waits]
        exact ⟨[], rfl, by simp⟩
    | cons head rest =>
        rw [scheduleFromThis_cons config _ waits]
        rcases eq_or_ne other cond with rfl | apart
        · refine ⟨[head], ?_, ?_⟩
          · have erased : (sched.cond other).blocked.erase task = head :: rest := waits
            simpa [push, setRunnable, setCond] using erased
          · intro waiter single
            obtain rfl := List.mem_singleton.mp single
            exact ⟨rfl, by simp [push, setRunnable]⟩
        · refine ⟨[], ?_, by simp⟩
          simp [push, setRunnable, setCond, unlinkThis, apart]
  · exact ⟨[], rfl, by simp⟩

end Sched

/-- What `_remove` does to the lists. -/
structure RemovesOne (config : Config) (sched : Sched) (cond : CondId) (task : TaskId) :
    Prop where
  /-- The task is linked nowhere. -/
  runnable_gone : ∀ partition, task ∉ (sched.remove config cond task).runnable partition
  blocked_gone : ∀ other, task ∉ ((sched.remove config cond task).cond other).blocked
  /-- Every other queued task stays in its queue. -/
  runnable_stays : ∀ partition other, other ≠ task → other ∈ sched.runnable partition →
    other ∈ (sched.remove config cond task).runnable partition
  /-- Every other waiter stays blocked, or it is handed over. -/
  blocked_stays : ∀ list other, other ≠ task → other ∈ (sched.cond list).blocked →
    other ∈ ((sched.remove config cond task).cond list).blocked ∨
      list = cond ∧ other ∈ (sched.remove config cond task).runnable (config.home other)
  /-- The other tasks of a list keep their order. -/
  runnable_order : ∀ partition first second, first ≠ task → second ≠ task →
    first ∈ sched.runnable partition → second ∈ sched.runnable partition →
      (Lib.Precedes ((sched.remove config cond task).runnable partition) first second ↔
        Lib.Precedes (sched.runnable partition) first second)
  blocked_order : ∀ list first second, first ≠ task → second ≠ task →
    first ∈ ((sched.remove config cond task).cond list).blocked →
    second ∈ ((sched.remove config cond task).cond list).blocked →
      (Lib.Precedes ((sched.remove config cond task).cond list).blocked first second ↔
        Lib.Precedes (sched.cond list).blocked first second)

/-- Two lists without repetitions that share a sublist order its elements alike. -/
theorem precedes_iff_of_shared
    {shared left right : List TaskId}
    {first second : TaskId}
    (inLeft : shared.Sublist left)
    (inRight : shared.Sublist right)
    (nodupLeft : left.Nodup)
    (nodupRight : right.Nodup)
    (hasFirst : first ∈ shared)
    (hasSecond : second ∈ shared) :
    Lib.Precedes left first second ↔ Lib.Precedes right first second := by
  refine ⟨fun precedes => ?_, fun precedes => ?_⟩
  · exact (precedes.in_part nodupLeft inLeft hasFirst hasSecond).of_sublist inRight
  · exact (precedes.in_part nodupRight inRight hasFirst hasSecond).of_sublist inLeft

/-- `_remove` removes one task. -/
theorem Placed.removesOne
    (placed : Placed config sched)
    (cond : CondId)
    (task : TaskId) :
    RemovesOne config sched cond task := by
  obtain ⟨there, tidy, -⟩ := placed.tidy
  have erased : ∀ partition, ∀ other ∈ (sched.cond cond).blocked.erase task,
      other ∉ sched.runnable partition ∧ other ≠ task := by
    intro partition other member
    obtain ⟨apart, blocked⟩ := (tidy.blocked_nodup cond).mem_erase_iff.mp member
    exact ⟨placed.not_runnable_of_blocked blocked partition, apart⟩
  have queueNodup : ∀ partition, ((sched.remove config cond task).runnable partition).Nodup := by
    intro partition
    obtain ⟨pushed, lists, nodup, handed⟩ := sched.remove_runnable config cond task partition
    rw [lists]
    refine ((tidy.runnable_nodup partition).erase task).append nodup fun other kept new => ?_
    exact (erased partition other (handed other new)).1 (List.mem_of_mem_erase kept)
  refine ⟨fun partition queued => ?_, fun other blocked => ?_,
    fun partition other apart queued => ?_, fun list other apart blocked => ?_, ?_, ?_⟩
  · obtain ⟨pushed, lists, -, handed⟩ := sched.remove_runnable config cond task partition
    rw [lists] at queued
    rcases List.mem_append.mp queued with kept | new
    · exact ((tidy.runnable_nodup partition).mem_erase_iff.mp kept).1 rfl
    · exact (erased partition task (handed task new)).2 rfl
  · obtain ⟨handed, lists, -⟩ := sched.remove_blocked config cond other task
    have member : task ∈ (sched.cond other).blocked.erase task := by
      rw [lists]
      exact List.mem_append_right _ blocked
    exact ((tidy.blocked_nodup other).mem_erase_iff.mp member).1 rfl
  · obtain ⟨pushed, lists, -⟩ := sched.remove_runnable config cond task partition
    rw [lists]
    exact List.mem_append_left _ ((List.mem_erase_of_ne apart).mpr queued)
  · obtain ⟨handed, lists, given⟩ := sched.remove_blocked config cond list task
    have member : other ∈ (sched.cond list).blocked.erase task :=
      (List.mem_erase_of_ne apart).mpr blocked
    rw [lists] at member
    rcases List.mem_append.mp member with gone | kept
    · exact .inr (given other gone)
    · exact .inl kept
  · intro partition first second apartFirst apartSecond hasFirst hasSecond
    obtain ⟨pushed, lists, -⟩ := sched.remove_runnable config cond task partition
    have kept : ((sched.runnable partition).erase task).Sublist
        ((sched.remove config cond task).runnable partition) := by
      rw [lists]
      exact List.sublist_append_left _ _
    exact precedes_iff_of_shared kept List.erase_sublist (queueNodup partition)
      (tidy.runnable_nodup partition) ((List.mem_erase_of_ne apartFirst).mpr hasFirst)
      ((List.mem_erase_of_ne apartSecond).mpr hasSecond)
  · intro list first second _ _ hasFirst hasSecond
    obtain ⟨handed, lists, -⟩ := sched.remove_blocked config cond list task
    have kept : ((sched.remove config cond task).cond list).blocked.Sublist
        ((sched.cond list).blocked.erase task) := by
      rw [lists]
      exact List.sublist_append_right _ _
    have nodup := ((tidy.blocked_nodup list).erase task).sublist kept
    exact precedes_iff_of_shared (List.Sublist.refl _) (kept.trans List.erase_sublist) nodup
      (tidy.blocked_nodup list) hasFirst hasSecond

/-- The task is destroyed and linked nowhere, and no thread has it. -/
structure OutOfReach (sched : Sched) (task : TaskId) : Prop where
  destroyed : (sched.task task).destroyed = true
  runnable : ∀ partition, task ∉ sched.runnable partition
  blocked : ∀ cond, task ∉ (sched.cond cond).blocked
  executing : ∀ worker resuming, sched.executing worker ≠ some ⟨task, resuming⟩
  spawning : ∀ thread, sched.spawning thread ≠ some task

/-- A destroyed task is out of reach. -/
theorem Placed.outOfReach
    (placed : Placed config sched)
    {task : TaskId}
    (destroyed : (sched.task task).destroyed = true) :
    OutOfReach sched task where
  destroyed := destroyed
  runnable partition := placed.nowhere_of_destroyed destroyed (.runnable partition)
  blocked cond := placed.nowhere_of_destroyed destroyed (.blocked cond)
  executing worker resuming runs :=
    placed.nowhere_of_destroyed destroyed (.worker worker) ⟨resuming, runs⟩
  spawning thread := placed.nowhere_of_destroyed destroyed (.spawner thread)

/-- In every state of every run each removal takes out one task and leaves the order of all
others; and from the destruction of a task's frames on, the task is out of reach. -/
theorem destroyed_stays_out
    (config : Config)
    {before : Sched}
    (reached : before.Reached config) :
    (∀ cond other, RemovesOne config before cond other) ∧
      ∀ task, (before.task task).destroyed = true → ∀ transitions after,
        Lib.Path (Sched.step config) before transitions after → OutOfReach after task := by
  refine ⟨(Placed.of_reached reached).removesOne, fun task destroyed transitions after path => ?_⟩
  have placed : Placed config after := .of_reached (reached.trans ⟨_, path⟩)
  refine placed.outOfReach ?_
  clear placed
  induction path with
  | nil => exact destroyed
  | snoc prior stepped inductionHypothesis =>
      have reachedPrior := reached.trans ⟨_, prior⟩
      exact (Remains.of_reached reachedPrior).destroyed (.of_reached reachedPrior) stepped
        inductionHypothesis

/-- Tasks of contexts 0 and 1 wait for one condition, and context 0 is shut down. -/
private def sharing : List Label :=
  [.create 0 0, .push 0, .create 0 1, .push 0,
    .pop ⟨0, 0⟩ 0, .resume ⟨0, 0⟩, .pause ⟨0, 0⟩ (.wait 7), .settle ⟨0, 0⟩,
    .pop ⟨1, 0⟩ 0, .resume ⟨1, 0⟩, .pause ⟨1, 0⟩ (.wait 7), .settle ⟨1, 0⟩,
    .shutdown 0, .exit ⟨0, 0⟩, .sweep ⟨0, 0⟩, .sweep ⟨0, 0⟩]

/-- The state after it. -/
private def shared : Sched :=
  Lib.runFrom (Sched.step oneWorker) .initial sharing

/-- Context 1 goes on, and the condition is notified. -/
private def goingOn : List Label :=
  [.notify 7, .pop ⟨1, 0⟩ 0, .resume ⟨1, 0⟩, .forget ⟨1, 0⟩ 7, .notify 7]

theorem destroyed_stays_out_sample :
    (∀ cond other, RemovesOne oneWorker shared cond other) ∧
      OutOfReach (Lib.runFrom (Sched.step oneWorker) shared goingOn) ⟨0, 0⟩ := by
  have kept := destroyed_stays_out oneWorker
    (Lib.Reachable.runFrom (Sched.step oneWorker) .initial sharing : shared.Reached oneWorker)
  exact ⟨kept.1, kept.2 ⟨0, 0⟩ (by decide) _ _ (Lib.path_runFrom (by decide))⟩

end Schedule
end Cgo
