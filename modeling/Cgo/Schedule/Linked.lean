import Cgo.Coroutine.Intrusive
import Cgo.Schedule.Place

/-!
# The waiting tasks in the intrusive list

The runnable queues and the blocked lists are lists in the system, and pointers in
the source, which links and unlinks tasks without looking whether it may.  Here the
contexts run together with the pointers, and the pointers are the lists.

Each locked section is one step, and each `_remove` is one as well.  The latter unlinks a
task that was notified from its runnable queue and has the lock of the condition alone for
it, so that `push` and `pop` of the queue are kept apart from it here and not by a lock.
-/

namespace Cgo
namespace Schedule

open Coroutine

namespace Sched

variable {config : Config} {sched after : Sched} {task : TaskId} {cond : CondId}

/-- What waits in the runnable queues and for the conditions. -/
def queues (sched : Sched) : Sequences (Partition ⊕ CondId) TaskId
  | .inl partition => some (sched.runnable partition)
  | .inr cond => some (sched.cond cond).blocked

theorem queues_initial : Sched.initial.queues = fun _ => some [] := by
  funext place
  cases place with
  | inl partition => rfl
  | inr cond => rfl

/-- `Scheduler::push` links the task. -/
theorem queues_push :
    (sched.push config task).queues =
      sched.queues.apply (.linkFront (.inl (config.home task)) task) := by
  funext place
  cases place with
  | inl partition =>
      by_cases same : partition = config.home task
      · subst same
        simp [queues, push, setRunnable, Sequences.apply]
      · simp [queues, push, setRunnable, Sequences.apply, same]
  | inr cond => simp [queues, push, setRunnable, Sequences.apply]

/-- `Condition::_suspend_to_this` links the task. -/
theorem queues_suspendToThis :
    (sched.suspendToThis cond task).queues =
      sched.queues.apply (.linkFront (.inr cond) task) := by
  funext place
  cases place with
  | inl partition => simp [queues, suspendToThis, setCond, Sequences.apply]
  | inr other =>
      by_cases same : other = cond
      · subst same
        simp [queues, suspendToThis, setCond, Sequences.apply]
      · simp [queues, suspendToThis, setCond, Sequences.apply, same]

/-- `unlink_this` of a task. -/
theorem queues_unlinkThis :
    (sched.unlinkThis task).queues = sched.queues.apply (.unlinkThis task) := by
  funext place
  cases place with
  | inl partition => rfl
  | inr cond => rfl

/-- A task is taken from a runnable queue. -/
theorem queues_setRunnable
    {partition : Partition}
    {rest : List TaskId}
    (queued : sched.runnable partition = task :: rest) :
    (sched.setRunnable partition rest).queues =
      sched.queues.apply (.unlinkBack (.inl partition)) := by
  funext place
  cases place with
  | inl other =>
      by_cases same : other = partition
      · subst same
        simp [queues, setRunnable, Sequences.apply, queued]
      · simp [queues, setRunnable, Sequences.apply, same]
  | inr cond => simp [queues, setRunnable, Sequences.apply]

/-- A task is taken from a blocked list. -/
theorem queues_setCond
    {rest : List TaskId}
    (value : Cond)
    (waits : (sched.cond cond).blocked = task :: rest)
    (left : value.blocked = rest) :
    (sched.setCond cond value).queues = sched.queues.apply (.unlinkBack (.inr cond)) := by
  funext place
  cases place with
  | inl partition => simp [queues, setCond, Sequences.apply]
  | inr other =>
      by_cases same : other = cond
      · subst same
        simp [queues, setCond, Sequences.apply, waits, left]
      · simp [queues, setCond, Sequences.apply, same]

end Sched

/-! ## The pointers -/

/-- The nodes of the tasks, and the sentinels of the runnable queues and the blocked
lists. -/
abbrev Pointers :=
  Links (QueueNode (Partition ⊕ CondId) TaskId)

namespace Pointers

variable (config : Config) (sched : Sched) (links : Pointers) (cond : CondId) (task : TaskId)

/-- `Scheduler::push` -/
def push : Pointers :=
  links.operate (.linkFront (.inl (config.home task)) task)

/-- `_schedule_from_this` -/
def scheduleFromThis : Pointers :=
  match links.back (.head (.inr cond)) with
  | some (.item first) => push config (links.operate (.unlinkBack (.inr cond))) first
  | _ => links

/-- `_suspend_to_this` -/
def suspendToThis : Pointers :=
  links.operate (.linkFront (.inr cond) task)

/-- `_remove`; the condition has its `_scheduled_ctx` from before the task was
unlinked. -/
def remove : Pointers :=
  let unlinked : Pointers := links.operate (.unlinkThis task)
  if (sched.cond cond).scheduledCtx = none ∨
      (sched.cond cond).scheduledCtx = some task.ctx then
    scheduleFromThis config unlinked cond
  else unlinked

/-- The end of `_execute` -/
def giveAway : Pointers :=
  if (sched.task task).done then links
  else if (sched.task task).yielded then push config links task
  else
    match (sched.task task).waitingCond with
    | some cond => suspendToThis links cond task
    | none => links

/-- What a step of the contexts does to the pointers. -/
def follow : Label → Pointers
  | .push thread =>
      match sched.spawning thread with
      | some task => push config links task
      | none => links
  | .pop worker index => links.operate (.unlinkBack (.inl ⟨worker.ctx, index⟩))
  | .settle worker =>
      match sched.executing worker with
      | some ⟨task, _⟩ => giveAway config sched links task
      | none => links
  | .notify cond => scheduleFromThis config links cond
  | .sweep worker =>
      match sched.sweep worker with
      | some (task :: _) =>
          match (sched.task task).waitingCond with
          | some cond => remove config sched links cond task
          | none => links
      | _ => links
  | _ => links

variable {config sched links cond task}

/-- An unlinked task is linked at the end of its queue. -/
theorem represents_push
    (represents : links.Represents sched.queues)
    (unlinked : sched.queues.Unlinked task) :
    (push config links task).Represents (sched.push config task).queues := by
  rw [Sched.queues_push]
  exact represents.operate ⟨rfl, unlinked⟩

/-- What a condition knows beside its blocked list does not matter. -/
theorem represents_setCond
    {value : Cond}
    (represents : links.Represents sched.queues)
    (same : value.blocked = (sched.cond cond).blocked) :
    links.Represents (sched.setCond cond value).queues := by
  have kept : (sched.setCond cond value).queues = sched.queues := by
    funext place
    cases place with
    | inl partition => simp [Sched.queues, Sched.setCond]
    | inr other =>
        by_cases here : other = cond
        · simp [Sched.queues, Sched.setCond, here, same]
        · simp [Sched.queues, Sched.setCond, here]
  rwa [kept]

/-- The first blocked task is taken and pushed; the test for it reads the pointers. -/
theorem represents_scheduleFromThis
    (represents : links.Represents sched.queues) :
    (scheduleFromThis config links cond).Represents
      (sched.scheduleFromThis config cond).queues := by
  have behind := represents.next_head
    (show sched.queues (.inr cond) = some (sched.cond cond).blocked from rfl)
  cases waits : (sched.cond cond).blocked with
  | nil =>
      rw [waits] at behind
      rw [Sched.scheduleFromThis_nil config sched waits]
      simpa [scheduleFromThis, Links.back, behind] using represents
  | cons first rest =>
      rw [waits] at behind
      have waiting : sched.queues (.inr cond) = some (first :: rest) := congrArg some waits
      have taken : (links.operate (.unlinkBack (.inr cond))).Represents
          (sched.queues.apply (.unlinkBack (.inr cond))) :=
        represents.operate (by simp [Sequences.Permitted, waiting])
      have unlinked := represents.unlinked_of_taken waiting
      have shorter := Sched.queues_setCond
        { sched.cond cond with
          blocked := rest
          scheduledCtx := some first.ctx
          notified := (sched.cond cond).notified ++ [first] } waits rfl
      rw [Sched.scheduleFromThis_cons config sched waits]
      rw [← shorter] at taken unlinked
      simpa [scheduleFromThis, Links.back, behind] using represents_push taken unlinked

/-- A task is unlinked, and the first that is blocked then goes on. -/
theorem represents_remove
    (represents : links.Represents sched.queues) :
    (remove config sched links cond task).Represents
      (sched.remove config cond task).queues := by
  have unlinked : (links.operate (.unlinkThis task)).Represents
      (sched.unlinkThis task).queues := by
    rw [Sched.queues_unlinkThis]
    exact represents.operate trivial
  have same : ((sched.unlinkThis task).cond cond).scheduledCtx =
      (sched.cond cond).scheduledCtx := rfl
  simp only [remove, Sched.remove, same]
  split
  · exact represents_scheduleFromThis unlinked
  · exact unlinked

/-- The task that a worker gives away goes into one list or none. -/
theorem represents_giveAway
    {worker : Worker}
    (represents : links.Represents sched.queues)
    (unlinked : sched.queues.Unlinked task) :
    (giveAway config sched links task).Represents
      (sched.giveAway config worker task).queues := by
  simp only [giveAway, Sched.giveAway]
  split
  · exact represents
  · split
    · exact represents_push represents unlinked
    · cases (sched.task task).waitingCond with
      | none => exact represents
      | some cond =>
          simp only [Sched.queues_suspendToThis]
          exact represents.operate ⟨rfl, unlinked⟩

end Pointers

namespace Tidy

variable {config : Config} {sched : Sched} {there : TaskId → Option Place}
variable {task : TaskId}

/-- A task that waits is nowhere else. -/
theorem there_of_queues
    {place : Partition ⊕ CondId}
    {items : List TaskId}
    (tidy : Tidy config sched there)
    (waiting : sched.queues place = some items)
    (member : task ∈ items) :
    there task = some (Sum.elim .runnable .blocked place) := by
  rw [← tidy.placement.at_iff]
  cases place with
  | inl partition =>
      obtain rfl := Option.some.inj waiting
      exact member
  | inr cond =>
      obtain rfl := Option.some.inj waiting
      exact member

/-- A task that a thread holds does not wait. -/
theorem unlinked
    {place : Place}
    (tidy : Tidy config sched there)
    (held : there task = some place)
    (unqueued : ∀ partition, place ≠ .runnable partition)
    (unblocked : ∀ cond, place ≠ .blocked cond) :
    sched.queues.Unlinked task := by
  intro queue items waiting member
  rw [tidy.there_of_queues waiting member] at held
  have same := (Option.some.inj held).symm
  cases queue with
  | inl partition => exact unqueued partition same
  | inr cond => exact unblocked cond same

end Tidy

/-! ## The contexts on the pointers -/

/-- The contexts together with the pointers of the tasks. -/
structure Linked where
  sched : Sched
  links : Pointers

namespace Linked

/-- Nothing is linked but the sentinels. -/
def initial : Linked where
  sched := .initial
  links := .ready

/-- A step of the contexts, and what it does to the pointers. -/
def step (config : Config) (linked : Linked) (label : Label) : Option Linked :=
  (linked.sched.step config label).map fun after =>
    ⟨after, Pointers.follow config linked.sched linked.links label⟩

variable {config : Config} {linked : Linked}

/-- The contexts run as they do without the pointers. -/
theorem sched_reached
    (reached : Lib.Reachable (step config) initial linked) :
    Sched.Reached config linked.sched := by
  refine reached.simulate Linked.sched ?_
  intro before label after stepped
  obtain ⟨sched, moved, rfl⟩ := Option.map_eq_some_iff.mp stepped
  exact .inr ⟨label, moved⟩

/-- Every step keeps the pointers those of the lists. -/
theorem represents_step
    {label : Label}
    {after : Sched}
    (placed : Placed config linked.sched)
    (represents : linked.links.Represents linked.sched.queues)
    (stepped : linked.sched.step config label = some after) :
    (Pointers.follow config linked.sched linked.links label).Represents after.queues := by
  obtain ⟨there, tidy, _⟩ := placed.tidy
  cases Sched.move_of_step stepped with
  | @push thread task holds =>
      have held := (tidy.placement.at_iff task (.spawner thread)).mp holds
      have unlinked := tidy.unlinked held (by simp) (by simp)
      simp only [Pointers.follow, holds]
      exact Pointers.represents_push represents unlinked
  | @pop worker index task rest inRange known running free queued =>
      have permitted : linked.sched.queues.Permitted
          (.unlinkBack (.inl ⟨worker.ctx, index⟩)) := by
        simp [Sequences.Permitted, Sched.queues, queued]
      have taken := represents.operate permitted
      rwa [← Sched.queues_setRunnable queued] at taken
  | @settle worker task runs =>
      have held := (tidy.placement.at_iff task (.worker worker)).mp ⟨false, runs⟩
      have unlinked := tidy.unlinked held (by simp) (by simp)
      simp only [Pointers.follow, runs]
      exact Pointers.represents_giveAway represents unlinked
  | notify => exact Pointers.represents_scheduleFromThis represents
  | wait =>
      refine Pointers.represents_setCond ?_ rfl
      exact represents
  | forget => exact Pointers.represents_setCond represents rfl
  | sweepSkip _ _ sweeps idle =>
      simp only [Pointers.follow, sweeps, idle]
      exact represents
  | sweepStart _ _ fresh =>
      simp only [Pointers.follow, fresh]
      exact represents
  | @sweepRemove worker task rest cond _ _ sweeps waits =>
      have swept : linked.links.Represents ({ linked.sched with
          sweep := Function.update linked.sched.sweep worker (some rest) } : Sched).queues :=
        represents
      simp only [Pointers.follow, sweeps, waits]
      exact Pointers.represents_remove swept
  | _ => exact represents

end Linked

/-- In every run of such steps the pointers are the lists: the chain of each runnable queue
and of each blocked list holds its tasks in their order, no task is in two chains, and a
task that waits nowhere has no pointers. -/
theorem task_queues_linked
    {config : Config}
    {linked : Linked}
    (reached : Lib.Reachable (Linked.step config) Linked.initial linked) :
    linked.links.Represents linked.sched.queues := by
  refine reached.invariant_of_reachable
    (fun linked => linked.links.Represents linked.sched.queues) ?_ ?_
  · rw [show Linked.initial.sched.queues = fun _ => some [] from Sched.queues_initial]
    exact Links.ready_represents
  · intro before label after prior represents stepped
    obtain ⟨sched, moved, rfl⟩ := Option.map_eq_some_iff.mp stepped
    exact Linked.represents_step (Placed.of_reached (Linked.sched_reached prior)) represents moved

/-- Three tasks on two partitions: the first waits for a condition, is notified, and
comes behind the third, and the second waits in its stead. -/
private def passing : List Label :=
  [.create 0 0, .push 0, .create 0 0, .push 0, .create 0 0, .push 0,
    .pop ⟨0, 0⟩ 0, .resume ⟨0, 0⟩, .pause ⟨0, 0⟩ (.wait 7), .settle ⟨0, 0⟩, .notify 7,
    .pop ⟨0, 1⟩ 1, .resume ⟨0, 1⟩, .pause ⟨0, 1⟩ (.wait 7), .settle ⟨0, 1⟩]

/-- The state after it. -/
private def passed : Linked :=
  Lib.runFrom (Linked.step ⟨fun _ => 2, fun _ => Nat.two_pos⟩) .initial passing

theorem task_queues_linked_sample :
    (passed.sched.runnable ⟨0, 0⟩ = [⟨0, 2⟩, ⟨0, 0⟩] ∧ (passed.sched.cond 7).blocked = [⟨0, 1⟩]) ∧
      passed.links.Represents passed.sched.queues :=
  ⟨by decide, task_queues_linked (Lib.Reachable.runFrom _ _ _)⟩

end Schedule
end Cgo
