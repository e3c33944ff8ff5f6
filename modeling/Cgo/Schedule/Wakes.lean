import Cgo.Schedule.Fifo

/-!
# Waiters are woken in the order in which they came

The list of a condition, whoever waits and whoever notifies.  Only `final_schedule` takes
a task out of the middle; until a context is shut down a waiter is woken as soon as those
before it have been.
-/

namespace Cgo
namespace Schedule

namespace Sched

/-- The task that a step links to the condition. -/
def links (sched : Sched) (cond : CondId) : Label → Option TaskId
  | .settle worker =>
      match sched.executing worker with
      | some ⟨task, false⟩ =>
          if (sched.task task).done ∨ (sched.task task).yielded then none
          else if (sched.task task).waitingCond = some cond then some task
          else none
      | _ => none
  | _ => none

/-- The task that a step wakes, which is the first of the condition. -/
def wakes (sched : Sched) (cond : CondId) : Label → Option TaskId
  | .notify other => if other = cond then (sched.cond cond).blocked.head? else none
  | .sweep worker =>
      match sched.sweep worker with
      | some (task :: _) =>
          if (sched.task task).waitingCond = some cond ∧
              ((sched.cond cond).scheduledCtx = none ∨
                (sched.cond cond).scheduledCtx = some task.ctx) then
            ((sched.cond cond).blocked.erase task).head?
          else none
      | _ => none
  | _ => none

end Sched

/-- The task that enters the list of the condition. -/
def linkedTo (cond : CondId) (transition : Transition) : Option TaskId :=
  transition.before.links cond transition.label

/-- The task that is woken. -/
def wokenFrom (cond : CondId) (transition : Transition) : Option TaskId :=
  transition.before.wakes cond transition.label

variable {config : Config} {sched after : Sched} {cond : CondId}

theorem scheduleFromThis_blocked (sched : Sched) (other : CondId) :
    (sched.cond cond).blocked =
      (if other = cond then (sched.cond cond).blocked.head? else none).toList ++
        ((sched.scheduleFromThis config other).cond cond).blocked := by
  cases waits : (sched.cond other).blocked with
  | nil =>
      rw [sched.scheduleFromThis_nil config waits]
      split
      · next same =>
          subst same
          simp [waits]
      · rfl
  | cons head rest =>
      rw [sched.scheduleFromThis_cons config waits]
      split
      · next same =>
          subst same
          simp [waits, Sched.push, Sched.setRunnable, Sched.setCond]
      · next apart =>
          have apart' : cond ≠ other := fun same => apart same.symm
          simp [Sched.push, Sched.setRunnable, Sched.setCond, apart']

theorem giveAway_blocked (sched : Sched) (worker : Worker) (task : TaskId) :
    ((sched.giveAway config worker task).cond cond).blocked = (sched.cond cond).blocked ++
      (if (sched.task task).done ∨ (sched.task task).yielded then none
        else if (sched.task task).waitingCond = some cond then some task
        else none).toList := by
  simp only [Sched.giveAway]
  split
  · next done => simp [done, Sched.destroy, Sched.setExecuting]
  · next going =>
      split
      · next yielded => simp [yielded, Sched.push, Sched.setRunnable, Sched.setExecuting]
      · next stays =>
          split
          · next other waits =>
              rcases eq_or_ne cond other with rfl | apart
              · simp [going, stays, waits, Sched.suspendToThis, Sched.setCond,
                  Sched.setExecuting]
              · simp [going, stays, waits, apart, apart.symm, Sched.suspendToThis,
                  Sched.setCond, Sched.setExecuting]
          · next waits => simp [going, stays, waits, Sched.setExecuting]

/-- `_remove` takes its task out of the middle, and may wake the first of the rest. -/
theorem remove_blocked_sublist
    (sched : Sched)
    (other : CondId)
    (task : TaskId) :
    ((if other = cond ∧ ((sched.cond cond).scheduledCtx = none ∨
          (sched.cond cond).scheduledCtx = some task.ctx) then
        ((sched.cond cond).blocked.erase task).head?
      else none).toList ++ ((sched.remove config other task).cond cond).blocked).Sublist
        (sched.cond cond).blocked := by
  have erased : ((sched.unlinkThis task).cond cond).blocked =
      (sched.cond cond).blocked.erase task := rfl
  have fewer : ((sched.cond cond).blocked.erase task).Sublist (sched.cond cond).blocked :=
    List.erase_sublist
  have same := @scheduleFromThis_blocked config cond (sched.unlinkThis task) other
  rw [erased] at same
  have removed : sched.remove config other task =
      if (sched.cond other).scheduledCtx = none ∨
          (sched.cond other).scheduledCtx = some task.ctx then
        (sched.unlinkThis task).scheduleFromThis config other
      else sched.unlinkThis task := rfl
  rw [removed]
  by_cases wakes : (sched.cond other).scheduledCtx = none ∨
      (sched.cond other).scheduledCtx = some task.ctx
  · rw [if_pos wakes]
    rcases eq_or_ne other cond with rfl | apart
    · rw [if_pos rfl] at same
      rwa [if_pos ⟨rfl, wakes⟩, ← same]
    · rw [if_neg apart] at same
      rwa [if_neg fun both => apart both.1, ← same]
  · rw [if_neg wakes, if_neg]
    · exact fewer
    · rintro ⟨rfl, possible⟩
      exact wakes possible

/-- Every step keeps the order of the list, and only `final_schedule` takes a task out of
the middle. -/
theorem firstInFirstOut_or_swept
    {label : Label}
    (cond : CondId)
    (stepped : sched.step config label = some after) :
    let transition : Transition := ⟨sched, label, after⟩
    Lib.FirstInFirstOut (fun sched => (sched.cond cond).blocked) (linkedTo cond)
        (wokenFrom cond) transition ∨
      ((∃ ctx, sched.finished ctx = true) ∧
        Lib.InOrder (fun sched => (sched.cond cond).blocked) (linkedTo cond) (wokenFrom cond)
          transition) := by
  simp only [Lib.FirstInFirstOut, Lib.InOrder, linkedTo, wokenFrom]
  cases Sched.move_of_step stepped with
  | settle runs stops =>
      left
      rw [giveAway_blocked]
      simp [Sched.links, Sched.wakes, runs]
  | @notify other =>
      left
      simpa [Sched.links, Sched.wakes] using scheduleFromThis_blocked sched other
  | @sweepRemove worker task rest other finished _ sweeps waits =>
      right
      have removed := @remove_blocked_sublist config cond { sched with
        sweep := Function.update sched.sweep worker (some rest) } other task
      exact ⟨⟨_, finished⟩, by
        simpa [Sched.links, Sched.wakes, sweeps, waits, Sched.setTask] using removed⟩
  | sweepStart _ _ fresh =>
      left
      simp [Sched.links, Sched.wakes, fresh]
  | sweepSkip _ _ sweeps idle =>
      left
      simp [Sched.links, Sched.wakes, sweeps, idle]
  | create =>
      left
      simp [Sched.links, Sched.wakes, Sched.create, Sched.setTask]
  | push =>
      left
      simp [Sched.links, Sched.wakes, Sched.push, Sched.setRunnable]
  | @wait worker task other =>
      left
      rcases eq_or_ne cond other with rfl | apart
      · simp [Sched.links, Sched.wakes, Sched.setExecuting, Sched.setTask, Sched.setCond]
      · simp [Sched.links, Sched.wakes, Sched.setExecuting, Sched.setTask, Sched.setCond, apart]
  | @forget worker other task =>
      left
      rcases eq_or_ne cond other with rfl | apart
      · simp [Sched.links, Sched.wakes, Sched.forget, Sched.setCond]
      · simp [Sched.links, Sched.wakes, Sched.forget, Sched.setCond, apart]
  | _ =>
      left
      simp [Sched.links, Sched.wakes, Sched.setExecuting, Sched.setTask, Sched.setRunnable]

/-- A step that links a task does not wake one, and the task was not in the list. -/
theorem linked_alone
    {transition : Transition}
    {task : TaskId}
    (placed : Placed config transition.before)
    (linked : linkedTo cond transition = some task) :
    wokenFrom cond transition = none ∧ task ∉ (transition.before.cond cond).blocked := by
  obtain ⟨before, label, after⟩ := transition
  cases label with
  | settle worker =>
      refine ⟨rfl, fun waits => ?_⟩
      simp only [linkedTo, Sched.links] at linked
      split at linked
      · next executed runs =>
          obtain rfl : executed = task := by
            split at linked
            · cases linked
            · split at linked
              · exact Option.some.inj linked
              · cases linked
          obtain ⟨there, tidy, -⟩ := placed.tidy
          have atWorker : before.At executed (.worker worker) := ⟨false, runs⟩
          have atCond : before.At executed (.blocked cond) := waits
          exact absurd (tidy.placement.unique atWorker atCond) (by simp)
      · cases linked
  | _ => cases linked

/-- The order in which a condition wakes its waiters. -/
structure WakesInOrder
    (config : Config) (cond : CondId) (taken : List Transition) (final : Sched) : Prop where
  /-- Those that were woken and those that wait came in that order. -/
  in_order : (taken.filterMap (wokenFrom cond) ++ (final.cond cond).blocked).Sublist
    (taken.filterMap (linkedTo cond))
  /-- Until a shutdown nobody else came. -/
  complete : (∀ ctx, final.finished ctx = false) →
    taken.filterMap (linkedTo cond) =
      taken.filterMap (wokenFrom cond) ++ (final.cond cond).blocked
  /-- Until a shutdown a waiter is woken right after those that it found waiting. -/
  first_come : (∀ ctx, final.finished ctx = false) →
    ∀ task earlier link between wake later,
      taken = earlier ++ link :: (between ++ wake :: later) →
      linkedTo cond link = some task → wokenFrom cond wake = some task →
      task ∉ between.filterMap (wokenFrom cond) →
      between.filterMap (wokenFrom cond) = (link.before.cond cond).blocked

/-- In every run of the contexts, a condition wakes its waiters in the order in which they
came. -/
theorem waiters_woken_in_order
    {taken : List Transition}
    {final : Sched}
    (path : Lib.Path (Sched.step config) .initial taken final)
    (cond : CondId) :
    WakesInOrder config cond taken final := by
  have inOrder : ∀ transition ∈ taken, Lib.InOrder (fun sched => (sched.cond cond).blocked)
      (linkedTo cond) (wokenFrom cond) transition := by
    intro transition member
    rcases firstInFirstOut_or_swept cond (path.mem_transition member).2 with fifo | ⟨-, swept⟩
    · exact fifo.inOrder
    · exact swept
  have fifo : (∀ ctx, final.finished ctx = false) → ∀ transition ∈ taken,
      Lib.FirstInFirstOut (fun sched => (sched.cond cond).blocked) (linkedTo cond)
        (wokenFrom cond) transition := by
    intro running transition member
    rcases firstInFirstOut_or_swept cond (path.mem_transition member).2 with
      fifo | ⟨⟨ctx, finished⟩, -⟩
    · exact fifo
    · rw [running_before path (running ctx) transition member] at finished
      cases finished
  refine ⟨by simpa [Sched.initial] using path.queue_sublist inOrder, fun running => ?_,
    fun running task earlier link between wake later split linked woken next => ?_⟩
  · simpa [Sched.initial] using path.queue_eq (fifo running)
  · have linkReached : link.before.Reached config :=
      (path.mem_transition (by simp [split])).1
    obtain ⟨quiet, fresh⟩ := linked_alone (Placed.of_reached linkReached) linked
    have still : linkedTo cond wake = none := by
      by_contra links
      obtain ⟨other, both⟩ := Option.ne_none_iff_exists'.mp links
      have wakeReached : wake.before.Reached config :=
        (path.mem_transition (by simp [split])).1
      rw [(linked_alone (Placed.of_reached wakeReached) both).1] at woken
      cases woken
    subst split
    exact path.popped_between_push (fifo running) linked quiet fresh woken still next

/-- Two tasks wait for a condition, and both are notified. -/
private def twoWaiters : List Label :=
  [.create 0 0, .push 0, .create 0 0, .push 0,
    .pop ⟨0, 0⟩ 0, .resume ⟨0, 0⟩, .pause ⟨0, 0⟩ (.wait 3), .settle ⟨0, 0⟩,
    .pop ⟨0, 0⟩ 0, .resume ⟨0, 0⟩, .pause ⟨0, 0⟩ (.wait 3), .settle ⟨0, 0⟩,
    .notify 3]

theorem waiters_woken_in_order_sample :
    let config : Config := ⟨fun _ => 1, fun _ => Nat.one_pos⟩
    let final := Lib.runFrom (Sched.step config) .initial twoWaiters
    WakesInOrder config 3 (Lib.trace (Sched.step config) .initial twoWaiters) final ∧
      (final.cond 3).blocked = [⟨0, 1⟩] := by
  intro config final
  exact ⟨waiters_woken_in_order (Lib.path_runFrom (by decide)) 3, by decide⟩

end Schedule
end Cgo
