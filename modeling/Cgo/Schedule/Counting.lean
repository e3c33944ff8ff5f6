import Cgo.Schedule.Notified
import Mathlib.Data.Nat.ModEq

/-!
# What a semaphore counts

Every step of the system is, for each semaphore, a move of its counter of
permits, or leaves it as it is, or takes a waiter away without waking another.
The account of the counter and its promise to the blocked waiters are those of
the counter of permits.
-/

namespace Cgo
namespace Schedule

namespace System

variable {config : Config} {start : SemId → UInt64} {sys after : System}

/-- `_remove` takes the task away and does not wake another. -/
def Silent (sys : System) (sem : SemId) (task : TaskId) : Prop :=
  ¬((sys.sched.cond sem).scheduledCtx = none ∨
    (sys.sched.cond sem).scheduledCtx = some task.ctx)

instance (sys : System) (sem : SemId) (task : TaskId) : Decidable (sys.Silent sem task) :=
  inferInstanceAs (Decidable (¬(_ ∨ _)))

/-- The waiter that a step removes, and the semaphore for which it waits. -/
def removed (sys : System) : Action → Option (TaskId × SemId)
  | .sched (.sweep worker) =>
      match sys.sched.sweep worker with
      | some (task :: _) => (sys.sched.task task).waitingCond.map fun sem => (task, sem)
      | _ => none
  | _ => none

/-- Two states in which a semaphore's counter is the same. -/
private theorem permits_congr
    {sem : SemId}
    (vacant : after.vacant sem = sys.vacant sem)
    (released : after.released sem = sys.released sem)
    (taken : after.taken sem = sys.taken sem)
    (blocked : (after.sched.cond sem).blocked = (sys.sched.cond sem).blocked)
    (notified : (after.sched.cond sem).notified = (sys.sched.cond sem).notified)
    (mtx : after.mtx sem = sys.mtx sem) :
    after.permits sem = sys.permits sem := by
  simp only [permits, vacant, released, taken, blocked, notified, mtx]

/-- `_schedule_from_this` wakes a waiter of its own condition only. -/
private theorem scheduleFromThis_cond_of_ne
    {sched : Sched}
    {cond other : CondId}
    (apart : other ≠ cond) :
    (sched.scheduleFromThis config cond).cond other = sched.cond other := by
  cases waits : (sched.cond cond).blocked with
  | nil => rw [sched.scheduleFromThis_nil config waits]
  | cons head rest =>
      rw [sched.scheduleFromThis_cons config waits]
      simp [Sched.push, Sched.setRunnable, Sched.setCond, apart]

/-- The lists of a condition after `_schedule_from_this` are those of a counter
that wakes a waiter. -/
private theorem scheduleFromThis_wake
    {cond : CondId}
    (sched : Sched)
    (permits : Lib.Permits TaskId)
    (blocked : permits.blocked = (sched.cond cond).blocked)
    (woken : permits.woken = (sched.cond cond).notified) :
    { permits with
      blocked := ((sched.scheduleFromThis config cond).cond cond).blocked
      woken := ((sched.scheduleFromThis config cond).cond cond).notified } = permits.wake := by
  unfold Lib.Permits.wake
  cases waits : (sched.cond cond).blocked with
  | nil =>
      have empty : permits.blocked = [] := blocked.trans waits
      rw [sched.scheduleFromThis_nil config waits, ← woken, ← blocked]
      split
      · rfl
      · rename_i waits
        simp [empty] at waits
  | cons head rest =>
      rw [sched.scheduleFromThis_cons config waits, blocked, waits]
      simp [Sched.push, Sched.setRunnable, Sched.setCond, woken]

/-- The counter of a semaphore when one of its waiters is removed. -/
private theorem remove_permits
    {sem : SemId}
    {task : TaskId}
    {sched : Sched}
    (lists : sched.cond = sys.sched.cond) :
    { sys.permits sem with
      blocked := ((sched.remove config sem task).cond sem).blocked
      woken := ((sched.remove config sem task).cond sem).notified } =
        if sys.Silent sem task then (sys.permits sem).discard task
        else ((sys.permits sem).discard task).wake := by
  have unlinked : (sched.unlinkThis task).cond sem =
      { sys.sched.cond sem with
        blocked := (sys.sched.cond sem).blocked.erase task
        notified := (sys.sched.cond sem).notified.erase task } := by
    simp [Sched.unlinkThis, lists]
  by_cases silent : sys.Silent sem task
  · have kept : sched.remove config sem task = sched.unlinkThis task := by
      simp only [Sched.remove, unlinked]
      exact if_neg silent
    rw [if_pos silent, kept, unlinked]
    rfl
  · have handed : sched.remove config sem task =
        (sched.unlinkThis task).scheduleFromThis config sem := by
      simp only [Sched.remove, unlinked]
      exact if_pos (not_not.mp silent)
    rw [if_neg silent, handed]
    refine scheduleFromThis_wake (sched.unlinkThis task) ((sys.permits sem).discard task) ?_ ?_
    · rw [unlinked]
      rfl
    · rw [unlinked]
      rfl

/-- Another semaphore does not lose a waiter by a removal. -/
private theorem remove_cond_of_ne
    {sem other : SemId}
    {task : TaskId}
    {sched : Sched}
    (apart : other ≠ sem)
    (unblocked : task ∉ (sched.cond other).blocked)
    (unnotified : task ∉ (sched.cond other).notified) :
    (sched.remove config sem task).cond other = sched.cond other := by
  have unlinked : (sched.unlinkThis task).cond other = sched.cond other := by
    simp [Sched.unlinkThis, List.erase_of_not_mem unblocked, List.erase_of_not_mem unnotified]
  simp only [Sched.remove]
  split
  · rw [scheduleFromThis_cond_of_ne apart, unlinked]
  · exact unlinked

/-- Coming into the loop concerns one semaphore. -/
private theorem entered_cond_of_ne
    {sem other : SemId}
    {task : TaskId}
    (apart : other ≠ sem) :
    (sys.entered sem task).cond other = sys.sched.cond other := by
  unfold entered
  split
  · simp [Sched.forget, Sched.setCond, apart]
  · rfl

/-- Whoever comes into the loop is not on the way any more. -/
private theorem entered_notified
    {sem : SemId}
    {task : TaskId}
    (notified : Notified sys.sched sys.inside)
    (entering : sys.inside task = none ∨ sys.inside task = some sem) :
    ((sys.entered sem task).cond sem).notified =
      (sys.sched.cond sem).notified.erase task := by
  unfold entered
  split
  · simp [Sched.forget, Sched.setCond]
  · rename_i free
    have outside := entering.resolve_right free
    refine (List.erase_of_not_mem fun member => ?_).symm
    have within := ((notified.mem_iff sem task).mp member).1
    simp [outside] at within

/-- Every step moves the counter of a semaphore, or leaves it, or takes a waiter
away without waking another. -/
theorem permits_of_change
    {action : Action}
    (locked : Locked sys)
    (insides : Inside sys)
    (notified : Notified sys.sched sys.inside)
    (placed : Placed config sys.sched)
    (changed : Change config sys action after)
    (sem : SemId) :
    after.permits sem = sys.permits sem ∨
      Lib.Permits.Move sizeBound (sys.permits sem) (after.permits sem) ∨
      ∃ task, sys.removed action = some (task, sem) ∧ sys.Silent sem task ∧
        (∃ ctx, sys.sched.finished ctx = true) ∧
        after.permits sem = (sys.permits sem).discard task := by
  have unlinked : ∀ cond, sys.mtx cond = none → (sys.permits cond).linking = false := by
    intro cond free
    simp [permits, free]
  cases changed with
  | create thread ctx free => exact .inl rfl
  | push thread task holds => exact .inl rfl
  | pop worker index task rest free queued => exact .inl rfl
  | resume worker task runs resumes => exact .inl rfl
  | pause worker outcome task value runs free waits => exact .inl rfl
  | finish worker task runs done => exact .inl rfl
  | requeue worker task runs yielded => exact .inl rfl
  | shutdown label finished exited sweep grows => exact .inl rfl
  | link worker task cond runs waits =>
      by_cases same : sem = cond
      · subst same
        have linking : (sys.permits sem).linking = true := by
          simp [permits, locked.waits worker task false sem runs waits]
        have linked : Lib.Permits.Move sizeBound _ _ := .link task linking
        refine .inr (.inl ?_)
        simpa [permits, Lib.Permits.link, Sched.suspendToThis, Sched.setCond,
          Sched.setExecuting] using linked
      · refine .inl (permits_congr rfl rfl rfl ?_ ?_ ?_)
        · simp [Sched.suspendToThis, Sched.setCond, Sched.setExecuting, same]
        · simp [Sched.suspendToThis, Sched.setCond, Sched.setExecuting, same]
        · simp [same]
  | remove worker task rest cond finished sweeps waits =>
      by_cases same : sem = cond
      · subst same
        have counter := @remove_permits config sys sem task
          { sys.sched with sweep := Function.update sys.sched.sweep worker (some rest) } rfl
        have removes : sys.removed (.sched (.sweep worker)) = some (task, sem) := by
          simp [removed, sweeps, waits]
        by_cases silent : sys.Silent sem task
        · rw [if_pos silent] at counter
          exact .inr (.inr ⟨task, removes, silent, ⟨_, finished⟩, counter⟩)
        · rw [if_neg silent] at counter
          have handed : Lib.Permits.Move sizeBound (sys.permits sem) _ := .handOver task
          rw [← counter] at handed
          exact .inr (.inl handed)
      · have elsewhere : sys.inside task ≠ some sem := by
          rw [insides.waiting task cond waits]
          simpa using Ne.symm same
        have kept := @remove_cond_of_ne config cond sem task
          { sys.sched with sweep := Function.update sys.sched.sweep worker (some rest) } same
          (fun blocked => elsewhere (insides.of_blocked placed blocked))
          (fun member => elsewhere ((notified.mem_iff sem task).mp member).1)
        refine .inl (permits_congr rfl rfl rfl ?_ ?_ rfl)
        · exact congrArg Cond.blocked kept
        · exact congrArg Cond.notified kept
  | take worker cond task runs free entering vacant =>
      by_cases same : sem = cond
      · subst same
        have moved : Lib.Permits.Move sizeBound _ _ := .take task (unlinked sem free) vacant
        refine .inr (.inl ?_)
        simpa [permits, Lib.Permits.take, take, entered_notified notified entering] using moved
      · refine .inl (permits_congr ?_ rfl ?_ ?_ ?_ rfl)
        · simp [take, same]
        · simp [take, same]
        · simp [take]
        · simp [take, entered_cond_of_ne same]
  | refuse worker cond task runs free entering gone unheld =>
      by_cases same : sem = cond
      · subst same
        have moved : Lib.Permits.Move sizeBound _ _ := .refuse task (unlinked sem free) gone
        refine .inr (.inl ?_)
        simpa [permits, Lib.Permits.refuse, Sched.setCond,
          entered_notified notified entering] using moved
      · refine .inl (permits_congr rfl rfl rfl ?_ ?_ ?_)
        · simp [Sched.setCond, Sched.setTask, Sched.setExecuting, same]
        · simp [Sched.setCond, Sched.setTask, Sched.setExecuting, same, entered_cond_of_ne]
        · simp [same]
  | release cond holder free unheld =>
      by_cases same : sem = cond
      · subst same
        have counter : (sys.release config sem holder).permits sem =
            (sys.permits sem).release sizeBound := by
          refine Eq.trans ?_ (@scheduleFromThis_wake config sem sys.sched
            { sys.permits sem with
              vacant := (sys.vacant sem + 1) % sizeBound
              released := sys.released sem + 1 } rfl rfl)
          simp [permits, release]
        rw [counter]
        exact .inr (.inl (.release (unlinked sem free)))
      · have kept := @scheduleFromThis_cond_of_ne config sys.sched cond sem same
        refine .inl (permits_congr ?_ ?_ rfl ?_ ?_ rfl)
        · simp [release, same]
        · simp [release, same]
        · exact congrArg Cond.blocked kept
        · exact congrArg Cond.notified kept

/-- A context that is shut down stays so. -/
theorem finished_of_change
    {action : Action}
    (changed : Change config sys action after)
    {ctx : ContextId}
    (finished : sys.sched.finished ctx = true) :
    after.sched.finished ctx = true := by
  cases changed with
  | shutdown label now exited sweep grows => exact grows ctx finished
  | remove worker task rest sem _ sweeps waits => simpa [Sched.setTask] using finished
  | take worker sem task runs free entering vacant => simpa [take] using finished
  | refuse worker sem task runs free entering gone unheld =>
      simpa [Sched.setCond, Sched.setTask, Sched.setExecuting] using finished
  | release sem holder free unheld => simpa [release] using finished
  | _ => exact finished

/-- The account of every semaphore. -/
theorem balanced_of_reached
    (reached : sys.Reached config start)
    (sem : SemId) :
    (sys.permits sem).Balanced sizeBound (start sem).toNat := by
  refine reached.invariant_of_reachable
    (fun sys => (sys.permits sem).Balanced sizeBound (start sem).toNat) ?_ ?_
  · exact ⟨(start sem).toNat_lt, .refl _, le_rfl, by simp [permits, initial]⟩
  · intro before action after reachedBefore balanced stepped
    rcases permits_of_change (.of_reached reachedBefore) (.of_reached reachedBefore)
      (.of_reached reachedBefore) (placed_of_reached reachedBefore) (.of_step stepped) sem
      with same | moved | ⟨task, -, -, -, gone⟩
    · rw [same]
      exact balanced
    · exact balanced.move moved
    · rw [gone]
      exact balanced.discard task

/-- While no context is shut down every semaphore keeps its promise. -/
theorem covered_of_running
    (reached : sys.Reached config start)
    (running : ∀ ctx, sys.sched.finished ctx = false)
    (sem : SemId) :
    (sys.permits sem).Covered fun _ => True := by
  refine reached.invariant_of_reachable (fun sys => (∀ ctx, sys.sched.finished ctx = false) →
    (sys.permits sem).Covered fun _ => True) ?_ ?_ running
  · rintro - ⟨waiter, blocked, -⟩
    simp [permits, initial, Sched.initial] at blocked
  · intro before action after reachedBefore covered stepped running
    have changed := Change.of_step stepped
    have runningBefore : ∀ ctx, before.sched.finished ctx = false := by
      intro ctx
      by_contra finished
      have finishedAfter := finished_of_change changed (by simpa using finished)
      simp [running ctx] at finishedAfter
    rcases permits_of_change (.of_reached reachedBefore) (.of_reached reachedBefore)
      (.of_reached reachedBefore) (placed_of_reached reachedBefore) changed sem
      with same | moved | ⟨task, -, -, ⟨ctx, finished⟩, -⟩
    · rw [same]
      exact covered runningBefore
    · exact (covered runningBefore).move (balanced_of_reached reachedBefore sem) moved
    · simp [runningBefore ctx] at finished

/-! ## The account -/

/-- `_vacant` is the initial count, the releases and the completed calls of
`aquire` in the arithmetic of `size_t`. -/
theorem vacant_eq
    (reached : sys.Reached config start)
    (sem : SemId) :
    UInt64.ofNat (sys.vacant sem) =
      start sem + UInt64.ofNat (sys.released sem) - UInt64.ofNat (sys.taken sem) := by
  have account : sys.vacant sem + sys.taken sem ≡
      (start sem).toNat + sys.released sem [MOD 2 ^ 64] :=
    (balanced_of_reached reached sem).account
  have sum : UInt64.ofNat (sys.vacant sem) + UInt64.ofNat (sys.taken sem) =
      start sem + UInt64.ofNat (sys.released sem) := by
    apply UInt64.toNat.inj
    simpa [UInt64.toNat_add, Nat.ModEq] using account
  rw [← sum, UInt64.add_sub_cancel]

/-- A section of `aquire` takes a unit that is there, or takes none. -/
theorem aquire_vacant
    {worker : Worker}
    {sem : SemId}
    (stepped : sys.step config (.aquire worker sem) = some after) :
    (after.vacant sem + 1 = sys.vacant sem ∧ after.taken sem = sys.taken sem + 1) ∨
      (sys.vacant sem = 0 ∧ after.vacant sem = 0 ∧ after.taken sem = sys.taken sem) := by
  cases Change.of_step stepped with
  | take worker sem task runs free entering vacant =>
      refine .inl ⟨?_, by simp [take]⟩
      simp only [take, Function.update_self]
      omega
  | refuse worker sem task runs free entering gone unheld => exact .inr ⟨gone, gone, rfl⟩

/-! ## Mutexes -/

/-- A release of the semaphore is by a task that holds a unit. -/
def byHolder (sem : SemId) (transition : Lib.Transition System Action) : Bool :=
  match transition.label with
  | .release other (some task) => other != sem || task ∈ transition.before.holders sem
  | .release other none => other != sem
  | _ => true

/-- Either the one unit is vacant or it has one holder. -/
def OneUnit (sem : SemId) (sys : System) : Prop :=
  sys.vacant sem + (sys.holders sem).length = 1

/-- A semaphore with one unit keeps it while only holders release. -/
private theorem one_unit
    {transitions : List (Lib.Transition System Action)}
    (path : Lib.Path (step config) (initial start) transitions sys)
    {sem : SemId}
    (one : start sem = 1)
    (byHolders : ∀ transition ∈ transitions, byHolder sem transition = true) :
    OneUnit sem sys := by
  refine path.guarded_invariant byHolders ?_ ?_
  · simp [OneUnit, initial, one]
  · intro before action after _ unit guarded stepped
    simp only [OneUnit] at unit ⊢
    cases Change.of_step stepped with
    | take worker other task runs free entering vacant =>
        by_cases same : sem = other
        · subst same
          simp only [take, Function.update_self, List.length_cons]
          omega
        · simpa [take, same] using unit
    | release other holder free unheld =>
        by_cases same : sem = other
        · subst same
          cases holder with
          | none => simp [byHolder] at guarded
          | some task =>
              have member : task ∈ before.holders sem := by simpa [byHolder] using guarded
              have fewer := List.length_erase_of_mem member
              have positive := List.length_pos_of_mem member
              have empty : before.vacant sem = 0 := by omega
              simp only [release, Function.update_self, empty, sizeBound]
              omega
        · cases holder with
          | none => simpa [release, same] using unit
          | some task => simpa [release, same] using unit
    | _ => exact unit

end System

/-- What a semaphore promises in a run. -/
structure Counted
    (config : Config)
    (start : SemId → UInt64)
    (transitions : List (Lib.Transition System Action))
    (sys : System)
    (sem : SemId) : Prop where
  /-- The account, in the arithmetic of `size_t`. -/
  account : UInt64.ofNat (sys.vacant sem) =
    start sem + UInt64.ofNat (sys.released sem) - UInt64.ofNat (sys.taken sem)
  /-- The account without overflow. -/
  exact_account : (start sem).toNat + sys.released sem < sizeBound →
    sys.vacant sem = (start sem).toNat + sys.released sem - sys.taken sem ∧
      sys.taken sem ≤ (start sem).toNat + sys.released sem
  /-- A call of `aquire` that completes finds a unit to take. -/
  never_below : ∀ worker after, sys.step config (.aquire worker sem) = some after →
    (after.vacant sem + 1 = sys.vacant sem ∧ after.taken sem = sys.taken sem + 1) ∨
      (sys.vacant sem = 0 ∧ after.vacant sem = 0 ∧ after.taken sem = sys.taken sem)
  /-- A mutex that only its holders unlock has one holder at most. -/
  mutex : start sem = 1 →
    (∀ transition ∈ transitions, System.byHolder sem transition = true) →
      (sys.holders sem).length ≤ 1
  /-- While no context is shut down and a waiter is blocked, the waiters on the
  way are at least as many as the vacant units. -/
  no_lost_wakeup : (∀ ctx, sys.sched.finished ctx = false) →
    (sys.sched.cond sem).blocked ≠ [] →
      ∃ onTheWay : List TaskId, onTheWay.Nodup ∧
        (∀ task, task ∈ onTheWay ↔ sys.OnTheWay sem task) ∧
        sys.vacant sem ≤ onTheWay.length

/-- Every semaphore keeps its promise, in every run of any number of contexts,
workers, coroutines and releasing threads. -/
theorem semaphore_counted
    (config : Config)
    (start : SemId → UInt64)
    {transitions : List (Lib.Transition System Action)}
    {sys : System}
    (path : Lib.Path (System.step config) (.initial start) transitions sys)
    (sem : SemId) :
    Counted config start transitions sys sem := by
  have reached : sys.Reached config start := ⟨transitions, path⟩
  have balanced := System.balanced_of_reached reached sem
  have notified := Notified.of_reached reached
  refine ⟨System.vacant_eq reached sem, fun small => ?_,
    fun worker after => System.aquire_vacant, fun one byHolders => ?_, fun running blocked => ?_⟩
  · have account : sys.vacant sem + sys.taken sem = (start sem).toNat + sys.released sem :=
      balanced.exact_account small
    omega
  · have unit := System.one_unit path one byHolders
    simp only [System.OneUnit] at unit
    omega
  · obtain ⟨waiter, waits⟩ := List.exists_mem_of_ne_nil _ blocked
    have covered := System.covered_of_running reached running sem
    exact ⟨_, notified.nodup sem, notified.mem_iff_onTheWay sem,
      covered ⟨waiter, waits, trivial⟩⟩

/-- One worker in each context. -/
def oneWorker : Config := ⟨fun _ => 1, fun _ => Nat.one_pos⟩

/-- Task 0 locks the mutex and yields; tasks 1 and 2 block; task 0 unlocks. -/
private def contention : List Action :=
  [.sched (.create 0 0), .sched (.push 0), .sched (.create 0 0), .sched (.push 0),
    .sched (.create 0 0), .sched (.push 0),
    .sched (.pop ⟨0, 0⟩ 0), .sched (.resume ⟨0, 0⟩), .aquire ⟨0, 0⟩ 5,
    .sched (.pause ⟨0, 0⟩ .yield), .sched (.settle ⟨0, 0⟩),
    .sched (.pop ⟨0, 0⟩ 0), .sched (.resume ⟨0, 0⟩), .aquire ⟨0, 0⟩ 5, .sched (.settle ⟨0, 0⟩),
    .sched (.pop ⟨0, 0⟩ 0), .sched (.resume ⟨0, 0⟩), .aquire ⟨0, 0⟩ 5, .sched (.settle ⟨0, 0⟩),
    .sched (.pop ⟨0, 0⟩ 0), .sched (.resume ⟨0, 0⟩), .release 5 (some ⟨0, 0⟩)]

/-- The state after it. -/
private def contended : System :=
  Lib.runFrom (System.step oneWorker) (.initial fun _ => 1) contention

theorem semaphore_counted_sample :
    Counted oneWorker (fun _ => 1)
        (Lib.trace (System.step oneWorker) (.initial fun _ => 1) contention) contended 5 ∧
      contended.vacant 5 = 1 ∧ (contended.sched.cond 5).blocked = [⟨0, 2⟩] ∧
      (contended.sched.cond 5).notified = [⟨0, 1⟩] := by
  refine ⟨semaphore_counted oneWorker (fun _ => 1) ?_ 5, by decide, by decide, by decide⟩
  exact Lib.path_runFrom (by decide)

end Schedule
end Cgo
