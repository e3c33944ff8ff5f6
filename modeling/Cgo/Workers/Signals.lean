import Cgo.Workers.System

/-!
# The signals of the workers

A worker attaches its signal to its runnable queue and to its timer slot, and takes
it back from the queue only.  It sleeps in `epoll_wait` and never in
`BaseLazySignal::wait`, so `emit` always finds `_waited` false.
-/

namespace Cgo
namespace Workers
namespace Context

variable {workers : Nat} {ctx before after : Context} {label : Label}

/-! ## One step -/

/-- What a step does to the places of the workers and to what refers to their signals. -/
inductive Turn (before after : Context) : Prop
  | moves (worker : Index) (target : Pc) :
      after.pc = Function.update before.pc worker target →
      (before.pc worker).stage ≤ target.stage →
      target.stage ≤ (before.pc worker).stage + 1 →
      (before.pc worker).stage ∉ [1, 2, 8] →
      after.schedSignal = before.schedSignal → after.timedSignal = before.timedSignal →
      after.signals = before.signals → after.emits = before.emits →
      Turn before after
  | onScheduled (worker : Index) :
      before.pc worker = .constructed →
      after.pc = Function.update before.pc worker .onScheduled →
      after.schedSignal = Function.update before.schedSignal worker (some worker) →
      after.timedSignal = before.timedSignal →
      after.signals = before.signals → after.emits = before.emits →
      Turn before after
  | onTimeout (worker : Index) :
      before.pc worker = .onScheduled →
      after.pc = Function.update before.pc worker .onTimeout →
      after.schedSignal = before.schedSignal →
      after.timedSignal = Function.update before.timedSignal worker (some worker) →
      after.signals = before.signals → after.emits = before.emits →
      Turn before after
  | detach (worker : Index) :
      before.pc worker = .closed →
      after.pc = Function.update before.pc worker .detached →
      after.schedSignal = Function.update before.schedSignal worker none →
      after.timedSignal = before.timedSignal →
      after.signals = before.signals → after.emits = before.emits →
      Turn before after
  | stays :
      after.pc = before.pc →
      after.schedSignal = before.schedSignal → after.timedSignal = before.timedSignal →
      after.signals = before.signals → after.emits = before.emits →
      Turn before after
  | emit (worker : Index) :
      after.pc = before.pc →
      after.schedSignal = before.schedSignal → after.timedSignal = before.timedSignal →
      after.signals = Function.update before.signals worker (before.signals worker).emit →
      after.emits = Function.update before.emits worker
        (before.emits worker + if (before.signals worker).emits then 1 else 0) →
      Turn before after

theorem afterBranch_stage (ctx : Context) (worker : Index) (flag : Bool) (now : Time) :
    (ctx.afterBranch worker flag now).stage = 5 := by
  unfold afterBranch
  split
  · split <;> rfl
  · rfl

/-- A move of one worker that attaches nothing. -/
theorem turn_of_move
    {worker : Index}
    {origin target : Pc}
    (at_ : before.pc worker = origin)
    (moved : after.pc = Function.update before.pc worker target)
    (forward : origin.stage ≤ target.stage ∧ target.stage ≤ origin.stage + 1 ∧
      origin.stage ∉ [1, 2, 8])
    (kept : after.schedSignal = before.schedSignal ∧ after.timedSignal = before.timedSignal ∧
      after.signals = before.signals ∧ after.emits = before.emits) :
    Turn before after := by
  subst at_
  exact .moves worker target moved forward.1 forward.2.1 forward.2.2 kept.1 kept.2.1 kept.2.2.1
    kept.2.2.2

theorem turn_of_step
    (stepped : step workers before label = some after) :
    Turn before after := by
  cases label with
  | construct worker =>
      simp only [step] at stepped
      split at stepped
      · next enabled =>
          obtain rfl := Option.some.inj stepped
          exact turn_of_move enabled.2 rfl (by decide) ⟨rfl, rfl, rfl, rfl⟩
      · cases stepped
  | onScheduled worker =>
      simp only [step] at stepped
      split at stepped
      · next at_ =>
          obtain rfl := Option.some.inj stepped
          exact .onScheduled worker at_ rfl rfl rfl rfl rfl
      · cases stepped
  | onTimeout worker =>
      simp only [step] at stepped
      split at stepped
      · next at_ =>
          obtain rfl := Option.some.inj stepped
          exact .onTimeout worker at_ rfl rfl rfl rfl rfl
      · cases stepped
  | arrive worker =>
      simp only [step] at stepped
      split at stepped
      · next at_ =>
          obtain rfl := Option.some.inj stepped
          exact turn_of_move at_ rfl (by decide) ⟨rfl, rfl, rfl, rfl⟩
      · cases stepped
  | pass worker now =>
      simp only [step] at stepped
      split at stepped
      · next enabled =>
          obtain rfl := Option.some.inj stepped
          exact turn_of_move enabled.1 rfl (by decide) ⟨rfl, rfl, rfl, rfl⟩
      · cases stepped
  | loop worker =>
      simp only [step] at stepped
      split at stepped
      · next at_ =>
          obtain rfl := Option.some.inj stepped
          refine turn_of_move at_ rfl ?_ ⟨rfl, rfl, rfl, rfl⟩
          cases before.finished <;> decide
      · cases stepped
  | runTask worker partition =>
      simp only [step] at stepped
      split at stepped
      · next ran task rest at_ queued =>
          obtain rfl := Option.some.inj stepped
          exact turn_of_move at_ rfl (by simp [Pc.stage]) ⟨rfl, rfl, rfl, rfl⟩
      · cases stepped
  | endScheduled worker =>
      simp only [step] at stepped
      split at stepped
      · next ran at_ =>
          obtain rfl := Option.some.inj stepped
          exact turn_of_move at_ rfl (by simp [Pc.stage]) ⟨rfl, rfl, rfl, rfl⟩
      · cases stepped
  | runTimer worker slot timer now =>
      simp only [step] at stepped
      split at stepped
      · next schedFlag ran at_ =>
          split at stepped
          · obtain rfl := Option.some.inj stepped
            exact turn_of_move at_ rfl (by simp [Pc.stage]) ⟨rfl, rfl, rfl, rfl⟩
          · cases stepped
      · cases stepped
  | endTimeout worker =>
      simp only [step] at stepped
      split at stepped
      · next schedFlag ran at_ =>
          obtain rfl := Option.some.inj stepped
          exact turn_of_move at_ rfl (by simp [Pc.stage]) ⟨rfl, rfl, rfl, rfl⟩
      · cases stepped
  | branch worker now =>
      simp only [step] at stepped
      split at stepped
      · next flag at_ =>
          obtain rfl := Option.some.inj stepped
          refine turn_of_move at_ rfl ?_ ⟨rfl, rfl, rfl, rfl⟩
          rw [afterBranch_stage]
          simp [Pc.stage]
      · cases stepped
  | endHandler worker now =>
      simp only [step] at stepped
      split at stepped
      · next timeout at_ =>
          obtain rfl := Option.some.inj stepped
          exact turn_of_move at_ rfl (by simp [Pc.stage]) ⟨rfl, rfl, rfl, rfl⟩
      · cases stepped
  | stop worker =>
      simp only [step] at stepped
      split at stepped
      · next enabled =>
          obtain rfl := Option.some.inj stepped
          exact turn_of_move enabled.1 rfl (by decide) ⟨rfl, rfl, rfl, rfl⟩
      · cases stepped
  | close worker =>
      simp only [step] at stepped
      split at stepped
      · next at_ =>
          obtain rfl := Option.some.inj stepped
          exact turn_of_move at_ rfl (by decide) ⟨rfl, rfl, rfl, rfl⟩
      · cases stepped
  | detach worker =>
      simp only [step] at stepped
      split at stepped
      · next at_ =>
          obtain rfl := Option.some.inj stepped
          exact .detach worker at_ rfl rfl rfl rfl rfl
      · cases stepped
  | «return» worker =>
      simp only [step] at stepped
      split at stepped
      · next at_ =>
          obtain rfl := Option.some.inj stepped
          exact turn_of_move at_ rfl (by decide) ⟨rfl, rfl, rfl, rfl⟩
      · cases stepped
  | shutdown =>
      obtain rfl := Option.some.inj stepped
      exact .stays rfl rfl rfl rfl rfl
  | push thread id =>
      simp only [step] at stepped
      split at stepped
      · obtain rfl := Option.some.inj stepped
        exact .stays rfl rfl rfl rfl rfl
      · cases stepped
  | createTimeout thread ex =>
      simp only [step] at stepped
      split at stepped
      · obtain rfl := Option.some.inj stepped
        exact .stays rfl rfl rfl rfl rfl
      · cases stepped
  | emit thread =>
      simp only [step] at stepped
      split at stepped
      · cases stepped
      · next worker inside =>
          obtain rfl := Option.some.inj stepped
          exact .emit worker rfl rfl rfl rfl rfl

/-! ## No signal is emitted -/

/-- Nobody waits for a signal, and none was emitted. -/
def Silent (ctx : Context) : Prop :=
  ∀ worker, (ctx.signals worker).waited = false ∧ ctx.emits worker = 0

theorem Silent.of_same
    (silent : Silent before)
    (signals : after.signals = before.signals)
    (emits : after.emits = before.emits) :
    Silent after := by
  intro worker
  rw [signals, emits]
  exact silent worker

/-- What a step preserves: only `BaseLazySignal::wait` sets `_waited`, and no worker
calls it. -/
theorem Silent.turn
    (silent : Silent before)
    (turn : Turn before after) :
    Silent after := by
  cases turn with
  | moves _ _ _ _ _ _ _ _ signals emits => exact silent.of_same signals emits
  | onScheduled _ _ _ _ _ signals emits => exact silent.of_same signals emits
  | onTimeout _ _ _ _ _ signals emits => exact silent.of_same signals emits
  | detach _ _ _ _ _ signals emits => exact silent.of_same signals emits
  | stays _ _ _ signals emits => exact silent.of_same signals emits
  | emit signalled _ _ _ signals emits =>
      intro worker
      obtain ⟨unwaited, never⟩ := silent signalled
      have no : (before.signals signalled).emits = false := by
        rw [LazySignal.emits, unwaited, Bool.false_and]
      rcases eq_or_ne worker signalled with rfl | apart
      · rw [signals, emits]
        simp [LazySignal.emit, no, unwaited, never]
      · rw [signals, emits, Function.update_of_ne apart, Function.update_of_ne apart]
        exact silent worker

theorem silent_of_reached (reached : ctx.Reached workers) : Silent ctx :=
  reached.invariant (fun _ => ⟨rfl, rfl⟩) fun _ _ _ silent stepped =>
    silent.turn (turn_of_step stepped)

/-- The worker is inside `run_handler` with a timeout other than 0. -/
def Asleep (ctx : Context) (worker : Index) : Prop :=
  ∃ timeout, 0 < timeout ∧ ctx.pc worker = .handler timeout

/-- A task is pushed to the queue of the worker, or a timer to its slot that is earlier
than all timers there. -/
def PushesFor (workers : Nat) (ctx : Context) (worker : Index) : Label → Prop
  | .push _ id => id % workers = worker
  | .createTimeout _ ex => ctx.tid % workers = worker ∧ ctx.Earliest worker ex
  | _ => False

/-- After this step `_emit` can be called on the signal of the worker. -/
def Wakes (workers : Nat) (ctx : Context) (worker : Index) (label : Label) : Prop :=
  ∃ middle after, step workers ctx label = some middle ∧
    Lib.Reachable (step workers) middle after ∧ ctx.emits worker < after.emits worker

/-- In no reachable state does a push to a worker, asleep or not, lead to a call of
`_emit` on its signal, then or ever after. -/
theorem push_never_wakes
    (reached : ctx.Reached workers)
    (worker : Index)
    (label : Label) :
    ¬ ctx.Wakes workers worker label := by
  rintro ⟨middle, after, stepped, later, more⟩
  have silent := silent_of_reached ((reached.tail stepped).trans later)
  rw [(silent worker).2] at more
  exact Nat.not_lt_zero _ more

/-- The only worker of a context goes to sleep for 50 ms. -/
private def fallsAsleep : List Label :=
  [.construct 0, .onScheduled 0, .onTimeout 0, .arrive 0, .pass 0 0, .loop 0, .endScheduled 0,
    .endTimeout 0, .branch 0 1000]

theorem push_never_wakes_sample :
    ¬ (Lib.runFrom (step 1) initial fallsAsleep).Wakes 1 0 (.push 0 0) :=
  push_never_wakes (Lib.Reachable.runFrom _ _ _) 0 (.push 0 0)

/-- A task that is pushed then does not wake it. -/
theorem sleeping_worker_not_woken :
    ¬∀ (workers : Nat) (ctx : Context), ctx.Reached workers →
      ∀ (worker : Index) (label : Label), ctx.Asleep worker →
        ctx.PushesFor workers worker label → (step workers ctx label).isSome →
          ctx.Wakes workers worker label := by
  intro wakes
  let asleep : Context := Lib.runFrom (step 1) initial fallsAsleep
  have reached : asleep.Reached 1 := Lib.Reachable.runFrom _ _ _
  obtain ⟨middle, after, stepped, later, more⟩ :=
    wakes 1 asleep reached 0 (.push 0 0) ⟨50, by decide, by decide⟩ rfl (by decide)
  rw [(silent_of_reached ((reached.tail stepped).trans later) 0).2] at more
  exact Nat.not_lt_zero _ more

/-! ## Who refers to a signal -/

/-- Queues refer to the signal of their own worker between `on_scheduled` and
`final_schedule`, and timer slots to that of their own worker from `on_timeout` on. -/
structure Attached (ctx : Context) : Prop where
  sched : ∀ {partition worker}, ctx.schedSignal partition = some worker →
    worker = partition ∧ (ctx.pc worker).stage ≤ 8
  timed : ∀ worker, 3 ≤ (ctx.pc worker).stage → ctx.timedSignal worker = some worker

namespace Attached

theorem initial : Attached Context.initial where
  sched := by simp [Context.initial]
  timed := by simp [Context.initial, Pc.stage]

/-- No worker passes `final_schedule` when one moves to a point before it. -/
theorem before_end
    {worker other : Index}
    {target : Pc}
    (pc : after.pc = Function.update before.pc worker target)
    (kept : (before.pc worker).stage ≤ 8 → target.stage ≤ 8)
    (earlier : (before.pc other).stage ≤ 8) :
    (after.pc other).stage ≤ 8 := by
  rw [pc]
  rcases eq_or_ne other worker with rfl | apart
  · rw [Function.update_self]
    exact kept earlier
  · rwa [Function.update_of_ne apart]

/-- Who has passed `on_timeout` had done so when the worker that moves does not pass
it now. -/
theorem past_onTimeout
    {worker other : Index}
    {target : Pc}
    (pc : after.pc = Function.update before.pc worker target)
    (kept : 3 ≤ target.stage → 3 ≤ (before.pc worker).stage)
    (later : 3 ≤ (after.pc other).stage) :
    3 ≤ (before.pc other).stage := by
  rw [pc] at later
  rcases eq_or_ne other worker with rfl | apart
  · rw [Function.update_self] at later
    exact kept later
  · rwa [Function.update_of_ne apart] at later

/-- What a step preserves. -/
theorem turn
    (attached : Attached before)
    (turn : Turn before after) :
    Attached after := by
  cases turn with
  | moves worker target pc low high ordinary schedSignal timedSignal =>
      simp only [List.mem_cons, List.not_mem_nil, or_false, not_or] at ordinary
      constructor
      · intro partition other refers
        rw [schedSignal] at refers
        obtain ⟨rfl, earlier⟩ := attached.sched refers
        exact ⟨rfl, before_end pc (by omega) earlier⟩
      · intro other from3
        rw [timedSignal]
        exact attached.timed other (past_onTimeout pc (by omega) from3)
  | onScheduled worker at_ pc schedSignal timedSignal =>
      constructor
      · intro partition other refers
        rw [schedSignal] at refers
        rcases eq_or_ne partition worker with rfl | apart
        · rw [Function.update_self] at refers
          obtain rfl := Option.some.inj refers
          exact ⟨rfl, by rw [pc, Function.update_self]; decide⟩
        · rw [Function.update_of_ne apart] at refers
          obtain ⟨rfl, earlier⟩ := attached.sched refers
          exact ⟨rfl, before_end pc (fun _ => by decide) earlier⟩
      · intro other from3
        rw [timedSignal]
        exact attached.timed other (past_onTimeout pc (by simp [Pc.stage]) from3)
  | onTimeout worker at_ pc schedSignal timedSignal =>
      constructor
      · intro partition other refers
        rw [schedSignal] at refers
        obtain ⟨rfl, earlier⟩ := attached.sched refers
        exact ⟨rfl, before_end pc (fun _ => by decide) earlier⟩
      · intro other from3
        rw [pc] at from3
        rw [timedSignal]
        rcases eq_or_ne other worker with rfl | apart
        · rw [Function.update_self]
        · rw [Function.update_of_ne apart] at from3 ⊢
          exact attached.timed other from3
  | detach worker at_ pc schedSignal timedSignal =>
      constructor
      · intro partition other refers
        rw [schedSignal] at refers
        rcases eq_or_ne partition worker with rfl | apart
        · rw [Function.update_self] at refers
          cases refers
        · rw [Function.update_of_ne apart] at refers
          obtain ⟨rfl, earlier⟩ := attached.sched refers
          exact ⟨rfl, by rwa [pc, Function.update_of_ne apart]⟩
      · intro other from3
        rw [timedSignal]
        apply attached.timed
        apply past_onTimeout pc _ from3
        intro _
        rw [at_]
        decide
  | stays pc schedSignal timedSignal =>
      constructor
      · rw [pc, schedSignal]
        exact attached.sched
      · rw [pc, timedSignal]
        exact attached.timed
  | emit _ pc schedSignal timedSignal =>
      constructor
      · rw [pc, schedSignal]
        exact attached.sched
      · rw [pc, timedSignal]
        exact attached.timed

theorem of_reached (reached : ctx.Reached workers) : Attached ctx :=
  reached.invariant initial fun _ _ _ attached stepped => attached.turn (turn_of_step stepped)

end Attached

/-- `_signal` of a runnable queue or of a timer slot is the signal of the worker. -/
def Refers (ctx : Context) (worker : Index) : Prop :=
  ∃ partition, ctx.schedSignal partition = some worker ∨ ctx.timedSignal partition = some worker

/-- A push that is about to call `emit` does so on the signal of the worker. -/
def Pushes (ctx : Context) (worker : Index) : Prop :=
  ∃ thread, ctx.pushing thread = some worker

/-- In every reachable state no runnable queue refers to the signal of a worker that
has returned; and no timer slot does either exactly as long as no worker has
returned.  As long as that is so, no push is about to use the signal of such a worker. -/
theorem signals_outlived_iff
    (reached : ctx.Reached workers) :
    (∀ partition worker, ctx.schedSignal partition = some worker →
        ctx.pc worker ≠ .returned) ∧
      ((∀ worker, ctx.Refers worker → ctx.pc worker ≠ .returned) ↔
        ∀ worker, ctx.pc worker ≠ .returned) ∧
      ((∀ worker, ctx.Refers worker → ctx.pc worker ≠ .returned) →
        ∀ worker, ctx.Pushes worker → ctx.pc worker ≠ .returned) := by
  have attached := Attached.of_reached reached
  have outlives : (∀ worker, ctx.Refers worker → ctx.pc worker ≠ .returned) →
      ∀ worker, ctx.pc worker ≠ .returned := by
    intro outlived worker returned
    have dangling := attached.timed worker (by rw [returned]; decide)
    exact outlived worker ⟨worker, .inr dangling⟩ returned
  refine ⟨?_, ⟨outlives, fun none_ worker _ => none_ worker⟩,
    fun outlived worker _ => outlives outlived worker⟩
  intro partition worker refers returned
  have early := (attached.sched refers).2
  rw [returned] at early
  exact absurd early (by decide)

/-- The context is started and shut down. -/
private def startedAndStopped : List Label :=
  [.construct 0, .onScheduled 0, .onTimeout 0, .arrive 0, .pass 0 0, .shutdown, .loop 0, .stop 0,
    .close 0, .detach 0, .return 0]

theorem signals_outlived_iff_sample :
    let ctx := Lib.runFrom (step 1) initial startedAndStopped
    ¬∀ worker, ctx.Refers worker → ctx.pc worker ≠ .returned := by
  intro ctx outlived
  have returned := (signals_outlived_iff (Lib.Reachable.runFrom (step 1) initial
    startedAndStopped)).2.1.mp outlived 0
  exact returned (by decide)

/-- `final_schedule` takes the signal out of the runnable queue, but a push that has read it
before still calls `emit` on it. -/
example :
    let ctx := Lib.runFrom (step 1) initial
      [.construct 0, .onScheduled 0, .onTimeout 0, .arrive 0, .pass 0 0, .push 7 0, .shutdown,
        .loop 0, .stop 0, .close 0, .detach 0, .return 0]
    ctx.pushing 7 = some 0 ∧ ctx.pc 0 = .returned ∧ ctx.schedSignal 0 = none := by
  decide

/-- The timer slot of its worker still refers to the signal. -/
theorem slot_outlives_signal :
    ¬∀ (workers : Nat) (ctx : Context), ctx.Reached workers →
      ∀ worker, ctx.Refers worker → ctx.pc worker ≠ .returned := by
  intro outlived
  refine outlived 1 (Lib.runFrom (step 1) initial startedAndStopped)
    (Lib.Reachable.runFrom _ _ _) 0 ⟨0, .inr ?_⟩ ?_ <;> decide

end Context
end Workers
end Cgo
