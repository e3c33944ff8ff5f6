import Cgo.Workers.System

/-!
# When a worker sleeps

Each pass of the loop in `_run` runs tasks and timers, and ends with `run_handler`, which
may sleep, or without it.  What the branch at the end decides is said here by what the
worker has done in the run, and not by the flags in which it remembers that.
-/

namespace Cgo
namespace Workers

variable {workers : Nat} {worker : Index}

/-! ## What a worker has done -/

/-- Whether the worker has run something in its pass, after the step. -/
def Context.Label.works (worker : Index) (worked : Bool) : Context.Label → Bool
  | .loop other => other != worker && worked
  | .runTask other _ => other == worker || worked
  | .runTimer other _ _ _ => other == worker || worked
  | _ => worked

/-- When the worker last came back from `run_handler`, or came to the loop. -/
def Context.Label.handles (worker : Index) (time : Time) : Context.Label → Time
  | .pass other now => if other = worker then now else time
  | .endHandler other now => if other = worker then now else time
  | _ => time

/-- The worker has run a task or a timer since it was last at the head of the loop. -/
def workedIn (worker : Index) (taken : List (Lib.Transition Context Context.Label)) : Bool :=
  taken.foldl (fun worked transition => transition.label.works worker worked) false

/-- The time at which the worker last came back from `run_handler` in the run. -/
def handledIn (worker : Index) (taken : List (Lib.Transition Context Context.Label)) : Time :=
  taken.foldl (fun time transition => transition.label.handles worker time) 0

/-- What the flags say inside a pass. -/
def Pc.flag? : Pc → Option Bool
  | .scheduled ran => some ran
  | .timed schedFlag ran => some (schedFlag || ran)
  | .branch flag => some flag
  | _ => none

namespace Context

variable {before after : Context} {worked : Bool} {handled : Time}

/-- The flags and `last_handle_time` of a worker say what it has done. -/
structure Passing (worker : Index) (worked : Bool) (handled : Time) (ctx : Context) :
    Prop where
  flag : ∀ flag, (ctx.pc worker).flag? = some flag → worked = flag
  last : ctx.lastHandle worker = handled

namespace Passing

theorem initial : Passing worker false 0 .initial where
  flag := by simp [Context.initial, Pc.flag?]
  last := rfl

/-- A worker moves, and this one has run something exactly if its flags then say so. -/
theorem of_goto
    {other : Index}
    {target : Pc}
    {works : Bool}
    (passing : Passing worker worked handled before)
    (pc : after.pc = Function.update before.pc other target)
    (last : after.lastHandle = before.lastHandle)
    (here : other = worker → ∀ flag, target.flag? = some flag → works = flag)
    (elsewhere : other ≠ worker → works = worked) :
    Passing worker works handled after where
  flag flag is := by
    rw [pc] at is
    by_cases same : other = worker
    · subst same
      exact here rfl flag (by simpa using is)
    · rw [elsewhere same]
      exact passing.flag flag (by simpa [Ne.symm same] using is)
  last := (congrFun last worker).trans passing.last

/-- A worker is where its flags say nothing. -/
theorem of_outside
    {other : Index}
    {target : Pc}
    (passing : Passing worker worked handled before)
    (pc : after.pc = Function.update before.pc other target)
    (last : after.lastHandle = before.lastHandle)
    (outside : target.flag? = none) :
    Passing worker worked handled after :=
  passing.of_goto pc last (by simp [outside]) fun _ => rfl

/-- A worker goes on in its pass with the flags it had. -/
theorem of_onward
    {other : Index}
    {origin target : Pc}
    (passing : Passing worker worked handled before)
    (at_ : before.pc other = origin)
    (pc : after.pc = Function.update before.pc other target)
    (last : after.lastHandle = before.lastHandle)
    (same : target.flag? = origin.flag?) :
    Passing worker worked handled after := by
  refine passing.of_goto pc last ?_ fun _ => rfl
  rintro rfl flag is
  exact passing.flag flag (by rw [at_, ← same, is])

/-- A worker reads the clock and goes to the head of the loop. -/
theorem of_clock
    {other : Index}
    {now : Time}
    (passing : Passing worker worked handled before) :
    Passing worker worked (if other = worker then now else handled)
      { before.goto other .loop with
        lastHandle := Function.update before.lastHandle other now } where
  flag flag is := by
    by_cases same : other = worker
    · subst same
      simp [goto, Pc.flag?] at is
    · exact passing.flag flag (by simpa [goto, Ne.symm same] using is)
  last := by
    by_cases same : other = worker
    · subst same
      simp
    · simpa [same, Ne.symm same] using passing.last

/-- Nobody moves. -/
theorem of_stay
    (passing : Passing worker worked handled before)
    (pc : after.pc = before.pc)
    (last : after.lastHandle = before.lastHandle) :
    Passing worker worked handled after :=
  ⟨by simpa [pc] using passing.flag, (congrFun last worker).trans passing.last⟩

theorem afterBranch_flag (ctx : Context) (worker : Index) (flag : Bool) (now : Time) :
    (ctx.afterBranch worker flag now).flag? = none := by
  unfold afterBranch
  split
  · split <;> rfl
  · rfl

/-- What a step preserves. -/
theorem step
    {label : Label}
    (passing : Passing worker worked handled before)
    (stepped : before.step workers label = some after) :
    Passing worker (label.works worker worked) (label.handles worker handled) after := by
  cases label with
  | construct other =>
      simp only [Context.step] at stepped
      split at stepped
      · obtain rfl := Option.some.inj stepped
        exact passing.of_outside rfl rfl rfl
      · cases stepped
  | onScheduled other =>
      simp only [Context.step] at stepped
      split at stepped
      · obtain rfl := Option.some.inj stepped
        exact passing.of_outside rfl rfl rfl
      · cases stepped
  | onTimeout other =>
      simp only [Context.step] at stepped
      split at stepped
      · obtain rfl := Option.some.inj stepped
        exact passing.of_outside rfl rfl rfl
      · cases stepped
  | arrive other =>
      simp only [Context.step] at stepped
      split at stepped
      · obtain rfl := Option.some.inj stepped
        exact passing.of_outside rfl rfl rfl
      · cases stepped
  | pass other now =>
      simp only [Context.step] at stepped
      split at stepped
      · obtain rfl := Option.some.inj stepped
        exact passing.of_clock
      · cases stepped
  | loop other =>
      simp only [Context.step] at stepped
      split at stepped
      · obtain rfl := Option.some.inj stepped
        refine passing.of_goto rfl rfl ?_ fun apart => by simp [Label.works, apart]
        rintro rfl flag is
        split at is
        · cases is
        · obtain rfl := Option.some.inj is
          simp [Label.works]
      · cases stepped
  | runTask other partition =>
      simp only [Context.step] at stepped
      split at stepped
      · obtain rfl := Option.some.inj stepped
        refine passing.of_goto rfl rfl ?_ fun apart => by simp [Label.works, apart]
        rintro rfl flag is
        obtain rfl := Option.some.inj is
        simp [Label.works]
      · cases stepped
  | endScheduled other =>
      simp only [Context.step] at stepped
      split at stepped
      · next ran at_ =>
          obtain rfl := Option.some.inj stepped
          exact passing.of_onward at_ rfl rfl (by simp [Pc.flag?])
      · cases stepped
  | runTimer other slot timer now =>
      simp only [Context.step] at stepped
      split at stepped
      · split at stepped
        · obtain rfl := Option.some.inj stepped
          refine passing.of_goto rfl rfl ?_ fun apart => by simp [Label.works, apart]
          rintro rfl flag is
          simp only [Pc.flag?, Bool.or_true, Option.some.injEq] at is
          simp [Label.works, is]
        · cases stepped
      · cases stepped
  | endTimeout other =>
      simp only [Context.step] at stepped
      split at stepped
      · next schedFlag ran at_ =>
          obtain rfl := Option.some.inj stepped
          exact passing.of_onward at_ rfl rfl rfl
      · cases stepped
  | branch other now =>
      simp only [Context.step] at stepped
      split at stepped
      · obtain rfl := Option.some.inj stepped
        exact passing.of_outside rfl rfl (afterBranch_flag before other _ now)
      · cases stepped
  | endHandler other now =>
      simp only [Context.step] at stepped
      split at stepped
      · obtain rfl := Option.some.inj stepped
        exact passing.of_clock
      · cases stepped
  | stop other =>
      simp only [Context.step] at stepped
      split at stepped
      · obtain rfl := Option.some.inj stepped
        exact passing.of_outside rfl rfl rfl
      · cases stepped
  | close other =>
      simp only [Context.step] at stepped
      split at stepped
      · obtain rfl := Option.some.inj stepped
        exact passing.of_outside rfl rfl rfl
      · cases stepped
  | detach other =>
      simp only [Context.step] at stepped
      split at stepped
      · obtain rfl := Option.some.inj stepped
        exact passing.of_outside rfl rfl rfl
      · cases stepped
  | «return» other =>
      simp only [Context.step] at stepped
      split at stepped
      · obtain rfl := Option.some.inj stepped
        exact passing.of_outside rfl rfl rfl
      · cases stepped
  | shutdown =>
      obtain rfl := Option.some.inj stepped
      exact passing.of_stay rfl rfl
  | push thread id =>
      simp only [Context.step] at stepped
      split at stepped
      · obtain rfl := Option.some.inj stepped
        exact passing.of_stay rfl rfl
      · cases stepped
  | createTimeout thread ex =>
      simp only [Context.step] at stepped
      split at stepped
      · obtain rfl := Option.some.inj stepped
        exact passing.of_stay rfl rfl
      · cases stepped
  | emit thread =>
      simp only [Context.step] at stepped
      split at stepped
      · cases stepped
      · obtain rfl := Option.some.inj stepped
        exact passing.of_stay rfl rfl

/-- The flags of a worker say what it has done in the run. -/
theorem of_path
    {taken : List (Lib.Transition Context Label)}
    {ctx : Context}
    (path : Lib.Path (Context.step workers) .initial taken ctx) :
    Passing worker (workedIn worker taken) (handledIn worker taken) ctx := by
  induction path with
  | nil => exact initial
  | snoc _ stepped inductionHypothesis =>
      simpa [workedIn, handledIn] using inductionHypothesis.step stepped

end Passing

/-! ## What the branch decides -/

theorem nextScheduleTime_eq_none_iff {ctx : Context} :
    ctx.nextScheduleTime worker = none ↔ ctx.timers worker = [] := by
  simp [nextScheduleTime]

/-- `next_schedule_time` is the earliest expiry. -/
theorem mem_of_nextScheduleTime
    {ctx : Context}
    {next : Time}
    (isNext : ctx.nextScheduleTime worker = some next) :
    (∃ timer ∈ ctx.timers worker, timer.ex = next) ∧
      ∀ timer ∈ ctx.timers worker, next ≤ timer.ex := by
  obtain ⟨member, least⟩ := List.min?_eq_some_iff.mp isNext
  exact ⟨by simpa using member, fun timer here => least _ (List.mem_map_of_mem here)⟩

theorem due_iff {ctx : Context} {now : Time} :
    ctx.due worker now = true ↔ ∃ timer ∈ ctx.timers worker, timer.ex ≤ now := by
  unfold due
  split
  · next isNone => simp [nextScheduleTime_eq_none_iff.mp isNone]
  · next next isNext =>
      obtain ⟨⟨timer, here, isEx⟩, least⟩ := mem_of_nextScheduleTime isNext
      rw [decide_eq_true_iff]
      constructor
      · intro passed
        exact ⟨timer, here, isEx ▸ passed⟩
      · rintro ⟨other, there, passed⟩
        exact Int.le_trans (least other there) passed

/-- A whole number of milliseconds up to a time, for 50 ms at most. -/
private theorem millis_spec {next now : Int} (later : now < next) :
    min ((next - now).toNat / 1000000) 50 ≤ 50 ∧
      now + 1000000 * (min ((next - now).toNat / 1000000) 50 : Nat) ≤ next ∧
      (min ((next - now).toNat / 1000000) 50 ≠ 0 ↔ now + 1000000 ≤ next) := by
  omega

/-- The timeout of a worker that is idle: it does not sleep past a timer. -/
theorem handlerTimeout_spec
    {ctx : Context}
    {now : Time}
    (idle : ctx.due worker now = false) :
    ctx.handlerTimeout worker now ≤ 50 ∧
      (∀ timer ∈ ctx.timers worker, now + 1000000 * ctx.handlerTimeout worker now ≤ timer.ex) ∧
      (ctx.handlerTimeout worker now ≠ 0 ↔
        ∀ timer ∈ ctx.timers worker, now + 1000000 ≤ timer.ex) := by
  unfold handlerTimeout
  split
  · next isNone => simp [nextScheduleTime_eq_none_iff.mp isNone]
  · next next isNext =>
      obtain ⟨⟨first, here, isEx⟩, least⟩ := mem_of_nextScheduleTime isNext
      have later : now < next := by
        by_contra passed
        have isDue := due_iff.mpr ⟨first, here, isEx ▸ Int.not_lt.mp passed⟩
        simp [idle] at isDue
      obtain ⟨bounded, early, sleeps⟩ := millis_spec later
      refine ⟨bounded, fun timer there => Int.le_trans early (least timer there), ?_⟩
      rw [sleeps]
      constructor
      · exact fun far timer there => Int.le_trans far (least timer there)
      · exact fun far => isEx ▸ far first here

/-- What the branch at the end of a pass has to do with what the worker has done. -/
structure Decides (worker : Index) (taken : List (Lib.Transition Context Label)) (now : Time)
    (before after : Context) : Prop where
  /-- The worker sleeps exactly when it has run nothing in the pass, and no timer of its
  slot expires within a millisecond. -/
  sleeps : (∃ timeout, after.pc worker = .handler timeout ∧ timeout ≠ 0) ↔
    workedIn worker taken = false ∧
      ∀ timer ∈ before.timers worker, now + 1000000 ≤ timer.ex
  /-- It sleeps for 50 ms at most, and not past the first timer of its slot. -/
  bounded : ∀ timeout, after.pc worker = .handler timeout → timeout ≤ 50 ∧
    (timeout ≠ 0 → ∀ timer ∈ before.timers worker, now + 1000000 * timeout ≤ timer.ex)
  /-- It goes on without `run_handler` exactly when it has something to run and came back
  from `run_handler` less than a millisecond ago. -/
  skips : after.pc worker = .loop ↔
    (workedIn worker taken = true ∨ ∃ timer ∈ before.timers worker, timer.ex ≤ now) ∧
      now - handledIn worker taken < 1000000

/-- A worker that has something to run does not sleep. -/
private theorem decides_of_busy
    {taken : List (Lib.Transition Context Label)}
    {now : Time}
    (last : before.lastHandle worker = handledIn worker taken)
    (busy : workedIn worker taken = true ∨ before.due worker now = true) :
    Decides worker taken now before
      (before.goto worker (before.afterBranch worker (workedIn worker taken) now)) := by
  have found : workedIn worker taken = true ∨ ∃ timer ∈ before.timers worker, timer.ex ≤ now :=
    busy.imp_right due_iff.mp
  have leads : before.afterBranch worker (workedIn worker taken) now =
      if now - handledIn worker taken < 1000000 then .loop else .handler 0 := by
    simp [afterBranch, busy, last]
  have awake : ¬(workedIn worker taken = false ∧
      ∀ timer ∈ before.timers worker, now + 1000000 ≤ timer.ex) := by
    rintro ⟨idle, far⟩
    rcases found with worked | ⟨timer, here, passed⟩
    · simp [idle] at worked
    · exact Int.not_lt.mpr (Int.le_trans (far timer here) passed)
        (Int.lt_add_of_pos_right now (by decide))
  by_cases recent : now - handledIn worker taken < 1000000
  · refine ⟨iff_of_false ?_ awake, ?_, iff_of_true ?_ ⟨found, recent⟩⟩ <;>
      simp [goto, leads, recent]
  · refine ⟨iff_of_false ?_ awake, ?_, iff_of_false ?_ fun skips => recent skips.2⟩ <;>
      simp [goto, leads, recent]

/-- A worker that has nothing to run calls `run_handler`. -/
private theorem decides_of_idle
    {taken : List (Lib.Transition Context Label)}
    {now : Time}
    (idle : workedIn worker taken = false)
    (early : before.due worker now = false) :
    Decides worker taken now before
      (before.goto worker (before.afterBranch worker (workedIn worker taken) now)) := by
  have leads : before.afterBranch worker (workedIn worker taken) now =
      .handler (before.handlerTimeout worker now) := by
    simp [afterBranch, idle, early]
  obtain ⟨bounded, first, sleeps⟩ := handlerTimeout_spec early
  have undue : ¬∃ timer ∈ before.timers worker, timer.ex ≤ now := by
    rw [← due_iff, early]
    exact Bool.false_ne_true
  refine ⟨?_, ?_, iff_of_false ?_ ?_⟩
  · have asleep : (∃ timeout, (before.goto worker
        (before.afterBranch worker (workedIn worker taken) now)).pc worker = .handler timeout ∧
          timeout ≠ 0) ↔ before.handlerTimeout worker now ≠ 0 := by
      simp [goto, leads]
    rw [asleep, sleeps]
    exact ⟨fun far => ⟨idle, far⟩, And.right⟩
  · intro timeout isTimeout
    obtain rfl : before.handlerTimeout worker now = timeout := by
      simpa [goto, leads] using isTimeout
    exact ⟨bounded, fun _ => first⟩
  · simp [goto, leads]
  · rintro ⟨worked | passed, _⟩
    · simp [idle] at worked
    · exact undue passed

/-- In every run, a worker sleeps in `run_handler` only in a pass in which it found nothing
to run, and it leaves `run_handler` out only while its last call is less than a millisecond
ago. -/
theorem sleeps_only_when_idle
    {taken : List (Lib.Transition Context Label)}
    {now : Time}
    (path : Lib.Path (Context.step workers) .initial taken before)
    (stepped : before.step workers (.branch worker now) = some after) :
    Decides worker taken now before after := by
  have passing : Passing worker (workedIn worker taken) (handledIn worker taken) before :=
    .of_path path
  simp only [Context.step] at stepped
  split at stepped
  · next flag at_ =>
      obtain rfl := Option.some.inj stepped
      have isFlag : workedIn worker taken = flag :=
        passing.flag flag (by rw [at_]; rfl)
      rw [← isFlag]
      by_cases busy : workedIn worker taken = true ∨ before.due worker now = true
      · exact decides_of_busy passing.last busy
      · simp only [not_or, Bool.not_eq_true] at busy
        exact decides_of_idle busy.1 busy.2
  · cases stepped

/-- The only worker of a context runs a task, and calls `run_handler` a millisecond after it
came to the loop; in its second pass it finds nothing, and sleeps until its timer. -/
private def twoPasses : List Label :=
  [.construct 0, .onScheduled 0, .onTimeout 0, .arrive 0, .pass 0 0, .push 0 0,
    .createTimeout 1 9000000, .loop 0, .runTask 0 0, .endScheduled 0, .endTimeout 0,
    .branch 0 1000000, .endHandler 0 1000000, .loop 0, .endScheduled 0, .endTimeout 0]

theorem sleeps_only_when_idle_sample :
    let ctx := Lib.runFrom (Context.step 1) .initial twoPasses
    let after := Lib.runFrom (Context.step 1) ctx [.branch 0 2000000]
    after.pc 0 = .handler 7 ∧ (∃ timeout, after.pc 0 = .handler timeout ∧ timeout ≠ 0) := by
  intro ctx after
  have path : Lib.Path (Context.step 1) .initial (Lib.trace (Context.step 1) .initial twoPasses)
      ctx := Lib.path_runFrom (by decide)
  have stepped : ctx.step 1 (.branch 0 2000000) = some after := by rfl
  exact ⟨by decide, (sleeps_only_when_idle path stepped).sleeps.mpr (by decide)⟩

end Context

end Workers
end Cgo
