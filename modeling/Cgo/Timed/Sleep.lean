import Cgo.Schedule.Oneshot
import Cgo.Timed.Callback

/-!
# Sleeping

`sleep` waits for a semaphore of its own that only the callback of its timer releases.
The timers run together with the contexts and their semaphores: a sleep is over once,
not before its timer has expired, and a task whose timer has called back does not stay
blocked.
-/

namespace Cgo
namespace Timed

open Schedule (System TaskId Worker SemId Config)

/-! ## The calls of `sleep` -/

/-- The calls of `sleep`: the semaphore that the callback of a timer releases, and the
task that waits for it. -/
structure Sleeps where
  start : SemId → UInt64
  signal? : TimerId → Option SemId
  timer? : SemId → Option TimerId
  sleeper : TimerId → TaskId
  signals : ∀ timer sem, timer? sem = some timer ↔ signal? timer = some sem
  /-- `std::make_shared<Semaphore>(0)` -/
  empty : ∀ timer sem, signal? timer = some sem → start sem = 0

namespace Sleeps

variable (sleeps : Sleeps) (config : Config)

/-- The semaphore of a sleep is known to its task and to the callback of its timer. -/
def permits (sys : System) : Schedule.Action → Bool
  | .aquire worker sem =>
      (sleeps.timer? sem).all fun timer =>
        (sys.sched.executing worker).all fun execution =>
          decide (execution.task = sleeps.sleeper timer)
  | .release sem (some _) => (sleeps.timer? sem).isNone
  | _ => true

/-- One step of the contexts and semaphores. -/
def step (sys : System) (action : Schedule.Action) : Option System :=
  if sleeps.permits sys action then sys.step config action else none

/-- The semaphores as the callbacks of timers see them: each call of the callback of a
sleep releases, and that is one step. -/
def effects : Effects System Schedule.Action where
  step := sleeps.step config
  start := .initial sleeps.start
  timer?
    | .release sem none => sleeps.timer? sem
    | _ => none
  nth? _ := none
  has timer := (sleeps.signal? timer).isSome
  ended _ _ := true

variable {sleeps config}

theorem lasting : (sleeps.effects config).Lasting :=
  fun _ _ _ _ _ _ ended => ended

/-- Only its task comes to the semaphore of a sleep. -/
theorem owned
    {timer : TimerId}
    {sem : SemId}
    (made : sleeps.signal? timer = some sem) :
    System.OwnedBy sleeps.permits sem (sleeps.sleeper timer) := by
  intro sys worker execution permitted runs
  have known := (sleeps.signals timer sem).mpr made
  simpa [permits, known, runs] using permitted

end Sleeps

/-! ## What a sleep promises -/

/-- What a sleep promises. -/
structure SleepsOnce
    (hosted : Hosted System)
    (timer : TimerId)
    (sem : SemId) : Prop where
  /-- The semaphore is released once at most, and `aquire` completes once at most. -/
  once : hosted.other.taken sem ≤ hosted.other.released sem ∧ hosted.other.released sem ≤ 1
  /-- When it was released, the timer was called back, and not before its expiry. -/
  punctual : hosted.other.released sem ≠ 0 →
    ∃ fired ∈ hosted.timed.fired, fired.timer = timer ∧
      hosted.timed.expiry timer ≤ fired.time
  /-- When the callback has returned, the semaphore was released. -/
  kept : hosted.Fired timer → (∀ thread, hosted.timed.calling? thread ≠ some timer) →
    hosted.other.released sem = 1
  /-- While no context is shut down, a task whose semaphore was released and that has not
  taken the unit is not blocked. -/
  awake : (∀ ctx, hosted.other.sched.finished ctx = false) →
    hosted.other.released sem = 1 → hosted.other.taken sem = 0 →
      (hosted.other.sched.cond sem).blocked = []

variable {sleeps : Sleeps} {config : Config} {algorithms : Algorithms} {slots : Nat}
variable {now : TimePoint} {hosted : Hosted System} {timer : TimerId} {sem : SemId}

/-- The semaphore of a sleep is released by the calls of its callback and by nothing
else. -/
theorem released_eq_count
    (reached : Hosted.Reached algorithms slots (sleeps.effects config) now hosted)
    (made : sleeps.signal? timer = some sem) :
    hosted.other.released sem = (hosted.begun.map Invocation.timer).count timer := by
  refine reached.invariant_of_reachable (fun hosted =>
    hosted.other.released sem = (hosted.begun.map Invocation.timer).count timer) ?_ ?_
  · simp [Hosted.initial, Sleeps.effects, System.initial]
  · intro before label after _ counted stepped
    have known := (sleeps.signals timer sem).mpr made
    cases Hosted.move_of_step stepped with
    | timed => exact counted
    | @start thread action other call runs begins moved =>
        obtain ⟨-, moved⟩ := System.step_of_guarded moved
        obtain ⟨released, rfl, ofCall⟩ : ∃ released, action = .release released none ∧
            sleeps.timer? released = some call.timer := by
          obtain ⟨ofAction, -⟩ := begins
          simp only [Sleeps.effects] at ofAction
          split at ofAction
          · exact ⟨_, rfl, ofAction⟩
          · cases ofAction
        cases Schedule.Change.of_step moved with
        | release _ holder =>
            by_cases same : sem = released
            · subst same
              obtain rfl := Option.some.inj (ofCall.symm.trans known)
              simp [System.release, counted]
            · have another : call.timer ≠ timer := by
                intro equal
                rw [equal] at ofCall
                exact same (Option.some.inj (made.symm.trans
                  ((sleeps.signals timer released).mp ofCall)))
              simp [System.release, same, counted, another]
    | @other action other elsewhere moved =>
        obtain ⟨permitted, moved⟩ := System.step_of_guarded moved
        rcases System.released_of_step moved sem with same | ⟨more, holder, rfl⟩
        · exact same.trans counted
        · cases holder with
          | none => simp [Sleeps.effects, known] at elsewhere
          | some task => simp [Sleeps.permits, known] at permitted

/-- In every state that timers and contexts reach together, every sleep keeps its
promise. -/
theorem sleep_ends_once
    (reached : Hosted.Reached algorithms slots (sleeps.effects config) now hosted)
    (made : sleeps.signal? timer = some sem) :
    SleepsOnce hosted timer sem := by
  have sound : Hosted.Sound (sleeps.effects config) hosted := .of_reached Sleeps.lasting reached
  have otherReached : Lib.Reachable (sleeps.step config) (.initial sleeps.start) hosted.other :=
    Hosted.other_reached reached
  have counted := released_eq_count reached made
  have onceReleased : hosted.other.released sem ≤ 1 := counted ▸ sound.count_le_one timer
  have oneshot : hosted.other.Oneshot sem :=
    .of_reached otherReached (sleeps.empty timer sem made) (Sleeps.owned made) onceReleased
  have limits := oneshot.once
  refine ⟨limits, fun released => ?_, fun fired silent => ?_, oneshot.awake⟩
  · have begun : timer ∈ hosted.begun.map Invocation.timer :=
      List.count_pos_iff.mp (by omega)
    obtain ⟨call, member, rfl⟩ := List.mem_map.mp begun
    exact (sound.punctual reached member).2
  · have has : (sleeps.effects config).has timer = true := by simp [Sleeps.effects, made]
    have begun : timer ∈ hosted.begun.map Invocation.timer :=
      List.mem_map_of_mem (sound.ended timer has fired silent).1
    have positive := List.count_pos_iff.mpr begun
    omega

/-- Task 0 sleeps with semaphore 5 until timer 0 calls back. -/
private def oneSleep : Sleeps where
  start _ := 0
  signal?
    | 0 => some 5
    | _ => none
  timer?
    | 5 => some 0
    | _ => none
  sleeper _ := ⟨0, 0⟩
  signals timer sem := by
    constructor
    · intro known
      split at known
      · obtain rfl := Option.some.inj known
        rfl
      · cases known
    · intro made
      split at made
      · obtain rfl := Option.some.inj made
        rfl
      · cases made
  empty _ _ _ := rfl

/-- The task blocks, and goes on when the timer has expired. -/
private def sleeping : List (Hosted.Label Schedule.Action) :=
  [.other (.sched (.create 0 0)), .other (.sched (.push 0)),
    .other (.sched (.pop ⟨0, 0⟩ 0)), .other (.sched (.resume ⟨0, 0⟩)),
    .timed (.draw 0 50), .timed (.stamp 0), .timed (.push 0),
    .other (.aquire ⟨0, 0⟩ 5), .other (.sched (.settle ⟨0, 0⟩)),
    .timed (.tick 150), .timed (.call 1 7 4), .timed (.loop 1), .timed (.callback 1),
    .start 1 (.release 5 none), .timed (.finish 1),
    .other (.sched (.pop ⟨0, 0⟩ 0)), .other (.sched (.resume ⟨0, 0⟩)),
    .other (.aquire ⟨0, 0⟩ 5)]

/-- The state after it. -/
private def slept : Hosted System :=
  Lib.runFrom
    (Hosted.step (Lib.HeapAlgorithms.sorting Task.ex) 1
      (oneSleep.effects Schedule.oneWorker))
    (.initial (oneSleep.effects Schedule.oneWorker) 100) sleeping

theorem sleep_ends_once_sample :
    (slept.timed.fired = [⟨1, 0, 150⟩] ∧ slept.other.taken 5 = 1) ∧ SleepsOnce slept 0 5 :=
  ⟨by decide, sleep_ends_once (Lib.Reachable.runFrom _ _ _) rfl⟩

end Timed
end Cgo
