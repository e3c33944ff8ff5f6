import Cgo.Lib.Attempts
import Cgo.Schedule.Fifo

/-!
# The calls of `run_scheduled`

The contexts with the loops of `SchedContext::run_scheduled`: a worker pops its
own partition up to `batch_size` times or until that is empty, and then tries
every partition once, from its own on.  Between any two pops of a call the other
threads go on, and what a call executes pushes tasks while the call is under way.
-/

namespace Cgo
namespace Schedule
namespace RunScheduled

/-- A call of `run_scheduled`. -/
abbrev Call := Lib.Batch.Call TaskId

/-- The contexts, the calls of `run_scheduled`, and the steps of the contexts so
far. -/
structure State where
  sched : Sched
  calls : Lib.Batch.Calls Worker TaskId
  trace : List Transition

/-- The state before the run. -/
def State.initial : State where
  sched := .initial
  calls := .initial
  trace := []

inductive Action
  /-- A worker calls `run_scheduled`. -/
  | call (worker : Worker) (batchSize : Nat)
  /-- Its call tests the condition of its loop and pops, or leaves the loop. -/
  | loop (worker : Worker)
  /-- `_execute` ends. -/
  | settle (worker : Worker)
  /-- A step that no loop of `run_scheduled` makes. -/
  | other (label : Label)
  deriving DecidableEq

/-- The steps that are left to `run_scheduled`, and those that a worker makes only
outside of it. -/
def Allowed (state : State) : Label → Prop
  | .pop _ _ => False
  | .settle _ => False
  | .exit worker => (state.calls.running worker).isNone = true
  | _ => True

instance (state : State) (label : Label) : Decidable (Allowed state label) := by
  cases label <;> unfold Allowed <;> infer_instance

namespace State

variable (config : Config) (state : State)

/-- The state after a step of the contexts. -/
def sched? (label : Label) : Option State :=
  (state.sched.step config label).map fun after =>
    { state with sched := after, trace := state.trace ++ [⟨state.sched, label, after⟩] }

/-- The state after a turn of a call. -/
def settle (worker : Worker) (outcome : Lib.Batch.Outcome TaskId) : State :=
  { state with calls := state.calls.settle worker outcome }

/-- One turn of the loops of `run_scheduled`: `_scheduler(pindex).pop()` in the
first, `_scheduler(pindex + i).pop()` in the second, and with a task the start of
its `_execute`. -/
def runScheduled (worker : Worker) (call : Call) : Option State :=
  let partitions := config.partitions worker.ctx
  if call.pc.executing then none
  else
    match call.offset? partitions with
    | none => some (state.settle worker call.left)
    | some i =>
        let index := (worker.index + i) % partitions
        match state.sched.runnable ⟨worker.ctx, index⟩ with
        | [] => some (state.settle worker call.missed)
        | task :: _ =>
            (state.sched? config (.pop worker index)).map fun popped =>
              popped.settle worker (.goesOn (call.found task))

/-- The next state, or `none` when the step is not enabled. -/
def step : Action → Option State
  | .call worker batchSize =>
      if (state.calls.running worker).isNone = true ∧
          worker.index < config.partitions worker.ctx ∧
          state.sched.exited worker = false then
        some (state.settle worker (.goesOn (.start batchSize)))
      else none
  | .loop worker => (state.calls.running worker).bind (state.runScheduled config worker)
  | .settle worker =>
      (state.calls.running worker).bind fun call =>
        if call.pc.executing then
          (state.sched? config (.settle worker)).map fun settled =>
            settled.settle worker call.finished
        else none
  | .other label => if Allowed state label then state.sched? config label else none

/-- The states that the contexts and their workers can reach. -/
abbrev Reached : Prop :=
  Lib.Reachable (step config) initial state

end State

open Lib.Batch (Turn Rounds round_of_start)

/-! ## What a call has executed -/

/-- The task that a worker pops. -/
def poppedBy (worker : Worker) (transition : Transition) : Option TaskId :=
  match transition.label with
  | .pop popper _ =>
      if popper = worker then (transition.before.pops transition.label).map Prod.snd else none
  | _ => none

/-- The trace is a run of the contexts, and the calls count what they pop. -/
structure Counting (config : Config) (state : State) : Prop where
  path : Lib.Path (Sched.step config) .initial state.trace state.sched
  calls : state.calls.Sound fun worker => state.trace.filterMap (poppedBy worker)

namespace Counting

variable {config : Config} {state after : State} {worker : Worker} {call : Call}

theorem initial : Counting config .initial where
  path := .nil
  calls := .initial

/-- A step of the contexts that pops nothing. -/
theorem sched?
    {label : Label}
    (counting : Counting config state)
    (stepped : state.sched? config label = some after)
    (popless : ∀ popper before after, poppedBy popper ⟨before, label, after⟩ = none) :
    Counting config after ∧ after.calls = state.calls := by
  obtain ⟨sched, made, rfl⟩ := Option.map_eq_some_iff.mp stepped
  refine ⟨⟨counting.path.snoc made, ?_⟩, rfl⟩
  simpa [popless] using counting.calls

theorem runScheduled
    (counting : Counting config state)
    (running : state.calls.running worker = some call)
    (stepped : state.runScheduled config worker call = some after) :
    Counting config after := by
  simp only [State.runScheduled] at stepped
  split at stepped
  · cases stepped
  next idle =>
  split at stepped
  · next stops =>
      obtain rfl := Option.some.inj stepped
      exact ⟨counting.path, counting.calls.left running (by simpa using idle) stops⟩
  next i tries =>
  split at stepped
  · obtain rfl := Option.some.inj stepped
    exact ⟨counting.path, counting.calls.missed running tries⟩
  · next task rest queued =>
      obtain ⟨popped, locked, rfl⟩ := Option.map_eq_some_iff.mp stepped
      obtain ⟨sched, made, rfl⟩ := Option.map_eq_some_iff.mp locked
      refine ⟨counting.path.snoc made, (counting.calls.found running tries task).congr ?_⟩
      intro other
      rcases eq_or_ne other worker with rfl | apart
      · simp [State.settle, poppedBy, Sched.pops, queued]
      · simp [State.settle, poppedBy, apart, apart.symm]

theorem step
    {action : Action}
    (counting : Counting config state)
    (stepped : state.step config action = some after) :
    Counting config after := by
  cases action with
  | call worker batchSize =>
      simp only [State.step] at stepped
      split at stepped
      · next enabled =>
          obtain rfl := Option.some.inj stepped
          exact ⟨counting.path, counting.calls.start (by simpa using enabled.1) batchSize⟩
      · cases stepped
  | loop worker =>
      obtain ⟨call, running, looped⟩ := Option.bind_eq_some_iff.mp stepped
      exact counting.runScheduled running looped
  | settle worker =>
      obtain ⟨call, running, settles⟩ := Option.bind_eq_some_iff.mp stepped
      split at settles
      · next executing =>
          obtain ⟨settled, made, rfl⟩ := Option.map_eq_some_iff.mp settles
          obtain ⟨kept, calls⟩ := counting.sched? made fun _ _ _ => rfl
          exact ⟨kept.path, kept.calls.finished (by rw [calls]; exact running) executing⟩
      · cases settles
  | other label =>
      simp only [State.step] at stepped
      split at stepped
      · next allowed =>
          refine (counting.sched? stepped fun popper before after => ?_).1
          cases label with
          | pop => exact allowed.elim
          | _ => rfl
      · cases stepped

theorem of_reached (reached : state.Reached config) : Counting config state :=
  reached.invariant initial fun _ _ _ counting stepped => counting.step stepped

end Counting

variable {config : Config}

/-! ## What a call finds -/

/-- The task that an attempt finds, in the queue at an offset from the worker's own. -/
def finds (config : Config) (state : State) (worker : Worker) (i : Nat) : Option TaskId :=
  (state.sched.runnable ⟨worker.ctx, (worker.index + i) % config.partitions worker.ctx⟩).head?

/-- The loops of a worker make turns of its call. -/
theorem turn_of_runScheduled
    {before after : State}
    {worker : Worker}
    {call : Call}
    (stepped : before.runScheduled config worker call = some after) :
    ∃ outcome, Turn (config.partitions worker.ctx) (finds config before worker) call outcome ∧
      after.calls = before.calls.settle worker outcome := by
  simp only [State.runScheduled] at stepped
  split at stepped
  · cases stepped
  next idle =>
  split at stepped
  · next stops =>
      obtain rfl := Option.some.inj stepped
      exact ⟨_, .left (by simpa using idle) stops, rfl⟩
  next i tries =>
  split at stepped
  · next empty =>
      obtain rfl := Option.some.inj stepped
      exact ⟨_, .missed i tries (by simp [finds, empty]), rfl⟩
  · next task rest queued =>
      obtain ⟨popped, locked, rfl⟩ := Option.map_eq_some_iff.mp stepped
      obtain ⟨sched, made, rfl⟩ := Option.map_eq_some_iff.mp locked
      exact ⟨_, .found i task tries (by simp [finds, queued]), rfl⟩

theorem rounds :
    Rounds (State.step config) .initial State.calls (fun worker => config.partitions worker.ctx)
      (finds config) fun action worker => action = .loop worker := by
  intro before action after worker call _ stepped running
  cases action with
  | call caller batchSize =>
      simp only [State.step] at stepped
      split at stepped
      · next enabled =>
          obtain rfl := Option.some.inj stepped
          exact round_of_start running (by simpa using enabled.1) rfl
      · cases stepped
  | loop caller =>
      obtain ⟨called, runs, looped⟩ := Option.bind_eq_some_iff.mp stepped
      obtain ⟨outcome, turn, settled⟩ := turn_of_runScheduled looped
      exact turn.round running runs (fun _ => rfl) settled
  | settle caller =>
      obtain ⟨called, runs, settles⟩ := Option.bind_eq_some_iff.mp stepped
      split at settles
      · next executing =>
          obtain ⟨settled, locked, rfl⟩ := Option.map_eq_some_iff.mp settles
          obtain ⟨sched, made, rfl⟩ := Option.map_eq_some_iff.mp locked
          exact Turn.round running runs (.finished executing) (by simp [executing]) rfl
      · cases settles
  | other label =>
      simp only [State.step] at stepped
      split at stepped
      · obtain ⟨sched, made, rfl⟩ := Option.map_eq_some_iff.mp stepped
        exact .inl ⟨running, rfl⟩
      · cases stepped

/-- The steps of the contexts go on from what they were. -/
theorem trace_of_step
    {before after : State}
    {action : Action}
    (stepped : before.step config action = some after) :
    before.trace <+: after.trace := by
  have sched : ∀ {state after : State} {label : Label},
      state.sched? config label = some after → state.trace <+: after.trace := by
    intro state after label made
    obtain ⟨sched, -, rfl⟩ := Option.map_eq_some_iff.mp made
    exact List.prefix_append _ _
  cases action with
  | call worker batchSize =>
      simp only [State.step] at stepped
      split at stepped
      · obtain rfl := Option.some.inj stepped
        exact List.prefix_rfl
      · cases stepped
  | loop worker =>
      obtain ⟨call, -, looped⟩ := Option.bind_eq_some_iff.mp stepped
      simp only [State.runScheduled] at looped
      split at looped
      · cases looped
      split at looped
      · obtain rfl := Option.some.inj looped
        exact List.prefix_rfl
      split at looped
      · obtain rfl := Option.some.inj looped
        exact List.prefix_rfl
      · obtain ⟨popped, made, rfl⟩ := Option.map_eq_some_iff.mp looped
        exact (sched made : before.trace <+: popped.trace)
  | settle worker =>
      obtain ⟨call, -, settles⟩ := Option.bind_eq_some_iff.mp stepped
      split at settles
      · obtain ⟨settled, made, rfl⟩ := Option.map_eq_some_iff.mp settles
        exact (sched made : before.trace <+: settled.trace)
      · cases settles
  | other label =>
      simp only [State.step] at stepped
      split at stepped
      · exact sched stepped
      · cases stepped

theorem trace_of_path
    {start state : State}
    {during : List (Lib.Transition State Action)}
    (path : Lib.Path (State.step config) start during state) :
    start.trace <+: state.trace := by
  induction path with
  | nil => exact List.prefix_rfl
  | snoc _ stepped inductionHypothesis =>
      exact inductionHypothesis.trans (trace_of_step stepped)

/-- A run in which a worker calls `run_scheduled`. -/
theorem begun_of_path
    {earlier during : List (Lib.Transition State Action)}
    {called : Lib.Transition State Action}
    {state : State}
    {worker : Worker}
    {batchSize : Nat}
    (path : Lib.Path (State.step config) .initial (earlier ++ called :: during) state)
    (calls : called.label = .call worker batchSize) :
    called.after.Reached config ∧ worker.index < config.partitions worker.ctx ∧
      called.after.calls.running worker = some (.start batchSize) ∧
        Lib.Path (State.step config) called.after during state := by
  obtain ⟨middle, prior, rest⟩ := path.of_append
  obtain ⟨rfl, stepped, rest⟩ := rest.of_cons
  have started : called.after.Reached config := ⟨_, prior.snoc stepped⟩
  rw [calls] at stepped
  simp only [State.step] at stepped
  split at stepped
  · next enabled =>
      obtain same := Option.some.inj stepped
      exact ⟨started, enabled.2.1, by simp [← same, State.settle], rest⟩
  · cases stepped

/-- What a call of `run_scheduled` has done when it returns `value`; `during` are the
transitions from its start on. -/
structure Returns
    (worker : Worker) (batchSize : Nat) (start state : State)
    (during : List (Lib.Transition State Action)) (value : Nat) : Prop where
  /-- It returns how many tasks the worker has popped and executed. -/
  counted : ∃ steps, state.trace = start.trace ++ steps ∧
    value = (steps.filterMap (poppedBy worker)).length
  bounded : value ≤ batchSize
  /-- With room in the batch, it has tried the queue of its own partition when that was
  empty. -/
  emptied : value < batchSize → ∃ transition ∈ during, transition.label = .loop worker ∧
    transition.before.sched.runnable ⟨worker.ctx, worker.index⟩ = []

/-- A call from its start to its return. -/
theorem returns_of_path
    {start state : State}
    {during : List (Lib.Transition State Action)}
    {worker : Worker}
    {batchSize : Nat}
    (reached : start.Reached config)
    (path : Lib.Path (State.step config) start during state)
    (inside : worker.index < config.partitions worker.ctx)
    (begun : start.calls.running worker = some (.start batchSize))
    (underWay : ∀ transition ∈ during, transition.before.calls.running worker ≠ none)
    (returned : state.calls.running worker = none) :
    ∃ call, state.calls.returned.getLast? = some ⟨worker, call, call.cnt⟩ ∧
      Returns worker batchSize start state during call.cnt := by
  obtain ⟨call, tried⟩ := rounds.hasTried reached path begun underWay returned
  have counting := Counting.of_reached (reached.trans ⟨_, path⟩)
  obtain ⟨complete, -⟩ := counting.calls.returned _ (List.mem_of_getLast? tried.last)
  obtain ⟨steps, whole⟩ := trace_of_path path
  -- what the worker has popped since the start is what the call has executed
  have popped : steps.filterMap (poppedBy worker) = call.executed := by
    have before := (Counting.of_reached reached).calls.executed worker
    have after := counting.calls.executed worker
    simp only [Lib.Batch.Calls.current, begun, Lib.Batch.Call.start, Option.elim_some,
      List.append_nil] at before
    simp only [Lib.Batch.Calls.current, returned, Option.elim_none, List.append_nil, tried.past,
      ← whole, List.filterMap_append, before] at after
    exact List.append_cancel_left after
  refine ⟨call, tried.last, ⟨steps, whole.symm, ?_⟩, ?_, fun room => ?_⟩
  · rw [popped, complete.counted]
  · rw [← tried.size]
    exact complete.bounded
  · obtain ⟨transition, member, label, nothing⟩ :=
      tried.own (complete.emptied (by rwa [tried.size]))
    refine ⟨transition, member, label, ?_⟩
    simpa [finds, Nat.mod_eq_of_lt inside] using nothing

/-- The promise of the runnable queues and of `run_scheduled`. -/
structure GivesWay
    (config : Config) (taken : List (Lib.Transition State Action)) (state : State) : Prop where
  path : Lib.Path (Sched.step config) .initial state.trace state.sched
  /-- What entered a queue left it in that order or is still there. -/
  in_order : ∀ partition, state.sched.finished partition.ctx = false →
    state.trace.filterMap (pushedTo config partition) =
      state.trace.filterMap (poppedFrom partition) ++ state.sched.runnable partition
  /-- Between a push of a task and its next pop, what was queued is popped once. -/
  gives_way : ∀ partition task earlier push between pop later,
    state.sched.finished partition.ctx = false →
    state.trace = earlier ++ push :: (between ++ pop :: later) →
    pushedTo config partition push = some task →
    poppedFrom partition pop = some task →
    task ∉ between.filterMap (poppedFrom partition) →
    ∀ queued ∈ push.before.runnable partition,
      (between.filterMap (poppedFrom partition)).count queued = 1
  /-- A worker pops what its calls execute. -/
  executes : ∀ worker, state.trace.filterMap (poppedBy worker) =
    state.calls.past worker ++ state.calls.current worker
  running : ∀ worker call, state.calls.running worker = some call →
    call.executed.length ≤ call.batchSize
  /-- A call that has just returned tells how many tasks it has executed, and fewer than
  its batch only if it found the queue of its own partition empty. -/
  returns : ∀ earlier called during worker batchSize, taken = earlier ++ called :: during →
    called.label = .call worker batchSize →
    (∀ transition ∈ during, transition.before.calls.running worker ≠ none) →
    state.calls.running worker = none →
      ∃ call, state.calls.returned.getLast? = some ⟨worker, call, call.cnt⟩ ∧
        Returns worker batchSize called.after state during call.cnt

/-- In every run of the contexts and the calls of `run_scheduled`, a task that was pushed
gave way to all that was queued before it. -/
theorem yield_gives_way
    {config : Config}
    {taken : List (Lib.Transition State Action)}
    {state : State}
    (path : Lib.Path (State.step config) .initial taken state) :
    GivesWay config taken state := by
  have counting := Counting.of_reached ⟨_, path⟩
  refine ⟨counting.path, fun partition => pushed_eq_popped_append counting.path, ?_,
    counting.calls.executed, ?_, ?_⟩
  · intro partition task earlier push between pop later running split pushed popped next queued
      member
    have path := counting.path
    rw [split] at path
    have before : push.before.Reached config :=
      (path.mem_transition (by simp)).1
    rw [popped_between_eq path running pushed popped next]
    obtain ⟨there, tidy, -⟩ := (Placed.of_reached before).tidy
    exact List.count_eq_one_of_mem (tidy.runnable_nodup partition) member
  · exact fun worker call held => (counting.calls.running worker call held).bounded
  · intro earlier called during worker batchSize split calls underWay returned
    rw [split] at path
    obtain ⟨started, inside, begun, rest⟩ := begun_of_path path calls
    exact returns_of_path started rest inside begun underWay returned

/-- One context with two workers. -/
private def pair : Config := ⟨fun _ => 2, fun _ => Nat.two_pos⟩

/-- The second worker finds its queue empty, steals the task of the first, which
yields, and goes round without a second task. -/
private def yielding : List Action :=
  [.other (.create 0 0), .other (.push 0), .call ⟨0, 1⟩ 3, .loop ⟨0, 1⟩, .loop ⟨0, 1⟩,
    .loop ⟨0, 1⟩, .other (.resume ⟨0, 1⟩), .other (.pause ⟨0, 1⟩ .yield), .settle ⟨0, 1⟩,
    .loop ⟨0, 1⟩]

theorem yield_gives_way_sample :
    let state := Lib.runFrom (State.step pair) .initial yielding
    GivesWay pair (Lib.trace (State.step pair) .initial yielding) state ∧
      state.sched.runnable ⟨0, 0⟩ = [⟨0, 0⟩] ∧
        state.calls.returned.map (fun returned => returned.value) = [1] := by
  intro state
  exact ⟨yield_gives_way (Lib.path_runFrom (by decide)), by decide, by decide⟩

end RunScheduled
end Schedule
end Cgo
