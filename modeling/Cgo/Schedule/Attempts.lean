import Cgo.Schedule.Run

/-!
# No worker gives up while a task waits

A call of `run_scheduled` that returns with room in its batch has tried the queue of
every partition of its context, also those of the other workers.
-/

namespace Cgo
namespace Schedule
namespace RunScheduled

open Lib.Batch (exists_offset)

variable {config : Config}

/-- What a call that has returned knows of the queues of its context. -/
structure TriesAll
    (config : Config) (worker : Worker) (batchSize : Nat)
    (during : List (Lib.Transition State Action)) (call : Call) (value : Nat) : Prop where
  counted : value = call.executed.length
  /-- With room in the batch, each queue was empty once or gave a task to the call. -/
  tried : value < batchSize → ∀ index < config.partitions worker.ctx,
    (∃ transition ∈ during, transition.before.sched.runnable ⟨worker.ctx, index⟩ = []) ∨
      ∃ task ∈ call.executed, ∃ transition ∈ during,
        (transition.before.sched.runnable ⟨worker.ctx, index⟩).head? = some task
  /-- Without a task, each queue was empty once. -/
  idle : value = 0 → 0 < batchSize → ∀ index < config.partitions worker.ctx,
    ∃ transition ∈ during, transition.before.sched.runnable ⟨worker.ctx, index⟩ = []

/-- In every run: a call of `run_scheduled` that returns less than its batch has tried the
queue of every partition of its context; each of them was empty at some moment of the
call, or gave a task to it. -/
theorem run_scheduled_tries_all
    {earlier during : List (Lib.Transition State Action)}
    {called : Lib.Transition State Action}
    {state : State}
    (path : Lib.Path (State.step config) .initial (earlier ++ called :: during) state)
    {worker : Worker}
    {batchSize : Nat}
    (calls : called.label = .call worker batchSize)
    (underWay : ∀ transition ∈ during, transition.before.calls.running worker ≠ none)
    (returned : state.calls.running worker = none) :
    ∃ call value, state.calls.returned.getLast? = some ⟨worker, call, value⟩ ∧
      TriesAll config worker batchSize during call value := by
  have counting := Counting.of_reached ⟨_, path⟩
  obtain ⟨started, inside, begun, rest⟩ := begun_of_path path calls
  obtain ⟨call, trial⟩ := rounds.hasTried started rest begun underWay returned
  obtain ⟨complete, -⟩ := counting.calls.returned _ (List.mem_of_getLast? trial.last)
  have counted := complete.counted
  have tried : call.cnt < batchSize → ∀ index < config.partitions worker.ctx,
      (∃ transition ∈ during, transition.before.sched.runnable ⟨worker.ctx, index⟩ = []) ∨
        ∃ task ∈ call.executed, ∃ transition ∈ during,
          (transition.before.sched.runnable ⟨worker.ctx, index⟩).head? = some task := by
    intro room index below
    obtain ⟨i, offset, rfl⟩ := exists_offset inside below
    refine (trial.covers room i offset).imp ?_ id
    rintro ⟨transition, there, -, nothing⟩
    exact ⟨transition, there, List.head?_eq_none_iff.mp nothing⟩
  refine ⟨call, call.cnt, trial.last, counted, tried, fun none_ positive index below => ?_⟩
  have nothing : call.executed = [] := List.length_eq_zero_iff.mp (counted.symm.trans none_)
  have either := tried (none_ ▸ positive) index below
  simpa [nothing] using either

/-- One context with two workers, and a task in the first partition. -/
private def spawned : State :=
  Lib.runFrom (State.step ⟨fun _ => 2, fun _ => Nat.two_pos⟩) .initial
    [.other (.create 0 0), .other (.push 0)]

/-- The second worker steals the task, which ends. -/
private def stealing : List Action :=
  [.loop ⟨0, 1⟩, .loop ⟨0, 1⟩, .loop ⟨0, 1⟩, .other (.resume ⟨0, 1⟩),
    .other (.pause ⟨0, 1⟩ .finish), .settle ⟨0, 1⟩, .loop ⟨0, 1⟩]

theorem run_scheduled_tries_all_sample :
    let config : Config := ⟨fun _ => 2, fun _ => Nat.two_pos⟩
    let start := spawned.settle ⟨0, 1⟩ (.goesOn (.start 3))
    let state := Lib.runFrom (State.step config) start stealing
    ∃ call value, state.calls.returned.getLast? = some ⟨⟨0, 1⟩, call, value⟩ ∧
      TriesAll config ⟨0, 1⟩ 3 (Lib.trace (State.step config) start stealing) call value := by
  intro config start state
  let creating : List Action := [.other (.create 0 0), .other (.push 0)]
  have prior : Lib.Path (State.step config) .initial
      (Lib.trace (State.step config) .initial creating) spawned :=
    Lib.path_runFrom (by decide)
  have called : State.step config spawned (.call ⟨0, 1⟩ 3) = some start := rfl
  have rest : Lib.Path (State.step config) start
      (Lib.trace (State.step config) start stealing) state :=
    Lib.path_runFrom (by decide)
  have path := (prior.snoc called).trans rest
  rw [List.append_assoc, List.singleton_append] at path
  exact run_scheduled_tries_all path rfl (by decide) (by decide)

end RunScheduled
end Schedule
end Cgo
