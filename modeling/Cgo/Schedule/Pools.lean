import Cgo.Schedule.Allocator
import Cgo.Schedule.Place

/-!
# The pools of the contexts

The contexts keep a list of tasks for each partition where the source has an
allocator.  Every step of the contexts does to these lists what sections of `create`
and `destroy` do to the allocators, and each section has the answer it is meant to have.
-/

namespace Cgo
namespace Schedule

/-- The allocators of all partitions. -/
abbrev Allocators := Partition → Allocator

namespace Allocators

/-- One allocator runs the section of a call; `none` when the answer is not the one
that is meant. -/
def step (allocators : Allocators) : Partition × Request → Option Allocators
  | (partition, request) =>
      let (after, answer) := (Allocator.service.body request).run (allocators partition)
      match request, answer with
      | .create _ _, .handler _ => some (Function.update allocators partition after)
      | .destroy _, .destroyed => some (Function.update allocators partition after)
      | _, _ => none

/-- A call on an allocator: what is done, and for which id. -/
inductive Call
  | create (id : Nat)
  | destroy (id : Nat)
  deriving DecidableEq

/-- The call that a section is of. -/
def call : Partition × Request → Partition × Call
  | (partition, .create id _) => (partition, .create id)
  | (partition, .destroy task) => (partition, .destroy task.id)

/-- The calls of a step of the contexts: `create_scheduled` calls `create`, and
`_execute` calls `destroy` for a task that is done. -/
def calls (config : Config) (passed : Lib.Transition Sched Label) : List (Partition × Call) :=
  match passed.label with
  | .create _ ctx =>
      let id := passed.before.tid ctx
      [(config.home ⟨ctx, id⟩, .create id)]
  | .settle worker =>
      match passed.before.executing worker with
      | some ⟨task, _⟩ =>
          if (passed.before.task task).done then [(config.home task, .destroy task.id)] else []
      | none => []
  | _ => []

/-- The allocators hold the tasks of the contexts, in the same order, and each task is
in the allocator of its id. -/
structure Holds (config : Config) (allocators : Allocators) (sched : Sched) : Prop where
  indexed : ∀ partition, (allocators partition).Indexed
  ids : ∀ partition,
    (allocators partition).pool.map Node.id = (sched.pool partition).map TaskId.id
  home : ∀ partition, ∀ task ∈ sched.pool partition, partition = config.home task

/-- Some sections of the allocators follow a step of the contexts: they are those of its
calls. -/
def Follow
    (config : Config) (allocators : Allocators) (passed : Lib.Transition Sched Label) : Prop :=
  ∃ sections next, Holds config next passed.after ∧
    Lib.Path Allocators.step allocators sections next ∧
      sections.map (fun done => call done.label) = calls config passed

namespace Holds

variable {allocators : Allocators} {config : Config} {sched after : Sched}

theorem initial : Holds config (fun _ => .empty) .initial where
  indexed := fun _ => Allocator.indexed_empty
  ids := fun _ => rfl
  home := by simp [Sched.initial]

/-- What is not in the pools does not matter. -/
theorem of_same
    (holds : Holds config allocators sched)
    (same : after.pool = sched.pool) :
    Holds config allocators after where
  indexed := holds.indexed
  ids := by
    rw [same]
    exact holds.ids
  home := by
    rw [same]
    exact holds.home

/-- `create_scheduled` runs a `create` with an id that the pool does not have. -/
theorem create
    (holds : Holds config allocators sched)
    (placed : Placed config sched)
    (memory : Memory)
    (thread : ThreadId)
    (ctx : ContextId) :
    ∃ next, Holds config next (sched.create config thread ctx) ∧
      allocators.step (config.home ⟨ctx, sched.tid ctx⟩, .create (sched.tid ctx) memory) =
        some next := by
  set home := config.home ⟨ctx, sched.tid ctx⟩
  have fresh : ∀ node ∈ (allocators home).pool, node.id ≠ sched.tid ctx := by
    intro node member same
    have known := List.mem_map_of_mem (f := Node.id) member
    rw [holds.ids, List.mem_map] at known
    obtain ⟨task, queued, equal⟩ := known
    obtain ⟨there, below⟩ := placed.pool_home home task queued
    have here : task.ctx = ctx := (congrArg Partition.ctx there).symm
    rw [here] at below
    omega
  refine ⟨Function.update allocators home
    ((Allocator.create (sched.tid ctx) memory).run (allocators home)).1, ⟨?_, ?_, ?_⟩, ?_⟩
  · intro partition
    rcases eq_or_ne partition home with rfl | different
    · rw [Function.update_self]
      exact (holds.indexed _).create memory fresh
    · rw [Function.update_of_ne different]
      exact holds.indexed partition
  · intro partition
    rcases eq_or_ne partition home with rfl | different
    · simp [Sched.create, home, Allocator.run_create, Allocator.assign, Allocator.emplace,
        holds.ids]
    · simpa [Sched.create, home, different] using holds.ids partition
  · intro partition task member
    rcases eq_or_ne partition home with rfl | different
    · have added : task ∈ sched.pool home ∨ task = ⟨ctx, sched.tid ctx⟩ := by
        simpa [Sched.create, home] using member
      rcases added with old | rfl
      · exact holds.home home task old
      · rfl
    · exact holds.home partition task (by simpa [Sched.create, home, different] using member)
  · simp [Allocators.step, Allocator.service, Allocator.run_create]

/-- A task of the pool leaves both lists. -/
private theorem ids_erase
    {allocator : Allocator}
    {tasks : List TaskId}
    {task : TaskId}
    {node : Node}
    (indexed : allocator.Indexed)
    (member : node ∈ allocator.pool)
    (nodup : tasks.Nodup)
    (home : ∀ other ∈ tasks, other.ctx = task.ctx)
    (ids : allocator.pool.map Node.id = tasks.map TaskId.id)
    (same : node.id = task.id) :
    (allocator.erase node.address).pool.map Node.id = (tasks.erase task).map TaskId.id := by
  have left : (allocator.erase node.address).pool.map Node.id =
      (allocator.pool.map Node.id).filter fun id => id ≠ task.id := by
    rw [List.filter_map]
    apply congrArg
    apply List.filter_congr
    intro other known
    have agrees : other.address = node.address ↔ other.id = task.id := by
      rw [← same]
      exact ⟨fun equal => congrArg Node.id (indexed.eq_of_address known member equal),
        fun equal => congrArg Node.address (indexed.eq_of_id known member equal)⟩
    simp [agrees]
  have right : (tasks.erase task).map TaskId.id =
      (tasks.map TaskId.id).filter fun id => id ≠ task.id := by
    rw [List.filter_map, nodup.erase_eq_filter]
    apply congrArg
    apply List.filter_congr
    intro other known
    have agrees : other = task ↔ other.id = task.id := by
      refine ⟨congrArg TaskId.id, fun equal => ?_⟩
      have there := home other known
      cases other
      cases task
      simp_all
    rw [Bool.eq_iff_iff]
    simp [agrees]
  rw [left, right, ids]

/-- `_execute` runs a `destroy` of the task that is done. -/
theorem destroy
    {task : TaskId}
    (holds : Holds config allocators sched)
    (placed : Placed config sched)
    (member : task ∈ sched.pool (config.home task)) :
    ∃ next node, node.id = task.id ∧ Holds config next (sched.destroy config task) ∧
      allocators.step (config.home task, .destroy node) = some next := by
  set home := config.home task
  have known : task.id ∈ (allocators home).pool.map Node.id := by
    rw [holds.ids]
    exact List.mem_map_of_mem member
  obtain ⟨node, inside, same⟩ := List.mem_map.mp known
  have ends := (holds.indexed home).run_destroy inside
  refine ⟨Function.update allocators home
    ((Allocator.destroy node.id).run (allocators home)).1, node, same, ⟨?_, ?_, ?_⟩, ?_⟩
  · intro partition
    rcases eq_or_ne partition home with rfl | different
    · rw [Function.update_self]
      exact (holds.indexed home).destroy inside
    · rw [Function.update_of_ne different]
      exact holds.indexed partition
  · intro partition
    rcases eq_or_ne partition home with rfl | different
    · simp only [Function.update_self, ends, Sched.destroy, home]
      apply ids_erase (holds.indexed home) inside (placed.pool_nodup home) _ (holds.ids home) same
      intro other queued
      exact (congrArg Partition.ctx (holds.home home other queued)).symm
    · simpa [Sched.destroy, home, different] using holds.ids partition
  · intro partition other queued
    rcases eq_or_ne partition home with rfl | different
    · exact holds.home _ other
        (List.mem_of_mem_erase (by simpa [Sched.destroy, home] using queued))
    · exact holds.home partition other (by simpa [Sched.destroy, home, different] using queued)
  · simp [Allocators.step, Allocator.service, ends]

/-- The step rule: the allocators run the sections of the calls of a step. -/
theorem step
    {label : Label}
    (holds : Holds config allocators sched)
    (placed : Placed config sched)
    (memory : Memory)
    (stepped : sched.step config label = some after) :
    Follow config allocators ⟨sched, label, after⟩ := by
  have stays : after.pool = sched.pool → calls config ⟨sched, label, after⟩ = [] →
      Follow config allocators ⟨sched, label, after⟩ :=
    fun same none_ => ⟨[], allocators, holds.of_same same, .nil, none_.symm⟩
  cases Sched.move_of_step stepped with
  | @create thread ctx free =>
      obtain ⟨next, holdsNext, created⟩ := holds.create placed memory thread ctx
      exact ⟨_, next, holdsNext, Lib.Path.nil.snoc created, rfl⟩
  | @settle worker task runs stops =>
      by_cases done : (sched.task task).done = true
      · obtain ⟨there, tidy, alive⟩ := placed.tidy
        have held := (tidy.placement.at_iff task (.worker worker)).mp ⟨false, runs⟩
        have lives := (alive task).mp (by simp [held])
        obtain ⟨next, node, same, holdsNext, destroyed⟩ := holds.destroy placed lives.1
        refine ⟨_, next, holdsNext.of_same ?_, Lib.Path.nil.snoc destroyed, ?_⟩
        · rw [Sched.giveAway_pool, if_pos done]
          rfl
        · simp [call, calls, runs, done, same]
      · apply stays
        · rw [Sched.giveAway_pool, if_neg done]
        · simp [calls, runs, done]
  | notify unlocked => exact stays (by simp) rfl
  | sweepRemove => exact stays (by simp [Sched.setTask]) rfl
  | _ => exact stays rfl rfl

end Holds

end Allocators
end Schedule
end Cgo
