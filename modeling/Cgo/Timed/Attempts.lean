import Cgo.Lib.Attempts
import Cgo.Timed.Firing

/-!
# No worker gives up while a timer is due

A call of `run_timeout` that returns with room in its batch has tried the slots of all
workers, each at its own moment and with the clock of that moment.
-/

namespace Cgo
namespace Timed

open Lib.Batch (Turn Rounds exists_offset round_of_start)

/-- The timer that an attempt finds, in the slot at an offset from the worker's own. -/
def finds (algorithms : Algorithms) (slots : Nat) (state : State) (thread : ThreadId)
    (i : Nat) : Option TimerId :=
  (Scheduler.pop algorithms state.now (state.heap (state.slot slots thread i))).bind
    fun popped => popped.1.fn

variable {algorithms : Algorithms} {slots : Nat}

/-- What a thread holds is what its call executes. -/
theorem executing_of_held
    {start : TimePoint}
    {state : State}
    {thread : ThreadId}
    {call : Lib.Batch.Call TimerId}
    {held : Held}
    (reached : state.Reached algorithms slots start)
    (holds : state.held thread = some held)
    (running : state.calls.running thread = some call) :
    call.pc.executing = true := by
  obtain ⟨other, runs, executing⟩ := (Counting.of_reached reached).busy thread held holds
  obtain rfl := Option.some.inj (runs.symm.trans running)
  exact executing

theorem rounds (start : TimePoint) :
    Rounds (State.step algorithms slots) (.initial start) State.calls (fun _ => slots)
      (finds algorithms slots) fun label thread => label = .loop thread := by
  intro before label after thread call reached stepped running
  cases State.move_of_step stepped with
  | call idle => exact round_of_start running idle rfl
  | leave runs idle stops =>
      exact Turn.round running runs (.left idle stops) (fun _ => rfl) rfl
  | miss runs idle tries nothing =>
      exact Turn.round running runs (.missed _ tries (by simp [finds, nothing]))
        (fun _ => rfl) rfl
  | pop runs idle tries pops callable =>
      exact Turn.round running runs (.found _ _ tries (by simp [finds, pops, callable]))
        (fun _ => rfl) rfl
  | finish holds runs =>
      have executing := executing_of_held reached holds runs
      exact Turn.round running runs (.finished executing) (by simp [executing]) rfl
  | _ => exact .inl ⟨running, rfl⟩

theorem begun_of_call
    {before after : State}
    {thread : ThreadId}
    {pindex : UInt64}
    {batchSize : Nat}
    (stepped : before.step algorithms slots (.call thread pindex batchSize) = some after) :
    0 < slots ∧ after.pindex thread = pindex ∧
      after.calls.running thread = some (.start batchSize) := by
  cases State.move_of_step stepped with
  | call idle slotted => exact ⟨slotted, Function.update_self .., by simp⟩

/-- A call keeps its `pindex`. -/
theorem pindex_of_step
    {before after : State}
    {label : Label}
    {thread : ThreadId}
    (stepped : before.step algorithms slots label = some after)
    (running : before.calls.running thread ≠ none) :
    after.pindex thread = before.pindex thread := by
  cases State.move_of_step stepped with
  | @call caller pindex batchSize idle =>
      have apart : thread ≠ caller := by
        rintro rfl
        exact running idle
      exact Function.update_of_ne apart _ _
  | _ => rfl

/-- So all its attempts go from the same slot on. -/
theorem pindex_of_underWay
    {begun state : State}
    {during : List (Lib.Transition State Label)}
    {thread : ThreadId}
    (path : Lib.Path (State.step algorithms slots) begun during state)
    (underWay : ∀ transition ∈ during, transition.before.calls.running thread ≠ none) :
    state.pindex thread = begun.pindex thread ∧
      ∀ transition ∈ during, transition.before.pindex thread = begun.pindex thread := by
  induction path with
  | nil => simp
  | @snoc taken before after label prior stepped inductionHypothesis =>
      simp only [List.forall_mem_append, List.forall_mem_singleton] at underWay ⊢
      obtain ⟨same, all⟩ := inductionHypothesis underWay.1
      exact ⟨(pindex_of_step stepped underWay.2).trans same, all, same⟩

/-- An attempt that finds nothing finds no expired timer. -/
theorem early_of_finds
    {start : TimePoint}
    {state : State}
    {thread : ThreadId}
    {i : Nat}
    (reached : state.Reached algorithms slots start)
    (nothing : finds algorithms slots state thread i = none) :
    ∀ task ∈ (state.heap (state.slot slots thread i)).c, state.now < task.ex := by
  have stored : Stored slots state :=
    reached.invariant (.initial start) fun _ _ _ stored stepped => stored.step stepped
  cases pops : Scheduler.pop algorithms state.now (state.heap (state.slot slots thread i)) with
  | none => exact Scheduler.pop_none pops
  | some popped =>
      obtain ⟨task, rest⟩ := popped
      have uncallable : task.fn = none := by simpa [finds, pops] using nothing
      have inside := (Scheduler.pop_some pops).2.2.mem_iff.mpr (List.mem_cons_self ..)
      obtain ⟨timer, rfl, -⟩ := stored.stored _ task inside
      cases uncallable

/-- An attempt that finds a timer finds it in the slot. -/
theorem mem_timers_of_finds
    {state : State}
    {thread : ThreadId}
    {i : Nat}
    {timer : TimerId}
    (found : finds algorithms slots state thread i = some timer) :
    timer ∈ (state.heap (state.slot slots thread i)).timers := by
  obtain ⟨⟨task, rest⟩, pops, callable⟩ := Option.bind_eq_some_iff.mp found
  obtain ⟨-, -, perm⟩ := Scheduler.pop_some pops
  exact List.mem_filterMap.mpr ⟨task, perm.mem_iff.mpr (List.mem_cons_self ..), callable⟩

/-- No timer of the slot had expired at some moment. -/
def WasEarly (during : List (Lib.Transition State Label)) (slot : Nat) : Prop :=
  ∃ transition ∈ during, ∀ task ∈ (transition.before.heap slot).c, transition.before.now < task.ex

/-- What a call that has returned knows of the slots. -/
structure TriesAll
    (slots batchSize : Nat) (during : List (Lib.Transition State Label))
    (call : Lib.Batch.Call TimerId) (value : Nat) : Prop where
  counted : value = call.executed.length
  /-- With room in the batch, each slot had no expired timer once, or gave one to the
  call. -/
  tried : value < batchSize → ∀ slot < slots, WasEarly during slot ∨
    ∃ timer ∈ call.executed, ∃ transition ∈ during,
      timer ∈ (transition.before.heap slot).timers
  /-- Without a timer, each slot had no expired one once. -/
  idle : value = 0 → 0 < batchSize → ∀ slot < slots, WasEarly during slot

/-- In every run: a call of `run_timeout` that returns less than its batch has tried every
slot; each of them had no expired timer at some moment of the call, or gave one to it. -/
theorem run_timeout_tries_all
    {start : TimePoint}
    {earlier during : List (Lib.Transition State Label)}
    {called : Lib.Transition State Label}
    {state : State}
    (path : Lib.Path (State.step algorithms slots) (.initial start) (earlier ++ called :: during)
      state)
    {thread : ThreadId}
    {pindex : UInt64}
    {batchSize : Nat}
    (calls : called.label = .call thread pindex batchSize)
    (small : pindex.toNat + slots ≤ 2 ^ 64)
    (underWay : ∀ transition ∈ during, transition.before.calls.running thread ≠ none)
    (returned : state.calls.running thread = none) :
    ∃ call value, state.calls.returned.getLast? = some ⟨thread, call, value⟩ ∧
      TriesAll slots batchSize during call value := by
  have reached : state.Reached algorithms slots start := ⟨_, path⟩
  obtain ⟨middle, prior, rest⟩ := path.of_append
  obtain ⟨rfl, stepped, rest⟩ := rest.of_cons
  have started : called.after.Reached algorithms slots start := ⟨_, prior.snoc stepped⟩
  rw [calls] at stepped
  obtain ⟨slotted, pindexed, begun⟩ := begun_of_call stepped
  have same := (pindex_of_underWay rest underWay).2
  have reachedAt : ∀ transition ∈ during,
      transition.before.Reached algorithms slots start := by
    intro transition there
    exact (path.mem_transition (by simp [there])).1
  obtain ⟨call, trial⟩ := (rounds start).hasTried started rest begun underWay returned
  obtain ⟨complete, -⟩ :=
    (Counting.of_reached reached).calls.returned _ (List.mem_of_getLast? trial.last)
  have counted := complete.counted
  have slotOf : ∀ slot < slots, ∃ i < slots, ∀ transition ∈ during,
      transition.before.slot slots thread i = slot := by
    intro slot below
    obtain ⟨i, offset, there⟩ := exists_offset (Nat.mod_lt pindex.toNat slotted) below
    refine ⟨i, offset, fun transition inside => ?_⟩
    have fits : pindex.toNat + i < 2 ^ 64 := by omega
    rw [State.slot, same transition inside, pindexed, Nat.mod_eq_of_lt fits,
      ← Nat.mod_add_mod, there]
  have tried : call.cnt < batchSize → ∀ slot < slots, WasEarly during slot ∨
      ∃ timer ∈ call.executed, ∃ transition ∈ during,
        timer ∈ (transition.before.heap slot).timers := by
    intro room slot below
    obtain ⟨i, offset, here⟩ := slotOf slot below
    rcases trial.covers room i offset with ⟨transition, there, -, nothing⟩ |
      ⟨timer, taken, transition, there, first⟩
    · refine .inl ⟨transition, there, ?_⟩
      rw [← here transition there]
      exact early_of_finds (reachedAt transition there) nothing
    · refine .inr ⟨timer, taken, transition, there, ?_⟩
      rw [← here transition there]
      exact mem_timers_of_finds first
  refine ⟨call, call.cnt, trial.last, counted, tried, fun none_ positive slot below => ?_⟩
  have nothing : call.executed = [] := List.length_eq_zero_iff.mp (counted.symm.trans none_)
  have either := tried (none_ ▸ positive) slot below
  simpa [nothing] using either

/-- Two slots with a timer each, of which the second has expired. -/
private def twoSlots : List Label :=
  [.draw 0 50, .stamp 0, .push 0, .draw 0 20, .stamp 0, .push 0, .tick 120]

/-- Thread 1 tries its own slot, and then both. -/
private def trying : List Label :=
  [.loop 1, .loop 1, .loop 1, .callback 1, .finish 1, .loop 1]

theorem run_timeout_tries_all_sample :
    let step := State.step (Lib.HeapAlgorithms.sorting Task.ex) 2
    let idle := Lib.runFrom step (.initial 100) twoSlots
    let start := Lib.runFrom step idle [.call 1 0 4]
    let state := Lib.runFrom step start trying
    ∃ call value, state.calls.returned.getLast? = some ⟨1, call, value⟩ ∧
      TriesAll 2 4 (Lib.trace step start trying) call value := by
  intro step idle start state
  have prior : Lib.Path step (.initial 100) (Lib.trace step (.initial 100) twoSlots) idle :=
    Lib.path_runFrom (by decide)
  have called : step idle (.call 1 0 4) = some start := rfl
  have rest : Lib.Path step start (Lib.trace step start trying) state :=
    Lib.path_runFrom (by decide)
  have path := (prior.snoc called).trans rest
  rw [List.append_assoc, List.singleton_append] at path
  exact run_timeout_tries_all path rfl (by decide) (by decide) (by decide)

end Timed
end Cgo
