import Cgo.Timed.System
import Mathlib.Data.List.Nodup

/-!
# Timers fire once, on time and in order

A timer that was pushed stays in the heap of its slot until it is popped, and the
thread that popped it calls its callback.  A pop takes a least expiry of its
slot, once the clock has reached it; so no callback is called early or twice.
-/

namespace Cgo
namespace Timed

variable {algorithms : Algorithms} {slots : Nat}

/-! ## A pop -/

/-- A pop returns an expired timer with a least expiry, and leaves the others. -/
theorem Scheduler.pop_some
    {now : TimePoint}
    {heap rest : Heap}
    {task : Task}
    (pops : Scheduler.pop algorithms now heap = some (task, rest)) :
    task.ex ≤ now ∧ (∀ other ∈ heap.c, task.ex ≤ other.ex) ∧
      heap.c.Perm (task :: rest.c) := by
  simp only [Scheduler.pop] at pops
  split at pops
  · cases pops
  next top onTop =>
  split at pops
  · next expired =>
      obtain ⟨rfl, rfl⟩ := Prod.mk.inj (Option.some.inj pops)
      obtain ⟨others, c⟩ := Lib.PriorityQueue.c_of_top onTop
      have moved : (heap.modifyTop Task.moved fun _ => rfl).c = top.moved :: others := by
        simp [Lib.PriorityQueue.modifyTop, c]
      refine ⟨expired, Lib.PriorityQueue.top_le onTop, ?_⟩
      rw [c]
      exact ((Lib.PriorityQueue.pop_perm algorithms moved).symm).cons top
  · cases pops

/-- A pop returns nothing only while no timer of the slot has expired. -/
theorem Scheduler.pop_none
    {now : TimePoint}
    {heap : Heap}
    (nothing : Scheduler.pop algorithms now heap = none) :
    ∀ task ∈ heap.c, now < task.ex := by
  simp only [Scheduler.pop] at nothing
  split at nothing
  · next empty =>
      have none_ : heap.c = [] := List.head?_eq_none_iff.mp empty
      simp [none_]
  next top onTop =>
  split at nothing
  · cases nothing
  · next early =>
      intro task member
      exact lt_of_lt_of_le (not_le.mp early) (Lib.PriorityQueue.top_le onTop task member)

/-! ## Where the timers are -/

/-- The timers in a heap. -/
def Heap.timers (heap : Heap) : List TimerId := heap.c.filterMap Task.fn

/-- A heap with one more task has one more timer. -/
theorem Heap.count_timers
    {heap fewer : Heap}
    {task : Task}
    {timer : TimerId}
    (perm : heap.c.Perm (task :: fewer.c))
    (callable : task.fn = some timer)
    (other : TimerId) :
    heap.timers.count other = fewer.timers.count other + [timer].count other := by
  have counts := (perm.filterMap Task.fn).count_eq other
  rw [List.filterMap_cons_some callable] at counts
  rw [Heap.timers, counts, Heap.timers, ← List.singleton_append, List.count_append,
    Nat.add_comm]

/-- The task of a timer: its number is the timer's, cut to the width of `_tid`. -/
def taskOf (timer : TimerId) (ex : TimePoint) : Task := ⟨UInt64.ofNat timer, some timer, ex⟩

/-- The slot of a timer. -/
def home (slots : Nat) (timer : TimerId) : Nat := (UInt64.ofNat timer).toNat % slots

/-- The timers that were pushed are in the heap of their slot or were popped. -/
structure Stored (slots : Nat) (state : State) : Prop where
  tid : state.tid = UInt64.ofNat state.begun
  creating : ∀ thread creation, state.creating thread = some creation →
    0 < slots ∧ creation.timer < state.begun ∧ creation.id = UInt64.ofNat creation.timer ∧
      creation.timer ∉ state.created ∧
        ∀ ex, creation.ex = some ex → state.expiry creation.timer = ex
  /-- Two threads create different timers. -/
  apart : ∀ thread other creation another, state.creating thread = some creation →
    state.creating other = some another → creation.timer = another.timer → thread = other
  created : ∀ timer ∈ state.created, 0 < slots ∧ timer < state.begun
  created_nodup : state.created.Nodup
  /-- A task in a heap is one that was created, and belongs there. -/
  stored : ∀ slot, ∀ task ∈ (state.heap slot).c, ∃ timer,
    task = taskOf timer (state.expiry timer) ∧ slot = home slots timer
  counted : ∀ timer, (state.heap (home slots timer)).timers.count timer +
    state.popped.count timer = state.created.count timer

namespace Stored

variable {state after : State}

theorem initial (start : TimePoint) : Stored slots (.initial start) where
  tid := rfl
  creating := by simp [State.initial]
  apart := by simp [State.initial]
  created := by simp [State.initial]
  created_nodup := by simp [State.initial]
  stored := by simp [State.initial, Lib.PriorityQueue.empty]
  counted := by simp [State.initial, Lib.PriorityQueue.empty, Heap.timers]

/-- A timer in a heap was pushed. -/
theorem created_of_mem
    (stored : Stored slots state)
    {slot : Nat}
    {timer : TimerId}
    (member : timer ∈ (state.heap slot).timers) :
    timer ∈ state.created ∧ slot = home slots timer := by
  obtain ⟨task, inside, callback⟩ := List.mem_filterMap.mp member
  obtain ⟨other, rfl, here⟩ := stored.stored slot task inside
  obtain rfl : other = timer := by simpa [taskOf] using callback
  refine ⟨?_, here⟩
  rw [← List.count_pos_iff, ← stored.counted other, ← here]
  have positive := List.count_pos_iff.mpr member
  omega

/-- A timer that was popped was pushed. -/
theorem created_of_popped
    (stored : Stored slots state)
    {timer : TimerId}
    (popped : timer ∈ state.popped) :
    timer ∈ state.created := by
  rw [← List.count_pos_iff, ← stored.counted timer]
  have positive := List.count_pos_iff.mpr popped
  omega

private theorem draw
    {thread : ThreadId}
    {ticks : Int}
    (stored : Stored slots state)
    (slotted : 0 < slots) :
    Stored slots { state with
      tid := state.tid + 1
      creating := Function.update state.creating thread
        (some ⟨state.begun, state.tid, ticks, none⟩)
      begun := state.begun + 1 } where
  tid := by
    rw [stored.tid, UInt64.ofNat_add]
    rfl
  creating other creation creates := by
    rcases eq_or_ne other thread with rfl | different
    · obtain rfl : (⟨state.begun, state.tid, ticks, none⟩ : Creation) = creation := by
        simpa using creates
      refine ⟨slotted, Nat.lt_succ_self _, stored.tid, fun member => ?_, by simp⟩
      exact Nat.lt_irrefl _ (stored.created _ member).2
    · obtain ⟨_, early, id, fresh, expiry⟩ :=
        stored.creating other creation (by simpa [different] using creates)
      exact ⟨slotted, Nat.lt_succ_of_lt early, id, fresh, expiry⟩
  apart first second creation another firstCreates secondCreates same := by
    have early : ∀ other creation, other ≠ thread →
        Function.update state.creating thread
          (some ⟨state.begun, state.tid, ticks, none⟩) other = some creation →
        creation.timer < state.begun := fun other creation different creates =>
      (stored.creating other creation (by simpa [different] using creates)).2.1
    rcases eq_or_ne first thread with rfl | firstOther
    · rcases eq_or_ne second first with rfl | secondOther
      · rfl
      · have less := early second another secondOther secondCreates
        obtain rfl : (⟨state.begun, state.tid, ticks, none⟩ : Creation) = creation := by
          simpa using firstCreates
        exact absurd same.symm (Nat.ne_of_lt less)
    · rcases eq_or_ne second thread with rfl | secondOther
      · have less := early first creation firstOther firstCreates
        obtain rfl : (⟨state.begun, state.tid, ticks, none⟩ : Creation) = another := by
          simpa using secondCreates
        exact absurd same (Nat.ne_of_lt less)
      · exact stored.apart first second creation another
          (by simpa [firstOther] using firstCreates)
          (by simpa [secondOther] using secondCreates) same
  created timer member :=
    ⟨(stored.created timer member).1, Nat.lt_succ_of_lt (stored.created timer member).2⟩
  created_nodup := stored.created_nodup
  stored := stored.stored
  counted := stored.counted

private theorem stamp
    {thread : ThreadId}
    {timer : TimerId}
    {id : UInt64}
    {ticks : Int}
    (stored : Stored slots state)
    (creates : state.creating thread = some ⟨timer, id, ticks, none⟩) :
    Stored slots { state with
      creating := Function.update state.creating thread
        (some ⟨timer, id, ticks, some (state.now + ticks)⟩)
      expiry := Function.update state.expiry timer (state.now + ticks) } where
  tid := stored.tid
  creating other creation creates' := by
    rcases eq_or_ne other thread with rfl | different
    · obtain ⟨slotted, early, number, fresh, _⟩ := stored.creating other _ creates
      obtain rfl : (⟨timer, id, ticks, some (state.now + ticks)⟩ : Creation) = creation := by
        simpa using creates'
      refine ⟨slotted, early, number, fresh, fun ex stamped => ?_⟩
      simpa using stamped
    · have before : state.creating other = some creation := by
        simpa [different] using creates'
      obtain ⟨slotted, early, number, fresh, expiry⟩ := stored.creating other creation before
      refine ⟨slotted, early, number, fresh, fun ex stamped => ?_⟩
      have another : creation.timer ≠ timer := fun same =>
        different (stored.apart other thread _ _ before creates same)
      simpa [another] using expiry ex stamped
  apart first second creation another firstCreates secondCreates same := by
    have before : ∀ other creation, Function.update state.creating thread
        (some ⟨timer, id, ticks, some (state.now + ticks)⟩) other = some creation →
        ∃ earlier, state.creating other = some earlier ∧ earlier.timer = creation.timer := by
      intro other creation creates'
      rcases eq_or_ne other thread with rfl | different
      · obtain rfl : (⟨timer, id, ticks, some (state.now + ticks)⟩ : Creation) = creation := by
          simpa using creates'
        exact ⟨_, creates, rfl⟩
      · exact ⟨creation, by simpa [different] using creates', rfl⟩
    obtain ⟨earlier, firstBefore, firstTimer⟩ := before first creation firstCreates
    obtain ⟨earlier', secondBefore, secondTimer⟩ := before second another secondCreates
    exact stored.apart first second _ _ firstBefore secondBefore
      (firstTimer.trans (same.trans secondTimer.symm))
  created := stored.created
  created_nodup := stored.created_nodup
  stored slot task inside := by
    obtain ⟨other, rfl, here⟩ := stored.stored slot task inside
    have pushed := (stored.created_of_mem (List.mem_filterMap.mpr ⟨_, inside, rfl⟩)).1
    have another : other ≠ timer := by
      rintro rfl
      exact (stored.creating thread _ creates).2.2.2.1 pushed
    exact ⟨other, by simp [another], here⟩
  counted := stored.counted

private theorem push
    {thread : ThreadId}
    {timer : TimerId}
    {id : UInt64}
    {ticks : Int}
    {ex : TimePoint}
    (stored : Stored slots state)
    (creates : state.creating thread = some ⟨timer, id, ticks, some ex⟩) :
    Stored slots { state with
      heap := Function.update state.heap (id.toNat % slots)
        ((state.heap (id.toNat % slots)).push algorithms ⟨id, some timer, ex⟩)
      creating := Function.update state.creating thread none
      created := state.created ++ [timer] } := by
  obtain ⟨slotted, early, number, fresh, expiry⟩ := stored.creating thread _ creates
  obtain rfl : id = UInt64.ofNat timer := number
  rw [← home]
  have task : (⟨UInt64.ofNat timer, some timer, ex⟩ : Task) =
      taskOf timer (state.expiry timer) := by
    rw [taskOf, expiry ex rfl]
  have pushed := Lib.PriorityQueue.push_perm algorithms (state.heap (home slots timer))
    ⟨UInt64.ofNat timer, some timer, ex⟩
  have before : ∀ other creation, Function.update state.creating thread none other =
      some creation → other ≠ thread ∧ state.creating other = some creation := by
    intro other creation creates'
    rcases eq_or_ne other thread with rfl | different
    · simp at creates'
    · exact ⟨different, by simpa [different] using creates'⟩
  refine ⟨stored.tid, fun other creation creates' => ?_, fun first second _ _ left right same => ?_,
    fun other member => ?_, ?_, fun slot other inside => ?_, fun other => ?_⟩
  · obtain ⟨different, creates'⟩ := before other creation creates'
    obtain ⟨_, early', number, fresh', expiry'⟩ := stored.creating other creation creates'
    refine ⟨slotted, early', number, ?_, expiry'⟩
    have another : creation.timer ≠ timer := fun same =>
      different (stored.apart other thread _ _ creates' creates same)
    simpa [another] using fresh'
  · exact stored.apart first second _ _ (before first _ left).2 (before second _ right).2 same
  · rcases List.mem_append.mp member with earlier | last
    · exact stored.created other earlier
    · obtain rfl := List.mem_singleton.mp last
      exact ⟨slotted, early⟩
  · exact List.nodup_append.mpr ⟨stored.created_nodup, List.nodup_singleton _, by
      intro left inLeft right inRight
      obtain rfl := List.mem_singleton.mp inRight
      exact fun same => fresh (same ▸ inLeft)⟩
  · rcases eq_or_ne slot (home slots timer) with rfl | elsewhere
    · have inside' : other ∈ ((state.heap (home slots timer)).push algorithms
          ⟨UInt64.ofNat timer, some timer, ex⟩).c := by simpa using inside
      rcases List.mem_cons.mp (pushed.mem_iff.mp inside') with rfl | older
      · exact ⟨timer, task, rfl⟩
      · exact stored.stored _ other older
    · exact stored.stored slot other (by simpa [elsewhere] using inside)
  · rw [List.count_append, ← stored.counted other]
    rcases eq_or_ne (home slots other) (home slots timer) with same | elsewhere
    · have grown := Heap.count_timers pushed rfl other
      simp only [same, Function.update_self, grown]
      omega
    · have another : timer ≠ other := fun equal => elsewhere (by rw [equal])
      simp [elsewhere, another]

private theorem pop
    {slot : Nat}
    {task : Task}
    {rest : Heap}
    {timer : TimerId}
    (stored : Stored slots state)
    (pops : Scheduler.pop algorithms state.now (state.heap slot) = some (task, rest))
    (callable : task.fn = some timer) :
    Stored slots { state with
      heap := Function.update state.heap slot rest
      popped := state.popped ++ [timer] } := by
  obtain ⟨_, _, taken⟩ := Scheduler.pop_some pops
  obtain ⟨other, rfl, rfl⟩ := stored.stored slot task (taken.mem_iff.mpr List.mem_cons_self)
  obtain rfl : other = timer := by simpa [taskOf] using callable
  refine ⟨stored.tid, stored.creating, stored.apart, stored.created, stored.created_nodup,
    fun slot task inside => ?_, fun timer => ?_⟩
  · rcases eq_or_ne slot (home slots other) with rfl | elsewhere
    · have inside' : task ∈ rest.c := by simpa using inside
      exact stored.stored _ task (taken.mem_iff.mpr (List.mem_cons_of_mem _ inside'))
    · exact stored.stored slot task (by simpa [elsewhere] using inside)
  · rw [List.count_append, ← stored.counted timer]
    rcases eq_or_ne (home slots timer) (home slots other) with same | elsewhere
    · have shrunk := Heap.count_timers taken rfl timer
      simp only [same, Function.update_self, shrunk]
      omega
    · have another : other ≠ timer := fun equal => elsewhere (by rw [equal])
      simp [elsewhere, another]

theorem step
    {label : Label}
    (stored : Stored slots state)
    (stepped : state.step algorithms slots label = some after) :
    Stored slots after := by
  cases State.move_of_step stepped with
  | draw _ slotted => exact stored.draw slotted
  | stamp creates => exact stored.stamp creates
  | push creates => exact stored.push creates
  | pop _ _ _ pops callable =>
      have popped := stored.pop pops callable
      exact ⟨popped.tid, popped.creating, popped.apart, popped.created, popped.created_nodup,
        popped.stored, popped.counted⟩
  | _ => exact ⟨stored.tid, stored.creating, stored.apart, stored.created,
      stored.created_nodup, stored.stored, stored.counted⟩

end Stored

/-! ## What was popped and called -/

/-- What is popped was not popped before. -/
theorem Stored.not_popped
    {state : State}
    {slot : Nat}
    {timer : TimerId}
    (stored : Stored slots state)
    (member : timer ∈ (state.heap slot).timers) :
    timer ∉ state.popped := by
  obtain ⟨_, rfl⟩ := stored.created_of_mem member
  intro popped
  have once := List.nodup_iff_count_le_one.mp stored.created_nodup timer
  have counted := stored.counted timer
  have inHeap := List.count_pos_iff.mpr member
  have gone := List.count_pos_iff.mpr popped
  omega

/-- A timer that was popped has expired, is held by the thread that popped it until
that has called it, and is called once. -/
structure Once (state : State) : Prop where
  expired : ∀ timer ∈ state.popped, state.expiry timer ≤ state.now
  held : ∀ thread task called, state.held thread = some ⟨task, called⟩ →
    ∃ timer, task.fn = some timer ∧ timer ∈ state.popped
  /-- A callback that a thread has yet to call was called by nobody. -/
  uncalled : ∀ thread task timer, state.held thread = some ⟨task, false⟩ →
    task.fn = some timer → timer ∉ state.fired.map Fired.timer
  apart : ∀ thread other task another timer, state.held thread = some ⟨task, false⟩ →
    state.held other = some ⟨another, false⟩ → task.fn = some timer →
      another.fn = some timer → thread = other
  fired_nodup : (state.fired.map Fired.timer).Nodup
  fired : ∀ fired ∈ state.fired, fired.timer ∈ state.popped ∧
    state.expiry fired.timer ≤ fired.time

namespace Once

variable {state after : State}

theorem initial (start : TimePoint) : Once (.initial start) := by
  constructor <;> simp [State.initial]

private theorem stamp
    {timer : TimerId}
    (once : Once state)
    (fresh : timer ∉ state.popped)
    (creating : ThreadId → Option Creation)
    (ex : TimePoint) :
    Once { state with creating, expiry := Function.update state.expiry timer ex } where
  expired other popped := by
    have another : other ≠ timer := fun same => fresh (same ▸ popped)
    simpa [another] using once.expired other popped
  held := once.held
  uncalled := once.uncalled
  apart := once.apart
  fired_nodup := once.fired_nodup
  fired fired member := by
    obtain ⟨popped, early⟩ := once.fired fired member
    have another : fired.timer ≠ timer := fun same => fresh (same ▸ popped)
    exact ⟨popped, by simpa [another] using early⟩

private theorem pop
    {thread : ThreadId}
    {task : Task}
    {timer : TimerId}
    (once : Once state)
    (fresh : timer ∉ state.popped)
    (expired : state.expiry timer ≤ state.now)
    (callable : task.fn = some timer)
    (heap : Nat → Heap)
    (calls : Lib.Batch.Calls ThreadId TimerId) :
    Once { state with
      heap
      calls
      held := Function.update state.held thread (some ⟨task, false⟩)
      popped := state.popped ++ [timer] } := by
  have older : ∀ fired ∈ state.fired, fired.timer ≠ timer :=
    fun fired member same => fresh (same ▸ (once.fired fired member).1)
  have unheld : ∀ other another, state.held other = some ⟨another, false⟩ →
      another.fn ≠ some timer := by
    intro other another holds callback
    obtain ⟨timer', callback', popped⟩ := once.held other another false holds
    rw [callback] at callback'
    exact fresh (Option.some.inj callback' ▸ popped)
  refine ⟨fun other member => ?_, fun other another called holds => ?_,
    fun other another timer' holds callback => ?_,
    fun first second one two timer' left right callback callback' => ?_, once.fired_nodup,
    fun fired member => ?_⟩
  · rcases List.mem_append.mp member with earlier | last
    · exact once.expired other earlier
    · obtain rfl := List.mem_singleton.mp last
      exact expired
  · rcases eq_or_ne other thread with rfl | different
    · obtain ⟨rfl, -⟩ : task = another ∧ false = called := by simpa using holds
      exact ⟨timer, callable, by simp⟩
    · obtain ⟨timer', callback, popped⟩ :=
        once.held other another called (by simpa [different] using holds)
      exact ⟨timer', callback, List.mem_append_left _ popped⟩
  · rcases eq_or_ne other thread with rfl | different
    · obtain rfl : task = another := by simpa using holds
      obtain rfl := Option.some.inj (callable.symm.trans callback)
      intro called
      obtain ⟨fired, member, same⟩ := List.mem_map.mp called
      exact older fired member same
    · exact once.uncalled other another timer' (by simpa [different] using holds) callback
  · rcases eq_or_ne first thread with rfl | firstOther
    · rcases eq_or_ne second first with rfl | secondOther
      · rfl
      · obtain rfl : task = one := by simpa using left
        obtain rfl := Option.some.inj (callable.symm.trans callback)
        exact absurd callback' (unheld second two (by simpa [secondOther] using right))
    · rcases eq_or_ne second thread with rfl | secondOther
      · obtain rfl : task = two := by simpa using right
        obtain rfl := Option.some.inj (callable.symm.trans callback')
        exact absurd callback (unheld first one (by simpa [firstOther] using left))
      · exact once.apart first second one two timer' (by simpa [firstOther] using left)
          (by simpa [secondOther] using right) callback callback'
  · obtain ⟨popped, early⟩ := once.fired fired member
    exact ⟨List.mem_append_left _ popped, early⟩

private theorem callback
    {thread : ThreadId}
    {task : Task}
    {timer : TimerId}
    (once : Once state)
    (holds : state.held thread = some ⟨task, false⟩)
    (callable : task.fn = some timer) :
    Once { state with
      held := Function.update state.held thread (some ⟨task, true⟩)
      fired := state.fired ++ [⟨thread, timer, state.now⟩] } := by
  have popped : timer ∈ state.popped := by
    obtain ⟨timer', callable', popped⟩ := once.held thread task false holds
    obtain rfl := Option.some.inj (callable.symm.trans callable')
    exact popped
  have before : ∀ other another, Function.update state.held thread (some ⟨task, true⟩) other =
      some ⟨another, false⟩ → other ≠ thread ∧ state.held other = some ⟨another, false⟩ := by
    intro other another holds'
    rcases eq_or_ne other thread with rfl | different
    · simp at holds'
    · exact ⟨different, by simpa [different] using holds'⟩
  refine ⟨once.expired, fun other another called holds' => ?_,
    fun other another timer' holds' callback => ?_,
    fun first second one two timer' left right callback callback' => ?_, ?_,
    fun fired member => ?_⟩
  · rcases eq_or_ne other thread with rfl | different
    · obtain ⟨rfl, -⟩ : task = another ∧ true = called := by simpa using holds'
      exact ⟨timer, callable, popped⟩
    · exact once.held other another called (by simpa [different] using holds')
  · obtain ⟨different, earlier⟩ := before other another holds'
    have another_ : timer' ≠ timer := by
      rintro rfl
      exact different (once.apart other thread another task timer' earlier holds callback callable)
    simpa [another_] using once.uncalled other another timer' earlier callback
  · exact once.apart first second one two timer' (before first one left).2
      (before second two right).2 callback callback'
  · rw [List.map_append]
    refine List.nodup_append.mpr ⟨once.fired_nodup, List.nodup_singleton _, ?_⟩
    intro earlier called last isLast same
    obtain rfl : last = timer := by simpa using isLast
    subst same
    exact once.uncalled thread task earlier holds callable called
  · rcases List.mem_append.mp member with earlier | last
    · exact once.fired fired earlier
    · obtain rfl := List.mem_singleton.mp last
      exact ⟨popped, once.expired timer popped⟩

private theorem finish
    {thread : ThreadId}
    (once : Once state)
    (calls : Lib.Batch.Calls ThreadId TimerId) :
    Once { state with calls, held := Function.update state.held thread none } := by
  have before : ∀ other held, Function.update state.held thread none other = some held →
      state.held other = some held := by
    intro other held holds
    rcases eq_or_ne other thread with rfl | different
    · simp at holds
    · simpa [different] using holds
  refine ⟨once.expired, fun other task called holds => ?_, fun other task timer holds => ?_,
    fun first second one two timer left right => ?_, once.fired_nodup, once.fired⟩
  · exact once.held other task called (before other _ holds)
  · exact once.uncalled other task timer (before other _ holds)
  · exact once.apart first second one two timer (before first _ left) (before second _ right)

theorem step
    {label : Label}
    (once : Once state)
    (stored : Stored slots state)
    (stepped : state.step algorithms slots label = some after) :
    Once after := by
  cases State.move_of_step stepped with
  | tick later =>
      refine ⟨fun timer popped => ?_, once.held, once.uncalled, once.apart, once.fired_nodup,
        once.fired⟩
      exact (once.expired timer popped).trans later
  | @stamp thread timer id ticks creates =>
      refine once.stamp (fun popped => ?_) _ _
      exact (stored.creating thread _ creates).2.2.2.1 (stored.created_of_popped popped)
  | pop running idle tries pops callable =>
      obtain ⟨expired, _, taken⟩ := Scheduler.pop_some pops
      obtain ⟨timer, rfl, _⟩ := stored.stored _ _ (taken.mem_iff.mpr List.mem_cons_self)
      obtain rfl := Option.some.inj callable
      have inHeap := List.mem_filterMap.mpr ⟨_, taken.mem_iff.mpr List.mem_cons_self, callable⟩
      exact once.pop (stored.not_popped inHeap) expired callable _ _
  | callback holds callable => exact once.callback holds callable
  | finish => exact once.finish _
  | _ => exact ⟨once.expired, once.held, once.uncalled, once.apart, once.fired_nodup, once.fired⟩

end Once

/-! ## What a call has called back -/

/-- The callbacks that a thread has called. -/
def State.firedBy (state : State) (thread : ThreadId) : List TimerId :=
  (state.fired.filter fun fired => fired.thread = thread).map Fired.timer

/-- The callback that a thread is about to call. -/
def State.pending (state : State) (thread : ThreadId) : List TimerId :=
  match state.held thread with
  | some ⟨task, false⟩ => task.fn.toList
  | _ => []

/-- The calls of `run_timeout` count the callbacks they call. -/
structure Counting (state : State) : Prop where
  calls : state.calls.Sound fun thread => state.firedBy thread ++ state.pending thread
  busy : ∀ thread held, state.held thread = some held →
    ∃ call, state.calls.running thread = some call ∧ call.pc.executing = true
  /-- What a thread holds is the last that its call has taken. -/
  last : ∀ thread held, state.held thread = some held →
    ∃ earlier, state.calls.current thread = earlier ++ held.task.fn.toList

namespace Counting

variable {state after : State}

theorem initial (start : TimePoint) : Counting (.initial start) where
  calls := .initial
  busy := by simp [State.initial]
  last := by simp [State.initial]

/-- A thread whose call executes nothing holds nothing. -/
theorem free_of_idle
    {thread : ThreadId}
    {call : Lib.Batch.Call TimerId}
    (counting : Counting state)
    (running : state.calls.running thread = some call)
    (idle : call.pc.executing = false) :
    state.held thread = none := by
  cases holds : state.held thread with
  | none => rfl
  | some held =>
      obtain ⟨other, running', executing⟩ := counting.busy thread held holds
      rw [running] at running'
      obtain rfl := Option.some.inj running'
      rw [idle] at executing
      cases executing

/-- A turn of a thread leaves what the others hold with their calls. -/
private theorem others
    {thread other : ThreadId}
    {held : Held}
    (counting : Counting state)
    (outcome : Lib.Batch.Outcome TimerId)
    (different : other ≠ thread)
    (holds : state.held other = some held) :
    (∃ call, (state.calls.settle thread outcome).running other = some call ∧
      call.pc.executing = true) ∧
    ∃ earlier, (state.calls.settle thread outcome).current other =
      earlier ++ held.task.fn.toList := by
  rw [state.calls.running_settle_of_ne different, state.calls.current_settle_of_ne different]
  exact ⟨counting.busy other held holds, counting.last other held holds⟩

/-- A turn in which the thread holds nothing. -/
private theorem turn
    {thread : ThreadId}
    {outcome : Lib.Batch.Outcome TimerId}
    (counting : Counting state)
    (free : state.held thread = none)
    (calls : (state.calls.settle thread outcome).Sound
      fun thread => state.firedBy thread ++ state.pending thread)
    (pindex : ThreadId → UInt64) :
    Counting { state with pindex, calls := state.calls.settle thread outcome } := by
  have different : ∀ other held, state.held other = some held → other ≠ thread := by
    rintro other held holds rfl
    rw [free] at holds
    cases holds
  refine ⟨calls, fun other held holds => ?_, fun other held holds => ?_⟩
  · exact (counting.others outcome (different other held holds) holds).1
  · exact (counting.others outcome (different other held holds) holds).2

private theorem pop
    {thread : ThreadId}
    {call : Lib.Batch.Call TimerId}
    {i : Nat}
    {task : Task}
    {timer : TimerId}
    (counting : Counting state)
    (running : state.calls.running thread = some call)
    (idle : call.pc.executing = false)
    (tries : call.offset? slots = some i)
    (callable : task.fn = some timer)
    (heap : Nat → Heap) :
    Counting { state with
      heap
      calls := state.calls.settle thread (.goesOn (call.found timer))
      held := Function.update state.held thread (some ⟨task, false⟩)
      popped := state.popped ++ [timer] } := by
  have free := counting.free_of_idle running idle
  refine ⟨(counting.calls.found running tries timer).congr fun other => ?_,
    fun other held holds => ?_, fun other held holds => ?_⟩
  · rcases eq_or_ne other thread with rfl | different
    · simp [State.firedBy, State.pending, free, callable]
    · simp [State.firedBy, State.pending, different]
  · rcases eq_or_ne other thread with rfl | different
    · exact ⟨call.found timer, state.calls.running_settle_goesOn other _,
        call.executing_found timer⟩
    · exact (counting.others (.goesOn (call.found timer)) different
        (by simpa [different] using holds)).1
  · rcases eq_or_ne other thread with rfl | different
    · obtain rfl : (⟨task, false⟩ : Held) = held := by simpa using holds
      refine ⟨call.executed, ?_⟩
      simp [Lib.Batch.Calls.current, Lib.Batch.Call.found, callable]
    · exact (counting.others (.goesOn (call.found timer)) different
        (by simpa [different] using holds)).2

private theorem callback
    {thread : ThreadId}
    {task : Task}
    {timer : TimerId}
    (counting : Counting state)
    (holds : state.held thread = some ⟨task, false⟩)
    (callable : task.fn = some timer) :
    Counting { state with
      held := Function.update state.held thread (some ⟨task, true⟩)
      fired := state.fired ++ [⟨thread, timer, state.now⟩] } := by
  have before : ∀ other held, Function.update state.held thread (some ⟨task, true⟩) other =
      some held → ∃ earlier, state.held other = some earlier ∧ earlier.task = held.task := by
    intro other held holds'
    rcases eq_or_ne other thread with rfl | different
    · obtain rfl : (⟨task, true⟩ : Held) = held := by simpa using holds'
      exact ⟨_, holds, rfl⟩
    · exact ⟨held, by simpa [different] using holds', rfl⟩
  refine ⟨counting.calls.congr fun other => ?_, fun other held holds' => ?_,
    fun other held holds' => ?_⟩
  · rcases eq_or_ne other thread with rfl | different
    · simp [State.firedBy, State.pending, holds, callable]
    · simp [State.firedBy, State.pending, different, different.symm]
  · obtain ⟨earlier, held', _⟩ := before other held holds'
    exact counting.busy other earlier held'
  · obtain ⟨earlier, held', same⟩ := before other held holds'
    rw [← same]
    exact counting.last other earlier held'

private theorem finish
    {thread : ThreadId}
    {task : Task}
    {call : Lib.Batch.Call TimerId}
    (counting : Counting state)
    (holds : state.held thread = some ⟨task, true⟩)
    (running : state.calls.running thread = some call) :
    Counting { state with
      calls := state.calls.settle thread call.finished
      held := Function.update state.held thread none } := by
  have executing : call.pc.executing = true := by
    obtain ⟨other, running', executing⟩ := counting.busy thread _ holds
    rw [running] at running'
    exact Option.some.inj running' ▸ executing
  have before : ∀ other held, Function.update state.held thread none other = some held →
      other ≠ thread ∧ state.held other = some held := by
    intro other held holds'
    rcases eq_or_ne other thread with rfl | different
    · simp at holds'
    · exact ⟨different, by simpa [different] using holds'⟩
  refine ⟨(counting.calls.finished running executing).congr fun other => ?_,
    fun other held holds' => ?_, fun other held holds' => ?_⟩
  · rcases eq_or_ne other thread with rfl | different
    · simp [State.firedBy, State.pending, holds]
    · simp [State.firedBy, State.pending, different]
  · obtain ⟨different, holds'⟩ := before other held holds'
    exact (counting.others _ different holds').1
  · obtain ⟨different, holds'⟩ := before other held holds'
    exact (counting.others _ different holds').2

theorem step
    {label : Label}
    (counting : Counting state)
    (stepped : state.step algorithms slots label = some after) :
    Counting after := by
  cases State.move_of_step stepped with
  | @call thread pindex batchSize idle =>
      have free : state.held thread = none := by
        cases holds : state.held thread with
        | none => rfl
        | some held =>
            obtain ⟨other, running, _⟩ := counting.busy thread held holds
            rw [idle] at running
            cases running
      exact counting.turn free (counting.calls.start idle batchSize) _
  | leave running idle stops =>
      exact counting.turn (counting.free_of_idle running idle)
        (counting.calls.left running idle stops) _
  | miss running idle tries =>
      exact counting.turn (counting.free_of_idle running idle)
        (counting.calls.missed running tries) _
  | pop running idle tries pops callable =>
      exact counting.pop running idle tries callable _
  | callback holds callable => exact counting.callback holds callable
  | finish holds running => exact counting.finish holds running
  | _ => exact ⟨counting.calls, counting.busy, counting.last⟩

end Counting

/-- A timer that was pushed is in the heap of its slot or was popped, and once. -/
theorem Stored.placed
    {state : State}
    {timer : TimerId}
    (stored : Stored slots state)
    (created : timer ∈ state.created) :
    (∃ slot < slots, (state.heap slot).timers.count timer = 1 ∧
        (∀ other, other ≠ slot → timer ∉ (state.heap other).timers) ∧
          state.popped.count timer = 0) ∨
      (∀ slot, timer ∉ (state.heap slot).timers) ∧ state.popped.count timer = 1 := by
  have counted := stored.counted timer
  rw [List.count_eq_one_of_mem stored.created_nodup created] at counted
  rcases Nat.eq_zero_or_pos (state.popped.count timer) with unpopped | popped
  · refine .inl ⟨home slots timer, Nat.mod_lt _ (stored.created timer created).1, ?_,
      fun other elsewhere inHeap => ?_, unpopped⟩
    · omega
    · exact elsewhere (stored.created_of_mem inHeap).2
  · refine .inr ⟨fun slot inHeap => ?_, by omega⟩
    have here := (stored.created_of_mem inHeap).2
    have positive := List.count_pos_iff.mpr inHeap
    rw [here] at positive
    omega

/-- A thread has called back all that its calls have taken, but for the last. -/
theorem Counting.executes
    {state : State}
    (counting : Counting state)
    (thread : ThreadId) :
    ∃ called, state.firedBy thread = state.calls.past thread ++ called ∧
      state.calls.current thread = called ++ state.pending thread := by
  have executed := counting.calls.executed thread
  have settled : state.pending thread = [] →
      ∃ called, state.firedBy thread = state.calls.past thread ++ called ∧
        state.calls.current thread = called ++ state.pending thread := by
    intro nothing
    refine ⟨state.calls.current thread, ?_, by simp [nothing]⟩
    simpa [nothing] using executed
  rcases holds : state.held thread with _ | ⟨task, called⟩
  · exact settled (by simp [State.pending, holds])
  · cases called with
    | true => exact settled (by simp [State.pending, holds])
    | false =>
        obtain ⟨earlier, current⟩ := counting.last thread _ holds
        have pending : state.pending thread = task.fn.toList := by simp [State.pending, holds]
        refine ⟨earlier, ?_, by rw [current, pending]⟩
        rw [current, pending, ← List.append_assoc] at executed
        exact List.append_cancel_right executed

theorem Counting.of_reached
    {start : TimePoint}
    {state : State}
    (reached : state.Reached algorithms slots start) :
    Counting state :=
  reached.invariant (.initial start) fun _ _ _ counting stepped => counting.step stepped

end Timed
end Cgo
