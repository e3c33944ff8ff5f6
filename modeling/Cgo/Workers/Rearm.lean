import Cgo.Workers.System
import Mathlib.Data.List.Chain

/-!
# Waiting for a lazy signal

`BaseLazySignal::wait` in one thread against `emit` in any number of threads, with a
step for each test outside the lock and each locked section.  Nothing sets `_emitted`
to `false` again, so the first emission ends the wait that is blocked and every later
one.
-/

namespace Cgo
namespace Workers

/-- A thread that calls `emit`. -/
abbrev Emitter := Nat

/-- Where the waiting thread is. -/
inductive Rearm.Waiter where
  | idle
  /-- Before the test outside the lock. -/
  | called
  /-- Before the lock. -/
  | locking
  /-- In `_wait`, with the emission that has notified it. -/
  | blocked (by_ : Option Nat)
  deriving DecidableEq

/-- A wait that has returned: the emission that ended it, if one did, whether it called
`_wait`, and the emissions so far. -/
structure Rearm.Return where
  emission : Option Nat
  blocked : Bool
  emissions : Nat
  deriving DecidableEq

/-- The signal and its threads.  The code keeps neither the number of the calls of
`_emit` nor the waits that have returned. -/
structure Rearm where
  signal : LazySignal
  waiter : Rearm.Waiter
  /-- The thread has found that it should emit, and has not taken the lock. -/
  emitting : Emitter → Bool
  emissions : Nat
  returns : List Rearm.Return

namespace Rearm

/-- A new signal. -/
def initial : Rearm where
  signal := .initial
  waiter := .idle
  emitting := fun _ => false
  emissions := 0
  returns := []

inductive Label where
  /-- `wait` is called. -/
  | call
  /-- Its test of `_emitted` outside the lock. -/
  | test
  /-- Its locked section, up to `_wait`. -/
  | enter
  /-- `_wait` returns, because it was notified or not. -/
  | leave (notified : Bool)
  /-- `emit` is called, and tests outside the lock. -/
  | emit (thread : Emitter)
  /-- Its locked section. -/
  | locked (thread : Emitter)
  deriving DecidableEq

/-- `wait` returns. -/
def ret (state : Rearm) (emission : Option Nat) (blocked : Bool) : Rearm :=
  { state with
    waiter := .idle
    returns := state.returns ++ [⟨emission, blocked, state.emissions⟩] }

/-- The emission that has set `_emitted`. -/
def latest (state : Rearm) : Option Nat :=
  some (state.emissions - 1)

/-- `_emit`, which is `_cond.notify_one()`, and `_emitted = true`. -/
def emission (state : Rearm) : Rearm :=
  { state with
    signal := state.signal.emit
    waiter :=
      match state.waiter with
      | .blocked _ => .blocked (some state.emissions)
      | waiter => waiter
    emissions := state.emissions + 1 }

/-- One step. -/
def step (state : Rearm) : Label → Option Rearm
  | .call => if state.waiter = .idle then some { state with waiter := .called } else none
  | .test =>
      if state.waiter = .called then
        if state.signal.emitted then some (state.ret state.latest false)
        else some { state with waiter := .locking }
      else none
  | .enter =>
      if state.waiter = .locking then
        if state.signal.emitted then some (state.ret state.latest false)
        else some { state with
          signal := { waited := true, emitted := false }
          waiter := .blocked none }
      else none
  | .leave notified =>
      match state.waiter with
      | .blocked by_ =>
          let state := { state with signal := { state.signal with waited := false } }
          if notified then
            match by_ with
            | some number => some (state.ret (some number) true)
            | none => none
          else some (state.ret none true)
      | _ => none
  | .emit thread =>
      if state.emitting thread = false then
        some { state with
          emitting := Function.update state.emitting thread state.signal.emits }
      else none
  | .locked thread =>
      if state.emitting thread = true then
        let state := { state with emitting := Function.update state.emitting thread false }
        if state.signal.emits then some state.emission else some state
      else none

/-- What a step can do. -/
inductive Move (state : Rearm) : Label → Rearm → Prop
  | call (idle : state.waiter = .idle) :
      Move state .call { state with waiter := .called }
  | pass (called : state.waiter = .called)
      (unemitted : state.signal.emitted = false) :
      Move state .test { state with waiter := .locking }
  | skip {label : Label}
      (waits : state.waiter = .called ∨ state.waiter = .locking)
      (emitted : state.signal.emitted = true) :
      Move state label (state.ret state.latest false)
  | block (locks : state.waiter = .locking)
      (unemitted : state.signal.emitted = false) :
      Move state .enter
        { state with
          signal := { waited := true, emitted := false }
          waiter := .blocked none }
  | leave {notified : Bool} {by_ emission : Option Nat}
      (blocks : state.waiter = .blocked by_)
      (reason : emission = none ∨ emission = by_) :
      Move state (.leave notified)
        ({ state with signal := { state.signal with waited := false } }.ret emission true)
  | spare {label : Label} {emitting : Emitter → Bool} :
      Move state label { state with emitting }
  | emission {thread : Emitter}
      (emits : state.signal.emits = true) :
      Move state (.locked thread)
        { state with emitting := Function.update state.emitting thread false }.emission

variable {state before after : Rearm} {label : Label}

theorem move_of_step
    (stepped : before.step label = some after) :
    Move before label after := by
  cases label with
  | call =>
      simp only [step, Option.ite_none_right_eq_some, Option.some.injEq] at stepped
      obtain ⟨idle, rfl⟩ := stepped
      exact .call idle
  | test =>
      simp only [step, Option.ite_none_right_eq_some] at stepped
      obtain ⟨called, stepped⟩ := stepped
      split at stepped
      · next emitted =>
          obtain rfl := Option.some.inj stepped
          exact .skip (.inl called) emitted
      · next unemitted =>
          obtain rfl := Option.some.inj stepped
          exact .pass called (by simpa using unemitted)
  | enter =>
      simp only [step, Option.ite_none_right_eq_some] at stepped
      obtain ⟨locks, stepped⟩ := stepped
      split at stepped
      · next emitted =>
          obtain rfl := Option.some.inj stepped
          exact .skip (.inr locks) emitted
      · next unemitted =>
          obtain rfl := Option.some.inj stepped
          exact .block locks (by simpa using unemitted)
  | leave notified =>
      simp only [step] at stepped
      split at stepped
      · next by_ blocks =>
          split at stepped
          · split at stepped
            · next number =>
                obtain rfl := Option.some.inj stepped
                exact .leave blocks (.inr rfl)
            · cases stepped
          · obtain rfl := Option.some.inj stepped
            exact .leave blocks (.inl rfl)
      · cases stepped
  | emit thread =>
      simp only [step, Option.ite_none_right_eq_some, Option.some.injEq] at stepped
      obtain ⟨-, rfl⟩ := stepped
      exact .spare
  | locked thread =>
      simp only [step, Option.ite_none_right_eq_some] at stepped
      obtain ⟨-, stepped⟩ := stepped
      split at stepped
      · next emits =>
          obtain rfl := Option.some.inj stepped
          exact .emission emits
      · obtain rfl := Option.some.inj stepped
        exact .spare

/-! ## What is emitted stays emitted -/

/-- What holds in every state: there is one emission at most, number 0. -/
structure Spent (state : Rearm) : Prop where
  waited : state.signal.waited = true ↔ ∃ by_, state.waiter = .blocked by_
  emissions : state.emissions = if state.signal.emitted then 1 else 0
  notified : ∀ by_, state.waiter = .blocked by_ →
    by_ = if state.signal.emitted then some 0 else none
  returns : ∀ ended ∈ state.returns, ended.emission = none ∨
    ended.emission = some 0 ∧ state.signal.emitted = true

namespace Spent

theorem initial : Spent Rearm.initial where
  waited := by simp [Rearm.initial, LazySignal.initial]
  emissions := rfl
  notified := by simp [Rearm.initial]
  returns := by simp [Rearm.initial]

theorem latest
    (spent : Spent state)
    (emitted : state.signal.emitted = true) :
    state.latest = some 0 := by
  rw [Rearm.latest, spent.emissions, emitted]
  rfl

/-- A wait returns. -/
theorem ret
    (spent : Spent state)
    {emission : Option Nat}
    {blocked : Bool}
    (quiet : state.signal.waited = false)
    (reason : emission = none ∨ emission = some 0 ∧ state.signal.emitted = true) :
    Spent (state.ret emission blocked) where
  waited := by simp [Rearm.ret, quiet]
  emissions := spent.emissions
  notified := by simp [Rearm.ret]
  returns := by
    simp only [Rearm.ret, List.forall_mem_append, List.forall_mem_singleton]
    exact ⟨spent.returns, reason⟩

/-- What a step preserves. -/
theorem step
    (spent : Spent before)
    (stepped : before.step label = some after) :
    Spent after := by
  have unwaited (running : ∀ by_, before.waiter ≠ .blocked by_) :
      before.signal.waited = false := by
    rw [← Bool.not_eq_true, spent.waited]
    rintro ⟨by_, blocked⟩
    exact running by_ blocked
  cases move_of_step stepped with
  | call idle =>
      have quiet := unwaited (by simp [idle])
      exact ⟨by simp [quiet], spent.emissions, by simp, spent.returns⟩
  | pass called unemitted =>
      have quiet := unwaited (by simp [called])
      exact ⟨by simp [quiet], spent.emissions, by simp, spent.returns⟩
  | skip waits emitted =>
      apply spent.ret
      · apply unwaited
        rcases waits with waits | waits <;> simp [waits]
      · exact .inr ⟨spent.latest emitted, emitted⟩
  | block locks unemitted =>
      refine ⟨by simp, ?_, by simp, ?_⟩
      · simpa [unemitted] using spent.emissions
      · simpa [unemitted] using spent.returns
  | @leave notified by_ emission blocks reason =>
      have cleared : Spent { before with
          signal := { before.signal with waited := false }
          waiter := .idle } :=
        ⟨by simp, spent.emissions, by simp, spent.returns⟩
      apply cleared.ret rfl
      rcases reason with rfl | rfl
      · exact .inl rfl
      · have notifier := spent.notified emission blocks
        cases emitted : before.signal.emitted with
        | true => exact .inr ⟨by simpa [emitted] using notifier, rfl⟩
        | false => exact .inl (by simpa [emitted] using notifier)
  | spare => exact ⟨spent.waited, spent.emissions, spent.notified, spent.returns⟩
  | emission emits =>
      obtain ⟨waited, unemitted⟩ : before.signal.waited = true ∧ before.signal.emitted = false := by
        simpa [LazySignal.emits] using emits
      obtain ⟨by_, blocked⟩ := spent.waited.mp waited
      have none : before.emissions = 0 := by simpa [unemitted] using spent.emissions
      refine ⟨?_, ?_, ?_, ?_⟩
      · simp [Rearm.emission, LazySignal.emit, emits, waited, blocked]
      · simp [Rearm.emission, LazySignal.emit, emits, none]
      · simp [Rearm.emission, LazySignal.emit, emits, blocked, none]
      · intro ended member
        rcases spent.returns ended member with quiet | ⟨-, emitted⟩
        · exact .inl quiet
        · simp [unemitted] at emitted

theorem of_reached
    (reached : Lib.Reachable Rearm.step Rearm.initial state) :
    Spent state :=
  reached.invariant .initial fun _ _ _ spent stepped => spent.step stepped

end Spent

/-! ## Waits up to the first emission -/

/-- Each emission ends at most one wait; after a wait that an emission ended, the next one
calls `_wait` unless there was another emission; and an `emit` during a wait that no
emission has ended yet calls `_emit`. -/
structure Rearms (state : Rearm) : Prop where
  once : (state.returns.filterMap Return.emission).Nodup
  blocks : state.returns.IsChain fun earlier later =>
    earlier.emission ≠ none → later.blocked = true ∨ earlier.emissions < later.emissions
  again : state.waiter = .blocked none → state.signal.emits = true

/-- No wait is called after one that an emission ended. -/
def Unspent (transition : Lib.Transition Rearm Label) : Prop :=
  transition.label = .call → ∀ ended ∈ transition.before.returns, ended.emission = none

instance (transition : Lib.Transition Rearm Label) : Decidable (Unspent transition) :=
  inferInstanceAs (Decidable
    (transition.label = .call → ∀ ended ∈ transition.before.returns, ended.emission = none))

/-- At most the last wait was ended by an emission, and none when a wait is under way. -/
structure Few (state : Rearm) : Prop where
  last : ∃ calm rest, state.returns = calm ++ rest ∧
    (∀ ended ∈ calm, ended.emission = none) ∧ rest.length ≤ 1
  quiet : state.waiter ≠ .idle → ∀ ended ∈ state.returns, ended.emission = none

namespace Few

theorem initial : Few Rearm.initial where
  last := ⟨[], [], rfl, by simp, by simp⟩
  quiet := by simp [Rearm.initial]

theorem ret
    (few : Few state)
    (waits : state.waiter ≠ .idle)
    {emission : Option Nat}
    {blocked : Bool} :
    Few (state.ret emission blocked) where
  last := ⟨state.returns, _, rfl, few.quiet waits, Nat.le_refl _⟩
  quiet := by simp [Rearm.ret]

/-- What such a step preserves. -/
theorem step
    (few : Few before)
    (stepped : before.step label = some after)
    (unspent : Unspent ⟨before, label, after⟩) :
    Few after := by
  cases move_of_step stepped with
  | call idle => exact ⟨few.last, fun _ => unspent rfl⟩
  | pass called unemitted => exact ⟨few.last, fun _ => few.quiet (by simp [called])⟩
  | skip waits emitted =>
      apply few.ret
      rcases waits with waits | waits <;> simp [waits]
  | block locks unemitted => exact ⟨few.last, fun _ => few.quiet (by simp [locks])⟩
  | leave blocks reason =>
      have waits : before.waiter ≠ .idle := by simp [blocks]
      have same : Few { before with signal := { before.signal with waited := false } } :=
        ⟨few.last, few.quiet⟩
      exact same.ret waits
  | spare => exact ⟨few.last, few.quiet⟩
  | emission emits =>
      refine ⟨few.last, fun waits => few.quiet ?_⟩
      intro idle
      simp [Rearm.emission, idle] at waits

/-- The signal rearms as long as waits are few. -/
theorem rearms
    (few : Few state)
    (spent : Spent state) :
    Rearms state where
  once := by
    obtain ⟨calm, rest, split, quiet, short⟩ := few.last
    have none : calm.filterMap Return.emission = [] := by
      simpa [List.filterMap_eq_nil_iff] using quiet
    rw [split, List.filterMap_append, none, List.nil_append]
    have shorter := rest.length_filterMap_le Return.emission
    rcases found : rest.filterMap Return.emission with _ | ⟨only, _ | ⟨second, more⟩⟩
    · exact List.nodup_nil
    · simp
    · simp only [found, List.length_cons] at shorter
      omega
  blocks := by
    obtain ⟨calm, rest, split, quiet, short⟩ := few.last
    rw [split, List.isChain_append]
    refine ⟨?_, ?_, ?_⟩
    · apply List.Pairwise.isChain
      apply List.pairwise_of_forall_mem_list
      intro earlier member later _ ended
      exact absurd (quiet earlier member) ended
    · rcases rest with _ | ⟨only, _ | ⟨second, more⟩⟩
      · exact .nil
      · exact .singleton _
      · simp at short
    · intro earlier member later _ ended
      exact absurd (quiet earlier (List.mem_of_getLast? member)) ended
  again := by
    intro blocked
    have waited := spent.waited.mpr ⟨none, blocked⟩
    have notifier := spent.notified none blocked
    cases emitted : state.signal.emitted with
    | true => simp [emitted] at notifier
    | false => simp [LazySignal.emits, waited, emitted]

end Few

/-- A wait that is called after one that an emission ended returns at once, and was ended
by the same emission. -/
theorem not_rearms_of_spent
    (spent : Spent state)
    (ended : ∃ ended ∈ state.returns, ended.emission ≠ none)
    (idle : state.waiter = .idle) :
    ∃ later, Lib.run step state [.call, .test] = some later ∧ ¬Rearms later := by
  obtain ⟨earlier, member, byEmission⟩ := ended
  rcases spent.returns earlier member with none | ⟨first, emitted⟩
  · exact absurd none byEmission
  · have returns : Lib.run step state [.call, .test] =
        some ({ state with waiter := .called }.ret state.latest false) := by
      simp [Lib.run, step, idle, emitted, latest]
    refine ⟨_, returns, fun rearms => ?_⟩
    have once := rearms.once
    simp only [ret, spent.latest emitted, List.filterMap_append] at once
    have apart := (List.nodup_append.mp once).2.2
    exact apart 0 (List.mem_filterMap.mpr ⟨earlier, member, first⟩) 0 (by simp) rfl

end Rearm

open Rearm in
/-- In every run in which no wait is called after one that an emission ended, the signal
rearms in every state.  In every state that is reached with such a wait behind it, one
more wait breaks it. -/
theorem signal_rearms
    {taken : List (Lib.Transition Rearm Rearm.Label)}
    {state : Rearm}
    (path : Lib.Path Rearm.step Rearm.initial taken state) :
    ((∀ transition ∈ taken, Unspent transition) → Rearms state) ∧
      ((∃ ended ∈ state.returns, ended.emission ≠ none) → state.waiter = .idle →
        ∃ later, Lib.run Rearm.step state [.call, .test] = some later ∧ ¬Rearms later) := by
  constructor
  · intro unspent
    have few : Few state := path.guarded_invariant unspent .initial
      fun _ _ _ _ few unspent stepped => few.step stepped unspent
    exact few.rearms (Spent.of_reached ⟨taken, path⟩)
  · intro ended idle
    exact not_rearms_of_spent (Spent.of_reached ⟨taken, path⟩) ended idle

/-- One wait, ended by an emission. -/
private def oneWait : List Rearm.Label :=
  [.call, .test, .enter, .emit 0, .locked 0, .leave true]

theorem signal_rearms_sample :
    (Lib.runFrom Rearm.step Rearm.initial oneWait).Rearms := by
  have path : Lib.Path Rearm.step Rearm.initial (Lib.trace Rearm.step Rearm.initial oneWait)
      (Lib.runFrom Rearm.step Rearm.initial oneWait) := Lib.path_runFrom (by decide)
  apply (signal_rearms path).1
  decide

/-- The second wait is ended by the same emission. -/
theorem second_wait_not_blocked :
    ¬∀ state, Lib.Reachable Rearm.step Rearm.initial state → state.Rearms := by
  intro rearms
  have once := (rearms (Lib.runFrom Rearm.step Rearm.initial (oneWait ++ [.call, .test]))
    (Lib.Reachable.runFrom _ _ _)).once
  exact absurd once (by decide)

end Workers
end Cgo
