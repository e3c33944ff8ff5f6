import Cgo.Lib.Critical

/-!
# The spin lock

`Spinlock::lock` and `Spinlock::unlock` around the sections of any operations, with
each access to the atomic flag and each step inside a section on its own.
`compare_exchange_weak` may fail although the flag has the expected value, and a
failure overwrites `expected`.
-/

namespace Cgo
namespace Schedule

open Lib (Section Service Phase Locked Atomic)

variable {Thread Operation Data Result Client : Type}

/-- Where a thread is in `lock`, the section and `unlock`. -/
inductive Spinning (Operation Data Result : Type)
  | outside
  /-- At `compare_exchange_weak`, with `expected`. -/
  | exchanging (operation : Operation) (expected : Bool)
  /-- In the body of the loop. -/
  | failed (operation : Operation) (expected : Bool)
  | inside (operation : Operation) (body : Section Data Result)

/-- A spin lock, the data it guards, and the threads. -/
structure Spinlock (Thread Operation Data Result Client : Type) where
  locked : Bool
  data : Data
  client : Client
  phase : Thread → Spinning Operation Data Result

inductive Spinlock.Label (Thread Operation : Type)
  /-- A thread calls an operation and sets `expected`. -/
  | call (thread : Thread) (operation : Operation)
  /-- `compare_exchange_weak`, and whether it fails for no reason. -/
  | exchange (thread : Thread) (spurious : Bool)
  /-- `expected = false` in the loop. -/
  | reset (thread : Thread)
  /-- One step of the section. -/
  | advance (thread : Thread)
  /-- `unlock`. -/
  | unlock (thread : Thread)

namespace Spinlock

/-- The lock is free and no thread has called. -/
def initial (data : Data) (client : Client) :
    Spinlock Thread Operation Data Result Client where
  locked := false
  data := data
  client := client
  phase := fun _ => .outside

variable [DecidableEq Thread]

/-- The state with another phase of a thread. -/
def setPhase
    (lock : Spinlock Thread Operation Data Result Client)
    (thread : Thread)
    (phase : Spinning Operation Data Result) :
    Spinlock Thread Operation Data Result Client :=
  { lock with phase := Function.update lock.phase thread phase }

variable (service : Service Operation Data Result Client)

/-- The next state, or `none` when the step is not enabled. -/
def step (lock : Spinlock Thread Operation Data Result Client) :
    Label Thread Operation → Option (Spinlock Thread Operation Data Result Client)
  | .call thread operation =>
      match lock.phase thread with
      | .outside =>
          (service.call lock.client operation).map fun client =>
            { lock with client }.setPhase thread (.exchanging operation false)
      | _ => none
  | .exchange thread spurious =>
      match lock.phase thread with
      | .exchanging operation expected =>
          if lock.locked = expected ∧ spurious = false then
            some ({ lock with locked := true }.setPhase thread
              (.inside operation (service.body operation)))
          -- a failed exchange loads the flag into `expected`
          else some (lock.setPhase thread (.failed operation lock.locked))
      | _ => none
  | .reset thread =>
      match lock.phase thread with
      | .failed operation _ => some (lock.setPhase thread (.exchanging operation false))
      | _ => none
  | .advance thread =>
      match lock.phase thread with
      | .inside operation (.step change rest) =>
          some ({ lock with data := change lock.data }.setPhase thread
            (.inside operation (rest lock.data)))
      | _ => none
  | .unlock thread =>
      match lock.phase thread with
      | .inside operation (.done result) =>
          some ({ lock with
            locked := false
            client := service.finish lock.client operation result }.setPhase thread .outside)
      | _ => none

variable {service} {lock : Spinlock Thread Operation Data Result Client}

/-- What a step can do. -/
inductive Move (service : Service Operation Data Result Client)
    (lock : Spinlock Thread Operation Data Result Client) :
    Label Thread Operation → Spinlock Thread Operation Data Result Client → Prop
  | call {thread : Thread} {operation : Operation} {client : Client}
      (outside : lock.phase thread = .outside)
      (allowed : service.call lock.client operation = some client) :
      Move service lock (.call thread operation)
        ({ lock with client }.setPhase thread (.exchanging operation false))
  | acquire {thread : Thread} {operation : Operation} {expected : Bool}
      (exchanging : lock.phase thread = .exchanging operation expected)
      (equal : lock.locked = expected) :
      Move service lock (.exchange thread false)
        ({ lock with locked := true }.setPhase thread
          (.inside operation (service.body operation)))
  | fail {thread : Thread} {operation : Operation} {expected spurious : Bool}
      (exchanging : lock.phase thread = .exchanging operation expected) :
      Move service lock (.exchange thread spurious)
        (lock.setPhase thread (.failed operation lock.locked))
  | reset {thread : Thread} {operation : Operation} {expected : Bool}
      (failed : lock.phase thread = .failed operation expected) :
      Move service lock (.reset thread)
        (lock.setPhase thread (.exchanging operation false))
  | advance {thread : Thread} {operation : Operation} {change : Data → Data}
      {rest : Data → Section Data Result}
      (inside : lock.phase thread = .inside operation (.step change rest)) :
      Move service lock (.advance thread)
        ({ lock with data := change lock.data }.setPhase thread
          (.inside operation (rest lock.data)))
  | unlock {thread : Thread} {operation : Operation} {result : Result}
      (inside : lock.phase thread = .inside operation (.done result)) :
      Move service lock (.unlock thread)
        ({ lock with
          locked := false
          client := service.finish lock.client operation result }.setPhase thread .outside)

theorem move_of_step
    {label : Label Thread Operation}
    {after : Spinlock Thread Operation Data Result Client}
    (stepped : lock.step service label = some after) :
    Move service lock label after := by
  cases label with
  | call thread operation =>
      simp only [step] at stepped
      split at stepped
      · next outside =>
          obtain ⟨client, allowed, rfl⟩ := Option.map_eq_some_iff.mp stepped
          exact .call outside allowed
      · cases stepped
  | exchange thread spurious =>
      simp only [step] at stepped
      split at stepped
      · next operation expected exchanging =>
          split at stepped
          · next succeeds =>
              obtain ⟨equal, rfl⟩ := succeeds
              obtain rfl := Option.some.inj stepped
              exact .acquire exchanging equal
          · obtain rfl := Option.some.inj stepped
            exact .fail exchanging
      · cases stepped
  | reset thread =>
      simp only [step] at stepped
      split at stepped
      · next operation expected failed =>
          obtain rfl := Option.some.inj stepped
          exact .reset failed
      · cases stepped
  | advance thread =>
      simp only [step] at stepped
      split at stepped
      · next operation change rest inside =>
          obtain rfl := Option.some.inj stepped
          exact .advance inside
      · cases stepped
  | unlock thread =>
      simp only [step] at stepped
      split at stepped
      · next operation result inside =>
          obtain rfl := Option.some.inj stepped
          exact .unlock inside
      · cases stepped

/-! ## The flag is a lock -/

omit [DecidableEq Thread] in
/-- A thread in `lock` is one that waits; its `expected` is `false` whenever it
compares. -/
inductive Matches : Spinning Operation Data Result → Phase Operation (Section Data Result) → Prop
  | outside : Matches .outside .outside
  | exchanging (operation : Operation) : Matches (.exchanging operation false) (.waiting operation)
  | failed (operation : Operation) (expected : Bool) :
      Matches (.failed operation expected) (.waiting operation)
  | inside (operation : Operation) (body : Section Data Result) :
      Matches (.inside operation body) (.inside operation body)

omit [DecidableEq Thread] in
/-- The flag says whether the abstract lock has a holder. -/
structure Refines
    (lock : Spinlock Thread Operation Data Result Client)
    (locked : Locked Thread Operation Data Result Client) : Prop where
  flag : lock.locked = locked.holder.isSome
  data : locked.data = lock.data
  client : locked.client = lock.client
  phase : ∀ thread, Matches (lock.phase thread) (locked.phase thread)

namespace Refines

variable {locked : Locked Thread Operation Data Result Client}

/-- Two matching phases of one thread may be put in. -/
private theorem setPhase
    {spinning : Spinning Operation Data Result}
    {phase : Phase Operation (Section Data Result)}
    (refines : ∀ thread, Matches (lock.phase thread) (locked.phase thread))
    (thread : Thread)
    (same : Matches spinning phase)
    (other : Thread) :
    Matches ((lock.setPhase thread spinning).phase other)
      ((locked.setPhase thread phase).phase other) := by
  rcases eq_or_ne other thread with rfl | different
  · simpa [Spinlock.setPhase, Locked.setPhase] using same
  · simpa [Spinlock.setPhase, Locked.setPhase, different] using refines other

/-- A thread that goes on spinning changes nothing in the abstract state. -/
private theorem spin
    (refines : lock.Refines locked)
    {thread : Thread}
    {operation : Operation}
    {spinning : Spinning Operation Data Result}
    (waiting : locked.phase thread = .waiting operation)
    (same : Matches spinning (.waiting operation)) :
    (lock.setPhase thread spinning).Refines locked where
  flag := refines.flag
  data := refines.data
  client := refines.client
  phase := by
    intro other
    rcases eq_or_ne other thread with rfl | different
    · simpa [Spinlock.setPhase, waiting] using same
    · simpa [Spinlock.setPhase, different] using refines.phase other

/-- The step rule. -/
theorem step
    {label : Label Thread Operation}
    {after : Spinlock Thread Operation Data Result Client}
    (refines : lock.Refines locked)
    (stepped : lock.step service label = some after) :
    ∃ next, after.Refines next ∧ Lib.Reachable (Locked.step service) locked next := by
  cases move_of_step stepped with
  | @call thread operation client outside allowed =>
      have same := refines.phase thread
      rw [outside] at same
      generalize abstract : locked.phase thread = phase at same
      cases same
      rw [← refines.client] at allowed
      refine ⟨_, ?_, .tail .refl (Locked.step_call abstract allowed)⟩
      exact ⟨refines.flag, refines.data, rfl,
        setPhase refines.phase thread (.exchanging operation)⟩
  | @acquire thread operation expected exchanging equal =>
      have same := refines.phase thread
      rw [exchanging] at same
      generalize abstract : locked.phase thread = phase at same
      -- `expected` is `false`, so the flag was free
      cases same
      have free : locked.holder = none := by simpa [refines.flag] using equal
      refine ⟨_, ?_, .tail .refl (Locked.step_enter abstract free)⟩
      exact ⟨rfl, refines.data, refines.client,
        setPhase refines.phase thread (.inside operation _)⟩
  | @fail thread operation expected spurious exchanging =>
      have same := refines.phase thread
      rw [exchanging] at same
      generalize abstract : locked.phase thread = phase at same
      cases same
      exact ⟨locked, refines.spin abstract (.failed operation _), .refl⟩
  | @reset thread operation expected failed =>
      have same := refines.phase thread
      rw [failed] at same
      generalize abstract : locked.phase thread = phase at same
      cases same
      exact ⟨locked, refines.spin abstract (.exchanging operation), .refl⟩
  | @advance thread operation change rest inside =>
      have same := refines.phase thread
      rw [inside] at same
      generalize abstract : locked.phase thread = phase at same
      cases same
      refine ⟨_, ?_, .tail .refl (Locked.step_advance abstract)⟩
      refine ⟨refines.flag, congrArg change refines.data, refines.client, ?_⟩
      rw [refines.data]
      exact setPhase refines.phase thread (.inside operation _)
  | @unlock thread operation result inside =>
      have same := refines.phase thread
      rw [inside] at same
      generalize abstract : locked.phase thread = phase at same
      cases same
      refine ⟨_, ?_, .tail .refl (Locked.step_leave abstract)⟩
      refine ⟨rfl, refines.data, ?_, setPhase refines.phase thread .outside⟩
      exact congrArg (service.finish · operation result) refines.client

end Refines

/-- The lock behaves as one that knows its holder. -/
theorem locked_of_reachable
    {data : Data}
    {client : Client}
    (reached : Lib.Reachable (step service) (initial data client) lock) :
    ∃ locked, lock.Refines locked ∧
      Lib.Reachable (Locked.step service) (Locked.initial data client) locked :=
  Lib.Reachable.refine Refines ⟨rfl, rfl, rfl, fun _ => .outside⟩
    (fun _ _ _ _ refines stepped => refines.step stepped) reached

/-- The run in which each section is a single step, taken when its thread leaves. -/
structure Serial
    (service : Service Operation Data Result Client)
    (lock : Spinlock Thread Operation Data Result Client)
    (atomic : Atomic Thread Operation Data Result Client) : Prop where
  client : atomic.client = lock.client
  free : lock.locked = false → atomic.data = lock.data
  taken : lock.locked = true → ∃ thread operation body, lock.phase thread = .inside operation body
  alone : ∀ left right first second body other, lock.phase left = .inside first body →
    lock.phase right = .inside second other → left = right
  inside : ∀ thread operation body, lock.phase thread = .inside operation body →
    lock.locked = true ∧ atomic.phase thread = .waiting operation ∧
      (service.body operation).Progress atomic.data body lock.data

omit [DecidableEq Thread] in
/-- The flag and the abstract lock together. -/
theorem Refines.serial
    {locked : Locked Thread Operation Data Result Client}
    {atomic : Atomic Thread Operation Data Result Client}
    (refines : lock.Refines locked)
    (ordered : Locked.Refines service locked atomic) :
    Serial service lock atomic := by
  have abstract : ∀ thread operation body, lock.phase thread = .inside operation body →
      locked.phase thread = .inside operation body := by
    intro thread operation body inside
    have same := refines.phase thread
    rw [inside] at same
    generalize locked.phase thread = phase at same
    cases same
    rfl
  constructor
  · exact ordered.client.trans refines.client
  · intro free
    have unheld : locked.holder = none := by simpa [refines.flag] using free
    exact (ordered.free unheld).trans refines.data
  · intro taken
    rw [refines.flag, Option.isSome_iff_exists] at taken
    obtain ⟨thread, holder⟩ := taken
    obtain ⟨operation, body, inside, _⟩ := ordered.held thread holder
    have same := refines.phase thread
    rw [inside] at same
    generalize concrete : lock.phase thread = spinning at same
    cases same
    exact ⟨thread, operation, body, concrete⟩
  · intro left right first second body other leftInside rightInside
    have same := ordered.holder_of_inside (abstract left first body leftInside)
    rw [ordered.holder_of_inside (abstract right second other rightInside)] at same
    exact (Option.some.inj same).symm
  · intro thread operation body inside
    have there := abstract thread operation body inside
    obtain ⟨waiting, progress⟩ := ordered.inside there
    rw [refines.data] at progress
    exact ⟨by simp [refines.flag, ordered.holder_of_inside there], waiting, progress⟩

theorem serial_of_reachable
    {data : Data}
    {client : Client}
    (reached : Lib.Reachable (step service) (initial data client) lock) :
    ∃ atomic, Serial service lock atomic ∧
      Lib.Reachable (Atomic.step service) (Atomic.initial data client) atomic := by
  obtain ⟨locked, refines, reachable⟩ := locked_of_reachable reached
  obtain ⟨atomic, ordered, serial⟩ := Locked.refines_of_reachable reachable
  exact ⟨atomic, refines.serial ordered, serial⟩

/-- The flag is set exactly while a thread is inside, and never two are; while it is
clear, a thread that compares gets in unless the exchange fails for no reason. -/
theorem spinlock_excludes
    {data : Data}
    {client : Client}
    (reached : Lib.Reachable (step service) (initial data client) lock) :
    (lock.locked = true ↔ ∃ thread operation body, lock.phase thread = .inside operation body) ∧
      (∀ left right first second body other, lock.phase left = .inside first body →
        lock.phase right = .inside second other → left = right) ∧
      ∀ thread operation expected, lock.locked = false →
        lock.phase thread = .exchanging operation expected →
          lock.step service (.exchange thread false) =
            some ({ lock with locked := true }.setPhase thread
              (.inside operation (service.body operation))) := by
  obtain ⟨locked, refines, reachable⟩ := locked_of_reachable reached
  obtain ⟨_, ordered, _⟩ := Locked.refines_of_reachable reachable
  have serial := refines.serial ordered
  refine ⟨⟨serial.taken, ?_⟩, serial.alone, ?_⟩
  · rintro ⟨thread, operation, body, inside⟩
    exact (serial.inside thread operation body inside).1
  · intro thread operation expected free exchanging
    have same := refines.phase thread
    rw [exchanging] at same
    generalize locked.phase thread = phase at same
    cases same
    simp [step, exchanging, free]

/-- A counter that is read in one step and written in the next. -/
private def counter : Service Unit Nat Nat Unit where
  body _ :=
    .step (fun count => count) fun before => .step (fun _ => before + 1) fun _ => .done before
  call _ _ := some ()
  finish _ _ _ := ()

/-- Thread 0 fails once for no reason and once because thread 1 is inside, and then
reads the counter. -/
private def contention : List (Label Nat Unit) :=
  [.call 0 (), .call 1 (), .exchange 0 true, .exchange 1 false, .reset 0, .advance 1,
    .exchange 0 false, .advance 1, .unlock 1, .reset 0, .exchange 0 false, .advance 0]

theorem spinlock_excludes_sample :
    let lock := Lib.runFrom (step counter) (initial 0 ()) contention
    lock.locked = true ∧
      ∀ thread operation body, lock.phase thread = .inside operation body → thread = 0 := by
  intro lock
  have excludes :=
    spinlock_excludes (Lib.Reachable.runFrom (step counter) (initial 0 ()) contention)
  have first : lock.phase 0 = .inside () (.step (fun _ => 2) fun _ => .done 1) := rfl
  refine ⟨excludes.1.mpr ⟨0, _, _, first⟩, ?_⟩
  exact fun thread operation body inside => excludes.2.1 thread 0 _ _ _ _ inside first

/-- Every run is one in which each section is a single step, taken when its thread
leaves: while the lock is free the data is the same, and a thread inside has come some
way from there, alone. -/
theorem sections_serialize
    {data : Data}
    {client : Client}
    (reached : Lib.Reachable (step service) (initial data client) lock) :
    ∃ atomic, Lib.Reachable (Atomic.step service) (Atomic.initial data client) atomic ∧
      atomic.client = lock.client ∧
      (lock.locked = false → atomic.data = lock.data) ∧
      ∀ thread operation body, lock.phase thread = .inside operation body →
        atomic.phase thread = .waiting operation ∧
          (service.body operation).Progress atomic.data body lock.data ∧
          (service.body operation).run atomic.data = body.run lock.data := by
  obtain ⟨atomic, serial, reachable⟩ := serial_of_reachable reached
  refine ⟨atomic, reachable, serial.client, serial.free, ?_⟩
  intro thread operation body inside
  obtain ⟨_, waiting, progress⟩ := serial.inside thread operation body inside
  exact ⟨waiting, progress, progress.run.symm⟩

/-- Both threads have counted. -/
theorem sections_serialize_sample :
    ∃ atomic : Atomic Nat Unit Nat Nat Unit,
      Lib.Reachable (Atomic.step counter) (Atomic.initial 0 ()) atomic ∧ atomic.data = 2 := by
  obtain ⟨atomic, reachable, _, free, _⟩ := sections_serialize
    (Lib.Reachable.runFrom (step counter) (initial 0 ()) (contention ++ [.advance 0, .unlock 0]))
  exact ⟨atomic, reachable, free rfl⟩

end Spinlock
end Schedule
end Cgo
