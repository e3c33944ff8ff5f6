import Cgo.Event.Frame

/-!
# Registrations and events in flight

Threads register descriptors, change and remove the registrations, and close the
descriptors, while calls of `handle` go through the batches that `epoll_wait`
gave them, one event under the lock at a time.  A batch may carry every tid that
was issued before.
-/

namespace Cgo
namespace Event

/-- A handler, the events that its callers of `handle` have not dispatched yet, and
the registrations so far. -/
structure Registrations (Callback : Type) where
  poller : Poller Callback
  calls : Worker → List Report
  /-- The tids with the tasks they were issued for, oldest first.  The code does not
  keep them. -/
  issued : List (Tid × Task Callback)

namespace Registrations

/-- No registration was made. -/
def initial (Callback : Type) : Registrations Callback where
  poller := .initial Callback
  calls := fun _ => []
  issued := []

variable {Callback : Type}

/-- The maps of the handler. -/
abbrev handler (state : Registrations Callback) : Handler Callback :=
  state.poller.handler

inductive Label (Callback : Type) where
  | add (fd : Fd) (on : Mask) (fn : Callback)
  | mod (fd : Fd) (on : Mask) (fn : Callback)
  | del (refused : Bool) (fd : Fd)
  /-- The descriptor is closed, and its number may be used again. -/
  | close (fd : Fd)
  /-- `epoll_wait` returns in `handle`. -/
  | collect (worker : Worker) (batch : List Report)
  /-- One round of the loop in `handle`. -/
  | dispatch (worker : Worker)

/-- After a registration that did not throw. -/
def register
    (state : Registrations Callback)
    (task : Task Callback)
    (result : Except String Unit × Poller Callback) : Option (Registrations Callback) :=
  match result with
  | (.ok _, poller) =>
      some { state with poller, issued := state.issued ++ [(state.handler.gid, task)] }
  | (.error _, _) => none

/-- `add` is called for a descriptor that is not registered, `mod` and `del` for one
that is, and `epoll_ctl` succeeds for the first two. -/
def step (state : Registrations Callback) :
    Label Callback → Option (Registrations Callback)
  | .add fd on fn =>
      if state.handler.fdTids fd = none then
        state.register ⟨fd, on, fn⟩ (state.poller.add false fd on fn)
      else none
  | .mod fd on fn =>
      if state.handler.fdTids fd = none then none
      else state.register ⟨fd, on, fn⟩ (state.poller.mod false fd on fn)
  | .del refused fd =>
      if state.handler.fdTids fd = none then none
      else some { state with poller := state.poller.del refused fd }
  | .close fd =>
      some { state with
        poller := { state.poller with epoll := state.poller.epoll.close fd } }
  | .collect worker batch =>
      if state.calls worker = [] ∧
          ∀ report ∈ batch, report.data ∈ state.issued.map Prod.fst then
        some { state with calls := Function.update state.calls worker batch }
      else none
  | .dispatch worker =>
      match state.calls worker with
      | [] => none
      | _ :: rest => some { state with calls := Function.update state.calls worker rest }

/-- Reachable from a new handler. -/
def Reached (state : Registrations Callback) : Prop :=
  Lib.Reachable step (initial Callback) state

/-- What one step does to the maps and to the list of registrations. -/
inductive Changed (before after : Registrations Callback) : Prop
  | add (task : Task Callback) :
      before.handler.fdTids task.fd = none →
      after.handler = before.handler.addTask task →
      after.issued = before.issued ++ [(before.handler.gid, task)] →
      Changed before after
  | mod (task : Task Callback) (old : Tid) :
      before.handler.fdTids task.fd = some old →
      after.handler = before.handler.modTask task →
      after.issued = before.issued ++ [(before.handler.gid, task)] →
      Changed before after
  | del (fd : Fd) (old : Tid) :
      before.handler.fdTids fd = some old →
      after.handler = before.handler.delTask fd →
      after.issued = before.issued →
      Changed before after
  | same : after.handler = before.handler → after.issued = before.issued → Changed before after

variable {before after : Registrations Callback} {label : Label Callback}

/-- A registration that did not throw changed the maps. -/
theorem register_eq_some
    {task : Task Callback}
    {result : Except String Unit × Poller Callback}
    (registered : before.register task result = some after) :
    after.handler = result.2.handler ∧
      after.issued = before.issued ++ [(before.handler.gid, task)] := by
  obtain ⟨outcome, poller⟩ := result
  cases outcome with
  | error message => cases registered
  | ok done =>
      obtain rfl := Option.some.inj registered
      exact ⟨rfl, rfl⟩

theorem changed_of_step
    (stepped : before.step label = some after) :
    Changed before after := by
  cases label with
  | add fd on fn =>
      simp only [step] at stepped
      split at stepped
      · next unknown =>
          obtain ⟨maps, log⟩ := register_eq_some stepped
          exact .add ⟨fd, on, fn⟩ unknown (by rw [maps, Poller.add_handler]) log
      · cases stepped
  | mod fd on fn =>
      simp only [step] at stepped
      split at stepped
      · cases stepped
      · next known =>
          obtain ⟨old, registered⟩ := Option.ne_none_iff_exists'.mp known
          obtain ⟨maps, log⟩ := register_eq_some stepped
          exact .mod ⟨fd, on, fn⟩ old registered (by rw [maps, Poller.mod_handler]) log
  | del refused fd =>
      simp only [step] at stepped
      split at stepped
      · cases stepped
      · next known =>
          obtain ⟨old, registered⟩ := Option.ne_none_iff_exists'.mp known
          obtain rfl := Option.some.inj stepped
          exact .del fd old registered rfl rfl
  | close fd =>
      obtain rfl := Option.some.inj stepped
      exact .same rfl rfl
  | collect worker batch =>
      simp only [step] at stepped
      split at stepped
      · obtain rfl := Option.some.inj stepped
        exact .same rfl rfl
      · cases stepped
  | dispatch worker =>
      simp only [step] at stepped
      split at stepped
      · cases stepped
      · obtain rfl := Option.some.inj stepped
        exact .same rfl rfl

/-! ## The maps are inverse -/

/-- Descriptors and tids correspond, the counter has counted the registrations, and
every task is held under the tid that was issued for it. -/
structure Sound (state : Registrations Callback) : Prop where
  inverse : Lib.Inverse Task.fd state.handler.fdTids state.handler.tidCalls
  gid : state.handler.gid = BitVec.ofNat 32 state.issued.length
  numbers : ∀ number (inRange : number < state.issued.length),
    state.issued[number].1 = BitVec.ofNat 32 number
  held : ∀ {tid task}, state.handler.tidCalls tid = some task → (tid, task) ∈ state.issued

namespace Sound

theorem initial : Sound (Registrations.initial Callback) where
  inverse := .empty
  gid := rfl
  numbers := by simp [Registrations.initial]
  held := by
    simp [Registrations.initial, Registrations.handler, Poller.initial, Handler.initial]

variable {state : Registrations Callback}

/-- A tid was issued once. -/
theorem unique
    (sound : Sound state)
    (few : state.issued.length ≤ 2 ^ 32)
    {tid : Tid}
    {task other : Task Callback}
    (first : (tid, task) ∈ state.issued)
    (second : (tid, other) ∈ state.issued) :
    task = other := by
  obtain ⟨i, iRange, atI⟩ := List.getElem_of_mem first
  obtain ⟨j, jRange, atJ⟩ := List.getElem_of_mem second
  have same : BitVec.ofNat 32 i = BitVec.ofNat 32 j := by
    rw [← sound.numbers i iRange, ← sound.numbers j jRange, atI, atJ]
  rcases Nat.lt_trichotomy i j with less | rfl | greater
  · exact absurd same (Lib.counter_ne less (by omega))
  · rw [atI] at atJ
    exact (Prod.mk.inj atJ).2
  · exact absurd same.symm (Lib.counter_ne greater (by omega))

/-- The next tid has no task. -/
theorem vacant
    (sound : Sound state)
    (few : state.issued.length < 2 ^ 32) :
    state.handler.tidCalls state.handler.gid = none := by
  cases found : state.handler.tidCalls state.handler.gid with
  | none => rfl
  | some task =>
      obtain ⟨number, inRange, atNumber⟩ := List.getElem_of_mem (sound.held found)
      have same := sound.numbers number inRange
      rw [atNumber, sound.gid] at same
      exact absurd same.symm (Lib.counter_ne inRange few)

/-- The list of registrations grows by the next tid. -/
theorem numbers_concat
    (sound : Sound state)
    (task : Task Callback)
    (number : Nat)
    (inRange : number < (state.issued ++ [(state.handler.gid, task)]).length) :
    (state.issued ++ [(state.handler.gid, task)])[number].1 = BitVec.ofNat 32 number := by
  rcases Nat.lt_or_ge number state.issued.length with earlier | last
  · rw [List.getElem_append_left earlier]
    exact sound.numbers number earlier
  · have same : number = state.issued.length := by
      simp only [List.length_append, List.length_singleton] at inRange
      omega
    subst same
    simp [sound.gid]

/-- The counter after a registration. -/
theorem gid_concat
    (sound : Sound state)
    (task : Task Callback) :
    state.handler.gid + 1 =
      BitVec.ofNat 32 (state.issued ++ [(state.handler.gid, task)]).length := by
  rw [sound.gid, List.length_append, BitVec.ofNat_add]
  rfl

/-- What a step preserves while the counter has not wrapped. -/
theorem step
    (sound : Sound before)
    (stepped : before.step label = some after)
    (few : after.issued.length ≤ 2 ^ 32) :
    Sound after := by
  cases changed_of_step stepped with
  | add task unknown maps log =>
      have room : before.issued.length < 2 ^ 32 := by
        rw [log, List.length_append, List.length_singleton] at few
        omega
      exact {
        inverse := by
          rw [maps]
          exact sound.inverse.register unknown (sound.vacant room)
        gid := by
          rw [maps, log]
          exact sound.gid_concat task
        numbers := by
          rw [log]
          exact sound.numbers_concat task
        held := by
          intro tid held found
          rw [maps] at found
          rw [log, List.mem_append, List.mem_singleton]
          rcases eq_or_ne tid before.handler.gid with rfl | apart
          · right
            simpa [Handler.addTask, eq_comm] using found
          · left
            exact sound.held (by simpa [Handler.addTask, apart] using found) }
  | mod task old registered maps log =>
      have room : before.issued.length < 2 ^ 32 := by
        rw [log, List.length_append, List.length_singleton] at few
        omega
      have own : before.handler.tidOf task.fd = old := by
        rw [Handler.tidOf, registered, Option.getD_some]
      exact {
        inverse := by
          rw [maps, Handler.modTask, own]
          exact sound.inverse.replace registered (sound.vacant room)
        gid := by
          rw [maps, log]
          exact sound.gid_concat task
        numbers := by
          rw [log]
          exact sound.numbers_concat task
        held := by
          intro tid held found
          rw [maps] at found
          rw [log, List.mem_append, List.mem_singleton]
          rcases eq_or_ne tid (before.handler.tidOf task.fd) with rfl | kept
          · simp [Handler.modTask] at found
          · rcases eq_or_ne tid before.handler.gid with rfl | apart
            · right
              simpa [Handler.modTask, kept, eq_comm] using found
            · left
              exact sound.held (by simpa [Handler.modTask, kept, apart] using found) }
  | del fd old registered maps log =>
      have own : before.handler.tidOf fd = old := by
        rw [Handler.tidOf, registered, Option.getD_some]
      exact {
        inverse := by
          rw [maps, Handler.delTask, own]
          exact sound.inverse.remove registered
        gid := by
          rw [maps, log]
          exact sound.gid
        numbers := by
          rw [log]
          exact sound.numbers
        held := by
          intro tid held found
          rw [maps] at found
          rw [log]
          rcases eq_or_ne tid (before.handler.tidOf fd) with rfl | kept
          · simp [Handler.delTask] at found
          · exact sound.held (by simpa [Handler.delTask, kept] using found) }
  | same maps log =>
      exact {
        inverse := by
          rw [maps]
          exact sound.inverse
        gid := by
          rw [maps, log]
          exact sound.gid
        numbers := by
          rw [log]
          exact sound.numbers
        held := by
          rw [maps, log]
          exact sound.held }

/-- What a whole run preserves. -/
theorem of_reached
    (reached : state.Reached)
    (few : state.issued.length ≤ 2 ^ 32) :
    Sound state := by
  obtain ⟨_, path⟩ := reached
  induction path with
  | nil => exact .initial
  | @snoc _ before after _ _ stepped inductionHypothesis =>
      refine (inductionHypothesis ?_).step stepped few
      have grows : before.issued.length ≤ after.issued.length := by
        cases changed_of_step stepped with
        | add _ _ _ log => simp [log]
        | mod _ _ _ _ log => simp [log]
        | del _ _ _ _ log => exact Nat.le_of_eq (congrArg List.length log.symm)
        | same _ log => exact Nat.le_of_eq (congrArg List.length log.symm)
      exact Nat.le_trans grows few

end Sound

end Registrations

open Registrations in
/-- In every run with at most 2^32 registrations the two maps are inverse, and a
callback that `handle` invokes for an event is the one registered under the event's
tid, which is the current tid of its descriptor. -/
theorem stale_events_find_nothing
    {Callback : Type}
    {state : Registrations Callback}
    (reached : state.Reached)
    (few : state.issued.length ≤ 2 ^ 32) :
    Lib.Inverse Task.fd state.handler.fdTids state.handler.tidCalls ∧
      ∀ (worker : Worker) (report : Report) (rest : List Report)
          (task : Task Callback) (ev : Mask),
        state.calls worker = report :: rest →
          state.handler.invoked report = some (task, ev) →
            (report.data, task) ∈ state.issued ∧
              (∀ other, (report.data, other) ∈ state.issued → other = task) ∧
                state.handler.fdTids task.fd = some report.data := by
  have sound := Sound.of_reached reached few
  refine ⟨sound.inverse, fun worker report rest task ev _ invoked => ?_⟩
  have held := (Handler.invoked_eq_some.mp invoked).1
  have registered := sound.held held
  refine ⟨registered, fun other again => ?_, sound.inverse.current held⟩
  exact sound.unique few again registered

/-- Descriptor 7 is registered, an event of it is collected, and the descriptor is
closed and registered again before the event is dispatched. -/
private def reused : List (Registrations.Label Nat) :=
  [.add 7 (eventIn ||| eventOneshot) 100, .collect 0 [⟨0, epollIn⟩], .del false 7, .close 7,
    .add 7 (eventIn ||| eventOneshot) 200, .collect 1 [⟨1, epollIn⟩]]

theorem stale_events_find_nothing_sample :
    let state := Lib.runFrom Registrations.step (.initial Nat) reused
    state.handler.invoked ⟨0, epollIn⟩ = none ∧
      state.handler.invoked ⟨1, epollIn⟩ = some (⟨7, eventIn ||| eventOneshot, 200⟩, eventIn) ∧
        state.handler.fdTids 7 = some 1 := by
  intro state
  have invoked : state.handler.invoked ⟨1, epollIn⟩ =
      some (⟨7, eventIn ||| eventOneshot, 200⟩, eventIn) := by decide
  obtain ⟨-, current⟩ := stale_events_find_nothing
    (Lib.Reachable.runFrom Registrations.step (.initial Nat) reused) (by decide)
  exact ⟨by decide, invoked, (current 1 _ [] _ _ (by decide) invoked).2.2⟩

end Event
end Cgo
