import Cgo.Event.Attached
import Cgo.Event.Race

/-!
# The callbacks of a wait

What dispatches, timeouts and closes do to a wait that has begun.  They run its callbacks
in one step, so a wait of the sockets is a call of `_wait_sock_event` whose callbacks
nothing interrupts.
-/

namespace Cgo
namespace Event
namespace Sockets

/-- `Socket::close`. -/
def close (state : Sockets) (fd : Fd) (refused : Bool) : Sockets :=
  let poller := state.poller.del refused fd
  { state with
    poller := { poller with epoll := poller.epoll.close fd }
    sockets := state.sockets.filter fun other => other ≠ fd }

inductive Action where
  | step (label : Label)
  | close (fd : Fd) (refused : Bool)

/-- One step.  A socket is closed once. -/
def act (state : Sockets) : Action → Option Sockets
  | .step label => state.step label
  | .close fd refused =>
      if fd ∈ state.sockets then some (state.close fd refused) else none

/-- The callback is held for some tid. -/
def Held (state : Sockets) (closure : Closure) : Prop :=
  ∃ tid task, state.handler.tidCalls tid = some task ∧ task.fn = closure

variable {before after : Sockets} {action : Action}

/-- The descriptor that the action registers. -/
def Action.registered : Action → Option Fd
  | .step (.construct fd _) | .step (.wait fd _ _ _) => some fd
  | _ => none

theorem made_of_act (acted : before.act action = some after) :
    after.made = before.made + action.registered.isSome.toNat := by
  cases action with
  | step label =>
      cases turn_of_step acted with
      | decided _ _ _ _ decides _ _ _ _ _ _ _ _ _ made =>
          cases label <;> first | exact made | cases decides
      | _ => assumption
  | close fd refused =>
      simp only [act] at acted
      split at acted
      · obtain rfl := Option.some.inj acted
        rfl
      · cases acted

/-! ## What a wait hears -/

/-- What an action does to a wait, whose callback may be held. -/
inductive Hears (held : Prop) (wait : Wait) : Wait → Prop
  | nothing : Hears held wait wait
  | event (spurious : Bool) :
      held → Hears held wait { wait with signal := wait.signal.onEvent spurious }
  | timeout (spurious : Bool) :
      wait.timer = true →
      Hears held wait { wait with signal := wait.signal.onTimeout spurious, timer := false }
  | aquired :
      0 < wait.signal.signal →
      Hears held wait
        { wait with signal := { wait.signal with signal := wait.signal.signal - 1 } }

theorem hears_of_step
    {label : Label}
    {closure : Closure}
    {wait : Wait}
    (stepped : before.step label = some after)
    (begun : before.waits closure = some wait)
    (earlier : closure < before.made) :
    ∃ later, after.waits closure = some later ∧ Hears (before.Held closure) wait later := by
  cases label with
  | expire other spurious =>
      simp only [step] at stepped
      split at stepped
      · cases stepped
      · next found known =>
          split at stepped
          · next timed =>
              obtain rfl := Option.some.inj stepped
              rcases eq_or_ne closure other with rfl | apart
              · obtain rfl := Option.some.inj (known.symm.trans begun)
                exact ⟨_, Function.update_self .., .timeout spurious timed⟩
              · exact ⟨wait, by simpa [apart] using begun, .nothing⟩
          · cases stepped
  | finish other =>
      simp only [step] at stepped
      split at stepped
      · cases stepped
      · next found known =>
          split at stepped
          · next free =>
              obtain rfl := Option.some.inj stepped
              rcases eq_or_ne closure other with rfl | apart
              · obtain rfl := Option.some.inj (known.symm.trans begun)
                exact ⟨_, by simp [changeSignal, begun], .aquired free⟩
              · exact ⟨wait, by simpa [changeSignal, apart] using begun, .nothing⟩
          · cases stepped
  | dispatch worker spurious =>
      cases turn_of_step stepped with
      | dispatched _ _ report rest _ _ _ outcome =>
          rcases outcome with ⟨-, waits, -⟩ | ⟨task, ev, invoked, waits, -⟩
          · exact ⟨wait, by rwa [waits], .nothing⟩
          · rcases eq_or_ne closure task.fn with rfl | apart
            · refine ⟨_, by rw [waits]; simp [changeSignal, begun], .event spurious ?_⟩
              exact ⟨_, task, (Handler.invoked_eq_some.mp invoked).1, rfl⟩
            · exact ⟨wait, by simpa [waits, changeSignal, apart] using begun, .nothing⟩
      | decided _ _ _ _ decides => cases decides
  | construct fd refused =>
      cases turn_of_step stepped with
      | constructed _ _ _ _ _ _ waits => exact ⟨wait, by rwa [waits], .nothing⟩
      | decided _ _ _ _ decides => cases decides
  | wait fd ready timed refused =>
      cases turn_of_step stepped with
      | waited _ _ _ _ _ _ kernel =>
          rcases kernel with ⟨-, -, waits⟩ | ⟨-, waits⟩
          · exact ⟨wait, by rwa [waits], .nothing⟩
          · exact ⟨wait, by simpa [waits, earlier.ne] using begun, .nothing⟩
      | decided _ _ _ _ decides => cases decides
  | epollWait worker reports =>
      cases turn_of_step stepped with
      | reported _ _ _ _ _ _ _ _ waits => exact ⟨wait, by rwa [waits], .nothing⟩
      | decided _ _ _ _ decides => cases decides

theorem hears_of_act
    {closure : Closure}
    {wait : Wait}
    (acted : before.act action = some after)
    (begun : before.waits closure = some wait)
    (earlier : closure < before.made) :
    ∃ later, after.waits closure = some later ∧ Hears (before.Held closure) wait later := by
  cases action with
  | step label => exact hears_of_step acted begun earlier
  | close fd refused =>
      simp only [act] at acted
      split at acted
      · obtain rfl := Option.some.inj acted
        exact ⟨wait, begun, .nothing⟩
      · cases acted

/-- A wait was there, or begins with this action. -/
theorem wait_of_act
    {closure : Closure}
    {wait : Wait}
    (acted : before.act action = some after)
    (found : after.waits closure = some wait) :
    (∃ earlier, before.waits closure = some earlier) ∨
      (action.registered = some wait.fd ∧ closure = before.made ∧ wait.signal = .initial) := by
  cases action with
  | step label =>
      cases turn_of_step acted with
      | constructed _ _ _ _ _ _ waits => exact .inl ⟨wait, by rwa [waits] at found⟩
      | waited fd ready timed refused _ _ kernel =>
          rcases kernel with ⟨-, -, waits⟩ | ⟨-, waits⟩
          · exact .inl ⟨wait, by rwa [waits] at found⟩
          · rw [waits] at found
            rcases eq_or_ne closure before.made with rfl | apart
            · obtain rfl : _ = wait := by simpa using found
              exact .inr ⟨rfl, rfl, rfl⟩
            · exact .inl ⟨wait, by simpa [apart] using found⟩
      | reported _ _ _ _ _ _ _ _ waits => exact .inl ⟨wait, by rwa [waits] at found⟩
      | dispatched _ _ _ _ _ _ _ outcome =>
          rcases outcome with ⟨-, waits, -⟩ | ⟨task, ev, -, waits, -⟩
          · exact .inl ⟨wait, by rwa [waits] at found⟩
          · rw [waits] at found
            obtain ⟨earlier, known, -⟩ := of_changeSignal found
            exact .inl ⟨earlier, known⟩
      | decided _ other earlier _ _ known waits =>
          rw [waits] at found
          rcases eq_or_ne closure other with rfl | apart
          · exact .inl ⟨earlier, known⟩
          · exact .inl ⟨wait, by simpa [apart] using found⟩
  | close fd refused =>
      simp only [act] at acted
      split at acted
      · obtain rfl := Option.some.inj acted
        exact .inl ⟨wait, found⟩
      · cases acted

/-! ## A wait is a call -/

/-- The call of `_wait_sock_event` is where the wait is. -/
structure Runs (timed : Bool) (race : Race) (wait : Wait) : Prop where
  reached : Lib.Reachable (Race.step timed) .initial race
  signal : race.signal = wait.signal
  timer : wait.timer = true → timed = true
  armed : race.waiter = .aquiring ∨ race.waiter = .resumed
  /-- Its callbacks were invoked finitely often. -/
  fresh : ∃ bound, ∀ id, bound ≤ id → race.invocation id = none

namespace Runs

variable {timed : Bool} {race : Race} {wait later : Wait}

/-- A wait that begins. -/
theorem begin (start : wait.signal = .initial) : ∃ race, Runs wait.timer race wait := by
  have registered : Race.initial.step wait.timer .register =
      some { Race.initial with waiter := .registered } := rfl
  have armed : Race.step wait.timer { Race.initial with waiter := .registered } .arm =
      some { Race.initial with waiter := .aquiring } := rfl
  exact ⟨_, (Lib.Reachable.refl.tail registered).tail armed, start.symm, id, .inl rfl, 0,
    fun _ _ => rfl⟩

/-- A callback runs. -/
private theorem callback
    {callback : Race.Callback}
    (runs : Runs timed race wait)
    (known : race.Known timed callback)
    (spurious : Bool)
    (claims : later.signal = wait.signal.claim callback.outcome spurious)
    (timer : later.timer = true → timed = true) :
    ∃ race, Runs timed race later := by
  obtain ⟨bound, fresh⟩ := runs.fresh
  obtain ⟨after, continued, signal, waiter, others⟩ :=
    Race.uninterrupted known spurious (fresh bound le_rfl)
  refine ⟨after, runs.reached.trans continued, ?_, timer, waiter ▸ runs.armed,
    bound + 1, fun id above => ?_⟩
  · rw [signal, runs.signal, claims]
  · rw [others id (Nat.ne_of_gt above)]
    exact fresh id (Nat.le_of_succ_le above)

/-- What an action preserves. -/
theorem hears
    {held : Prop}
    (runs : Runs timed race wait)
    (hears : Hears held wait later) :
    ∃ race, Runs timed race later := by
  cases hears with
  | nothing => exact ⟨race, runs⟩
  | event spurious =>
      have known : race.Known timed .event := by
        rcases runs.armed with waiter | waiter <;> simp [Race.Known, waiter]
      exact runs.callback known spurious rfl runs.timer
  | timeout spurious timer =>
      have known : race.Known timed .timer := by
        rcases runs.armed with waiter | waiter <;> simp [Race.Known, waiter, runs.timer timer]
      exact runs.callback known spurious rfl (by simp)
  | aquired free =>
      have permitted : 0 < race.signal.signal := runs.signal ▸ free
      rcases runs.armed with waiter | waiter
      · have aquired : race.step timed .aquire = some
            { race with
              waiter := .resumed
              signal := { race.signal with signal := race.signal.signal - 1 } } :=
          if_pos ⟨waiter, permitted⟩
        refine ⟨_, runs.reached.tail aquired, ?_, runs.timer, .inr rfl, runs.fresh⟩
        rw [runs.signal]
      · -- The semaphore is released once, and that permit is taken.
        have sound := Race.Sound.of_reached runs.reached
        have permits := sound.permits
        have single := sound.releases_le
        simp only [waiter, Race.Waiter.taken] at permits
        omega

/-- Nobody has released the semaphore of an undecided wait. -/
theorem unreleased
    (runs : Runs timed race wait)
    (pending : wait.Pending) :
    wait.signal.signal = 0 := by
  have sound := Race.Sound.of_reached runs.reached
  have undecided : race.signal.timeout = 0 := runs.signal ▸ pending
  have unclaimed : race.claimed = none := by
    by_contra claimed
    obtain ⟨⟨id, callback⟩, winner⟩ := Option.ne_none_iff_exists'.mp claimed
    rw [(sound.claimed id callback winner).1] at undecided
    cases callback <;> cases undecided
  have none_ := (sound.unclaimed unclaimed).2.1
  have permits := sound.permits
  rw [← runs.signal]
  omega

end Runs

/-- In every state that waits, dispatches, timeouts and closes reach, each wait is where a
call of `_wait_sock_event` can be. -/
theorem runs_of_reached
    {state : Sockets}
    {closure : Closure}
    {wait : Wait}
    (reached : Lib.Reachable act initial state)
    (begun : state.waits closure = some wait) :
    ∃ timed race, Runs timed race wait := by
  have all : ∀ closure wait, state.waits closure = some wait →
      closure < state.made ∧ ∃ timed race, Runs timed race wait := by
    apply reached.invariant (by simp [initial])
    intro before action after all acted closure wait found
    have made := made_of_act acted
    rcases wait_of_act acted found with ⟨earlier, begun⟩ | ⟨registered, rfl, start⟩
    · obtain ⟨known, timed, race, runs⟩ := all closure earlier begun
      obtain ⟨later, same, hears⟩ := hears_of_act acted begun known
      obtain rfl := Option.some.inj (found.symm.trans same)
      exact ⟨made ▸ Nat.lt_add_right _ known, timed, runs.hears hears⟩
    · refine ⟨?_, wait.timer, Runs.begin start⟩
      rw [made, registered]
      exact Nat.lt_succ_self _
  exact (all closure wait begun).2

end Sockets
end Event
end Cgo
