import Cgo.Event.Attached

/-!
# Sockets with several waits

A descriptor has one registration, and each wait replaces it.  A coroutine that
waits while another one waits for the same socket therefore takes its callback
away.  Without that, a wait stays registered until its event or its timer.
-/

namespace Cgo
namespace Event
namespace Sockets

/-- The callback of the wait is held under the tid that epoll has for the socket, epoll
was asked for the event, and it is armed, or the awaited readiness was reported and
is on its way to the callback. -/
def Listening (state : Sockets) (closure : Closure) (wait : Wait) : Prop :=
  ∃ entry, Attached state wait.fd entry ⟨wait.fd, wait.ready.on, closure⟩ ∧
    (entry.armed = true ∨
      state.InFlight entry.data fun events => events &&& wait.ready.flag ≠ 0)

/-- No undecided wait is unregistered. -/
def AllListening (state : Sockets) : Prop :=
  ∀ closure wait, state.waits closure = some wait → wait.Pending → state.Listening closure wait

/-- Some wait for the socket is undecided. -/
def Waited (state : Sockets) (fd : Fd) : Prop :=
  ∃ closure, closure < state.made ∧ ∃ wait ∈ state.waits closure, wait.fd = fd ∧ wait.Pending

instance (state : Sockets) (fd : Fd) : Decidable (state.Waited fd) :=
  inferInstanceAs (Decidable (∃ closure, closure < state.made ∧
    ∃ wait ∈ state.waits closure, wait.fd = fd ∧ wait.Pending))

/-- The step does not go where the code goes wrong: no wait begins on a socket that
is waited for, no socket that is waited for is reported with an error or a hangup
alone, the exchange in a callback does not fail spuriously, and the tids are unused. -/
def Undisturbed (state : Sockets) : Label → Prop
  | .construct fd refused => state.VacantTid (.construct fd refused)
  | .wait fd ready timed refused =>
      ¬ state.Waited fd ∧ state.VacantTid (.wait fd ready timed refused)
  | .epollWait _ reports => ∀ report ∈ reports, state.Waited report.1 → ¬ Alone report.2
  | .dispatch _ spurious => spurious = false
  | _ => True

instance (state : Sockets) (label : Label) : Decidable (state.Undisturbed label) :=
  match label with
  | .construct fd refused => inferInstanceAs (Decidable (state.VacantTid (.construct fd refused)))
  | .wait fd ready timed refused =>
      inferInstanceAs (Decidable (¬ state.Waited fd ∧
        state.VacantTid (.wait fd ready timed refused)))
  | .epollWait _ reports =>
      inferInstanceAs (Decidable (∀ report ∈ reports, state.Waited report.1 → ¬ Alone report.2))
  | .dispatch _ spurious => inferInstanceAs (Decidable (spurious = false))
  | .expire _ _ => inferInstanceAs (Decidable True)
  | .finish _ => inferInstanceAs (Decidable True)

variable {before after : Sockets} {label : Label}

theorem Undisturbed.vacant
    (undisturbed : before.Undisturbed label) :
    before.VacantTid label := by
  cases label with
  | construct fd refused => exact undisturbed
  | wait fd ready timed refused => exact undisturbed.2
  | epollWait worker reports => trivial
  | dispatch worker spurious => trivial
  | expire closure spurious => trivial
  | finish closure => trivial

/-- An undecided wait was undecided before, or it begins with this step. -/
theorem pending_of_turn
    {closure : Closure}
    {wait : Wait}
    (turn : Turn before after label)
    (found : after.waits closure = some wait)
    (pending : wait.Pending) :
    (∃ earlier, before.waits closure = some earlier ∧ earlier.Pending ∧
        earlier.fd = wait.fd ∧ earlier.ready = wait.ready) ∨
      ∃ timed refused, label = .wait wait.fd wait.ready timed refused ∧
        closure = before.made ∧ wait.fd ∈ before.sockets ∧
          after.handler = before.handler.modTask ⟨wait.fd, wait.ready.on, closure⟩ ∧
            after.interest = Function.update before.interest wait.fd
              (some ⟨toLinux wait.ready.on ||| epollEt, before.handler.gid, true⟩) := by
  cases turn with
  | constructed opened refused unknown maps kernel calls waits ran made =>
      rw [waits] at found
      exact .inl ⟨wait, found, pending, rfl, rfl⟩
  | waited fd ready timed refused opened maps kernel calls sockets ran made =>
      rcases kernel with ⟨-, -, waits⟩ | ⟨interest, waits⟩
      · rw [waits] at found
        exact .inl ⟨wait, found, pending, rfl, rfl⟩
      · rw [waits] at found
        rcases eq_or_ne closure before.made with rfl | apart
        · rw [Function.update_self] at found
          obtain rfl := Option.some.inj found
          exact .inr ⟨timed, refused, rfl, rfl, opened, maps, interest⟩
        · rw [Function.update_of_ne apart] at found
          exact .inl ⟨wait, found, pending, rfl, rfl⟩
  | reported worker reports idle may maps epoll calls sockets waits ran made =>
      rw [waits] at found
      exact .inl ⟨wait, found, pending, rfl, rfl⟩
  | dispatched worker spurious report rest ahead poller calls outcome sockets made =>
      rcases outcome with ⟨-, waits, -⟩ | ⟨task, ev, -, waits, -⟩
      · rw [waits] at found
        exact .inl ⟨wait, found, pending, rfl, rfl⟩
      · rw [waits] at found
        obtain ⟨earlier, known, sameFd, sameReady, -, signal⟩ := of_changeSignal found
        refine .inl ⟨earlier, known, ?_, sameFd.symm, sameReady.symm⟩
        unfold Wait.Pending at pending ⊢
        rw [signal] at pending
        split at pending
        · exact pending_of_claim pending
        · exact pending
  | decided _ other earlier changed decides known waits sameFd sameReady claims poller =>
      rw [waits] at found
      rcases eq_or_ne closure other with rfl | apart
      · rw [Function.update_self] at found
        obtain rfl := Option.some.inj found
        exact .inl ⟨earlier, known, claims pending, sameFd.symm, sameReady.symm⟩
      · rw [Function.update_of_ne apart] at found
        exact .inl ⟨wait, found, pending, rfl, rfl⟩

/-- The awaited readiness decides its wait when it is dispatched. -/
theorem decided_of_dispatch
    {closure : Closure}
    {wait : Wait}
    {entry : Interest}
    {worker : Worker}
    {report : Report}
    {rest : List Report}
    (attached : Attached before wait.fd entry ⟨wait.fd, wait.ready.on, closure⟩)
    (turn : Turn before after (.dispatch worker false))
    (ahead : before.calls worker = report :: rest)
    (same : report.data = entry.data)
    (flag : report.events &&& wait.ready.flag ≠ 0)
    {later : Wait}
    (found : after.waits closure = some later) :
    ¬ later.Pending := by
  have held : before.handler.tidCalls report.data =
      some ⟨wait.fd, wait.ready.on, closure⟩ := by
    rw [same]
    exact attached.held
  obtain ⟨waits, -⟩ := dispatched_of_turn turn ahead held (on_of_flag flag)
  rw [waits] at found
  obtain ⟨earlier, known, -, -, -, signal⟩ := of_changeSignal found
  rw [if_pos rfl] at signal
  unfold Wait.Pending
  rw [signal, Signal.onEvent, Signal.claim]
  split
  · simp
  · next failed => simpa using failed

/-- What a step preserves. -/
theorem AllListening.turn
    (all : AllListening before)
    (sound : Sound before)
    (turn : Turn before after label)
    (undisturbed : before.Undisturbed label) :
    AllListening after := by
  intro closure wait found pending
  rcases pending_of_turn turn found pending with
    ⟨earlier, known, undecided, sameFd, sameReady⟩ |
      ⟨timed, refused, rfl, rfl, opened, maps, interest⟩
  · obtain ⟨entry, attached, reaches⟩ := all closure earlier known undecided
    rw [sameFd, sameReady] at attached
    have waited : before.Waited wait.fd :=
      ⟨closure, sound.closures known, earlier, known, sameFd, undecided⟩
    have elsewhere : ∀ ready timed refused, label ≠ .wait wait.fd ready timed refused := by
      rintro ready timed refused rfl
      exact undisturbed.1 waited
    obtain ⟨later, attachedAfter, reports⟩ :=
      attached.turn sound turn undisturbed.vacant elsewhere
    refine ⟨later, attachedAfter, ?_⟩
    rcases reports with rfl | ⟨data, -, worker, batch, events, rfl, reported, may, buffered⟩
    · rcases reaches with armed | flight
      · exact .inl armed
      · rcases flight.turn turn with
          kept | ⟨worker, spurious, report, rest, rfl, ahead, same, flag⟩
        · rw [← sameReady]
          exact .inr kept
        · obtain rfl : spurious = false := undisturbed
          rw [sameReady] at flag
          exact absurd pending (decided_of_dispatch attached turn ahead same flag found)
    · right
      rw [data]
      refine ⟨worker, ⟨entry.data, events⟩, buffered, rfl, ?_⟩
      exact flag_of_mayReport attached.asked may (undisturbed _ reported waited)
  · exact ⟨_, attached_of_wait sound opened undisturbed.vacant maps interest, .inl rfl⟩

/-- What a run preserves. -/
theorem listening_of_path
    {transitions : List (Lib.Transition Sockets Label)}
    {state : Sockets}
    (path : Lib.Path step initial transitions state)
    (undisturbed : ∀ transition ∈ transitions,
      transition.before.Undisturbed transition.label) :
    Sound state ∧ AllListening state := by
  induction path with
  | nil => exact ⟨.initial, by simp [AllListening, initial]⟩
  | @snoc taken before after label prior stepped inductionHypothesis =>
      obtain ⟨sound, all⟩ := inductionHypothesis fun transition member =>
        undisturbed transition (List.mem_append_left _ member)
      have now : before.Undisturbed label := undisturbed ⟨before, label, after⟩ (by simp)
      have turn := turn_of_step stepped
      exact ⟨sound.turn turn now.vacant, all.turn sound turn now⟩

end Sockets

/-- In every run in which no wait begins on a socket that is waited for, no socket that
is waited for is reported with an error or a hangup alone, no exchange in a callback
fails spuriously and the tids are unused, a wait that neither an event nor its timer
has decided is registered and will be woken. -/
theorem waiters_stay_registered
    {transitions : List (Lib.Transition Sockets Sockets.Label)}
    {state : Sockets}
    (path : Lib.Path Sockets.step .initial transitions state)
    (undisturbed : ∀ transition ∈ transitions,
      transition.before.Undisturbed transition.label)
    (closure : Closure)
    (wait : Wait)
    (waits : state.waits closure = some wait)
    (pending : wait.Pending) :
    state.Listening closure wait :=
  (Sockets.listening_of_path path undisturbed).2 closure wait waits pending

/-- Two sockets are waited for, and one of the waits times out and is repeated. -/
private def apart : List Sockets.Label :=
  [.construct 7 false, .construct 8 false, .wait 7 .input true false,
    .wait 8 .output false false, .expire 2 false, .wait 7 .input false false,
    .epollWait 0 [(8, epollOut)]]

theorem waiters_stay_registered_sample :
    (Lib.runFrom Sockets.step .initial apart).Listening 3 ⟨8, .output, .initial, false⟩ :=
  waiters_stay_registered (Lib.path_runFrom (by decide)) (by decide) 3 _ (by decide) (by decide)

/-- One coroutine waits in `recv` and another one in `send`. -/
private def recvAndSend : List Sockets.Label :=
  [.construct 7 false, .wait 7 .input false false, .wait 7 .output false false]

/-- The callback of the first one is gone. -/
theorem second_waiter_unregisters_first :
    ¬∀ state : Sockets, state.Reached →
      ∀ closure wait, state.waits closure = some wait → wait.Pending →
        state.Listening closure wait := by
  intro registered
  let state : Sockets := Lib.runFrom Sockets.step .initial recvAndSend
  obtain ⟨entry, attached, -⟩ := registered state (Lib.Reachable.runFrom _ _ _)
    1 ⟨7, .input, .initial, false⟩ (by decide) (by decide)
  have listed : state.interest 7 = some ⟨0xC0000004, 2, true⟩ := by decide
  obtain rfl := Option.some.inj (listed.symm.trans attached.listed)
  have held := attached.held
  revert held
  decide

end Event
end Cgo
