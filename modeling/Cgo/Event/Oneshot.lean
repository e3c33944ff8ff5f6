import Cgo.Event.Attached

/-!
# One-shot registrations

epoll disarms a one-shot registration with any event that it reports, and `handle`
runs the callback only for an event that the registration asked for.  An error or
a hangup alone disarms a wait without running its callback, and so does an event for a
registration whose task was erased by a wait that epoll refused.
-/

namespace Cgo
namespace Event
namespace Sockets

/-- An event that is dispatched to a wait is more than an error or a hangup. -/
def Loud (state : Sockets) : Label → Prop
  | .dispatch worker _ =>
      ∀ report ∈ (state.calls worker).head?, ∀ task ∈ state.handler.tidCalls report.data,
        task.on ≠ sockOptOn → ¬Alone report.events
  | _ => True

instance (state : Sockets) (label : Label) : Decidable (state.Loud label) :=
  match label with
  | .dispatch worker _ =>
      inferInstanceAs (Decidable (∀ report ∈ (state.calls worker).head?,
        ∀ task ∈ state.handler.tidCalls report.data,
          task.on ≠ sockOptOn → ¬Alone report.events))
  | .construct _ _ | .wait _ _ _ _ | .epollWait _ _ | .expire _ _ | .finish _ =>
      inferInstanceAs (Decidable True)

/-- Sockets are registered by their constructor and by waits. -/
def Kind (on : Mask) : Prop :=
  on = sockOptOn ∨ ∃ ready : Ready, on = ready.on

/-- The registration is armed, or its event is on the way, or its callback has run. -/
structure Served
    (state : Sockets)
    (fd : Fd)
    (entry : Interest)
    (task : Task Closure) : Prop where
  attached : Attached state fd entry task
  kind : Kind task.on
  reaches : entry.armed = true ∨ state.InFlight entry.data entry.MayReport ∨
    state.ran task.fn = true

variable {before after : Sockets} {label : Label}

/-- A permitted event runs the callback of its registration. -/
theorem ran_of_dispatch
    {fd : Fd}
    {entry : Interest}
    {task : Task Closure}
    {worker : Worker}
    {spurious : Bool}
    {report : Report}
    {rest : List Report}
    (attached : Attached before fd entry task)
    (kind : Kind task.on)
    (loud : before.Loud (.dispatch worker spurious))
    (turn : Turn before after (.dispatch worker spurious))
    (pending : before.calls worker = report :: rest)
    (same : report.data = entry.data)
    (allowed : entry.MayReport report.events) :
    after.ran task.fn = true := by
  have held : before.handler.tidCalls report.data = some task := by
    rw [same]
    exact attached.held
  have passes : task.on &&& fromLinux report.events ≠ 0 := by
    have asked := attached.asked
    rcases kind with sockOpt | ⟨ready, waits⟩
    · rw [sockOpt] at asked ⊢
      exact on_of_sockOpt asked allowed
    · have notAlone : ¬ Alone report.events := by
        apply loud report (by simp [pending]) task held
        rw [waits]
        cases ready <;> decide
      rw [waits] at asked ⊢
      exact on_of_flag (flag_of_mayReport asked allowed notAlone)
  rw [(dispatched_of_turn turn pending held passes).2, Function.update_self]

/-- A served registration stays served until the socket is registered again. -/
theorem Served.turn
    {fd : Fd}
    {entry : Interest}
    {task : Task Closure}
    (served : Served before fd entry task)
    (sound : Sound before)
    (turn : Turn before after label)
    (vacant : before.VacantTid label)
    (loud : before.Loud label)
    (elsewhere : ∀ ready timed refused, label ≠ .wait fd ready timed refused) :
    ∃ later, Served after fd later task := by
  obtain ⟨later, attached, reports⟩ :=
    served.attached.turn sound turn vacant elsewhere
  refine ⟨later, attached, served.kind, ?_⟩
  rcases reports with rfl | ⟨data, events, worker, batch, reported, -, -, may, buffered⟩
  · rcases served.reaches with armed | flight | ran
    · exact .inl armed
    · right
      rcases flight.turn turn with kept | ⟨worker, spurious, report, rest, rfl, pending, same, may⟩
      · exact .inl kept
      · right
        exact ran_of_dispatch served.attached served.kind loud turn pending same may
    · exact .inr (.inr (ran_of_turn ran turn))
  · right
    left
    have same : later.MayReport = entry.MayReport := by
      unfold Interest.MayReport Interest.reportable
      rw [events]
    rw [data, same]
    exact ⟨worker, ⟨entry.data, reported⟩, buffered, rfl, may⟩

end Sockets

/-- The sockets, and the number of the callback that came with the registration that epoll
has for a descriptor.  The code does not keep these. -/
structure Registered where
  sockets : Sockets
  owner : Fd → Option Closure

namespace Registered

open Sockets (Label Turn Sound Served)

/-- No socket was opened. -/
def initial : Registered where
  sockets := .initial
  owner := fun _ => none

/-- A registration that epoll takes has a new callback. -/
def owned (state : Registered) : Label → Fd → Option Closure
  | .construct fd refused =>
      match state.sockets.poller.add refused fd sockOptOn state.sockets.made with
      | (.ok _, _) => Function.update state.owner fd (some state.sockets.made)
      | (.error _, _) => state.owner
  | .wait fd ready _ refused =>
      match state.sockets.poller.mod refused fd ready.on state.sockets.made with
      | (.ok _, _) => Function.update state.owner fd (some state.sockets.made)
      | (.error _, _) => state.owner
  | _ => state.owner

/-- One step. -/
def step (state : Registered) (label : Label) : Option Registered :=
  (state.sockets.step label).map fun sockets => { sockets, owner := state.owned label }

/-- Reachable from a handler without sockets. -/
def Reached (state : Registered) : Prop :=
  Lib.Reachable step initial state

/-- Epoll disarmed the registration of the descriptor, no event of it is left to
dispatch, and its callback has not run. -/
def Consumed (state : Registered) (fd : Fd) : Prop :=
  ∃ entry closure, state.sockets.interest fd = some entry ∧ entry.armed = false ∧
    ¬state.sockets.InFlight entry.data (fun _ => True) ∧
      state.owner fd = some closure ∧ state.sockets.ran closure = false

/-- A wait that epoll refuses comes after the callback of the registration has run. -/
def Spent (state : Registered) : Label → Prop
  | .wait fd _ _ refused =>
      refused = true → ∀ closure ∈ state.owner fd, state.sockets.ran closure = true
  | _ => True

instance (state : Registered) (label : Label) : Decidable (state.Spent label) :=
  match label with
  | .wait fd _ _ refused =>
      inferInstanceAs (Decidable
        (refused = true → ∀ closure ∈ state.owner fd, state.sockets.ran closure = true))
  | .construct _ _ | .epollWait _ _ | .dispatch _ _ | .expire _ _ | .finish _ =>
      inferInstanceAs (Decidable True)

/-- The step does not go where the code goes wrong: an event that is dispatched to a
wait is more than an error or a hangup, a registration finds its tid unused, and a wait
that epoll refuses erases no task that is still needed. -/
structure Heard (state : Registered) (label : Label) : Prop where
  loud : state.sockets.Loud label
  vacant : state.sockets.VacantTid label
  spent : state.Spent label

instance (state : Registered) (label : Label) : Decidable (state.Heard label) :=
  decidable_of_iff
    (state.sockets.Loud label ∧ state.sockets.VacantTid label ∧ state.Spent label)
    ⟨fun heard => ⟨heard.1, heard.2.1, heard.2.2⟩,
      fun heard => ⟨heard.loud, heard.vacant, heard.spent⟩⟩

variable {before after : Registered} {label : Label}

/-- The two parts of a step. -/
theorem step_iff :
    before.step label = some after ↔
      before.sockets.step label = some after.sockets ∧ after.owner = before.owned label := by
  simp only [step, Option.map_eq_some_iff]
  constructor
  · rintro ⟨sockets, moved, rfl⟩
    exact ⟨moved, rfl⟩
  · rintro ⟨moved, owner⟩
    exact ⟨after.sockets, moved, by rw [← owner]⟩

/-- What a registration of a new socket does. -/
private theorem owned_of_construct
    {fd : Fd}
    {refused : Bool}
    (stepped : before.sockets.step (.construct fd refused) = some after.sockets)
    (owner : after.owner = before.owned (.construct fd refused)) :
    after.sockets.handler =
        before.sockets.handler.addTask ⟨fd, sockOptOn, before.sockets.made⟩ ∧
      (after.sockets.interest = before.sockets.interest ∧ after.owner = before.owner ∨
        after.sockets.interest = Function.update before.sockets.interest fd
            (some ⟨toLinux sockOptOn ||| epollEt, before.sockets.handler.gid, true⟩) ∧
          after.owner = Function.update before.owner fd (some before.sockets.made)) := by
  simp only [Sockets.step, Option.ite_none_right_eq_some] at stepped
  obtain ⟨-, stepped⟩ := stepped
  rw [owner]
  simp only [owned]
  rcases before.sockets.poller.add_eq refused fd sockOptOn before.sockets.made with
    ⟨-, -, result⟩ | ⟨-, result⟩
  · rw [result] at stepped ⊢
    rw [← Option.some.inj stepped]
    exact ⟨rfl, .inr ⟨rfl, rfl⟩⟩
  · rw [result] at stepped ⊢
    rw [← Option.some.inj stepped]
    exact ⟨rfl, .inl ⟨rfl, rfl⟩⟩

/-- What a wait does to the registration of its socket. -/
private theorem owned_of_wait
    {fd : Fd}
    {ready : Ready}
    {timed refused : Bool}
    (sound : Sound before.sockets)
    (stepped : before.sockets.step (.wait fd ready timed refused) = some after.sockets)
    (owner : after.owner = before.owned (.wait fd ready timed refused)) :
    fd ∈ before.sockets.sockets ∧
      after.sockets.handler =
        before.sockets.handler.modTask ⟨fd, ready.on, before.sockets.made⟩ ∧
      (refused = true ∧ after.sockets.interest = before.sockets.interest ∧
          after.owner = before.owner ∨
        after.sockets.interest = Function.update before.sockets.interest fd
            (some ⟨toLinux ready.on ||| epollEt, before.sockets.handler.gid, true⟩) ∧
          after.owner = Function.update before.owner fd (some before.sockets.made)) := by
  simp only [Sockets.step, Option.ite_none_right_eq_some] at stepped
  obtain ⟨opened, stepped⟩ := stepped
  rw [owner]
  simp only [owned]
  rcases before.sockets.poller.mod_eq refused fd ready.on before.sockets.made with
    ⟨-, -, result⟩ | ⟨failed, result⟩
  · rw [result] at stepped ⊢
    rw [← Option.some.inj stepped]
    exact ⟨opened, rfl, .inr ⟨rfl, rfl⟩⟩
  · rw [result] at stepped ⊢
    rw [← Option.some.inj stepped]
    exact ⟨opened, rfl, .inl ⟨failed.resolve_right (sound.listed fd opened), rfl, rfl⟩⟩

/-- Each registration of the interest list has a callback, which has run or is served. -/
def AllServed (state : Registered) : Prop :=
  ∀ fd entry, state.sockets.interest fd = some entry → ∃ closure,
    state.owner fd = some closure ∧ (state.sockets.ran closure = true ∨
      ∃ task, task.fn = closure ∧ Served state.sockets fd entry task)

/-- What a step preserves of a registration that it does not replace. -/
private theorem kept
    {fd : Fd}
    {entry later : Interest}
    (all : AllServed before)
    (sound : Sound before.sockets)
    (turn : Turn before.sockets after.sockets label)
    (heard : before.Heard label)
    (listed : before.sockets.interest fd = some entry)
    (listedAfter : after.sockets.interest fd = some later)
    (owner : after.owner fd = before.owner fd)
    (elsewhere : (∀ ready timed refused, label ≠ .wait fd ready timed refused) ∨
      ∀ closure ∈ before.owner fd, before.sockets.ran closure = true) :
    ∃ closure, after.owner fd = some closure ∧ (after.sockets.ran closure = true ∨
      ∃ task, task.fn = closure ∧ Served after.sockets fd later task) := by
  obtain ⟨closure, owned, reaches⟩ := all fd entry listed
  refine ⟨closure, owner.trans owned, ?_⟩
  rcases reaches with ran | ⟨task, rfl, served⟩
  · exact .inl (Sockets.ran_of_turn ran turn)
  · rcases elsewhere with elsewhere | ran
    · obtain ⟨found, servedAfter⟩ := served.turn sound turn heard.vacant heard.loud elsewhere
      obtain rfl := Option.some.inj (servedAfter.attached.listed.symm.trans listedAfter)
      exact .inr ⟨task, rfl, servedAfter⟩
    · exact .inl (Sockets.ran_of_turn (ran _ owned) turn)

/-- What a step preserves. -/
theorem AllServed.step
    (all : AllServed before)
    (sound : Sound before.sockets)
    (stepped : before.step label = some after)
    (heard : before.Heard label) :
    AllServed after := by
  obtain ⟨moved, owner⟩ := step_iff.mp stepped
  have turn := Sockets.turn_of_step moved
  intro fd later listed
  cases label with
  | construct opened refused =>
      obtain ⟨maps, ⟨interest, same⟩ | ⟨interest, new⟩⟩ := owned_of_construct moved owner
      · exact kept all sound turn heard (by rwa [← interest]) listed (congrFun same fd)
          (.inl (by simp))
      · rcases eq_or_ne fd opened with rfl | apart
        · rw [interest, Function.update_self] at listed
          obtain rfl := Option.some.inj listed
          refine ⟨before.sockets.made, by rw [new, Function.update_self],
            .inr ⟨⟨fd, sockOptOn, before.sockets.made⟩, rfl, ?_⟩⟩
          exact ⟨Sockets.attached_of_construct maps interest, .inl rfl, .inl rfl⟩
        · have listedBefore : before.sockets.interest fd = some later := by
            rwa [interest, Function.update_of_ne apart] at listed
          exact kept all sound turn heard listedBefore listed
            (by rw [new, Function.update_of_ne apart]) (.inl (by simp))
  | wait waited ready timed refused =>
      obtain ⟨opened, maps, ⟨rfl, interest, same⟩ | ⟨interest, new⟩⟩ :=
        owned_of_wait sound moved owner
      · have listedBefore : before.sockets.interest fd = some later := by rwa [← interest]
        refine kept all sound turn heard listedBefore listed (congrFun same fd) ?_
        rcases eq_or_ne fd waited with rfl | apart
        · exact .inr (heard.spent rfl)
        · left
          rintro _ _ _ ⟨⟩
          exact apart rfl
      · rcases eq_or_ne fd waited with rfl | apart
        · rw [interest, Function.update_self] at listed
          obtain rfl := Option.some.inj listed
          refine ⟨before.sockets.made, by rw [new, Function.update_self],
            .inr ⟨⟨fd, ready.on, before.sockets.made⟩, rfl, ?_⟩⟩
          exact ⟨Sockets.attached_of_wait sound opened heard.vacant maps interest,
            .inr ⟨ready, rfl⟩, .inl rfl⟩
        · have listedBefore : before.sockets.interest fd = some later := by
            rwa [interest, Function.update_of_ne apart] at listed
          refine kept all sound turn heard listedBefore listed
            (by rw [new, Function.update_of_ne apart]) (.inl ?_)
          rintro _ _ _ ⟨⟩
          exact apart rfl
  | epollWait worker reports =>
      have same : after.owner fd = before.owner fd := congrFun owner fd
      cases found : before.sockets.interest fd with
      | some entry => exact kept all sound turn heard found listed same (.inl (by simp))
      | none =>
          cases turn with
          | reported _ _ idle may maps epoll =>
              have missing : after.sockets.interest fd = none := by
                rw [Sockets.interest, epoll, Epoll.reported]
                simp [show before.sockets.poller.epoll.interest fd = none from found]
              rw [missing] at listed
              cases listed
          | decided _ closure wait changed decides => cases decides
  | dispatch worker spurious =>
      have listedBefore : before.sockets.interest fd = some later := by
        cases turn with
        | dispatched _ _ report rest pending poller => rwa [Sockets.interest, ← poller]
        | decided _ closure wait changed decides => cases decides
      exact kept all sound turn heard listedBefore listed (congrFun owner fd) (.inl (by simp))
  | expire closure spurious =>
      have listedBefore : before.sockets.interest fd = some later := by
        cases turn with
        | decided _ _ wait changed decides known waits sameFd sameReady claims poller =>
            rwa [Sockets.interest, ← poller]
      exact kept all sound turn heard listedBefore listed (congrFun owner fd) (.inl (by simp))
  | finish closure =>
      have listedBefore : before.sockets.interest fd = some later := by
        cases turn with
        | decided _ _ wait changed decides known waits sameFd sameReady claims poller =>
            rwa [Sockets.interest, ← poller]
      exact kept all sound turn heard listedBefore listed (congrFun owner fd) (.inl (by simp))

/-- What a run preserves. -/
theorem served_of_path
    {transitions : List (Lib.Transition Registered Label)}
    {state : Registered}
    (path : Lib.Path step initial transitions state)
    (heard : ∀ transition ∈ transitions, transition.before.Heard transition.label) :
    Sound state.sockets ∧ AllServed state := by
  induction path with
  | nil => exact ⟨.initial, by simp [AllServed, initial, Sockets.initial, Poller.initial]⟩
  | @snoc taken before after label prior stepped inductionHypothesis =>
      obtain ⟨sound, all⟩ := inductionHypothesis fun transition member =>
        heard transition (List.mem_append_left _ member)
      have now : before.Heard label := heard ⟨before, label, after⟩ (by simp)
      have turn := Sockets.turn_of_step (step_iff.mp stepped).1
      exact ⟨sound.turn turn now.vacant, all.step sound stepped now⟩

end Registered

/-- In every run in which no wait is dispatched an error or a hangup alone, the tids that
are drawn are unused, and epoll refuses a wait only after the callback of the registration
has run, no registration is disarmed without its callback having run once its events are
dispatched. -/
theorem oneshot_not_consumed
    {transitions : List (Lib.Transition Registered Sockets.Label)}
    {state : Registered}
    (path : Lib.Path Registered.step .initial transitions state)
    (heard : ∀ transition ∈ transitions, transition.before.Heard transition.label)
    (fd : Fd) :
    ¬state.Consumed fd := by
  rintro ⟨entry, closure, listed, disarmed, dispatched, owned, silent⟩
  obtain ⟨-, all⟩ := Registered.served_of_path path heard
  obtain ⟨_, same, reaches⟩ := all fd entry listed
  obtain rfl := Option.some.inj (owned.symm.trans same)
  rcases reaches with ran | ⟨task, rfl, served⟩
  · rw [silent] at ran
    cases ran
  · rcases served.reaches with armed | ⟨worker, report, member, same, -⟩ | ran
    · rw [disarmed] at armed
      cases armed
    · exact dispatched ⟨worker, report, member, same, trivial⟩
    · rw [silent] at ran
      cases ran

/-- A coroutine waits for input, and it comes; another wait is then refused. -/
private def inputComes : List Sockets.Label :=
  [.construct 7 false, .wait 7 .input false false, .epollWait 0 [(7, epollIn ||| epollHup)],
    .dispatch 0 false, .wait 7 .input false true]

theorem oneshot_not_consumed_sample :
    ¬(Lib.runFrom Registered.step .initial inputComes).Consumed 7 :=
  oneshot_not_consumed (Lib.path_runFrom (by decide)) (by decide) 7

/-- The connection of a waiting coroutine is reset. -/
private def hangup : List Sockets.Label :=
  [.construct 7 false, .wait 7 .input false false, .epollWait 0 [(7, epollErr ||| epollHup)],
    .dispatch 0 false]

/-- Its one-shot registration is used up, and it goes on waiting. -/
theorem hangup_consumes :
    ¬∀ state : Registered, state.Reached → ∀ fd, ¬state.Consumed fd := by
  intro never
  let state : Registered := Lib.runFrom Registered.step .initial hangup
  have nothing : state.sockets.calls = fun _ => [] := by
    funext worker
    rcases eq_or_ne worker 0 with rfl | apart
    · rfl
    · exact (Function.update_of_ne apart _ _).trans (Function.update_of_ne apart _ _)
  refine never state (Lib.Reachable.runFrom _ _ _) 7
    ⟨⟨0xC0000001, 1, false⟩, 1, by decide, rfl, ?_, rfl, rfl⟩
  rintro ⟨worker, report, member, -⟩
  rw [nothing] at member
  cases member

end Event
end Cgo
