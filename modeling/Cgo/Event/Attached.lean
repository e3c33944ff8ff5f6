import Cgo.Event.Socket

/-!
# What a step does to a registration

A registration of a socket sits in three places, the two maps of the handler and
the interest list of epoll.  A step leaves all three alone unless it registers the
same socket again; epoll may disarm the registration, and then its event is in the
batch of some caller of `handle`.
-/

namespace Cgo
namespace Event

/-! ## Events that pass the filter of `handle` -/

/-- Only an error or a hangup is reported. -/
def Alone (events : LinuxMask) : Prop :=
  events &&& ~~~unasked = 0

instance (events : LinuxMask) : Decidable (Alone events) :=
  inferInstanceAs (Decidable (_ = _))

/-- Flags that meet neither of two sets do not meet their union. -/
theorem and_or_eq_zero
    {events first second : LinuxMask}
    (missesFirst : events &&& first = 0)
    (missesSecond : events &&& second = 0) :
    events &&& (first ||| second) = 0 := by
  rw [BitVec.and_or_distrib_left, missesFirst, missesSecond]
  rfl

/-- Of a socket that is waited for, epoll reports the readiness unless it reports
nothing but an error or a hangup. -/
theorem flag_of_mayReport
    {interest : Interest}
    {ready : Ready}
    {events : LinuxMask}
    (asked : interest.events = toLinux ready.on ||| epollEt)
    (reports : interest.MayReport events)
    (notAlone : ¬ Alone events) :
    events &&& ready.flag ≠ 0 := by
  intro missed
  have others : ~~~unasked = ~~~interest.reportable ||| ready.flag := by
    rw [Interest.reportable, asked]
    cases ready <;> decide
  apply notAlone
  rw [Alone, others]
  exact and_or_eq_zero reports.2 missed

/-- The readiness that was waited for passes the filter. -/
theorem on_of_flag
    {ready : Ready}
    {events : LinuxMask}
    (flag : events &&& ready.flag ≠ 0) :
    ready.on &&& fromLinux events ≠ 0 := by
  unfold fromLinux
  cases ready with
  | input =>
      rw [if_pos (show events &&& epollIn ≠ 0 from flag)]
      repeat' split
      all_goals decide
  | output =>
      rw [if_pos (show events &&& epollOut ≠ 0 from flag)]
      repeat' split
      all_goals decide

/-- Whatever epoll reports for the registration of `_set_sock_opt` passes the filter. -/
theorem on_of_sockOpt
    {interest : Interest}
    {events : LinuxMask}
    (asked : interest.events = toLinux sockOptOn ||| epollEt)
    (reports : interest.MayReport events) :
    sockOptOn &&& fromLinux events ≠ 0 := by
  have errors : events &&& epollErr ≠ 0 ∨ events &&& epollHup ≠ 0 := by
    by_contra neither
    obtain ⟨noErr, noHup⟩ := not_or.mp neither
    rw [not_not] at noErr noHup
    have all : BitVec.allOnes 32 = ~~~interest.reportable ||| (epollErr ||| epollHup) := by
      rw [Interest.reportable, asked]
      decide
    apply reports.1
    rw [← BitVec.and_allOnes (x := events), all]
    exact and_or_eq_zero reports.2 (and_or_eq_zero noErr noHup)
  unfold fromLinux
  rw [if_pos errors]
  repeat' split
  all_goals decide

/-! ## One step -/

namespace Sockets

/-- Steps of one wait after its registration. -/
def Label.decides : Label → Bool
  | .expire _ _ | .finish _ => true
  | _ => false

/-- What a step can do. -/
inductive Turn (before after : Sockets) : Label → Prop
  | constructed (fd : Fd) (refused : Bool) :
      before.handler.fdTids fd = none →
      after.handler = before.handler.addTask ⟨fd, sockOptOn, before.made⟩ →
      (after.interest = before.interest ∧ after.sockets = before.sockets ∨
        before.interest fd = none ∧
          after.interest = Function.update before.interest fd
            (some ⟨toLinux sockOptOn ||| epollEt, before.handler.gid, true⟩) ∧
          after.sockets = fd :: before.sockets) →
      after.calls = before.calls → after.waits = before.waits → after.ran = before.ran →
      after.made = before.made + 1 →
      Turn before after (.construct fd refused)
  | waited (fd : Fd) (ready : Ready) (timed refused : Bool) :
      fd ∈ before.sockets →
      after.handler = before.handler.modTask ⟨fd, ready.on, before.made⟩ →
      ((refused = true ∨ before.interest fd = none) ∧
          after.interest = before.interest ∧ after.waits = before.waits ∨
        after.interest = Function.update before.interest fd
            (some ⟨toLinux ready.on ||| epollEt, before.handler.gid, true⟩) ∧
          after.waits = Function.update before.waits before.made
            (some ⟨fd, ready, .initial, timed⟩)) →
      after.calls = before.calls → after.sockets = before.sockets → after.ran = before.ran →
      after.made = before.made + 1 →
      Turn before after (.wait fd ready timed refused)
  | reported (worker : Worker) (reports : List (Fd × LinuxMask)) :
      before.calls worker = [] →
      (∀ report ∈ reports, before.poller.epoll.MayReport report) →
      after.handler = before.handler →
      after.poller.epoll = before.poller.epoll.reported (reports.map Prod.fst) →
      after.calls =
        Function.update before.calls worker (reports.map before.poller.epoll.report) →
      after.sockets = before.sockets → after.waits = before.waits → after.ran = before.ran →
      after.made = before.made →
      Turn before after (.epollWait worker reports)
  | dispatched (worker : Worker) (spurious : Bool) (report : Report) (rest : List Report) :
      before.calls worker = report :: rest →
      after.poller = before.poller →
      after.calls = Function.update before.calls worker rest →
      (before.handler.invoked report = none ∧
          after.waits = before.waits ∧ after.ran = before.ran ∨
        ∃ task ev, before.handler.invoked report = some (task, ev) ∧
          after.waits = changeSignal before.waits task.fn (.onEvent spurious) ∧
          after.ran = Function.update before.ran task.fn true) →
      after.sockets = before.sockets → after.made = before.made →
      Turn before after (.dispatch worker spurious)
  | decided (label : Label) (closure : Closure) (wait changed : Wait) :
      label.decides = true → before.waits closure = some wait →
      after.waits = Function.update before.waits closure (some changed) →
      changed.fd = wait.fd → changed.ready = wait.ready → (changed.Pending → wait.Pending) →
      after.poller = before.poller → after.calls = before.calls →
      after.sockets = before.sockets → after.ran = before.ran → after.made = before.made →
      Turn before after label

variable {before after : Sockets} {label : Label}

/-- A claim leaves a decided signal alone. -/
theorem pending_of_claim
    {outcome : Int}
    {spurious : Bool}
    {signal : Signal}
    (undecided : (signal.claim outcome spurious).timeout = 0) :
    signal.timeout = 0 := by
  unfold Signal.claim at undecided
  split at undecided
  · next free => exact free.1
  · exact undecided

theorem turn_of_step
    (stepped : before.step label = some after) :
    Turn before after label := by
  cases label with
  | construct fd refused =>
      simp only [step] at stepped
      split at stepped
      · next unknown =>
          rcases before.poller.add_eq refused fd sockOptOn before.made with
            ⟨-, free, result⟩ | ⟨-, result⟩
          · rw [result] at stepped
            obtain rfl := Option.some.inj stepped
            exact .constructed fd refused unknown rfl (.inr ⟨free, rfl, rfl⟩) rfl rfl rfl rfl
          · rw [result] at stepped
            obtain rfl := Option.some.inj stepped
            exact .constructed fd refused unknown rfl (.inl ⟨rfl, rfl⟩) rfl rfl rfl rfl
      · cases stepped
  | wait fd ready timed refused =>
      simp only [step] at stepped
      split at stepped
      · next known =>
          rcases before.poller.mod_eq refused fd ready.on before.made with
            ⟨-, -, result⟩ | ⟨failed, result⟩
          · rw [result] at stepped
            obtain rfl := Option.some.inj stepped
            exact .waited fd ready timed refused known rfl (.inr ⟨rfl, rfl⟩) rfl rfl rfl rfl
          · rw [result] at stepped
            obtain rfl := Option.some.inj stepped
            exact .waited fd ready timed refused known rfl (.inl ⟨failed, rfl, rfl⟩)
              rfl rfl rfl rfl
      · cases stepped
  | epollWait worker reports =>
      simp only [step] at stepped
      split at stepped
      · next enabled =>
          obtain ⟨idle, -, -, may⟩ := enabled
          obtain rfl := Option.some.inj stepped
          exact .reported worker reports idle may rfl rfl rfl rfl rfl rfl rfl
      · cases stepped
  | dispatch worker spurious =>
      simp only [step] at stepped
      split at stepped
      · cases stepped
      · next report rest pending =>
          split at stepped
          · next nothing =>
              obtain rfl := Option.some.inj stepped
              exact .dispatched worker spurious report rest pending rfl rfl
                (.inl ⟨nothing, rfl, rfl⟩) rfl rfl
          · next task ev invoked =>
              obtain rfl := Option.some.inj stepped
              exact .dispatched worker spurious report rest pending rfl rfl
                (.inr ⟨task, ev, invoked, rfl, rfl⟩) rfl rfl
  | expire closure spurious =>
      simp only [step] at stepped
      split at stepped
      · cases stepped
      · next wait known =>
          split at stepped
          · obtain rfl := Option.some.inj stepped
            exact .decided _ closure wait _ rfl known rfl rfl rfl pending_of_claim
              rfl rfl rfl rfl rfl
          · cases stepped
  | finish closure =>
      simp only [step] at stepped
      split at stepped
      · cases stepped
      · next wait known =>
          split at stepped
          · obtain rfl := Option.some.inj stepped
            refine .decided _ closure wait
              { wait with signal := { wait.signal with signal := wait.signal.signal - 1 } }
              rfl known ?_ rfl rfl id rfl rfl rfl rfl rfl
            simp [changeSignal, known]
          · cases stepped

/-! ## The maps -/

/-- A registration draws a tid that has no task. -/
def VacantTid (state : Sockets) : Label → Prop
  | .construct _ _ | .wait _ _ _ _ => state.handler.tidCalls state.handler.gid = none
  | _ => True

instance (state : Sockets) (label : Label) : Decidable (state.VacantTid label) :=
  match label with
  | .construct _ _ | .wait _ _ _ _ =>
      inferInstanceAs (Decidable (state.handler.tidCalls state.handler.gid = none))
  | .epollWait _ _ | .dispatch _ _ | .expire _ _ | .finish _ => inferInstanceAs (Decidable True)

/-- The maps are inverse, every socket is known to both sides, and the waits have
callbacks that were made. -/
structure Sound (state : Sockets) : Prop where
  inverse : Lib.Inverse Task.fd state.handler.fdTids state.handler.tidCalls
  known : ∀ fd ∈ state.sockets, state.handler.fdTids fd ≠ none
  listed : ∀ fd ∈ state.sockets, state.interest fd ≠ none
  closures : ∀ {closure wait}, state.waits closure = some wait → closure < state.made

/-- A wait whose signal changes keeps what it waits for. -/
theorem of_changeSignal
    {waits : Closure → Option Wait}
    {closure changed : Closure}
    {change : Signal → Signal}
    {wait : Wait}
    (found : changeSignal waits changed change closure = some wait) :
    ∃ earlier, waits closure = some earlier ∧ wait.fd = earlier.fd ∧
      wait.ready = earlier.ready ∧ wait.timer = earlier.timer ∧
        wait.signal = if closure = changed then change earlier.signal else earlier.signal := by
  unfold changeSignal at found
  rcases eq_or_ne closure changed with rfl | apart
  · rw [Function.update_self, Option.map_eq_some_iff] at found
    obtain ⟨earlier, known, rfl⟩ := found
    exact ⟨earlier, known, rfl, rfl, rfl, (if_pos rfl).symm⟩
  · rw [Function.update_of_ne apart] at found
    exact ⟨wait, found, rfl, rfl, rfl, (if_neg apart).symm⟩

namespace Sound

theorem initial : Sound Sockets.initial where
  inverse := .empty
  known := by simp [Sockets.initial]
  listed := by simp [Sockets.initial]
  closures := by simp [Sockets.initial]

/-- The tid that a socket's registration erases is its own. -/
theorem tidOf_eq
    (sound : Sound before)
    {fd : Fd}
    (opened : fd ∈ before.sockets) :
    before.handler.fdTids fd = some (before.handler.tidOf fd) := by
  obtain ⟨tid, registered⟩ := Option.ne_none_iff_exists'.mp (sound.known fd opened)
  rw [Handler.tidOf, registered, Option.getD_some]

/-- The step leaves the maps, epoll and the sockets alone. -/
theorem of_poller
    (sound : Sound before)
    (poller : after.poller = before.poller)
    (sockets : after.sockets = before.sockets)
    (closures : ∀ {closure wait}, after.waits closure = some wait → closure < after.made) :
    Sound after where
  inverse := by
    rw [handler, poller]
    exact sound.inverse
  known := by
    rw [handler, poller, sockets]
    exact sound.known
  listed := by
    rw [interest, poller, sockets]
    exact sound.listed
  closures := closures

/-- What a step preserves that draws a vacant tid if any. -/
theorem turn
    (sound : Sound before)
    (turn : Turn before after label)
    (vacant : before.VacantTid label) :
    Sound after := by
  cases turn with
  | constructed fd refused unknown maps kernel calls waits ran made =>
      have known : ∀ other ∈ before.sockets, after.handler.fdTids other ≠ none := by
        intro other opened
        have apart : other ≠ fd := by
          rintro rfl
          exact sound.known other opened unknown
        rw [maps]
        simpa [Handler.addTask, apart] using sound.known other opened
      have closures : ∀ {closure wait}, after.waits closure = some wait →
          closure < after.made := by
        intro closure wait found
        rw [waits] at found
        rw [made]
        exact Nat.lt_succ_of_lt (sound.closures found)
      have inverse : Lib.Inverse Task.fd after.handler.fdTids after.handler.tidCalls := by
        rw [maps]
        exact sound.inverse.register unknown vacant
      rcases kernel with ⟨interest, sockets⟩ | ⟨free, interest, sockets⟩
      · refine ⟨inverse, ?_, ?_, closures⟩
        · rw [sockets]
          exact known
        · rw [sockets, interest]
          exact sound.listed
      · refine ⟨inverse, ?_, ?_, closures⟩
        · rw [sockets, List.forall_mem_cons]
          refine ⟨?_, known⟩
          rw [maps]
          simp [Handler.addTask]
        · rw [sockets, interest, List.forall_mem_cons]
          refine ⟨by simp, fun other opened => ?_⟩
          have apart : other ≠ fd := by
            rintro rfl
            exact sound.known other opened unknown
          simpa [apart] using sound.listed other opened
  | waited fd ready timed refused opened maps kernel calls sockets ran made =>
      have inverse : Lib.Inverse Task.fd after.handler.fdTids after.handler.tidCalls := by
        rw [maps]
        exact sound.inverse.replace (sound.tidOf_eq opened) vacant
      have known : ∀ other ∈ after.sockets, after.handler.fdTids other ≠ none := by
        rw [sockets, maps]
        intro other member
        rcases eq_or_ne other fd with rfl | apart
        · simp [Handler.modTask]
        · simpa [Handler.modTask, apart] using sound.known other member
      have earlier : ∀ {closure wait}, before.waits closure = some wait →
          closure < after.made := by
        intro closure wait found
        rw [made]
        exact Nat.lt_succ_of_lt (sound.closures found)
      rcases kernel with ⟨-, interest, waits⟩ | ⟨interest, waits⟩
      · refine ⟨inverse, known, ?_, ?_⟩
        · rw [sockets, interest]
          exact sound.listed
        · rw [waits]
          exact earlier
      · refine ⟨inverse, known, ?_, ?_⟩
        · rw [sockets, interest]
          intro other member
          rcases eq_or_ne other fd with rfl | apart
          · simp
          · simpa [apart] using sound.listed other member
        · intro closure wait found
          rw [waits] at found
          rcases eq_or_ne closure before.made with rfl | apart
          · rw [made]
            exact Nat.lt_succ_self _
          · rw [Function.update_of_ne apart] at found
            exact earlier found
  | reported worker reports idle may maps epoll calls sockets waits ran made =>
      refine ⟨?_, ?_, ?_, ?_⟩
      · rw [maps]
        exact sound.inverse
      · rw [maps, sockets]
        exact sound.known
      · rw [sockets, interest, epoll]
        intro fd opened
        obtain ⟨entry, listed⟩ := Option.ne_none_iff_exists'.mp (sound.listed fd opened)
        simp only [Epoll.reported, listed]
        split <;> simp
      · rw [waits, made]
        exact sound.closures
  | dispatched worker spurious report rest pending poller calls outcome sockets made =>
      refine sound.of_poller poller sockets ?_
      intro closure wait found
      rw [made]
      rcases outcome with ⟨-, waits, -⟩ | ⟨task, ev, -, waits, -⟩
      · rw [waits] at found
        exact sound.closures found
      · rw [waits] at found
        obtain ⟨earlier, known, -⟩ := of_changeSignal found
        exact sound.closures known
  | decided _ closure wait changed decides known waits sameFd sameReady claims poller calls
      sockets ran made =>
      refine sound.of_poller poller sockets ?_
      intro other otherWait found
      rw [waits] at found
      rw [made]
      rcases eq_or_ne other closure with rfl | apart
      · exact sound.closures known
      · rw [Function.update_of_ne apart] at found
        exact sound.closures found

end Sound

/-! ## One registration -/

/-- Epoll reports the descriptor under the tid that has this task, and was asked for
the events of the task. -/
structure Attached
    (state : Sockets)
    (fd : Fd)
    (entry : Interest)
    (task : Task Closure) : Prop where
  listed : state.interest fd = some entry
  held : state.handler.tidCalls entry.data = some task
  own : task.fd = fd
  asked : entry.events = toLinux task.on ||| epollEt

/-- An event of a registration is in the batch of a caller of `handle`. -/
def InFlight (state : Sockets) (data : Tid) (Meets : LinuxMask → Prop) : Prop :=
  ∃ worker, ∃ report ∈ state.calls worker, report.data = data ∧ Meets report.events

/-- What epoll does to a registration in a step: nothing, or it reports it. -/
def Reports
    (after : Sockets)
    (label : Label)
    (fd : Fd)
    (entry later : Interest) : Prop :=
  later = entry ∨
    later.data = entry.data ∧ later.events = entry.events ∧
      ∃ worker reports events, label = .epollWait worker reports ∧ (fd, events) ∈ reports ∧
        entry.MayReport events ∧ ⟨entry.data, events⟩ ∈ after.calls worker

variable {fd : Fd} {entry : Interest} {task : Task Closure}

/-- The step leaves the maps and epoll alone. -/
theorem Attached.of_poller
    (attached : Attached before fd entry task)
    (poller : after.poller = before.poller) :
    Attached after fd entry task where
  listed := by
    rw [interest, poller]
    exact attached.listed
  held := by
    rw [handler, poller]
    exact attached.held
  own := attached.own
  asked := attached.asked

/-- What the constructor registers. -/
theorem attached_of_construct
    {closure : Closure}
    (maps : after.handler = before.handler.addTask ⟨fd, sockOptOn, closure⟩)
    (interest : after.interest = Function.update before.interest fd
      (some ⟨toLinux sockOptOn ||| epollEt, before.handler.gid, true⟩)) :
    Attached after fd ⟨toLinux sockOptOn ||| epollEt, before.handler.gid, true⟩
      ⟨fd, sockOptOn, closure⟩ where
  listed := by rw [interest, Function.update_self]
  held := by rw [maps, Handler.addTask_tidCalls, Function.update_self]
  own := rfl
  asked := rfl

/-- What a wait registers. -/
theorem attached_of_wait
    {ready : Ready}
    {closure : Closure}
    (sound : Sound before)
    (opened : fd ∈ before.sockets)
    (vacant : before.handler.tidCalls before.handler.gid = none)
    (maps : after.handler = before.handler.modTask ⟨fd, ready.on, closure⟩)
    (interest : after.interest = Function.update before.interest fd
      (some ⟨toLinux ready.on ||| epollEt, before.handler.gid, true⟩)) :
    Attached after fd ⟨toLinux ready.on ||| epollEt, before.handler.gid, true⟩
      ⟨fd, ready.on, closure⟩ where
  listed := by rw [interest, Function.update_self]
  held := by
    have kept : before.handler.gid ≠ before.handler.tidOf fd :=
      sound.inverse.ne_of_vacant (sound.tidOf_eq opened) vacant
    rw [maps, Handler.modTask_tidCalls, Function.update_of_ne kept, Function.update_self]
  own := rfl
  asked := rfl

/-- The only step that replaces a registration is another wait for the socket. -/
theorem Attached.turn
    (attached : Attached before fd entry task)
    (sound : Sound before)
    (turn : Turn before after label)
    (vacant : before.VacantTid label)
    (elsewhere : ∀ ready timed refused, label ≠ .wait fd ready timed refused) :
    ∃ later, Attached after fd later task ∧ Reports after label fd entry later := by
  have registered : before.handler.fdTids fd = some entry.data := by
    rw [← attached.own]
    exact sound.inverse.current attached.held
  cases turn with
  | constructed opened refused unknown maps kernel calls waits ran made =>
      have apart : fd ≠ opened := by
        rintro rfl
        rw [unknown] at registered
        cases registered
      refine ⟨entry, ⟨?_, ?_, attached.own, attached.asked⟩, .inl rfl⟩
      · rcases kernel with ⟨interest, -⟩ | ⟨-, interest, -⟩
        · rw [interest]
          exact attached.listed
        · rw [interest, Function.update_of_ne apart]
          exact attached.listed
      · have fresh : entry.data ≠ before.handler.gid :=
          (sound.inverse.ne_of_vacant registered vacant).symm
        rw [maps, Handler.addTask_tidCalls, Function.update_of_ne fresh]
        exact attached.held
  | waited waitedFd ready timed refused opened maps kernel calls sockets ran made =>
      have apart : fd ≠ waitedFd := by
        rintro rfl
        exact elsewhere ready timed refused rfl
      refine ⟨entry, ⟨?_, ?_, attached.own, attached.asked⟩, .inl rfl⟩
      · rcases kernel with ⟨-, interest, -⟩ | ⟨interest, -⟩
        · rw [interest]
          exact attached.listed
        · rw [interest, Function.update_of_ne apart]
          exact attached.listed
      · have fresh : entry.data ≠ before.handler.gid :=
          (sound.inverse.ne_of_vacant registered vacant).symm
        have kept : entry.data ≠ before.handler.tidOf waitedFd :=
          sound.inverse.ne_of_entry (sound.tidOf_eq opened) attached.held
            (by rw [attached.own]; exact apart)
        rw [maps, Handler.modTask_tidCalls, Function.update_of_ne kept,
          Function.update_of_ne fresh]
        exact attached.held
  | reported worker reports idle may maps epoll calls sockets waits ran made =>
      have listed : before.poller.epoll.interest fd = some entry := attached.listed
      by_cases member : fd ∈ reports.map Prod.fst
      · refine ⟨entry.reported, ⟨?_, ?_, attached.own, attached.asked⟩, .inr ⟨rfl, rfl, ?_⟩⟩
        · rw [interest, epoll, Epoll.reported]
          simp only [if_pos member, listed]
          rfl
        · rw [maps]
          exact attached.held
        · obtain ⟨⟨reportedFd, events⟩, reported, rfl⟩ := List.mem_map.mp member
          have allowed := may _ reported
          simp only [Epoll.MayReport, listed] at allowed
          refine ⟨worker, reports, events, rfl, reported, allowed.2, ?_⟩
          have buffered : before.poller.epoll.report (reportedFd, events) =
              ⟨entry.data, events⟩ := by
            simp [Epoll.report, listed]
          rw [calls, Function.update_self, ← buffered]
          exact List.mem_map_of_mem reported
      · refine ⟨entry, ⟨?_, ?_, attached.own, attached.asked⟩, .inl rfl⟩
        · rw [interest, epoll, Epoll.reported]
          simp only [if_neg member]
          exact attached.listed
        · rw [maps]
          exact attached.held
  | dispatched worker spurious report rest pending poller calls outcome sockets made =>
      exact ⟨entry, attached.of_poller poller, .inl rfl⟩
  | decided _ closure wait changed decides known waits sameFd sameReady claims poller calls
      sockets ran made =>
      exact ⟨entry, attached.of_poller poller, .inl rfl⟩

/-- An event stays in flight until it is dispatched. -/
theorem InFlight.turn
    {data : Tid}
    {Meets : LinuxMask → Prop}
    (flight : before.InFlight data Meets)
    (turn : Turn before after label) :
    after.InFlight data Meets ∨
      ∃ worker spurious report rest, label = .dispatch worker spurious ∧
        before.calls worker = report :: rest ∧ report.data = data ∧ Meets report.events := by
  obtain ⟨worker, report, member, same, meets⟩ := flight
  cases turn with
  | constructed opened refused unknown maps kernel calls waits ran made =>
      left
      exact ⟨worker, report, by rwa [calls], same, meets⟩
  | waited waitedFd ready timed refused opened maps kernel calls sockets ran made =>
      left
      exact ⟨worker, report, by rwa [calls], same, meets⟩
  | reported collector reports idle may maps epoll calls sockets waits ran made =>
      have apart : worker ≠ collector := by
        rintro rfl
        rw [idle] at member
        cases member
      left
      exact ⟨worker, report, by rwa [calls, Function.update_of_ne apart], same, meets⟩
  | dispatched dispatcher spurious head rest pending poller calls outcome sockets made =>
      rcases eq_or_ne worker dispatcher with rfl | apart
      · rw [pending, List.mem_cons] at member
        rcases member with rfl | later
        · exact .inr ⟨worker, spurious, report, rest, rfl, pending, same, meets⟩
        · left
          exact ⟨worker, report, by rwa [calls, Function.update_self], same, meets⟩
      · left
        exact ⟨worker, report, by rwa [calls, Function.update_of_ne apart], same, meets⟩
  | decided _ closure wait changed decides known waits sameFd sameReady claims poller calls
      sockets ran made =>
      left
      exact ⟨worker, report, by rwa [calls], same, meets⟩

/-- What a dispatched event does that passes the filter of its task. -/
theorem dispatched_of_turn
    {worker : Worker}
    {spurious : Bool}
    {report : Report}
    {rest : List Report}
    (turn : Turn before after (.dispatch worker spurious))
    (pending : before.calls worker = report :: rest)
    (held : before.handler.tidCalls report.data = some task)
    (passes : task.on &&& fromLinux report.events ≠ 0) :
    after.waits = changeSignal before.waits task.fn (.onEvent spurious) ∧
      after.ran = Function.update before.ran task.fn true := by
  have invoked := Handler.invoked_eq_some.mpr ⟨held, passes, rfl⟩
  cases turn with
  | dispatched _ _ head rest' pending' poller calls outcome sockets made =>
      rw [pending] at pending'
      obtain ⟨rfl, rfl⟩ := List.cons.inj pending'
      rcases outcome with ⟨nothing, -⟩ | ⟨found, ev, called, waits, ran⟩
      · rw [nothing] at invoked
        cases invoked
      · rw [called] at invoked
        obtain ⟨rfl, -⟩ := Prod.mk.inj (Option.some.inj invoked)
        exact ⟨waits, ran⟩
  | decided _ closure wait changed decides => cases decides

/-- A callback that has run has run. -/
theorem ran_of_turn
    {closure : Closure}
    (ranBefore : before.ran closure = true)
    (turn : Turn before after label) :
    after.ran closure = true := by
  cases turn with
  | constructed opened refused unknown maps kernel calls waits ran made => rwa [ran]
  | waited waitedFd ready timed refused opened maps kernel calls sockets ran made => rwa [ran]
  | reported worker reports idle may maps epoll calls sockets waits ran made => rwa [ran]
  | dispatched worker spurious report rest pending poller calls outcome sockets made =>
      rcases outcome with ⟨-, -, ran⟩ | ⟨task, ev, -, -, ran⟩
      · rwa [ran]
      · rcases eq_or_ne closure task.fn with rfl | apart
        · rw [ran, Function.update_self]
        · rwa [ran, Function.update_of_ne apart]
  | decided _ closure wait changed decides known waits sameFd sameReady claims poller calls
      sockets ran made => rwa [ran]

end Sockets

end Event
end Cgo
