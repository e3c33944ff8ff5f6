import Cgo.Event.Frame

/-!
# Waiting for sockets

The sockets of one event handler: their constructor registers them,
`_wait_sock_event` registers them again for each wait, epoll reports them to the
callers of `handle`, and the callbacks and the timers decide the waits.  No
socket is closed here.
-/

namespace Cgo
namespace Event

/-- The number of a `std::function` that was registered, in the order of creation. -/
abbrev Closure := Nat

/-! ## What is waited for -/

/-- The two events that the calls of `Socket` wait for. -/
inductive Ready where
  | input
  | output
  deriving DecidableEq

/-- The argument of `_wait_sock_event`. -/
def Ready.on : Ready → Mask
  | .input => eventIn ||| eventOneshot
  | .output => eventOut ||| eventOneshot

/-- The flag by which epoll reports the awaited readiness. -/
def Ready.flag : Ready → LinuxMask
  | .input => epollIn
  | .output => epollOut

/-- The registration that `_set_sock_opt` makes. -/
def sockOptOn : Mask := eventErr ||| eventOneshot

/-- `Signal` of `_wait_sock_event`, with the permits of its semaphore. -/
structure Signal where
  timeout : Int
  signal : Nat
  deriving DecidableEq

/-- `std::make_shared<Signal>(0)`. -/
def Signal.initial : Signal where
  timeout := 0
  signal := 0

/-- `compare_exchange_weak` from 0, which may fail although it finds 0, and the release
after it succeeded. -/
def Signal.claim (outcome : Int) (spurious : Bool) (signal : Signal) : Signal :=
  if signal.timeout = 0 ∧ spurious = false then
    { timeout := outcome, signal := signal.signal + 1 }
  else signal

/-- The callback that `_wait_sock_event` registers for the event. -/
def Signal.onEvent : Bool → Signal → Signal :=
  Signal.claim 1

/-- The callback that it gives to `create_timeout`. -/
def Signal.onTimeout : Bool → Signal → Signal :=
  Signal.claim (-1)

/-- A call of `_wait_sock_event`. -/
structure Wait where
  fd : Fd
  ready : Ready
  signal : Signal
  /-- Its timer was created and has not run. -/
  timer : Bool
  deriving DecidableEq

/-- Neither the event nor the timeout has decided the wait. -/
def Wait.Pending (wait : Wait) : Prop :=
  wait.signal.timeout = 0

instance (wait : Wait) : Decidable wait.Pending :=
  inferInstanceAs (Decidable (_ = _))

/-! ## `epoll_wait` -/

/-- Errors and hangups are reported whether they were asked for or not. -/
def unasked : LinuxMask := epollErr ||| epollHup

/-- The events that epoll may report: those it was asked for, and the others that it
always reports. -/
def Interest.reportable (interest : Interest) : LinuxMask :=
  (interest.events ||| unasked) &&& ~~~(epollOneshot ||| epollEt)

/-- A non-empty set of such events. -/
def Interest.MayReport (interest : Interest) (events : LinuxMask) : Prop :=
  events ≠ 0 ∧ events &&& ~~~interest.reportable = 0

instance (interest : Interest) (events : LinuxMask) : Decidable (interest.MayReport events) :=
  inferInstanceAs (Decidable (_ ∧ _))

/-- After a report: `EPOLLONESHOT` disarms. -/
def Interest.reported (interest : Interest) : Interest :=
  { interest with armed := interest.armed && decide (interest.events &&& epollOneshot = 0) }

/-- The descriptor is armed, and these events may be reported for it. -/
def Epoll.MayReport (epoll : Epoll) (report : Fd × LinuxMask) : Prop :=
  match epoll.interest report.1 with
  | none => False
  | some interest => interest.armed = true ∧ interest.MayReport report.2

instance (epoll : Epoll) (report : Fd × LinuxMask) : Decidable (epoll.MayReport report) := by
  unfold Epoll.MayReport
  cases epoll.interest report.1 <;> infer_instance

/-- The element of the buffer for a reported descriptor. -/
def Epoll.report (epoll : Epoll) (report : Fd × LinuxMask) : Report where
  data := ((epoll.interest report.1).map Interest.data).getD 0
  events := report.2

/-- The interest list after these descriptors were reported. -/
def Epoll.reported (epoll : Epoll) (fds : List Fd) : Epoll where
  interest := fun fd =>
    if fd ∈ fds then (epoll.interest fd).map Interest.reported else epoll.interest fd

/-! ## The system -/

/-- A handler with its sockets, the events that the callers of `handle` have not
dispatched yet, and the waits by the number of their callback. -/
structure Sockets where
  poller : Poller Closure
  sockets : List Fd
  calls : Worker → List Report
  made : Nat
  waits : Closure → Option Wait
  /-- The callbacks that were invoked.  The code does not keep them. -/
  ran : Closure → Bool

namespace Sockets

/-- No socket was opened. -/
def initial : Sockets where
  poller := .initial Closure
  sockets := []
  calls := fun _ => []
  made := 0
  waits := fun _ => none
  ran := fun _ => false

/-- The maps of the handler. -/
abbrev handler (state : Sockets) : Handler Closure :=
  state.poller.handler

/-- The interest list. -/
abbrev interest (state : Sockets) : Fd → Option Interest :=
  state.poller.epoll.interest

/-- The signal of a wait changes. -/
def changeSignal
    (waits : Closure → Option Wait)
    (closure : Closure)
    (change : Signal → Signal) : Closure → Option Wait :=
  Function.update waits closure
    ((waits closure).map fun wait => { wait with signal := change wait.signal })

/-- `callback.fn(ev)`.  The callback of `_set_sock_opt` is empty. -/
def runCallback (state : Sockets) (closure : Closure) (spurious : Bool) : Sockets :=
  { state with
    waits := changeSignal state.waits closure (.onEvent spurious)
    ran := Function.update state.ran closure true }

inductive Label where
  /-- A socket is constructed on a descriptor. -/
  | construct (fd : Fd) (refused : Bool)
  /-- `_wait_sock_event`, up to `aquire`.  Its timer may run from then on. -/
  | wait (fd : Fd) (ready : Ready) (timed : Bool) (refused : Bool)
  /-- `epoll_wait` returns in `handle`. -/
  | epollWait (worker : Worker) (reports : List (Fd × LinuxMask))
  /-- One round of the loop in `handle`. -/
  | dispatch (worker : Worker) (spurious : Bool)
  /-- The callback of the timer runs. -/
  | expire (closure : Closure) (spurious : Bool)
  /-- `aquire` comes back, and the wait returns. -/
  | finish (closure : Closure)

/-- One step.  The system gives out only descriptors that are not in use, and a
constructor that throws does not close its descriptor. -/
def step (state : Sockets) : Label → Option Sockets
  | .construct fd refused =>
      if state.handler.fdTids fd = none then
        match state.poller.add refused fd sockOptOn state.made with
        | (.ok _, poller) =>
            some { state with poller, sockets := fd :: state.sockets, made := state.made + 1 }
        | (.error _, poller) => some { state with poller, made := state.made + 1 }
      else none
  | .wait fd ready timed refused =>
      if fd ∈ state.sockets then
        match state.poller.mod refused fd ready.on state.made with
        | (.ok _, poller) =>
            some { state with
              poller
              made := state.made + 1
              waits := Function.update state.waits state.made
                (some ⟨fd, ready, .initial, timed⟩) }
        | (.error _, poller) => some { state with poller, made := state.made + 1 }
      else none
  | .epollWait worker reports =>
      if state.calls worker = [] ∧ reports.length ≤ 128 ∧ (reports.map Prod.fst).Nodup ∧
          ∀ report ∈ reports, state.poller.epoll.MayReport report then
        some { state with
          poller := { state.poller with
            epoll := state.poller.epoll.reported (reports.map Prod.fst) }
          calls := Function.update state.calls worker (reports.map state.poller.epoll.report) }
      else none
  | .dispatch worker spurious =>
      match state.calls worker with
      | [] => none
      | report :: rest =>
          let state := { state with calls := Function.update state.calls worker rest }
          match state.handler.invoked report with
          | none => some state
          | some (task, _) => some (state.runCallback task.fn spurious)
  | .expire closure spurious =>
      match state.waits closure with
      | none => none
      | some wait =>
          if wait.timer then
            some { state with
              waits := Function.update state.waits closure
                (some { wait with signal := wait.signal.onTimeout spurious, timer := false }) }
          else none
  | .finish closure =>
      match state.waits closure with
      | none => none
      | some wait =>
          if 0 < wait.signal.signal then
            some { state with
              waits := changeSignal state.waits closure
                fun signal => { signal with signal := signal.signal - 1 } }
          else none

/-- Reachable from a handler without sockets. -/
def Reached (state : Sockets) : Prop :=
  Lib.Reachable step initial state

end Sockets

end Event
end Cgo
