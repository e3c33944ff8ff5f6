import Mathlib.Logic.Function.Basic

/-!
# The event handler

`Event`, `EventContext::Task` and `EventContext::Handler`, and what they use of
epoll: the interest list of the handler's epoll instance.  A handler keeps one
task for each file descriptor.  `_fd_tids` gives the number of the task, its
tid, `_tid_calls` the task itself, and epoll hands the tid back with each event.
-/

namespace Cgo
namespace Event

/-- A file descriptor. -/
abbrev Fd := Int

/-- The number of a registration, an `int`. -/
abbrev Tid := BitVec 32

/-- A thread that calls `handle`. -/
abbrev Worker := Nat

/-! ## Event masks -/

/-- `Event`: a `size_t` of flags. -/
abbrev Mask := BitVec 64

/-- The flags of `epoll_event::events`. -/
abbrev LinuxMask := BitVec 32

/-- `Event::IN`. -/
def eventIn : Mask := 0x1

/-- `Event::OUT`. -/
def eventOut : Mask := 0x2

/-- `Event::ERR`. -/
def eventErr : Mask := 0x4

/-- `Event::ONESHOT`. -/
def eventOneshot : Mask := 0x8

def epollIn : LinuxMask := 0x1

def epollOut : LinuxMask := 0x4

def epollErr : LinuxMask := 0x8

def epollHup : LinuxMask := 0x10

def epollOneshot : LinuxMask := 0x40000000

def epollEt : LinuxMask := 0x80000000

/-- `Event::from_linux`. -/
def fromLinux (linuxEvent : LinuxMask) : Mask :=
  (if linuxEvent &&& epollIn ≠ 0 then eventIn else 0) |||
  (if linuxEvent &&& epollOut ≠ 0 then eventOut else 0) |||
  (if linuxEvent &&& epollErr ≠ 0 ∨ linuxEvent &&& epollHup ≠ 0 then eventErr else 0) |||
  (if linuxEvent &&& epollOneshot ≠ 0 then eventOneshot else 0)

/-- `Event::to_linux`. -/
def toLinux (cgoEvent : Mask) : LinuxMask :=
  (if cgoEvent &&& eventIn ≠ 0 then epollIn else 0) |||
  (if cgoEvent &&& eventOut ≠ 0 then epollOut else 0) |||
  (if cgoEvent &&& eventErr ≠ 0 then epollErr else 0) |||
  (if cgoEvent &&& eventOneshot ≠ 0 then epollOneshot else 0)

/-! ## The interest list of epoll -/

/-- What epoll keeps of a file descriptor: the events it was asked for,
`data.u64`, which holds the tid, and whether it may report the descriptor. -/
structure Interest where
  events : LinuxMask
  data : Tid
  armed : Bool
  deriving DecidableEq

/-- The interest list of an epoll instance. -/
structure Epoll where
  interest : Fd → Option Interest

/-- The operations of `epoll_ctl`. -/
inductive Ctl where
  | add
  | mod
  | del
  deriving DecidableEq

/-- `epoll_ctl`, or `none` when it returns -1: `EPOLL_CTL_ADD` of a descriptor in the
list, any other operation on one that is not there, and `refused` stands for the
errors that do not depend on the list. -/
def Epoll.ctl
    (epoll : Epoll) (refused : Bool) (ctl : Ctl) (fd : Fd)
    (events : LinuxMask) (data : Tid) : Option Epoll :=
  if refused then none
  else
    match ctl, epoll.interest fd with
    | .add, none =>
        some { interest := Function.update epoll.interest fd (some ⟨events, data, true⟩) }
    | .mod, some _ =>
        some { interest := Function.update epoll.interest fd (some ⟨events, data, true⟩) }
    | .del, some _ => some { interest := Function.update epoll.interest fd none }
    | _, _ => none

/-- `close` of the descriptor takes it out of the list. -/
def Epoll.close (epoll : Epoll) (fd : Fd) : Epoll where
  interest := Function.update epoll.interest fd none

/-! ## The handler -/

/-- `EventContext::Task`. -/
structure Task (Callback : Type) where
  fd : Fd
  on : Mask
  fn : Callback
  deriving DecidableEq

/-- `EventContext::Handler` without its lock: each function below is one section
under `_mtx`. -/
structure Handler (Callback : Type) where
  tidCalls : Tid → Option (Task Callback)
  fdTids : Fd → Option Tid
  gid : Tid

/-- A handler as constructed. -/
def Handler.initial (Callback : Type) : Handler Callback where
  tidCalls := fun _ => none
  fdTids := fun _ => none
  gid := 0

namespace Handler

variable {Callback : Type}

/-- `_fd_tids[fd]`, which is 0 for a descriptor that was not there. -/
def tidOf (handler : Handler Callback) (fd : Fd) : Tid :=
  (handler.fdTids fd).getD 0

/-- The writes of `add` to the maps: the task goes under the next tid. -/
def addTask (handler : Handler Callback) (task : Task Callback) : Handler Callback where
  tidCalls := Function.update handler.tidCalls handler.gid (some task)
  fdTids := Function.update handler.fdTids task.fd (some handler.gid)
  gid := handler.gid + 1

/-- The writes of `mod` to the maps: the task goes under the next tid, then the task
under the tid of the descriptor is erased. -/
def modTask (handler : Handler Callback) (task : Task Callback) : Handler Callback where
  tidCalls :=
    Function.update (Function.update handler.tidCalls handler.gid (some task))
      (handler.tidOf task.fd) none
  fdTids := Function.update handler.fdTids task.fd (some handler.gid)
  gid := handler.gid + 1

/-- The writes of `del` to the maps. -/
def delTask (handler : Handler Callback) (fd : Fd) : Handler Callback where
  tidCalls := Function.update handler.tidCalls (handler.tidOf fd) none
  fdTids := Function.update handler.fdTids fd none
  gid := handler.gid

@[simp] theorem addTask_tidCalls (handler : Handler Callback) (task : Task Callback) :
    (handler.addTask task).tidCalls =
      Function.update handler.tidCalls handler.gid (some task) :=
  rfl

@[simp] theorem modTask_tidCalls (handler : Handler Callback) (task : Task Callback) :
    (handler.modTask task).tidCalls =
      Function.update (Function.update handler.tidCalls handler.gid (some task))
        (handler.tidOf task.fd) none :=
  rfl

end Handler

/-- An element of the buffer that `epoll_wait` fills. -/
structure Report where
  data : Tid
  events : LinuxMask
  deriving DecidableEq

/-- The callback that `handle` invokes for a reported event, with its argument. -/
def Handler.invoked
    {Callback : Type}
    (handler : Handler Callback)
    (report : Report) : Option (Task Callback × Mask) :=
  let ev := fromLinux report.events
  match handler.tidCalls report.data with
  | none => none
  | some task => if task.on &&& ev ≠ 0 then some (task, ev) else none

/-- A callback is invoked when its task is held under the tid of the event and asked
for one of its flags. -/
theorem Handler.invoked_eq_some
    {Callback : Type}
    {handler : Handler Callback}
    {report : Report}
    {task : Task Callback}
    {ev : Mask} :
    handler.invoked report = some (task, ev) ↔
      handler.tidCalls report.data = some task ∧
        task.on &&& fromLinux report.events ≠ 0 ∧ fromLinux report.events = ev := by
  unfold Handler.invoked
  cases handler.tidCalls report.data with
  | none => simp
  | some held =>
      constructor
      · intro invoked
        simp only [Option.ite_none_right_eq_some, Option.some.injEq, Prod.mk.injEq] at invoked
        obtain ⟨asked, rfl, same⟩ := invoked
        exact ⟨rfl, asked, same⟩
      · rintro ⟨same, asked, rfl⟩
        obtain rfl := Option.some.inj same
        exact if_pos asked

/-! ## The calls with their system call -/

/-- A handler and the interest list behind its `_fd`. -/
structure Poller (Callback : Type) where
  handler : Handler Callback
  epoll : Epoll

/-- A handler with an empty interest list. -/
def Poller.initial (Callback : Type) : Poller Callback where
  handler := .initial Callback
  epoll := { interest := fun _ => none }

namespace Poller

variable {Callback : Type}

/-- `Handler::add`.  The maps are written before `epoll_ctl` is called, also when it
fails and the call throws. -/
def add
    (poller : Poller Callback) (refused : Bool)
    (fd : Fd) (on : Mask) (fn : Callback) : Except String Unit × Poller Callback :=
  let handler := poller.handler.addTask ⟨fd, on, fn⟩
  match poller.epoll.ctl refused .add fd (toLinux on ||| epollEt) poller.handler.gid with
  | some epoll => (.ok (), { handler, epoll })
  | none => (.error "epoll_ctl add failed", { poller with handler })

/-- `Handler::mod`, which writes the maps first as well. -/
def mod
    (poller : Poller Callback) (refused : Bool)
    (fd : Fd) (on : Mask) (fn : Callback) : Except String Unit × Poller Callback :=
  let handler := poller.handler.modTask ⟨fd, on, fn⟩
  match poller.epoll.ctl refused .mod fd (toLinux on ||| epollEt) poller.handler.gid with
  | some epoll => (.ok (), { handler, epoll })
  | none => (.error "epoll_ctl mod failed", { poller with handler })

/-- `Handler::del`, which does not look at the result of `epoll_ctl`. -/
def del (poller : Poller Callback) (refused : Bool) (fd : Fd) : Poller Callback where
  handler := poller.handler.delTask fd
  epoll := (poller.epoll.ctl refused .del fd 0 0).getD poller.epoll

/-- `add` returns when the descriptor is new to epoll, and throws otherwise. -/
theorem add_eq
    (poller : Poller Callback) (refused : Bool)
    (fd : Fd) (on : Mask) (fn : Callback) :
    (refused = false ∧ poller.epoll.interest fd = none ∧
        poller.add refused fd on fn =
          (.ok (), ⟨poller.handler.addTask ⟨fd, on, fn⟩,
            ⟨Function.update poller.epoll.interest fd
              (some ⟨toLinux on ||| epollEt, poller.handler.gid, true⟩)⟩⟩)) ∨
      ((refused = true ∨ poller.epoll.interest fd ≠ none) ∧
        poller.add refused fd on fn =
          (.error "epoll_ctl add failed",
            ⟨poller.handler.addTask ⟨fd, on, fn⟩, poller.epoll⟩)) := by
  unfold add Epoll.ctl
  cases refused with
  | true => simp
  | false => cases poller.epoll.interest fd <;> simp

/-- `mod` returns when epoll has the descriptor, and throws otherwise. -/
theorem mod_eq
    (poller : Poller Callback) (refused : Bool)
    (fd : Fd) (on : Mask) (fn : Callback) :
    (refused = false ∧ poller.epoll.interest fd ≠ none ∧
        poller.mod refused fd on fn =
          (.ok (), ⟨poller.handler.modTask ⟨fd, on, fn⟩,
            ⟨Function.update poller.epoll.interest fd
              (some ⟨toLinux on ||| epollEt, poller.handler.gid, true⟩)⟩⟩)) ∨
      ((refused = true ∨ poller.epoll.interest fd = none) ∧
        poller.mod refused fd on fn =
          (.error "epoll_ctl mod failed",
            ⟨poller.handler.modTask ⟨fd, on, fn⟩, poller.epoll⟩)) := by
  unfold mod Epoll.ctl
  cases refused with
  | true => simp
  | false => cases poller.epoll.interest fd <;> simp

/-- Whatever `epoll_ctl` returned, the maps are those that `add` wrote. -/
@[simp] theorem add_handler
    (poller : Poller Callback) (refused : Bool)
    (fd : Fd) (on : Mask) (fn : Callback) :
    (poller.add refused fd on fn).2.handler = poller.handler.addTask ⟨fd, on, fn⟩ := by
  rcases poller.add_eq refused fd on fn with ⟨-, -, result⟩ | ⟨-, result⟩ <;> rw [result]

@[simp] theorem mod_handler
    (poller : Poller Callback) (refused : Bool)
    (fd : Fd) (on : Mask) (fn : Callback) :
    (poller.mod refused fd on fn).2.handler = poller.handler.modTask ⟨fd, on, fn⟩ := by
  rcases poller.mod_eq refused fd on fn with ⟨-, -, result⟩ | ⟨-, result⟩ <;> rw [result]

@[simp] theorem del_handler
    (poller : Poller Callback) (refused : Bool) (fd : Fd) :
    (poller.del refused fd).handler = poller.handler.delTask fd :=
  rfl

end Poller

end Event
end Cgo
