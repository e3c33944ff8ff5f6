import Cgo.Lib.Locking
import Mathlib.Data.Prod.Lex

/-!
# The locks of the operations

The operations on channels, selects, semaphores, conditions and schedulers as
programs that take and release the spinlocks of the source.  Which branch is taken
depends on shared memory; a program reads the cells that the source reads, and a
read may give anything.
-/

namespace Cgo
namespace Locking

/-- A semaphore: one of its own, or `_signal` of a select. -/
inductive SemId
  | plain (address : Nat)
  | ofSelect (select : Nat)
  deriving DecidableEq

/-- The spinlocks.  A condition is that of a semaphore. -/
inductive Lock
  | channel (address : Nat)
  | select (address : Nat)
  | semaphore (sem : SemId)
  | condition (sem : SemId)
  | scheduler (address : Nat)
  | signal (address : Nat)
  deriving DecidableEq

/-- Channels come first, then selects by address, semaphores, conditions, schedulers
and signals. -/
def Lock.rank : Lock → Nat ×ₗ Nat
  | .channel _ => toLex (1, 0)
  | .select address => toLex (2, address)
  | .semaphore _ => toLex (3, 0)
  | .condition _ => toLex (4, 0)
  | .scheduler _ => toLex (5, 0)
  | .signal _ => toLex (6, 0)

/-- `BaseMsg`: `Simplex` with its signal, or `Multiplex` with its select. -/
inductive Msg
  | simplex (signal : Option SemId)
  | multiplex (select : Nat)
  deriving DecidableEq

/-- What the operations read. -/
inductive Cell
  /-- `_key` of a select differs from `InvalidSelectKey`. -/
  | chosen (select : Nat)
  /-- `_vacant` -/
  | vacant (sem : SemId)
  /-- the scheduler of the first task in the blocked list -/
  | blocked (sem : SemId)
  /-- `_scheduled_ctx` is null or the context of the task that is removed. -/
  | scheduledHere (sem : SemId)
  /-- `_signal` of a scheduler -/
  | attached (scheduler : Nat)
  /-- The runnable queue of a scheduler is not empty. -/
  | runnable (scheduler : Nat)
  | waited (signal : Nat)
  | emitted (signal : Nat)
  | bufferEmpty (chan : Nat)
  | bufferFull (chan : Nat)
  /-- the sender queue of a channel, first message first -/
  | senders (chan : Nat)
  | recvers (chan : Nat)

/-- What a cell holds. -/
def Cell.Content : Cell → Type
  | .chosen _ => Bool
  | .vacant _ => UInt64
  | .blocked _ => Option Nat
  | .scheduledHere _ => Bool
  | .attached _ => Option Nat
  | .runnable _ => Bool
  | .waited _ => Bool
  | .emitted _ => Bool
  | .bufferEmpty _ => Bool
  | .bufferFull _ => Bool
  | .senders _ => List Msg
  | .recvers _ => List Msg

/-- The programs of the threads. -/
abbrev Act (Result : Type) := Lib.Prog Lock Cell Cell.Content Result

open Lib.Prog (guarded)

/-- A cell is read. -/
def load (cell : Cell) : Act cell.Content :=
  Lib.Prog.get cell

/-! ## Schedulers, conditions and semaphores -/

/-- `BaseLazySignal::emit` -/
def emit (signal : Nat) : Act Unit := do
  let waited : Bool ← load (.waited signal)
  let emitted : Bool ← load (.emitted signal)
  if waited && !emitted then
    guarded (.signal signal) do
      let _ ← load (.waited signal)
      let _ ← load (.emitted signal)
      pure ()
  else pure ()

/-- `Scheduler::push` -/
def push (scheduler : Nat) : Act Unit :=
  guarded (.scheduler scheduler) do
    let attached : Option Nat ← load (.attached scheduler)
    match attached with
    | some signal => emit signal
    | none => pure ()

/-- `Scheduler::pop` -/
def pop (scheduler : Nat) : Act Bool :=
  guarded (.scheduler scheduler) (load (.runnable scheduler))

/-- `_schedule_from_this` -/
def scheduleFromThis (sem : SemId) : Act Unit := do
  let blocked : Option Nat ← load (.blocked sem)
  match blocked with
  | none => pure ()
  | some scheduler => push scheduler

/-- `Condition::notify` -/
def notify (sem : SemId) : Act Unit :=
  guarded (.condition sem) (scheduleFromThis sem)

/-- `Condition::_remove` -/
def remove (sem : SemId) : Act Unit :=
  guarded (.condition sem) do
    let scheduledHere : Bool ← load (.scheduledHere sem)
    if scheduledHere then scheduleFromThis sem else pure ()

/-- `Condition::_suspend_to_this`, which releases the locks of a suspended task. -/
def suspendToThis (sem : SemId) : Act Unit :=
  .unlock (.condition sem) (.unlock (.semaphore sem) (.done ()))

/-- The loop of `Semaphore::aquire`, entered with the semaphore's lock: true when it
has a unit, and false when the task is suspended.  `Condition::wait` takes the lock
of the condition, and the worker releases both. -/
def aquireLoop (sem : SemId) : Act Bool := do
  let vacant : UInt64 ← load (.vacant sem)
  if 0 < vacant then
    .unlock (.semaphore sem) (.done true)
  else
    .lock (.condition sem) (do
      suspendToThis sem
      pure false)

/-- `Semaphore::aquire`.  A task that comes back from `Condition::wait` takes the lock
again and goes on with the loop, which is the same. -/
def aquire (sem : SemId) : Act Bool :=
  .lock (.semaphore sem) (aquireLoop sem)

/-- `Semaphore::release` -/
def release (sem : SemId) : Act Unit :=
  guarded (.semaphore sem) (notify sem)

/-! ## Messages -/

/-- `BaseMsg::TransferStatus` -/
inductive MsgStatus
  | ok
  | invalidSrc
  | invalidDst
  deriving DecidableEq

/-- `Simplex::commit` and `Multiplex::commit` -/
def Msg.commit : Msg → Act Unit
  | .simplex none => pure ()
  | .simplex (some signal) => release signal
  | .multiplex select => release (.ofSelect select)

/-- `BaseMsg::recv_from(void*)` -/
def Msg.recvFromPtr : Msg → Act MsgStatus
  | .multiplex select =>
      guarded (.select select) do
        let chosen : Bool ← load (.chosen select)
        if chosen then pure .invalidSrc
        else do
          (Msg.multiplex select).commit
          pure .ok
  | .simplex signal => do
      (Msg.simplex signal).commit
      pure .ok

/-- `BaseMsg::send_to(void*)` -/
def Msg.sendToPtr : Msg → Act MsgStatus
  | .multiplex select =>
      guarded (.select select) do
        let chosen : Bool ← load (.chosen select)
        if chosen then pure .invalidSrc
        else do
          (Msg.multiplex select).commit
          pure .ok
  | .simplex signal => do
      (Msg.simplex signal).commit
      pure .ok

/-- A message is committed after its partner's transfer was ok. -/
def Msg.commitOn (msg : Msg) (status : MsgStatus) : Act Unit :=
  if status = .ok then msg.commit else pure ()

/-- `BaseMsg::send_to(BaseMsg*)`; `none` is the exception that is thrown when both
messages are of one select. -/
def Msg.sendTo (src dst : Msg) : Act (Option MsgStatus) :=
  match src, dst with
  | .multiplex srcSelect, .multiplex dstSelect =>
      if srcSelect = dstSelect then pure none
      else
        let first := if srcSelect > dstSelect then dstSelect else srcSelect
        let second := if srcSelect > dstSelect then srcSelect else dstSelect
        guarded (.select first) (guarded (.select second) do
          let srcChosen : Bool ← load (.chosen srcSelect)
          if srcChosen then pure (some .invalidSrc)
          else do
            let dstChosen : Bool ← load (.chosen dstSelect)
            if dstChosen then pure (some .invalidDst)
            else do
              src.commit
              dst.commit
              pure (some .ok))
  | .multiplex _, .simplex _ => do
      let status ← src.sendToPtr
      dst.commitOn status
      pure (some status)
  | .simplex _, .multiplex _ => do
      let status ← dst.recvFromPtr
      src.commitOn status
      pure (some status)
  | .simplex _, .simplex _ => do
      let status ← dst.recvFromPtr
      src.commitOn status
      pure (some status)

/-- `BaseMsg::drop` -/
def drop (chan : Nat) : Act Unit :=
  guarded (.channel chan) (pure ())

/-! ## Channels -/

/-- `BaseChannel::TransferStatus` -/
inductive ChanStatus
  | ok
  | invalidSrc
  | invalidDst
  | invalidOneshot
  | inprocess
  deriving DecidableEq

/-- `_buffer_send_to` -/
def bufferSendTo (chan : Nat) (dst : Msg) : Act Bool := do
  let bufferEmpty : Bool ← load (.bufferEmpty chan)
  if bufferEmpty then pure false
  else do
    let status ← dst.recvFromPtr
    pure (status = .ok)

/-- `_buffer_recv_from` -/
def bufferRecvFrom (chan : Nat) (src : Msg) : Act Bool := do
  let bufferFull : Bool ← load (.bufferFull chan)
  if bufferFull then pure false
  else do
    let status ← src.sendToPtr
    pure (status = .ok)

/-- The loop that pops messages until one is served from the buffer. -/
def serve (transfer : Msg → Act Bool) : List Msg → Act Unit
  | [] => pure ()
  | msg :: rest => do
      let served ← transfer msg
      if served then pure () else serve transfer rest

/-- The loop that offers a message to a queue; `popped` is the status on which the
message at the front is popped and the next one tried, and `failed` that of the
message that is offered. -/
def offer (transfer : Msg → Act (Option MsgStatus)) (popped : MsgStatus) (failed : ChanStatus)
    (exhausted : ChanStatus) : List Msg → Act (Option ChanStatus)
  | [] => pure (some exhausted)
  | msg :: rest => do
      let status ← transfer msg
      match status with
      | none => pure none
      | some status =>
          if status = .ok then pure (some .ok)
          else if status = popped then offer transfer popped failed exhausted rest
          else pure (some failed)

/-- The status of a message that found no partner. -/
def unmatched (oneshot : Bool) : ChanStatus :=
  if oneshot then .invalidOneshot else .inprocess

/-- `BaseChannel::send_to` -/
def sendTo (chan : Nat) (dst : Msg) (oneshot : Bool) : Act (Option ChanStatus) :=
  guarded (.channel chan) do
    let fetched ← bufferSendTo chan dst
    let senders : List Msg ← load (.senders chan)
    if fetched then do
      serve (bufferRecvFrom chan) senders
      pure (some .ok)
    else offer (fun sender => sender.sendTo dst) .invalidSrc .invalidDst (unmatched oneshot) senders

/-- `BaseChannel::recv_from` -/
def recvFrom (chan : Nat) (src : Msg) (oneshot : Bool) : Act (Option ChanStatus) :=
  guarded (.channel chan) do
    let stored ← bufferRecvFrom chan src
    let recvers : List Msg ← load (.recvers chan)
    if stored then do
      serve (bufferSendTo chan) recvers
      pure (some .ok)
    else offer (fun recver => src.sendTo recver) .invalidDst .invalidSrc (unmatched oneshot) recvers

/-! ## Selects -/

/-- A case of a select: its channel, and whether it is `<<`. -/
structure Listener where
  chan : Nat
  sends : Bool

/-- A call of a listener. -/
def Listener.call (select : Nat) (listener : Listener) : Act (Option ChanStatus) :=
  if listener.sends then recvFrom listener.chan (.multiplex select) false
  else sendTo listener.chan (.multiplex select) false

/-- The loop of `Select::operator()` over its listeners, in whatever order they were
shuffled: the channels of the messages it has made, or `none` when a listener
throws. -/
def poll (select : Nat) : List Listener → Act (Option (List Nat))
  | [] => pure (some [])
  | listener :: rest => do
      let status ← listener.call select
      match status with
      | none => pure none
      | some _ =>
          let chosen : Bool ← guarded (.select select) (load (.chosen select))
          if chosen then pure (some [listener.chan])
          else do
            let chans ← poll select rest
            pure (chans.map (listener.chan :: ·))

/-- `Select::_drop` -/
def dropAll : List Nat → Act Unit
  | [] => pure ()
  | chan :: rest => do
      drop chan
      dropAll rest

/-- The end of `Select::operator()`: `_key` is read, and the messages are dropped. -/
def choose (select : Nat) (chans : List Nat) : Act Unit := do
  let _ ← guarded (.select select) (load (.chosen select))
  dropAll chans

/-- `Select::operator()`, up to its end or its suspension. -/
def selectCall (select : Nat) (listeners : List Listener) (default : Bool) : Act Unit := do
  let polled ← poll select listeners
  match polled with
  | none => pure ()
  | some chans =>
      if default then choose select chans
      else do
        let aquired ← aquire (.ofSelect select)
        if aquired then choose select chans else pure ()

/-! ## What threads do -/

/-- The operations.  One that is suspended ends there, and goes on as another. -/
inductive Operation
  /-- `Channel::operator<<`, with the semaphore in its frame -/
  | send (chan signal : Nat)
  /-- `Channel::operator>>` -/
  | recv (chan signal : Nat)
  /-- A plain operation comes back from `Condition::wait`. -/
  | resumePlain (chan signal : Nat)
  /-- `Nowait::operator<<` -/
  | nowait (chan : Nat)
  | select (select : Nat) (listeners : List Listener) (default : Bool)
  /-- `Select::operator()` comes back from `Condition::wait`. -/
  | resumeSelect (select : Nat) (chans : List Nat)
  /-- `~Select` -/
  | dropSelect (chans : List Nat)
  /-- The frame of a plain operation is destroyed. -/
  | drop (chan : Nat)
  /-- `Semaphore::aquire`, called or back from `Condition::wait` -/
  | aquire (sem : SemId)
  | release (sem : SemId)
  /-- `Condition::_remove` -/
  | remove (sem : SemId)
  /-- `Scheduler::push`, of a task that is spawned or has yielded -/
  | push (scheduler : Nat)
  | pop (scheduler : Nat)

/-- A plain operation waits for its signal and drops its message. -/
def awaitSignal (chan signal : Nat) : Act Unit := do
  let aquired ← aquire (.plain signal)
  if aquired then drop chan else pure ()

/-- A plain operation; its message is dropped, too, when an exception leaves it. -/
def plain (transfer : Msg → Act (Option ChanStatus)) (chan signal : Nat) : Act Unit := do
  let status ← transfer (.simplex (some (.plain signal)))
  match status with
  | none => drop chan
  | some _ => awaitSignal chan signal

/-- The program of an operation. -/
def Operation.run : Operation → Act Unit
  | .send chan signal => plain (fun msg => recvFrom chan msg false) chan signal
  | .recv chan signal => plain (fun msg => sendTo chan msg false) chan signal
  | .resumePlain chan signal => awaitSignal chan signal
  | .nowait chan => do
      let _ ← recvFrom chan (.simplex none) true
      pure ()
  | .select self listeners default => selectCall self listeners default
  | .resumeSelect self chans => do
      let aquired ← Locking.aquire (.ofSelect self)
      if aquired then choose self chans else pure ()
  | .dropSelect chans => dropAll chans
  | .drop chan => Locking.drop chan
  | .aquire sem => do
      let _ ← Locking.aquire sem
      pure ()
  | .release sem => Locking.release sem
  | .remove sem => Locking.remove sem
  | .push scheduler => Locking.push scheduler
  | .pop scheduler => do
      let _ ← Locking.pop scheduler
      pure ()

/-- The states that threads can reach. -/
abbrev Reached (threads : Lib.Threads Nat Lock Cell Cell.Content) : Prop :=
  Lib.Reachable (Lib.Threads.step Operation.run) Lib.Threads.idle threads

end Locking
end Cgo
