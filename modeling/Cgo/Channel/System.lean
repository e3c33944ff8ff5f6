import Cgo.Channel.Message
import Cgo.Lib.Path
import Mathlib.Data.List.Basic

/-!
# Channels and their interleavings

`BaseChannel::send_to` and `BaseChannel::recv_from` over the buffer and the two
queues of a channel.  A call holds the channel's lock from its start to its
return, so of one channel at most one call is under way; but the selects it
meets can be decided by other channels between two of its lock sections.  A call
is therefore cut into turns, one for each `BaseMsg` transfer it makes: what a
turn does to the queues and to the buffer nobody else can see before the next
transfer.

A step of the whole system is a message entering its channel, one turn of the
call under way on a channel, a select taking its default key, or the drop of a
message.
-/

namespace Cgo
namespace Channel

/-- `BaseChannel::TransferStatus`. -/
inductive BaseChannel.TransferStatus
  | ok
  | invalidSrc
  | invalidDst
  | invalidOneshot
  | inprocess
  deriving DecidableEq

/-- A value on its way, with the message it was taken from.  Only the value is
part of the channel; the origin is a history that no transfer reads. -/
structure Sent (α : Type) where
  origin : MsgId
  value : α
  deriving DecidableEq

/-- A value and the message it was handed to. -/
structure Given (α : Type) where
  target : MsgId
  sent : Sent α
  deriving DecidableEq

/-- Where a call stands: before the attempt on the buffer, in the loop that
refills the buffer or hands its front over, or in the loop over the partners
that wait. -/
inductive Pc
  | buffer
  | shift
  | scan
  deriving DecidableEq

/-- The call that holds a channel's lock. -/
structure Call where
  message : MsgId
  pc : Pc
  deriving DecidableEq

/-- A channel.  `senders` and `recvers` are the messages linked between the
sentinels, head first; `call` is the holder of `_mtx`.  The last four fields are
histories: the messages in the order they entered, the values in the order they
were taken from senders, and in the order they were handed over. -/
structure Chan (α : Type) where
  buffer : List (Sent α)
  senders : List MsgId
  recvers : List MsgId
  call : Option Call
  sends : List MsgId
  recvs : List MsgId
  taken : List (Sent α)
  given : List (Given α)

namespace Chan

variable {α : Type}

/-- A channel nobody has used yet. -/
def initial : Chan α where
  buffer := []
  senders := []
  recvers := []
  call := none
  sends := []
  recvs := []
  taken := []
  given := []

/-- The queue in which messages of a side wait. -/
def queue (chan : Chan α) : Side → List MsgId
  | .send => chan.senders
  | .recv => chan.recvers

/-- The channel with another queue on one side. -/
def setQueue (chan : Chan α) : Side → List MsgId → Chan α
  | .send, waiting => { chan with senders := waiting }
  | .recv, waiting => { chan with recvers := waiting }

/-- The messages of a side that have entered, oldest first. -/
def entered (chan : Chan α) : Side → List MsgId
  | .send => chan.sends
  | .recv => chan.recvs

/-- The buffer cannot serve a message of this side. -/
def Closed (chan : Chan α) (capacity : Nat) : Side → Prop
  | .send => chan.buffer.length = capacity
  | .recv => chan.buffer = []

/-- The channel after a message was linked at the end of its queue. -/
def link (chan : Chan α) (side : Side) (message : MsgId) : Chan α :=
  chan.setQueue side (chan.queue side ++ [message])

/-- The channel after `unlink_this` of a message. -/
def unlinkThis (chan : Chan α) (message : MsgId) : Chan α :=
  { chan with
    senders := chan.senders.erase message
    recvers := chan.recvers.erase message }

/-- The channel after a value was taken from a sender into the buffer. -/
def push (chan : Chan α) (sent : Sent α) : Chan α :=
  { chan with buffer := chan.buffer ++ [sent], taken := chan.taken ++ [sent] }

/-- The channel after its front was handed to a receiver, `rest` staying in the
buffer. -/
def pop (chan : Chan α) (target : MsgId) (front : Sent α) (rest : List (Sent α)) :
    Chan α :=
  { chan with buffer := rest, given := chan.given ++ [⟨target, front⟩] }

/-- The channel after a value went from a sender to a receiver directly. -/
def passOn (chan : Chan α) (target : MsgId) (sent : Sent α) : Chan α :=
  { chan with taken := chan.taken ++ [sent], given := chan.given ++ [⟨target, sent⟩] }

/-- The channel after the lock was taken for a message. -/
def enter (chan : Chan α) (side : Side) (message : MsgId) : Chan α :=
  match side with
  | .send => { chan with
      call := some ⟨message, .buffer⟩, sends := chan.sends ++ [message] }
  | .recv => { chan with
      call := some ⟨message, .buffer⟩, recvs := chan.recvs ++ [message] }

@[simp] theorem queue_initial (side : Side) : (initial : Chan α).queue side = [] := by
  cases side <;> rfl

@[simp] theorem entered_initial (side : Side) :
    (initial : Chan α).entered side = [] := by
  cases side <;> rfl

@[simp] theorem queue_setQueue_self (chan : Chan α) (side : Side) (waiting : List MsgId) :
    (chan.setQueue side waiting).queue side = waiting := by
  cases side <;> rfl

theorem queue_setQueue_of_ne (chan : Chan α) {side other : Side}
    (different : other ≠ side) (waiting : List MsgId) :
    (chan.setQueue side waiting).queue other = chan.queue other := by
  cases side <;> cases other <;> first | rfl | exact absurd rfl different

@[simp] theorem queue_push (chan : Chan α) (sent : Sent α) (side : Side) :
    (chan.push sent).queue side = chan.queue side := by
  cases side <;> rfl

@[simp] theorem queue_pop (chan : Chan α) (target : MsgId) (front : Sent α)
    (rest : List (Sent α)) (side : Side) :
    (chan.pop target front rest).queue side = chan.queue side := by
  cases side <;> rfl

@[simp] theorem queue_passOn (chan : Chan α) (target : MsgId) (sent : Sent α)
    (side : Side) :
    (chan.passOn target sent).queue side = chan.queue side := by
  cases side <;> rfl

@[simp] theorem queue_enter (chan : Chan α) (side other : Side) (message : MsgId) :
    (chan.enter side message).queue other = chan.queue other := by
  cases side <;> cases other <;> rfl

@[simp] theorem entered_enter_self (chan : Chan α) (side : Side) (message : MsgId) :
    (chan.enter side message).entered side = chan.entered side ++ [message] := by
  cases side <;> rfl

theorem entered_enter_of_ne (chan : Chan α) {side other : Side}
    (different : other ≠ side) (message : MsgId) :
    (chan.enter side message).entered other = chan.entered other := by
  cases side <;> cases other <;> first | rfl | exact absurd rfl different

@[simp] theorem call_enter (chan : Chan α) (side : Side) (message : MsgId) :
    (chan.enter side message).call = some ⟨message, .buffer⟩ := by
  cases side <;> rfl

@[simp] theorem queue_unlinkThis (chan : Chan α) (message : MsgId) (side : Side) :
    (chan.unlinkThis message).queue side = (chan.queue side).erase message := by
  cases side <;> rfl

@[simp] theorem entered_unlinkThis (chan : Chan α) (message : MsgId) (side : Side) :
    (chan.unlinkThis message).entered side = chan.entered side := by
  cases side <;> rfl

end Chan

/-- How a turn of a call ends: the call goes on, returns, or throws. -/
inductive Next
  | goto (pc : Pc)
  | returned (status : BaseChannel.TransferStatus)
  | threw (error : String)
  deriving DecidableEq

namespace BaseChannel

variable {α : Type} [Inhabited α]
variable (program : Program α) (capacity : Nat)

/-- `TypeChannel::_buffer_send_to`. -/
def bufferSendTo (world : World α) (chan : Chan α) (dst : MsgId) :
    Bool × World α × Chan α :=
  match chan.buffer with
  | [] => (false, world, chan)
  | front :: rest =>
      match BaseMsg.recvFromPtr program world dst (.slot front.value) with
      | (.ok, moved) =>
          (true, moved, chan.pop dst front rest)
      | (_, moved) => (false, moved, chan)

/-- `TypeChannel::_buffer_recv_from`. -/
def bufferRecvFrom (world : World α) (chan : Chan α) (src : MsgId) :
    Bool × World α × Chan α :=
  if chan.buffer.length = capacity then (false, world, chan)
  else
    let sent : Sent α := ⟨src, world.load (program.data src)⟩
    match BaseMsg.sendToPtr program world src (.slot default) with
    | (.ok, moved) =>
        (true, moved, chan.push sent)
    | (_, moved) => (false, moved, chan)

/-- One turn of `BaseChannel::send_to(dst)`: a receive. -/
def sendTo (world : World α) (chan : Chan α) (dst : MsgId) :
    Pc → World α × Chan α × Next
  | .buffer =>
      match bufferSendTo program world chan dst with
      | (true, moved, popped) => (moved, popped, .goto .shift)
      | (false, moved, kept) => (moved, kept, .goto .scan)
  | .shift =>
      match chan.senders with
      | [] => (world, chan, .returned .ok)
      | sender :: senders =>
          match bufferRecvFrom program capacity world { chan with senders } sender with
          | (true, moved, pushed) => (moved, pushed, .returned .ok)
          | (false, moved, kept) => (moved, kept, .goto .shift)
  | .scan =>
      match chan.senders with
      | [] =>
          if (program.msg dst).oneshot then (world, chan, .returned .invalidOneshot)
          else (world, { chan with recvers := chan.recvers ++ [dst] }, .returned .inprocess)
      | sender :: senders =>
          let sent : Sent α := ⟨sender, world.load (program.data sender)⟩
          match BaseMsg.sendTo program world sender dst with
          | .error error => (world, chan, .threw error)
          | .ok (.ok, moved) =>
              (moved, { chan with senders }.passOn dst sent, .returned .ok)
          | .ok (.invalidSrc, moved) => (moved, { chan with senders }, .goto .scan)
          | .ok (.invalidDst, moved) => (moved, chan, .returned .invalidDst)

/-- One turn of `BaseChannel::recv_from(src)`: a send. -/
def recvFrom (world : World α) (chan : Chan α) (src : MsgId) :
    Pc → World α × Chan α × Next
  | .buffer =>
      match bufferRecvFrom program capacity world chan src with
      | (true, moved, pushed) => (moved, pushed, .goto .shift)
      | (false, moved, kept) => (moved, kept, .goto .scan)
  | .shift =>
      match chan.recvers with
      | [] => (world, chan, .returned .ok)
      | recver :: recvers =>
          match bufferSendTo program world { chan with recvers } recver with
          | (true, moved, popped) => (moved, popped, .returned .ok)
          | (false, moved, kept) => (moved, kept, .goto .shift)
  | .scan =>
      match chan.recvers with
      | [] =>
          if (program.msg src).oneshot then (world, chan, .returned .invalidOneshot)
          else (world, { chan with senders := chan.senders ++ [src] }, .returned .inprocess)
      | recver :: recvers =>
          let sent : Sent α := ⟨src, world.load (program.data src)⟩
          match BaseMsg.recvFrom program world recver src with
          | .error error => (world, chan, .threw error)
          | .ok (.ok, moved) =>
              (moved, { chan with recvers }.passOn recver sent, .returned .ok)
          | .ok (.invalidDst, moved) => (moved, { chan with recvers }, .goto .scan)
          | .ok (.invalidSrc, moved) => (moved, chan, .returned .invalidSrc)

/-- One turn of the call that a message entered. -/
def turn (world : World α) (chan : Chan α) (call : Call) :
    World α × Chan α × Next :=
  match (program.msg call.message).side with
  | .send => recvFrom program capacity world chan call.message call.pc
  | .recv => sendTo program capacity world chan call.message call.pc

end BaseChannel

/-- What became of a message: not entered, its call holds the channel's lock,
or its call has ended. -/
inductive Phase
  | fresh
  | inCall
  | returned (status : BaseChannel.TransferStatus)
  | threw (error : String)
  deriving DecidableEq

/-- The call of the message has ended. -/
def Phase.Ended : Phase → Prop
  | .returned _ => True
  | .threw _ => True
  | _ => False

instance (phase : Phase) : Decidable phase.Ended := by
  cases phase <;> unfold Phase.Ended <;> infer_instance

/-- The state of all channels, selects and messages. -/
structure System (α : Type) where
  world : World α
  chan : ChanId → Chan α
  phase : MsgId → Phase
  dropped : MsgId → Bool

/-- The state before the run. -/
def System.initial {α : Type} (program : Program α) : System α where
  world := .initial program
  chan := fun _ => .initial
  phase := fun _ => .fresh
  dropped := fun _ => false

/-- The steps of the system. -/
inductive Label
  /-- `send_to` or `recv_from` takes the lock of the message's channel. -/
  | enter (message : MsgId)
  /-- The call that holds the channel's lock makes its next turn. -/
  | turn (chan : ChanId)
  /-- A select that has not fired takes this key without a transfer, as its
  default branch does. -/
  | fire (select : SelectId) (key : CaseKey)
  /-- `BaseMsg::drop`. -/
  | drop (message : MsgId)
  deriving DecidableEq

/-- The phase of a message after a turn of its call. -/
def Next.phase : Next → Phase
  | .goto _ => .inCall
  | .returned status => .returned status
  | .threw error => .threw error

/-- The channel after a turn: a call that goes on keeps the lock, one that
returned or threw has released it. -/
def Chan.resume {α : Type} (chan : Chan α) (message : MsgId) : Next → Chan α
  | .goto pc => { chan with call := some ⟨message, pc⟩ }
  | .returned _ => { chan with call := none }
  | .threw _ => { chan with call := none }

@[simp] theorem Chan.queue_resume {α : Type} (chan : Chan α) (message : MsgId)
    (next : Next) (side : Side) :
    (chan.resume message next).queue side = chan.queue side := by
  cases next <;> cases side <;> rfl

@[simp] theorem Chan.entered_resume {α : Type} (chan : Chan α) (message : MsgId)
    (next : Next) (side : Side) :
    (chan.resume message next).entered side = chan.entered side := by
  cases next <;> cases side <;> rfl

@[simp] theorem Chan.buffer_resume {α : Type} (chan : Chan α) (message : MsgId)
    (next : Next) : (chan.resume message next).buffer = chan.buffer := by
  cases next <;> rfl

@[simp] theorem Chan.taken_resume {α : Type} (chan : Chan α) (message : MsgId)
    (next : Next) : (chan.resume message next).taken = chan.taken := by
  cases next <;> rfl

@[simp] theorem Chan.given_resume {α : Type} (chan : Chan α) (message : MsgId)
    (next : Next) : (chan.resume message next).given = chan.given := by
  cases next <;> rfl

/-- After a turn the lock is either released or held for the same message. -/
theorem Chan.call_resume {α : Type} {chan : Chan α} {message : MsgId} {next : Next}
    {call : Call}
    (holds : (chan.resume message next).call = some call) :
    call.message = message ∧ next = .goto call.pc := by
  cases next with
  | goto pc =>
      obtain rfl : (⟨message, pc⟩ : Call) = call := by simpa [resume] using holds
      exact ⟨rfl, rfl⟩
  | returned status => simp [resume] at holds
  | threw error => simp [resume] at holds

namespace System

variable {α : Type} [Inhabited α]
variable (program : Program α)

/-- The state after a turn. -/
def settle (system : System α) (id : ChanId) (message : MsgId)
    (outcome : World α × Chan α × Next) : System α :=
  { system with
    world := outcome.1
    chan := Function.update system.chan id (outcome.2.1.resume message outcome.2.2)
    phase := Function.update system.phase message outcome.2.2.phase }

/-- The next state, or `none` when the step is not enabled: a lock is held, a
select has fired, or a message is at another point of its life. -/
def step (system : System α) : Label → Option (System α)
  | .enter message =>
      let target := (program.msg message).chan
      if system.phase message = .fresh ∧ (system.chan target).call = none then
        some { system with
          chan := Function.update system.chan target
            ((system.chan target).enter (program.msg message).side message)
          phase := Function.update system.phase message .inCall }
      else none
  | .turn id =>
      match (system.chan id).call with
      | none => none
      | some call =>
          some (system.settle id call.message
            (BaseChannel.turn program (program.capacity id) system.world
              (system.chan id) call))
  | .fire select key =>
      if system.world.key select = none then
        some { system with
          world := { system.world with
            key := Function.update system.world.key select (some key) } }
      else none
  | .drop message =>
      let target := (program.msg message).chan
      if (system.phase message).Ended ∧ (system.chan target).call = none then
        some { system with
          chan := Function.update system.chan target
            ((system.chan target).unlinkThis message)
          dropped := Function.update system.dropped message true }
      else none

/-! ## When a step is enabled, and what it does -/

section Steps

variable {program} {system after : System α}

theorem step_enter
    {message : MsgId}
    (stepped : step program system (.enter message) = some after) :
    system.phase message = .fresh ∧
      (system.chan (program.msg message).chan).call = none ∧
      after = { system with
        chan := Function.update system.chan (program.msg message).chan
          ((system.chan (program.msg message).chan).enter
            (program.msg message).side message)
        phase := Function.update system.phase message .inCall } := by
  simp only [step] at stepped
  split at stepped
  · rename_i enabled
    exact ⟨enabled.1, enabled.2, (Option.some.inj stepped).symm⟩
  · simp at stepped

theorem step_turn
    {id : ChanId}
    (stepped : step program system (.turn id) = some after) :
    ∃ call, (system.chan id).call = some call ∧
      after = system.settle id call.message
        (BaseChannel.turn program (program.capacity id) system.world
          (system.chan id) call) := by
  simp only [step] at stepped
  split at stepped
  · simp at stepped
  · rename_i call held
    exact ⟨call, held, (Option.some.inj stepped).symm⟩

theorem step_fire
    {select : SelectId}
    {key : CaseKey}
    (stepped : step program system (.fire select key) = some after) :
    system.world.key select = none ∧
      after = { system with
        world := { system.world with
          key := Function.update system.world.key select (some key) } } := by
  simp only [step] at stepped
  split at stepped
  · rename_i enabled
    exact ⟨enabled, (Option.some.inj stepped).symm⟩
  · simp at stepped

theorem step_drop
    {message : MsgId}
    (stepped : step program system (.drop message) = some after) :
    (system.phase message).Ended ∧
      (system.chan (program.msg message).chan).call = none ∧
      after = { system with
        chan := Function.update system.chan (program.msg message).chan
          ((system.chan (program.msg message).chan).unlinkThis message)
        dropped := Function.update system.dropped message true } := by
  simp only [step] at stepped
  split at stepped
  · rename_i enabled
    exact ⟨enabled.1, enabled.2, (Option.some.inj stepped).symm⟩
  · simp at stepped

end Steps

/-- The states that the system can reach. -/
abbrev Reached (system : System α) : Prop :=
  Lib.Reachable (step program) (initial program) system

/-- The state after the steps, taken from the initial state. -/
def after (labels : List Label) : System α :=
  Lib.runFrom (step program) (initial program) labels

theorem reached_after (labels : List Label) : Reached program (after program labels) :=
  Lib.Reachable.runFrom _ _ labels

end System

/-- A program to run the system on.  Channels 0 and 1 have no buffer and channel
2 has one cell.  Messages 0 and 1 send and receive on channel 0, messages 2 and
3 are receives of select 0 on channels 0 and 1, and message 4 sends on channel 1.
Of the others, the odd ones are nowait sends and the even ones receives on
channel 2. -/
def Program.sample : Program Nat where
  capacity id := if id = 2 then 1 else 0
  msg
    | 0 => ⟨.simplex (some 0) true, 0, .send, false⟩
    | 1 => ⟨.simplex (some 1) true, 0, .recv, false⟩
    | 2 => ⟨.multiplex (some 2) 0 ⟨10, by decide⟩, 0, .recv, false⟩
    | 3 => ⟨.multiplex (some 3) 0 ⟨11, by decide⟩, 1, .recv, false⟩
    | 4 => ⟨.simplex (some 4) true, 1, .send, false⟩
    | other => ⟨.simplex (some other) (other % 2 == 0), 2,
        if other % 2 = 0 then .recv else .send, other % 2 == 1⟩
  mem var := var + 100
  sends_data message _ := by
    rcases message with _ | _ | _ | _ | _ | other <;> simp [Variant.data]

theorem Program.sample_distinctVars : Program.sample.DistinctVars := by
  have own : ∀ message, Program.sample.data message = some message := by
    intro message
    rcases message with _ | _ | _ | _ | _ | other <;> rfl
  intro left right var isLeft isRight
  rw [own] at isLeft isRight
  exact (Option.some.inj isLeft).trans (Option.some.inj isRight).symm

end Channel
end Cgo
