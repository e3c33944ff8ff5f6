import Cgo.Channel.System

/-!
# What a turn of a channel call can do

`send_to` and `recv_from` mirror each other, so their turns are inverted once,
for both sides: `Turn` lists everything a turn can do together with the guards
under which it does it.  Every invariant of the channels is derived from this
list and from the three other steps of the system, and none unfolds the
functions again.
-/

namespace Cgo
namespace Channel

variable {α : Type}

namespace World

/-- The world after the channel took the value of a sender into its buffer. -/
def take [Inhabited α] (world : World α) (program : Program α) (message : MsgId) :
    World α :=
  (world.move (.ofData (program.data message)) (.slot default)).commit program message

/-- The world after the channel handed the front of its buffer to a receiver. -/
def hand (world : World α) (program : Program α) (message : MsgId) (value : α) :
    World α :=
  (world.move (.slot value) (.ofData (program.data message))).commit program message

variable (world : World α) (program : Program α)

@[simp] theorem take_commits [Inhabited α] (message : MsgId) :
    (world.take program message).commits =
      Function.update world.commits message (world.commits message + 1) := by
  simp [take]

@[simp] theorem hand_commits (message : MsgId) (value : α) :
    (world.hand program message value).commits =
      Function.update world.commits message (world.commits message + 1) := by
  simp [hand]

theorem exchange_commits
    {src dst : MsgId}
    (different : src ≠ dst) :
    (world.exchange program src dst).commits =
      Function.update (Function.update world.commits src (world.commits src + 1))
        dst (world.commits dst + 1) := by
  simp [exchange, Function.update_of_ne (Ne.symm different)]

theorem exchange_commits_src (src dst : MsgId) :
    (world.exchange program src dst).commits src ≠ 0 := by
  by_cases same : src = dst
  · subst same
    simp [exchange]
  · simp [exchange_commits world program same, same]

theorem exchange_commits_dst (src dst : MsgId) :
    (world.exchange program src dst).commits dst ≠ 0 := by
  simp [exchange]

end World

/-- The sender of a pair of partners, given the side of the first. -/
def Side.src : Side → MsgId → MsgId → MsgId
  | .send, caller, _ => caller
  | .recv, _, partner => partner

/-- The receiver of a pair of partners, given the side of the first. -/
def Side.dst : Side → MsgId → MsgId → MsgId
  | .send, _, partner => partner
  | .recv, caller, _ => caller

/-- The status with which a call gives up because its own select has fired. -/
def Side.refused : Side → BaseChannel.TransferStatus
  | .send => .invalidSrc
  | .recv => .invalidDst

section

variable [Inhabited α]

/-- The value that the sender of a pair holds, tagged with its origin. -/
def World.offer (world : World α) (program : Program α) (src : MsgId) : Sent α :=
  ⟨src, world.load (program.data src)⟩

/-- The turns of a call for `message`, which is on side `side`. -/
inductive Turn
    (program : Program α) (capacity : Nat) (side : Side)
    (world : World α) (chan : Chan α) (message : MsgId) :
    Pc → World α × Chan α × Next → Prop
  /-- The buffer does not serve the message: the call looks for a partner. -/
  | pass
      (closed : chan.Closed capacity side ∨ world.accepts program message = false) :
      Turn program capacity side world chan message .buffer (world, chan, .goto .scan)
  /-- The message's value goes into the buffer. -/
  | store
      (sending : side = .send)
      (room : chan.buffer.length ≠ capacity)
      (accepted : world.accepts program message = true) :
      Turn program capacity side world chan message .buffer
        (world.take program message, chan.push (world.offer program message),
          .goto .shift)
  /-- The message gets the front of the buffer. -/
  | fetch {front : Sent α} {rest : List (Sent α)}
      (receiving : side = .recv)
      (found : chan.buffer = front :: rest)
      (accepted : world.accepts program message = true) :
      Turn program capacity side world chan message .buffer
        (world.hand program message front.value, chan.pop message front rest,
          .goto .shift)
  /-- Nobody is left to refill the buffer or to take from it. -/
  | served
      (alone : chan.queue side.other = []) :
      Turn program capacity side world chan message .shift (world, chan, .returned .ok)
  /-- After a receive, the first sender that accepts refills the buffer. -/
  | refill {sender : MsgId} {rest : List MsgId}
      (receiving : side = .recv)
      (waiting : chan.senders = sender :: rest)
      (room : chan.buffer.length ≠ capacity)
      (accepted : world.accepts program sender = true) :
      Turn program capacity side world chan message .shift
        (world.take program sender,
          { chan with senders := rest }.push (world.offer program sender),
          .returned .ok)
  /-- After a send, the first receiver that accepts gets the buffer's front. -/
  | handOver {recver : MsgId} {rest : List MsgId} {front : Sent α}
      {behind : List (Sent α)}
      (sending : side = .send)
      (waiting : chan.recvers = recver :: rest)
      (found : chan.buffer = front :: behind)
      (accepted : world.accepts program recver = true) :
      Turn program capacity side world chan message .shift
        (world.hand program recver front.value,
          { chan with recvers := rest }.pop recver front behind,
          .returned .ok)
  /-- The first partner is unlinked and not served. -/
  | discard {partner : MsgId} {rest : List MsgId}
      (waiting : chan.queue side.other = partner :: rest)
      (closed : chan.Closed capacity side.other ∨
        world.accepts program partner = false) :
      Turn program capacity side world chan message .shift
        (world, chan.setQueue side.other rest, .goto .shift)
  /-- Nobody waits, and the message is linked. -/
  | wait
      (alone : chan.queue side.other = [])
      (stays : (program.msg message).oneshot = false) :
      Turn program capacity side world chan message .scan
        (world, chan.link side message, .returned .inprocess)
  /-- Nobody waits, and a oneshot message gives up. -/
  | giveUp
      (alone : chan.queue side.other = [])
      (oneshot : (program.msg message).oneshot = true) :
      Turn program capacity side world chan message .scan
        (world, chan, .returned .invalidOneshot)
  /-- The message and the first partner exchange a value. -/
  | exchange {partner : MsgId} {rest : List MsgId}
      (waiting : chan.queue side.other = partner :: rest)
      (separate : ¬program.SameSelect (side.src message partner) (side.dst message partner))
      (accepted : world.accepts program message = true)
      (partnerAccepted : world.accepts program partner = true) :
      Turn program capacity side world chan message .scan
        (world.exchange program (side.src message partner) (side.dst message partner),
          (chan.setQueue side.other rest).passOn (side.dst message partner)
            (world.offer program (side.src message partner)),
          .returned .ok)
  /-- The select of the first partner has fired: the partner is unlinked. -/
  | purge {partner : MsgId} {rest : List MsgId}
      (waiting : chan.queue side.other = partner :: rest)
      (partnerRefused : world.accepts program partner = false) :
      Turn program capacity side world chan message .scan
        (world, chan.setQueue side.other rest, .goto .scan)
  /-- The receiver's select has fired, and a plain sender is unlinked for it. -/
  | purgePlain {partner : MsgId} {rest : List MsgId}
      (receiving : side = .recv)
      (waiting : chan.senders = partner :: rest)
      (plain : program.select? partner = none)
      (refused : world.accepts program message = false) :
      Turn program capacity side world chan message .scan
        (world, chan.setQueue side.other rest, .goto .scan)
  /-- The message's select has fired: the call gives up. -/
  | abandon {partner : MsgId} {rest : List MsgId}
      (waiting : chan.queue side.other = partner :: rest)
      (refused : world.accepts program message = false) :
      Turn program capacity side world chan message .scan
        (world, chan, .returned side.refused)
  /-- The select of the first receiver has fired, and a plain sender gives up
  for it. -/
  | abandonPlain {partner : MsgId} {rest : List MsgId}
      (sending : side = .send)
      (waiting : chan.recvers = partner :: rest)
      (plain : program.select? message = none)
      (partnerRefused : world.accepts program partner = false) :
      Turn program capacity side world chan message .scan
        (world, chan, .returned side.refused)
  /-- The first partner is a case of the message's own select. -/
  | clash {partner : MsgId} {rest : List MsgId}
      (waiting : chan.queue side.other = partner :: rest)
      (shared : program.SameSelect (side.src message partner) (side.dst message partner)) :
      Turn program capacity side world chan message .scan
        (world, chan, .threw BaseMsg.selectDeadlock)

end

section

variable [Inhabited α] (program : Program α) (capacity : Nat)

omit [Inhabited α] in
theorem bufferSendTo_eq (world : World α) (chan : Chan α) (dst : MsgId) :
    BaseChannel.bufferSendTo program world chan dst =
      match chan.buffer with
      | [] => (false, world, chan)
      | front :: rest =>
          if world.accepts program dst then
            (true, world.hand program dst front.value, chan.pop dst front rest)
          else (false, world, chan) := by
  unfold BaseChannel.bufferSendTo
  cases chan.buffer with
  | nil => rfl
  | cons front rest =>
      simp only [BaseMsg.recvFromPtr_eq]
      by_cases accepted : world.accepts program dst = true
      · simp [accepted, World.hand]
      · simp [accepted]

theorem bufferRecvFrom_eq (world : World α) (chan : Chan α) (src : MsgId) :
    BaseChannel.bufferRecvFrom program capacity world chan src =
      if chan.buffer.length ≠ capacity ∧ world.accepts program src then
        (true, world.take program src, chan.push (world.offer program src))
      else (false, world, chan) := by
  unfold BaseChannel.bufferRecvFrom
  by_cases full : chan.buffer.length = capacity
  · simp [full]
  · simp only [full, if_false, BaseMsg.sendToPtr_eq]
    by_cases accepted : world.accepts program src = true
    · simp [full, accepted, World.take, World.offer]
    · simp [accepted]

/-- A turn of `send_to` is one of the listed turns of a receiver. -/
private theorem sendTo_turn
    (world : World α) (chan : Chan α) (dst : MsgId) (pc : Pc)
    (unlinked : dst ∉ chan.senders) :
    Turn program capacity .recv world chan dst pc
      (BaseChannel.sendTo program capacity world chan dst pc) := by
  cases pc with
  | buffer =>
      simp only [BaseChannel.sendTo, bufferSendTo_eq]
      cases found : chan.buffer with
      | nil => exact .pass (.inl found)
      | cons front rest =>
          by_cases accepted : world.accepts program dst = true
          · simp only [accepted, if_true]
            exact .fetch rfl found accepted
          · simp only [accepted, Bool.false_eq_true, if_false]
            exact .pass (.inr (by simpa using accepted))
  | shift =>
      simp only [BaseChannel.sendTo, bufferRecvFrom_eq]
      cases waiting : chan.senders with
      | nil => exact .served waiting
      | cons sender rest =>
          by_cases room : chan.buffer.length = capacity
          · simp only [room, ne_eq, not_true_eq_false, false_and, if_false]
            exact .discard waiting (.inl room)
          · by_cases accepted : world.accepts program sender = true
            · simp only [room, accepted, ne_eq, not_false_eq_true, true_and, if_true]
              exact .refill rfl waiting room accepted
            · simp only [accepted, Bool.false_eq_true, and_false, if_false]
              exact .discard waiting (.inr (by simpa using accepted))
  | scan =>
      simp only [BaseChannel.sendTo]
      cases waiting : chan.senders with
      | nil =>
          by_cases oneshot : (program.msg dst).oneshot = true
          · simp only [oneshot, if_true]
            exact .giveUp waiting oneshot
          · have turn : Turn program capacity .recv world chan dst .scan
                (world, chan.link .recv dst, .returned .inprocess) :=
              .wait waiting (by simpa using oneshot)
            simpa only [oneshot, Bool.false_eq_true, if_false, Chan.link, Chan.setQueue,
              Chan.queue, waiting] using turn
      | cons sender rest =>
          have different : sender ≠ dst := by
            rintro rfl
            simp [waiting] at unlinked
          simp only [BaseMsg.sendTo_eq program world different]
          by_cases shared : program.SameSelect sender dst
          · simp only [shared, if_true]
            exact .clash waiting shared
          · by_cases accepted : world.accepts program sender = true
            · by_cases dstAccepted : world.accepts program dst = true
              · simp only [shared, accepted, dstAccepted, if_false, and_self, if_true]
                exact .exchange waiting shared dstAccepted accepted
              · have refused : world.accepts program dst = false := by
                  simpa using dstAccepted
                by_cases plain : program.select? sender = none
                · simp only [shared, accepted, refused, plain, if_false, ne_eq,
                    not_true_eq_false, and_false, Bool.false_eq_true]
                  exact .purgePlain rfl waiting plain refused
                · simp only [shared, accepted, refused, plain, if_false, ne_eq,
                    not_false_eq_true, and_false, Bool.false_eq_true, and_true, if_true]
                  exact .abandon waiting refused
            · have refused : world.accepts program sender = false := by
                simpa using accepted
              simp only [shared, refused, if_false, Bool.false_eq_true, false_and]
              exact .purge waiting refused

/-- A turn of `recv_from` is one of the listed turns of a sender. -/
private theorem recvFrom_turn
    (world : World α) (chan : Chan α) (src : MsgId) (pc : Pc)
    (unlinked : src ∉ chan.recvers) :
    Turn program capacity .send world chan src pc
      (BaseChannel.recvFrom program capacity world chan src pc) := by
  cases pc with
  | buffer =>
      simp only [BaseChannel.recvFrom, bufferRecvFrom_eq]
      by_cases room : chan.buffer.length = capacity
      · simp only [room, ne_eq, not_true_eq_false, false_and, if_false]
        exact .pass (.inl room)
      · by_cases accepted : world.accepts program src = true
        · simp only [room, accepted, ne_eq, not_false_eq_true, true_and, if_true]
          exact .store rfl room accepted
        · simp only [accepted, Bool.false_eq_true, and_false, if_false]
          exact .pass (.inr (by simpa using accepted))
  | shift =>
      simp only [BaseChannel.recvFrom, bufferSendTo_eq]
      cases waiting : chan.recvers with
      | nil => exact .served waiting
      | cons recver rest =>
          have discarded (closed : chan.Closed capacity .recv ∨
              world.accepts program recver = false) :
              Turn program capacity .send world chan src .shift
                (world, chan.setQueue .recv rest, .goto .shift) :=
            .discard waiting closed
          cases found : chan.buffer with
          | nil => simpa only [Chan.setQueue, found] using discarded (.inl found)
          | cons front behind =>
              by_cases accepted : world.accepts program recver = true
              · simp only [accepted, if_true]
                have handed : Turn program capacity .send world chan src .shift
                    (world.hand program recver front.value,
                      { chan with recvers := rest }.pop recver front behind,
                      .returned .ok) :=
                  .handOver rfl waiting found accepted
                simpa only [found] using handed
              · have refused : world.accepts program recver = false := by
                  simpa using accepted
                simpa only [refused, Bool.false_eq_true, if_false, Chan.setQueue, found]
                  using discarded (.inr refused)
  | scan =>
      simp only [BaseChannel.recvFrom]
      cases waiting : chan.recvers with
      | nil =>
          by_cases oneshot : (program.msg src).oneshot = true
          · simp only [oneshot, if_true]
            exact .giveUp waiting oneshot
          · have turn : Turn program capacity .send world chan src .scan
                (world, chan.link .send src, .returned .inprocess) :=
              .wait waiting (by simpa using oneshot)
            simpa only [oneshot, Bool.false_eq_true, if_false, Chan.link, Chan.setQueue,
              Chan.queue, waiting] using turn
      | cons recver rest =>
          have different : src ≠ recver := by
            rintro rfl
            simp [waiting] at unlinked
          simp only [BaseMsg.recvFrom, BaseMsg.sendTo_eq program world different]
          by_cases shared : program.SameSelect src recver
          · simp only [shared, if_true]
            exact .clash waiting shared
          · by_cases accepted : world.accepts program src = true
            · by_cases dstAccepted : world.accepts program recver = true
              · simp only [shared, accepted, dstAccepted, if_false, and_self, if_true]
                exact .exchange waiting shared accepted dstAccepted
              · have refused : world.accepts program recver = false := by
                  simpa using dstAccepted
                by_cases plain : program.select? src = none
                · simp only [shared, accepted, refused, plain, if_false, ne_eq,
                    not_true_eq_false, and_false, Bool.false_eq_true]
                  exact .abandonPlain rfl waiting plain refused
                · simp only [shared, accepted, refused, plain, if_false, ne_eq,
                    not_false_eq_true, and_false, Bool.false_eq_true, and_true, if_true]
                  exact .purge waiting refused
            · have refused : world.accepts program src = false := by
                simpa using accepted
              simp only [shared, refused, if_false, Bool.false_eq_true, false_and]
              exact .abandon waiting refused

/-- Every turn of a call is one of the listed ones. -/
theorem turn_spec
    (world : World α) (chan : Chan α) (call : Call)
    (unlinked : call.message ∉ chan.queue (program.msg call.message).side.other) :
    Turn program capacity (program.msg call.message).side world chan call.message
      call.pc (BaseChannel.turn program capacity world chan call) := by
  unfold BaseChannel.turn
  cases side : (program.msg call.message).side with
  | send =>
      rw [side] at unlinked
      exact recvFrom_turn program capacity world chan call.message call.pc unlinked
  | recv =>
      rw [side] at unlinked
      exact sendTo_turn program capacity world chan call.message call.pc unlinked

end

/-! ## What every turn keeps -/

namespace World

variable (program : Program α) (world : World α)

/-- Selects stay fired, so a commit lets no more messages in than before. -/
theorem accepts_of_accepts_commit
    {message other : MsgId}
    (accepted : (world.commit program message).accepts program other = true) :
    world.accepts program other = true := by
  rw [accepts_iff] at accepted ⊢
  intro select owned
  have open_ := accepted select owned
  rw [commit_key] at open_
  split at open_
  · rename_i fired
    unfold Program.select? at fired
    unfold Program.caseKey? at open_
    cases variant : (program.msg message).variant with
    | simplex data signal => simp [variant, Variant.select?] at fired
    | multiplex data owner caseKey => simp [variant, Variant.caseKey?] at open_
  · exact open_

theorem accepts_of_accepts_hand
    {message other : MsgId}
    {value : α}
    (accepted : (world.hand program message value).accepts program other = true) :
    world.accepts program other = true := by
  simpa using accepts_of_accepts_commit program _ accepted

theorem accepts_of_accepts_exchange
    {src dst other : MsgId}
    (accepted : (world.exchange program src dst).accepts program other = true) :
    world.accepts program other = true := by
  have once := accepts_of_accepts_commit program _ accepted
  simpa using accepts_of_accepts_commit program _ once

theorem accepts_of_accepts_fire
    {select : SelectId}
    {key : CaseKey}
    {message : MsgId}
    (accepted : ({ world with
      key := Function.update world.key select (some key) } : World α).accepts
        program message = true) :
    world.accepts program message = true := by
  rw [accepts_iff] at accepted ⊢
  intro owner owned
  have open_ := accepted owner owned
  by_cases fired : owner = select
  · subst fired
    simp at open_
  · simpa [fired] using open_

theorem accepts_of_accepts_take [Inhabited α]
    {message other : MsgId}
    (accepted : (world.take program message).accepts program other = true) :
    world.accepts program other = true := by
  simpa using accepts_of_accepts_commit program _ accepted

end World

namespace Turn

variable [Inhabited α]
variable {program : Program α} {capacity : Nat} {side : Side}
variable {world : World α} {chan : Chan α} {message : MsgId} {pc : Pc}
variable {outcome : World α × Chan α × Next}

theorem accepts_of_accepts
    (turn : Turn program capacity side world chan message pc outcome)
    {other : MsgId}
    (accepted : outcome.1.accepts program other = true) :
    world.accepts program other = true := by
  cases turn with
  | store => exact world.accepts_of_accepts_take program accepted
  | refill => exact world.accepts_of_accepts_take program accepted
  | fetch => exact world.accepts_of_accepts_hand program accepted
  | handOver => exact world.accepts_of_accepts_hand program accepted
  | exchange => exact world.accepts_of_accepts_exchange program accepted
  | _ => exact accepted

/-- A call that goes on outside its first loop has not moved anything. -/
theorem unmoved_of_goto
    (turn : Turn program capacity side world chan message pc outcome)
    {next : Pc}
    (goes : outcome.2.2 = .goto next)
    (outside : next ≠ .shift) :
    outcome.1 = world ∧ pc ≠ .shift := by
  cases turn with
  | pass => exact ⟨rfl, by simp⟩
  | purge => exact ⟨rfl, by simp⟩
  | purgePlain => exact ⟨rfl, by simp⟩
  | store => exact absurd (Next.goto.inj goes).symm outside
  | fetch => exact absurd (Next.goto.inj goes).symm outside
  | discard => exact absurd (Next.goto.inj goes).symm outside
  | _ => simp at goes

/-- A call goes into its first loop by serving its message, or is in it. -/
theorem committed_of_shift
    (turn : Turn program capacity side world chan message pc outcome)
    (goes : outcome.2.2 = .goto .shift) :
    outcome.1.commits message ≠ 0 ∨ pc = .shift := by
  cases turn with
  | store => exact .inl (by simp)
  | fetch => exact .inl (by simp)
  | discard => exact .inr rfl
  | _ => simp at goes

/-- A turn adds nothing to the history of entered messages. -/
theorem entered_eq
    (turn : Turn program capacity side world chan message pc outcome)
    (queried : Side) :
    outcome.2.1.entered queried = chan.entered queried := by
  cases turn <;> cases queried <;> cases side <;> rfl

/-- What a turn does to a queue: nothing, unlinking the head of the partners'
queue, or linking the message at the end of its own. -/
theorem queue_cases
    (turn : Turn program capacity side world chan message pc outcome)
    (queried : Side) :
    outcome.2.1.queue queried = chan.queue queried ∨
      (queried = side.other ∧ ∃ partner,
        chan.queue queried = partner :: outcome.2.1.queue queried) ∨
      (queried = side ∧ outcome.2.1.queue queried = chan.queue queried ++ [message] ∧
        outcome.2.2 = .returned .inprocess ∧ (program.msg message).oneshot = false) := by
  cases turn with
  | @refill sender rest receiving waiting =>
      subst receiving
      cases queried with
      | send => exact .inr (.inl ⟨rfl, sender, waiting⟩)
      | recv => exact .inl rfl
  | @handOver recver rest _ _ sending waiting =>
      subst sending
      cases queried with
      | send => exact .inl rfl
      | recv => exact .inr (.inl ⟨rfl, recver, waiting⟩)
  | @discard partner rest waiting =>
      by_cases same : queried = side.other
      · subst same
        exact .inr (.inl ⟨rfl, partner, by simpa using waiting⟩)
      · exact .inl (Chan.queue_setQueue_of_ne chan same rest)
  | @exchange partner rest waiting =>
      by_cases same : queried = side.other
      · subst same
        exact .inr (.inl ⟨rfl, partner, by simpa using waiting⟩)
      · exact .inl (by simpa using Chan.queue_setQueue_of_ne chan same rest)
  | @purge partner rest waiting =>
      by_cases same : queried = side.other
      · subst same
        exact .inr (.inl ⟨rfl, partner, by simpa using waiting⟩)
      · exact .inl (Chan.queue_setQueue_of_ne chan same rest)
  | @purgePlain partner rest receiving waiting =>
      by_cases same : queried = side.other
      · subst same
        subst receiving
        exact .inr (.inl ⟨rfl, partner, waiting⟩)
      · exact .inl (Chan.queue_setQueue_of_ne chan same rest)
  | wait alone stays =>
      by_cases same : queried = side
      · subst same
        exact .inr (.inr ⟨rfl, by simp [Chan.link], rfl, stays⟩)
      · exact .inl (Chan.queue_setQueue_of_ne chan same _)
  | store => exact .inl (by simp)
  | fetch => exact .inl (by simp)
  | _ => exact .inl rfl

end Turn

end Channel
end Cgo
