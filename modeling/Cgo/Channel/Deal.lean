import Cgo.Channel.Ledger
import Cgo.Channel.Matched

/-!
# What a turn does with values

A turn does one of four things with values: nothing, or it takes a value into
the buffer, hands the front of the buffer out, or passes a value from a sender
to a receiver while the buffer is empty.  Whoever is served waited for it, and
does not wait any more.
-/

namespace Cgo
namespace Channel

variable {α : Type} {program : Program α}

/-- The message waits for a transfer on the channel: it is linked, or it is in
its call and has not been served. -/
def Chan.Pending (program : Program α) (chan : Chan α) (message : MsgId) : Prop :=
  message ∈ chan.queue (program.msg message).side ∨
    ∃ pc, pc ≠ .shift ∧ chan.call = some ⟨message, pc⟩

/-- Who waits for a transfer on a channel has entered it. -/
theorem WellFormed.pending_here
    {system : System α}
    {id : ChanId}
    {message : MsgId}
    (wellFormed : WellFormed program system)
    (waits : (system.chan id).Pending program message) :
    (program.msg message).chan = id ∧ system.phase message ≠ .fresh := by
  rcases waits with linked | ⟨pc, _, calling⟩
  · obtain ⟨here, _, _, returned⟩ := wellFormed.queued id _ message linked
    exact ⟨here, by simp [returned]⟩
  · obtain ⟨here, inCall⟩ := wellFormed.held id _ calling
    exact ⟨here, by simp [inCall]⟩

section

variable [Inhabited α]

/-- What a turn does with values. -/
inductive Deal
    (program : Program α) (world : World α) (chan : Chan α) :
    World α → Chan α → Prop
  | idle {after : Chan α}
      (buffer : after.buffer = chan.buffer)
      (taken : after.taken = chan.taken)
      (given : after.given = chan.given) :
      Deal program world chan world after
  | take {after : Chan α} {sender : MsgId}
      (pending : chan.Pending program sender)
      (sends : (program.msg sender).side = .send)
      (accepted : world.accepts program sender = true)
      (buffer : after.buffer = chan.buffer ++ [world.offer program sender])
      (taken : after.taken = chan.taken ++ [world.offer program sender])
      (given : after.given = chan.given) :
      Deal program world chan (world.take program sender) after
  | hand {after : Chan α} {recver : MsgId} {front : Sent α} {rest : List (Sent α)}
      (pending : chan.Pending program recver)
      (receives : (program.msg recver).side = .recv)
      (accepted : world.accepts program recver = true)
      (found : chan.buffer = front :: rest)
      (buffer : after.buffer = rest)
      (taken : after.taken = chan.taken)
      (given : after.given = chan.given ++ [⟨recver, front⟩]) :
      Deal program world chan (world.hand program recver front.value) after
  | exchange {after : Chan α} {src dst : MsgId}
      (srcPending : chan.Pending program src)
      (sends : (program.msg src).side = .send)
      (srcAccepted : world.accepts program src = true)
      (dstPending : chan.Pending program dst)
      (receives : (program.msg dst).side = .recv)
      (dstAccepted : world.accepts program dst = true)
      (separate : ¬program.SameSelect src dst)
      (empty : chan.buffer = [])
      (buffer : after.buffer = [])
      (taken : after.taken = chan.taken ++ [world.offer program src])
      (given : after.given = chan.given ++ [⟨dst, world.offer program src⟩]) :
      Deal program world chan (world.exchange program src dst) after

/-- Every turn is one of these deals. -/
theorem WellFormed.deal
    {system : System α}
    {id : ChanId}
    {call : Call}
    {outcome : World α × Chan α × Next}
    (wellFormed : WellFormed program system)
    (matched : Matched program system.world (program.capacity id) (system.chan id))
    (held : (system.chan id).call = some call)
    (turn : Turn program (program.capacity id) (program.msg call.message).side
      system.world (system.chan id) call.message call.pc outcome) :
    Deal program system.world (system.chan id) outcome.1 outcome.2.1 := by
  obtain ⟨message, pc⟩ := call
  have linked : ∀ side other, other ∈ (system.chan id).queue side →
      (system.chan id).Pending program other ∧ (program.msg other).side = side := by
    intro side other member
    have own := (wellFormed.queued id side other member).2.1
    exact ⟨.inl (by rwa [own]), own⟩
  have calling : pc ≠ .shift → (system.chan id).Pending program message :=
    fun outside => .inr ⟨pc, outside, held⟩
  have scanning := matched.scanning message
  have live := matched.live
  revert turn
  generalize callerSide : (program.msg message).side = side
  rw [callerSide] at scanning
  intro turn
  cases turn with
  | store sending room accepted =>
      exact .take (calling (by simp)) (callerSide.trans sending) accepted rfl rfl rfl
  | fetch receiving found accepted =>
      exact .hand (calling (by simp)) (callerSide.trans receiving) accepted found rfl rfl rfl
  | @refill sender rest receiving waiting room accepted =>
      obtain ⟨pending, sends⟩ := linked .send sender (by simp [Chan.queue, waiting])
      exact .take pending sends accepted rfl rfl rfl
  | @handOver recver rest front behind sending waiting found accepted =>
      obtain ⟨pending, receives⟩ := linked .recv recver (by simp [Chan.queue, waiting])
      exact .hand pending receives accepted found rfl rfl rfl
  | @exchange partner rest waiting separate accepted partnerAccepted =>
      obtain ⟨pending, partnerSide⟩ := linked side.other partner (by simp [waiting])
      cases side with
      | send =>
          have member : partner ∈ (system.chan id).queue .recv := by
            rw [show (system.chan id).queue .recv = partner :: rest from waiting]
            exact List.mem_cons_self
          have closed := matched.live_before held (by simp) .recv member partnerAccepted
          exact .exchange (calling (by simp)) callerSide accepted pending partnerSide
            partnerAccepted separate closed closed rfl rfl
      | recv =>
          have closed := (scanning held).resolve_right (by simp [accepted])
          exact .exchange pending partnerSide partnerAccepted (calling (by simp)) callerSide
            accepted separate closed closed rfl rfl
  | discard waiting closed => cases side <;> exact .idle rfl rfl rfl
  | purge waiting refused => cases side <;> exact .idle rfl rfl rfl
  | purgePlain receiving waiting plain refused => cases side <;> exact .idle rfl rfl rfl
  | wait alone stays => cases side <;> exact .idle rfl rfl rfl
  | _ => exact .idle rfl rfl rfl

/-- Who is linked after a turn waited for a transfer before it, and the turn did
not commit it. -/
private theorem WellFormed.pending_of_linked
    {system : System α}
    {id : ChanId}
    {call : Call}
    {outcome : World α × Chan α × Next}
    {message : MsgId}
    (wellFormed : WellFormed program system)
    (held : (system.chan id).call = some call)
    (turn : Turn program (program.capacity id) (program.msg call.message).side
      system.world (system.chan id) call.message call.pc outcome)
    (member : message ∈ outcome.2.1.queue (program.msg message).side) :
    (system.chan id).Pending program message ∧
      outcome.1.commits message = system.world.commits message := by
  obtain ⟨caller, pc⟩ := call
  have notCaller : message ∈ (system.chan id).queue (program.msg message).side →
      message ≠ caller := by
    rintro linked rfl
    exact wellFormed.unlinked held _ linked
  -- the head of a queue is not linked behind itself, nor on the other side
  have behind : ∀ side partner rest, (system.chan id).queue side = partner :: rest →
      message ∈ ((system.chan id).setQueue side rest).queue (program.msg message).side →
        message ∈ (system.chan id).queue (program.msg message).side ∧
          message ≠ partner := by
    intro side partner rest waiting linked
    by_cases same : (program.msg message).side = side
    · rw [same] at linked ⊢
      rw [Chan.queue_setQueue_self] at linked
      have nodup := wellFormed.nodup id side
      rw [waiting] at nodup ⊢
      refine ⟨List.mem_cons_of_mem _ linked, ?_⟩
      rintro rfl
      exact (List.nodup_cons.mp nodup).1 linked
    · rw [Chan.queue_setQueue_of_ne _ same] at linked
      refine ⟨linked, ?_⟩
      rintro rfl
      have own := wellFormed.queued id side message (by simp [waiting])
      exact same own.2.1
  revert turn
  generalize callerSide : (program.msg caller).side = side
  intro turn
  cases turn with
  | store sending room accepted =>
      have linked : message ∈ (system.chan id).queue (program.msg message).side := by
        simpa using member
      exact ⟨.inl linked, by simp [notCaller linked]⟩
  | fetch receiving found accepted =>
      have linked : message ∈ (system.chan id).queue (program.msg message).side := by
        simpa using member
      exact ⟨.inl linked, by simp [notCaller linked]⟩
  | refill receiving waiting room accepted =>
      rw [Chan.queue_push] at member
      obtain ⟨linked, different⟩ := behind .send _ _ waiting member
      exact ⟨.inl linked, by simp [different]⟩
  | handOver sending waiting found accepted =>
      rw [Chan.queue_pop] at member
      obtain ⟨linked, different⟩ := behind .recv _ _ waiting member
      exact ⟨.inl linked, by simp [different]⟩
  | @exchange partner rest waiting separate accepted partnerAccepted =>
      obtain ⟨linked, different⟩ := behind _ _ _ waiting (by simpa using member)
      have apart : partner ≠ caller := by
        rintro rfl
        exact wellFormed.unlinked held side.other (by simp [waiting])
      refine ⟨.inl linked, ?_⟩
      cases side with
      | send =>
          simp [Side.src, Side.dst, World.exchange_commits _ _ apart.symm, different,
            notCaller linked]
      | recv =>
          simp [Side.src, Side.dst, World.exchange_commits _ _ apart, different,
            notCaller linked]
  | discard waiting closed => exact ⟨.inl (behind _ _ _ waiting member).1, rfl⟩
  | purge waiting refused => exact ⟨.inl (behind _ _ _ waiting member).1, rfl⟩
  | purgePlain receiving waiting plain refused =>
      subst receiving
      exact ⟨.inl (behind .send _ _ waiting member).1, rfl⟩
  | wait alone stays =>
      refine ⟨?_, rfl⟩
      by_cases same : (program.msg message).side = side
      · rw [same, Chan.link, Chan.queue_setQueue_self] at member
        rcases List.mem_append.mp member with before | last
        · exact .inl (by rwa [same])
        · obtain rfl := List.mem_singleton.mp last
          exact .inr ⟨.scan, by simp, held⟩
      · rw [Chan.link, Chan.queue_setQueue_of_ne _ same] at member
        exact .inl member
  | _ => exact ⟨.inl member, rfl⟩

/-- Who waits for a transfer after a turn waited before it, and the turn did not
commit it. -/
theorem WellFormed.pending_of_turn
    {system : System α}
    {id : ChanId}
    {call : Call}
    {outcome : World α × Chan α × Next}
    {message : MsgId}
    (wellFormed : WellFormed program system)
    (held : (system.chan id).call = some call)
    (turn : Turn program (program.capacity id) (program.msg call.message).side
      system.world (system.chan id) call.message call.pc outcome)
    (pending : (outcome.2.1.resume call.message outcome.2.2).Pending program message) :
    (system.chan id).Pending program message ∧
      outcome.1.commits message = system.world.commits message := by
  rcases pending with linked | ⟨next, outside, calling⟩
  · exact wellFormed.pending_of_linked held turn (by simpa using linked)
  · obtain ⟨same, goes⟩ := Chan.call_resume calling
    obtain rfl : message = call.message := same
    obtain ⟨unmoved, before⟩ := turn.unmoved_of_goto goes outside
    exact ⟨.inr ⟨call.pc, before, held⟩, by rw [unmoved]⟩

end

/-- A transfer took the values `sent` from senders and gave `handed` to
receivers, and committed exactly these. -/
structure Advance
    (program : Program α) (world : World α) (chan : Chan α)
    (moved : World α) (after : Chan α)
    (sent : List (Sent α)) (handed : List (Given α)) : Prop where
  ledger : Ledger program moved
  commits : ∀ message, moved.commits message ≠ 0 ↔
    world.commits message ≠ 0 ∨ message ∈ sent.map Sent.origin ∨
      message ∈ handed.map Given.target
  sends : ∀ message ∈ sent.map Sent.origin,
    chan.Pending program message ∧ (program.msg message).side = .send
  receives : ∀ message ∈ handed.map Given.target,
    chan.Pending program message ∧ (program.msg message).side = .recv
  sent_nodup : (sent.map Sent.origin).Nodup
  handed_nodup : (handed.map Given.target).Nodup
  taken : after.taken = chan.taken ++ sent
  given : after.given = chan.given ++ handed
  fifo : after.taken = after.given.map Given.sent ++ after.buffer

theorem Deal.advance
    [Inhabited α]
    {world moved : World α}
    {chan after : Chan α}
    (deal : Deal program world chan moved after)
    (ledger : Ledger program world)
    (uncommitted : ∀ message, chan.Pending program message → world.commits message = 0)
    (fifo : chan.taken = chan.given.map Given.sent ++ chan.buffer) :
    ∃ sent handed, Advance program world chan moved after sent handed := by
  have counted : ∀ (commits : MsgId → Nat) message other,
      Function.update commits message (commits message + 1) other ≠ 0 ↔
        commits other ≠ 0 ∨ other = message := by
    intro commits message other
    by_cases same : other = message
    · simp [same]
    · simp [same]
  cases deal with
  | idle buffer taken given =>
      refine ⟨[], [], ledger, by simp, by simp, by simp, by simp, by simp, by simp [taken],
        by simp [given], ?_⟩
      rw [taken, given, buffer, fifo]
  | @take _ sender pending sends accepted buffer taken given =>
      refine ⟨[world.offer program sender], [], ledger.take ⟨uncommitted _ pending, accepted⟩,
        ?_, ?_, by simp, by simp, by simp, taken, by simp [given], ?_⟩
      · intro message
        rw [World.take_commits, counted]
        simp [World.offer]
      · intro message isSender
        obtain rfl : message = sender := by simpa [World.offer] using isSender
        exact ⟨pending, sends⟩
      · rw [taken, given, buffer, fifo, List.append_assoc]
  | @hand _ recver front rest pending receives accepted found buffer taken given =>
      refine ⟨[], [⟨recver, front⟩], ledger.hand _ ⟨uncommitted _ pending, accepted⟩,
        ?_, by simp, ?_, by simp, by simp, by simp [taken], given, ?_⟩
      · intro message
        rw [World.hand_commits, counted]
        simp
      · intro message isRecver
        obtain rfl : message = recver := by simpa using isRecver
        exact ⟨pending, receives⟩
      · rw [taken, given, buffer, fifo, found]
        simp
  | @exchange _ src dst srcPending sends srcAccepted dstPending receives dstAccepted
      separate empty buffer taken given =>
      have different : src ≠ dst := by
        rintro rfl
        rw [sends] at receives
        simp at receives
      refine ⟨[world.offer program src], [⟨dst, world.offer program src⟩],
        ledger.exchange different separate ⟨uncommitted _ srcPending, srcAccepted⟩
          ⟨uncommitted _ dstPending, dstAccepted⟩,
        ?_, ?_, ?_, by simp, by simp, taken, given, ?_⟩
      · intro message
        have second := counted
          (Function.update world.commits src (world.commits src + 1)) dst message
        rw [Function.update_of_ne different.symm] at second
        rw [World.exchange_commits _ _ different, second, counted]
        simp [World.offer, or_assoc]
      · intro message isSender
        obtain rfl : message = src := by simpa [World.offer] using isSender
        exact ⟨srcPending, sends⟩
      · intro message isRecver
        obtain rfl : message = dst := by simpa using isRecver
        exact ⟨dstPending, receives⟩
      · rw [taken, given, buffer, fifo, empty]
        simp

end Channel
end Cgo
