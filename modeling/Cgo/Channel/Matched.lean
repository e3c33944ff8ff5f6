import Cgo.Channel.WellFormed

/-!
# No missed match

Whenever the lock of a channel is free, its buffer is within its capacity, only
one side waits, a live receiver waits only at an empty buffer, and a live sender
only at a full one.  The invariant behind this also speaks of a channel in the
middle of a call: a receive that has just taken the front of a full buffer, and
a send that has just filled an empty one, leave the buffer one value off until
their first loop is through.
-/

namespace Cgo
namespace Channel

variable {α : Type} {program : Program α}

/-- By how much the buffer is off for those who wait on a side: by one while a
call from the other side is in its first loop. -/
def Chan.owed (program : Program α) (chan : Chan α) (side : Side) : Nat :=
  match chan.call with
  | some ⟨message, .shift⟩ => if (program.msg message).side = side.other then 1 else 0
  | _ => 0

/-- What a live message that waits on a side says about the buffer. -/
def Chan.Fits (program : Program α) (chan : Chan α) (capacity : Nat) : Side → Prop
  | .send => chan.buffer.length + chan.owed program .send = capacity
  | .recv => chan.buffer.length = chan.owed program .recv

@[simp] theorem Chan.owed_of_free
    {chan : Chan α}
    (free : chan.call = none)
    (side : Side) : chan.owed program side = 0 := by
  simp [owed, free]

@[simp] theorem Chan.owed_enter
    (chan : Chan α) (side queried : Side) (message : MsgId) :
    (chan.enter side message).owed program queried = 0 := by
  simp [owed]

/-- The queues of a channel fit its buffer. -/
structure Matched
    (program : Program α) (world : World α) (capacity : Nat) (chan : Chan α) : Prop where
  bounded : chan.buffer.length ≤ capacity
  oneSided : chan.senders = [] ∨ chan.recvers = []
  live : ∀ side, ∀ message ∈ chan.queue side,
    world.accepts program message = true → chan.Fits program capacity side
  /-- A call looks for a partner only when the buffer could not serve it. -/
  scanning : ∀ message, chan.call = some ⟨message, .scan⟩ →
    chan.Closed capacity (program.msg message).side ∨
      world.accepts program message = false

namespace Matched

variable {world fired : World α} {capacity : Nat} {chan after : Chan α}

theorem initial : Matched program (.initial program) capacity .initial where
  bounded := by simp [Chan.initial]
  oneSided := by simp [Chan.initial]
  live := by simp
  scanning := by simp [Chan.initial]

/-- With the same buffer and no new waiters, the queues still fit. -/
theorem of_sublist
    (matched : Matched program world capacity chan)
    (fewer : ∀ message, fired.accepts program message = true →
      world.accepts program message = true)
    (buffer : after.buffer = chan.buffer)
    (queues : ∀ side, (after.queue side).Sublist (chan.queue side))
    (owed : ∀ side, after.queue side ≠ [] →
      after.owed program side = chan.owed program side)
    (scanning : ∀ message, after.call = some ⟨message, .scan⟩ →
      after.Closed capacity (program.msg message).side ∨
        fired.accepts program message = false) :
    Matched program fired capacity after where
  bounded := by simpa [buffer] using matched.bounded
  oneSided := by
    refine matched.oneSided.imp (fun empty => ?_) (fun empty => ?_)
    · have shorter := queues .send
      rw [show chan.queue .send = [] from empty] at shorter
      exact List.sublist_nil.mp shorter
    · have shorter := queues .recv
      rw [show chan.queue .recv = [] from empty] at shorter
      exact List.sublist_nil.mp shorter
  live side message linked accepted := by
    have fits := matched.live side message ((queues side).subset linked)
      (fewer message accepted)
    have same := owed side (List.ne_nil_of_mem linked)
    cases side <;> simpa [Chan.Fits, buffer, same] using fits
  scanning := scanning

/-- Fewer open selects leave fewer live messages. -/
theorem shrinks
    (matched : Matched program world capacity chan)
    (fewer : ∀ message, fired.accepts program message = true →
      world.accepts program message = true) :
    Matched program fired capacity chan := by
  refine matched.of_sublist fewer rfl (fun _ => .refl _) (fun _ _ => rfl) ?_
  intro message held
  refine (matched.scanning message held).imp_right fun refused => ?_
  by_contra accepted
  rw [fewer message (by simpa using accepted)] at refused
  simp at refused

theorem enters
    (matched : Matched program world capacity chan)
    (free : chan.call = none)
    (message : MsgId) :
    Matched program world capacity
      (chan.enter (program.msg message).side message) := by
  refine matched.of_sublist (fun _ => id) ?_ (fun side => by simp) (fun side _ => ?_) ?_
  · cases (program.msg message).side <;> rfl
  · simp [free]
  · simp

theorem drops
    (matched : Matched program world capacity chan)
    (free : chan.call = none)
    (message : MsgId) :
    Matched program world capacity (chan.unlinkThis message) := by
  refine matched.of_sublist (fun _ => id) rfl (fun side => ?_) (fun side _ => rfl) ?_
  · simpa using List.erase_sublist
  · simp [Chan.unlinkThis, free]

/-! ## The turns of a call -/

section Turns

variable {message : MsgId} {side : Side}

/-- The debt of a channel in its first loop. -/
theorem owed_shift
    (caller : (program.msg message).side = side)
    (held : chan.call = some ⟨message, .shift⟩)
    (queried : Side) :
    chan.owed program queried = if queried = side.other then 1 else 0 := by
  cases side <;> cases queried <;> simp [Chan.owed, held, caller]

/-- Outside the first loop a channel owes nothing. -/
theorem owed_of_pc
    {pc : Pc}
    (held : chan.call = some ⟨message, pc⟩)
    (outside : pc ≠ .shift)
    (queried : Side) :
    chan.owed program queried = 0 := by
  cases pc <;> simp_all [Chan.owed]

/-- A turn that leaves the buffer alone, links nobody and ends outside the first
loop keeps the queues fitting, unless it leaves that loop with partners still
waiting. -/
private theorem idle_turn
    {pc : Pc}
    {next : Next}
    (matched : Matched program world capacity chan)
    (held : chan.call = some ⟨message, pc⟩)
    (caller : (program.msg message).side = side)
    (fewer : ∀ message, fired.accepts program message = true →
      world.accepts program message = true)
    (buffer : after.buffer = chan.buffer)
    (queues : ∀ side, (after.queue side).Sublist (chan.queue side))
    (outside : pc ≠ .shift ∨ after.queue side.other = [])
    (leaves : next ≠ .goto .shift)
    (scanning : next = .goto .scan →
      chan.Closed capacity side ∨ world.accepts program message = false) :
    Matched program fired capacity (after.resume message next) := by
  have before := matched.shrinks fewer
  refine before.of_sublist (fun _ => id) (by simp [buffer])
    (fun queried => by simpa using queues queried) (fun queried nonempty => ?_)
    (fun other held' => ?_)
  · have settled : (after.resume message next).owed program queried = 0 := by
      cases next with
      | goto pc =>
          have resumed : (after.resume message (.goto pc)).call = some ⟨message, pc⟩ := rfl
          exact owed_of_pc resumed (by simpa using leaves) _
      | returned status => exact Chan.owed_of_free rfl _
      | threw error => exact Chan.owed_of_free rfl _
    rw [settled]
    by_cases shift : pc = .shift
    · subst shift
      have other : queried ≠ side.other := by
        rintro rfl
        simp [outside.resolve_left (by simp)] at nonempty
      rw [owed_shift caller held, if_neg other]
    · exact (owed_of_pc held shift queried).symm
  · obtain ⟨same, goes⟩ := Chan.call_resume held'
    obtain rfl : other = message := same
    rw [caller]
    refine (scanning goes).imp (fun closed => ?_) (fun refused => ?_)
    · cases side <;> simpa [Chan.Closed, buffer] using closed
    · by_contra accepted
      rw [fewer other (by simpa using accepted)] at refused
      simp at refused

/-- After a turn of the first loop that takes or hands over a value, or one
that only unlinks, `owed` is that of a call in its first loop. -/
private theorem shift_resume
    (caller : (program.msg message).side = side)
    (queried : Side) :
    (after.resume message (.goto .shift)).owed program queried =
      if queried = side.other then 1 else 0 :=
  owed_shift caller rfl queried

theorem live_before
    {pc : Pc}
    (matched : Matched program world capacity chan)
    (held : chan.call = some ⟨message, pc⟩)
    (outside : pc ≠ .shift)
    (queried : Side)
    {other : MsgId}
    (linked : other ∈ chan.queue queried)
    (accepted : world.accepts program other = true) :
    chan.Closed capacity queried := by
  have fits := matched.live queried other linked accepted
  cases queried with
  | send =>
      simp only [Chan.Fits, owed_of_pc held outside, Nat.add_zero] at fits
      exact fits
  | recv =>
      simp only [Chan.Fits, owed_of_pc held outside] at fits
      exact List.length_eq_zero_iff.mp fits

/-- In its first loop a call can serve every live message that waits on the other
side. -/
theorem open_of_shift
    (matched : Matched program world capacity chan)
    (held : chan.call = some ⟨message, .shift⟩)
    (caller : (program.msg message).side = side)
    {other : MsgId}
    (linked : other ∈ chan.queue side.other)
    (accepted : world.accepts program other = true) :
    ¬chan.Closed capacity side.other := by
  have fits := matched.live side.other other linked accepted
  cases side with
  | send =>
      simp only [Side.other_send, Chan.Fits, owed_shift caller held, if_true] at fits
      intro closed
      have empty : chan.buffer = [] := closed
      simp [empty] at fits
  | recv =>
      simp only [Side.other_recv, Chan.Fits, owed_shift caller held, if_true] at fits
      intro closed
      have full : chan.buffer.length = capacity := closed
      omega

private theorem store_turn
    {sent : Sent α}
    (matched : Matched program world capacity chan)
    (held : chan.call = some ⟨message, .buffer⟩)
    (caller : (program.msg message).side = .send)
    (fewer : ∀ message, fired.accepts program message = true →
      world.accepts program message = true)
    (room : chan.buffer.length ≠ capacity) :
    Matched program fired capacity
      ((chan.push sent).resume message (.goto .shift)) where
  bounded := by
    have bounded := matched.bounded
    simp only [Chan.buffer_resume, Chan.push, List.length_append, List.length_singleton]
    omega
  oneSided := matched.oneSided
  live queried other linked accepted := by
    have closed := matched.live_before held (by simp) queried
      (by simpa using linked) (fewer other accepted)
    cases queried with
    | send => exact absurd closed room
    | recv =>
        have empty : chan.buffer = [] := closed
        simp [Chan.Fits, Chan.push, empty, shift_resume caller]
  scanning other held' := by simp [Chan.resume] at held'

private theorem fetch_turn
    {front : Sent α}
    {rest : List (Sent α)}
    (matched : Matched program world capacity chan)
    (held : chan.call = some ⟨message, .buffer⟩)
    (caller : (program.msg message).side = .recv)
    (fewer : ∀ message, fired.accepts program message = true →
      world.accepts program message = true)
    (found : chan.buffer = front :: rest) :
    Matched program fired capacity
      ((chan.pop message front rest).resume message (.goto .shift)) where
  bounded := by
    have bounded := matched.bounded
    simp only [found, List.length_cons] at bounded
    simp only [Chan.buffer_resume, Chan.pop]
    omega
  oneSided := matched.oneSided
  live queried other linked accepted := by
    have closed := matched.live_before held (by simp) queried
      (by simpa using linked) (fewer other accepted)
    cases queried with
    | send =>
        have full : chan.buffer.length = capacity := closed
        simpa [Chan.Fits, Chan.pop, shift_resume caller, found] using full
    | recv => simp [Chan.Closed, found] at closed
  scanning other held' := by simp [Chan.resume] at held'

private theorem refill_turn
    {sender : MsgId}
    {rest : List MsgId}
    {sent : Sent α}
    (matched : Matched program world capacity chan)
    (held : chan.call = some ⟨message, .shift⟩)
    (caller : (program.msg message).side = .recv)
    (fewer : ∀ message, fired.accepts program message = true →
      world.accepts program message = true)
    (waiting : chan.senders = sender :: rest)
    (room : chan.buffer.length ≠ capacity) :
    Matched program fired capacity
      (({ chan with senders := rest }.push sent).resume message (.returned .ok)) where
  bounded := by
    have bounded := matched.bounded
    simp only [Chan.buffer_resume, Chan.push, List.length_append, List.length_singleton]
    omega
  oneSided := .inr (matched.oneSided.resolve_left (by simp [waiting]))
  live queried other linked accepted := by
    have nobody : chan.recvers = [] := matched.oneSided.resolve_left (by simp [waiting])
    cases queried with
    | send =>
        have linked' : other ∈ chan.senders := by
          rw [waiting]
          exact List.mem_cons_of_mem _ linked
        have fits := matched.live .send other linked' (fewer other accepted)
        simp only [Chan.Fits, owed_shift caller held, if_true, Side.other_recv] at fits
        simpa [Chan.Fits, Chan.push, Chan.owed, Chan.resume] using fits
    | recv =>
        rw [show ((({ chan with senders := rest } : Chan α).push sent).resume message
          (.returned .ok)).queue .recv = chan.recvers from rfl, nobody] at linked
        simp at linked
  scanning other held' := by simp [Chan.resume] at held'

private theorem handOver_turn
    {recver : MsgId}
    {rest : List MsgId}
    {front : Sent α}
    {behind : List (Sent α)}
    (matched : Matched program world capacity chan)
    (held : chan.call = some ⟨message, .shift⟩)
    (caller : (program.msg message).side = .send)
    (fewer : ∀ message, fired.accepts program message = true →
      world.accepts program message = true)
    (waiting : chan.recvers = recver :: rest)
    (found : chan.buffer = front :: behind) :
    Matched program fired capacity
      (({ chan with recvers := rest }.pop recver front behind).resume message
        (.returned .ok)) where
  bounded := by
    have bounded := matched.bounded
    simp only [found, List.length_cons] at bounded
    simp only [Chan.buffer_resume, Chan.pop]
    omega
  oneSided := .inl (matched.oneSided.resolve_right (by simp [waiting]))
  live queried other linked accepted := by
    have nobody : chan.senders = [] := matched.oneSided.resolve_right (by simp [waiting])
    cases queried with
    | send =>
        rw [show ((({ chan with recvers := rest } : Chan α).pop recver front
          behind).resume message (.returned .ok)).queue .send = chan.senders from rfl,
          nobody] at linked
        simp at linked
    | recv =>
        have linked' : other ∈ chan.recvers := by
          rw [waiting]
          exact List.mem_cons_of_mem _ linked
        have fits := matched.live .recv other linked' (fewer other accepted)
        simp only [Chan.Fits, owed_shift caller held, if_true, Side.other_send, found,
          List.length_cons] at fits
        simpa [Chan.Fits, Chan.pop, Chan.owed, Chan.resume] using fits
  scanning other held' := by simp [Chan.resume] at held'

private theorem wait_turn
    {status : BaseChannel.TransferStatus}
    (matched : Matched program world capacity chan)
    (held : chan.call = some ⟨message, .scan⟩)
    (caller : (program.msg message).side = side)
    (alone : chan.queue side.other = []) :
    Matched program world capacity
      ((chan.link side message).resume message (.returned status)) where
  bounded := by
    have bounded := matched.bounded
    cases side <;> simpa [Chan.link, Chan.setQueue] using bounded
  oneSided := by
    cases side with
    | send => exact .inr alone
    | recv => exact .inl alone
  live queried other linked accepted := by
    have closed : chan.Closed capacity queried := by
      simp only [Chan.queue_resume] at linked
      by_cases same : queried = side
      · subst same
        simp only [Chan.link, Chan.queue_setQueue_self] at linked
        rcases List.mem_append.mp linked with before | last
        · exact matched.live_before held (by simp) _ before accepted
        · obtain rfl := List.mem_singleton.mp last
          have scanning := matched.scanning other held
          rw [caller, accepted] at scanning
          simpa using scanning
      · rw [Chan.link, Chan.queue_setQueue_of_ne chan same] at linked
        exact matched.live_before held (by simp) _ linked accepted
    cases side <;> cases queried <;>
      simpa [Chan.Fits, Chan.Closed, Chan.link, Chan.setQueue, Chan.owed, Chan.resume]
        using closed
  scanning other held' := by simp [Chan.resume] at held'

private theorem discard_turn
    {partner : MsgId}
    {rest : List MsgId}
    (matched : Matched program world capacity chan)
    (held : chan.call = some ⟨message, .shift⟩)
    (caller : (program.msg message).side = side)
    (waiting : chan.queue side.other = partner :: rest) :
    Matched program world capacity
      ((chan.setQueue side.other rest).resume message (.goto .shift)) := by
  refine matched.of_sublist (fun _ => id) ?_ (fun queried => ?_) (fun queried _ => ?_)
    (fun other held' => by simp [Chan.resume] at held')
  · cases side <;> rfl
  · by_cases same : queried = side.other
    · subst same
      simp [waiting]
    · simp [Chan.queue_setQueue_of_ne chan same]
  · rw [shift_resume caller, owed_shift caller held]

variable [Inhabited α]

/-- Every turn of a call keeps the queues fitting. -/
theorem turns
    {call : Call}
    {outcome : World α × Chan α × Next}
    (matched : Matched program world capacity chan)
    (held : chan.call = some call)
    (turn : Turn program capacity (program.msg call.message).side world chan
      call.message call.pc outcome) :
    Matched program outcome.1 capacity
      (outcome.2.1.resume call.message outcome.2.2) := by
  obtain ⟨message, pc⟩ := call
  have fewer : ∀ other, outcome.1.accepts program other = true →
      world.accepts program other = true :=
    fun other => turn.accepts_of_accepts
  generalize caller : (program.msg message).side = side at turn
  have beheaded : ∀ partner rest, chan.queue side.other = partner :: rest →
      ∀ queried, ((chan.setQueue side.other rest).queue queried).Sublist
        (chan.queue queried) := by
    intro partner rest waiting queried
    by_cases same : queried = side.other
    · subst same
      simp [waiting]
    · simp [Chan.queue_setQueue_of_ne chan same]
  have buffered : ∀ rest, (chan.setQueue side.other rest).buffer = chan.buffer := by
    intro rest
    cases side <;> rfl
  cases turn with
  | pass closed =>
      exact matched.idle_turn held caller fewer rfl (fun _ => .refl _) (.inl (by simp))
        (by simp) fun _ => closed
  | store sending room accepted =>
      exact matched.store_turn held (caller.trans sending) fewer room
  | fetch receiving found accepted =>
      exact matched.fetch_turn held (caller.trans receiving) fewer found
  | served alone =>
      exact matched.idle_turn held caller fewer rfl (fun _ => .refl _) (.inr alone)
        (by simp) (by simp)
  | refill receiving waiting room accepted =>
      exact matched.refill_turn held (caller.trans receiving) fewer waiting room
  | handOver sending waiting found accepted =>
      exact matched.handOver_turn held (caller.trans sending) fewer waiting found
  | discard waiting closed => exact matched.discard_turn held caller waiting
  | wait alone stays => exact matched.wait_turn held caller alone
  | giveUp alone oneshot =>
      exact matched.idle_turn held caller fewer rfl (fun _ => .refl _) (.inl (by simp))
        (by simp) (by simp)
  | exchange waiting separate accepted partnerAccepted =>
      exact matched.idle_turn held caller fewer (buffered _)
        (fun queried => by simpa using beheaded _ _ waiting queried) (.inl (by simp))
        (by simp) (by simp)
  | purge waiting partnerRefused =>
      exact matched.idle_turn held caller fewer (buffered _) (beheaded _ _ waiting)
        (.inl (by simp)) (by simp)
        fun _ => by simpa [caller] using matched.scanning message held
  | purgePlain receiving waiting plain refused =>
      subst receiving
      exact matched.idle_turn held caller fewer (buffered _) (beheaded _ _ waiting)
        (.inl (by simp)) (by simp)
        fun _ => by simpa [caller] using matched.scanning message held
  | abandon waiting refused =>
      exact matched.idle_turn held caller fewer rfl (fun _ => .refl _) (.inl (by simp))
        (by simp) (by simp)
  | abandonPlain sending waiting plain partnerRefused =>
      exact matched.idle_turn held caller fewer rfl (fun _ => .refl _) (.inl (by simp))
        (by simp) (by simp)
  | clash waiting shared =>
      exact matched.idle_turn held caller fewer rfl (fun _ => .refl _) (.inl (by simp))
        (by simp) (by simp)

/-- The queues fit the buffer in whatever happens to a channel. -/
theorem localInvariant : LocalInvariant program (Matched program) where
  initially _ := .initial
  shrinks _ _ _ _ fewer matched := matched.shrinks fewer
  enters _ _ _ message free matched := matched.enters free message
  turns _ _ _ _ _ held turn matched := matched.turns held turn
  drops _ _ _ message free matched := matched.drops free message

theorem of_reached
    {system : System α}
    (reached : System.Reached program system)
    (id : ChanId) :
    Matched program system.world (program.capacity id) (system.chan id) :=
  localInvariant.of_reached reached id

end Turns

/-- While nobody holds the lock, a live receiver waits for an empty buffer only. -/
theorem drained
    {world : World α}
    {capacity : Nat}
    {chan : Chan α}
    {recver : MsgId}
    (matched : Matched program world capacity chan)
    (free : chan.call = none)
    (linked : recver ∈ chan.recvers)
    (accepted : world.accepts program recver = true) :
    chan.buffer = [] := by
  have fits := matched.live .recv recver linked accepted
  rw [Chan.Fits, Chan.owed_of_free free] at fits
  exact List.length_eq_zero_iff.mp fits

/-- While nobody holds the lock, a live sender waits for a full buffer only. -/
theorem full
    {world : World α}
    {capacity : Nat}
    {chan : Chan α}
    {sender : MsgId}
    (matched : Matched program world capacity chan)
    (free : chan.call = none)
    (linked : sender ∈ chan.senders)
    (accepted : world.accepts program sender = true) :
    chan.buffer.length = capacity := by
  have fits := matched.live .send sender linked accepted
  rwa [Chan.Fits, Chan.owed_of_free free, Nat.add_zero] at fits

end Matched

/-- While nobody holds the lock of a channel, nothing that could be matched on it
waits. -/
theorem no_missed_match
    [Inhabited α]
    {system : System α}
    (reached : System.Reached program system)
    (id : ChanId)
    (free : (system.chan id).call = none) :
    (system.chan id).buffer.length ≤ program.capacity id ∧
      ((system.chan id).senders = [] ∨ (system.chan id).recvers = []) ∧
      (∀ recver ∈ (system.chan id).recvers,
        system.world.accepts program recver = true → (system.chan id).buffer = []) ∧
      (∀ sender ∈ (system.chan id).senders,
        system.world.accepts program sender = true →
          (system.chan id).buffer.length = program.capacity id) := by
  have matched := Matched.of_reached reached id
  exact ⟨matched.bounded, matched.oneSided,
    fun _ linked accepted => matched.drained free linked accepted,
    fun _ linked accepted => matched.full free linked accepted⟩

/-- A sender waits on channel 0.  In another run the select takes the value of message 4, its
other case stays linked, dead, and a live receiver waits on channel 2. -/
theorem no_missed_match_sample :
    let sending := System.after .sample [.enter 0, .turn 0, .turn 0]
    let receiving := System.after .sample [.enter 2, .turn 0, .turn 0, .enter 3, .turn 1,
      .turn 1, .enter 4, .turn 1, .turn 1, .enter 6, .turn 2, .turn 2]
    ((sending.chan 0).senders = [0] ∧
        (sending.chan 0).buffer.length = Program.sample.capacity 0) ∧
      ((receiving.chan 0).recvers = [2] ∧ receiving.world.accepts .sample 2 = false ∧
        (receiving.chan 0).senders = []) ∧
      (receiving.chan 2).recvers = [6] ∧ (receiving.chan 2).buffer = [] := by
  intro sending receiving
  have sends : System.Reached .sample sending := System.reached_after _ _
  have receives : System.Reached .sample receiving := System.reached_after _ _
  have linked : (sending.chan 0).senders = [0] := by decide
  have dead : (receiving.chan 0).recvers = [2] := by decide
  have waiting : (receiving.chan 2).recvers = [6] := by decide
  have full := (no_missed_match sends 0 (by decide)).2.2.2
  have oneSided := (no_missed_match receives 0 (by decide)).2.1
  have drained := (no_missed_match receives 2 (by decide)).2.2.1
  refine ⟨⟨linked, full 0 (by simp [linked]) (by decide)⟩, ⟨dead, by decide, ?_⟩, waiting,
    drained 6 (by simp [waiting]) (by decide)⟩
  simpa [dead] using oneSided

end Channel
end Cgo
