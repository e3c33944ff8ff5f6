import Cgo.Channel.Delivery

/-!
# Which operations are lost

A call that returns for a live message that is to wait leaves it linked, and no
call unlinks a live message without serving it: both hold of every turn except
where a plain sender meets a receiver whose select has fired.  There
`BaseMsg::recv_from` refuses with `InvalidSrc`, which the callers read as a dead
sender, so the sender is forgotten instead of the receiver.
-/

namespace Cgo
namespace Channel

variable {α : Type}

/-- One transition of the system. -/
abbrev Move (α : Type) := Lib.Transition (System α) Label

/-- A call that returns for a live message that may wait leaves it linked. -/
def ReturnsLinked (program : Program α) (move : Move α) : Prop :=
  ∀ message status, move.before.phase message = .inCall →
    move.after.phase message = .returned status →
    (program.msg message).oneshot = false →
    move.after.world.Live program message →
      message ∈ (move.after.chan (program.msg message).chan).queue
        (program.msg message).side

/-- A call commits the live messages that it unlinks. -/
def UnlinksCommitted (program : Program α) (move : Move α) : Prop :=
  ∀ acting id side message, move.label = .turn acting →
    message ∈ (move.before.chan id).queue side →
    message ∉ (move.after.chan id).queue side →
    move.before.world.Live program message →
      move.after.world.commits message ≠ 0

/-- The call on a channel is about to pair a plain sender that may wait with a
receiver whose select has fired. -/
def Misjudges (program : Program α) (world : World α) (chan : Chan α) : Bool :=
  match chan.call with
  | some ⟨message, .scan⟩ =>
      let side := (program.msg message).side
      match chan.queue side.other with
      | [] => false
      | partner :: _ =>
          (program.select? (side.src message partner)).isNone &&
            !(program.msg (side.src message partner)).oneshot &&
              !world.accepts program (side.dst message partner)
  | _ => false

/-- The transition is a turn that misjudges its pair. -/
def Move.misjudges (program : Program α) (move : Move α) : Bool :=
  match move.label with
  | .turn id => Misjudges program move.before.world (move.before.chan id)
  | _ => false

section

variable {program : Program α}

theorem misjudges_iff
    {world : World α}
    {chan : Chan α}
    {message : MsgId}
    (held : chan.call = some ⟨message, .scan⟩)
    {partner : MsgId}
    {rest : List MsgId}
    (waiting : chan.queue (program.msg message).side.other = partner :: rest) :
    Misjudges program world chan = true ↔
      program.select? ((program.msg message).side.src message partner) = none ∧
        (program.msg ((program.msg message).side.src message partner)).oneshot = false ∧
          world.accepts program ((program.msg message).side.dst message partner) = false := by
  simp [Misjudges, held, waiting, and_assoc]

/-- A channel misjudges only while a call looks for a partner and one waits. -/
theorem misjudges_cases
    {world : World α}
    {chan : Chan α}
    (misjudges : Misjudges program world chan = true) :
    ∃ message partner rest, chan.call = some ⟨message, .scan⟩ ∧
      chan.queue (program.msg message).side.other = partner :: rest := by
  unfold Misjudges at misjudges
  split at misjudges
  · rename_i message held
    cases waiting : chan.queue (program.msg message).side.other with
    | nil => simp [waiting] at misjudges
    | cons partner rest => exact ⟨message, partner, rest, held, waiting⟩
  · simp at misjudges

variable [Inhabited α] {system after : System α}

/-- A call is in its first loop only after its message was served. -/
theorem serving_committed
    (reached : System.Reached program system) :
    ∀ id message, (system.chan id).call = some ⟨message, .shift⟩ →
      system.world.commits message ≠ 0 := by
  obtain ⟨_, path⟩ := reached
  induction path with
  | nil => simp [System.initial, Chan.initial]
  | @snoc _ before after label prior stepped serving =>
      intro id message serves
      have reached : System.Reached program before := ⟨_, prior⟩
      have stays : (before.chan id).call = some ⟨message, .shift⟩ →
          after.world.commits message ≠ 0 := fun held =>
        committed_of_step reached stepped (serving id message held)
      cases label with
      | enter other =>
          obtain ⟨_, _, rfl⟩ := System.step_enter stepped
          by_cases same : id = (program.msg other).chan
          · subst same
            simp at serves
          · exact stays (by simpa [Function.update_of_ne same] using serves)
      | fire select key =>
          obtain ⟨_, rfl⟩ := System.step_fire stepped
          exact stays serves
      | drop other =>
          obtain ⟨_, free, rfl⟩ := System.step_drop stepped
          by_cases same : id = (program.msg other).chan
          · subst same
            simp [Chan.unlinkThis, free] at serves
          · exact stays (by simpa [Function.update_of_ne same] using serves)
      | turn acting =>
          obtain ⟨call, outcome, held, turn, rfl⟩ := (WellFormed.of_reached reached).turn stepped
          by_cases same : id = acting
          · subst same
            simp only [System.settle, Function.update_self] at serves
            obtain ⟨own, next⟩ := Chan.call_resume serves
            obtain rfl : message = call.message := own
            rcases turn.committed_of_shift next with served | shift
            · exact served
            · exact stays (by rw [held, ← shift])
          · exact stays (by simpa [System.settle, Function.update_of_ne same] using serves)

omit [Inhabited α] in
/-- `BaseMsg::send_to` blames the plain source for the dead select of the
destination. -/
theorem sendTo_misjudged
    {world : World α}
    {src dst : MsgId}
    (different : src ≠ dst)
    (plain : program.select? src = none)
    (refused : world.accepts program dst = false) :
    BaseMsg.sendTo program world src dst = .ok (.invalidSrc, world) := by
  have separate : ¬program.SameSelect src dst := by
    rintro ⟨select, owned, _⟩
    simp [plain] at owned
  rw [BaseMsg.sendTo_eq program world different, if_neg separate]
  simp [plain, refused]

/-- A call that misjudges gives its own live send up, or unlinks a live sender. -/
private theorem lost_of_misjudges
    {id : ChanId}
    (reached : System.Reached program system)
    (stepped : System.step program system (.turn id) = some after)
    (misjudges : Misjudges program system.world (system.chan id) = true) :
    ¬(ReturnsLinked program ⟨system, .turn id, after⟩ ∧
      UnlinksCommitted program ⟨system, .turn id, after⟩) := by
  have wellFormed := WellFormed.of_reached reached
  have delivered := Delivered.of_reached reached
  obtain ⟨message, partner, rest, held, waiting⟩ := misjudges_cases misjudges
  obtain ⟨plain, stays, refused⟩ := (misjudges_iff held waiting).mp misjudges
  obtain ⟨call, held', rfl⟩ := System.step_turn stepped
  obtain rfl : call = ⟨message, .scan⟩ := Option.some.inj (held'.symm.trans held)
  have unlinked := fun side => wellFormed.unlinked held side
  have live : ∀ src, program.select? src = none → (system.chan id).Pending program src →
      system.world.Live program src := fun src plain pending =>
    ⟨delivered.uncommitted wellFormed pending, World.accepts_of_plain program _ plain⟩
  have own := (wellFormed.held id _ held).1
  cases side : (program.msg message).side with
  | send =>
      simp only [side, Side.src, Side.dst, Side.other_send] at plain stays refused waiting
      have different : message ≠ partner := by
        rintro rfl
        exact unlinked .recv (by simp [waiting])
      have outcome : BaseChannel.turn program (program.capacity id) system.world
          (system.chan id) ⟨message, .scan⟩ =
            (system.world, system.chan id, .returned .invalidSrc) := by
        have recvers : (system.chan id).recvers = partner :: rest := waiting
        simp [BaseChannel.turn, side, BaseChannel.recvFrom, recvers, BaseMsg.recvFrom,
          sendTo_misjudged different plain refused]
      rintro ⟨returns, -⟩
      have linked := returns message .invalidSrc (wellFormed.held id _ held).2
        (by simp [outcome, System.settle, Next.phase]) stays
        (by
          have isLive := live message plain (.inr ⟨.scan, by simp, held⟩)
          simpa [outcome, System.settle] using isLive)
      rw [own] at linked
      apply unlinked (program.msg message).side
      simpa [outcome, System.settle] using linked
  | recv =>
      simp only [side, Side.src, Side.dst, Side.other_recv] at plain stays refused waiting
      have different : partner ≠ message := by
        rintro rfl
        exact unlinked .send (by simp [waiting])
      have outcome : BaseChannel.turn program (program.capacity id) system.world
          (system.chan id) ⟨message, .scan⟩ =
            (system.world, (system.chan id).setQueue .send rest, .goto .scan) := by
        have senders : (system.chan id).senders = partner :: rest := waiting
        simp [BaseChannel.turn, side, BaseChannel.sendTo, senders,
          sendTo_misjudged different plain refused, Chan.setQueue]
      have linked : partner ∈ (system.chan id).queue .send := by simp [waiting]
      have partnerSide := (wellFormed.queued id .send partner linked).2.1
      have isLive := live partner plain (.inl (by rwa [partnerSide]))
      rintro ⟨-, unlinks⟩
      refine unlinks id id .send partner rfl linked ?_ isLive ?_
      · have nodup := wellFormed.nodup id .send
        rw [waiting] at nodup
        simpa [outcome, System.settle] using (List.nodup_cons.mp nodup).1
      · simpa [outcome, System.settle] using isLive.1

/-- Other steps than turns neither return a call nor, as calls, unlink. -/
private theorem kept_of_not_turn
    {label : Label}
    (stepped : System.step program system label = some after)
    (notTurn : ∀ id, label ≠ .turn id) :
    ReturnsLinked program ⟨system, label, after⟩ ∧
      UnlinksCommitted program ⟨system, label, after⟩ := by
  refine ⟨?_, fun acting _ _ _ isTurn => absurd isTurn (notTurn acting)⟩
  intro message status inCall returned
  simp only at inCall returned
  cases label with
  | turn id => exact absurd rfl (notTurn id)
  | enter other =>
      obtain ⟨fresh, _, rfl⟩ := System.step_enter stepped
      have different : message ≠ other := by
        rintro rfl
        rw [fresh] at inCall
        simp at inCall
      simp [different, inCall] at returned
  | fire select key =>
      obtain ⟨_, rfl⟩ := System.step_fire stepped
      simp [inCall] at returned
  | drop other =>
      obtain ⟨_, _, rfl⟩ := System.step_drop stepped
      simp [inCall] at returned

/-- A call that returns for a live message that may wait has linked it, unless
it misjudged. -/
private theorem returns_linked
    {id : ChanId}
    (reached : System.Reached program system)
    (stepped : System.step program system (.turn id) = some after)
    (judges : Misjudges program system.world (system.chan id) = false) :
    ReturnsLinked program ⟨system, .turn id, after⟩ := by
  have wellFormed := WellFormed.of_reached reached
  obtain ⟨call, outcome, held, turn, rfl⟩ := wellFormed.turn stepped
  have own := (wellFormed.held id call held).1
  intro message status inCall returned stays live
  simp only at inCall returned live ⊢
  obtain rfl : message = call.message := by
    by_contra different
    simp [System.settle, different, inCall] at returned
  obtain ⟨message, pc⟩ := call
  have accepted : system.world.accepts program message = true :=
    turn.accepts_of_accepts live.2
  have served : pc = .shift → outcome.1.commits message ≠ 0 := by
    rintro rfl
    exact committed_of_step reached stepped (serving_committed reached id message held)
  have pending : outcome.1.commits message = 0 := live.1
  have misjudges := @misjudges_iff _ program system.world (system.chan id) message
  simp only [own, System.settle, Function.update_self, Chan.queue_resume] at returned ⊢
  generalize callerSide : (program.msg message).side = side at turn misjudges
  cases turn with
  | wait alone stays => simp [Chan.link]
  | giveUp alone oneshot => simp [oneshot] at stays
  | abandon waiting refused => simp [refused] at accepted
  | abandonPlain sending waiting plain partnerRefused =>
      subst sending
      have wrong := (misjudges held waiting).mpr ⟨plain, stays, partnerRefused⟩
      simp [judges] at wrong
  | @exchange partner rest waiting separate accepted partnerAccepted =>
      cases side with
      | send => exact absurd pending (World.exchange_commits_src _ _ message partner)
      | recv => exact absurd pending (World.exchange_commits_dst _ _ partner message)
  | served alone => exact absurd pending (served rfl)
  | refill => exact absurd pending (served rfl)
  | handOver => exact absurd pending (served rfl)
  | _ => simp [Next.phase] at returned

/-- A call commits the live messages that it unlinks, unless it misjudged. -/
private theorem unlinks_committed
    {id : ChanId}
    (reached : System.Reached program system)
    (stepped : System.step program system (.turn id) = some after)
    (judges : Misjudges program system.world (system.chan id) = false) :
    UnlinksCommitted program ⟨system, .turn id, after⟩ := by
  have wellFormed := WellFormed.of_reached reached
  have matched := Matched.of_reached reached id
  obtain ⟨call, outcome, held, turn, rfl⟩ := wellFormed.turn stepped
  intro acting channel side message isTurn linked unlinked live
  obtain rfl : id = acting := Label.turn.inj isTurn
  simp only at linked unlinked live ⊢
  obtain rfl : channel = id := by
    by_contra different
    simp [System.settle, different, linked] at unlinked
  simp only [System.settle, Function.update_self, Chan.queue_resume] at unlinked ⊢
  obtain ⟨caller, pc⟩ := call
  have misjudges := @misjudges_iff _ program system.world (system.chan channel) caller
  -- only the head of a queue is unlinked
  have isHead : ∀ queried partner rest, (system.chan channel).queue queried = partner :: rest →
      message ∉ ((system.chan channel).setQueue queried rest).queue side →
        message = partner := by
    intro queried partner rest waiting gone
    by_cases same : side = queried
    · subst same
      rw [waiting] at linked
      rw [Chan.queue_setQueue_self] at gone
      exact (List.mem_cons.mp linked).resolve_right gone
    · rw [Chan.queue_setQueue_of_ne _ same] at gone
      exact absurd linked gone
  generalize callerSide : (program.msg caller).side = own at turn misjudges
  cases turn with
  | refill receiving waiting room accepted =>
      rw [Chan.queue_push] at unlinked
      obtain rfl := isHead .send _ _ waiting unlinked
      simp
  | handOver sending waiting found accepted =>
      rw [Chan.queue_pop] at unlinked
      obtain rfl := isHead .recv _ _ waiting unlinked
      simp
  | exchange waiting separate accepted partnerAccepted =>
      rw [Chan.queue_passOn] at unlinked
      obtain rfl := isHead _ _ _ waiting unlinked
      cases own with
      | send => exact World.exchange_commits_dst _ _ _ _
      | recv => exact World.exchange_commits_src _ _ _ _
  | @discard partner rest waiting closed =>
      obtain rfl := isHead _ _ _ waiting unlinked
      have head : message ∈ (system.chan channel).queue own.other := by simp [waiting]
      have opened := matched.open_of_shift held callerSide head live.2
      simp [closed.resolve_left opened, World.Live] at live
  | purge waiting partnerRefused =>
      obtain rfl := isHead _ _ _ waiting unlinked
      simp [partnerRefused, World.Live] at live
  | purgePlain receiving waiting plain refused =>
      subst receiving
      obtain rfl := isHead .send _ _ waiting unlinked
      have stays := (wellFormed.queued channel .send message (by simp [Chan.queue, waiting])).2.2.1
      have wrong := (misjudges held waiting).mpr ⟨plain, stays, refused⟩
      simp [judges] at wrong
  | wait alone stays =>
      by_cases same : side = own
      · subst same
        simp [Chan.link, linked] at unlinked
      · rw [Chan.link, Chan.queue_setQueue_of_ne _ same] at unlinked
        exact absurd linked unlinked
  | store => exact absurd linked (by simpa using unlinked)
  | fetch => exact absurd linked (by simpa using unlinked)
  | _ => exact absurd linked unlinked

/-- A step loses an operation exactly when it misjudges a pair. -/
theorem nothing_lost_iff
    {label : Label}
    (reached : System.Reached program system)
    (stepped : System.step program system label = some after) :
    (ReturnsLinked program ⟨system, label, after⟩ ∧
        UnlinksCommitted program ⟨system, label, after⟩) ↔
      Move.misjudges program ⟨system, label, after⟩ = false := by
  cases label with
  | turn id =>
      constructor
      · intro kept
        by_contra misjudges
        refine lost_of_misjudges reached stepped ?_ kept
        simpa [Move.misjudges] using misjudges
      · intro judges
        exact ⟨returns_linked reached stepped judges, unlinks_committed reached stepped judges⟩
  | enter message => exact ⟨fun _ => rfl, fun _ => kept_of_not_turn stepped (by simp)⟩
  | fire select key => exact ⟨fun _ => rfl, fun _ => kept_of_not_turn stepped (by simp)⟩
  | drop message => exact ⟨fun _ => rfl, fun _ => kept_of_not_turn stepped (by simp)⟩

/-- Every live operation whose call has returned and that may wait is linked. -/
def System.NothingLost (program : Program α) (system : System α) : Prop :=
  ∀ message status, system.phase message = .returned status →
    (program.msg message).oneshot = false → system.dropped message = false →
      system.world.Live program message →
        message ∈ (system.chan (program.msg message).chan).queue (program.msg message).side

/-- What a step says about a message that has returned after it. -/
private theorem before_returned
    {label : Label}
    {message : MsgId}
    {status : BaseChannel.TransferStatus}
    (stepped : System.step program system label = some after)
    (wellFormed : WellFormed program system)
    (returned : after.phase message = .returned status)
    (undropped : after.dropped message = false) :
    system.dropped message = false ∧
      (system.phase message = .returned status ∨ system.phase message = .inCall) := by
  cases label with
  | enter other =>
      obtain ⟨_, _, rfl⟩ := System.step_enter stepped
      refine ⟨undropped, .inl ?_⟩
      by_cases same : message = other
      · subst same
        simp at returned
      · simpa [same] using returned
  | turn id =>
      obtain ⟨call, held, rfl⟩ := System.step_turn stepped
      refine ⟨undropped, ?_⟩
      by_cases same : message = call.message
      · subst same
        exact .inr (wellFormed.held id call held).2
      · exact .inl (by simpa [System.settle, same] using returned)
  | fire select key =>
      obtain ⟨_, rfl⟩ := System.step_fire stepped
      exact ⟨undropped, .inl returned⟩
  | drop other =>
      obtain ⟨_, _, rfl⟩ := System.step_drop stepped
      refine ⟨?_, .inl returned⟩
      by_cases same : message = other
      · subst same
        simp at undropped
      · simpa [same] using undropped

/-- A step that is no turn unlinks only what it drops. -/
private theorem linked_of_undropped
    {label : Label}
    {id : ChanId}
    {side : Side}
    {message : MsgId}
    (stepped : System.step program system label = some after)
    (notTurn : ∀ id, label ≠ .turn id)
    (undropped : after.dropped message = false)
    (linked : message ∈ (system.chan id).queue side) :
    message ∈ (after.chan id).queue side := by
  cases label with
  | turn id => exact absurd rfl (notTurn id)
  | enter other =>
      obtain ⟨_, _, rfl⟩ := System.step_enter stepped
      by_cases same : id = (program.msg other).chan
      · subst same
        simpa using linked
      · simpa [Function.update_of_ne same] using linked
  | fire select key =>
      obtain ⟨_, rfl⟩ := System.step_fire stepped
      exact linked
  | drop other =>
      obtain ⟨_, _, rfl⟩ := System.step_drop stepped
      have different : message ≠ other := by
        rintro rfl
        simp at undropped
      by_cases same : id = (program.msg other).chan
      · subst same
        simpa using (List.mem_erase_of_ne different).mpr linked
      · simpa [Function.update_of_ne same] using linked

/-- Steps that lose nothing leave all live operations linked. -/
theorem System.NothingLost.step
    {label : Label}
    (nothingLost : system.NothingLost program)
    (reached : System.Reached program system)
    (stepped : System.step program system label = some after)
    (returns : ReturnsLinked program ⟨system, label, after⟩)
    (unlinks : UnlinksCommitted program ⟨system, label, after⟩) :
    after.NothingLost program := by
  have wellFormed := WellFormed.of_reached reached
  intro message status returned stays undropped live
  obtain ⟨undroppedBefore, returnedBefore | inCall⟩ :=
    before_returned stepped wellFormed returned undropped
  · have liveBefore : system.world.Live program message := by
      refine ⟨?_, wellFormed.accepts_of_step stepped live.2⟩
      by_contra committed
      exact committed_of_step reached stepped committed live.1
    have linked := nothingLost message status returnedBefore stays undroppedBefore liveBefore
    by_cases isTurn : ∃ acting, label = .turn acting
    · obtain ⟨acting, isTurn⟩ := isTurn
      by_contra unlinked
      exact unlinks acting _ _ message isTurn linked unlinked liveBefore live.1
    · exact linked_of_undropped stepped (not_exists.mp isTurn) undropped linked
  · exact returns message status inCall returned stays live

/-- A run loses no live operation exactly when no turn of it pairs a plain sender
with a receiver whose select has fired, and then every live operation that may
wait is linked at its end. -/
theorem nothing_lost
    {taken : List (Move α)}
    (path : Lib.Path (System.step program) (System.initial program) taken system) :
    ((∀ move ∈ taken, ReturnsLinked program move ∧ UnlinksCommitted program move) ↔
      ∀ move ∈ taken, move.misjudges program = false) ∧
    ((∀ move ∈ taken, move.misjudges program = false) → system.NothingLost program) := by
  constructor
  · exact path.forall_iff fun move reached stepped => nothing_lost_iff reached stepped
  · intro judges
    refine path.guarded_invariant judges ?_ fun before label after reached nothingLost judges
      stepped => ?_
    · intro message status returned
      simp [System.initial] at returned
    · obtain ⟨returns, unlinks⟩ := (nothing_lost_iff reached stepped).mpr judges
      exact nothingLost.step reached stepped returns unlinks

omit [Inhabited α] in
theorem nothing_lost_sample :
    let labels : List Label := [.enter 0, .turn 0, .turn 0, .enter 1, .turn 0, .turn 0]
    ∀ move ∈ Lib.trace (System.step .sample) (System.initial .sample) labels,
      ReturnsLinked .sample move ∧ UnlinksCommitted .sample move := by
  intro labels
  have path : Lib.Path (System.step .sample) (System.initial .sample)
      (Lib.trace (System.step .sample) (System.initial .sample) labels)
      (System.after .sample labels) := Lib.path_runFrom (by decide)
  exact (nothing_lost path).1.mpr (by decide)

omit [Inhabited α] in
/-- Receives 2 and 3 of select 0 wait on channels 0 and 1, and send 4 commits the
latter.  The plain send 0 then meets the dead receive 2 on channel 0: its call
returns `InvalidSrc`, and nobody will find it.  In the other run the plain send
0 waits on channel 0 when receive 2 takes the lock of that channel, and send 4
kills the select before receive 2 looks for a partner: send 0 is unlinked. -/
theorem operations_lost :
    (let before := System.after .sample [.enter 2, .turn 0, .turn 0, .enter 3, .turn 1,
        .turn 1, .enter 4, .turn 1, .turn 1, .enter 0, .turn 0]
      ∃ after, System.step .sample before (.turn 0) = some after ∧
        ¬ReturnsLinked .sample ⟨before, .turn 0, after⟩) ∧
    (let before := System.after .sample [.enter 0, .turn 0, .turn 0, .enter 3, .turn 1,
        .turn 1, .enter 2, .enter 4, .turn 1, .turn 1, .turn 0]
      ∃ after, System.step .sample before (.turn 0) = some after ∧
        ¬UnlinksCommitted .sample ⟨before, .turn 0, after⟩) := by
  refine ⟨⟨_, rfl, fun returns => ?_⟩, ⟨_, rfl, fun unlinks => ?_⟩⟩
  · have linked := returns 0 .invalidSrc (by decide) (by decide) rfl ⟨by decide, by decide⟩
    revert linked
    decide
  · have committed := unlinks 0 0 .send 0 rfl (by decide) (by decide) ⟨by decide, by decide⟩
    revert committed
    decide

end

end Channel
end Cgo
