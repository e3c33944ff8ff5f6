import Cgo.Channel.Locality
import Cgo.Channel.Select

/-!
# Messages the channels do not know

`BaseMsg::drop` against the transfers of other threads.  A message that was dropped, or
never entered, is linked nowhere and no call works for it, now or later, so what it
points to is not touched through it any more; and the drop takes nothing else out of a
queue.
-/

namespace Cgo
namespace Channel

variable {α : Type}

/-! ## Messages the channels do not know -/

/-- The message is linked in no queue and no call works for it. -/
structure System.Absent (system : System α) (message : MsgId) : Prop where
  unlinked : ∀ id side, message ∉ (system.chan id).queue side
  uncalled : ∀ id call, (system.chan id).call = some call → call.message ≠ message

section

variable {program : Program α} {system after : System α}

theorem WellFormed.absent_of_fresh
    (wellFormed : WellFormed program system)
    {message : MsgId}
    (fresh : system.phase message = .fresh) :
    system.Absent message where
  unlinked id side linked := by
    have returned := (wellFormed.queued id side message linked).2.2.2
    simp [fresh] at returned
  uncalled id call held same := by
    have inCall := (wellFormed.held id call held).2
    simp [same, fresh] at inCall

/-- Who is not in its call holds no lock. -/
theorem WellFormed.uncalled_of_ended
    (wellFormed : WellFormed program system)
    {message : MsgId}
    (ended : (system.phase message).Ended)
    (id : ChanId)
    (call : Call)
    (held : (system.chan id).call = some call) :
    call.message ≠ message := by
  rintro rfl
  have inCall := (wellFormed.held id call held).2
  simp [inCall, Phase.Ended] at ended

end

section

variable [Inhabited α] {program : Program α} {system after : System α}

/-- The call of a message that has ended does not begin again. -/
theorem System.ended_of_step
    {label : Label}
    {message : MsgId}
    (wellFormed : WellFormed program system)
    (stepped : System.step program system label = some after)
    (ended : (system.phase message).Ended) :
    (after.phase message).Ended := by
  cases label with
  | enter other =>
      obtain ⟨fresh, _, rfl⟩ := System.step_enter stepped
      have different : message ≠ other := by
        rintro rfl
        simp [fresh, Phase.Ended] at ended
      simpa [different] using ended
  | turn id =>
      obtain ⟨call, outcome, held, _, rfl⟩ := wellFormed.turn stepped
      have different := wellFormed.uncalled_of_ended ended id call held
      simpa [System.settle, different.symm] using ended
  | fire select key =>
      obtain ⟨_, rfl⟩ := System.step_fire stepped
      exact ended
  | drop other =>
      obtain ⟨_, _, rfl⟩ := System.step_drop stepped
      exact ended

/-- A message whose call has ended is not linked again. -/
theorem System.unlinked_of_step
    {label : Label}
    {message : MsgId}
    (wellFormed : WellFormed program system)
    (stepped : System.step program system label = some after)
    (ended : (system.phase message).Ended)
    (unlinked : ∀ id side, message ∉ (system.chan id).queue side)
    (id : ChanId)
    (side : Side) :
    message ∉ (after.chan id).queue side := by
  have before := unlinked id side
  cases label with
  | enter other =>
      obtain ⟨_, _, rfl⟩ := System.step_enter stepped
      rcases eq_or_ne id (program.msg other).chan with rfl | apart
      · simpa using before
      · simpa [apart] using before
  | turn acting =>
      obtain ⟨call, outcome, held, turn, rfl⟩ := wellFormed.turn stepped
      have different := wellFormed.uncalled_of_ended ended acting call held
      rcases eq_or_ne id acting with rfl | apart
      · rcases turn.queue_cases side with kept | ⟨_, partner, head⟩ | ⟨_, linkedLast, _⟩
        · simpa [System.settle, kept] using before
        · rw [head] at before
          simpa [System.settle] using List.not_mem_of_not_mem_cons before
        · simp [System.settle, linkedLast, before, different.symm]
      · simpa [System.settle, apart] using before
  | fire select key =>
      obtain ⟨_, rfl⟩ := System.step_fire stepped
      exact before
  | drop other =>
      obtain ⟨_, _, rfl⟩ := System.step_drop stepped
      rcases eq_or_ne id (program.msg other).chan with rfl | apart
      · simpa using fun linked => before (List.mem_of_mem_erase linked)
      · simpa [apart] using before

/-- A drop takes its message out of the queues, and nothing else out of the
channels. -/
theorem System.drop_spec
    {message : MsgId}
    (wellFormed : WellFormed program system)
    (stepped : System.step program system (.drop message) = some after)
    (id : ChanId) :
    (∀ side, (after.chan id).queue side =
      ((system.chan id).queue side).filter (· ≠ message)) ∧
      (after.chan id).buffer = (system.chan id).buffer := by
  obtain ⟨_, _, rfl⟩ := System.step_drop stepped
  rcases eq_or_ne id (program.msg message).chan with rfl | apart
  · refine ⟨fun side => ?_, by simp [Chan.unlinkThis]⟩
    simp only [Function.update_self, Chan.queue_unlinkThis]
    rw [(wellFormed.nodup _ side).erase_eq_filter]
    refine List.filter_congr fun other _ => ?_
    rw [Bool.eq_iff_iff]
    simp
  · refine ⟨fun side => ?_, by simp [apart]⟩
    rw [List.filter_eq_self.mpr]
    · simp [apart]
    · intro other linked
      have here := (wellFormed.queued id side other linked).1
      rw [decide_eq_true_eq]
      rintro rfl
      exact apart here.symm

/-- A dropped message stays dropped. -/
theorem System.dropped_of_step
    {label : Label}
    {message : MsgId}
    (stepped : System.step program system label = some after)
    (dropped : system.dropped message = true) :
    after.dropped message = true := by
  cases label with
  | enter other =>
      obtain ⟨_, _, rfl⟩ := System.step_enter stepped
      exact dropped
  | turn id =>
      obtain ⟨_, _, rfl⟩ := System.step_turn stepped
      exact dropped
  | fire select key =>
      obtain ⟨_, rfl⟩ := System.step_fire stepped
      exact dropped
  | drop other =>
      obtain ⟨_, _, rfl⟩ := System.step_drop stepped
      rcases eq_or_ne message other with rfl | different
      · simp
      · simpa [different] using dropped

/-- A dropped message has ended its call and is linked nowhere. -/
theorem System.unlinked_of_dropped
    {message : MsgId}
    (reached : System.Reached program system)
    (dropped : system.dropped message = true) :
    (system.phase message).Ended ∧ ∀ id side, message ∉ (system.chan id).queue side := by
  revert dropped
  refine reached.invariant_of_reachable (fun system => system.dropped message = true →
    (system.phase message).Ended ∧ ∀ id side, message ∉ (system.chan id).queue side) ?_ ?_
  · simp [System.initial]
  · intro before label after reached idle stepped dropped
    have wellFormed := WellFormed.of_reached reached
    cases earlier : before.dropped message with
    | true =>
        obtain ⟨ended, unlinked⟩ := idle earlier
        exact ⟨System.ended_of_step wellFormed stepped ended,
          System.unlinked_of_step wellFormed stepped ended unlinked⟩
    | false =>
        cases label with
        | enter other =>
            obtain ⟨_, _, rfl⟩ := System.step_enter stepped
            simp [earlier] at dropped
        | turn id =>
            obtain ⟨_, _, rfl⟩ := System.step_turn stepped
            simp [System.settle, earlier] at dropped
        | fire select key =>
            obtain ⟨_, rfl⟩ := System.step_fire stepped
            simp [earlier] at dropped
        | drop other =>
            have spec := System.drop_spec wellFormed stepped
            obtain ⟨ended, _, rfl⟩ := System.step_drop stepped
            obtain rfl : message = other := by
              by_contra different
              simp [different, earlier] at dropped
            refine ⟨ended, fun id side => ?_⟩
            rw [(spec id).1 side]
            simp

/-- The channels do not know a dropped message. -/
theorem System.absent_of_dropped
    {message : MsgId}
    (reached : System.Reached program system)
    (dropped : system.dropped message = true) :
    system.Absent message := by
  obtain ⟨ended, unlinked⟩ := System.unlinked_of_dropped reached dropped
  exact ⟨unlinked, (WellFormed.of_reached reached).uncalled_of_ended ended⟩

/-! ## Places the channels do not touch -/

/-- Whatever turn comes next, it neither reads nor writes the places: their
contents can be changed before the turn as well as after it. -/
def System.Blind (program : Program α) (system : System α) (places : Places) : Prop :=
  ∀ chan call, (system.chan chan).call = some call → ∀ other : World α,
    BaseChannel.turn program (program.capacity chan) (system.world.overwrite places other)
        (system.chan chan) call =
      (BaseChannel.turn program (program.capacity chan) system.world
        (system.chan chan) call).map (World.overwrite · places other) id

/-- The channels touch only what the messages they know point to. -/
theorem WellFormed.blind
    (wellFormed : WellFormed program system)
    {places : Places}
    (spares : ∀ message, ¬system.Absent message → program.Spares places message) :
    system.Blind program places := by
  intro id call held other
  apply BaseChannel.turn_overwrite
  · exact wellFormed.unlinked held
  · exact spares _ fun absent => absent.uncalled id call held rfl
  · exact fun side partner linked =>
      spares partner fun absent => absent.unlinked id side linked

/-- A turn leaves in the places what they held. -/
theorem System.Blind.kept
    {places : Places}
    (blind : system.Blind program places)
    {id : ChanId}
    (stepped : System.step program system (.turn id) = some after) :
    World.SameAt places system.world after.world := by
  obtain ⟨call, held, rfl⟩ := System.step_turn stepped
  have same := congrArg Prod.fst (blind id call held system.world)
  rw [World.overwrite_self] at same
  exact World.SameAt.of_overwrite same.symm

end

/-! ## Operations -/

/-- A channel operation: a plain send or receive, or a select. -/
inductive Operation
  | plain (message : MsgId)
  | select (select : SelectId)
  deriving DecidableEq

namespace Operation

variable (program : Program α)

/-- The messages of an operation. -/
def Uses : Operation → MsgId → Prop
  | .plain own, message => message = own
  | .select owner, message => program.select? message = some owner

/-- Only messages of the operation point to the places, and to each of the
selects one does. -/
structure Owns (operation : Operation) (places : Places) : Prop where
  spares : ∀ message, ¬operation.Uses program message → program.Spares places message
  used : ∀ select, places.selects select = true →
    ∃ message, operation.Uses program message ∧ program.select? message = some select

end Operation

namespace Selecting

section

variable {program : Program α}

variable [Inhabited α] {selects : Selects program} {state after : Selecting α}

/-- The loop of a select goes over its own cases, and a case that has entered is
in `_msgs` until it is dropped. -/
structure Tracked (program : Program α) (state : Selecting α) : Prop where
  remaining : ∀ select, ∀ message ∈ (state.pc select).remaining,
    program.select? message = some select
  listed : ∀ message select, program.select? message = some select →
    state.system.phase message ≠ .fresh →
      message ∈ state.msgs select ∨ state.system.dropped message = true

/-- A step of the channels keeps the mark of a case it does not enter. -/
theorem Tracked.beside
    {action : Channel.Label}
    {system : System α}
    {message : MsgId}
    (wellFormed : WellFormed program state.system)
    (stepped : System.step program state.system action = some system)
    (notEntered : action ≠ .enter message)
    (entered : system.phase message ≠ .fresh) :
    state.system.phase message ≠ .fresh := by
  cases action with
  | enter other =>
      obtain ⟨_, _, rfl⟩ := System.step_enter stepped
      have different : message ≠ other := fun same => notEntered (by rw [same])
      simpa [different] using entered
  | turn id =>
      obtain ⟨call, outcome, held, _, rfl⟩ := wellFormed.turn stepped
      have inCall := (wellFormed.held id call held).2
      rcases eq_or_ne message call.message with rfl | different
      · simp [inCall]
      · simpa [System.settle, different] using entered
  | fire select key =>
      obtain ⟨_, rfl⟩ := System.step_fire stepped
      exact entered
  | drop other =>
      obtain ⟨_, _, rfl⟩ := System.step_drop stepped
      exact entered

theorem Tracked.step
    {label : Label}
    (tracked : Tracked program state)
    (wellFormed : WellFormed program state.system)
    (stepped : Selecting.step selects state label = some after) :
    Tracked program after := by
  have listed := tracked.listed
  have remaining := tracked.remaining
  -- a step of the channels alone, which enters no case of a select
  have beside : ∀ action system, System.step program state.system action = some system →
      ∀ message select, program.select? message = some select → action ≠ .enter message →
        system.phase message ≠ .fresh →
          message ∈ state.msgs select ∨ system.dropped message = true := by
    intro action system acted message select owned notEntered entered
    have before := Tracked.beside wellFormed acted notEntered entered
    exact (listed message select owned before).imp_right (System.dropped_of_step acted)
  -- a select that goes to another point keeps its remaining listeners, or some of them
  have going : ∀ select pc, (∀ message ∈ Select.Pc.remaining pc,
      program.select? message = some select) → ∀ other,
        ∀ message ∈ (Function.update state.pc select pc other).remaining,
          program.select? message = some other := by
    intro select pc own other message member
    rcases eq_or_ne other select with rfl | different
    · exact own message (by simpa using member)
    · exact remaining other message (by simpa [different] using member)
  cases move_of_step stepped with
  | @enter other system plain entering =>
      refine ⟨remaining, fun message select owned => ?_⟩
      refine beside _ system entering message select owned ?_
      rintro ⟨rfl⟩
      simp [owned] at plain
  | turn turned =>
      exact ⟨remaining, fun message select owned => beside _ _ turned message select owned
        (by simp)⟩
  | drop _ dropping =>
      exact ⟨remaining, fun message select owned => beside _ _ dropping message select owned
        (by simp)⟩
  | @go _ select pc _ _ listens =>
      refine ⟨going select pc fun message member => ?_, listed⟩
      exact (listens message member).elim (remaining select message) id
  | @fire select key system deciding isDefault firing =>
      refine ⟨going select _ (by simp [Select.Pc.remaining]), fun message owner owned => ?_⟩
      exact beside _ system firing message owner owned (by simp)
  | @poll select polled listeners system polling entering =>
      have own : ∀ message ∈ polled :: listeners, program.select? message = some select := by
        intro message member
        exact remaining select message (by rwa [polling])
      refine ⟨going select _ fun message member => own message (List.mem_cons_of_mem _ member),
        fun message owner owned entered => ?_⟩
      rcases eq_or_ne message polled with rfl | different
      · obtain rfl : owner = select :=
          Option.some.inj (owned.symm.trans (own message List.mem_cons_self))
        exact .inl (by simp)
      · have notEntered : (.enter polled : Channel.Label) ≠ .enter message := by
          rintro ⟨rfl⟩
          exact different rfl
        refine (beside _ system entering message owner owned notEntered entered).imp_left ?_
        intro member
        rcases eq_or_ne owner select with rfl | apart
        · simp [member]
        · simpa [apart] using member
  | @dropNext select dropped msgs system ended next dropping =>
      refine ⟨remaining, fun message owner owned entered => ?_⟩
      rcases beside _ system dropping message owner owned (by simp) entered with member | gone
      · rcases eq_or_ne owner select with rfl | different
        · rw [next] at member
          rcases List.mem_cons.mp member with rfl | later
          · right
            obtain ⟨_, _, rfl⟩ := System.step_drop dropping
            simp
          · exact .inl (by simpa using later)
        · exact .inl (by simpa [different] using member)
      · exact .inr gone

theorem Tracked.of_reached (reached : Reached selects state) : Tracked program state := by
  refine reached.invariant_of_reachable (Tracked program) ?_ ?_
  · constructor
    · simp [initial, Select.Pc.remaining]
    · simp [initial, System.initial]
  · intro before label after reached tracked stepped
    exact tracked.step (WellFormed.of_reached (system_reached reached)) stepped

/-- The channels know no message of the operation, and no select of its messages is about
to take its default key. -/
structure Quiet (program : Program α) (state : Selecting α) (operation : Operation) : Prop where
  absent : ∀ message, operation.Uses program message → state.system.Absent message
  undecided : ∀ message select, operation.Uses program message →
    program.select? message = some select → state.pc select ≠ .decide

theorem Quiet.blind
    {operation : Operation}
    {places : Places}
    (quiet : Quiet program state operation)
    (reached : Reached selects state)
    (owns : operation.Owns program places) :
    state.system.Blind program places := by
  apply (WellFormed.of_reached (system_reached reached)).blind
  intro message known
  apply owns.spares
  exact fun uses => known (quiet.absent message uses)

/-- No step touches what only a quiet operation points to. -/
theorem Quiet.sameAt
    {label : Label}
    {operation : Operation}
    {places : Places}
    (quiet : Quiet program state operation)
    (reached : Reached selects state)
    (owns : operation.Owns program places)
    (stepped : Selecting.step selects state label = some after) :
    World.SameAt places state.system.world after.system.world := by
  cases move_of_step stepped with
  | enter _ entering =>
      obtain ⟨_, _, rfl⟩ := System.step_enter entering
      exact .refl _
  | turn turned => exact (quiet.blind reached owns).kept turned
  | drop _ dropping =>
      obtain ⟨_, _, rfl⟩ := System.step_drop dropping
      exact .refl _
  | go => exact .refl _
  | poll _ entering =>
      obtain ⟨_, _, rfl⟩ := System.step_enter entering
      exact .refl _
  | @fire select key system deciding _ firing =>
      obtain ⟨_, rfl⟩ := System.step_fire firing
      -- the select that takes its default is none of the places
      have apart : ∀ other, places.selects other = true → other ≠ select := by
        rintro other isTaken rfl
        obtain ⟨message, uses, owned⟩ := owns.used other isTaken
        exact quiet.undecided message other uses owned deciding
      have kept : World.SameAt places state.system.world state.system.world := .refl _
      exact { kept with key := fun other isTaken => by simp [apart other isTaken] }
  | dropNext _ _ dropping =>
      obtain ⟨_, _, rfl⟩ := System.step_drop dropping
      exact .refl _

/-! ## Selects that meet themselves -/

/-- The step is a turn of a call that looks for a partner and comes upon a case
of its own select. -/
def Clashes (program : Program α) (state : Selecting α) : Label → Prop
  | .turn id => ∃ call ∈ (state.system.chan id).call, call.pc = .scan ∧
      ∃ partner ∈ ((state.system.chan id).queue (program.msg call.message).side.other).head?,
        program.SameSelect call.message partner
  | _ => False

instance (label : Label) : Decidable (Clashes program state label) :=
  match label with
  | .turn id => inferInstanceAs (Decidable (∃ call ∈ (state.system.chan id).call,
      call.pc = .scan ∧
        ∃ partner ∈ ((state.system.chan id).queue (program.msg call.message).side.other).head?,
          program.SameSelect call.message partner))
  | .enter _ | .drop _ | .start _ _ | .poll _ | .resume _ | .check _ | .decide _ | .wake _
  | .destroy _ | .dropNext _ => inferInstanceAs (Decidable False)

omit [Inhabited α] in
/-- Only a select with a send and a receive on one channel can come upon itself. -/
theorem mixed_of_clashes
    {id : ChanId}
    (wellFormed : WellFormed program state.system)
    (clashes : Clashes program state (.turn id)) :
    ∃ sender recver, program.SameSelect sender recver ∧
      (program.msg sender).side = .send ∧ (program.msg recver).side = .recv ∧
      (program.msg sender).chan = id ∧ (program.msg recver).chan = id := by
  obtain ⟨call, held, -, partner, head, select, owned, partnerOwned⟩ := clashes
  have here := (wellFormed.held id call held).1
  obtain ⟨there, side, -, -⟩ :=
    wellFormed.queued id _ partner (List.mem_of_mem_head? head)
  cases own : (program.msg call.message).side with
  | send =>
      rw [own] at side
      exact ⟨call.message, partner, ⟨select, owned, partnerOwned⟩, own, side, here, there⟩
  | recv =>
      rw [own] at side
      exact ⟨partner, call.message, ⟨select, partnerOwned, owned⟩, side, own, there, here⟩

/-- Nothing has been thrown. -/
structure Calm (state : Selecting α) : Prop where
  phase : ∀ message error, state.system.phase message ≠ .threw error
  pc : ∀ select error, state.pc select ≠ .threw error

omit [Inhabited α] in
theorem Calm.initial : Calm (Selecting.initial program) where
  phase := by simp [Selecting.initial, System.initial]
  pc := by simp [Selecting.initial]

/-- A call throws only when it comes upon a case of its own select. -/
theorem clashes_of_threw
    {side : Side}
    {capacity : Nat}
    {world : World α}
    {chan : Chan α}
    {message : MsgId}
    {pc : Pc}
    {outcome : World α × Chan α × Next}
    {error : String}
    (turn : Turn program capacity side world chan message pc outcome)
    (threw : outcome.2.2 = .threw error) :
    pc = .scan ∧ ∃ partner ∈ (chan.queue side.other).head?,
      program.SameSelect message partner := by
  cases turn with
  | @clash partner rest waiting shared =>
      refine ⟨rfl, partner, by simp [waiting], ?_⟩
      cases side with
      | send => exact shared
      | recv =>
          obtain ⟨select, partnerOwned, owned⟩ := shared
          exact ⟨select, owned, partnerOwned⟩
  | _ => simp at threw

theorem Calm.system_step
    {action : Channel.Label}
    {system : System α}
    (calm : ∀ message error, state.system.phase message ≠ .threw error)
    (wellFormed : WellFormed program state.system)
    (stepped : System.step program state.system action = some system)
    (unclashed : ∀ id, action = .turn id → ¬Clashes program state (.turn id)) :
    ∀ message error, system.phase message ≠ .threw error := by
  intro message error
  cases action with
  | enter other =>
      obtain ⟨_, _, rfl⟩ := System.step_enter stepped
      rcases eq_or_ne message other with rfl | different
      · simp
      · simpa [different] using calm message error
  | turn id =>
      obtain ⟨call, outcome, held, turn, rfl⟩ := wellFormed.turn stepped
      rcases eq_or_ne message call.message with rfl | different
      · intro threw
        have threw' : outcome.2.2.phase = .threw error := by
          simpa [System.settle] using threw
        cases next : outcome.2.2 with
        | goto pc => simp [next, Next.phase] at threw'
        | returned status => simp [next, Next.phase] at threw'
        | threw text => exact unclashed id rfl ⟨call, held, clashes_of_threw turn next⟩
      · simpa [System.settle, different] using calm message error
  | fire select key =>
      obtain ⟨_, rfl⟩ := System.step_fire stepped
      exact calm message error
  | drop other =>
      obtain ⟨_, _, rfl⟩ := System.step_drop stepped
      exact calm message error

theorem Calm.step
    {label : Label}
    (calm : Calm state)
    (wellFormed : WellFormed program state.system)
    (unclashed : ¬Clashes program state label)
    (stepped : Selecting.step selects state label = some after) :
    Calm after := by
  -- a select that goes to a point where it has not thrown
  have going : ∀ select pc, (∀ error, pc ≠ .threw error) → ∀ other error,
      Function.update state.pc select pc other ≠ .threw error := by
    intro select pc quiet other error
    rcases eq_or_ne other select with rfl | different
    · simpa using quiet error
    · simpa [different] using calm.pc other error
  cases move_of_step stepped with
  | enter _ entering =>
      exact ⟨Calm.system_step calm.phase wellFormed entering (by simp), calm.pc⟩
  | turn turned =>
      refine ⟨Calm.system_step calm.phase wellFormed turned ?_, calm.pc⟩
      rintro id ⟨rfl⟩
      exact unclashed
  | drop _ dropping =>
      exact ⟨Calm.system_step calm.phase wellFormed dropping (by simp), calm.pc⟩
  | go _ _ _ threw =>
      refine ⟨calm.phase, going _ _ ?_⟩
      rintro error rfl
      obtain ⟨message, calledThrew⟩ := threw error rfl
      exact calm.phase message error calledThrew
  | poll _ entering =>
      exact ⟨Calm.system_step calm.phase wellFormed entering (by simp), going _ _ (by simp)⟩
  | fire _ _ firing =>
      exact ⟨Calm.system_step calm.phase wellFormed firing (by simp), going _ _ (by simp)⟩
  | dropNext _ _ dropping =>
      exact ⟨Calm.system_step calm.phase wellFormed dropping (by simp), calm.pc⟩

omit [Inhabited α] in
/-- Where no select sends and receives on one channel, none comes upon itself. -/
theorem unclashed_of_unmixed
    {label : Label}
    (unmixed : ∀ sender recver, program.SameSelect sender recver →
      (program.msg sender).side = .send → (program.msg recver).side = .recv →
        (program.msg sender).chan ≠ (program.msg recver).chan)
    (wellFormed : WellFormed program state.system) :
    ¬Clashes program state label := by
  intro clashes
  cases label with
  | turn id =>
      obtain ⟨sender, recver, same, sends, receives, here, there⟩ :=
        mixed_of_clashes wellFormed clashes
      exact unmixed sender recver same sends receives (here.trans there.symm)
  | _ => exact clashes

end

end Selecting

end Channel
end Cgo
