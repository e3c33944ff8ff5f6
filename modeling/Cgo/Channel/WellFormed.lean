import Cgo.Channel.Turn
import Mathlib.Data.List.Nodup

/-!
# Where the messages are

A message is linked at most once, only in the queue of its own side of its own
channel, and only after its call returned without serving it; the lock of a
channel is held by exactly the messages that are in their call.  From this the
turns of a call are the listed ones, and an invariant of a single channel needs
to be checked only against these, against entering, against drops and against
selects that fire elsewhere.
-/

namespace Cgo
namespace Channel

variable {α : Type} (program : Program α)

/-- Where the messages of a system are. -/
structure WellFormed (system : System α) : Prop where
  /-- Who holds a lock is a message of the channel, in its call. -/
  held : ∀ id call, (system.chan id).call = some call →
    (program.msg call.message).chan = id ∧ system.phase call.message = .inCall
  /-- A message in its call holds the lock of its channel. -/
  inCall : ∀ message, system.phase message = .inCall →
    ∃ pc, (system.chan (program.msg message).chan).call = some ⟨message, pc⟩
  /-- What is linked is where it belongs, and its call has returned. -/
  queued : ∀ id side message, message ∈ (system.chan id).queue side →
    (program.msg message).chan = id ∧ (program.msg message).side = side ∧
      (program.msg message).oneshot = false ∧
        system.phase message = .returned .inprocess
  /-- Nothing is linked twice. -/
  nodup : ∀ id side, ((system.chan id).queue side).Nodup
  /-- The history of entries holds every message that is no longer fresh. -/
  entered : ∀ id side message, message ∈ (system.chan id).entered side ↔
    (program.msg message).chan = id ∧ (program.msg message).side = side ∧
      system.phase message ≠ .fresh
  /-- Nothing enters twice. -/
  entered_nodup : ∀ id side, ((system.chan id).entered side).Nodup

namespace WellFormed

variable {program} {system after : System α}

theorem initial : WellFormed program (System.initial program) where
  held := by simp [System.initial, Chan.initial]
  inCall := by simp [System.initial]
  queued := by simp [System.initial]
  nodup := by simp [System.initial]
  entered := by simp [System.initial]
  entered_nodup := by simp [System.initial]

/-- Who holds the lock is linked nowhere in the channel. -/
theorem unlinked
    (wellFormed : WellFormed program system)
    {id : ChanId}
    {call : Call}
    (holds : (system.chan id).call = some call)
    (side : Side) :
    call.message ∉ (system.chan id).queue side := by
  intro linked
  have inCall := (wellFormed.held id call holds).2
  have returned := (wellFormed.queued id side _ linked).2.2.2
  rw [inCall] at returned
  simp at returned

variable [Inhabited α]

/-- A step of a call is one of the listed turns. -/
theorem turn
    (wellFormed : WellFormed program system)
    {id : ChanId}
    (stepped : System.step program system (.turn id) = some after) :
    ∃ call outcome, (system.chan id).call = some call ∧
      Turn program (program.capacity id) (program.msg call.message).side
        system.world (system.chan id) call.message call.pc outcome ∧
      after = system.settle id call.message outcome := by
  obtain ⟨call, holds, settled⟩ := System.step_turn stepped
  refine ⟨call, _, holds, turn_spec program _ _ _ _ ?_, settled⟩
  exact wellFormed.unlinked holds _

private theorem step_enter
    (wellFormed : WellFormed program system)
    {message : MsgId}
    (stepped : System.step program system (.enter message) = some after) :
    WellFormed program after := by
  obtain ⟨fresh, free, rfl⟩ := System.step_enter stepped
  have unqueued : ∀ id side, message ∉ (system.chan id).queue side := by
    intro id side linked
    have returned := (wellFormed.queued id side message linked).2.2.2
    rw [fresh] at returned
    simp at returned
  constructor
  · intro id call holds
    by_cases same : id = (program.msg message).chan
    · subst same
      obtain rfl : (⟨message, .buffer⟩ : Call) = call := by simpa using holds
      simp
    · simp only [Function.update_of_ne same] at holds
      obtain ⟨own, inCall⟩ := wellFormed.held id call holds
      have different : call.message ≠ message := by
        intro equal
        rw [equal, fresh] at inCall
        simp at inCall
      exact ⟨own, by simpa [different] using inCall⟩
  · intro other inCall
    by_cases same : other = message
    · subst same
      exact ⟨.buffer, by simp⟩
    · simp only [Function.update_of_ne same] at inCall
      obtain ⟨pc, holds⟩ := wellFormed.inCall other inCall
      have apart : (program.msg other).chan ≠ (program.msg message).chan := by
        intro equal
        rw [equal, free] at holds
        simp at holds
      exact ⟨pc, by simpa [Function.update_of_ne apart] using holds⟩
  · intro id side other linked
    have linked' : other ∈ (system.chan id).queue side := by
      by_cases same : id = (program.msg message).chan
      · subst same
        simpa using linked
      · simpa [Function.update_of_ne same] using linked
    have different : other ≠ message := by
      rintro rfl
      exact unqueued id side linked'
    simpa [different] using wellFormed.queued id side other linked'
  · intro id side
    by_cases same : id = (program.msg message).chan
    · subst same
      simpa using wellFormed.nodup _ side
    · simpa [Function.update_of_ne same] using wellFormed.nodup id side
  · intro id side other
    by_cases same : id = (program.msg message).chan
    · subst same
      by_cases sides : side = (program.msg message).side
      · subst sides
        by_cases equal : other = message
        · subst equal
          simp
        · simpa [equal] using wellFormed.entered _ _ other
      · by_cases equal : other = message
        · subst equal
          have absent := wellFormed.entered (program.msg other).chan side other
          simp [Chan.entered_enter_of_ne _ sides, absent, fresh, Ne.symm sides]
        · simpa [Chan.entered_enter_of_ne _ sides, equal] using
            wellFormed.entered _ side other
    · by_cases equal : other = message
      · subst equal
        have absent := wellFormed.entered id side other
        simp [Function.update_of_ne same, absent, fresh, Ne.symm same]
      · simpa [Function.update_of_ne same, equal] using
          wellFormed.entered id side other
  · intro id side
    by_cases same : id = (program.msg message).chan
    · subst same
      by_cases sides : side = (program.msg message).side
      · subst sides
        have absent : message ∉ (system.chan (program.msg message).chan).entered
            (program.msg message).side := by
          simp [wellFormed.entered, fresh]
        simp only [Function.update_self, Chan.entered_enter_self]
        exact (wellFormed.entered_nodup _ _).append (List.nodup_singleton _)
          (by simpa using absent)
      · simpa [Chan.entered_enter_of_ne _ sides] using wellFormed.entered_nodup _ side
    · simpa [Function.update_of_ne same] using wellFormed.entered_nodup id side

private theorem step_turn
    (wellFormed : WellFormed program system)
    {id : ChanId}
    (stepped : System.step program system (.turn id) = some after) :
    WellFormed program after := by
  obtain ⟨call, outcome, holds, turn, rfl⟩ := wellFormed.turn stepped
  obtain ⟨own, inCall⟩ := wellFormed.held id call holds
  -- another message is in its call exactly when another channel's lock is held
  have others : ∀ other call', (system.chan other).call = some call' → other ≠ id →
      call'.message ≠ call.message := by
    intro other call' holds' apart equal
    have foreign := (wellFormed.held other call' holds').1
    rw [equal, own] at foreign
    exact apart foreign.symm
  constructor
  · intro other call' holds'
    by_cases same : other = id
    · subst same
      simp only [System.settle, Function.update_self] at holds'
      obtain ⟨message, next⟩ := Chan.call_resume holds'
      rw [message]
      exact ⟨own, by simp [System.settle, next, Next.phase]⟩
    · simp only [System.settle, Function.update_of_ne same] at holds'
      obtain ⟨own', inCall'⟩ := wellFormed.held other call' holds'
      have different := others other call' holds' same
      exact ⟨own', by simpa [System.settle, different] using inCall'⟩
  · intro message inCall'
    by_cases same : message = call.message
    · subst same
      simp only [System.settle, Function.update_self] at inCall'
      cases next : outcome.2.2 with
      | goto pc =>
          exact ⟨pc, by simp [System.settle, own, next, Chan.resume]⟩
      | returned status => simp [next, Next.phase] at inCall'
      | threw error => simp [next, Next.phase] at inCall'
    · simp only [System.settle, Function.update_of_ne same] at inCall'
      obtain ⟨pc, holds'⟩ := wellFormed.inCall message inCall'
      have apart : (program.msg message).chan ≠ id := by
        intro equal
        rw [equal, holds] at holds'
        exact same (by rw [Option.some.inj holds'])
      exact ⟨pc, by simpa [System.settle, Function.update_of_ne apart] using holds'⟩
  · intro other side message linked
    by_cases same : other = id
    · subst same
      simp only [System.settle, Function.update_self, Chan.queue_resume] at linked
      have keeps : ∀ message ∈ (system.chan other).queue side,
          (program.msg message).chan = other ∧ (program.msg message).side = side ∧
            (program.msg message).oneshot = false ∧
              (system.settle other call.message outcome).phase message =
                .returned .inprocess := by
        intro message linked'
        have different : message ≠ call.message := by
          rintro rfl
          exact wellFormed.unlinked holds side linked'
        simpa [System.settle, different] using
          wellFormed.queued other side message linked'
      rcases turn.queue_cases side with kept | ⟨_, partner, head⟩ |
          ⟨sides, linkedLast, returned, stays⟩
      · rw [kept] at linked
        exact keeps message linked
      · refine keeps message ?_
        rw [head]
        exact List.mem_cons_of_mem _ linked
      · rw [linkedLast] at linked
        rcases List.mem_append.mp linked with before | last
        · exact keeps message before
        · obtain rfl := List.mem_singleton.mp last
          exact ⟨own, sides.symm, stays, by simp [System.settle, returned, Next.phase]⟩
    · simp only [System.settle, Function.update_of_ne same] at linked
      have place := wellFormed.queued other side message linked
      have different : message ≠ call.message := by
        rintro rfl
        exact same (place.1.symm.trans own)
      simpa [System.settle, different] using place
  · intro other side
    by_cases same : other = id
    · subst same
      simp only [System.settle, Function.update_self, Chan.queue_resume]
      have before := wellFormed.nodup other side
      rcases turn.queue_cases side with kept | ⟨_, partner, head⟩ | ⟨_, linkedLast, _⟩
      · rwa [kept]
      · rw [head] at before
        exact (List.nodup_cons.mp before).2
      · rw [linkedLast]
        exact before.append (List.nodup_singleton _)
          (by simpa using wellFormed.unlinked holds side)
    · simpa [System.settle, Function.update_of_ne same] using
        wellFormed.nodup other side
  · intro other side message
    have before := wellFormed.entered other side message
    have unchanged : ((system.settle id call.message outcome).chan other).entered side =
        (system.chan other).entered side := by
      by_cases same : other = id
      · subst same
        simp [System.settle, turn.entered_eq]
      · simp [System.settle, Function.update_of_ne same]
    rw [unchanged, before]
    by_cases equal : message = call.message
    · subst equal
      have started : outcome.2.2.phase ≠ .fresh := by
        cases outcome.2.2 <;> simp [Next.phase]
      simp [System.settle, inCall, started]
    · simp [System.settle, equal]
  · intro other side
    have before := wellFormed.entered_nodup other side
    by_cases same : other = id
    · subst same
      simpa [System.settle, turn.entered_eq] using before
    · simpa [System.settle, Function.update_of_ne same] using before

private theorem step_drop
    (wellFormed : WellFormed program system)
    {message : MsgId}
    (stepped : System.step program system (.drop message) = some after) :
    WellFormed program after := by
  obtain ⟨_, free, rfl⟩ := System.step_drop stepped
  have calls : ∀ id, ((Function.update system.chan (program.msg message).chan
      ((system.chan (program.msg message).chan).unlinkThis message)) id).call =
        (system.chan id).call := by
    intro id
    by_cases same : id = (program.msg message).chan
    · subst same
      simp [Chan.unlinkThis]
    · simp [Function.update_of_ne same]
  have queues : ∀ id side, ((Function.update system.chan (program.msg message).chan
      ((system.chan (program.msg message).chan).unlinkThis message)) id).queue side
        |>.Sublist ((system.chan id).queue side) := by
    intro id side
    by_cases same : id = (program.msg message).chan
    · subst same
      simpa using List.erase_sublist
    · simp [Function.update_of_ne same]
  have entries : ∀ id side, ((Function.update system.chan (program.msg message).chan
      ((system.chan (program.msg message).chan).unlinkThis message)) id).entered side =
        (system.chan id).entered side := by
    intro id side
    by_cases same : id = (program.msg message).chan
    · subst same
      simp
    · simp [Function.update_of_ne same]
  constructor
  · intro id call holds
    rw [calls] at holds
    exact wellFormed.held id call holds
  · intro other inCall
    simpa only [calls] using wellFormed.inCall other inCall
  · intro id side other linked
    exact wellFormed.queued id side other ((queues id side).subset linked)
  · intro id side
    exact (queues id side).nodup (wellFormed.nodup id side)
  · intro id side other
    rw [entries]
    exact wellFormed.entered id side other
  · intro id side
    rw [entries]
    exact wellFormed.entered_nodup id side

/-- Every step keeps the messages where they belong. -/
theorem step
    (wellFormed : WellFormed program system)
    {label : Label}
    (stepped : System.step program system label = some after) :
    WellFormed program after := by
  cases label with
  | enter message => exact step_enter wellFormed stepped
  | turn id => exact step_turn wellFormed stepped
  | fire select key =>
      obtain ⟨_, rfl⟩ := System.step_fire stepped
      exact ⟨wellFormed.held, wellFormed.inCall, wellFormed.queued, wellFormed.nodup,
        wellFormed.entered, wellFormed.entered_nodup⟩
  | drop message => exact step_drop wellFormed stepped

theorem of_reached (reached : System.Reached program system) :
    WellFormed program system :=
  reached.invariant initial fun _ _ _ wellFormed stepped => wellFormed.step stepped

/-- A select that has fired stays so. -/
theorem accepts_of_step
    (wellFormed : WellFormed program system)
    {label : Label}
    (stepped : System.step program system label = some after)
    {message : MsgId}
    (accepted : after.world.accepts program message = true) :
    system.world.accepts program message = true := by
  cases label with
  | enter other =>
      obtain ⟨_, _, rfl⟩ := System.step_enter stepped
      exact accepted
  | turn id =>
      obtain ⟨call, outcome, _, turn, rfl⟩ := wellFormed.turn stepped
      exact turn.accepts_of_accepts accepted
  | fire select key =>
      obtain ⟨_, rfl⟩ := System.step_fire stepped
      exact World.accepts_of_accepts_fire program system.world accepted
  | drop other =>
      obtain ⟨_, _, rfl⟩ := System.step_drop stepped
      exact accepted

end WellFormed

/-! ## Invariants of one channel -/

section

variable [Inhabited α]

/-- A property of one channel that survives everything that can happen to it:
its own steps, and selects that fire while it looks elsewhere. -/
structure LocalInvariant (Holds : World α → Nat → Chan α → Prop) : Prop where
  initially : ∀ capacity, Holds (.initial program) capacity .initial
  shrinks : ∀ world fired capacity chan,
    (∀ message, World.accepts fired program message = true →
      world.accepts program message = true) →
    Holds world capacity chan → Holds fired capacity chan
  enters : ∀ world capacity chan message, chan.call = none →
    Holds world capacity chan →
      Holds world capacity (chan.enter (program.msg message).side message)
  turns : ∀ world capacity chan call outcome, chan.call = some call →
    Turn program capacity (program.msg call.message).side world chan call.message
      call.pc outcome →
    Holds world capacity chan →
      Holds outcome.1 capacity (outcome.2.1.resume call.message outcome.2.2)
  drops : ∀ world capacity chan message, chan.call = none →
    Holds world capacity chan → Holds world capacity (chan.unlinkThis message)

namespace LocalInvariant

variable {program} {Holds : World α → Nat → Chan α → Prop}

/-- One step of the system keeps a local invariant of every channel. -/
theorem step
    {system after : System α}
    {label : Label}
    (localInvariant : LocalInvariant program Holds)
    (wellFormed : WellFormed program system)
    (holds : ∀ id, Holds system.world (program.capacity id) (system.chan id))
    (stepped : System.step program system label = some after)
    (id : ChanId) :
    Holds after.world (program.capacity id) (after.chan id) := by
  cases label with
  | enter message =>
      obtain ⟨_, free, rfl⟩ := System.step_enter stepped
      by_cases same : id = (program.msg message).chan
      · subst same
        simpa using localInvariant.enters _ _ _ message free (holds _)
      · simpa [Function.update_of_ne same] using holds id
  | turn acting =>
      obtain ⟨call, outcome, held, turn, rfl⟩ := wellFormed.turn stepped
      by_cases same : id = acting
      · subst same
        simpa [System.settle] using
          localInvariant.turns _ _ _ call outcome held turn (holds id)
      · simp only [System.settle, Function.update_of_ne same]
        exact localInvariant.shrinks _ _ _ _ (fun _ => turn.accepts_of_accepts) (holds id)
  | fire select key =>
      obtain ⟨_, rfl⟩ := System.step_fire stepped
      exact localInvariant.shrinks _ _ _ _
        (fun _ => World.accepts_of_accepts_fire program system.world) (holds id)
  | drop message =>
      obtain ⟨_, free, rfl⟩ := System.step_drop stepped
      by_cases same : id = (program.msg message).chan
      · subst same
        simpa using localInvariant.drops _ _ _ message free (holds _)
      · simpa [Function.update_of_ne same] using holds id

/-- A local invariant holds of all channels in every reachable state. -/
theorem of_reached
    {system : System α}
    (localInvariant : LocalInvariant program Holds)
    (reached : System.Reached program system)
    (id : ChanId) :
    Holds system.world (program.capacity id) (system.chan id) := by
  have everywhere : ∀ id,
      Holds system.world (program.capacity id) (system.chan id) := by
    obtain ⟨_, path⟩ := reached
    induction path with
    | nil => exact fun id => localInvariant.initially _
    | snoc prior stepped inductionHypothesis =>
        exact localInvariant.step (WellFormed.of_reached ⟨_, prior⟩)
          inductionHypothesis stepped
  exact everywhere id

end LocalInvariant

end

end Channel
end Cgo
