import Cgo.Channel.WellFormed
import Cgo.Coroutine.Intrusive

/-!
# The waiting messages in the intrusive list

The queues of the channels are lists in the system, and pointers in the source, which
links and unlinks messages without looking whether it may.  Here the channels run
together with the pointers, and the pointers are the lists.
-/

namespace Cgo
namespace Channel

open Coroutine

variable {α : Type}

/-- What waits on both sides of all channels. -/
def System.queues (system : System α) : Sequences (ChanId × Side) MsgId :=
  fun place => some ((system.chan place.1).queue place.2)

variable {program : Program α} {system after : System α}

/-- The other queue stays when one is set. -/
@[simp] theorem Chan.queue_setQueue_other (chan : Chan α) (side : Side) (waiting : List MsgId) :
    (chan.setQueue side waiting).queue side.other = chan.queue side.other := by
  cases side <;> rfl

theorem System.queues_initial : (System.initial program).queues = fun _ => some [] := by
  funext place
  simp [queues, initial]

/-- A turn that leaves both queues. -/
theorem System.queues_settle_kept
    {id : ChanId}
    {outcome : World α × Chan α × Next}
    (message : MsgId)
    (kept : ∀ side, outcome.2.1.queue side = (system.chan id).queue side) :
    (system.settle id message outcome).queues = system.queues := by
  funext place
  by_cases same : place.1 = id
  · simp [queues, settle, same, kept]
  · simp [queues, settle, same]

/-- A turn that takes the first of a queue. -/
theorem System.queues_settle_taken
    {id : ChanId}
    {outcome : World α × Chan α × Next}
    {side : Side}
    {partner : MsgId}
    {rest : List MsgId}
    (message : MsgId)
    (waiting : (system.chan id).queue side = partner :: rest)
    (taken : outcome.2.1.queue side = rest)
    (kept : outcome.2.1.queue side.other = (system.chan id).queue side.other) :
    (system.settle id message outcome).queues =
      system.queues.apply (.unlinkBack (id, side)) := by
  funext place
  obtain ⟨other, queried⟩ := place
  by_cases same : other = id
  · subst same
    cases side <;> cases queried <;>
      simp_all [queues, settle, Sequences.apply, Side.other]
  · simp [queues, settle, Sequences.apply, same]

/-- A turn that links the message. -/
theorem System.queues_settle_linked
    {id : ChanId}
    {outcome : World α × Chan α × Next}
    {side : Side}
    {message : MsgId}
    (linked : outcome.2.1 = (system.chan id).link side message) :
    (system.settle id message outcome).queues =
      system.queues.apply (.linkFront (id, side) message) := by
  funext place
  obtain ⟨other, queried⟩ := place
  by_cases same : other = id
  · subst same
    by_cases own : queried = side
    · subst own
      simp [queues, settle, Sequences.apply, Chan.link, linked]
    · simp [queues, settle, Sequences.apply, Chan.link, linked, own,
        Chan.queue_setQueue_of_ne _ own]
  · simp [queues, settle, Sequences.apply, same]

/-- A message in its call waits nowhere. -/
theorem WellFormed.unlinked_everywhere
    (wellFormed : WellFormed program system)
    {message : MsgId}
    (inCall : system.phase message = .inCall) :
    system.queues.Unlinked message := by
  intro place items waiting member
  obtain rfl := Option.some.inj waiting
  have returned := (wellFormed.queued place.1 place.2 message member).2.2.2
  rw [inCall] at returned
  simp at returned

variable [Inhabited α]

/-- Entering a channel changes no queue. -/
theorem System.queues_enter
    {message : MsgId}
    (stepped : System.step program system (.enter message) = some after) :
    after.queues = system.queues := by
  obtain ⟨_, _, rfl⟩ := System.step_enter stepped
  funext place
  by_cases same : place.1 = (program.msg message).chan
  · simp [queues, same]
  · simp [queues, same]

/-- A drop takes the message out of every queue. -/
theorem WellFormed.queues_drop
    (wellFormed : WellFormed program system)
    {message : MsgId}
    (stepped : System.step program system (.drop message) = some after) :
    after.queues = system.queues.apply (.unlinkThis message) := by
  obtain ⟨_, _, rfl⟩ := System.step_drop stepped
  funext place
  obtain ⟨id, side⟩ := place
  by_cases same : id = (program.msg message).chan
  · subst same
    simp [System.queues, Sequences.apply]
  · have elsewhere : message ∉ (system.chan id).queue side := by
      intro waits
      exact same (wellFormed.queued id side message waits).1.symm
    simp [System.queues, Sequences.apply, same, List.erase_of_not_mem elsewhere]

/-! ## The pointers -/

/-- The nodes of the messages, and the sentinels of the queues. -/
abbrev Pointers :=
  Links (QueueNode (ChanId × Side) MsgId)

namespace Pointers

variable (links : Pointers) (id : ChanId) (side : Side) (message : MsgId)

/-- A turn of `send_to` or `recv_from`.  The loop behind the buffer unlinks whoever is
first before it tries it, the loop over the partners afterwards. -/
def turn : Pc → Next → Pointers
  | .shift, _ =>
      if links.back (.head (id, side.other)) ≠ some (.tail (id, side.other)) then
        links.operate (.unlinkBack (id, side.other))
      else links
  | .scan, .returned .ok => links.operate (.unlinkBack (id, side.other))
  | .scan, .goto _ => links.operate (.unlinkBack (id, side.other))
  | .scan, .returned .inprocess => links.operate (.linkFront (id, side) message)
  | _, _ => links

variable (program : Program α) (system : System α)

/-- What a step of the channels does to the pointers. -/
def follow : Label → Pointers
  | .turn id =>
      match (system.chan id).call with
      | none => links
      | some call =>
          let outcome := BaseChannel.turn program (program.capacity id) system.world
            (system.chan id) call
          turn links id (program.msg call.message).side call.message call.pc outcome.2.2
  | .drop message => links.operate (.unlinkThis message)
  | _ => links

variable {links id side message program system}

omit [Inhabited α] in
/-- The first partner is unlinked. -/
theorem represents_taken
    {outcome : World α × Chan α × Next}
    {partner : MsgId}
    {rest : List MsgId}
    (represents : links.Represents system.queues)
    (waiting : (system.chan id).queue side = partner :: rest)
    (taken : outcome.2.1.queue side = rest)
    (kept : outcome.2.1.queue side.other = (system.chan id).queue side.other) :
    (links.operate (.unlinkBack (id, side))).Represents
      (system.settle id message outcome).queues := by
  rw [System.queues_settle_taken message waiting taken kept]
  refine represents.operate ?_
  simp [Sequences.Permitted, System.queues, waiting]

omit [Inhabited α] in
/-- Both queues stay. -/
theorem represents_kept
    {outcome : World α × Chan α × Next}
    (represents : links.Represents system.queues)
    (kept : ∀ side, outcome.2.1.queue side = (system.chan id).queue side) :
    links.Represents (system.settle id message outcome).queues := by
  rwa [System.queues_settle_kept message kept]

/-- The pointers follow every turn. -/
theorem represents_turn
    {outcome : World α × Chan α × Next}
    {pc : Pc}
    {capacity : Nat}
    (represents : links.Represents system.queues)
    (unlinked : system.queues.Unlinked message)
    (turned : Turn program capacity side system.world (system.chan id) message pc outcome) :
    (turn links id side message pc outcome.2.2).Represents
      (system.settle id message outcome).queues := by
  -- the test of the loop behind the buffer
  have empty : (system.chan id).queue side.other = [] ↔
      links.back (.head (id, side.other)) = some (.tail (id, side.other)) := by
    rw [represents.back_head_eq_tail, System.queues, Option.some_inj]
  cases turned with
  | pass => exact represents_kept represents fun _ => rfl
  | store => exact represents_kept represents (by simp)
  | fetch => exact represents_kept represents (by simp)
  | served alone =>
      have tested := empty.mp alone
      simp only [turn, tested, ne_eq, not_true_eq_false, if_false]
      exact represents_kept represents fun _ => rfl
  | @refill sender rest receiving waiting =>
      subst receiving
      have tested := mt empty.mpr (by simp [Side.other, Chan.queue, waiting])
      simp only [turn, tested, ne_eq, not_false_eq_true, if_true]
      exact represents_taken represents waiting rfl rfl
  | @handOver recver rest _ _ sending waiting =>
      subst sending
      have tested := mt empty.mpr (by simp [Side.other, Chan.queue, waiting])
      simp only [turn, tested, ne_eq, not_false_eq_true, if_true]
      exact represents_taken represents waiting rfl rfl
  | @discard partner rest waiting =>
      have tested := mt empty.mpr (by simp [waiting])
      simp only [turn, tested, ne_eq, not_false_eq_true, if_true]
      exact represents_taken represents waiting (by simp) (by simp)
  | wait alone stays =>
      simp only [turn]
      rw [System.queues_settle_linked rfl]
      exact represents.operate ⟨rfl, unlinked⟩
  | giveUp => exact represents_kept represents fun _ => rfl
  | exchange waiting =>
      exact represents_taken represents waiting (by simp) (by simp)
  | purge waiting => exact represents_taken represents waiting (by simp) (by simp)
  | purgePlain receiving waiting =>
      subst receiving
      exact represents_taken represents waiting rfl rfl
  | abandon =>
      cases side with
      | send => exact represents_kept represents fun _ => rfl
      | recv => exact represents_kept represents fun _ => rfl
  | abandonPlain =>
      cases side with
      | send => exact represents_kept represents fun _ => rfl
      | recv => exact represents_kept represents fun _ => rfl
  | clash => exact represents_kept represents fun _ => rfl

end Pointers

/-! ## The channels on the pointers -/

/-- The channels together with the pointers of the messages. -/
structure Linked (α : Type) where
  system : System α
  links : Pointers

namespace Linked

/-- Nothing is linked but the sentinels. -/
def initial {α : Type} (program : Program α) : Linked α where
  system := .initial program
  links := .ready

/-- A step of the channels, and what it does to the pointers. -/
def step (program : Program α) (linked : Linked α) (label : Label) : Option (Linked α) :=
  (linked.system.step program label).map fun after =>
    ⟨after, Pointers.follow linked.links program linked.system label⟩

variable {program : Program α} {linked : Linked α}

/-- The channels run as they do without the pointers. -/
theorem system_reached
    (reached : Lib.Reachable (step program) (initial program) linked) :
    System.Reached program linked.system := by
  refine reached.simulate Linked.system ?_
  intro before label after stepped
  obtain ⟨system, moved, rfl⟩ := Option.map_eq_some_iff.mp stepped
  exact .inr ⟨label, moved⟩

/-- Every step keeps the pointers those of the lists. -/
theorem represents_step
    {label : Label}
    {after : System α}
    (wellFormed : WellFormed program linked.system)
    (represents : linked.links.Represents linked.system.queues)
    (stepped : linked.system.step program label = some after) :
    (Pointers.follow linked.links program linked.system label).Represents after.queues := by
  cases label with
  | enter message =>
      rw [System.queues_enter stepped]
      exact represents
  | turn id =>
      obtain ⟨call, holds, rfl⟩ := System.step_turn stepped
      have unlinked := wellFormed.unlinked_everywhere (wellFormed.held id call holds).2
      have turned := turn_spec program (program.capacity id) linked.system.world
        (linked.system.chan id) call (wellFormed.unlinked holds _)
      simp only [Pointers.follow, holds]
      exact Pointers.represents_turn represents unlinked turned
  | fire select key =>
      obtain ⟨_, rfl⟩ := System.step_fire stepped
      exact represents
  | drop message =>
      rw [wellFormed.queues_drop stepped]
      exact represents.operate trivial

end Linked

/-- In every run the pointers are the lists: the chain of each queue of each channel
holds its messages in their order, no message is in two chains, and a message that
waits nowhere has no pointers. -/
theorem channel_queues_linked
    {program : Program α}
    {linked : Linked α}
    (reached : Lib.Reachable (Linked.step program) (Linked.initial program) linked) :
    linked.links.Represents linked.system.queues := by
  refine reached.invariant_of_reachable
    (fun linked => linked.links.Represents linked.system.queues) ?_ ?_
  · rw [show (Linked.initial program).system.queues = fun _ => some [] from
      System.queues_initial]
    exact Links.ready_represents
  · intro before label after prior represents stepped
    obtain ⟨system, moved, rfl⟩ := Option.map_eq_some_iff.mp stepped
    exact Linked.represents_step (WellFormed.of_reached (Linked.system_reached prior))
      represents moved

/-- A receive and a case of a select wait on channel 0; the case is dropped, and
two receives wait on channel 2. -/
private def crowding : List Label :=
  [.enter 1, .turn 0, .turn 0, .enter 2, .turn 0, .turn 0, .drop 2,
    .enter 6, .turn 2, .turn 2, .enter 8, .turn 2, .turn 2]

/-- The state after it. -/
private def crowded : Linked Nat :=
  Lib.runFrom (Linked.step .sample) (.initial .sample) crowding

theorem channel_queues_linked_sample :
    ((crowded.system.chan 0).recvers = [1] ∧ (crowded.system.chan 2).recvers = [6, 8]) ∧
      crowded.links.Represents crowded.system.queues :=
  ⟨by decide, channel_queues_linked (Lib.Reachable.runFrom _ _ _)⟩

end Channel
end Cgo
