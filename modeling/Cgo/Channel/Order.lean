import Cgo.Channel.Delivery
import Cgo.Lib.Precedes
import Mathlib.Data.List.Sublists

/-!
# First in, first out

Of each side of a channel the messages that were served, then the live ones that
are linked, then the one in its call form a sublist of the messages in the order
they entered.  A turn serves nobody but the first of the live ones, so nobody
overtakes a live message queued before it, and values leave in the order in
which their senders entered.
-/

namespace Cgo
namespace Channel

variable {α : Type} {program : Program α}

namespace Chan

/-- The messages of a side that were served, oldest first. -/
def served (chan : Chan α) : Side → List MsgId
  | .send => chan.taken.map Sent.origin
  | .recv => chan.given.map Given.target

/-- The message of a side that is in its call and has not been served. -/
def calling (program : Program α) (chan : Chan α) (side : Side) : List MsgId :=
  match chan.call with
  | some ⟨message, .buffer⟩ => if (program.msg message).side = side then [message] else []
  | some ⟨message, .scan⟩ => if (program.msg message).side = side then [message] else []
  | _ => []

/-- The live messages of a side that have not been served, in the order in which
they are to be served. -/
def waiting (program : Program α) (world : World α) (chan : Chan α) (side : Side) :
    List MsgId :=
  (chan.queue side).filter (world.accepts program) ++ chan.calling program side

theorem calling_of_free
    {chan : Chan α}
    (free : chan.call = none)
    (side : Side) : chan.calling program side = [] := by
  simp [calling, free]

theorem calling_of_shift
    {chan : Chan α}
    {message : MsgId}
    (held : chan.call = some ⟨message, .shift⟩)
    (side : Side) : chan.calling program side = [] := by
  simp [calling, held]

theorem calling_of_pc
    {chan : Chan α}
    {message : MsgId}
    {pc : Pc}
    (held : chan.call = some ⟨message, pc⟩)
    (outside : pc ≠ .shift)
    (side : Side) :
    chan.calling program side = if (program.msg message).side = side then [message] else [] := by
  cases pc with
  | buffer => simp [calling, held]
  | scan => simp [calling, held]
  | shift => exact absurd rfl outside

@[simp] theorem served_resume (chan : Chan α) (message : MsgId) (next : Next) (side : Side) :
    (chan.resume message next).served side = chan.served side := by
  cases side <;> simp [served]

@[simp] theorem served_setQueue (chan : Chan α) (queried side : Side)
    (linked : List MsgId) : (chan.setQueue queried linked).served side = chan.served side := by
  cases queried <;> cases side <;> rfl

@[simp] theorem served_push_send (chan : Chan α) (sent : Sent α) :
    (chan.push sent).served .send = chan.served .send ++ [sent.origin] := by
  simp [served, push]

@[simp] theorem served_pop_recv (chan : Chan α) (target : MsgId) (front : Sent α)
    (rest : List (Sent α)) :
    (chan.pop target front rest).served .recv = chan.served .recv ++ [target] := by
  simp [served, pop]

@[simp] theorem served_passOn_send (chan : Chan α) (target : MsgId) (sent : Sent α) :
    (chan.passOn target sent).served .send = chan.served .send ++ [sent.origin] := by
  simp [served, passOn]

@[simp] theorem served_passOn_recv (chan : Chan α) (target : MsgId) (sent : Sent α) :
    (chan.passOn target sent).served .recv = chan.served .recv ++ [target] := by
  simp [served, passOn]

theorem served_of_sameValues
    {chan after : Chan α}
    (same : SameValues chan after)
    (side : Side) : after.served side = chan.served side := by
  cases side with
  | send => rw [served, same.taken, served]
  | recv => rw [served, same.given, served]

/-- Of each side, the messages whose values were handed over, in that order: a
sender's when a receiver gets it, a receiver's when it is given one. -/
def handed (chan : Chan α) : Side → List MsgId
  | .send => chan.given.map fun given => given.sent.origin
  | .recv => chan.given.map Given.target

/-- The messages that were served and those that wait are in the order of
entrance. -/
def Ordered (program : Program α) (world : World α) (chan : Chan α) : Prop :=
  ∀ side, (chan.served side ++ chan.waiting program world side).Sublist (chan.entered side)

end Chan

/-- What a turn does to one side of a channel: it serves at most one message, the
first that waits, and nobody new waits behind the others. -/
def Serves (program : Program α) (world moved : World α) (chan after : Chan α)
    (side : Side) : Prop :=
  ∃ served rest, served.length ≤ 1 ∧ after.served side = chan.served side ++ served ∧
    chan.waiting program world side = served ++ rest ∧
    (after.waiting program moved side).Sublist rest

section

variable {world moved : World α} {chan after : Chan α} {side : Side}

/-- Fewer live messages wait when the queue is a part of what it was. -/
private theorem filter_sublist
    {linked left : List MsgId}
    (fewer : ∀ message, moved.accepts program message = true →
      world.accepts program message = true)
    (part : left.Sublist linked) :
    (left.filter (moved.accepts program)).Sublist (linked.filter (world.accepts program)) :=
  (List.monotone_filter_right left fewer).trans (part.filter _)

/-- Nobody is served, and nobody new waits. -/
theorem Serves.nobody
    (fewer : ∀ message, moved.accepts program message = true →
      world.accepts program message = true)
    (served : after.served side = chan.served side)
    (queue : (after.queue side).Sublist (chan.queue side))
    (calling : (after.calling program side).Sublist (chan.calling program side)) :
    Serves program world moved chan after side :=
  ⟨[], chan.waiting program world side, by simp, by simp [served], rfl,
    (filter_sublist fewer queue).append calling⟩

/-- The head of the queue is served. -/
theorem Serves.head
    {partner : MsgId}
    {rest : List MsgId}
    (fewer : ∀ message, moved.accepts program message = true →
      world.accepts program message = true)
    (linked : chan.queue side = partner :: rest)
    (accepted : world.accepts program partner = true)
    (served : after.served side = chan.served side ++ [partner])
    (queue : after.queue side = rest)
    (calling : after.calling program side = []) :
    Serves program world moved chan after side := by
  refine ⟨[partner], rest.filter (world.accepts program) ++ chan.calling program side,
    by simp, served, by simp [Chan.waiting, linked, accepted], ?_⟩
  rw [Chan.waiting, queue, calling, List.append_nil]
  exact (filter_sublist fewer (.refl rest)).trans (List.sublist_append_left _ _)

/-- The message in its call is served while no live message is linked. -/
theorem Serves.caller
    {message : MsgId}
    (fewer : ∀ message, moved.accepts program message = true →
      world.accepts program message = true)
    (nobody : ∀ other ∈ chan.queue side, world.accepts program other = false)
    (called : chan.calling program side = [message])
    (served : after.served side = chan.served side ++ [message])
    (queue : after.queue side = chan.queue side)
    (calling : after.calling program side = []) :
    Serves program world moved chan after side := by
  have none_ : (chan.queue side).filter (world.accepts program) = [] := by
    rw [List.filter_eq_nil_iff]
    intro other linked
    simp [nobody other linked]
  refine ⟨[message], [], by simp, served, by simp [Chan.waiting, none_, called], ?_⟩
  have waiting := filter_sublist fewer (.refl (chan.queue side))
  rw [none_, ← queue] at waiting
  simpa [Chan.waiting, calling] using waiting

end

section

variable [Inhabited α] {world : World α} {capacity : Nat} {chan : Chan α}

/-- Nobody enters by a turn. -/
private theorem calling_sublist
    {call : Call}
    {outcome : World α × Chan α × Next}
    (held : chan.call = some call)
    (turn : Turn program capacity (program.msg call.message).side world chan
      call.message call.pc outcome)
    (side : Side) :
    ((outcome.2.1.resume call.message outcome.2.2).calling program side).Sublist
      (chan.calling program side) := by
  cases next : outcome.2.2 with
  | returned status => simp [Chan.calling, Chan.resume]
  | threw error => simp [Chan.calling, Chan.resume]
  | goto pc =>
      have after : (outcome.2.1.resume call.message (.goto pc)).call =
          some ⟨call.message, pc⟩ := rfl
      by_cases shift : pc = .shift
      · subst shift
        simp [Chan.calling_of_shift after]
      · have outside := (turn.unmoved_of_goto next shift).2
        rw [Chan.calling_of_pc after shift, Chan.calling_of_pc held outside]

/-- A turn that serves nobody on a side and links nobody there. -/
private theorem serves_nobody
    {message : MsgId}
    {pc : Pc}
    {outcome : World α × Chan α × Next}
    {side : Side}
    (held : chan.call = some ⟨message, pc⟩)
    (turn : Turn program capacity (program.msg message).side world chan message pc outcome)
    (served : outcome.2.1.served side = chan.served side)
    (queue : (outcome.2.1.queue side).Sublist (chan.queue side)) :
    Serves program world outcome.1 chan (outcome.2.1.resume message outcome.2.2) side :=
  .nobody (fun _ => turn.accepts_of_accepts) (by simpa using served) (by simpa using queue)
    (calling_sublist held turn side)

omit [Inhabited α] in
/-- A turn that serves its own message while no live message is linked. -/
private theorem serves_caller
    {message : MsgId}
    {pc : Pc}
    {next : Next}
    {moved : World α}
    {after : Chan α}
    {side : Side}
    (held : chan.call = some ⟨message, pc⟩)
    (outside : pc ≠ .shift)
    (own : (program.msg message).side = side)
    (nobody : ∀ other ∈ chan.queue side, world.accepts program other = false)
    (fewer : ∀ other, moved.accepts program other = true →
      world.accepts program other = true)
    (served : after.served side = chan.served side ++ [message])
    (queue : after.queue side = chan.queue side)
    (calling : (after.resume message next).calling program side = []) :
    Serves program world moved chan (after.resume message next) side := by
  have called : chan.calling program side = [message] := by
    rw [Chan.calling_of_pc held outside, if_pos own]
  exact .caller fewer nobody called (by simpa using served) (by simpa using queue) calling

/-- Every turn serves, on both sides, at most the first who waits. -/
theorem Turn.serves
    {call : Call}
    {outcome : World α × Chan α × Next}
    (matched : Matched program world capacity chan)
    (held : chan.call = some call)
    (turn : Turn program capacity (program.msg call.message).side world chan
      call.message call.pc outcome)
    (side : Side) :
    Serves program world outcome.1 chan (outcome.2.1.resume call.message outcome.2.2)
      side := by
  obtain ⟨message, pc⟩ := call
  have fewer : ∀ other, outcome.1.accepts program other = true →
      world.accepts program other = true := fun _ => turn.accepts_of_accepts
  have quiet := @serves_nobody _ program _ _ _ _ _ _ _ side held turn
  have beheaded : ∀ queried partner rest, chan.queue queried = partner :: rest →
      ((chan.setQueue queried rest).queue side).Sublist (chan.queue side) := by
    intro queried partner rest waiting
    by_cases same : side = queried
    · subst same
      simp [waiting]
    · simp [Chan.queue_setQueue_of_ne chan same]
  have dead : ∀ queried, ¬chan.Closed capacity queried → pc ≠ .shift →
      ∀ other ∈ chan.queue queried, world.accepts program other = false := by
    intro queried opened outside other linked
    by_contra accepted
    exact opened (matched.live_before held outside queried linked (by simpa using accepted))
  revert turn
  generalize callerSide : (program.msg message).side = caller
  intro turn
  cases turn with
  | store sending room accepted =>
      cases side with
      | send =>
          exact serves_caller held (by simp) (callerSide.trans sending)
            (dead .send room (by simp)) fewer (by simp [World.offer]) (by simp) rfl
      | recv => exact quiet rfl (by simp)
  | fetch receiving found accepted =>
      cases side with
      | send => exact quiet rfl (by simp)
      | recv =>
          have opened : ¬chan.Closed capacity .recv := by simp [Chan.Closed, found]
          exact serves_caller held (by simp) (callerSide.trans receiving)
            (dead .recv opened (by simp)) fewer (by simp) (by simp) rfl
  | refill receiving waiting room accepted =>
      cases side with
      | send =>
          refine .head fewer waiting accepted ?_ rfl rfl
          rw [Chan.served_resume, Chan.served_push_send]
          rfl
      | recv => exact quiet rfl (.refl _)
  | handOver sending waiting found accepted =>
      cases side with
      | send => exact quiet rfl (.refl _)
      | recv =>
          refine .head fewer waiting accepted ?_ rfl rfl
          rw [Chan.served_resume, Chan.served_pop_recv]
          rfl
  | @exchange partner rest waiting separate accepted partnerAccepted =>
      cases caller with
      | send =>
          have nobody : chan.senders = [] := by
            refine matched.oneSided.resolve_right ?_
            rw [show chan.recvers = partner :: rest from waiting]
            simp
          cases side with
          | send =>
              refine serves_caller held (by simp) callerSide ?_ fewer ?_ rfl rfl
              · simp [Chan.queue, nobody]
              · simp [World.offer, Side.src]
          | recv =>
              refine .head fewer waiting partnerAccepted ?_ rfl rfl
              rw [Chan.served_resume, Chan.served_passOn_recv]
              rfl
      | recv =>
          have nobody : chan.recvers = [] := by
            refine matched.oneSided.resolve_left ?_
            rw [show chan.senders = partner :: rest from waiting]
            simp
          cases side with
          | send =>
              refine .head fewer waiting partnerAccepted ?_ rfl rfl
              rw [Chan.served_resume, Chan.served_passOn_send]
              rfl
          | recv =>
              refine serves_caller held (by simp) callerSide ?_ fewer ?_ rfl rfl
              · simp [Chan.queue, nobody]
              · simp [Side.dst]
  | discard waiting closed => exact quiet (by simp) (beheaded _ _ _ waiting)
  | purge waiting refused => exact quiet (by simp) (beheaded _ _ _ waiting)
  | purgePlain receiving waiting plain refused =>
      subst receiving
      exact quiet (by simp) (beheaded .send _ _ waiting)
  | wait alone stays =>
      by_cases same : side = caller
      · subst same
        refine ⟨[], chan.waiting program world side, by simp, by simp [Chan.link], rfl, ?_⟩
        have called : chan.calling program side = [message] := by
          rw [Chan.calling_of_pc held (by simp), if_pos callerSide]
        have free : ((chan.link side message).resume message
            (.returned .inprocess)).calling program side = [] := rfl
        rw [Chan.waiting, Chan.waiting, called, free, Chan.queue_resume, Chan.link,
          Chan.queue_setQueue_self, List.filter_append, List.append_nil]
        exact List.filter_sublist.append_left _
      · refine quiet (by simp [Chan.link]) ?_
        rw [Chan.link, Chan.queue_setQueue_of_ne chan same]
  | _ => exact quiet rfl (.refl _)

end

/-! ## The order of a whole run -/

namespace Chan.Ordered

variable {world fired : World α} {chan after : Chan α}

theorem initial : Chan.Ordered program (.initial program) .initial := by
  intro side
  cases side <;> simp [Chan.served, Chan.waiting, Chan.calling, Chan.initial, Chan.queue]

theorem shrinks
    (ordered : chan.Ordered program world)
    (fewer : ∀ message, fired.accepts program message = true →
      world.accepts program message = true) :
    chan.Ordered program fired := by
  intro side
  refine .trans ?_ (ordered side)
  exact ((filter_sublist fewer (.refl _)).append (.refl _)).append_left _

theorem enters
    (ordered : chan.Ordered program world)
    (free : chan.call = none)
    (message : MsgId) :
    (chan.enter (program.msg message).side message).Ordered program world := by
  intro side
  have before := ordered side
  have served : (chan.enter (program.msg message).side message).served side =
      chan.served side := by
    cases (program.msg message).side <;> cases side <;> rfl
  have called := Chan.call_enter chan (program.msg message).side message
  rw [Chan.waiting, Chan.calling_of_free free, List.append_nil] at before
  rw [served, Chan.waiting, Chan.queue_enter, Chan.calling_of_pc called (by simp)]
  by_cases same : (program.msg message).side = side
  · subst same
    rw [if_pos rfl, Chan.entered_enter_self, ← List.append_assoc]
    exact before.append (.refl _)
  · rw [if_neg same, Chan.entered_enter_of_ne chan (Ne.symm same), List.append_nil]
    exact before

theorem drops
    (ordered : chan.Ordered program world)
    (message : MsgId) :
    (chan.unlinkThis message).Ordered program world := by
  intro side
  have served : (chan.unlinkThis message).served side = chan.served side := by
    cases side <;> rfl
  rw [served, Chan.waiting, Chan.queue_unlinkThis, Chan.entered_unlinkThis]
  refine .trans ?_ (ordered side)
  exact ((List.erase_sublist.filter _).append (.refl _)).append_left _

theorem turns
    {side : Side}
    (ordered : chan.Ordered program world)
    (serves : Serves program world fired chan after side)
    (entered : after.entered side = chan.entered side) :
    (after.served side ++ after.waiting program fired side).Sublist (after.entered side) := by
  obtain ⟨served, rest, _, isServed, waited, waits⟩ := serves
  have before := ordered side
  rw [waited] at before
  rw [isServed, entered, List.append_assoc]
  exact ((waits.append_left served).append_left _).trans before

variable [Inhabited α]

/-- Whatever happens to a channel, its messages stay in order. -/
theorem localInvariant :
    LocalInvariant program fun world capacity chan =>
      Matched program world capacity chan ∧ chan.Ordered program world where
  initially _ := ⟨.initial, .initial⟩
  shrinks _ _ _ _ fewer holds := ⟨holds.1.shrinks fewer, holds.2.shrinks fewer⟩
  enters _ _ _ message free holds :=
    ⟨holds.1.enters free message, holds.2.enters free message⟩
  turns _ _ _ call _ held turn holds :=
    ⟨holds.1.turns held turn, fun side =>
      holds.2.turns (turn.serves holds.1 held side) (by simp [turn.entered_eq])⟩
  drops _ _ _ message free holds := ⟨holds.1.drops free message, holds.2.drops message⟩

theorem of_reached
    {system : System α}
    (reached : System.Reached program system)
    (id : ChanId) :
    (system.chan id).Ordered program system.world :=
  (localInvariant.of_reached reached id).2

end Chan.Ordered

section

variable [Inhabited α] {system after : System α}

/-- The messages whose values were handed over are in the order of entrance. -/
private theorem handed_sublist
    (reached : System.Reached program system)
    (id : ChanId)
    (side : Side) :
    ((system.chan id).handed side).Sublist ((system.chan id).entered side) := by
  have ordered := (List.sublist_append_left _ _).trans
    (Chan.Ordered.of_reached reached id side)
  cases side with
  | recv => exact ordered
  | send =>
      refine .trans ?_ ordered
      rw [Chan.served, (Delivered.of_reached reached).fifo id, List.map_append, List.map_map]
      exact List.sublist_append_left _ _

/-- Nobody is served while a live message that entered before it is linked. -/
private theorem not_overtaken
    {label : Label}
    {id : ChanId}
    {side : Side}
    {first second : MsgId}
    (reached : System.Reached program system)
    (stepped : System.step program system label = some after)
    (entered : Lib.Precedes ((system.chan id).entered side) first second)
    (linked : first ∈ (system.chan id).queue side)
    (live : system.world.accepts program first = true)
    (served : second ∈ (after.chan id).served side) :
    second ∈ (system.chan id).served side := by
  have wellFormed := WellFormed.of_reached reached
  have unserved : SameValues (system.chan id) (after.chan id) →
      second ∈ (system.chan id).served side := by
    intro same
    rwa [Chan.served_of_sameValues same] at served
  cases label with
  | enter message =>
      obtain ⟨_, _, rfl⟩ := System.step_enter stepped
      exact unserved (SameValues.of_enter system message id)
  | fire select key =>
      obtain ⟨_, rfl⟩ := System.step_fire stepped
      exact unserved (.refl _)
  | drop message =>
      obtain ⟨_, _, rfl⟩ := System.step_drop stepped
      exact unserved (SameValues.of_drop system message id)
  | turn acting =>
      obtain ⟨call, outcome, held, turn, rfl⟩ := wellFormed.turn stepped
      by_cases same : id = acting
      · subst same
        obtain ⟨newly, rest, single, isServed, waited, _⟩ :=
          turn.serves (Matched.of_reached reached id) held side
        simp only [System.settle, Function.update_self] at served
        rw [isServed] at served
        rcases List.mem_append.mp served with before | new
        · exact before
        · exfalso
          -- the served one is the first who waits, so `first` waits behind it
          obtain rfl : newly = [second] := by
            obtain ⟨only, rfl⟩ := List.length_eq_one_iff.mp
              (Nat.le_antisymm single (List.length_pos_of_mem new))
            rw [List.mem_singleton.mp new]
          have nodup := wellFormed.entered_nodup id side
          have waits : first ∈ (system.chan id).waiting program system.world side :=
            List.mem_append_left _ (List.mem_filter.mpr ⟨linked, live⟩)
          rw [waited] at waits
          have behind : first ∈ rest :=
            (List.mem_cons.mp waits).resolve_left (entered.ne nodup)
          have ordered := (List.sublist_append_right _ _).trans
            (Chan.Ordered.of_reached reached id side)
          rw [waited] at ordered
          have reversed : Lib.Precedes ([second] ++ rest) second first :=
            Lib.precedes_append (by simp) behind
          exact entered.asymm nodup (reversed.of_sublist ordered)
      · exact unserved (by simpa [System.settle, same] using .refl _)

/-- Channels are first in, first out: of two sends whose values were handed over,
and of two receives that were given a value, the one that entered first was
first; and no step serves a message while a live one that entered before it is
linked. -/
theorem first_in_first_out
    (reached : System.Reached program system)
    (id : ChanId)
    (side : Side)
    {first second : MsgId}
    (entered : Lib.Precedes ((system.chan id).entered side) first second) :
    (first ∈ (system.chan id).handed side → second ∈ (system.chan id).handed side →
      Lib.Precedes ((system.chan id).handed side) first second) ∧
    ∀ label after, System.step program system label = some after →
      first ∈ (system.chan id).queue side →
        system.world.accepts program first = true →
          second ∈ (after.chan id).served side → second ∈ (system.chan id).served side := by
  have nodup := (WellFormed.of_reached reached).entered_nodup id side
  refine ⟨fun hasFirst hasSecond => ?_, fun label after stepped linked live served => ?_⟩
  · exact entered.in_part nodup (handed_sublist reached id side) hasFirst hasSecond
  · exact not_overtaken reached stepped entered linked live served

omit [Inhabited α] in
theorem first_in_first_out_sample :
    let system := System.after .sample [.enter 6, .turn 2, .turn 2, .enter 8, .turn 2,
      .turn 2, .enter 5, .turn 2, .turn 2, .enter 7, .turn 2, .turn 2]
    Lib.Precedes ((system.chan 2).handed .send) 5 7 := by
  intro system
  have reached : System.Reached .sample system := System.reached_after _ _
  have entered : Lib.Precedes ((system.chan 2).entered .send) 5 7 := by decide
  exact (first_in_first_out reached 2 .send entered).1 (by decide) (by decide)

end

end Channel
end Cgo
