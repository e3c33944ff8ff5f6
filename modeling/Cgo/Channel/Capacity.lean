import Cgo.Channel.Delivery
import Mathlib.Data.Set.Card

/-!
# A channel is a bounded buffer

How far the senders of a channel can get ahead of its receivers, counted by the messages
that were committed.
-/

namespace Cgo
namespace Channel

variable {α : Type} {program : Program α}

/-- The messages of a channel that were committed on a side. -/
def Committed (program : Program α) (system : System α) (id : ChanId) (side : Side) :
    Set MsgId :=
  {message | (program.msg message).chan = id ∧ (program.msg message).side = side ∧
    system.world.commits message ≠ 0}

/-- A list that names each member of a set once has its length. -/
theorem ncard_eq_length
    {messages : List MsgId}
    {set : Set MsgId}
    (nodup : messages.Nodup)
    (members : ∀ message, message ∈ messages ↔ message ∈ set) :
    set.Finite ∧ set.ncard = messages.length := by
  have same : set = (messages.toFinset : Set MsgId) := by
    ext message
    rw [List.coe_toFinset]
    exact (members message).symm
  rw [same, Set.ncard_coe_finset, List.toFinset_card_of_nodup nodup]
  exact ⟨Finset.finite_toSet _, rfl⟩

/-- What the commits on the two sides of a channel have to do with each other. -/
structure Bounded (program : Program α) (system : System α) (id : ChanId) : Prop where
  finite : ∀ side, (Committed program system id side).Finite
  /-- The sends that no receive has met yet are in the buffer. -/
  lead : (Committed program system id .send).ncard =
    (Committed program system id .recv).ncard + (system.chan id).buffer.length
  within : (system.chan id).buffer.length ≤ program.capacity id

/-- In every state that the channels can reach, the sends of a channel that were committed
are ahead of the committed receives by the values in the buffer, so by no more than the
capacity, and never behind them. -/
theorem sends_lead_by_capacity
    [Inhabited α]
    {system : System α}
    (reached : System.Reached program system)
    (id : ChanId) :
    Bounded program system id := by
  have delivered := Delivered.of_reached reached
  have matched := Matched.of_reached reached id
  have sends : (Committed program system id .send).Finite ∧
      (Committed program system id .send).ncard =
        ((system.chan id).taken.map Sent.origin).length :=
    ncard_eq_length (delivered.taken_nodup id) (delivered.mem_taken id)
  have recvs : (Committed program system id .recv).Finite ∧
      (Committed program system id .recv).ncard =
        ((system.chan id).given.map Given.target).length :=
    ncard_eq_length (delivered.given_nodup id) (delivered.mem_given id)
  refine ⟨fun side => ?_, ?_, matched.bounded⟩
  · cases side with
    | send => exact sends.1
    | recv => exact recvs.1
  · rw [sends.2, recvs.2, delivered.fifo id]
    simp

/-- One value is in the buffer. -/
theorem sends_lead_by_capacity_sample :
    let system := System.after .sample [.enter 5, .turn 2, .turn 2]
    (Committed .sample system 2 .send).ncard =
      (Committed .sample system 2 .recv).ncard + 1 := by
  intro system
  have reached : System.Reached .sample system := System.reached_after _ _
  exact (sends_lead_by_capacity reached 2).lead

end Channel
end Cgo
