import Cgo.Channel.Turn

/-!
# What a turn reads and writes

A turn works for the message of its call and for partners linked in a queue of
the channel, and it touches the world only through these: their variables, their
semaphores and their selects.  What lies elsewhere can be replaced before the
turn or after it, with the same outcome, so a turn neither reads nor writes it.
-/

namespace Cgo
namespace Channel

variable {α : Type}

/-- Places of the world: variables, semaphores of plain messages, and selects,
each with its `_key` and its `_signal`. -/
structure Places where
  vars : Var → Bool
  signals : MsgId → Bool
  selects : SelectId → Bool

/-- A message points to none of the places. -/
structure Program.Spares (program : Program α) (places : Places) (message : MsgId) :
    Prop where
  data : ∀ var, program.data message = some var → places.vars var = false
  signal : places.signals message = false
  select : ∀ select, program.select? message = some select → places.selects select = false

/-- An argument of `_move` points to none of the places. -/
def Ptr.Spares (places : Places) : Ptr α → Prop
  | .user var => places.vars var = false
  | _ => True

theorem Program.Spares.ptr
    {program : Program α}
    {places : Places}
    {message : MsgId}
    (spares : program.Spares places message) :
    (Ptr.ofData (program.data message) : Ptr α).Spares places := by
  cases points : program.data message with
  | none => trivial
  | some var => exact spares.data var points

/-- The function that is `kept` where a place is taken and `given` elsewhere. -/
def overlay {Index Value : Type} (taken : Index → Bool) (kept given : Index → Value)
    (index : Index) : Value :=
  if taken index then kept index else given index

section

variable {Index Value : Type} {taken : Index → Bool} {kept given : Index → Value}

theorem overlay_self : overlay taken given given = given := by
  funext index
  simp [overlay]

theorem overlay_of_apart
    {index : Index}
    (apart : taken index = false) :
    overlay taken kept given index = given index := by
  simp [overlay, apart]

/-- Where a place is taken, an overlay that changes nothing kept the same. -/
theorem eq_of_overlay_eq
    (same : overlay taken kept given = given)
    {index : Index}
    (isTaken : taken index = true) :
    given index = kept index := by
  have atIndex := congrFun same index
  simpa [overlay, isTaken] using atIndex.symm

/-- An update where nothing is taken can be made before or after. -/
theorem update_overlay [DecidableEq Index]
    {target : Index}
    (apart : taken target = false)
    (value : Value) :
    Function.update (overlay taken kept given) target value =
      overlay taken kept (Function.update given target value) := by
  funext index
  rcases eq_or_ne index target with rfl | different
  · simp [overlay, apart]
  · simp [overlay, different]

end

namespace World

/-- The world in which the places hold what they hold in another one. -/
def overwrite (world : World α) (places : Places) (other : World α) : World α where
  mem := overlay places.vars other.mem world.mem
  key := overlay places.selects other.key world.key
  selectSignal := overlay places.selects other.selectSignal world.selectSignal
  signal := overlay places.signals other.signal world.signal
  commits := overlay places.signals other.commits world.commits

variable {program : Program α} {places : Places} {other : World α}

/-- What is overwritten with itself stays. -/
theorem overwrite_self (world : World α) : world.overwrite places world = world := by
  simp [overwrite, overlay_self]

theorem load_overwrite [Inhabited α]
    (world : World α)
    {message : MsgId}
    (spares : program.Spares places message) :
    (world.overwrite places other).load (program.data message) =
      world.load (program.data message) := by
  cases points : program.data message with
  | none => rfl
  | some var =>
      simp only [load, overwrite]
      rw [overlay_of_apart (spares.data var points)]

theorem accepts_overwrite
    (world : World α)
    {message : MsgId}
    (spares : program.Spares places message) :
    (world.overwrite places other).accepts program message =
      world.accepts program message := by
  rw [Bool.eq_iff_iff, accepts_iff, accepts_iff]
  refine forall_congr' fun select => forall_congr' fun owned => ?_
  simp only [overwrite]
  rw [overlay_of_apart (spares.select select owned)]

theorem move_overwrite
    (world : World α)
    {src dst : Ptr α}
    (srcSpares : src.Spares places)
    (dstSpares : dst.Spares places) :
    (world.overwrite places other).move src dst =
      (world.move src dst).overwrite places other := by
  cases src with
  | null => rfl
  | user source =>
      have sourceApart : places.vars source = false := srcSpares
      cases dst with
      | null => rfl
      | slot value =>
          simp only [move, overwrite]
          rw [update_overlay sourceApart]
      | user target =>
          have targetApart : places.vars target = false := dstSpares
          simp only [move, overwrite]
          rw [overlay_of_apart sourceApart, update_overlay sourceApart,
            update_overlay targetApart]
  | slot value =>
      cases dst with
      | null => rfl
      | slot value => rfl
      | user target =>
          have targetApart : places.vars target = false := dstSpares
          simp only [move, overwrite]
          rw [update_overlay targetApart]

theorem commit_overwrite
    (world : World α)
    {message : MsgId}
    (spares : program.Spares places message) :
    (world.overwrite places other).commit program message =
      (world.commit program message).overwrite places other := by
  have own := spares.signal
  cases variant : (program.msg message).variant with
  | simplex data signal =>
      cases signal with
      | false =>
          simp only [commit, variant, overwrite]
          rw [overlay_of_apart own, update_overlay own]
      | true =>
          simp only [commit, variant, overwrite]
          rw [overlay_of_apart own, overlay_of_apart own, update_overlay own,
            update_overlay own]
  | multiplex data select caseKey =>
      have ownSelect : places.selects select = false :=
        spares.select select (by simp [Program.select?, variant, Variant.select?])
      simp only [commit, variant, overwrite]
      rw [overlay_of_apart own, overlay_of_apart ownSelect, update_overlay own,
        update_overlay ownSelect, update_overlay ownSelect]

theorem exchange_overwrite
    (world : World α)
    {src dst : MsgId}
    (srcSpares : program.Spares places src)
    (dstSpares : program.Spares places dst) :
    (world.overwrite places other).exchange program src dst =
      (world.exchange program src dst).overwrite places other := by
  rw [exchange, move_overwrite world srcSpares.ptr dstSpares.ptr,
    commit_overwrite _ srcSpares, commit_overwrite _ dstSpares]
  rfl

/-- Both worlds hold the same at the places. -/
structure SameAt (places : Places) (before after : World α) : Prop where
  mem : ∀ var, places.vars var = true → after.mem var = before.mem var
  key : ∀ select, places.selects select = true → after.key select = before.key select
  selectSignal : ∀ select, places.selects select = true →
    after.selectSignal select = before.selectSignal select
  signal : ∀ message, places.signals message = true →
    after.signal message = before.signal message
  commits : ∀ message, places.signals message = true →
    after.commits message = before.commits message

theorem SameAt.refl (world : World α) : SameAt places world world where
  mem _ _ := rfl
  key _ _ := rfl
  selectSignal _ _ := rfl
  signal _ _ := rfl
  commits _ _ := rfl

theorem SameAt.trans
    {before between after : World α}
    (first : SameAt places before between)
    (second : SameAt places between after) :
    SameAt places before after where
  mem var taken := (second.mem var taken).trans (first.mem var taken)
  key select taken := (second.key select taken).trans (first.key select taken)
  selectSignal select taken :=
    (second.selectSignal select taken).trans (first.selectSignal select taken)
  signal message taken := (second.signal message taken).trans (first.signal message taken)
  commits message taken := (second.commits message taken).trans (first.commits message taken)

theorem SameAt.of_overwrite
    {before after : World α}
    (same : after.overwrite places before = after) :
    SameAt places before after where
  mem _ := eq_of_overlay_eq (congrArg World.mem same)
  key _ := eq_of_overlay_eq (congrArg World.key same)
  selectSignal _ := eq_of_overlay_eq (congrArg World.selectSignal same)
  signal _ := eq_of_overlay_eq (congrArg World.signal same)
  commits _ := eq_of_overlay_eq (congrArg World.commits same)

end World

/-! ## The transfers -/

section

variable {program : Program α} {places : Places} {other : World α}

namespace BaseMsg

theorem recvFromPtr_overwrite
    (world : World α)
    {message : MsgId}
    {src : Ptr α}
    (spares : program.Spares places message)
    (srcSpares : src.Spares places) :
    recvFromPtr program (world.overwrite places other) message src =
      (recvFromPtr program world message src).map id (World.overwrite · places other) := by
  rw [recvFromPtr_eq, recvFromPtr_eq, World.accepts_overwrite world spares]
  split
  · rw [World.move_overwrite world srcSpares spares.ptr, World.commit_overwrite _ spares]
    rfl
  · rfl

theorem sendToPtr_overwrite
    (world : World α)
    {message : MsgId}
    {dst : Ptr α}
    (spares : program.Spares places message)
    (dstSpares : dst.Spares places) :
    sendToPtr program (world.overwrite places other) message dst =
      (sendToPtr program world message dst).map id (World.overwrite · places other) := by
  rw [sendToPtr_eq, sendToPtr_eq, World.accepts_overwrite world spares]
  split
  · rw [World.move_overwrite world spares.ptr dstSpares, World.commit_overwrite _ spares]
    rfl
  · rfl

theorem sendTo_overwrite
    (world : World α)
    {src dst : MsgId}
    (different : src ≠ dst)
    (srcSpares : program.Spares places src)
    (dstSpares : program.Spares places dst) :
    sendTo program (world.overwrite places other) src dst =
      (sendTo program world src dst).map fun sent =>
        sent.map id (World.overwrite · places other) := by
  rw [sendTo_eq program _ different, sendTo_eq program _ different,
    World.accepts_overwrite world srcSpares, World.accepts_overwrite world dstSpares,
    World.exchange_overwrite world srcSpares dstSpares]
  repeat' split
  all_goals rfl

end BaseMsg

variable [Inhabited α]

namespace BaseChannel

omit [Inhabited α] in
theorem bufferSendTo_overwrite
    (world : World α)
    (chan : Chan α)
    {dst : MsgId}
    (spares : program.Spares places dst) :
    bufferSendTo program (world.overwrite places other) chan dst =
      (bufferSendTo program world chan dst).map id
        (Prod.map (World.overwrite · places other) id) := by
  unfold bufferSendTo
  cases chan.buffer with
  | nil => rfl
  | cons front rest =>
      have slotSpares : (Ptr.slot front.value).Spares places := trivial
      simp only
      rw [BaseMsg.recvFromPtr_overwrite world spares slotSpares]
      cases BaseMsg.recvFromPtr program world dst (.slot front.value) with
      | mk status moved => cases status <;> rfl

theorem bufferRecvFrom_overwrite
    (capacity : Nat)
    (world : World α)
    (chan : Chan α)
    {src : MsgId}
    (spares : program.Spares places src) :
    bufferRecvFrom program capacity (world.overwrite places other) chan src =
      (bufferRecvFrom program capacity world chan src).map id
        (Prod.map (World.overwrite · places other) id) := by
  unfold bufferRecvFrom
  split
  · rfl
  · have slotSpares : (Ptr.slot (default : α)).Spares places := trivial
    rw [World.load_overwrite world spares,
      BaseMsg.sendToPtr_overwrite world spares slotSpares]
    cases BaseMsg.sendToPtr program world src (.slot default) with
    | mk status moved => cases status <;> rfl

theorem sendTo_overwrite
    (capacity : Nat)
    (world : World α)
    (chan : Chan α)
    {dst : MsgId}
    (pc : Pc)
    (unlinked : dst ∉ chan.senders)
    (spares : program.Spares places dst)
    (partners : ∀ sender ∈ chan.senders, program.Spares places sender) :
    sendTo program capacity (world.overwrite places other) chan dst pc =
      (sendTo program capacity world chan dst pc).map (World.overwrite · places other) id := by
  cases pc with
  | buffer =>
      simp only [sendTo, bufferSendTo_overwrite world chan spares]
      cases bufferSendTo program world chan dst with
      | mk served moved => cases served <;> rfl
  | shift =>
      simp only [sendTo]
      cases waiting : chan.senders with
      | nil => rfl
      | cons sender senders =>
          have senderSpares := partners sender (by simp [waiting])
          simp only [bufferRecvFrom_overwrite capacity world _ senderSpares]
          cases bufferRecvFrom program capacity world { chan with senders } sender with
          | mk served moved => cases served <;> rfl
  | scan =>
      simp only [sendTo]
      cases waiting : chan.senders with
      | nil => cases (program.msg dst).oneshot <;> rfl
      | cons sender senders =>
          have senderSpares := partners sender (by simp [waiting])
          have different : sender ≠ dst := by
            rintro rfl
            exact unlinked (by simp [waiting])
          simp only [World.load_overwrite world senderSpares,
            BaseMsg.sendTo_overwrite world different senderSpares spares]
          cases BaseMsg.sendTo program world sender dst with
          | error error => rfl
          | ok sent =>
              obtain ⟨status, moved⟩ := sent
              cases status <;> rfl

theorem recvFrom_overwrite
    (capacity : Nat)
    (world : World α)
    (chan : Chan α)
    {src : MsgId}
    (pc : Pc)
    (unlinked : src ∉ chan.recvers)
    (spares : program.Spares places src)
    (partners : ∀ recver ∈ chan.recvers, program.Spares places recver) :
    recvFrom program capacity (world.overwrite places other) chan src pc =
      (recvFrom program capacity world chan src pc).map (World.overwrite · places other) id := by
  cases pc with
  | buffer =>
      simp only [recvFrom, bufferRecvFrom_overwrite capacity world chan spares]
      cases bufferRecvFrom program capacity world chan src with
      | mk served moved => cases served <;> rfl
  | shift =>
      simp only [recvFrom]
      cases waiting : chan.recvers with
      | nil => rfl
      | cons recver recvers =>
          have recverSpares := partners recver (by simp [waiting])
          simp only [bufferSendTo_overwrite world _ recverSpares]
          cases bufferSendTo program world { chan with recvers } recver with
          | mk served moved => cases served <;> rfl
  | scan =>
      simp only [recvFrom]
      cases waiting : chan.recvers with
      | nil => cases (program.msg src).oneshot <;> rfl
      | cons recver recvers =>
          have recverSpares := partners recver (by simp [waiting])
          have different : src ≠ recver := by
            rintro rfl
            exact unlinked (by simp [waiting])
          simp only [World.load_overwrite world spares, BaseMsg.recvFrom,
            BaseMsg.sendTo_overwrite world different spares recverSpares]
          cases BaseMsg.sendTo program world src recver with
          | error error => rfl
          | ok sent =>
              obtain ⟨status, moved⟩ := sent
              cases status <;> rfl

/-- The frame rule of a turn: what neither its message nor a linked partner
points to can be overwritten before it or after it. -/
theorem turn_overwrite
    (capacity : Nat)
    (world : World α)
    (chan : Chan α)
    (call : Call)
    (unlinked : ∀ side, call.message ∉ chan.queue side)
    (spares : program.Spares places call.message)
    (partners : ∀ side, ∀ partner ∈ chan.queue side, program.Spares places partner) :
    turn program capacity (world.overwrite places other) chan call =
      (turn program capacity world chan call).map (World.overwrite · places other) id := by
  unfold turn
  cases (program.msg call.message).side with
  | send =>
      exact recvFrom_overwrite capacity world chan call.pc (unlinked .recv) spares
        (partners .recv)
  | recv =>
      exact sendTo_overwrite capacity world chan call.pc (unlinked .send) spares
        (partners .send)

end BaseChannel

end

end Channel
end Cgo
