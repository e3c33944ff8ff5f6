import Mathlib.Logic.Function.Basic

/-!
# Messages and the transfer between them

`BaseMsg` and its two alternatives `Simplex` and `Multiplex`, and the three
transfer functions of `channel.cpp`.  A plain send or receive is a `Simplex`
message with its own semaphore (none for a nowait send); a case of a `Select` is
a `Multiplex` message that shares the select's lock, key and semaphore.

What the messages of a program are is fixed when they are constructed and never
assigned again, so it is a parameter (`Program`); what the transfers change is
the `World`.
-/

namespace Cgo
namespace Channel

/-- Address of a variable that a message's `data` may point to. -/
abbrev Var := Nat

/-- Address of a `BaseMsg`. -/
abbrev MsgId := Nat

/-- Address of a `Select`. -/
abbrev SelectId := Nat

/-- Address of a channel. -/
abbrev ChanId := Nat

/-- `Select::InvalidSelectKey`, the value `INT_MIN`. -/
def InvalidSelectKey : Int := -2147483648

/-- A key that `Select::on` lets through. -/
abbrev CaseKey := { key : Int // key ≠ InvalidSelectKey }

/-- `std::variant<Simplex, Multiplex>`.  A null `data` discards the value, a
`Simplex` without `signal` is a nowait message. -/
inductive Variant
  | simplex (data : Option Var) (signal : Bool)
  | multiplex (data : Option Var) (select : SelectId) (caseKey : CaseKey)
  deriving DecidableEq

/-- The variable that a message's `data` points to. -/
def Variant.data : Variant → Option Var
  | .simplex data _ => data
  | .multiplex data _ _ => data

/-- The select of a case. -/
def Variant.select? : Variant → Option SelectId
  | .simplex _ _ => none
  | .multiplex _ select _ => some select

/-- The key of a case. -/
def Variant.caseKey? : Variant → Option CaseKey
  | .simplex _ _ => none
  | .multiplex _ _ caseKey => some caseKey

/-- The message has a semaphore of its own. -/
def Variant.hasSignal : Variant → Bool
  | .simplex _ signal => signal
  | .multiplex _ _ _ => false

/-- Which of the two calls of a channel a message enters: `recv_from` takes the
messages that send, `send_to` those that receive. -/
inductive Side
  | send
  | recv
  deriving DecidableEq

/-- The side of the partners. -/
def Side.other : Side → Side
  | .send => .recv
  | .recv => .send

@[simp] theorem Side.other_send : Side.send.other = .recv := rfl

@[simp] theorem Side.other_recv : Side.recv.other = .send := rfl

/-- A message: its `_msg`, the channel and the call it enters, and the
`oneshot` argument of that call. -/
structure BaseMsg where
  variant : Variant
  chan : ChanId
  side : Side
  oneshot : Bool

/-- A program: the capacity of every channel, the messages, and the contents of
the variables before the run.  Only a receive may pass a null `data`. -/
structure Program (α : Type) where
  capacity : ChanId → Nat
  msg : MsgId → BaseMsg
  mem : Var → α
  sends_data : ∀ message, (msg message).side = .send → (msg message).variant.data ≠ none

namespace Program

variable {α : Type} (program : Program α)

/-- The variable of a message. -/
def data (message : MsgId) : Option Var := (program.msg message).variant.data

/-- The select of a message. -/
def select? (message : MsgId) : Option SelectId :=
  (program.msg message).variant.select?

/-- The key of a message's case. -/
def caseKey? (message : MsgId) : Option CaseKey :=
  (program.msg message).variant.caseKey?

/-- The message has a semaphore of its own. -/
def hasSignal (message : MsgId) : Bool :=
  (program.msg message).variant.hasSignal

/-- Both messages are cases of one select. -/
def SameSelect (left right : MsgId) : Prop :=
  ∃ select, program.select? left = some select ∧ program.select? right = some select

instance (left right : MsgId) : Decidable (program.SameSelect left right) :=
  match leftSelect : program.select? left, rightSelect : program.select? right with
  | none, _ => isFalse fun ⟨_, same, _⟩ => by simp [leftSelect] at same
  | some _, none => isFalse fun ⟨_, _, same⟩ => by simp [rightSelect] at same
  | some first, some second =>
      if same : first = second then
        isTrue ⟨first, leftSelect, same ▸ rightSelect⟩
      else
        isFalse fun ⟨_, left, right⟩ => by
          rw [leftSelect] at left
          rw [rightSelect] at right
          exact same ((Option.some.inj left).trans (Option.some.inj right).symm)

/-- Different messages use different variables. -/
def DistinctVars : Prop :=
  ∀ left right var, program.data left = some var →
    program.data right = some var → left = right

end Program

/-- What the transfers read and write.  In `mem`, `none` is an object that was
moved from; `key` is a select's `_key` with `none` for `InvalidSelectKey`.  The
counters are histories: how often a select's `_signal` and a message's own
semaphore were released, and how often a message was committed. -/
structure World (α : Type) where
  mem : Var → Option α
  key : SelectId → Option CaseKey
  selectSignal : SelectId → Nat
  signal : MsgId → Nat
  commits : MsgId → Nat

/-- The world before the run. -/
def World.initial {α : Type} (program : Program α) : World α where
  mem := fun var => some (program.mem var)
  key := fun _ => none
  selectSignal := fun _ => 0
  signal := fun _ => 0
  commits := fun _ => 0

/-- An argument of `_move`: null, a variable of the program, or a slot of the
channel (the front of its buffer, or the local `T x` before it is pushed) that
holds a value. -/
inductive Ptr (α : Type)
  | null
  | user (var : Var)
  | slot (value : α)

/-- The pointer stored in a message's `data`. -/
def Ptr.ofData {α : Type} : Option Var → Ptr α
  | none => .null
  | some var => .user var

namespace World

variable {α : Type}

/-- `TypeMsg::_move`: `if (src && dst) *dst = std::move(*src)`.  A slot is not
part of the world: who owns it pops or pushes its value. -/
def move (world : World α) : Ptr α → Ptr α → World α
  | .null, _ => world
  | _, .null => world
  | .slot _, .slot _ => world
  | .user source, .slot _ =>
      { world with mem := Function.update world.mem source none }
  | .slot value, .user target =>
      { world with mem := Function.update world.mem target (some value) }
  | .user source, .user target =>
      { world with
        mem := Function.update (Function.update world.mem source none)
          target (world.mem source) }

/-- The value that a transfer takes from a message.  Nothing is moved out of a
null `data`, so the receiver keeps the default value `T x` starts with. -/
def load [Inhabited α] (world : World α) : Option Var → α
  | none => default
  | some var => (world.mem var).getD default

/-- `Simplex::commit` and `Multiplex::commit`. -/
def commit (world : World α) (program : Program α) (message : MsgId) : World α :=
  let counted := { world with
    commits := Function.update world.commits message (world.commits message + 1) }
  match (program.msg message).variant with
  | .simplex _ false => counted
  | .simplex _ true =>
      { counted with
        signal := Function.update world.signal message (world.signal message + 1) }
  | .multiplex _ select caseKey =>
      { counted with
        key := Function.update world.key select (some caseKey)
        selectSignal := Function.update world.selectSignal select
          (world.selectSignal select + 1) }

/-- A transfer may commit the message: it is plain, or its select has not
fired. -/
def accepts (world : World α) (program : Program α) (message : MsgId) : Bool :=
  match (program.msg message).variant with
  | .simplex _ _ => true
  | .multiplex _ select _ => (world.key select).isNone

/-- The world after a value went from one message to the other and both were
committed. -/
def exchange (world : World α) (program : Program α) (src dst : MsgId) : World α :=
  ((world.move (.ofData (program.data src)) (.ofData (program.data dst))).commit
    program src).commit program dst

/-- A live operation: not committed, and plain or of a select that has not
fired. -/
def Live (world : World α) (program : Program α) (message : MsgId) : Prop :=
  world.commits message = 0 ∧ world.accepts program message = true

/-! ## What `_move` and `commit` change -/

section Effects

variable (program : Program α) (world : World α)

@[simp] theorem move_key (src dst : Ptr α) : (world.move src dst).key = world.key := by
  cases src <;> cases dst <;> rfl

@[simp] theorem move_selectSignal (src dst : Ptr α) :
    (world.move src dst).selectSignal = world.selectSignal := by
  cases src <;> cases dst <;> rfl

@[simp] theorem move_signal (src dst : Ptr α) :
    (world.move src dst).signal = world.signal := by
  cases src <;> cases dst <;> rfl

@[simp] theorem move_commits (src dst : Ptr α) :
    (world.move src dst).commits = world.commits := by
  cases src <;> cases dst <;> rfl

@[simp] theorem move_accepts (src dst : Ptr α) (message : MsgId) :
    (world.move src dst).accepts program message = world.accepts program message := by
  simp [accepts]

/-- `_move` leaves every variable alone that neither argument points to. -/
theorem move_mem_of_ne
    {src dst : Ptr α}
    {var : Var}
    (notSrc : src ≠ .user var)
    (notDst : dst ≠ .user var) :
    (world.move src dst).mem var = world.mem var := by
  cases src with
  | null => rfl
  | user source =>
      have sourceOther : var ≠ source := fun same => notSrc (by rw [same])
      cases dst with
      | null => rfl
      | slot value => simp [move, sourceOther]
      | user target =>
          have targetOther : var ≠ target := fun same => notDst (by rw [same])
          simp [move, sourceOther, targetOther]
  | slot value =>
      cases dst with
      | null => rfl
      | slot other => rfl
      | user target =>
          have targetOther : var ≠ target := fun same => notDst (by rw [same])
          simp [move, targetOther]

@[simp] theorem commit_mem (message : MsgId) :
    (world.commit program message).mem = world.mem := by
  unfold commit
  split <;> rfl

@[simp] theorem commit_commits (message : MsgId) :
    (world.commit program message).commits =
      Function.update world.commits message (world.commits message + 1) := by
  unfold commit
  split <;> rfl

theorem commit_key (message : MsgId) (select : SelectId) :
    (world.commit program message).key select =
      if program.select? message = some select then program.caseKey? message
      else world.key select := by
  unfold commit Program.select? Program.caseKey?
  cases (program.msg message).variant with
  | simplex data signal => cases signal <;> simp [Variant.select?]
  | multiplex data owner caseKey =>
      by_cases same : owner = select
      · subst same
        simp [Variant.select?, Variant.caseKey?]
      · simp [Variant.select?, same, Function.update_of_ne (Ne.symm same)]

theorem commit_selectSignal (message : MsgId) (select : SelectId) :
    (world.commit program message).selectSignal select =
      if program.select? message = some select then world.selectSignal select + 1
      else world.selectSignal select := by
  unfold commit Program.select?
  cases (program.msg message).variant with
  | simplex data signal => cases signal <;> simp [Variant.select?]
  | multiplex data owner caseKey =>
      by_cases same : owner = select
      · subst same
        simp [Variant.select?]
      · simp [Variant.select?, same, Function.update_of_ne (Ne.symm same)]

theorem commit_signal (message other : MsgId) :
    (world.commit program message).signal other =
      if other = message ∧ program.hasSignal message = true then world.signal other + 1
      else world.signal other := by
  unfold commit Program.hasSignal
  cases (program.msg message).variant with
  | simplex data signal =>
      by_cases same : other = message
      · subst same
        cases signal <;> simp [Variant.hasSignal]
      · cases signal <;> simp [same]
  | multiplex data owner caseKey => simp [Variant.hasSignal]

theorem accepts_iff (message : MsgId) :
    world.accepts program message = true ↔
      ∀ select, program.select? message = some select → world.key select = none := by
  unfold accepts Program.select?
  cases (program.msg message).variant with
  | simplex data signal => simp [Variant.select?]
  | multiplex data owner caseKey => simp [Variant.select?]

/-- A plain message is never refused. -/
theorem accepts_of_plain
    {message : MsgId}
    (plain : program.select? message = none) :
    world.accepts program message = true := by
  rw [accepts_iff]
  simp [plain]

/-- Committing a message of another select, or a plain one, takes no other
message's chance away. -/
theorem accepts_commit_of_not_sameSelect
    {message other : MsgId}
    (separate : ¬program.SameSelect message other) :
    (world.commit program message).accepts program other =
      world.accepts program other := by
  rw [Bool.eq_iff_iff, accepts_iff, accepts_iff]
  refine forall_congr' fun select => forall_congr' fun owned => ?_
  have foreign : program.select? message ≠ some select :=
    fun shared => separate ⟨select, shared, owned⟩
  rw [commit_key, if_neg foreign]

/-- Commits of a plain message and of any other message commute. -/
theorem commit_comm_of_plain
    {plain other : MsgId}
    (isPlain : program.select? plain = none)
    (different : plain ≠ other) :
    (world.commit program other).commit program plain =
      (world.commit program plain).commit program other := by
  unfold commit
  unfold Program.select? at isPlain
  cases plainVariant : (program.msg plain).variant with
  | multiplex data select caseKey =>
      simp [plainVariant, Variant.select?] at isPlain
  | simplex data signal =>
      cases otherVariant : (program.msg other).variant with
      | multiplex data select caseKey =>
          cases signal <;>
            simp [different, different.symm, Function.update_comm different]
      | simplex otherData otherSignal =>
          cases signal <;> cases otherSignal <;>
            simp [different, different.symm, Function.update_comm different]

end Effects

end World

namespace BaseMsg

/-- `BaseMsg::TransferStatus`. -/
inductive TransferStatus
  | ok
  | invalidSrc
  | invalidDst
  deriving DecidableEq

variable {α : Type} (program : Program α) (world : World α)

/-- `BaseMsg::recv_from(void* src)`: the message receives.  For a select that
has fired the source returns `InvalidSrc` here, although this message is the
destination. -/
def recvFromPtr (message : MsgId) (src : Ptr α) : TransferStatus × World α :=
  match (program.msg message).variant with
  | .multiplex data select _ =>
      if (world.key select).isSome then (.invalidSrc, world)
      else (.ok, (world.move src (.ofData data)).commit program message)
  | .simplex data _ =>
      (.ok, (world.move src (.ofData data)).commit program message)

/-- `BaseMsg::send_to(void* dst)`: the message sends. -/
def sendToPtr (message : MsgId) (dst : Ptr α) : TransferStatus × World α :=
  match (program.msg message).variant with
  | .multiplex data select _ =>
      if (world.key select).isSome then (.invalidSrc, world)
      else (.ok, (world.move (.ofData data) dst).commit program message)
  | .simplex data _ =>
      (.ok, (world.move (.ofData data) dst).commit program message)

/-- The text of the error that two cases of one select raise when they meet. -/
def selectDeadlock : String :=
  "selector deadlock because waiting send and recv on the same channel"

/-- `BaseMsg::send_to(BaseMsg* dst)`. -/
def sendTo (src dst : MsgId) : Except String (TransferStatus × World α) :=
  match (program.msg src).variant, (program.msg dst).variant with
  | .multiplex srcData srcSelect _, .multiplex dstData dstSelect _ =>
      if srcSelect = dstSelect then .error selectDeadlock
      else if (world.key srcSelect).isSome then .ok (.invalidSrc, world)
      else if (world.key dstSelect).isSome then .ok (.invalidDst, world)
      else
        .ok (.ok, ((world.move (.ofData srcData) (.ofData dstData)).commit
          program src).commit program dst)
  | .multiplex _ _ _, .simplex dstData _ =>
      match sendToPtr program world src (.ofData dstData) with
      | (.ok, moved) => .ok (.ok, moved.commit program dst)
      | (status, moved) => .ok (status, moved)
  | .simplex srcData _, _ =>
      match recvFromPtr program world dst (.ofData srcData) with
      | (.ok, moved) => .ok (.ok, moved.commit program src)
      | (status, moved) => .ok (status, moved)

/-- `BaseMsg::recv_from(BaseMsg* src)`. -/
def recvFrom (dst src : MsgId) : Except String (TransferStatus × World α) :=
  sendTo program world src dst

/-! ## The transfers by what they decide -/

theorem recvFromPtr_eq (message : MsgId) (src : Ptr α) :
    recvFromPtr program world message src =
      if world.accepts program message then
        (.ok, (world.move src (.ofData (program.data message))).commit program message)
      else (.invalidSrc, world) := by
  unfold recvFromPtr World.accepts Program.data
  cases (program.msg message).variant with
  | simplex data signal => rfl
  | multiplex data select caseKey =>
      cases fired : world.key select <;> simp [fired, Variant.data]

theorem sendToPtr_eq (message : MsgId) (dst : Ptr α) :
    sendToPtr program world message dst =
      if world.accepts program message then
        (.ok, (world.move (.ofData (program.data message)) dst).commit program message)
      else (.invalidSrc, world) := by
  unfold sendToPtr World.accepts Program.data
  cases (program.msg message).variant with
  | simplex data signal => rfl
  | multiplex data select caseKey =>
      cases fired : world.key select <;> simp [fired, Variant.data]

/-- What the pairing of two messages decides.  The last line is where a plain
source meets a select that has fired: the destination is the one refused, but
the status names the source. -/
theorem sendTo_eq
    {src dst : MsgId}
    (different : src ≠ dst) :
    sendTo program world src dst =
      if program.SameSelect src dst then .error selectDeadlock
      else if world.accepts program src ∧ world.accepts program dst then
        .ok (.ok, world.exchange program src dst)
      else if world.accepts program src ∧ program.select? src ≠ none then
        .ok (.invalidDst, world)
      else .ok (.invalidSrc, world) := by
  cases srcVariant : (program.msg src).variant with
  | simplex srcData srcSignal =>
      have plain : program.select? src = none := by
        simp [Program.select?, srcVariant, Variant.select?]
      have srcPointer : program.data src = srcData := by
        simp [Program.data, srcVariant, Variant.data]
      have notShared : ¬program.SameSelect src dst := by
        rintro ⟨select, owned, _⟩
        simp [plain] at owned
      rw [if_neg notShared]
      unfold sendTo
      simp only [srcVariant, recvFromPtr_eq, World.accepts_of_plain program world plain,
        plain, ne_eq, not_true_eq_false, and_false, if_false, true_and]
      by_cases open_ : world.accepts program dst = true
      · simp only [open_, if_true, World.exchange, srcPointer]
        rw [World.commit_comm_of_plain program _ plain different]
      · simp [open_]
  | multiplex srcData srcSelect srcKey =>
      have srcOwned : program.select? src = some srcSelect := by
        simp [Program.select?, srcVariant, Variant.select?]
      have srcPointer : program.data src = srcData := by
        simp [Program.data, srcVariant, Variant.data]
      cases dstVariant : (program.msg dst).variant with
      | simplex dstData dstSignal =>
          have plain : program.select? dst = none := by
            simp [Program.select?, dstVariant, Variant.select?]
          have dstPointer : program.data dst = dstData := by
            simp [Program.data, dstVariant, Variant.data]
          have notShared : ¬program.SameSelect src dst := by
            rintro ⟨select, _, owned⟩
            simp [plain] at owned
          rw [if_neg notShared]
          unfold sendTo
          simp only [srcVariant, dstVariant, sendToPtr_eq,
            World.accepts_of_plain program world plain, and_true]
          by_cases open_ : world.accepts program src = true
          · simp [open_, World.exchange, dstPointer, srcPointer]
          · simp [open_]
      | multiplex dstData dstSelect dstKey =>
          have dstOwned : program.select? dst = some dstSelect := by
            simp [Program.select?, dstVariant, Variant.select?]
          have dstPointer : program.data dst = dstData := by
            simp [Program.data, dstVariant, Variant.data]
          have shared : program.SameSelect src dst ↔ srcSelect = dstSelect := by
            simp [Program.SameSelect, srcOwned, dstOwned, eq_comm]
          have srcOpen : world.accepts program src = (world.key srcSelect).isNone := by
            simp [World.accepts, srcVariant]
          have dstOpen : world.accepts program dst = (world.key dstSelect).isNone := by
            simp [World.accepts, dstVariant]
          unfold sendTo
          simp only [srcVariant, dstVariant, shared, srcOpen, dstOpen, srcOwned,
            World.exchange, srcPointer, dstPointer]
          by_cases same : srcSelect = dstSelect
          · simp [same]
          · cases world.key srcSelect <;> cases world.key dstSelect <;> simp [same]

end BaseMsg

end Channel
end Cgo
