import Cgo.Channel.Delivery
import Mathlib.Data.List.Find

/-!
# Nowait sends

The two overloads of `Channel::Nowait::operator<<`.  Each puts a `Simplex`
message without a semaphore on its stack and calls `recv_from` with `oneshot`,
so it never waits: what it returns is decided by the state in which it takes the
channel's lock.

The call is correct as long as no dead receiver of a select heads the queue.
`BaseMsg::recv_from(void*)` answers `InvalidSrc` for such a receiver, and
`recv_from` then gives up without a look at the receivers behind it.
-/

namespace Cgo
namespace Channel

variable {α : Type}

instance World.decidableLive (world : World α) (program : Program α) (message : MsgId) :
    Decidable (world.Live program message) :=
  inferInstanceAs (Decidable (_ ∧ _))

namespace Nowait

/-- The overloads of `operator<<`: of a `T&`, and of a `T&&` that is bound to the
caller's `x`. -/
inductive Overload
  | lvalue
  | rvalue (x : Var)
  deriving DecidableEq

/-- A nowait send: the `msg` on its stack and what the `simplex.data` of it
points to.  That is the caller's variable for a `T&`, and the local `T data` for
a `T&&`. -/
structure Send (program : Program α) where
  message : MsgId
  data : Var
  overload : Overload
  simplex : (program.msg message).variant = .simplex (some data) false
  sends : (program.msg message).side = .send
  oneshot : (program.msg message).oneshot = true
  own : ∀ x, overload = .rvalue x → x ≠ data

/-- The variable of the caller. -/
def Send.x {program : Program α} (send : Send program) : Var :=
  match send.overload with
  | .lvalue => send.data
  | .rvalue x => x

/-- The channel it sends on. -/
def Send.chan {program : Program α} (send : Send program) : ChanId :=
  (program.msg send.message).chan

section Calls

variable [Inhabited α] (program : Program α)

/-- The turns of the call under way on a channel, up to the one that releases the
lock. -/
def finish (id : ChanId) : Nat → System α → Option (System α)
  | 0, _ => none
  | fuel + 1, system =>
      match (system.chan id).call with
      | none => some system
      | some _ => (System.step program system (.turn id)).bind (finish id fuel)

/-- A whole call `recv_from(message)`.  Its loops unlink a receiver each time, so
there are at most three turns more than receivers. -/
def recvFrom (message : MsgId) (system : System α) : Option (System α) :=
  let id := (program.msg message).chan
  (System.step program system (.enter message)).bind
    (finish program id ((system.chan id).recvers.length + 3))

variable {program}

/-- `Nowait::operator<<(T& x)`. -/
def Send.lvalue (send : Send program) (system : System α) : Option (Bool × System α) :=
  (recvFrom program send.message system).map fun after =>
    (decide (after.phase send.message = .returned .ok), after)

/-- `Nowait::operator<<(T&& x)`. -/
def Send.rvalue (send : Send program) (x : Var) (system : System α) :
    Option (Bool × System α) :=
  send.lvalue { system with world := system.world.move (.user x) (.user send.data) }

/-- `Nowait::operator<<`. -/
def Send.call (send : Send program) (system : System α) : Option (Bool × System α) :=
  match send.overload with
  | .lvalue => send.lvalue system
  | .rvalue x => send.rvalue x system

end Calls

/-- The buffer has room, or a live receiver waits. -/
def CanSend (program : Program α) (system : System α) (id : ChanId) : Prop :=
  (system.chan id).buffer.length < program.capacity id ∨
    ∃ recver ∈ (system.chan id).recvers, system.world.Live program recver

/-- The first live receiver of a channel. -/
def firstLive? (program : Program α) (system : System α) (id : ChanId) : Option MsgId :=
  (system.chan id).recvers.find? fun recver => decide (system.world.Live program recver)

/-- The live messages of a queue, head first. -/
def liveQueue (program : Program α) (system : System α) (id : ChanId) (side : Side) :
    List MsgId :=
  ((system.chan id).queue side).filter fun message =>
    decide (system.world.Live program message)

/-- The value is in the buffer, or the first live receiver has it. -/
def Placed {program : Program α} (send : Send program) (value : α)
    (system after : System α) : Prop :=
  (after.chan send.chan).buffer =
      (system.chan send.chan).buffer ++ [⟨send.message, value⟩] ∨
    ∃ recver, firstLive? program system send.chan = some recver ∧
      (after.chan send.chan).given =
        (system.chan send.chan).given ++ [⟨recver, send.message, value⟩] ∧
      ∀ var, program.data recver = some var → after.world.mem var = some value

/-- What a nowait send of `value` owes its caller. -/
structure Honest {program : Program α} (send : Send program) (value : α)
    (system : System α) (sent : Bool) (after : System α) : Prop where
  succeeds : sent = true ↔ CanSend program system send.chan
  placed : sent = true → Placed send value system after
  unmoved : sent = false → after.world.mem send.x = some value
  buffer : sent = false →
    (after.chan send.chan).buffer = (system.chan send.chan).buffer
  queues : sent = false → ∀ side,
    liveQueue program after send.chan side = liveQueue program system send.chan side
  unlinked : sent = false → ∀ id side, send.message ∉ (after.chan id).queue side

/-- The states in which a nowait send is honest: there is room, or the receiver
at the head of the queue is live, or nobody could be served anyway and the
caller's variable is used in place. -/
def Clear {program : Program α} (send : Send program) (system : System α) : Prop :=
  (system.chan send.chan).buffer.length < program.capacity send.chan ∨
    (∃ recver ∈ (system.chan send.chan).recvers.head?, system.world.Live program recver) ∨
      (send.overload = .lvalue ∧
        ∀ recver ∈ (system.chan send.chan).recvers, ¬system.world.Live program recver)

/-! ## The turns of a nowait send -/

section Turns

variable [Inhabited α] {program : Program α} (send : Send program) {capacity : Nat}
variable {world : World α} {chan : Chan α}

omit [Inhabited α] in
theorem Send.plain : program.select? send.message = none := by
  simp [Program.select?, send.simplex, Variant.select?]

omit [Inhabited α] in
@[simp] theorem Send.data_eq : program.data send.message = some send.data := by
  simp [Program.data, send.simplex, Variant.data]

omit [Inhabited α] in
@[simp] theorem Send.accepts : world.accepts program send.message = true :=
  world.accepts_of_plain program send.plain

theorem Send.turn_eq (pc : Pc) :
    BaseChannel.turn program capacity world chan ⟨send.message, pc⟩ =
      BaseChannel.recvFrom program capacity world chan send.message pc := by
  simp [BaseChannel.turn, send.sends]

theorem Send.turn_buffer :
    BaseChannel.turn program capacity world chan ⟨send.message, .buffer⟩ =
      if chan.buffer.length ≠ capacity then
        (world.take program send.message, chan.push (world.offer program send.message),
          .goto .shift)
      else (world, chan, .goto .scan) := by
  rw [send.turn_eq]
  simp only [BaseChannel.recvFrom, bufferRecvFrom_eq, send.accepts]
  by_cases room : chan.buffer.length = capacity
  · simp [room]
  · simp [room]

theorem Send.turn_shift_nil
    (alone : chan.recvers = []) :
    BaseChannel.turn program capacity world chan ⟨send.message, .shift⟩ =
      (world, chan, .returned .ok) := by
  simp [send.turn_eq, BaseChannel.recvFrom, alone]

/-- The value at the front of the buffer goes to a receiver that accepts it; one
that does not is unlinked. -/
theorem Send.turn_shift_cons
    {recver : MsgId}
    {recvers : List MsgId}
    {front : Sent α}
    {behind : List (Sent α)}
    (waiting : chan.recvers = recver :: recvers)
    (found : chan.buffer = front :: behind) :
    BaseChannel.turn program capacity world chan ⟨send.message, .shift⟩ =
      if world.accepts program recver then
        (world.hand program recver front.value,
          { chan with recvers }.pop recver front behind, .returned .ok)
      else (world, { chan with recvers }, .goto .shift) := by
  simp only [send.turn_eq, BaseChannel.recvFrom, waiting, bufferSendTo_eq, found]
  by_cases accepted : world.accepts program recver = true
  · simp [accepted]
  · simp [accepted]

theorem Send.turn_scan_nil
    (alone : chan.recvers = []) :
    BaseChannel.turn program capacity world chan ⟨send.message, .scan⟩ =
      (world, chan, .returned .invalidOneshot) := by
  simp [send.turn_eq, BaseChannel.recvFrom, alone, send.oneshot]

/-- The receiver at the head decides: a dead one makes the call give up. -/
theorem Send.turn_scan_cons
    {recver : MsgId}
    {recvers : List MsgId}
    (waiting : chan.recvers = recver :: recvers)
    (different : send.message ≠ recver) :
    BaseChannel.turn program capacity world chan ⟨send.message, .scan⟩ =
      if world.accepts program recver then
        (world.exchange program send.message recver,
          { chan with recvers }.passOn recver (world.offer program send.message),
          .returned .ok)
      else (world, chan, .returned .invalidSrc) := by
  have separate : ¬program.SameSelect send.message recver := by
    rintro ⟨select, owned, _⟩
    simp [send.plain] at owned
  simp only [send.turn_eq, BaseChannel.recvFrom, waiting, BaseMsg.recvFrom,
    BaseMsg.sendTo_eq program world different, separate, if_false, send.accepts, send.plain]
  by_cases accepted : world.accepts program recver = true
  · simp [accepted, World.offer]
  · simp [accepted]

end Turns

/-! ## A whole call -/

section Whole

variable [Inhabited α] {program : Program α} {send : Send program} {system : System α}
variable {value : α}

theorem finish_free
    {id : ChanId}
    {fuel : Nat}
    (free : (system.chan id).call = none) :
    finish program id (fuel + 1) system = some system := by
  simp [finish, free]

theorem finish_turn
    {id : ChanId}
    {fuel : Nat}
    {call : Call}
    (held : (system.chan id).call = some call) :
    finish program id (fuel + 1) system =
      finish program id fuel (system.settle id call.message
        (BaseChannel.turn program (program.capacity id) system.world
          (system.chan id) call)) := by
  simp [finish, System.step, held]

omit [Inhabited α] in
theorem hand_mem
    {world : World α}
    {message : MsgId}
    {var : Var}
    (points : program.data message = some var) :
    (world.hand program message value).mem var = some value := by
  simp [World.hand, points, Ptr.ofData, World.move]

omit [Inhabited α] in
theorem exchange_mem
    {world : World α}
    {src dst : MsgId}
    {source target : Var}
    (srcPoints : program.data src = some source)
    (dstPoints : program.data dst = some target) :
    (world.exchange program src dst).mem target = world.mem source := by
  simp [World.exchange, srcPoints, dstPoints, Ptr.ofData, World.move]

/-- The loop after the value was stored: the first receiver that accepts gets the
front of the buffer. -/
theorem finish_shift
    (send : Send program)
    {front : Sent α}
    {behind : List (Sent α)}
    (recvers : List MsgId) :
    ∀ (system : System α) (fuel : Nat),
      (system.chan send.chan).call = some ⟨send.message, .shift⟩ →
      (system.chan send.chan).recvers = recvers →
      (system.chan send.chan).buffer = front :: behind →
      recvers.length + 1 < fuel →
      ∃ after, finish program send.chan fuel system = some after ∧
        after.phase send.message = .returned .ok ∧
        ((recvers.find? (system.world.accepts program) = none ∧
            (after.chan send.chan).buffer = front :: behind) ∨
          ∃ recver, recvers.find? (system.world.accepts program) = some recver ∧
            (after.chan send.chan).given =
              (system.chan send.chan).given ++ [⟨recver, front⟩] ∧
            ∀ var, program.data recver = some var →
              after.world.mem var = some front.value) := by
  induction recvers with
  | nil =>
      intro system fuel held alone found enough
      obtain ⟨fuel, rfl⟩ : ∃ rest, fuel = rest + 2 := ⟨fuel - 2, by omega⟩
      rw [finish_turn held, send.turn_shift_nil alone]
      refine ⟨_, finish_free (by simp [System.settle, Chan.resume]), ?_, .inl ⟨rfl, ?_⟩⟩
      · simp [System.settle, Next.phase]
      · simp [System.settle, found]
  | cons recver rest inductionHypothesis =>
      intro system fuel held waiting found enough
      obtain ⟨fuel, rfl⟩ : ∃ rest, fuel = rest + 2 := ⟨fuel - 2, by omega⟩
      rw [finish_turn held, send.turn_shift_cons waiting found]
      by_cases accepted : system.world.accepts program recver = true
      · rw [if_pos accepted]
        refine ⟨_, finish_free (by simp [System.settle, Chan.resume]), ?_,
          .inr ⟨recver, by simp [accepted], ?_, fun var points => ?_⟩⟩
        · simp [System.settle, Next.phase]
        · simp [System.settle, Chan.pop]
        · simpa [System.settle] using hand_mem points
      · rw [if_neg accepted]
        obtain ⟨after, ends, returned, handed⟩ := inductionHypothesis
          (system.settle send.chan send.message
            (system.world, { system.chan send.chan with recvers := rest }, .goto .shift))
          (fuel + 1) (by simp [System.settle, Chan.resume])
          (by simp [System.settle, Chan.resume]) (by simp [System.settle, Chan.resume, found])
          (by simp at enough; omega)
        refine ⟨after, ends, returned, ?_⟩
        simpa [accepted, System.settle] using handed

/-- A state in which a nowait send can take the lock, with `value` in the variable
that its message points to. -/
structure Ready (send : Send program) (value : α) (system : System α) : Prop where
  fresh : system.phase send.message = .fresh
  free : (system.chan send.chan).call = none
  holds : system.world.mem send.data = some value
  bounded : (system.chan send.chan).buffer.length ≤ program.capacity send.chan
  drained : ∀ recver ∈ (system.chan send.chan).recvers,
    system.world.accepts program recver = true → (system.chan send.chan).buffer = []
  pending : ∀ recver ∈ (system.chan send.chan).recvers, system.world.commits recver = 0
  unlinked : ∀ id side, send.message ∉ (system.chan id).queue side

omit [Inhabited α] in
theorem Ready.live_iff
    (ready : Ready send value system)
    {recver : MsgId}
    (linked : recver ∈ (system.chan send.chan).recvers) :
    system.world.Live program recver ↔ system.world.accepts program recver = true := by
  simp [World.Live, ready.pending recver linked]

omit [Inhabited α] in
theorem Ready.firstLive?_eq
    (ready : Ready send value system) :
    firstLive? program system send.chan =
      (system.chan send.chan).recvers.find? (system.world.accepts program) := by
  apply List.find?_congr
  intro recver linked
  rw [Bool.eq_iff_iff, decide_eq_true_iff]
  exact ready.live_iff linked

/-- The state in which the call has the lock and is about to make its turn at
`pc`, with nothing done yet. -/
def Send.locked (send : Send program) (system : System α) (pc : Pc) : System α :=
  { system with
    chan := Function.update system.chan send.chan
      { (system.chan send.chan).enter .send send.message with call := some ⟨send.message, pc⟩ }
    phase := Function.update system.phase send.message .inCall }

omit [Inhabited α] in
@[simp] theorem Send.locked_world (pc : Pc) :
    (send.locked system pc).world = system.world := rfl

omit [Inhabited α] in
@[simp] theorem Send.locked_chan (pc : Pc) :
    (send.locked system pc).chan send.chan =
      { (system.chan send.chan).enter .send send.message with
        call := some ⟨send.message, pc⟩ } := by
  simp [Send.locked]

theorem Ready.recvFrom_eq
    (ready : Ready send value system) :
    recvFrom program send.message system =
      finish program send.chan ((system.chan send.chan).recvers.length + 3)
        (send.locked system .buffer) := by
  have enters : System.step program system (.enter send.message) =
      some (send.locked system .buffer) := by
    have free := ready.free
    unfold Send.chan at free
    simp [System.step, ready.fresh, free, Send.locked, Send.chan, send.sends, Chan.enter]
  simp [recvFrom, enters, Send.chan]

/-- Without room the call goes on to the receivers. -/
theorem Ready.recvFrom_full
    (ready : Ready send value system)
    (full : (system.chan send.chan).buffer.length = program.capacity send.chan) :
    recvFrom program send.message system =
      finish program send.chan ((system.chan send.chan).recvers.length + 2)
        (send.locked system .scan) := by
  have settled : (send.locked system .buffer).settle send.chan send.message
      (system.world, (send.locked system .buffer).chan send.chan, .goto .scan) =
        send.locked system .scan := by
    simp [System.settle, Send.locked, Chan.resume, Next.phase]
  have held : ((send.locked system .buffer).chan send.chan).call =
      some ⟨send.message, .buffer⟩ := by simp
  rw [ready.recvFrom_eq, finish_turn held, send.turn_buffer,
    if_neg (by simpa [Chan.enter] using full), send.locked_world, settled]

/-- With room in the buffer the value is stored, and handed on when a receiver
waits for it. -/
theorem Ready.recvFrom_room
    (ready : Ready send value system)
    (room : (system.chan send.chan).buffer.length < program.capacity send.chan) :
    ∃ after, recvFrom program send.message system = some after ∧
      after.phase send.message = .returned .ok ∧ Placed send value system after := by
  have offered : system.world.offer program send.message = ⟨send.message, value⟩ := by
    simp [World.offer, World.load, ready.holds]
  have unfired : (system.world.take program send.message).accepts program =
      system.world.accepts program := by
    funext recver
    rw [World.take, World.accepts_commit_of_not_sameSelect, World.move_accepts]
    rintro ⟨select, owned, _⟩
    simp [send.plain] at owned
  have held : ((send.locked system .buffer).chan send.chan).call =
      some ⟨send.message, .buffer⟩ := by simp
  obtain ⟨front, behind, found⟩ : ∃ front behind,
      (system.chan send.chan).buffer ++ [⟨send.message, value⟩] = front :: behind := by
    apply List.exists_cons_of_ne_nil
    simp
  rw [ready.recvFrom_eq, finish_turn held, send.turn_buffer,
    if_pos (by simpa [Chan.enter] using Nat.ne_of_lt room), send.locked_world, offered]
  obtain ⟨after, ends, returned, handed⟩ := finish_shift send
    (system.chan send.chan).recvers
    ((send.locked system .buffer).settle send.chan send.message
      (system.world.take program send.message,
        ((send.locked system .buffer).chan send.chan).push ⟨send.message, value⟩,
        .goto .shift))
    ((system.chan send.chan).recvers.length + 2)
    (by simp [System.settle, Chan.resume])
    (by simp [System.settle, Chan.resume, Chan.push, Chan.enter])
    (by simpa [System.settle, Chan.push, Chan.enter] using found) (by omega)
  refine ⟨after, ends, returned, ?_⟩
  rw [Placed, ready.firstLive?_eq, found]
  simp only [System.settle, unfired] at handed
  rcases handed with ⟨_, kept⟩ | ⟨recver, first, given, got⟩
  · exact .inl kept
  · have empty := ready.drained recver (List.mem_of_find?_eq_some first)
      (by simpa using List.find?_some first)
    obtain ⟨rfl, rfl⟩ : (⟨send.message, value⟩ : Sent α) = front ∧ [] = behind := by
      simpa [empty] using found
    refine .inr ⟨recver, first, ?_, got⟩
    simpa [Chan.resume, Chan.push, Chan.enter] using given

/-- Without room, a live receiver at the head gets the value. -/
theorem Ready.recvFrom_head
    (ready : Ready send value system)
    {recver : MsgId}
    {rest : List MsgId}
    (full : (system.chan send.chan).buffer.length = program.capacity send.chan)
    (waiting : (system.chan send.chan).recvers = recver :: rest)
    (accepted : system.world.accepts program recver = true) :
    ∃ after, recvFrom program send.message system = some after ∧
      after.phase send.message = .returned .ok ∧ Placed send value system after := by
  have offered : system.world.offer program send.message = ⟨send.message, value⟩ := by
    simp [World.offer, World.load, ready.holds]
  have different : send.message ≠ recver := by
    rintro rfl
    exact ready.unlinked send.chan .recv (by simp [Chan.queue, waiting])
  have held : ((send.locked system .scan).chan send.chan).call =
      some ⟨send.message, .scan⟩ := by simp
  have linked : ((send.locked system .scan).chan send.chan).recvers = recver :: rest := by
    simpa [Chan.enter] using waiting
  rw [ready.recvFrom_full full, finish_turn held, send.turn_scan_cons linked different,
    send.locked_world, if_pos accepted, offered]
  refine ⟨_, finish_free (by simp [System.settle, Chan.resume]), ?_,
    .inr ⟨recver, ?_, ?_, ?_⟩⟩
  · simp [System.settle, Next.phase]
  · simp [ready.firstLive?_eq, waiting, accepted]
  · simp [System.settle, Chan.passOn, Chan.enter]
  · intro var points
    rw [← ready.holds]
    simpa [System.settle] using exchange_mem send.data_eq points

/-- Without room, and with nobody or a dead receiver at the head, the call gives
up and has changed nothing. -/
theorem Ready.recvFrom_refused
    (ready : Ready send value system)
    (full : (system.chan send.chan).buffer.length = program.capacity send.chan)
    (dead : ∀ recver ∈ (system.chan send.chan).recvers.head?,
      system.world.accepts program recver = false) :
    ∃ after, recvFrom program send.message system = some after ∧
      after.phase send.message ≠ .returned .ok ∧ after.world = system.world ∧
      ∀ id, (after.chan id).buffer = (system.chan id).buffer ∧
        ∀ side, (after.chan id).queue side = (system.chan id).queue side := by
  have held : ((send.locked system .scan).chan send.chan).call =
      some ⟨send.message, .scan⟩ := by simp
  obtain ⟨status, failed, given⟩ : ∃ status, status ≠ .ok ∧
      BaseChannel.turn program (program.capacity send.chan) system.world
        ((send.locked system .scan).chan send.chan) ⟨send.message, .scan⟩ =
          (system.world, (send.locked system .scan).chan send.chan, .returned status) := by
    cases waiting : (system.chan send.chan).recvers with
    | nil =>
        refine ⟨.invalidOneshot, by simp, send.turn_scan_nil ?_⟩
        simpa [Chan.enter] using waiting
    | cons recver rest =>
        have linked : ((send.locked system .scan).chan send.chan).recvers = recver :: rest := by
          simpa [Chan.enter] using waiting
        have different : send.message ≠ recver := by
          rintro rfl
          exact ready.unlinked send.chan .recv (by simp [Chan.queue, waiting])
        refine ⟨.invalidSrc, by simp, ?_⟩
        rw [send.turn_scan_cons linked different, if_neg (by simpa [waiting] using dead)]
  rw [ready.recvFrom_full full, finish_turn held, send.locked_world, given]
  refine ⟨_, finish_free (by simp [System.settle, Chan.resume]), ?_, rfl, fun id => ?_⟩
  · simpa [System.settle, Next.phase] using failed
  · by_cases here : id = send.chan
    · subst here
      refine ⟨by simp [System.settle, Chan.enter], fun side => ?_⟩
      cases side <;> simp [System.settle, Chan.queue, Chan.resume, Chan.enter]
    · simp [System.settle, Send.locked, here]

/-- The state in which `recv_from` is called: the overload for `T&&` has moved the
value into its local variable. -/
def Send.prepare (send : Send program) (system : System α) : System α :=
  match send.overload with
  | .lvalue => system
  | .rvalue x =>
      { system with world := system.world.move (.user x) (.user send.data) }

theorem Send.call_eq :
    send.call system = (recvFrom program send.message (send.prepare system)).map fun after =>
      (decide (after.phase send.message = .returned .ok), after) := by
  unfold Send.call Send.prepare
  cases send.overload with
  | lvalue => rfl
  | rvalue x => rfl

omit [Inhabited α] in
@[simp] theorem Send.prepare_chan : (send.prepare system).chan = system.chan := by
  unfold Send.prepare
  cases send.overload <;> rfl

omit [Inhabited α] in
@[simp] theorem Send.prepare_phase : (send.prepare system).phase = system.phase := by
  unfold Send.prepare
  cases send.overload <;> rfl

omit [Inhabited α] in
@[simp] theorem Send.prepare_commits :
    (send.prepare system).world.commits = system.world.commits := by
  unfold Send.prepare
  cases send.overload <;> simp

omit [Inhabited α] in
@[simp] theorem Send.prepare_accepts :
    (send.prepare system).world.accepts program = system.world.accepts program := by
  funext message
  unfold Send.prepare
  cases send.overload <;> simp

omit [Inhabited α] in
theorem Send.prepare_live (message : MsgId) :
    (send.prepare system).world.Live program message ↔ system.world.Live program message := by
  simp [World.Live]

omit [Inhabited α] in
theorem Send.prepare_data
    (holds : system.world.mem send.x = some value) :
    (send.prepare system).world.mem send.data = some value := by
  unfold Send.prepare
  unfold Send.x at holds
  cases chosen : send.overload with
  | lvalue => simpa [chosen] using holds
  | rvalue x => simpa [chosen, World.move] using holds

omit [Inhabited α] in
/-- After the preparation the caller's variable holds its value in one overload
only. -/
theorem Send.prepare_x
    (holds : system.world.mem send.x = some value) :
    (send.prepare system).world.mem send.x = some value ↔ send.overload = .lvalue := by
  unfold Send.prepare
  unfold Send.x at holds ⊢
  cases chosen : send.overload with
  | lvalue => simpa [chosen] using holds
  | rvalue x =>
      have apart := send.own x chosen
      simp [World.move, apart]

/-- Wherever the lock is free, a fresh nowait send is ready. -/
theorem Send.ready
    (reached : System.Reached program system)
    (free : (system.chan send.chan).call = none)
    (fresh : system.phase send.message = .fresh)
    (holds : system.world.mem send.x = some value) :
    Ready send value (send.prepare system) := by
  have wellFormed := WellFormed.of_reached reached
  have delivered := Delivered.of_reached reached
  have matched := Matched.of_reached reached send.chan
  have drained : ∀ recver ∈ (system.chan send.chan).recvers,
      system.world.accepts program recver = true → (system.chan send.chan).buffer = [] :=
    fun _ linked accepted => matched.drained free linked accepted
  refine ⟨by simpa using fresh, by simpa using free, send.prepare_data holds,
    by simpa using matched.bounded, by simpa using drained, ?_, ?_⟩
  · intro recver linked
    rw [send.prepare_chan] at linked
    obtain ⟨here, side, _⟩ := wellFormed.queued send.chan .recv recver linked
    rw [send.prepare_commits]
    apply delivered.pending recver
    rw [here]
    exact .inl (by rw [side]; exact linked)
  · intro id side linked
    rw [send.prepare_chan] at linked
    have returned := (wellFormed.queued id side _ linked).2.2.2
    rw [fresh] at returned
    cases returned

omit [Inhabited α] in
theorem Send.prepare_firstLive? (id : ChanId) :
    firstLive? program (send.prepare system) id = firstLive? program system id := by
  simp [firstLive?, send.prepare_live]

omit [Inhabited α] in
/-- A call that served the message is honest. -/
theorem Honest.of_placed
    {after : System α}
    (can : CanSend program system send.chan)
    (placed : Placed send value (send.prepare system) after) :
    Honest send value system true after where
  succeeds := by simp [can]
  placed := by
    intro _
    simpa [Placed, send.prepare_firstLive?] using placed
  unmoved := by simp
  buffer := by simp
  queues := by simp
  unlinked := by simp

omit [Inhabited α] in
/-- A call that gave up and changed nothing is honest when nothing could be done and
the value is still where it was. -/
theorem Honest.refused_iff
    {after : System α}
    (ready : Ready send value (send.prepare system))
    (holds : system.world.mem send.x = some value)
    (world : after.world = (send.prepare system).world)
    (chan : ∀ id, (after.chan id).buffer = (system.chan id).buffer ∧
      ∀ side, (after.chan id).queue side = (system.chan id).queue side) :
    Honest send value system false after ↔
      send.overload = .lvalue ∧ ¬CanSend program system send.chan := by
  constructor
  · intro honest
    refine ⟨?_, by simpa using honest.succeeds⟩
    rw [← send.prepare_x holds, ← world]
    exact honest.unmoved rfl
  · rintro ⟨used, cannot⟩
    refine ⟨by simp [cannot], by simp, fun _ => ?_, fun _ => (chan _).1, fun _ side => ?_,
      fun _ id side => ?_⟩
    · rw [world]
      exact (send.prepare_x holds).mpr used
    · rw [liveQueue, liveQueue, (chan _).2 side, world]
      simp [send.prepare_live]
    · rw [(chan id).2 side, ← send.prepare_chan]
      exact ready.unlinked id side

end Whole

/-- A nowait send always returns, and it keeps what it owes its caller exactly
when the channel is clear for it. -/
theorem nowait_send_honest_iff
    [Inhabited α]
    {program : Program α}
    {system : System α}
    {value : α}
    (send : Send program)
    (reached : System.Reached program system)
    (free : (system.chan send.chan).call = none)
    (fresh : system.phase send.message = .fresh)
    (holds : system.world.mem send.x = some value) :
    ∃ sent after, send.call system = some (sent, after) ∧
      (Honest send value system sent after ↔ Clear send system) := by
  have ready := send.ready reached free fresh holds
  have bounded := ready.bounded
  rw [send.prepare_chan] at bounded
  rcases Nat.lt_or_eq_of_le bounded with room | full
  · obtain ⟨after, called, returned, placed⟩ := ready.recvFrom_room (by simpa using room)
    refine ⟨true, after, by simp [send.call_eq, called, returned], ?_⟩
    exact iff_of_true (.of_placed (.inl room) placed) (.inl room)
  · have live : ∀ recver ∈ (system.chan send.chan).recvers,
        (system.world.Live program recver ↔ system.world.accepts program recver = true) := by
      intro recver linked
      rw [← send.prepare_live, ready.live_iff (by simpa using linked), send.prepare_accepts]
    by_cases head : ∃ recver ∈ (system.chan send.chan).recvers.head?,
        system.world.Live program recver
    · obtain ⟨recver, first, alive⟩ := head
      obtain ⟨rest, waiting⟩ := List.head?_eq_some_iff.mp first
      have linked : recver ∈ (system.chan send.chan).recvers := by simp [waiting]
      obtain ⟨after, called, returned, placed⟩ := ready.recvFrom_head (by simpa using full)
        (by simpa using waiting) (by simpa using (live recver linked).mp alive)
      refine ⟨true, after, by simp [send.call_eq, called, returned], ?_⟩
      exact iff_of_true (.of_placed (.inr ⟨recver, linked, alive⟩) placed)
        (.inr (.inl ⟨recver, first, alive⟩))
    · obtain ⟨after, called, failed, world, chan⟩ := ready.recvFrom_refused
        (by simpa using full) (by
          intro recver first
          rw [send.prepare_chan] at first
          have dead := fun alive => head ⟨recver, first, alive⟩
          rw [live recver (List.mem_of_mem_head? first)] at dead
          simpa using dead)
      refine ⟨false, after, by simp [send.call_eq, called, failed], ?_⟩
      rw [Honest.refused_iff ready holds world (by simpa using chan), Clear, CanSend]
      have noRoom : ¬(system.chan send.chan).buffer.length < program.capacity send.chan := by
        omega
      simp only [noRoom, head, false_or]
      apply and_congr_right
      intro _
      exact not_exists.trans (forall_congr' fun recver => not_and)

/-- A program with nowait sends.  Messages 0 and 2 are the receives of select 0 on
channels 0 and 1, message 1 is a plain receive on channel 0 and message 3 a plain
send on channel 1; all others are nowait sends on channel 0.  Neither channel has
a buffer. -/
def sample : Program Nat where
  capacity _ := 0
  msg
    | 0 => ⟨.multiplex (some 0) 0 ⟨30, by decide⟩, 0, .recv, false⟩
    | 1 => ⟨.simplex (some 1) true, 0, .recv, false⟩
    | 2 => ⟨.multiplex (some 2) 0 ⟨31, by decide⟩, 1, .recv, false⟩
    | 3 => ⟨.simplex (some 3) true, 1, .send, false⟩
    | other => ⟨.simplex (some other) false, 0, .send, true⟩
  mem var := var + 100
  sends_data message _ := by
    rcases message with _ | _ | _ | _ | other <;> simp [Variant.data]

/-- Its message 4, called with an lvalue. -/
def sampleSend : Send sample where
  message := 4
  data := 4
  overload := .lvalue
  simplex := rfl
  sends := rfl
  oneshot := rfl
  own := by simp

theorem nowait_send_honest_iff_sample :
    let system := System.after sample [.enter 1, .turn 0, .turn 0]
    ∃ after, sampleSend.call system = some (true, after) ∧
      Honest sampleSend 104 system true after := by
  intro system
  have reached : System.Reached sample system := System.reached_after _ _
  obtain ⟨sent, after, called, honest_iff⟩ := nowait_send_honest_iff sampleSend reached
    (by decide) (by decide) (by decide : system.world.mem sampleSend.x = some 104)
  have honest := honest_iff.mpr (.inr (.inl ⟨1, by decide, by decide⟩))
  obtain rfl := honest.succeeds.mpr (.inr ⟨1, by decide, by decide⟩)
  exact ⟨after, called, honest⟩

/-- The select's receive on channel 0 waits in front of the plain one when the send
on channel 1 fires the select.  The nowait send then gives up on it, with the plain
receiver still waiting. -/
theorem dead_head_hides_recver :
    let system := System.after sample
      [.enter 0, .turn 0, .turn 0, .enter 2, .turn 1, .turn 1, .enter 1, .turn 0, .turn 0,
        .enter 3, .turn 1, .turn 1]
    System.Reached sample system ∧ (system.chan 0).call = none ∧
      system.phase sampleSend.message = .fresh ∧
      system.world.mem sampleSend.x = some 104 ∧
      (system.chan 0).recvers = [0, 1] ∧ CanSend sample system 0 ∧
      (sampleSend.call system).map Prod.fst = some false := by
  intro system
  refine ⟨System.reached_after _ _, by decide, by decide, by decide, by decide, ?_, by decide⟩
  exact .inr ⟨1, by decide, by decide⟩

end Nowait
end Channel
end Cgo
