import Cgo.Event.Calls

/-!
# From `send` to `recv`

One direction of a TCP connection: a coroutine that calls `send` again and again and may
close its socket, the kernel with the bytes it has accepted and not yet given away, and a
coroutine that calls `recv` again and again on the other side.  The kernel keeps the order
of the bytes; it may accept and give away as few of them as it likes, fail at any time, and
reset the connection.  A wait may time out or throw.
-/

namespace Cgo
namespace Event

open Lib (Retry)

/-- A call of `recv` that has not returned: its `size` and its loop. -/
structure Receiving where
  size : Nat
  loop : Retry.State (List UInt8) (Ended (List UInt8))

/-- One direction of a connection. -/
structure Stream where
  /-- What the kernel has accepted and not given away. -/
  inFlight : List UInt8
  /-- The sender has closed its socket. -/
  closed : Bool
  reset : Bool
  /-- The call of `send` that has not returned. -/
  sending : Option (List UInt8 × Sending)
  receiving : Option Receiving
  /-- All that the kernel has accepted, and the calls that have returned, oldest first.
  Nobody keeps these. -/
  accepted : List UInt8
  sends : List (List UInt8 × Sending)
  recvs : List (Nat × Ended (List UInt8))

namespace Stream

/-- The connection is established. -/
def initial : Stream where
  inFlight := []
  closed := false
  reset := false
  sending := none
  receiving := none
  accepted := []
  sends := []
  recvs := []

inductive Label where
  | send (data : List UInt8)
  /-- A step of `send`. -/
  | sender (label : Sending.Label)
  | sendReturns
  /-- `_wait_sock_event` throws in `send`. -/
  | sendThrows
  | close
  | recv (size : Nat)
  /-- A step of `recv`. -/
  | receiver (label : Retry.Label Received)
  | recvReturns
  /-- The kernel gives the connection up. -/
  | reset

/-- The bytes that an answer to `::send` accepts. -/
def taken (data : List UInt8) (i : Nat) : Sending.Label → List UInt8
  | .call (.accepted count _) => (data.drop i).take count
  | _ => []

/-- After a reset the kernel accepts nothing. -/
def MayAccept (stream : Stream) : Sending.Label → Prop
  | .call (.accepted _ _) => stream.reset = false
  | _ => True

/-- The kernel gives away the first bytes it has; none only if none were asked for, or none
will come.  A call that fails sets `errno`. -/
def MayGive (stream : Stream) (size : Nat) : Retry.Label Received → Prop
  | .answer (.read bytes _) =>
      bytes <+: stream.inFlight ∧
        (bytes = [] → size = 0 ∨ stream.reset = true ∨
          (stream.closed = true ∧ stream.inFlight = []))
  | .answer (.failed errno) => errno ≠ 0
  | .wake _ => True

instance (stream : Stream) (label : Sending.Label) : Decidable (stream.MayAccept label) := by
  unfold MayAccept
  split <;> infer_instance

instance (stream : Stream) (size : Nat) (label : Retry.Label Received) :
    Decidable (stream.MayGive size label) := by
  unfold MayGive
  split <;> infer_instance

variable (strerror : Errno → String) (source target : Socket)

/-- One step. -/
def step (stream : Stream) : Label → Option Stream
  | .send data =>
      if stream.sending = none ∧ stream.closed = false then
        some { stream with sending := some (data, .initial data) }
      else none
  | .sender label =>
      match stream.sending with
      | none => none
      | some (data, sending) =>
          if stream.MayAccept label then
            (Sending.step strerror source data sending label).map fun next =>
              { stream with
                sending := some (data, next)
                inFlight := stream.inFlight ++ taken data sending.i label
                accepted := stream.accepted ++ taken data sending.i label }
          else none
  | .sendReturns =>
      match stream.sending with
      | some (data, ⟨i, .returned result, sent⟩) =>
          some { stream with
            sending := none
            sends := stream.sends ++ [(data, ⟨i, .returned result, sent⟩)] }
      | _ => none
  | .sendThrows =>
      match stream.sending with
      | some (data, ⟨i, .waiting, sent⟩) =>
          some { stream with
            sending := none
            sends := stream.sends ++ [(data, ⟨i, .waiting, sent⟩)] }
      | _ => none
  | .close => if stream.sending = none then some { stream with closed := true } else none
  | .recv size =>
      match stream.receiving with
      | none => some { stream with receiving := some ⟨size, recvStart size⟩ }
      | some _ => none
  | .receiver label =>
      match stream.receiving with
      | none => none
      | some receiving =>
          if stream.MayGive receiving.size label then
            ((target.recv strerror).step (Received.fits receiving.size) receiving.loop label).map
              fun next =>
                { stream with
                  receiving := some ⟨receiving.size, next⟩
                  inFlight := stream.inFlight.drop (label.given Received.given).length }
          else none
  | .recvReturns =>
      match stream.receiving with
      | some ⟨size, _, .returned result⟩ =>
          some { stream with receiving := none, recvs := stream.recvs ++ [(size, result)] }
      | _ => none
  | .reset => some { stream with reset := true, inFlight := [] }

/-- A call is for fewer than 2^31 bytes. -/
def Label.Short : Label → Prop
  | .send data => data.length < 2 ^ 31
  | .recv size => size < 2 ^ 31
  | _ => True

instance (label : Label) : Decidable label.Short := by
  unfold Label.Short
  split <;> infer_instance

/-- All that `recv` has returned. -/
def received (stream : Stream) : List UInt8 :=
  stream.recvs.flatMap fun recv => keptBytes recv.2

/-- What the call of `recv` that has ended is about to return. -/
def pending (stream : Stream) : List UInt8 :=
  match stream.receiving with
  | none => []
  | some receiving => receiving.loop.pc.kept keptBytes

/-- What the kernel has accepted of the data of a call of `send`. -/
def piece (send : List UInt8 × Sending) : List UInt8 :=
  send.1.take send.2.i

/-- The same for the call that has not returned. -/
def current (stream : Stream) : List UInt8 :=
  match stream.sending with
  | none => []
  | some send => piece send

/-- A result says that the other side has sent all. -/
def AtEnd (size : Nat) : Ended (List UInt8) → Prop
  | .error error => 0 < size ∧ error.errCode = 0
  | _ => False

/-- Nothing will come any more. -/
def Over (stream : Stream) : Prop :=
  stream.reset = true ∨ (stream.closed = true ∧ stream.inFlight = [])

/-- The sends, the kernel and the receives fit together. -/
structure Sound (stream : Stream) : Prop where
  given : ∃ lost, stream.received ++ stream.pending ++ stream.inFlight ++ lost = stream.accepted ∧
    (stream.reset = false → lost = [])
  emptied : stream.reset = true → stream.inFlight = []
  pieces : stream.accepted = stream.sends.flatMap piece ++ stream.current
  sends : ∀ send ∈ stream.sends, ∃ failed, Sending.Ordered send.1 failed send.2
  sending : ∀ send, stream.sending = some send →
    send.1.length < 2 ^ 31 ∧ ∃ failed, Sending.Ordered send.1 failed send.2
  idle : stream.closed = true → stream.sending = none
  recvs : ∀ recv ∈ stream.recvs, AtEnd recv.1 recv.2 → stream.Over
  receiving : ∀ receiving, stream.receiving = some receiving → receiving.size < 2 ^ 31 ∧
    ∀ result, receiving.loop.pc = .returned result → AtEnd receiving.size result → stream.Over

/-! ## What a step can do -/

inductive Move (stream : Stream) : Label → Stream → Prop
  | send {data : List UInt8}
      (idle : stream.sending = none)
      (open_ : stream.closed = false) :
      Move stream (.send data) { stream with sending := some (data, .initial data) }
  | sender {label : Sending.Label} {data : List UInt8} {sending next : Sending}
      (sends : stream.sending = some (data, sending))
      (accepts : stream.MayAccept label)
      (stepped : Sending.step strerror source data sending label = some next) :
      Move stream (.sender label)
        { stream with
          sending := some (data, next)
          inFlight := stream.inFlight ++ taken data sending.i label
          accepted := stream.accepted ++ taken data sending.i label }
  | sendReturns {data : List UInt8} {sending : Sending}
      (sends : stream.sending = some (data, sending)) :
      Move stream .sendReturns
        { stream with sending := none, sends := stream.sends ++ [(data, sending)] }
  | sendThrows {data : List UInt8} {sending : Sending}
      (sends : stream.sending = some (data, sending)) :
      Move stream .sendThrows
        { stream with sending := none, sends := stream.sends ++ [(data, sending)] }
  | close (idle : stream.sending = none) : Move stream .close { stream with closed := true }
  | recv {size : Nat} (idle : stream.receiving = none) :
      Move stream (.recv size) { stream with receiving := some ⟨size, recvStart size⟩ }
  | receiver {label : Retry.Label Received} {receiving : Receiving}
      {next : Retry.State (List UInt8) (Ended (List UInt8))}
      (receives : stream.receiving = some receiving)
      (gives : stream.MayGive receiving.size label)
      (stepped : (target.recv strerror).step (Received.fits receiving.size) receiving.loop label =
        some next) :
      Move stream (.receiver label)
        { stream with
          receiving := some ⟨receiving.size, next⟩
          inFlight := stream.inFlight.drop (label.given Received.given).length }
  | recvReturns {size : Nat} {store : List UInt8} {result : Ended (List UInt8)}
      (receives : stream.receiving = some ⟨size, store, .returned result⟩) :
      Move stream .recvReturns
        { stream with receiving := none, recvs := stream.recvs ++ [(size, result)] }
  | reset : Move stream .reset { stream with reset := true, inFlight := [] }

variable {strerror source target} {stream after : Stream} {label : Label}

theorem move_of_step
    (stepped : step strerror source target stream label = some after) :
    Move strerror source target stream label after := by
  cases label with
  | send data =>
      simp only [step, Option.ite_none_right_eq_some, Option.some.injEq] at stepped
      obtain ⟨⟨idle, open_⟩, rfl⟩ := stepped
      exact .send idle open_
  | sender label =>
      simp only [step] at stepped
      split at stepped
      · cases stepped
      · next data sending sends =>
          rw [Option.ite_none_right_eq_some] at stepped
          obtain ⟨accepts, moved⟩ := stepped
          obtain ⟨next, below, rfl⟩ := Option.map_eq_some_iff.mp moved
          exact .sender sends accepts below
  | sendReturns =>
      simp only [step] at stepped
      split at stepped
      · next data i result sent sends =>
          obtain rfl := Option.some.inj stepped
          exact .sendReturns sends
      · cases stepped
  | sendThrows =>
      simp only [step] at stepped
      split at stepped
      · next data i sent sends =>
          obtain rfl := Option.some.inj stepped
          exact .sendThrows sends
      · cases stepped
  | close =>
      simp only [step, Option.ite_none_right_eq_some, Option.some.injEq] at stepped
      obtain ⟨idle, rfl⟩ := stepped
      exact .close idle
  | recv size =>
      simp only [step] at stepped
      split at stepped
      · next idle =>
          obtain rfl := Option.some.inj stepped
          exact .recv idle
      · cases stepped
  | receiver label =>
      simp only [step] at stepped
      split at stepped
      · cases stepped
      · next receiving receives =>
          rw [Option.ite_none_right_eq_some] at stepped
          obtain ⟨gives, moved⟩ := stepped
          obtain ⟨next, below, rfl⟩ := Option.map_eq_some_iff.mp moved
          exact .receiver receives gives below
  | recvReturns =>
      simp only [step] at stepped
      split at stepped
      · next size store result receives =>
          obtain rfl := Option.some.inj stepped
          exact .recvReturns receives
      · cases stepped
  | reset =>
      obtain rfl := Option.some.inj stepped
      exact .reset

/-! ## The bytes stay in order -/

/-- A step of `send` moves `i` past what the kernel accepts. -/
theorem piece_of_step
    {data : List UInt8}
    {sending next : Sending}
    {label : Sending.Label}
    {failed after : Prop}
    (ordered : Sending.Ordered data failed sending)
    (orderedNext : Sending.Ordered data after next)
    (stepped : Sending.step strerror source data sending label = some next) :
    piece (data, next) = piece (data, sending) ++ taken data sending.i label := by
  have same := orderedNext.sent
  cases label with
  | wake ready =>
      have kept : next.i = sending.i := by
        simp only [Sending.step] at stepped
        split at stepped
        · split at stepped <;> (obtain rfl := Option.some.inj stepped; rfl)
        · cases stepped
      simp [piece, taken, kept]
  | call response =>
      simp only [Sending.step] at stepped
      split at stepped
      · split at stepped
        · obtain rfl := Option.some.inj stepped
          simp only [ordered.sent] at same
          have length := congrArg List.length same
          cases response with
          | accepted count errno =>
              simp only [Sending.positions, List.length_append, List.length_range,
                List.length_range'] at length
              simp only [piece, taken, ← length]
              exact List.take_add
          | failed errno =>
              simp only [Sending.positions, List.append_nil, List.length_range] at length
              simp [piece, taken, ← length]
        · cases stepped
      · cases stepped

/-- An error of `recv` without a number says that nothing will come any more. -/
theorem over_of_decision
    {size : Nat}
    {res : List UInt8}
    {reply : Received}
    {result : Ended (List UInt8)}
    (gives : stream.MayGive size (.answer reply))
    (decided : ((target.recv strerror).decide res reply).2 = some result)
    (short : size < 2 ^ 31)
    (fits : reply.fits size = true)
    (atEnd : AtEnd size result) :
    stream.Over := by
  cases reply with
  | read bytes errno =>
      cases bytes with
      | nil =>
          rcases gives.2 rfl with none_ | reset | stays
          · cases result with
            | error error => exact absurd none_ (Nat.pos_iff_ne_zero.mp atEnd.1)
            | ok bytes => exact atEnd.elim
            | throws thrown => exact atEnd.elim
          · exact .inl reset
          · exact .inr stays
      | cons first rest =>
          have bounded : (first :: rest).length ≤ size := by simpa [Received.fits] using fits
          rw [target.recv_bytes strerror res errno (by simp) (by omega)] at decided
          obtain rfl := Option.some.inj decided
          exact atEnd.elim
  | failed errno =>
      rw [target.recv_failed] at decided
      obtain ⟨error, failed, rfl⟩ := Option.map_eq_some_iff.mp decided
      have numbered : error.errCode = errno := by
        simp only [Socket.sendError] at failed
        split at failed
        · exact congrArg Socket.Error.errCode (Option.some.inj failed).symm
        · split at failed
          · exact congrArg Socket.Error.errCode (Option.some.inj failed).symm
          · cases failed
      exact absurd (numbered.symm.trans atEnd.2) gives

namespace Sound

theorem initial : Sound initial where
  given := ⟨[], rfl, fun _ => rfl⟩
  emptied := fun _ => rfl
  pieces := rfl
  sends := by simp [Stream.initial]
  sending := by simp [Stream.initial]
  idle := fun _ => rfl
  recvs := by simp [Stream.initial]
  receiving := by simp [Stream.initial]

/-- `send` is called. -/
private theorem send
    {data : List UInt8}
    (sound : Sound stream)
    (idle : stream.sending = none)
    (open_ : stream.closed = false)
    (short : data.length < 2 ^ 31) :
    Sound { stream with sending := some (data, .initial data) } where
  given := sound.given
  emptied := sound.emptied
  pieces := by simpa [current, idle, piece, Sending.initial] using sound.pieces
  sends := sound.sends
  sending := by
    rintro send ⟨⟩
    exact ⟨short, _, .initial⟩
  idle := by simp [open_]
  recvs := sound.recvs
  receiving := sound.receiving

/-- `send` goes on. -/
private theorem sender
    {label : Sending.Label}
    {data : List UInt8}
    {sending next : Sending}
    (sound : Sound stream)
    (sends : stream.sending = some (data, sending))
    (accepts : stream.MayAccept label)
    (stepped : Sending.step strerror source data sending label = some next) :
    Sound { stream with
      sending := some (data, next)
      inFlight := stream.inFlight ++ taken data sending.i label
      accepted := stream.accepted ++ taken data sending.i label } := by
  obtain ⟨short, failed, ordered⟩ := sound.sending _ sends
  have orderedNext := ordered.step stepped (Sending.small_of_step stepped short)
  have open_ : stream.closed = false := by
    by_contra closed
    simp [sound.idle (by simpa using closed)] at sends
  have none_ : stream.reset = true → taken data sending.i label = [] := by
    intro reset
    cases label with
    | wake ready => rfl
    | call response =>
        cases response with
        | accepted count errno => exact absurd accepts (by simp [MayAccept, reset])
        | failed errno => rfl
  have isReset : stream.Over → stream.reset = true := by
    rintro (reset | ⟨closed, _⟩)
    · exact reset
    · simp [open_] at closed
  constructor
  · obtain ⟨lost, whole, kept⟩ := sound.given
    cases reset : stream.reset with
    | false =>
        refine ⟨[], ?_, fun _ => rfl⟩
        rw [kept reset, List.append_nil] at whole
        simp only [List.append_nil, ← whole, List.append_assoc]
        rfl
    | true =>
        refine ⟨lost, ?_, by simp⟩
        simpa [none_ reset, received, pending] using whole
  · intro reset
    simp [none_ reset, sound.emptied reset]
  · have longer := piece_of_step ordered orderedNext stepped
    simp only [current, longer, sound.pieces, sends, List.append_assoc]
  · exact sound.sends
  · rintro send ⟨⟩
    exact ⟨short, _, orderedNext⟩
  · simp [open_]
  · exact fun recv member atEnd => .inl (isReset (sound.recvs recv member atEnd))
  · intro receiving receives
    obtain ⟨small, ends⟩ := sound.receiving receiving receives
    exact ⟨small, fun result returned atEnd => .inl (isReset (ends result returned atEnd))⟩

/-- `send` ends. -/
private theorem sendEnds
    {data : List UInt8}
    {sending : Sending}
    (sound : Sound stream)
    (sends : stream.sending = some (data, sending)) :
    Sound { stream with sending := none, sends := stream.sends ++ [(data, sending)] } where
  given := sound.given
  emptied := sound.emptied
  pieces := by simpa [current, sends] using sound.pieces
  sends := by
    intro send member
    rcases List.mem_append.mp member with before | last
    · exact sound.sends send before
    · obtain rfl := List.mem_singleton.mp last
      exact (sound.sending _ sends).2
  sending := by simp
  idle := fun _ => rfl
  recvs := sound.recvs
  receiving := sound.receiving

/-- The sender closes its socket. -/
private theorem close
    (sound : Sound stream)
    (idle : stream.sending = none) :
    Sound { stream with closed := true } := by
  have stays : stream.Over → Over { stream with closed := true } := by
    rintro (reset | ⟨_, empty⟩)
    · exact .inl reset
    · exact .inr ⟨rfl, empty⟩
  refine ⟨sound.given, sound.emptied, sound.pieces, sound.sends, sound.sending, fun _ => idle,
    fun recv member atEnd => stays (sound.recvs recv member atEnd), ?_⟩
  intro receiving receives
  obtain ⟨small, ends⟩ := sound.receiving receiving receives
  exact ⟨small, fun result returned atEnd => stays (ends result returned atEnd)⟩

/-- `recv` is called. -/
private theorem recv
    {size : Nat}
    (sound : Sound stream)
    (idle : stream.receiving = none)
    (short : size < 2 ^ 31) :
    Sound { stream with receiving := some ⟨size, recvStart size⟩ } where
  given := by simpa [received, pending, idle, recvStart, Retry.Pc.kept] using sound.given
  emptied := sound.emptied
  pieces := sound.pieces
  sends := sound.sends
  sending := sound.sending
  idle := sound.idle
  recvs := sound.recvs
  receiving := by
    rintro receiving ⟨⟩
    exact ⟨short, by simp [recvStart]⟩

/-- `recv` goes on. -/
private theorem receiver
    {label : Retry.Label Received}
    {receiving : Receiving}
    {next : Retry.State (List UInt8) (Ended (List UInt8))}
    (sound : Sound stream)
    (receives : stream.receiving = some receiving)
    (gives : stream.MayGive receiving.size label)
    (stepped : (target.recv strerror).step (Received.fits receiving.size) receiving.loop label =
      some next) :
    Sound { stream with
      receiving := some ⟨receiving.size, next⟩
      inFlight := stream.inFlight.drop (label.given Received.given).length } := by
  obtain ⟨short, ends⟩ := sound.receiving receiving receives
  have first : label.given Received.given <+: stream.inFlight := by
    cases label with
    | wake ending => exact List.nil_prefix
    | answer reply =>
        cases reply with
        | read bytes errno => exact gives.1
        | failed errno => exact List.nil_prefix
  have split : label.given Received.given ++
      stream.inFlight.drop (label.given Received.given).length = stream.inFlight := by
    obtain ⟨rest, whole⟩ := first
    rw [← whole, List.drop_left]
  have moved := (Socket.recv_conserves short).step stepped
  have stays : stream.Over → Over { stream with
      receiving := some ⟨receiving.size, next⟩
      inFlight := stream.inFlight.drop (label.given Received.given).length } := by
    rintro (reset | ⟨closed, empty⟩)
    · exact .inl reset
    · exact .inr ⟨closed, by simp [empty]⟩
  constructor
  · obtain ⟨lost, whole, kept⟩ := sound.given
    refine ⟨lost, ?_, kept⟩
    rw [← split] at whole
    simpa [received, pending, receives, ← moved] using whole
  · intro reset
    simp [sound.emptied reset]
  · exact sound.pieces
  · exact sound.sends
  · exact sound.sending
  · exact sound.idle
  · exact fun recv member atEnd => stays (sound.recvs recv member atEnd)
  · rintro _ ⟨⟩
    refine ⟨short, fun result returned atEnd => stays ?_⟩
    cases Retry.move_of_step stepped with
    | ends calling possible decided =>
        obtain rfl := Retry.Pc.returned.inj returned
        exact over_of_decision gives (by rw [decided]) short possible atEnd
    | again => cases returned
    | expires waiting expired =>
        obtain rfl := Retry.Pc.returned.inj returned
        obtain rfl := Option.some.inj expired
        exact absurd atEnd.2 (by simp [etimedout])
    | throws waiting =>
        obtain rfl := Retry.Pc.returned.inj returned
        exact atEnd.elim
    | goesOn => cases returned
    | wakes => cases returned

/-- `recv` returns. -/
private theorem recvReturns
    {size : Nat}
    {store : List UInt8}
    {result : Ended (List UInt8)}
    (sound : Sound stream)
    (receives : stream.receiving = some ⟨size, store, .returned result⟩) :
    Sound { stream with receiving := none, recvs := stream.recvs ++ [(size, result)] } where
  given := by
    obtain ⟨lost, whole, kept⟩ := sound.given
    refine ⟨lost, ?_, kept⟩
    simpa [pending, receives, received, Retry.Pc.kept] using whole
  emptied := sound.emptied
  pieces := sound.pieces
  sends := sound.sends
  sending := sound.sending
  idle := sound.idle
  recvs := by
    intro recv member atEnd
    rcases List.mem_append.mp member with before | last
    · exact sound.recvs recv before atEnd
    · obtain rfl := List.mem_singleton.mp last
      exact (sound.receiving _ receives).2 result rfl atEnd
  receiving := by simp

/-- What the kernel had is lost. -/
private theorem reset (sound : Sound stream) :
    Sound { stream with reset := true, inFlight := [] } where
  given := by
    obtain ⟨lost, whole, _⟩ := sound.given
    refine ⟨stream.inFlight ++ lost, ?_, by simp⟩
    rw [← whole]
    simp only [List.append_nil, ← List.append_assoc]
    rfl
  emptied := fun _ => rfl
  pieces := sound.pieces
  sends := sound.sends
  sending := sound.sending
  idle := sound.idle
  recvs := fun _ _ _ => .inl rfl
  receiving := fun receiving receives =>
    ⟨(sound.receiving receiving receives).1, fun _ _ _ => .inl rfl⟩

/-- The step rule. -/
theorem step
    (sound : Sound stream)
    (stepped : step strerror source target stream label = some after)
    (short : label.Short) :
    Sound after := by
  cases move_of_step stepped with
  | send idle open_ => exact sound.send idle open_ short
  | sender sends accepts below => exact sound.sender sends accepts below
  | sendReturns sends => exact sound.sendEnds sends
  | sendThrows sends => exact sound.sendEnds sends
  | close idle => exact sound.close idle
  | recv idle => exact sound.recv idle short
  | receiver receives gives below => exact sound.receiver receives gives below
  | recvReturns receives => exact sound.recvReturns receives
  | reset => exact sound.reset

theorem of_path
    {taken : List (Lib.Transition Stream Label)}
    (path : Lib.Path (Stream.step strerror source target) Stream.initial taken stream)
    (short : ∀ transition ∈ taken, transition.label.Short) :
    Sound stream :=
  path.guarded_invariant short .initial
    fun _ _ _ _ sound short stepped => sound.step stepped short

end Sound

/-- What `recv` returns is what `send` was given. -/
structure Faithful (stream : Stream) : Prop where
  /-- All results of `recv` together are the first bytes that the kernel has accepted. -/
  inOrder : stream.received <+: stream.accepted
  /-- Without a reset the rest is on its way. -/
  onItsWay : stream.reset = false →
    stream.accepted = stream.received ++ stream.pending ++ stream.inFlight
  /-- The kernel has accepted the beginnings of the data of all calls of `send`, one after
  the other. -/
  pieces : stream.accepted = stream.sends.flatMap piece ++ stream.current
  /-- All of the data where `send` succeeded. -/
  succeeded : ∀ send ∈ stream.sends, send.2.pc = .returned (.ok ()) → piece send = send.1
  /-- Who is told that the other side has sent all has received all that the kernel has
  accepted, unless the connection was reset. -/
  complete : stream.reset = false → (∃ recv ∈ stream.recvs, AtEnd recv.1 recv.2) →
    stream.received ++ stream.pending = stream.sends.flatMap piece ∧ stream.sending = none
  /-- That is all of the data if all calls of `send` succeeded. -/
  whole : stream.reset = false → (∃ recv ∈ stream.recvs, AtEnd recv.1 recv.2) →
    (∀ send ∈ stream.sends, send.2.pc = .returned (.ok ())) →
      stream.received ++ stream.pending = stream.sends.flatMap Prod.fst

end Stream
end Event
end Cgo
