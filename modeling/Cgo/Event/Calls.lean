import Cgo.Event.Send
import Cgo.Lib.Retry
import Mathlib.Data.List.Flatten

/-!
# Receiving and accepting

`Socket::recv`, `Socket::recvfrom`, `Socket::sendto` and `Socket::accept`: each calls the
kernel until the answer ends the loop, and waits for the socket in between.  A wait begins
with `Handler::mod`, which may throw.  The results of the kernel are kept in an `int`, as
in `send`.
-/

namespace Cgo
namespace Event

open Lib (Retry)

/-- An exception that leaves a call. -/
inductive Thrown where
  | socketError (error : Socket.Error)
  /-- `std::runtime_error` -/
  | runtimeError (what : String)
  deriving DecidableEq

/-- How a call ends: with one of the two kinds of its `std::expected`, or an exception. -/
inductive Ended (Value : Type) where
  | ok (value : Value)
  | error (error : Socket.Error)
  | throws (thrown : Thrown)
  deriving DecidableEq

namespace Ended

variable {Value : Type}

/-- A result that is an error. -/
def IsError : Ended Value → Prop
  | .error _ => True
  | _ => False

/-- No result: an exception. -/
def IsThrown : Ended Value → Prop
  | .throws _ => True
  | _ => False

/-- The result as a list. -/
def values : Ended Value → List Value
  | .ok value => [value]
  | _ => []

end Ended

/-- `_wait_sock_event` throws what `Handler::mod` throws. -/
def modFailed {Value : Type} : Ended Value :=
  .throws (.runtimeError "epoll_ctl mod failed")

/-- An error that does not mean that the call should be tried again. -/
def Errno.Fatal (errno : Errno) : Prop :=
  errno ≠ eagain ∧ errno ≠ ewouldblock

instance (errno : Errno) : Decidable errno.Fatal :=
  inferInstanceAs (Decidable (_ ∧ _))

/-- The error of a call that failed, unless the loop tries again. -/
def Socket.callError (strerror : Errno → String) (socket : Socket) (errno : Errno) :
    Option Socket.Error :=
  if errno.Fatal then some ⟨socket.fd, errno, strerror errno⟩ else none

/-! ## `recv` -/

/-- What `::recv` did: it wrote bytes into the buffer, or failed.  A call that succeeds
leaves `errno` as it was. -/
inductive Received where
  | read (bytes : List UInt8) (errno : Errno)
  | failed (errno : Errno)
  deriving DecidableEq

namespace Received

/-- What `::recv` returns. -/
def result : Received → Int
  | .read bytes _ => bytes.length
  | .failed _ => -1

/-- `errno` after the call. -/
def errno : Received → Errno
  | .read _ errno => errno
  | .failed errno => errno

/-- The buffer after the call. -/
def fill (buffer : List UInt8) : Received → List UInt8
  | .read bytes _ => bytes ++ buffer.drop bytes.length
  | .failed _ => buffer

/-- What was read is at the start of the buffer. -/
theorem take_fill (buffer bytes : List UInt8) (errno : Errno) :
    (fill buffer (.read bytes errno)).take bytes.length = bytes :=
  List.take_left

/-- The kernel writes no more than it was asked for. -/
def fits (size : Nat) : Received → Bool
  | .read bytes _ => bytes.length ≤ size
  | .failed _ => true

/-- What the kernel has given away. -/
def given : Received → List UInt8
  | .read bytes _ => bytes
  | .failed _ => []

end Received

/-- The loop of `recv` over its buffer `res`. -/
def Socket.recv (strerror : Errno → String) (socket : Socket) :
    Retry (List UInt8) Received (Ended (List UInt8)) where
  decide res received :=
    let res := received.fill res
    let n := narrow received.result
    if 0 < n then (res, some (.ok (res.take n.toNat)))
    else if n = 0 ∧ socket.protocol = .tcp then
      (res, some (.error ⟨socket.fd, 0, "close by other side"⟩))
    else if n < 0 then (res, (socket.sendError strerror received.errno).map .error)
    else (res, none)
  expired := some (.error ⟨socket.fd, etimedout, "recv timeout"⟩)
  thrown := modFailed

/-- `recv` is called. -/
def recvStart (size : Nat) : Retry.State (List UInt8) (Ended (List UInt8)) where
  store := List.replicate size 0
  pc := .calling

/-- The bytes of a result. -/
def keptBytes : Ended (List UInt8) → List UInt8
  | .ok bytes => bytes
  | _ => []

/-- `::recv` fails for good, or gives no bytes on a TCP connection: the other side has sent
all, or none were asked for. -/
def Socket.RecvFails (socket : Socket) : Received → Prop
  | .read bytes _ => bytes = [] ∧ socket.protocol = .tcp
  | .failed errno => errno.Fatal

namespace Socket

variable (strerror : Errno → String) (socket : Socket)

/-- Bytes are the result. -/
theorem recv_bytes
    {bytes : List UInt8}
    (res : List UInt8)
    (errno : Errno)
    (nonempty : bytes ≠ [])
    (small : bytes.length < 2 ^ 31) :
    ((socket.recv strerror).decide res (.read bytes errno)).2 = some (.ok bytes) := by
  have positive : 0 < bytes.length := List.length_pos_iff.mpr nonempty
  simp [recv, Received.result, Received.fill, narrow_of_small small, positive]

/-- No bytes are the end of a TCP connection, and else are waited for. -/
theorem recv_empty
    (res : List UInt8)
    (errno : Errno) :
    ((socket.recv strerror).decide res (.read [] errno)).2 =
      if socket.protocol = .tcp then some (.error ⟨socket.fd, 0, "close by other side"⟩)
      else none := by
  have none_ : narrow (0 : Int) = 0 := rfl
  by_cases tcp : socket.protocol = .tcp <;> simp [recv, Received.result, none_, tcp]

/-- A failure is an error, or is waited for. -/
theorem recv_failed
    (res : List UInt8)
    (errno : Errno) :
    ((socket.recv strerror).decide res (.failed errno)).2 =
      (socket.sendError strerror errno).map .error := by
  have negative : narrow (-1 : Int) = -1 := rfl
  simp [recv, Received.result, Received.errno, negative]

/-- What the three cases come to. -/
theorem recv_cases
    {size : Nat}
    (short : size < 2 ^ 31)
    (res : List UInt8)
    (received : Received)
    (fits : received.fits size = true) :
    (∃ bytes, bytes ≠ [] ∧ bytes.length ≤ size ∧ received.given = bytes ∧
        ¬socket.RecvFails received ∧
        ((socket.recv strerror).decide res received).2 = some (.ok bytes)) ∨
      (received.given = [] ∧ socket.RecvFails received ∧
        ∃ error, ((socket.recv strerror).decide res received).2 = some (.error error)) ∨
      (received.given = [] ∧ ¬socket.RecvFails received ∧
        ((socket.recv strerror).decide res received).2 = none) := by
  cases received with
  | read bytes errno =>
      have bounded : bytes.length ≤ size := by simpa [Received.fits] using fits
      cases bytes with
      | nil =>
          right
          rw [recv_empty]
          by_cases tcp : socket.protocol = .tcp
          · exact .inl ⟨rfl, ⟨rfl, tcp⟩, _, if_pos tcp⟩
          · exact .inr ⟨rfl, fun fails => tcp fails.2, if_neg tcp⟩
      | cons first rest =>
          left
          refine ⟨first :: rest, by simp, bounded, rfl, by simp [RecvFails], ?_⟩
          exact socket.recv_bytes strerror res errno (by simp) (by omega)
  | failed errno =>
      right
      rw [recv_failed]
      have again := socket.sendError_eq_none_iff strerror errno
      cases error : socket.sendError strerror errno with
      | none =>
          have retried := again.mp error
          refine .inr ⟨rfl, fun fatal => ?_, rfl⟩
          exact retried.elim fatal.1 fatal.2
      | some error' =>
          have unretried : ¬(errno = eagain ∨ errno = ewouldblock) := by
            rw [← again, error]
            simp
          exact .inl ⟨rfl, not_or.mp unretried, error', rfl⟩

variable {strerror} {socket}

theorem recv_conserves
    {size : Nat}
    (short : size < 2 ^ 31) :
    (socket.recv strerror).Conserves (Received.fits size) Received.given keptBytes where
  answered := by
    intro res received fits
    rcases socket.recv_cases strerror short res received fits with
      ⟨bytes, _, _, given, _, ends⟩ | ⟨given, _, error, ends⟩ | ⟨given, _, open_⟩
    · rw [ends, given]
      rfl
    · rw [ends, given]
      rfl
    · rw [open_, given]
      rfl
  expired := by
    intro result expired
    obtain rfl := Option.some.inj expired
    rfl
  thrown := rfl

theorem recv_reports
    {size : Nat}
    (short : size < 2 ^ 31) :
    (socket.recv strerror).Reports (Received.fits size) socket.RecvFails (· = .expired)
      Ended.IsError where
  answered := by
    intro res received fits
    rcases socket.recv_cases strerror short res received fits with
      ⟨bytes, _, _, _, succeeds, ends⟩ | ⟨_, fails, error, ends⟩ | ⟨_, succeeds, open_⟩
    · simp [ends, succeeds, Ended.IsError]
    · simp [ends, fails, Ended.IsError]
    · simp [open_, succeeds]
  ready := nofun
  expired := by simp [recv, Ended.IsError]
  thrown := iff_of_false id nofun

theorem recv_throws
    {size : Nat}
    (short : size < 2 ^ 31) :
    (socket.recv strerror).Reports (Received.fits size) (fun _ => False) (· = .thrown)
      Ended.IsThrown where
  answered := by
    intro res received fits
    rcases socket.recv_cases strerror short res received fits with
      ⟨bytes, _, _, _, _, ends⟩ | ⟨_, _, error, ends⟩ | ⟨_, _, open_⟩
    · simp [ends, Ended.IsThrown]
    · simp [ends, Ended.IsThrown]
    · simp [open_]
  ready := nofun
  expired := by simp [recv, Ended.IsThrown]
  thrown := iff_of_true trivial rfl

end Socket

/-- A run of `recv` hands over to its caller what the kernel has given away.  It ends in an
error exactly when a call failed for good or gave nothing on a TCP connection, or a wait
timed out, and with an exception exactly when a wait threw. -/
structure HandsOver
    (strerror : Errno → String) (socket : Socket) (size : Nat)
    (taken : List (Lib.Transition
      (Retry.State (List UInt8) (Ended (List UInt8))) (Retry.Label Received)))
    (state : Retry.State (List UInt8) (Ended (List UInt8))) : Prop where
  bytes : state.pc.kept keptBytes =
    taken.flatMap fun transition => transition.label.given Received.given
  some_ : ∀ bytes, state.pc = .returned (.ok bytes) → bytes ≠ [] ∧ bytes.length ≤ size
  failure : (∃ result, state.pc = .returned result ∧ result.IsError) ↔
    ∃ transition ∈ taken, transition.label.Cause socket.RecvFails (· = .expired)
  thrown : (∃ result, state.pc = .returned result ∧ result.IsThrown) ↔
    ∃ transition ∈ taken, transition.label = .wake .thrown
  silent : ∀ result, state.pc = .returned result → ∀ label,
    (socket.recv strerror).step (Received.fits size) state label = none

namespace HandsOver

variable {strerror : Errno → String} {socket : Socket} {size : Nat}

theorem of_path
    {taken : List (Lib.Transition
      (Retry.State (List UInt8) (Ended (List UInt8))) (Retry.Label Received))}
    {state : Retry.State (List UInt8) (Ended (List UInt8))}
    (short : size < 2 ^ 31)
    (path : Lib.Path ((socket.recv strerror).step (Received.fits size)) (recvStart size) taken
      state) :
    HandsOver strerror socket size taken state where
  bytes := ((Socket.recv_conserves short).of_path path).symm
  some_ := by
    let Good : Ended (List UInt8) → Prop := fun result =>
      ∀ bytes, result = .ok bytes → bytes ≠ [] ∧ bytes.length ≤ size
    have good : ∀ result, state.pc = .returned result → Good result := by
      refine Retry.result_of_path ?_ ?_ ?_ (by simp [recvStart]) path
      · intro res received result fits decided bytes same
        rcases socket.recv_cases strerror short res received fits with
          ⟨whole, nonempty, bounded, _, _, ends⟩ | ⟨_, _, error, ends⟩ | ⟨_, _, open_⟩
        · obtain rfl := Option.some.inj (decided.symm.trans ends)
          obtain rfl := Ended.ok.inj same
          exact ⟨nonempty, bounded⟩
        · obtain rfl := Option.some.inj (decided.symm.trans ends)
          cases same
        · simp [decided] at open_
      · intro result expired bytes same
        obtain rfl := Option.some.inj expired
        cases same
      · intro bytes same
        cases same
    exact fun bytes returned => good _ returned bytes rfl
  failure := by simpa [recvStart] using (Socket.recv_reports short).of_path path
  thrown := by
    have throws := (Socket.recv_throws short).of_path path
    simpa [recvStart, Retry.Label.cause_thrown_iff] using throws
  silent := fun _ returned label => Retry.silent returned label

/-- 2^31 bytes at once look like a call that failed. -/
theorem lost_of_large
    (strerror : Errno → String)
    (socket : Socket)
    (large : 2 ^ 31 ≤ size) :
    ∃ taken state, Lib.Path ((socket.recv strerror).step (Received.fits size)) (recvStart size)
      taken state ∧ ¬HandsOver strerror socket size taken state := by
  let bytes : List UInt8 := List.replicate (2 ^ 31) 0
  have many : bytes.length = 2 ^ 31 := List.length_replicate
  have fits : (Received.read bytes econnreset).fits size = true := by
    simpa [Received.fits, many] using large
  have negative : narrow (Received.read bytes econnreset).result = -2147483648 := by
    rw [Received.result, many]
    rfl
  have error : socket.sendError strerror econnreset =
      some ⟨socket.fd, econnreset, "close by other side"⟩ := rfl
  have decided : ((socket.recv strerror).decide (List.replicate size 0)
      (.read bytes econnreset)).2 =
        some (.error ⟨socket.fd, econnreset, "close by other side"⟩) := by
    simp [Socket.recv, negative, Received.errno, error]
  obtain ⟨after, stepped⟩ : ∃ after, (socket.recv strerror).step (Received.fits size)
      (recvStart size) (.answer (.read bytes econnreset)) = some after := by
    simp [Retry.step, recvStart, fits]
  refine ⟨_, _, Lib.Path.nil.snoc stepped, fun handsOver => ?_⟩
  have ends : after.pc.kept keptBytes = [] := by
    cases Retry.move_of_step stepped with
    | ends calling possible ended =>
        simp only [recvStart] at ended
        rw [ended] at decided
        obtain rfl := Option.some.inj decided
        rfl
    | again => rfl
  have given := handsOver.bytes
  rw [ends] at given
  have nothing : bytes = [] := by simpa [Retry.Label.given, Received.given] using given.symm
  rw [nothing] at many
  cases many

end HandsOver

/-- Whatever the kernel answers and however the waits end, `recv` hands over to its caller
the bytes that the kernel has given away and tells how it ended, exactly when it asks for
fewer than 2^31 bytes. -/
theorem recv_hands_over_iff
    (strerror : Errno → String)
    (socket : Socket)
    (size : Nat) :
    (∀ taken state,
        Lib.Path ((socket.recv strerror).step (Received.fits size)) (recvStart size) taken state →
          HandsOver strerror socket size taken state) ↔
      size < 2 ^ 31 := by
  constructor
  · intro always
    by_contra large
    obtain ⟨taken, state, path, lost⟩ :=
      HandsOver.lost_of_large strerror socket (Nat.le_of_not_lt large)
    exact lost (always taken state path)
  · exact fun short taken state path => HandsOver.of_path short path

/-- The kernel gives two bytes after the first call found none. -/
theorem recv_hands_over_iff_sample :
    let recv := (Socket.recv (fun _ => "") ⟨7, .udp⟩).step (Received.fits 4)
    let labels : List (Retry.Label Received) :=
      [.answer (.failed eagain), .wake .ready, .answer (.read [] 0), .wake .ready,
        .answer (.read [5, 6] eagain)]
    let state := Lib.runFrom recv (recvStart 4) labels
    state.pc.kept keptBytes = [5, 6] := by
  intro recv labels state
  have path : Lib.Path recv (recvStart 4) (Lib.trace recv (recvStart 4) labels) state :=
    Lib.path_runFrom (by decide)
  have handsOver := (recv_hands_over_iff (fun _ => "") ⟨7, .udp⟩ 4).mpr (by decide) _ _ path
  rw [handsOver.bytes]
  decide

/-! ## `accept` -/

/-- What `_set_sock_opt` met in the constructor of a socket. -/
inductive SetSockOpt where
  | done
  /-- `::fcntl` failed. -/
  | fcntl (errno : Errno)
  /-- `::epoll_ctl` failed in `Handler::add`. -/
  | add
  deriving DecidableEq

/-- What `::accept` did: it gave out a descriptor, for which a socket is constructed, or
failed. -/
inductive Accepted where
  | descriptor (fd : Nat) (errno : Errno) (opt : SetSockOpt)
  | failed (errno : Errno)
  deriving DecidableEq

namespace Accepted

/-- What `::accept` returns. -/
def result : Accepted → Int
  | .descriptor fd _ _ => fd
  | .failed _ => -1

/-- `errno` after the call. -/
def errno : Accepted → Errno
  | .descriptor _ errno _ => errno
  | .failed errno => errno

/-- What the constructor would meet. -/
def opt : Accepted → SetSockOpt
  | .descriptor _ _ opt => opt
  | .failed _ => .done

/-- The descriptor that the kernel has given out. -/
def given : Accepted → List Fd
  | .descriptor fd _ _ => [(fd : Int)]
  | .failed _ => []

/-- The descriptor, if `accept` makes a socket of it. -/
def made : Accepted → List Fd
  | .descriptor fd _ .done => if fd = 0 then [] else [(fd : Int)]
  | _ => []

/-- `accept` takes the answer for a failure, and descriptor 0 as well. -/
def Fails (accepted : Accepted) : Prop :=
  accepted.result ≤ 0 ∧ accepted.errno.Fatal

/-- The constructor of the socket throws. -/
def Throws (accepted : Accepted) : Prop :=
  0 < accepted.result ∧ accepted.opt ≠ .done

end Accepted

/-- The constructor of a socket for a descriptor. -/
def Socket.construct (strerror : Errno → String) (fd : Fd) (protocol : Protocol) :
    SetSockOpt → Ended Socket
  | .done => .ok ⟨fd, protocol⟩
  | .fcntl errno => .throws (.socketError ⟨fd, errno, strerror errno⟩)
  | .add => .throws (.runtimeError "epoll_ctl add failed")

/-- The loop of `accept`, which does not look at the result of its waits. -/
def Socket.accept (strerror : Errno → String) (socket : Socket) :
    Retry Unit Accepted (Ended Socket) where
  decide _ accepted :=
    if 0 < accepted.result then
      ((), some (construct strerror accepted.result socket.protocol accepted.opt))
    else ((), (socket.callError strerror accepted.errno).map .error)
  expired := none
  thrown := modFailed

/-- `accept` is called. -/
def Socket.acceptStart (socket : Socket) : Retry.State Unit (Ended Socket) where
  store := ()
  pc :=
    if socket.protocol = .tcp then .calling
    else .returned (.error ⟨socket.fd, 0, "Accept only supported for TCP sockets"⟩)

/-- The descriptor of a result. -/
def keptFd : Ended Socket → List Fd
  | .ok accepted => [accepted.fd]
  | _ => []

namespace Socket

variable (strerror : Errno → String) (socket : Socket)

/-- What the cases come to. -/
theorem accept_cases (accepted : Accepted) :
    (∃ fd, accepted.made = [fd] ∧ ¬accepted.Fails ∧ ¬accepted.Throws ∧
        ((socket.accept strerror).decide () accepted).2 = some (.ok ⟨fd, socket.protocol⟩)) ∨
      (accepted.made = [] ∧ ¬accepted.Fails ∧ accepted.Throws ∧
        ∃ thrown, ((socket.accept strerror).decide () accepted).2 = some (.throws thrown)) ∨
      (accepted.made = [] ∧ accepted.Fails ∧ ¬accepted.Throws ∧
        ∃ error, ((socket.accept strerror).decide () accepted).2 = some (.error error)) ∨
      (accepted.made = [] ∧ ¬accepted.Fails ∧ ¬accepted.Throws ∧
        ((socket.accept strerror).decide () accepted).2 = none) := by
  by_cases positive : 0 < accepted.result
  · have unfailed : ¬accepted.Fails := fun fails => absurd positive (not_lt.mpr fails.1)
    have decided : ((socket.accept strerror).decide () accepted).2 =
        some (construct strerror accepted.result socket.protocol accepted.opt) := by
      simp [accept, positive]
    rw [decided]
    cases accepted with
    | failed errno => exact absurd positive (by simp [Accepted.result])
    | descriptor fd errno opt =>
        have nonzero : fd ≠ 0 := by
          simpa [Accepted.result, Nat.pos_iff_ne_zero] using positive
        cases opt with
        | done => exact .inl ⟨fd, if_neg nonzero, unfailed, fun throws => throws.2 rfl, rfl⟩
        | fcntl reason => exact .inr (.inl ⟨rfl, unfailed, ⟨positive, nofun⟩, _, rfl⟩)
        | add => exact .inr (.inl ⟨rfl, unfailed, ⟨positive, nofun⟩, _, rfl⟩)
  · have unmade : accepted.made = [] := by
      cases accepted with
      | failed errno => rfl
      | descriptor fd errno opt =>
          have zero : fd = 0 := by simpa [Accepted.result] using positive
          cases opt <;> simp [Accepted.made, zero]
    have unthrown : ¬accepted.Throws := fun throws => positive throws.1
    by_cases fatal : accepted.errno.Fatal
    · refine .inr (.inr (.inl ⟨unmade, ⟨not_lt.mp positive, fatal⟩, unthrown,
        ⟨socket.fd, accepted.errno, strerror accepted.errno⟩, ?_⟩))
      simp [accept, positive, callError, fatal]
    · refine .inr (.inr (.inr ⟨unmade, fun fails => fatal fails.2, unthrown, ?_⟩))
      simp [accept, positive, callError, fatal]

theorem accept_conserves :
    (socket.accept strerror).Conserves (fun _ => true) Accepted.made keptFd where
  answered := by
    intro _ accepted _
    rcases socket.accept_cases strerror accepted with
      ⟨fd, made, _, _, ends⟩ | ⟨made, _, _, _, ends⟩ | ⟨made, _, _, _, ends⟩ | ⟨made, _, _, open_⟩
    · rw [ends, made]
      rfl
    · rw [ends, made]
      rfl
    · rw [ends, made]
      rfl
    · rw [open_, made]
      rfl
  expired := nofun
  thrown := rfl

theorem accept_reports :
    (socket.accept strerror).Reports (fun _ => true) Accepted.Fails (fun _ => False)
      Ended.IsError where
  answered := by
    intro _ accepted _
    rcases socket.accept_cases strerror accepted with
      ⟨fd, _, succeeds, _, ends⟩ | ⟨_, succeeds, _, _, ends⟩ | ⟨_, fails, _, _, ends⟩ |
        ⟨_, succeeds, _, open_⟩
    · simp [ends, succeeds, Ended.IsError]
    · simp [ends, succeeds, Ended.IsError]
    · simp [ends, fails, Ended.IsError]
    · simp [open_, succeeds]
  ready := id
  expired := by simp [accept]
  thrown := Iff.rfl

theorem accept_throws :
    (socket.accept strerror).Reports (fun _ => true) Accepted.Throws (· = .thrown)
      Ended.IsThrown where
  answered := by
    intro _ accepted _
    rcases socket.accept_cases strerror accepted with
      ⟨fd, _, _, calm, ends⟩ | ⟨_, _, throws, _, ends⟩ | ⟨_, _, calm, _, ends⟩ |
        ⟨_, _, calm, open_⟩
    · simp [ends, calm, Ended.IsThrown]
    · simp [ends, throws, Ended.IsThrown]
    · simp [ends, calm, Ended.IsThrown]
    · simp [open_, calm]
  ready := nofun
  expired := by simp [accept]
  thrown := iff_of_true trivial rfl

end Socket

/-- A run of `accept` returns sockets for the descriptors that the kernel has given out,
but for descriptor 0 and for those whose constructor threw.  It ends in an error exactly
when it is not for TCP or a call failed for good, and with an exception exactly when a
constructor or a wait threw. -/
structure HandsOut
    (socket : Socket)
    (taken : List (Lib.Transition (Retry.State Unit (Ended Socket)) (Retry.Label Accepted)))
    (state : Retry.State Unit (Ended Socket)) : Prop where
  made : state.pc.kept keptFd = taken.flatMap fun transition => transition.label.given Accepted.made
  all : state.pc.kept keptFd =
      taken.flatMap (fun transition => transition.label.given Accepted.given) ↔
    ∀ transition ∈ taken, ∀ fd errno opt,
      transition.label = .answer (.descriptor fd errno opt) → fd ≠ 0 ∧ opt = .done
  failure : (∃ result, state.pc = .returned result ∧ result.IsError) ↔
    socket.protocol ≠ .tcp ∨
      ∃ transition ∈ taken, transition.label.Cause Accepted.Fails fun _ => False
  thrown : (∃ result, state.pc = .returned result ∧ result.IsThrown) ↔
    ∃ transition ∈ taken, transition.label.Cause Accepted.Throws (· = .thrown)

/-- Parts of pieces are all of the pieces exactly when each part is all of its piece. -/
private theorem flatMap_eq_iff
    {Part Item : Type}
    {part whole : Part → List Item}
    (sublist : ∀ item, (part item).Sublist (whole item))
    (items : List Part) :
    items.flatMap part = items.flatMap whole ↔ ∀ item ∈ items, part item = whole item := by
  refine ⟨fun same => ?_, List.flatMap_congr⟩
  induction items with
  | nil => simp
  | cons first rest inductionHypothesis =>
      simp only [List.flatMap_cons] at same
      have lengths := congrArg List.length same
      simp only [List.length_append] at lengths
      have ofFirst := (sublist first).length_le
      have ofRest := (List.Sublist.flatMap_right rest fun item _ => sublist item).length_le
      have equal : part first = whole first := (sublist first).eq_of_length (by omega)
      rw [equal, List.append_cancel_left_eq] at same
      simpa [equal] using inductionHypothesis same

namespace HandsOut

/-- What is made of an answer is what was given, unless descriptor 0 was or the constructor
throws. -/
private theorem made_eq_iff (label : Retry.Label Accepted) :
    label.given Accepted.made = label.given Accepted.given ↔
      ∀ fd errno opt, label = .answer (.descriptor fd errno opt) → fd ≠ 0 ∧ opt = .done := by
  cases label with
  | wake ending => simp [Retry.Label.given]
  | answer accepted =>
      cases accepted with
      | failed errno => simp [Retry.Label.given, Accepted.made, Accepted.given]
      | descriptor fd errno opt =>
          cases opt <;>
            simp [Retry.Label.given, Accepted.made, Accepted.given]

private theorem made_sublist (label : Retry.Label Accepted) :
    (label.given Accepted.made).Sublist (label.given Accepted.given) := by
  cases label with
  | wake ending => exact .slnil
  | answer accepted =>
      cases accepted with
      | failed errno => exact .slnil
      | descriptor fd errno opt =>
          cases opt with
          | done =>
              simp only [Retry.Label.given, Accepted.made, Accepted.given]
              split <;> simp
          | _ => simp [Retry.Label.given, Accepted.made]

theorem of_path
    {strerror : Errno → String} {socket : Socket}
    {taken : List (Lib.Transition (Retry.State Unit (Ended Socket)) (Retry.Label Accepted))}
    {state : Retry.State Unit (Ended Socket)}
    (path : Lib.Path ((socket.accept strerror).step fun _ => true) socket.acceptStart taken
      state) :
    HandsOut socket taken state := by
  have start : socket.acceptStart.pc.kept keptFd = [] := by
    simp only [Socket.acceptStart]
    split <;> rfl
  have kept := (socket.accept_conserves strerror).of_path path
  rw [start, List.nil_append] at kept
  refine ⟨kept.symm, ?_, ?_, ?_⟩
  · have equal := flatMap_eq_iff
      (fun transition : Lib.Transition _ (Retry.Label Accepted) => made_sublist transition.label)
      taken
    rw [← kept]
    exact equal.trans (forall₂_congr fun transition _ => made_eq_iff transition.label)
  · rw [(socket.accept_reports strerror).of_path path]
    apply or_congr_left
    simp only [Socket.acceptStart]
    split
    · next tcp => simp [tcp]
    · next other => simp [other, Ended.IsError]
  · rw [(socket.accept_throws strerror).of_path path]
    refine or_iff_right ?_
    simp only [Socket.acceptStart]
    split <;> simp [Ended.IsThrown]

end HandsOut

/-- The constructor of the socket throws, and nobody gets the descriptor. -/
example :
    (Lib.runFrom ((Socket.accept (fun _ => "") ⟨7, .tcp⟩).step fun _ => true)
      (Socket.acceptStart ⟨7, .tcp⟩) [.answer (.descriptor 9 0 .add)]).pc =
        .returned (.throws (.runtimeError "epoll_ctl add failed")) := rfl

/-! ## `recvfrom` -/

/-- A datagram and the address and port it came from. -/
structure Datagram (Ip : Type) where
  bytes : List UInt8
  ip : Ip
  port : Nat
  deriving DecidableEq

/-- What `::recvfrom` did: it took a datagram and wrote as much of it into the buffer as
fits, or failed. -/
inductive ReceivedFrom (Ip : Type) where
  | message (datagram : Datagram Ip) (errno : Errno)
  | failed (errno : Errno)

namespace ReceivedFrom

variable {Ip : Type}

/-- The same for a buffer of `size` bytes alone. -/
def received (size : Nat) : ReceivedFrom Ip → Received
  | .message datagram errno => .read (datagram.bytes.take size) errno
  | .failed errno => .failed errno

/-- The datagram that the kernel has given away. -/
def given : ReceivedFrom Ip → List (Datagram Ip)
  | .message datagram _ => [datagram]
  | .failed _ => []

/-- `::recvfrom` fails for good. -/
def Fatal : ReceivedFrom Ip → Prop
  | .message _ _ => False
  | .failed errno => errno.Fatal

end ReceivedFrom

section

variable {Ip : Type} (ntop : Ip → String) (strerror : Errno → String) (socket : Socket)
variable (size : Nat)

/-- The loop of `recvfrom` over its buffer of `size` bytes; `ntop` is `inet_ntop` for the
family of the socket.  What it returns is made of the bytes, and the address as a text with
the port. -/
def Socket.recvfrom :
    Retry (List UInt8) (ReceivedFrom Ip) (Ended (List UInt8 × String × Nat)) where
  decide buffer answer :=
    let received := answer.received size
    let buffer := received.fill buffer
    let n := narrow received.result
    match answer with
    | .message datagram _ =>
        if 0 < n then
          (buffer, some (.ok (buffer.take n.toNat, ntop datagram.ip, datagram.port)))
        else if n < 0 then (buffer, (socket.callError strerror received.errno).map .error)
        else (buffer, none)
    | .failed errno => (buffer, (socket.callError strerror errno).map .error)
  expired := some (.error ⟨socket.fd, etimedout, "recv_from timeout"⟩)
  thrown := modFailed

/-- `recvfrom` is called. -/
def Socket.recvfromStart : Retry.State (List UInt8) (Ended (List UInt8 × String × Nat)) where
  store := List.replicate size 0
  pc :=
    if socket.protocol = .udp then .calling
    else .returned (.error ⟨socket.fd, 0, "recv_from only supported for UDP sockets"⟩)

/-- What `recvfrom` makes of the datagrams it takes: their first bytes. -/
def resultsOf (datagrams : List (Datagram Ip)) : List (List UInt8 × String × Nat) :=
  (datagrams.filter fun datagram => datagram.bytes.take size ≠ []).map fun datagram =>
    (datagram.bytes.take size, ntop datagram.ip, datagram.port)

variable {size}

/-- What the cases come to. -/
theorem Socket.recvfrom_cases
    (short : size < 2 ^ 31)
    (buffer : List UInt8)
    (answer : ReceivedFrom Ip) :
    (∃ result, resultsOf ntop size answer.given = [result] ∧ ¬answer.Fatal ∧
        ((socket.recvfrom ntop strerror size).decide buffer answer).2 = some (.ok result)) ∨
      (resultsOf ntop size answer.given = [] ∧ answer.Fatal ∧ ∃ error,
        ((socket.recvfrom ntop strerror size).decide buffer answer).2 = some (.error error)) ∨
      (resultsOf ntop size answer.given = [] ∧ ¬answer.Fatal ∧
        ((socket.recvfrom ntop strerror size).decide buffer answer).2 = none) := by
  cases answer with
  | failed errno =>
      right
      by_cases fatal : errno.Fatal
      · left
        refine ⟨rfl, fatal, ⟨socket.fd, errno, strerror errno⟩, ?_⟩
        simp [recvfrom, callError, fatal]
      · right
        refine ⟨rfl, fatal, ?_⟩
        simp [recvfrom, callError, fatal]
  | message datagram errno =>
      obtain ⟨bytes, ip, port⟩ := datagram
      have bounded : (bytes.take size).length ≤ size := List.length_take_le size bytes
      have same : narrow (Received.read (bytes.take size) errno).result =
          (bytes.take size).length :=
        narrow_of_small (by omega)
      rcases eq_or_ne (bytes.take size) [] with empty | nonempty
      · refine .inr (.inr ⟨?_, id, ?_⟩)
        · simpa [resultsOf, ReceivedFrom.given, or_iff_not_imp_left] using empty
        · rw [empty] at same
          simp [recvfrom, ReceivedFrom.received, empty, same]
      · have positive : 0 < (bytes.take size).length := List.length_pos_iff.mpr nonempty
        refine .inl ⟨(bytes.take size, ntop ip, port), ?_, id, ?_⟩
        · simp only [resultsOf, ReceivedFrom.given, ne_eq, List.filter_cons, nonempty,
            not_false_eq_true, decide_true, ↓reduceIte, List.filter_nil, List.map_cons,
            List.map_nil]
        · simp only [recvfrom, ReceivedFrom.received, same]
          rw [if_pos (by omega), Int.toNat_natCast, Received.take_fill]

variable {ntop} {strerror} {socket}

theorem Socket.recvfrom_conserves (short : size < 2 ^ 31) :
    (socket.recvfrom ntop strerror size).Conserves (fun _ => true)
      (fun answer => resultsOf ntop size answer.given) Ended.values where
  answered := by
    intro buffer answer _
    rcases socket.recvfrom_cases ntop strerror short buffer answer with
      ⟨result, given, _, ends⟩ | ⟨given, _, error, ends⟩ | ⟨given, _, open_⟩
    · rw [ends, given]
      rfl
    · rw [ends, given]
      rfl
    · rw [open_, given]
      rfl
  expired := by
    intro result expired
    obtain rfl := Option.some.inj expired
    rfl
  thrown := rfl

theorem Socket.recvfrom_reports (short : size < 2 ^ 31) :
    (socket.recvfrom ntop strerror size).Reports (fun _ => true) ReceivedFrom.Fatal
      (· = .expired) Ended.IsError where
  answered := by
    intro buffer answer _
    rcases socket.recvfrom_cases ntop strerror short buffer answer with
      ⟨result, _, succeeds, ends⟩ | ⟨_, fails, error, ends⟩ | ⟨_, succeeds, open_⟩
    · simp [ends, succeeds, Ended.IsError]
    · simp [ends, fails, Ended.IsError]
    · simp [open_, succeeds]
  ready := nofun
  expired := by simp [recvfrom, Ended.IsError]
  thrown := iff_of_false id nofun

theorem Socket.recvfrom_throws (short : size < 2 ^ 31) :
    (socket.recvfrom ntop strerror size).Reports (fun _ => true) (fun _ => False)
      (· = .thrown) Ended.IsThrown where
  answered := by
    intro buffer answer _
    rcases socket.recvfrom_cases ntop strerror short buffer answer with
      ⟨result, _, _, ends⟩ | ⟨_, _, error, ends⟩ | ⟨_, _, open_⟩
    · simp [ends, Ended.IsThrown]
    · simp [ends, Ended.IsThrown]
    · simp [open_]
  ready := nofun
  expired := by simp [recvfrom, Ended.IsThrown]
  thrown := iff_of_true trivial rfl

variable (ntop socket size)

/-- A run of `recvfrom` returns the first `size` bytes of the datagrams that the kernel has
given away, each with its sender, but for the empty ones, which it drops.  It ends in an
error exactly when it is not for UDP, a call failed for good or a wait timed out, and with
an exception exactly when a wait threw. -/
structure ReturnsDatagrams
    (taken : List (Lib.Transition
      (Retry.State (List UInt8) (Ended (List UInt8 × String × Nat)))
      (Retry.Label (ReceivedFrom Ip))))
    (state : Retry.State (List UInt8) (Ended (List UInt8 × String × Nat))) : Prop where
  datagrams : state.pc.kept Ended.values =
    resultsOf ntop size
      (taken.flatMap fun transition => transition.label.given ReceivedFrom.given)
  failure : (∃ result, state.pc = .returned result ∧ result.IsError) ↔
    socket.protocol ≠ .udp ∨
      ∃ transition ∈ taken, transition.label.Cause ReceivedFrom.Fatal (· = .expired)
  thrown : (∃ result, state.pc = .returned result ∧ result.IsThrown) ↔
    ∃ transition ∈ taken, transition.label = .wake .thrown

variable {ntop socket size}

/-- Whatever the kernel answers and however the waits end, with a buffer of fewer than 2^31
bytes. -/
theorem recvfrom_returns_datagrams
    (short : size < 2 ^ 31)
    {taken : List (Lib.Transition
      (Retry.State (List UInt8) (Ended (List UInt8 × String × Nat)))
      (Retry.Label (ReceivedFrom Ip)))}
    {state : Retry.State (List UInt8) (Ended (List UInt8 × String × Nat))}
    (path : Lib.Path ((socket.recvfrom ntop strerror size).step fun _ => true)
      (socket.recvfromStart size) taken state) :
    ReturnsDatagrams ntop socket size taken state := by
  have start : (socket.recvfromStart size).pc.kept Ended.values = [] := by
    simp only [Socket.recvfromStart]
    split <;> rfl
  have kept := (Socket.recvfrom_conserves short).of_path path
  rw [start, List.nil_append] at kept
  refine ⟨?_, ?_, ?_⟩
  · rw [← kept, resultsOf, List.filter_flatMap, List.map_flatMap]
    apply congrArg (taken.flatMap ·)
    funext transition
    cases transition.label with
    | answer answer => rfl
    | wake ending => rfl
  · rw [(Socket.recvfrom_reports short).of_path path]
    apply or_congr_left
    simp only [Socket.recvfromStart]
    split
    · next udp => simp [udp]
    · next other => simp [other, Ended.IsError]
  · rw [(Socket.recvfrom_throws short).of_path path]
    simp only [Retry.Label.cause_thrown_iff]
    refine or_iff_right ?_
    simp only [Socket.recvfromStart]
    split <;> simp [Ended.IsThrown]

end

/-- An empty datagram comes first, and then one that is too long. -/
theorem recvfrom_returns_datagrams_sample :
    let recvfrom := (Socket.recvfrom (fun ip : Nat => toString ip) (fun _ => "")
      ⟨7, .udp⟩ 2).step fun _ => true
    let labels : List (Retry.Label (ReceivedFrom Nat)) :=
      [.answer (.message ⟨[], 1, 80⟩ 0), .wake .ready, .answer (.message ⟨[5, 6, 7], 2, 90⟩ 0)]
    let state := Lib.runFrom recvfrom (Socket.recvfromStart ⟨7, .udp⟩ 2) labels
    state.pc.kept Ended.values = [([5, 6], toString 2, 90)] := by
  intro recvfrom labels state
  have path : Lib.Path recvfrom (Socket.recvfromStart ⟨7, .udp⟩ 2)
      (Lib.trace recvfrom (Socket.recvfromStart ⟨7, .udp⟩ 2) labels) state :=
    Lib.path_runFrom rfl
  exact (recvfrom_returns_datagrams (by decide) path).datagrams

/-! ## `sendto` -/

/-- The arguments of a call of `::sendto`. -/
structure SendtoCall (Ip : Type) where
  fd : Fd
  bytes : List UInt8
  flags : BitVec 32
  ip : Ip
  port : BitVec 16

namespace Response

/-- The kernel accepts at most what it was offered. -/
def fits {Ip : Type} (call : SendtoCall Ip) : Response → Bool
  | .accepted count _ => count ≤ call.bytes.length
  | .failed _ => true

/-- The counts of the datagrams that the kernel has accepted. -/
def counts : Response → List Nat
  | .accepted count _ => [count]
  | .failed _ => []

/-- `::sendto` fails for good. -/
def Fatal : Response → Prop
  | .accepted _ _ => False
  | .failed errno => errno.Fatal

end Response

section

variable {Ip : Type} (pton : AddressFamily → String → Except Errno Ip)
variable (strerror : Errno → String) (socket : Socket) (family : AddressFamily)

/-- The loop of `sendto`, which offers the same datagram again and again. -/
def Socket.sendto : Retry Unit Response (Ended Nat) where
  decide _ response :=
    let n := narrow response.result
    if 0 ≤ n then ((), some (.ok n.toNat))
    else ((), (socket.callError strerror response.errno).map .error)
  expired := some (.error ⟨socket.fd, etimedout, "send_to timeout"⟩)
  thrown := modFailed

/-- What the cases come to. -/
theorem Socket.sendto_cases
    {call : SendtoCall Ip}
    (short : call.bytes.length < 2 ^ 31)
    (response : Response)
    (fits : response.fits call = true) :
    (∃ count, response.counts = [count] ∧ ¬response.Fatal ∧
        ((socket.sendto strerror).decide () response).2 = some (.ok count)) ∨
      (response.counts = [] ∧ response.Fatal ∧
        ∃ error, ((socket.sendto strerror).decide () response).2 = some (.error error)) ∨
      (response.counts = [] ∧ ¬response.Fatal ∧
        ((socket.sendto strerror).decide () response).2 = none) := by
  cases response with
  | accepted count errno =>
      have bounded : count ≤ call.bytes.length := by simpa [Response.fits] using fits
      have same : narrow (Response.accepted count errno).result = count :=
        narrow_of_small (by omega)
      exact .inl ⟨count, rfl, id, by simp [sendto, same]⟩
  | failed errno =>
      have negative : narrow (Response.failed errno).result = -1 := rfl
      right
      by_cases fatal : errno.Fatal
      · left
        refine ⟨rfl, fatal, ⟨socket.fd, errno, strerror errno⟩, ?_⟩
        simp [sendto, negative, callError, Response.errno, fatal]
      · right
        refine ⟨rfl, fatal, ?_⟩
        simp [sendto, negative, callError, Response.errno, fatal]

variable {strerror} {socket}

theorem Socket.sendto_conserves
    {call : SendtoCall Ip}
    (short : call.bytes.length < 2 ^ 31) :
    (socket.sendto strerror).Conserves (Response.fits call) Response.counts Ended.values where
  answered := by
    intro _ response fits
    rcases socket.sendto_cases strerror short response fits with
      ⟨count, counts, _, ends⟩ | ⟨counts, _, error, ends⟩ | ⟨counts, _, open_⟩
    · rw [ends, counts]
      rfl
    · rw [ends, counts]
      rfl
    · rw [open_, counts]
      rfl
  expired := by
    intro result expired
    obtain rfl := Option.some.inj expired
    rfl
  thrown := rfl

theorem Socket.sendto_reports
    {call : SendtoCall Ip}
    (short : call.bytes.length < 2 ^ 31) :
    (socket.sendto strerror).Reports (Response.fits call) Response.Fatal (· = .expired)
      Ended.IsError where
  answered := by
    intro _ response fits
    rcases socket.sendto_cases strerror short response fits with
      ⟨count, _, succeeds, ends⟩ | ⟨_, fails, error, ends⟩ | ⟨_, succeeds, open_⟩
    · simp [ends, succeeds, Ended.IsError]
    · simp [ends, fails, Ended.IsError]
    · simp [open_, succeeds]
  ready := nofun
  expired := by simp [sendto, Ended.IsError]
  thrown := iff_of_false id nofun

theorem Socket.sendto_throws
    {call : SendtoCall Ip}
    (short : call.bytes.length < 2 ^ 31) :
    (socket.sendto strerror).Reports (Response.fits call) (fun _ => False) (· = .thrown)
      Ended.IsThrown where
  answered := by
    intro _ response fits
    rcases socket.sendto_cases strerror short response fits with
      ⟨count, _, _, ends⟩ | ⟨_, _, error, ends⟩ | ⟨_, _, open_⟩
    · simp [ends, Ended.IsThrown]
    · simp [ends, Ended.IsThrown]
    · simp [open_]
  ready := nofun
  expired := by simp [sendto, Ended.IsThrown]
  thrown := iff_of_true trivial rfl

end

/-- The kernel has accepted the datagram at most once, and then `sendto` returns the
count.  It returns an error exactly when a call failed for good or a wait timed out, and
an exception leaves it exactly when a wait threw. -/
structure SendsOnce
    (taken : List (Lib.Transition
      (Retry.State Unit (Ended Nat)) (Retry.Label Response)))
    (state : Retry.State Unit (Ended Nat)) : Prop where
  once : (taken.flatMap fun transition => transition.label.given Response.counts).length ≤ 1
  counts : state.pc.kept Ended.values =
    taken.flatMap fun transition => transition.label.given Response.counts
  failure : (∃ result, state.pc = .returned result ∧ result.IsError) ↔
    ∃ transition ∈ taken, transition.label.Cause Response.Fatal (· = .expired)
  thrown : (∃ result, state.pc = .returned result ∧ result.IsThrown) ↔
    ∃ transition ∈ taken, transition.label = .wake .thrown

namespace SendsOnce

variable {Ip : Type} {strerror : Errno → String} {socket : Socket} {call : SendtoCall Ip}

theorem of_path
    {taken : List (Lib.Transition
      (Retry.State Unit (Ended Nat)) (Retry.Label Response))}
    {state : Retry.State Unit (Ended Nat)}
    (short : call.bytes.length < 2 ^ 31)
    (path : Lib.Path ((socket.sendto strerror).step (Response.fits call)) ⟨(), .calling⟩ taken
      state) :
    SendsOnce taken state := by
  have counts := (Socket.sendto_conserves short).of_path path
  have atMost : (state.pc.kept Ended.values).length ≤ 1 := by
    cases state.pc with
    | returned result => cases result <;> simp [Retry.Pc.kept, Ended.values]
    | _ => simp [Retry.Pc.kept]
  rw [← counts] at atMost
  refine ⟨atMost, counts.symm, ?_, ?_⟩
  · simpa using (Socket.sendto_reports short).of_path path
  · have throws := (Socket.sendto_throws short).of_path path
    simpa [Retry.Label.cause_thrown_iff] using throws

/-- 2^31 bytes at once look like a call that should be tried again, and then the kernel
accepts the datagram once more. -/
theorem lost_of_large
    (strerror : Errno → String)
    (socket : Socket)
    (large : 2 ^ 31 ≤ call.bytes.length) :
    ∃ taken state, Lib.Path ((socket.sendto strerror).step (Response.fits call)) ⟨(), .calling⟩
      taken state ∧ ¬SendsOnce taken state := by
  let accepted : Response := .accepted (2 ^ 31) eagain
  have fits : accepted.fits call = true := by simpa [accepted, Response.fits] using large
  have negative : narrow accepted.result = -2147483648 := rfl
  have again : socket.callError strerror accepted.errno = none := rfl
  have undecided : (socket.sendto strerror).decide () accepted = ((), none) := by
    simp [Socket.sendto, negative, again]
  have called : (socket.sendto strerror).step (Response.fits call) ⟨(), .calling⟩
      (.answer accepted) = some ⟨(), .waiting⟩ := by
    simp [Retry.step, fits, Retry.answered, undecided]
  have woken : (socket.sendto strerror).step (Response.fits call) ⟨(), .waiting⟩
      (.wake .ready) = some ⟨(), .calling⟩ := rfl
  refine ⟨_, _, ((Lib.Path.nil.snoc called).snoc woken).snoc called, fun once => ?_⟩
  exact absurd once.once (by simp [Retry.Label.given, Response.counts, accepted])

end SendsOnce

end Event
end Cgo
