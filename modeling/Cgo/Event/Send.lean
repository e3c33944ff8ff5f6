import Cgo.Event.Handler
import Cgo.Lib.Path
import Mathlib.Data.Nat.ModEq

/-!
# Sending

The loop of `Socket::send` over a kernel that accepts as much of the offered bytes
as it likes, or none, or fails.  The result of `::send` is kept in an `int`, so a
count from 2^31 on becomes another number.
-/

namespace Cgo
namespace Event

/-- A value of `errno`. -/
abbrev Errno := Int

def eagain : Errno := 11

def ewouldblock : Errno := 11

def epipe : Errno := 32

def econnreset : Errno := 104

def etimedout : Errno := 110

/-- `MSG_DONTWAIT` -/
def msgDontwait : BitVec 32 := 0x40

/-- `MSG_NOSIGNAL` -/
def msgNosignal : BitVec 32 := 0x4000

/-- `Socket::Protocol` -/
inductive Protocol where
  | tcp
  | udp
  | icmp
  | sctp
  deriving DecidableEq

/-- `Socket` without its context. -/
structure Socket where
  fd : Fd
  protocol : Protocol

/-- `Socket::Error` -/
structure Socket.Error where
  fd : Fd
  errCode : Errno
  errMsg : String
  deriving DecidableEq

/-- The arguments of a call of `::send`. -/
structure SendCall where
  fd : Fd
  bytes : List UInt8
  flags : BitVec 32

/-- The answer of the kernel.  A call that succeeds leaves `errno` as it was. -/
inductive Response where
  | accepted (count : Nat) (errno : Errno)
  | failed (errno : Errno)
  deriving DecidableEq

namespace Response

/-- What `::send` returns. -/
def result : Response → Int
  | .accepted count _ => count
  | .failed _ => -1

/-- `errno` after the call. -/
def errno : Response → Errno
  | .accepted _ errno => errno
  | .failed errno => errno

/-- The kernel accepts at most what it was offered. -/
def Valid (call : SendCall) : Response → Prop
  | .accepted count _ => count ≤ call.bytes.length
  | .failed _ => True

instance (call : SendCall) (response : Response) : Decidable (response.Valid call) := by
  cases response <;> unfold Valid <;> infer_instance

end Response

/-- The conversion of the result to `int`. -/
def narrow (result : Int) : Int :=
  (BitVec.ofInt 32 result).toInt

theorem narrow_of_small
    {count : Nat}
    (small : count < 2 ^ 31) :
    narrow count = count := by
  rw [narrow, BitVec.toInt_ofInt, Int.bmod_def]
  omega

/-- Where the loop of `send` is. -/
inductive Sending.Pc where
  /-- Before `::send`, with bytes left. -/
  | loop
  /-- In `_wait_sock_event`. -/
  | waiting
  | returned (result : Except Socket.Error Unit)
  deriving DecidableEq

/-- A call of `send`: `i`, the place in the loop, and the positions of the bytes that
the kernel has accepted, in their order.  The code does not keep these. -/
structure Sending where
  i : Nat
  pc : Sending.Pc
  sent : List Nat
  deriving DecidableEq

namespace Socket

/-- The call of `::send` for the bytes from `i` on. -/
def sendCall (socket : Socket) (data : List UInt8) (i : Nat) : SendCall where
  fd := socket.fd
  bytes := data.drop i
  flags :=
    match socket.protocol with
    | .tcp => msgNosignal
    | _ => msgDontwait ||| msgNosignal

/-- The error of a call that failed, unless the loop tries again.  `strerror` is that
of the C library. -/
def sendError (strerror : Errno → String) (socket : Socket) (errno : Errno) :
    Option Socket.Error :=
  if errno = econnreset ∨ errno = epipe then some ⟨socket.fd, errno, "close by other side"⟩
  else if errno ≠ eagain ∧ errno ≠ ewouldblock then some ⟨socket.fd, errno, strerror errno⟩
  else none

theorem sendError_eq_none_iff
    (strerror : Errno → String)
    (socket : Socket)
    (errno : Errno) :
    socket.sendError strerror errno = none ↔ errno = eagain ∨ errno = ewouldblock := by
  unfold sendError econnreset epipe eagain ewouldblock
  split
  · next reset => rcases reset with rfl | rfl <;> simp
  · split
    · next fatal => simp [fatal.1]
    · next again =>
        simp only [true_iff]
        simpa [Classical.not_and_iff_not_or_not] using again

end Socket

namespace Sending

/-- The test of the loop. -/
def head (data : List UInt8) (i : Nat) : Pc :=
  if i < data.length then .loop else .returned (.ok ())

/-- `send` is called. -/
def initial (data : List UInt8) : Sending where
  i := 0
  pc := head data 0
  sent := []

inductive Label where
  /-- `::send` returns. -/
  | call (response : Response)
  /-- `_wait_sock_event` returns. -/
  | wake (ready : Bool)
  deriving DecidableEq

section

variable (strerror : Errno → String) (socket : Socket) (data : List UInt8)

/-- What the loop does with the result of `::send`. -/
def afterCall (i : Nat) (response : Response) : Nat × Pc :=
  let n := narrow response.result
  if 0 < n then (i + n.toNat, head data (i + n.toNat))
  else if n < 0 then
    match socket.sendError strerror response.errno with
    | some error => (i, .returned (.error error))
    | none => (i, .waiting)
  else (i, .waiting)

/-- The positions of the bytes that a response accepts. -/
def positions (i : Nat) : Response → List Nat
  | .accepted count _ => List.range' i count
  | .failed _ => []

/-- One step. -/
def step (state : Sending) : Label → Option Sending
  | .call response =>
      match state.pc with
      | .loop =>
          if response.Valid (socket.sendCall data state.i) then
            let next := afterCall strerror socket data state.i response
            some ⟨next.1, next.2, state.sent ++ positions state.i response⟩
          else none
      | _ => none
  | .wake ready =>
      match state.pc with
      | .waiting =>
          if ready then some { state with pc := head data state.i }
          else some { state with
            pc := .returned (.error ⟨socket.fd, etimedout, "send timeout"⟩) }
      | _ => none

end

/-- The bytes that the kernel has accepted. -/
def wire (data : List UInt8) (state : Sending) : List UInt8 :=
  state.sent.filterMap fun position => data[position]?

/-- A call failed for good, or a wait timed out. -/
def Label.Fails : Label → Prop
  | .call (.failed errno) => errno ≠ eagain ∧ errno ≠ ewouldblock
  | .call (.accepted _ _) => False
  | .wake ready => ready = false

/-- The count that the kernel returns fits into an `int`. -/
def Label.Small : Label → Prop
  | .call (.accepted count _) => count < 2 ^ 31
  | _ => True

/-- The kernel has accepted the first bytes of the data, each of them once and in
order; `send` has returned success when these are all of them, and an error when a call
failed for good or a wait timed out, and then offers nothing more. -/
structure Delivers
    (strerror : Errno → String) (socket : Socket) (data : List UInt8)
    (taken : List (Lib.Transition Sending Label)) (state : Sending) : Prop where
  positions : ∃ count, count ≤ data.length ∧ state.sent = List.range count
  bytes : state.wire data <+: data
  success : state.pc = .returned (.ok ()) ↔ state.sent = List.range data.length
  failure : (∃ error, state.pc = .returned (.error error)) ↔
    ∃ transition ∈ taken, transition.label.Fails
  silent : ∀ error, state.pc = .returned (.error error) →
    ∀ label, step strerror socket data state label = none

/-- The bytes at the first positions. -/
theorem wire_of_range
    {data : List UInt8}
    {state : Sending}
    {count : Nat}
    (sent : state.sent = List.range count) :
    state.wire data = data.take count := by
  rw [wire, sent]
  clear sent
  induction count with
  | zero => simp
  | succ count inductionHypothesis =>
      rw [List.range_succ, List.filterMap_append, inductionHypothesis, List.take_add_one]
      cases found : data[count]? <;> simp [found]

/-! ## While the counts are small -/

section

variable {strerror : Errno → String} {socket : Socket} {data : List UInt8}
variable {before after : Sending} {label : Label}

/-- A response that accepts bytes moves `i` past them, one that accepts none or should be
tried again waits, and any other ends the call. -/
theorem afterCall_cases
    (strerror : Errno → String)
    (socket : Socket)
    (data : List UInt8)
    (i : Nat)
    {response : Response}
    (small : (Label.call response).Small) :
    (∃ count errno, response = .accepted count errno ∧ 0 < count ∧
        afterCall strerror socket data i response = (i + count, head data (i + count))) ∨
      (positions i response = [] ∧ ¬(Label.call response).Fails ∧
        afterCall strerror socket data i response = (i, .waiting)) ∨
      (∃ error, positions i response = [] ∧ (Label.call response).Fails ∧
        afterCall strerror socket data i response = (i, .returned (.error error))) := by
  cases response with
  | accepted count errno =>
      have result : narrow (Response.accepted count errno).result = count := narrow_of_small small
      rcases Nat.eq_zero_or_pos count with rfl | positive
      · right
        left
        refine ⟨rfl, id, ?_⟩
        simp [afterCall, result]
      · left
        refine ⟨count, errno, rfl, positive, ?_⟩
        simp [afterCall, result, positive]
  | failed errno =>
      have result : narrow (Response.failed errno).result = -1 := rfl
      right
      cases retried : socket.sendError strerror errno with
      | none =>
          left
          refine ⟨rfl, fun fails => ?_, ?_⟩
          · rcases (socket.sendError_eq_none_iff strerror errno).mp retried with again | again
            · exact fails.1 again
            · exact fails.2 again
          · simp [afterCall, result, Response.errno, retried]
      | some error =>
          right
          refine ⟨error, rfl, ?_, ?_⟩
          · rw [Label.Fails, ← not_or, ← socket.sendError_eq_none_iff strerror, retried]
            simp
          · simp [afterCall, result, Response.errno, retried]

/-- The positions up to `i` were accepted, and the loop stands where it should. -/
structure Ordered (data : List UInt8) (failed : Prop) (state : Sending) : Prop where
  sent : state.sent = List.range state.i
  bounded : state.i ≤ data.length
  success : state.pc = .returned (.ok ()) ↔ state.i = data.length
  failure : (∃ error, state.pc = .returned (.error error)) ↔ failed

namespace Ordered

/-- The state at the test of the loop. -/
theorem of_head
    {failed : Prop}
    {i : Nat}
    (bounded : i ≤ data.length)
    (unfailed : ¬failed) :
    Ordered data failed ⟨i, head data i, List.range i⟩ where
  sent := rfl
  bounded := bounded
  success := by
    simp only [head]
    split <;> simp <;> omega
  failure := by
    simp only [head]
    split <;> simp [unfailed]

theorem initial : Ordered data False (initial data) :=
  of_head (Nat.zero_le _) id

/-- In the loop bytes are left, and no call has failed. -/
theorem of_running
    {failed : Prop}
    (ordered : Ordered data failed before)
    (running : before.pc = .loop ∨ before.pc = .waiting) :
    before.i < data.length ∧ ¬failed := by
  constructor
  · have open_ : before.i ≠ data.length := by
      intro all
      have returned := ordered.success.mpr all
      rcases running with running | running <;> simp [running] at returned
    have bounded := ordered.bounded
    omega
  · rw [← ordered.failure]
    rintro ⟨error, returned⟩
    rcases running with running | running <;> simp [running] at returned

/-- What a step preserves. -/
theorem step
    {failed : Prop}
    (ordered : Ordered data failed before)
    (stepped : step strerror socket data before label = some after)
    (small : label.Small) :
    Ordered data (failed ∨ label.Fails) after := by
  cases label with
  | call response =>
      simp only [Sending.step] at stepped
      split at stepped
      · next looping =>
          obtain ⟨left, unfailed⟩ := ordered.of_running (.inl looping)
          split at stepped
          · next valid =>
              obtain rfl := Option.some.inj stepped
              rcases afterCall_cases strerror socket data before.i small with
                ⟨count, errno, rfl, positive, result⟩ | ⟨none, unfatal, result⟩ |
                  ⟨error, none, fatal, result⟩
              · have joined : List.range before.i ++ List.range' before.i count =
                    List.range (before.i + count) := by
                  simpa [List.range_eq_range'] using
                    List.range'_append_1 (s := 0) (m := before.i) (n := count)
                rw [result, ordered.sent, positions, joined]
                have fits : before.i + count ≤ data.length := by
                  simp only [Response.Valid, Socket.sendCall, List.length_drop] at valid
                  omega
                exact of_head fits (by simp [unfailed, Label.Fails])
              · rw [result, none, List.append_nil]
                exact {
                  sent := ordered.sent
                  bounded := ordered.bounded
                  success := by
                    simp only [reduceCtorEq, false_iff]
                    omega
                  failure := by simp [unfailed, unfatal] }
              · rw [result, none, List.append_nil]
                exact {
                  sent := ordered.sent
                  bounded := ordered.bounded
                  success := by
                    simp only [Pc.returned.injEq, reduceCtorEq, false_iff]
                    omega
                  failure := by simp [fatal] }
          · cases stepped
      · cases stepped
  | wake ready =>
      simp only [Sending.step] at stepped
      split at stepped
      · next waits =>
          obtain ⟨left, unfailed⟩ := ordered.of_running (.inr waits)
          split at stepped
          · next isReady =>
              obtain rfl := Option.some.inj stepped
              rw [ordered.sent]
              exact of_head ordered.bounded (by simp [unfailed, Label.Fails, isReady])
          · next timedOut =>
              obtain rfl := Option.some.inj stepped
              exact {
                sent := ordered.sent
                bounded := ordered.bounded
                success := by
                  simp only [Pc.returned.injEq, reduceCtorEq, false_iff]
                  omega
                failure := by
                  have fails : (Label.wake ready).Fails := by simpa [Label.Fails] using timedOut
                  simp [fails] }
      · cases stepped

/-- What a whole run preserves. -/
theorem of_path
    {taken : List (Lib.Transition Sending Label)}
    {state : Sending}
    (path : Lib.Path (Sending.step strerror socket data) (Sending.initial data) taken state)
    (small : ∀ transition ∈ taken, transition.label.Small) :
    Ordered data (∃ transition ∈ taken, transition.label.Fails) state := by
  induction path with
  | nil => simpa using Ordered.initial
  | snoc _ stepped inductionHypothesis =>
      simp only [List.forall_mem_append, List.forall_mem_singleton] at small
      have ordered := (inductionHypothesis small.1).step stepped small.2
      simpa [or_and_right, exists_or] using ordered

/-- `i` counts the bytes that the kernel has, so these are the first ones, and all of them
exactly when `i` has come to the end of the data. -/
theorem delivers
    {taken : List (Lib.Transition Sending Label)}
    {state : Sending}
    (ordered : Ordered data (∃ transition ∈ taken, transition.label.Fails) state) :
    Delivers strerror socket data taken state where
  positions := ⟨state.i, ordered.bounded, ordered.sent⟩
  bytes := by
    rw [wire_of_range ordered.sent]
    exact List.take_prefix _ _
  success := by
    rw [ordered.success, ordered.sent]
    constructor
    · intro all
      rw [all]
    · intro same
      simpa using congrArg List.length same
  failure := ordered.failure
  silent := by
    intro error returned label
    cases label <;> simp [Sending.step, returned]

end Ordered

/-- The kernel accepts no more than there is. -/
theorem small_of_step
    (stepped : step strerror socket data before label = some after)
    (short : data.length < 2 ^ 31) :
    label.Small := by
  cases label with
  | wake ready => trivial
  | call response =>
      cases response with
      | failed errno => trivial
      | accepted count errno =>
          simp only [step] at stepped
          split at stepped
          · split at stepped
            · next valid =>
                simp only [Response.Valid, Socket.sendCall, List.length_drop] at valid
                simp only [Label.Small]
                omega
            · cases stepped
          · cases stepped

/-- A call that accepts 2^31 bytes looks like one that failed. -/
theorem not_delivers_of_large
    (strerror : Errno → String)
    (socket : Socket)
    (large : 2 ^ 31 ≤ data.length) :
    ∃ taken state, Lib.Path (step strerror socket data) (initial data) taken state ∧
      ¬Delivers strerror socket data taken state := by
  let response : Response := .accepted (2 ^ 31) econnreset
  have positive : 0 < data.length := by omega
  have looping : (initial data).pc = .loop := if_pos positive
  have valid : response.Valid (socket.sendCall data (initial data).i) := by
    simpa [response, Response.Valid, Socket.sendCall, initial] using large
  have next : afterCall strerror socket data 0 response =
      (0, .returned (.error ⟨socket.fd, econnreset, "close by other side"⟩)) := rfl
  have stepped : step strerror socket data (initial data) (.call response) =
      some ⟨0, .returned (.error ⟨socket.fd, econnreset, "close by other side"⟩),
        positions 0 response⟩ := by
    rw [step, looping]
    simp only [valid, if_true]
    rw [initial, next]
    rfl
  refine ⟨_, _, Lib.Path.nil.snoc stepped, fun delivers => ?_⟩
  obtain ⟨transition, member, fails⟩ := delivers.failure.mp ⟨_, rfl⟩
  obtain rfl := List.mem_singleton.mp member
  exact fails

end

/-- For every data: `send` delivers it, whatever the kernel answers and however the waits
end, exactly when it has fewer than 2^31 bytes; and for data of any length it does so in
every run in which the kernel accepts fewer than 2^31 bytes at a time. -/
theorem send_delivers_iff
    (strerror : Errno → String)
    (socket : Socket)
    (data : List UInt8) :
    ((∀ taken state, Lib.Path (step strerror socket data) (initial data) taken state →
          Delivers strerror socket data taken state) ↔
        data.length < 2 ^ 31) ∧
      ∀ taken state, Lib.Path (step strerror socket data) (initial data) taken state →
        (∀ transition ∈ taken, transition.label.Small) →
          Delivers strerror socket data taken state := by
  have delivered : ∀ taken state,
      Lib.Path (step strerror socket data) (initial data) taken state →
        (∀ transition ∈ taken, transition.label.Small) →
          Delivers strerror socket data taken state :=
    fun taken state path small => (Ordered.of_path path small).delivers
  refine ⟨⟨fun always => ?_, fun short taken state path => ?_⟩, delivered⟩
  · by_contra long
    obtain ⟨taken, state, path, undelivered⟩ :=
      not_delivers_of_large strerror socket (Nat.le_of_not_lt long)
    exact undelivered (always taken state path)
  · apply delivered taken state path
    intro transition member
    exact small_of_step (path.mem_transition member).2 short

/-- The kernel accepts two of three bytes, is full, and then takes the last one. -/
theorem send_delivers_iff_sample :
    let step := step (fun _ => "") ⟨7, .tcp⟩ [1, 2, 3]
    let labels : List Label :=
      [.call (.accepted 2 0), .call (.failed eagain), .wake true, .call (.accepted 1 eagain)]
    let state := Lib.runFrom step (initial [1, 2, 3]) labels
    state.wire [1, 2, 3] <+: [1, 2, 3] ∧ state.pc = .returned (.ok ()) := by
  intro step labels state
  have path : Lib.Path step (initial [1, 2, 3]) (Lib.trace step (initial [1, 2, 3]) labels)
      state := Lib.path_runFrom (by decide)
  have delivers := (send_delivers_iff (fun _ => "") ⟨7, .tcp⟩ [1, 2, 3]).1.mpr (by decide)
    _ _ path
  exact ⟨delivers.bytes, delivers.success.mpr (by decide)⟩

/-- With 2^31 bytes to send, the kernel may accept all of them at once. -/
theorem large_send_fails :
    ¬∀ (strerror : Errno → String) (socket : Socket) (data : List UInt8) taken state,
      Lib.Path (step strerror socket data) (initial data) taken state →
        Delivers strerror socket data taken state := by
  intro always
  have large : 2 ^ 31 ≤ (List.replicate (2 ^ 31) (0 : UInt8)).length :=
    Nat.le_of_eq List.length_replicate.symm
  obtain ⟨taken, state, path, undelivered⟩ :=
    not_delivers_of_large (fun _ => "") ⟨7, .tcp⟩ large
  exact undelivered (always _ _ _ taken state path)

end Sending

end Event
end Cgo
