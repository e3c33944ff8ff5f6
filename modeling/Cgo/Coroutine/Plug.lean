import Cgo.Coroutine.CallStack

/-!
# What a call stack still has to do

The trace of a call stack is that of the current frame, plugged into the frames
that wait: each of them goes on with the value or the exception of the one above
it.  The trace of a body is made of its local steps and of what it does when it
halts.
-/

namespace Cgo
namespace Coroutine

variable {Value Error Step : Type}

namespace Trace

/-- The trace after some events. -/
def emit
    (events : List (Event Value Error Step))
    (trace : Trace Value Error Step) : Trace Value Error Step :=
  events.foldr .event trace

@[simp] theorem emit_nil (trace : Trace Value Error Step) :
    emit [] trace = trace := rfl

@[simp] theorem emit_cons
    (seen : Event Value Error Step)
    (events : List (Event Value Error Step))
    (trace : Trace Value Error Step) :
    emit (seen :: events) trace = .event seen (emit events trace) := rfl

theorem emit_append
    (left right : List (Event Value Error Step))
    (trace : Trace Value Error Step) :
    emit (left ++ right) trace = emit left (emit right trace) :=
  List.foldr_append

@[simp] theorem events_emit
    (events : List (Event Value Error Step))
    (trace : Trace Value Error Step) :
    (emit events trace).events = events ++ trace.events := by
  induction events with
  | nil => rfl
  | cons seen events inductionHypothesis => simp [Trace.events, inductionHypothesis]

@[simp] theorem stop_emit
    (events : List (Event Value Error Step))
    (trace : Trace Value Error Step) :
    (emit events trace).stop = trace.stop := by
  induction events with
  | nil => rfl
  | cons seen events inductionHypothesis => exact inductionHypothesis

/-- The waiting frames go on after the trace. -/
def plug : Trace Value Error Step → List (Waiting Value Error Step) → Trace Value Error Step
  | trace, [] => trace
  | trace, below :: rest =>
      plug (trace.bind
        (fun value => .event (.value value) (below.onValue value).direct)
        (fun error => .event (.error error) (below.onError error).direct)) rest

@[simp] theorem plug_nil (trace : Trace Value Error Step) :
    plug trace [] = trace := rfl

@[simp] theorem plug_event
    (seen : Event Value Error Step)
    (trace : Trace Value Error Step)
    (waiting : List (Waiting Value Error Step)) :
    plug (.event seen trace) waiting = .event seen (plug trace waiting) := by
  induction waiting generalizing trace with
  | nil => rfl
  | cons below rest inductionHypothesis => exact inductionHypothesis _

@[simp] theorem plug_suspend
    (trace : Trace Value Error Step)
    (waiting : List (Waiting Value Error Step)) :
    plug (.suspend trace) waiting = .suspend (plug trace waiting) := by
  induction waiting generalizing trace with
  | nil => rfl
  | cons below rest inductionHypothesis => exact inductionHypothesis _

@[simp] theorem plug_emit
    (events : List (Event Value Error Step))
    (trace : Trace Value Error Step)
    (waiting : List (Waiting Value Error Step)) :
    plug (emit events trace) waiting = emit events (plug trace waiting) := by
  induction events with
  | nil => rfl
  | cons seen events inductionHypothesis => simp [inductionHypothesis]

/-- A frame that returns hands its value to the frame below it. -/
@[simp] theorem plug_ret
    (value : Value)
    (below : Waiting Value Error Step)
    (waiting : List (Waiting Value Error Step)) :
    plug (.ret value) (below :: waiting) =
      .event (.value value) (plug (below.onValue value).direct waiting) :=
  plug_event _ _ _

/-- A frame that throws hands its exception to the frame below it. -/
@[simp] theorem plug_throw
    (error : Error)
    (below : Waiting Value Error Step)
    (waiting : List (Waiting Value Error Step)) :
    plug (.throw error) (below :: waiting) =
      .event (.error error) (plug (below.onError error).direct waiting) :=
  plug_event _ _ _

end Trace

/-! ## Bodies that halt -/

/-- What a body does directly from the point where it halts. -/
def Halt.direct : Halt Value Error Step → Trace Value Error Step
  | .ret value => .ret value
  | .throw error => .throw error
  | .suspend rest => .suspend rest.direct
  | .await child onValue onError => (Body.await child onValue onError).direct

namespace Body

/-- Direct evaluation takes the local steps and then what the body halts for. -/
theorem direct_eq (body : Body Value Error Step) :
    body.direct = Trace.emit body.advance.1 body.advance.2.direct := by
  induction body with
  | ret value => rfl
  | throw error => rfl
  | step name rest inductionHypothesis =>
      simp only [Body.direct, Body.advance, Trace.emit_cons]
      rw [inductionHypothesis]
  | suspend rest => rfl
  | await child onValue onError => rfl

/-- Local steps do not decide whether exceptions are thrown on. -/
theorem catchSafeHere_advance
    (body : Body Value Error Step)
    (trace : Trace Value Error Step) :
    (Trace.emit body.advance.1 trace).catchSafeHere = trace.catchSafeHere := by
  induction body with
  | step name rest inductionHypothesis => exact inductionHypothesis
  | _ => rfl

theorem rethrows_advance
    (body : Body Value Error Step)
    (trace : Trace Value Error Step) :
    (Trace.emit body.advance.1 trace).rethrows = trace.rethrows := by
  induction body with
  | step name rest inductionHypothesis => exact inductionHypothesis
  | _ => rfl

end Body

/-- The body is thrown out of. -/
def Halt.throws : Halt Value Error Step → Bool
  | .throw _ => true
  | _ => false

/-- An exception is thrown on when the body that gets it halts by throwing. -/
theorem Halt.rethrows_plug
    (halt : Halt Value Error Step)
    (waiting : List (Waiting Value Error Step)) :
    (Trace.plug halt.direct waiting).rethrows = halt.throws := by
  cases halt with
  | ret value =>
      cases waiting with
      | nil => rfl
      | cons below rest => simp [Halt.direct, Trace.rethrows, Halt.throws]
  | throw error =>
      cases waiting with
      | nil => rfl
      | cons below rest => simp [Halt.direct, Trace.rethrows, Halt.throws]
  | suspend rest => simp [Halt.direct, Trace.rethrows, Halt.throws]
  | await child onValue onError =>
      simp [Halt.direct, Body.direct, Trace.rethrows, Halt.throws]

/-- A child that is awaited runs above the body that awaits it. -/
theorem Halt.plug_await
    (top : Level)
    (child : Body Value Error Step)
    (onValue : Value → Body Value Error Step)
    (onError : Error → Body Value Error Step)
    (waiting : List (Waiting Value Error Step)) :
    Trace.plug (Halt.await child onValue onError).direct waiting =
      .event .enter (Trace.plug child.direct (⟨top, onValue, onError⟩ :: waiting)) := by
  simp only [Halt.direct, Body.direct, Trace.plug_event]
  rfl

/-! ## Safe traces -/

/-- The exception that a frame has just been given. -/
def stale : List (Event Value Error Step) → Option Error
  | [.error error] => some error
  | _ => none

/-- A trace that throws exceptions on does so at its first halt and after it. -/
theorem Trace.catchSafeHere_emit
    {seen : List (Event Value Error Step)}
    (short : seen.length ≤ 1)
    (body : Body Value Error Step)
    (trace : Trace Value Error Step) :
    (emit (seen ++ body.advance.1) trace).catchSafeHere =
      (((stale seen).isNone || trace.rethrows) && trace.catchSafeHere) := by
  rw [emit_append]
  cases seen with
  | nil => simp [stale, body.catchSafeHere_advance]
  | cons first more =>
      obtain rfl : more = [] := by
        apply List.length_eq_zero_iff.mp
        simp only [List.length_cons] at short
        omega
      cases first with
      | error error =>
          simp [stale, Trace.catchSafeHere, body.catchSafeHere_advance, body.rethrows_advance]
      | enter => simp [stale, Trace.catchSafeHere, body.catchSafeHere_advance]
      | step name => simp [stale, Trace.catchSafeHere, body.catchSafeHere_advance]
      | value value => simp [stale, Trace.catchSafeHere, body.catchSafeHere_advance]

/-- A trace throws exceptions on when it does so up to its first suspension and
after it. -/
theorem Trace.catchSafe_iff (trace : Trace Value Error Step) :
    trace.catchSafe = true ↔
      trace.catchSafeHere = true ∧
        ∀ rest, trace.stop = .suspended rest → rest.catchSafe = true := by
  induction trace with
  | ret value => simp [catchSafe, catchSafeHere, stop]
  | throw error => simp [catchSafe, catchSafeHere, stop]
  | event seen rest inductionHypothesis =>
      cases seen with
      | error error =>
          simp only [catchSafe, catchSafeHere, stop, Bool.and_eq_true, inductionHypothesis,
            and_assoc]
      | enter => exact inductionHypothesis
      | step name => exact inductionHypothesis
      | value value => exact inductionHypothesis
  | suspend rest => simp [catchSafe, catchSafeHere, stop]

end Coroutine
end Cgo
