import Mathlib.Data.List.Basic

/-!
# Coroutine bodies and direct evaluation

A nest of coroutines as a tree: what a body does after an awaited child has
returned, and what it does after the child has thrown, are its branches.  A body
that does not catch throws the child's exception again.

Direct evaluation is ordinary nested calls.  Its result is a trace: the steps in
their order, the suspensions between them, and the end.
-/

namespace Cgo
namespace Coroutine

/-- The rest of a coroutine's body. -/
inductive Body (Value Error Step : Type)
  /-- `co_return` -/
  | ret (value : Value)
  | throw (error : Error)
  | step (name : Step) (rest : Body Value Error Step)
  /-- `co_await std::suspend_always{}` -/
  | suspend (rest : Body Value Error Step)
  /-- `co_await` of a child made on the spot -/
  | await
      (child : Body Value Error Step)
      (onValue : Value → Body Value Error Step)
      (onError : Error → Body Value Error Step)

/-- What an observer sees of a coroutine. -/
inductive Event (Value Error Step : Type)
  /-- A body starts. -/
  | enter
  | step (name : Step)
  /-- A `co_await` yields a value. -/
  | value (value : Value)
  /-- A `co_await` throws. -/
  | error (error : Error)
  deriving DecidableEq

/-- A whole evaluation. -/
inductive Trace (Value Error Step : Type)
  | ret (value : Value)
  | throw (error : Error)
  | event (seen : Event Value Error Step) (rest : Trace Value Error Step)
  | suspend (rest : Trace Value Error Step)

variable {Value Error Step : Type}

namespace Trace

/-- Go on after the end of a trace. -/
def bind
    (onValue : Value → Trace Value Error Step)
    (onError : Error → Trace Value Error Step) :
    Trace Value Error Step → Trace Value Error Step
  | .ret value => onValue value
  | .throw error => onError error
  | .event seen rest => .event seen (rest.bind onValue onError)
  | .suspend rest => .suspend (rest.bind onValue onError)

/-- The events up to the first suspension, or up to the end. -/
def events : Trace Value Error Step → List (Event Value Error Step)
  | .ret _ => []
  | .throw _ => []
  | .event seen rest => seen :: rest.events
  | .suspend _ => []

/-- All events. -/
def length : Trace Value Error Step → Nat
  | .ret _ => 0
  | .throw _ => 0
  | .event _ rest => rest.length + 1
  | .suspend rest => rest.length

/-- How an evaluation stops for the first time. -/
inductive Stop (Value Error Step : Type)
  | returned (value : Value)
  | raised (error : Error)
  | suspended (rest : Trace Value Error Step)

/-- The first suspension, or the end. -/
def stop : Trace Value Error Step → Stop Value Error Step
  | .ret value => .returned value
  | .throw error => .raised error
  | .event _ rest => rest.stop
  | .suspend rest => .suspended rest

end Trace

namespace Body

/-- Direct evaluation: a `co_await` evaluates the child in its place. -/
def direct : Body Value Error Step → Trace Value Error Step
  | .ret value => .ret value
  | .throw error => .throw error
  | .step name rest => .event (.step name) rest.direct
  | .suspend rest => .suspend rest.direct
  | .await child onValue onError =>
      .event .enter (child.direct.bind
        (fun value => .event (.value value) (onValue value).direct)
        (fun error => .event (.error error) (onError error).direct))

/-- The evaluation of a body that is called from outside. -/
def evaluate (body : Body Value Error Step) : Trace Value Error Step :=
  .event .enter body.direct

/-- No body of the nest catches. -/
def NoCatch : Body Value Error Step → Prop
  | .ret _ => True
  | .throw _ => True
  | .step _ rest => rest.NoCatch
  | .suspend rest => rest.NoCatch
  | .await child onValue onError =>
      child.NoCatch ∧ (∀ value, (onValue value).NoCatch) ∧ onError = .throw

end Body

/-! ## Exceptions that are thrown on -/

namespace Trace

/-- Local steps follow, and then an exception leaves the body. -/
def rethrows : Trace Value Error Step → Bool
  | .ret _ => false
  | .throw _ => true
  | .event (.step _) rest => rest.rethrows
  | .event (.error _) _ => true
  | .event _ _ => false
  | .suspend _ => false

/-- Every exception that a `co_await` throws is answered by local steps and then
a throw out of the body. -/
def catchSafe : Trace Value Error Step → Bool
  | .ret _ => true
  | .throw _ => true
  | .event (.error _) rest => rest.rethrows && rest.catchSafe
  | .event _ rest => rest.catchSafe
  | .suspend rest => rest.catchSafe

/-- The same, up to the first suspension. -/
def catchSafeHere : Trace Value Error Step → Bool
  | .ret _ => true
  | .throw _ => true
  | .event (.error _) rest => rest.rethrows && rest.catchSafeHere
  | .event _ rest => rest.catchSafeHere
  | .suspend _ => true

/-- Whatever follows a trace that is bound, an exception is thrown on when it is
in the trace and in what follows. -/
theorem catchSafe_bind
    {trace : Trace Value Error Step}
    {onValue : Value → Trace Value Error Step}
    {onError : Error → Trace Value Error Step}
    (safe : trace.catchSafe = true)
    (safeValue : ∀ value, (onValue value).catchSafe = true)
    (safeError : ∀ error, (onError error).catchSafe = true)
    (thrown : ∀ error, (onError error).rethrows = true) :
    (trace.bind onValue onError).catchSafe = true := by
  have rethrown : ∀ rest : Trace Value Error Step, rest.rethrows = true →
      (rest.bind onValue onError).rethrows = true := by
    intro rest
    induction rest with
    | ret value => intro rethrows; cases rethrows
    | throw error => exact fun _ => thrown error
    | event seen rest inductionHypothesis =>
        cases seen with
        | enter => intro rethrows; cases rethrows
        | step name => exact inductionHypothesis
        | value value => intro rethrows; cases rethrows
        | error error => exact fun _ => rfl
    | suspend rest => intro rethrows; cases rethrows
  induction trace with
  | ret value => exact safeValue value
  | throw error => exact safeError error
  | event seen rest inductionHypothesis =>
      cases seen with
      | enter => exact inductionHypothesis safe
      | step name => exact inductionHypothesis safe
      | value value => exact inductionHypothesis safe
      | error error =>
          have both : rest.rethrows = true ∧ rest.catchSafe = true := by
            simpa [catchSafe] using safe
          simp [bind, catchSafe, rethrown rest both.1, inductionHypothesis both.2]
  | suspend rest inductionHypothesis => exact inductionHypothesis safe

end Trace

/-- Where no body catches, every exception is thrown on. -/
theorem Body.NoCatch.catchSafe
    {body : Body Value Error Step}
    (noCatch : body.NoCatch) :
    body.direct.catchSafe = true := by
  induction body with
  | ret value => rfl
  | throw error => rfl
  | step name rest inductionHypothesis => exact inductionHypothesis noCatch
  | suspend rest inductionHypothesis => exact inductionHypothesis noCatch
  | await child onValue onError childHypothesis valueHypothesis errorHypothesis =>
      obtain ⟨childSafe, valueSafe, rfl⟩ := noCatch
      apply Trace.catchSafe_bind (childHypothesis childSafe)
      · exact fun value => valueHypothesis value (valueSafe value)
      · exact fun _ => rfl
      · exact fun _ => rfl

end Coroutine
end Cgo
