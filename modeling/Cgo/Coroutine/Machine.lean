import Cgo.Coroutine.Body
import Cgo.Coroutine.Linked

/-!
# The call stack

`BaseFrame`, `BasePromise`, `Coroutine` and `FrameOperator`: coroutine frames on
a heap, the promises in them, the `Coroutine` objects that own them, and the
loop that resumes them.  `none` stands for a null or dangling pointer that is
followed, and for a loop that needs more fuel.
-/

namespace Cgo
namespace Coroutine

/-- Address of a coroutine frame, and of the promise in it. -/
abbrev FrameId := Nat

/-- Address of a `Coroutine` object. -/
abbrev ObjectId := Nat

/-- `BasePromise`, but for its links, and `_value` of `ValuePromise`. -/
structure Promise (Value Error : Type) where
  /-- `_onwer` -/
  onwer : Option ObjectId
  /-- `_error` -/
  error : Option Error
  /-- `_entry` -/
  entry : Option FrameId
  /-- `_current` -/
  current : Option FrameId
  value : Value

/-- Where the body of a frame is suspended. -/
inductive FrameState (Value Error Step : Type)
  /-- at `initial_suspend` -/
  | fresh (body : Body Value Error Step)
  | suspended (rest : Body Value Error Step)
  /-- in the `co_await` of an object -/
  | awaiting
      (object : ObjectId)
      (onValue : Value → Body Value Error Step)
      (onError : Error → Body Value Error Step)
  /-- at `final_suspend` -/
  | finished

/-- `BaseFrame`: `_handler` and `_promise`. -/
structure Object where
  handler : Option FrameId
  promise : Option FrameId

/-- The heap. -/
structure Machine (Value Error Step : Type) where
  links : Links FrameId
  promise : FrameId → Promise Value Error
  /-- `none` when the frame is not allocated -/
  frame : FrameId → Option (FrameState Value Error Step)
  object : ObjectId → Object
  /-- the next address of a frame -/
  frames : FrameId
  /-- the next address of an object -/
  objects : ObjectId

/-- Where a body halts after its local steps. -/
inductive Halt (Value Error Step : Type)
  | ret (value : Value)
  | throw (error : Error)
  | suspend (rest : Body Value Error Step)
  | await
      (child : Body Value Error Step)
      (onValue : Value → Body Value Error Step)
      (onError : Error → Body Value Error Step)

/-- One pass of the loop of `_call_stack_execute`. -/
structure Turn (Value Error Step : Type) where
  machine : Machine Value Error Step
  events : List (Event Value Error Step)
  next : Option FrameId
  raised : Option Error

/-- How `_call_stack_execute` ends. -/
structure Outcome (Value Error Step : Type) where
  machine : Machine Value Error Step
  events : List (Event Value Error Step)
  raised : Option Error

variable {Value Error Step : Type}

namespace Body

/-- The local steps of a body, and where it halts. -/
def advance : Body Value Error Step → List (Event Value Error Step) × Halt Value Error Step
  | .ret value => ([], .ret value)
  | .throw error => ([], .throw error)
  | .step name rest => (.step name :: rest.advance.1, rest.advance.2)
  | .suspend rest => ([], .suspend rest)
  | .await child onValue onError => ([], .await child onValue onError)

end Body

namespace Machine

/-- Nothing is allocated. -/
def empty [Inhabited Value] : Machine Value Error Step where
  links := .empty
  promise := fun _ => ⟨none, none, none, none, default⟩
  frame := fun _ => none
  object := fun _ => ⟨none, none⟩
  frames := 0
  objects := 0

variable (machine : Machine Value Error Step)

/-- The heap with another promise. -/
def setPromise (frame : FrameId) (value : Promise Value Error) : Machine Value Error Step :=
  { machine with promise := Function.update machine.promise frame value }

/-- The heap with another frame. -/
def setFrame (frame : FrameId) (state : Option (FrameState Value Error Step)) :
    Machine Value Error Step :=
  { machine with frame := Function.update machine.frame frame state }

/-- The heap with another object. -/
def setObject (object : ObjectId) (value : Object) : Machine Value Error Step :=
  { machine with object := Function.update machine.object object value }

/-- The call of a coroutine function: a frame, its promise and the object that
owns it. -/
def create [Inhabited Value] (body : Body Value Error Step) : Machine Value Error Step where
  links := machine.links.create machine.frames
  promise := Function.update machine.promise machine.frames
    ⟨some machine.objects, none, none, none, default⟩
  frame := Function.update machine.frame machine.frames (some (.fresh body))
  object := Function.update machine.object machine.objects
    ⟨some machine.frames, some machine.frames⟩
  frames := machine.frames + 1
  objects := machine.objects + 1

/-- `BaseFrame(BaseFrame&& rhs)`, at the next address. -/
def move (rhs : ObjectId) : Option (Machine Value Error Step) :=
  match (machine.object rhs).promise with
  | none => none
  | some promise =>
      some { ((machine.setObject machine.objects (machine.object rhs)).setObject rhs
          ⟨none, none⟩).setPromise promise
            { machine.promise promise with onwer := some machine.objects } with
        objects := machine.objects + 1 }

/-- `~BaseFrame` of an object that goes out of scope.  What a destroyed frame
owned cannot be reached any more and stays on the heap. -/
def destroy (object : ObjectId) : Machine Value Error Step :=
  match (machine.object object).handler with
  | none => machine
  | some handler => (machine.setFrame handler none).setObject object ⟨none, none⟩

/-- `coroutine_handle::done` -/
def done (handler : FrameId) : Bool :=
  match machine.frame handler with
  | some .finished => true
  | _ => false

/-- `_call_stack_create` -/
def callStackCreate (entry : ObjectId) : Option (Machine Value Error Step) :=
  match (machine.object entry).promise with
  | none => none
  | some promise =>
      some (machine.setPromise promise
        { machine.promise promise with entry := some promise, current := some promise })

/-- `_call_stack_push` -/
def callStackPush (self callee : FrameId) : Option (Machine Value Error Step) :=
  match (machine.promise self).entry with
  | none => none
  | some entry =>
      match (machine.promise entry).current with
      | none => none
      | some caller =>
          let linked := { machine with links := machine.links.linkBack caller callee }
          let entered := linked.setPromise callee
            { linked.promise callee with entry := some entry }
          some (entered.setPromise entry
            { entered.promise entry with current := some callee })

/-- `_call_stack_pop`, with the frame that it returns. -/
def callStackPop (self : FrameId) :
    Option (Machine Value Error Step × Option FrameId) :=
  match (machine.promise self).entry with
  | none => none
  | some entry =>
      match (machine.promise entry).current with
      | none => none
      | some current =>
          let next := machine.links.front current
          let unlinked := { machine with
            links :=
              match next with
              | some below => machine.links.unlinkBack below
              | none => machine.links }
          some (unlinked.setPromise entry { unlinked.promise entry with current := next }, next)

/-- `await_suspend` -/
def awaitSuspend (object : ObjectId) (caller : FrameId) : Option (Machine Value Error Step) :=
  match (machine.object object).promise with
  | none => none
  | some callee =>
      (machine.setPromise callee
        { machine.promise callee with onwer := some object }).callStackPush caller callee

/-- A body halts: `return_value`, `unhandled_exception`, a suspension, or the
`co_await` of a child.  A child that was just made is not done, so
`await_ready` is false. -/
def halt [Inhabited Value] (self : FrameId) :
    Halt Value Error Step → Option (Machine Value Error Step)
  | .ret value =>
      some ((machine.setPromise self { machine.promise self with value }).setFrame self
        (some .finished))
  | .throw error =>
      some ((machine.setPromise self { machine.promise self with error := some error }).setFrame
        self (some .finished))
  | .suspend rest => some (machine.setFrame self (some (.suspended rest)))
  | .await child onValue onError =>
      ((machine.create child).setFrame self
        (some (.awaiting machine.objects onValue onError))).awaitSuspend machine.objects self

/-- A body runs until it halts. -/
def run [Inhabited Value]
    (self : FrameId)
    (seen : List (Event Value Error Step))
    (body : Body Value Error Step) :
    Option (Machine Value Error Step × List (Event Value Error Step)) :=
  (machine.halt self body.advance.2).map fun halted => (halted, seen ++ body.advance.1)

/-- `coroutine_handle::resume`, with `await_resume` where the frame awaits a
child, whose object goes out of scope. -/
def resume [Inhabited Value] (handler : FrameId) :
    Option (Machine Value Error Step × List (Event Value Error Step)) :=
  match machine.frame handler with
  | none => none
  | some (.fresh body) => machine.run handler [.enter] body
  | some (.suspended rest) => machine.run handler [] rest
  | some (.awaiting object onValue onError) =>
      match (machine.object object).promise with
      | none => none
      | some child =>
          match (machine.promise child).error with
          | some error =>
              (machine.destroy object).run handler [.error error] (onError error)
          | none =>
              (machine.destroy object).run handler [.value (machine.promise child).value]
                (onValue (machine.promise child).value)
  | some .finished => none

/-- `current->_onwer->_handler` -/
def handlerOf (current : FrameId) : Option FrameId :=
  match (machine.promise current).onwer with
  | none => none
  | some object => (machine.object object).handler

/-- The pass of the loop after the current frame has come back with an error. -/
def turnError (entry : FrameId) (events : List (Event Value Error Step)) (error : Error) :
    Option (Turn Value Error Step) :=
  match machine.callStackPop entry with
  | none => none
  | some (popped, none) => some ⟨popped, events, none, some error⟩
  | some (popped, some next) =>
      let passed := popped.setPromise next { popped.promise next with error := some error }
      some ⟨passed.setPromise entry { passed.promise entry with current := some next },
        events, some next, none⟩

/-- The pass of the loop after the current frame has come back without one. -/
def turnValue (entry current : FrameId) (events : List (Event Value Error Step)) :
    Option (Turn Value Error Step) :=
  match machine.handlerOf current with
  | none => none
  | some handler =>
      if machine.done handler then
        match machine.callStackPop entry with
        | none => none
        | some (popped, next) => some ⟨popped, events, next, none⟩
      else some ⟨machine, events, (machine.promise entry).current, none⟩

/-- The body of the loop of `_call_stack_execute`. -/
def turn [Inhabited Value] (entry current : FrameId) : Option (Turn Value Error Step) :=
  match machine.handlerOf current with
  | none => none
  | some handler =>
      match machine.resume handler with
      | none => none
      | some (resumed, events) =>
          match (resumed.promise current).error with
          | some error => resumed.turnError entry events error
          | none => resumed.turnValue entry current events

/-- The loop of `_call_stack_execute`. -/
def loop [Inhabited Value] (entry : FrameId) :
    Nat → Machine Value Error Step → Option FrameId → Option (Outcome Value Error Step)
  | 0, _, _ => none
  | _, _, none => none
  | fuel + 1, machine, some current =>
      match machine.turn entry current with
      | none => none
      | some turn =>
          match turn.raised with
          | some error => some ⟨turn.machine, turn.events, some error⟩
          | none =>
              if turn.next ≠ none ∧ turn.next ≠ some current then
                (loop entry fuel turn.machine turn.next).map fun outcome =>
                  { outcome with events := turn.events ++ outcome.events }
              else some ⟨turn.machine, turn.events, none⟩

/-- `_call_stack_execute` -/
def callStackExecute [Inhabited Value] (fuel : Nat) (object : ObjectId) :
    Option (Outcome Value Error Step) :=
  match (machine.object object).promise with
  | none => none
  | some promise =>
      match (machine.promise promise).entry with
      | none => none
      | some entry => machine.loop entry fuel (machine.promise entry).current

end Machine

/-! ## Sessions -/

/-- What the owner of the entry does. -/
inductive Use
  /-- The entry object is moved into another one. -/
  | move
  /-- `FrameOperator::resume`, unless the entry is done -/
  | resume
  deriving DecidableEq

/-- What the owner sees of one `FrameOperator::resume`. -/
structure Report (Value Error Step : Type) where
  events : List (Event Value Error Step)
  /-- The exception that leaves `resume`. -/
  raised : Option Error
  /-- `FrameOperator::done` -/
  done : Bool
  /-- What `await_resume` of the entry would return. -/
  returned : Option Value
  deriving DecidableEq

namespace Machine

/-- What the owner sees of an outcome. -/
def report
    (outcome : Outcome Value Error Step)
    (handler : FrameId) : Report Value Error Step where
  events := outcome.events
  raised := outcome.raised
  done := outcome.machine.done handler
  returned :=
    if outcome.machine.done handler ∧ (outcome.machine.promise handler).error.isNone then
      some (outcome.machine.promise handler).value
    else none

/-- The owner resumes and moves the entry. -/
def session [Inhabited Value] (fuel : Nat) :
    Machine Value Error Step → ObjectId → List Use → Option (List (Report Value Error Step))
  | _, _, [] => some []
  | machine, entry, .move :: uses =>
      match machine.move entry with
      | none => none
      | some moved => moved.session fuel machine.objects uses
  | machine, entry, .resume :: uses =>
      match (machine.object entry).handler with
      | none => none
      | some handler =>
          if machine.done handler then some []
          else
            match machine.callStackExecute fuel entry with
            | none => none
            | some outcome =>
                (outcome.machine.session fuel entry uses).map fun reports =>
                  report outcome handler :: reports

/-- A call of a coroutine function, `FrameOperator::init` and the uses of the
entry. -/
def start [Inhabited Value]
    (fuel : Nat)
    (body : Body Value Error Step)
    (uses : List Use) : Option (List (Report Value Error Step)) :=
  match (empty.create body).callStackCreate 0 with
  | none => none
  | some machine => machine.session fuel 0 uses

end Machine

namespace Trace

/-- What the owner of a directly evaluated coroutine sees of one resume. -/
def report (trace : Trace Value Error Step) : Report Value Error Step :=
  match trace.stop with
  | .returned value => ⟨trace.events, none, true, some value⟩
  | .raised error => ⟨trace.events, some error, true, none⟩
  | .suspended _ => ⟨trace.events, none, false, none⟩

/-- The owner resumes the evaluation; moving an object does nothing to it. -/
def session : Trace Value Error Step → List Use → List (Report Value Error Step)
  | _, [] => []
  | trace, .move :: uses => trace.session uses
  | trace, .resume :: uses =>
      trace.report ::
        match trace.stop with
        | .suspended rest => rest.session uses
        | _ => []

end Trace

end Coroutine
end Cgo
