import Cgo.Lib.Path
import Mathlib.Logic.Function.Basic

/-!
# Critical sections

Threads call operations on shared data.  An operation runs inside a critical section
and takes many steps there.  While at most one thread is inside, every run is one in
which each operation takes a single step, at the moment its thread leaves.
-/

namespace Cgo
namespace Lib

/-- A body of steps, each of which reads the data and changes it. -/
inductive Section (Data Result : Type)
  | done (result : Result)
  | step (change : Data → Data) (rest : Data → Section Data Result)

variable {Thread Operation Data Result Client : Type}

/-- The whole body without interruption. -/
def Section.run : Section Data Result → Data → Data × Result
  | .done result, data => (data, result)
  | .step change rest, data => (rest data).run (change data)

@[simp] theorem Section.run_done
    (result : Result)
    (data : Data) :
    (Section.done result).run data = (data, result) := rfl

@[simp] theorem Section.run_step
    (change : Data → Data)
    (rest : Data → Section Data Result)
    (data : Data) :
    (Section.step change rest).run data = (rest data).run (change data) := rfl

/-- Some steps of a body lead from one rest and one content to another. -/
inductive Section.Progress (start : Section Data Result) (first : Data) :
    Section Data Result → Data → Prop
  | refl : Progress start first start first
  | step {change : Data → Data} {rest : Data → Section Data Result} {data : Data} :
      Progress start first (.step change rest) data →
      Progress start first (rest data) (change data)

/-- A body that has come some way still has the same end. -/
theorem Section.Progress.run
    {start body : Section Data Result}
    {first data : Data}
    (progress : start.Progress first body data) :
    body.run data = start.run first := by
  induction progress with
  | refl => rfl
  | step _ inductionHypothesis => simpa using inductionHypothesis

/-- The data has the property before and after each step. -/
def Section.Along (Holds : Data → Prop) : Section Data Result → Data → Prop
  | .done _, data => Holds data
  | .step change rest, data => Holds data ∧ (rest data).Along Holds (change data)

theorem Section.Along.of_progress
    {Holds : Data → Prop}
    {start body : Section Data Result}
    {first data : Data}
    (along : start.Along Holds first)
    (progress : start.Progress first body data) :
    body.Along Holds data := by
  induction progress with
  | refl => exact along
  | step _ inductionHypothesis => exact inductionHypothesis.2

theorem Section.Along.holds
    {Holds : Data → Prop}
    {body : Section Data Result}
    {data : Data}
    (along : body.Along Holds data) :
    Holds data := by
  cases body with
  | done result => exact along
  | step change rest => exact along.1

/-- Operations and the client that calls them: which calls it may make, and what it
makes of the results. -/
structure Service (Operation Data Result Client : Type) where
  body : Operation → Section Data Result
  call : Client → Operation → Option Client
  finish : Client → Operation → Result → Client

/-- Where a thread is in an operation, and what it holds inside. -/
inductive Phase (Operation Body : Type)
  | outside
  | waiting (operation : Operation)
  | inside (operation : Operation) (body : Body)

/-! ## One step for each operation -/

/-- The system in which a body runs at once.  Inside is a thread that has its
result and has not returned it. -/
structure Atomic (Thread Operation Data Result Client : Type) where
  data : Data
  client : Client
  phase : Thread → Phase Operation Result

inductive Atomic.Label (Thread Operation : Type)
  | call (thread : Thread) (operation : Operation)
  | act (thread : Thread)
  | «return» (thread : Thread)

namespace Atomic

/-- No thread has called. -/
def initial (data : Data) (client : Client) :
    Atomic Thread Operation Data Result Client where
  data := data
  client := client
  phase := fun _ => .outside

variable [DecidableEq Thread]

/-- The state with another phase of a thread. -/
def setPhase
    (state : Atomic Thread Operation Data Result Client)
    (thread : Thread)
    (phase : Phase Operation Result) : Atomic Thread Operation Data Result Client :=
  { state with phase := Function.update state.phase thread phase }

variable (service : Service Operation Data Result Client)

/-- The next state, or `none` when the step is not enabled. -/
def step (state : Atomic Thread Operation Data Result Client) :
    Label Thread Operation → Option (Atomic Thread Operation Data Result Client)
  | .call thread operation =>
      match state.phase thread with
      | .outside =>
          (service.call state.client operation).map fun client =>
            { state with client }.setPhase thread (.waiting operation)
      | _ => none
  | .act thread =>
      match state.phase thread with
      | .waiting operation =>
          let (data, result) := (service.body operation).run state.data
          some ({ state with data }.setPhase thread (.inside operation result))
      | _ => none
  | .return thread =>
      match state.phase thread with
      | .inside operation result =>
          some ({ state with client := service.finish state.client operation result }.setPhase
            thread .outside)
      | _ => none

variable {service} {state : Atomic Thread Operation Data Result Client}

theorem step_call
    {thread : Thread}
    {operation : Operation}
    {client : Client}
    (outside : state.phase thread = .outside)
    (allowed : service.call state.client operation = some client) :
    state.step service (.call thread operation) =
      some ({ state with client }.setPhase thread (.waiting operation)) := by
  simp [step, outside, allowed]

theorem step_act
    {thread : Thread}
    {operation : Operation}
    (waiting : state.phase thread = .waiting operation) :
    state.step service (.act thread) =
      some ({ state with data := ((service.body operation).run state.data).1 }.setPhase thread
        (.inside operation ((service.body operation).run state.data).2)) := by
  simp [step, waiting]

theorem step_return
    {thread : Thread}
    {operation : Operation}
    {result : Result}
    (inside : state.phase thread = .inside operation result) :
    state.step service (.return thread) =
      some ({ state with client := service.finish state.client operation result }.setPhase
        thread .outside) := by
  simp [step, inside]

/-- What a step can do. -/
inductive Move (service : Service Operation Data Result Client)
    (state : Atomic Thread Operation Data Result Client) :
    Label Thread Operation → Atomic Thread Operation Data Result Client → Prop
  | call {thread : Thread} {operation : Operation} {client : Client}
      (outside : state.phase thread = .outside)
      (allowed : service.call state.client operation = some client) :
      Move service state (.call thread operation)
        ({ state with client }.setPhase thread (.waiting operation))
  | act {thread : Thread} {operation : Operation}
      (waiting : state.phase thread = .waiting operation) :
      Move service state (.act thread)
        ({ state with data := ((service.body operation).run state.data).1 }.setPhase thread
          (.inside operation ((service.body operation).run state.data).2))
  | «return» {thread : Thread} {operation : Operation} {result : Result}
      (inside : state.phase thread = .inside operation result) :
      Move service state (.return thread)
        ({ state with client := service.finish state.client operation result }.setPhase
          thread .outside)

theorem move_of_step
    {label : Label Thread Operation}
    {after : Atomic Thread Operation Data Result Client}
    (stepped : state.step service label = some after) :
    Move service state label after := by
  cases label with
  | call thread operation =>
      simp only [step] at stepped
      split at stepped
      · next outside =>
          obtain ⟨client, allowed, rfl⟩ := Option.map_eq_some_iff.mp stepped
          exact .call outside allowed
      · cases stepped
  | act thread =>
      simp only [step] at stepped
      split at stepped
      · next operation waiting =>
          obtain rfl := Option.some.inj stepped
          exact .act waiting
      · cases stepped
  | «return» thread =>
      simp only [step] at stepped
      split at stepped
      · next operation result inside =>
          obtain rfl := Option.some.inj stepped
          exact .return inside
      · cases stepped

end Atomic

/-! ## Many steps under a lock -/

/-- The system in which a thread holds the lock while it is inside. -/
structure Locked (Thread Operation Data Result Client : Type) where
  holder : Option Thread
  data : Data
  client : Client
  phase : Thread → Phase Operation (Section Data Result)

inductive Locked.Label (Thread Operation : Type)
  | call (thread : Thread) (operation : Operation)
  | enter (thread : Thread)
  | advance (thread : Thread)
  | leave (thread : Thread)

namespace Locked

/-- No thread has called. -/
def initial (data : Data) (client : Client) :
    Locked Thread Operation Data Result Client where
  holder := none
  data := data
  client := client
  phase := fun _ => .outside

variable [DecidableEq Thread]

/-- The state with another phase of a thread. -/
def setPhase
    (state : Locked Thread Operation Data Result Client)
    (thread : Thread)
    (phase : Phase Operation (Section Data Result)) :
    Locked Thread Operation Data Result Client :=
  { state with phase := Function.update state.phase thread phase }

variable (service : Service Operation Data Result Client)

/-- The next state, or `none` when the step is not enabled. -/
def step (state : Locked Thread Operation Data Result Client) :
    Label Thread Operation → Option (Locked Thread Operation Data Result Client)
  | .call thread operation =>
      match state.phase thread with
      | .outside =>
          (service.call state.client operation).map fun client =>
            { state with client }.setPhase thread (.waiting operation)
      | _ => none
  | .enter thread =>
      match state.phase thread, state.holder with
      | .waiting operation, none =>
          some ({ state with holder := some thread }.setPhase thread
            (.inside operation (service.body operation)))
      | _, _ => none
  | .advance thread =>
      match state.phase thread with
      | .inside operation (.step change rest) =>
          some ({ state with data := change state.data }.setPhase thread
            (.inside operation (rest state.data)))
      | _ => none
  | .leave thread =>
      match state.phase thread with
      | .inside operation (.done result) =>
          some ({ state with
            holder := none
            client := service.finish state.client operation result }.setPhase thread .outside)
      | _ => none

variable {service} {state : Locked Thread Operation Data Result Client}

theorem step_call
    {thread : Thread}
    {operation : Operation}
    {client : Client}
    (outside : state.phase thread = .outside)
    (allowed : service.call state.client operation = some client) :
    state.step service (.call thread operation) =
      some ({ state with client }.setPhase thread (.waiting operation)) := by
  simp [step, outside, allowed]

theorem step_enter
    {thread : Thread}
    {operation : Operation}
    (waiting : state.phase thread = .waiting operation)
    (free : state.holder = none) :
    state.step service (.enter thread) =
      some ({ state with holder := some thread }.setPhase thread
        (.inside operation (service.body operation))) := by
  simp [step, waiting, free]

theorem step_advance
    {thread : Thread}
    {operation : Operation}
    {change : Data → Data}
    {rest : Data → Section Data Result}
    (inside : state.phase thread = .inside operation (.step change rest)) :
    state.step service (.advance thread) =
      some ({ state with data := change state.data }.setPhase thread
        (.inside operation (rest state.data))) := by
  simp [step, inside]

theorem step_leave
    {thread : Thread}
    {operation : Operation}
    {result : Result}
    (inside : state.phase thread = .inside operation (.done result)) :
    state.step service (.leave thread) =
      some ({ state with
        holder := none
        client := service.finish state.client operation result }.setPhase thread .outside) := by
  simp [step, inside]

/-- What a step can do. -/
inductive Move (service : Service Operation Data Result Client)
    (state : Locked Thread Operation Data Result Client) :
    Label Thread Operation → Locked Thread Operation Data Result Client → Prop
  | call {thread : Thread} {operation : Operation} {client : Client}
      (outside : state.phase thread = .outside)
      (allowed : service.call state.client operation = some client) :
      Move service state (.call thread operation)
        ({ state with client }.setPhase thread (.waiting operation))
  | enter {thread : Thread} {operation : Operation}
      (waiting : state.phase thread = .waiting operation)
      (free : state.holder = none) :
      Move service state (.enter thread)
        ({ state with holder := some thread }.setPhase thread
          (.inside operation (service.body operation)))
  | advance {thread : Thread} {operation : Operation} {change : Data → Data}
      {rest : Data → Section Data Result}
      (inside : state.phase thread = .inside operation (.step change rest)) :
      Move service state (.advance thread)
        ({ state with data := change state.data }.setPhase thread
          (.inside operation (rest state.data)))
  | leave {thread : Thread} {operation : Operation} {result : Result}
      (inside : state.phase thread = .inside operation (.done result)) :
      Move service state (.leave thread)
        ({ state with
          holder := none
          client := service.finish state.client operation result }.setPhase thread .outside)

theorem move_of_step
    {label : Label Thread Operation}
    {after : Locked Thread Operation Data Result Client}
    (stepped : state.step service label = some after) :
    Move service state label after := by
  cases label with
  | call thread operation =>
      simp only [step] at stepped
      split at stepped
      · next outside =>
          obtain ⟨client, allowed, rfl⟩ := Option.map_eq_some_iff.mp stepped
          exact .call outside allowed
      · cases stepped
  | enter thread =>
      simp only [step] at stepped
      split at stepped
      · next operation waiting free =>
          obtain rfl := Option.some.inj stepped
          exact .enter waiting free
      · cases stepped
  | advance thread =>
      simp only [step] at stepped
      split at stepped
      · next operation change rest inside =>
          obtain rfl := Option.some.inj stepped
          exact .advance inside
      · cases stepped
  | leave thread =>
      simp only [step] at stepped
      split at stepped
      · next operation result inside =>
          obtain rfl := Option.some.inj stepped
          exact .leave inside
      · cases stepped

/-! ## The lock makes a section one step -/

omit [DecidableEq Thread] in
/-- A state of many steps and the state in which the thread inside has not begun: it
has come some way from there, alone. -/
structure Refines
    (service : Service Operation Data Result Client)
    (locked : Locked Thread Operation Data Result Client)
    (atomic : Atomic Thread Operation Data Result Client) : Prop where
  client : atomic.client = locked.client
  free : locked.holder = none → atomic.data = locked.data
  held : ∀ thread, locked.holder = some thread → ∃ operation body,
    locked.phase thread = .inside operation body ∧
      atomic.phase thread = .waiting operation ∧
        (service.body operation).Progress atomic.data body locked.data
  others : ∀ thread, locked.holder ≠ some thread →
    (locked.phase thread = .outside ∧ atomic.phase thread = .outside) ∨
      ∃ operation, locked.phase thread = .waiting operation ∧
        atomic.phase thread = .waiting operation

namespace Refines

variable {locked : Locked Thread Operation Data Result Client}
variable {atomic : Atomic Thread Operation Data Result Client}

omit [DecidableEq Thread] in
theorem initial (data : Data) (client : Client) :
    Refines service (Locked.initial data client : Locked Thread Operation Data Result Client)
      (Atomic.initial data client) where
  client := rfl
  free := fun _ => rfl
  held := by
    intro thread holds
    simp [Locked.initial] at holds
  others := fun thread _ => .inl ⟨rfl, rfl⟩

omit [DecidableEq Thread] in
/-- Only the holder is inside. -/
theorem holder_of_inside
    (refines : Refines service locked atomic)
    {thread : Thread}
    {operation : Operation}
    {body : Section Data Result}
    (inside : locked.phase thread = .inside operation body) :
    locked.holder = some thread := by
  by_contra other
  rcases refines.others thread other with ⟨outside, _⟩ | ⟨_, waiting, _⟩
  · simp [inside] at outside
  · simp [inside] at waiting

omit [DecidableEq Thread] in
theorem inside
    (refines : Refines service locked atomic)
    {thread : Thread}
    {operation : Operation}
    {body : Section Data Result}
    (inside : locked.phase thread = .inside operation body) :
    atomic.phase thread = .waiting operation ∧
      (service.body operation).Progress atomic.data body locked.data := by
  obtain ⟨_, _, same, waiting, progress⟩ :=
    refines.held thread (refines.holder_of_inside inside)
  obtain ⟨rfl, rfl⟩ := Phase.inside.inj (inside.symm.trans same)
  exact ⟨waiting, progress⟩

omit [DecidableEq Thread] in
theorem outside
    (refines : Refines service locked atomic)
    {thread : Thread}
    (outside : locked.phase thread = .outside) :
    locked.holder ≠ some thread ∧ atomic.phase thread = .outside := by
  have apart : locked.holder ≠ some thread := by
    intro holds
    obtain ⟨_, _, inside, _, _⟩ := refines.held thread holds
    simp [outside] at inside
  refine ⟨apart, ?_⟩
  rcases refines.others thread apart with ⟨_, same⟩ | ⟨_, waiting, _⟩
  · exact same
  · simp [outside] at waiting

omit [DecidableEq Thread] in
theorem waiting
    (refines : Refines service locked atomic)
    {thread : Thread}
    {operation : Operation}
    (waiting : locked.phase thread = .waiting operation) :
    atomic.phase thread = .waiting operation := by
  have apart : locked.holder ≠ some thread := by
    intro holds
    obtain ⟨_, _, inside, _, _⟩ := refines.held thread holds
    simp [waiting] at inside
  rcases refines.others thread apart with ⟨outside, _⟩ | ⟨_, now, same⟩
  · simp [waiting] at outside
  · obtain rfl := Phase.waiting.inj (waiting.symm.trans now)
    exact same

/-- A call leaves the thread at the lock, in both. -/
private theorem call
    (refines : Refines service locked atomic)
    {thread : Thread}
    {operation : Operation}
    (client : Client)
    (apart : locked.holder ≠ some thread) :
    Refines service ({ locked with client }.setPhase thread (.waiting operation))
      ({ atomic with client }.setPhase thread (.waiting operation)) where
  client := rfl
  free := refines.free
  held := by
    intro holder holds
    have different : holder ≠ thread := fun same => apart (same ▸ holds)
    simpa [setPhase, Atomic.setPhase, different] using refines.held holder holds
  others := by
    intro other elsewhere
    rcases eq_or_ne other thread with rfl | different
    · exact .inr ⟨operation, by simp [setPhase], by simp [Atomic.setPhase]⟩
    · simpa [setPhase, Atomic.setPhase, different] using refines.others other elsewhere

/-- Who enters has not begun. -/
private theorem enter
    (refines : Refines service locked atomic)
    {thread : Thread}
    {operation : Operation}
    (waiting : locked.phase thread = .waiting operation)
    (free : locked.holder = none) :
    Refines service
      ({ locked with holder := some thread }.setPhase thread
        (.inside operation (service.body operation))) atomic where
  client := refines.client
  free := by
    intro holds
    simp [setPhase] at holds
  held := by
    intro holder holds
    obtain rfl : thread = holder := by simpa [setPhase] using holds
    refine ⟨operation, service.body operation, by simp [setPhase], refines.waiting waiting, ?_⟩
    rw [refines.free free]
    exact .refl
  others := by
    intro other elsewhere
    have different : other ≠ thread := by
      rintro rfl
      simp [setPhase] at elsewhere
    simpa [setPhase, different] using refines.others other (by simp [free])

/-- Who goes on inside makes progress. -/
private theorem advance
    (refines : Refines service locked atomic)
    {thread : Thread}
    {operation : Operation}
    {change : Data → Data}
    {rest : Data → Section Data Result}
    (inside : locked.phase thread = .inside operation (.step change rest)) :
    Refines service
      ({ locked with data := change locked.data }.setPhase thread
        (.inside operation (rest locked.data))) atomic where
  client := refines.client
  free := by
    intro free
    have holds := refines.holder_of_inside inside
    simp only [setPhase] at free
    simp [free] at holds
  held := by
    intro holder holds
    obtain rfl : thread = holder :=
      Option.some.inj ((refines.holder_of_inside inside).symm.trans holds)
    obtain ⟨waiting, progress⟩ := refines.inside inside
    exact ⟨operation, rest locked.data, by simp [setPhase], waiting, progress.step⟩
  others := by
    intro other elsewhere
    have different : other ≠ thread := by
      rintro rfl
      exact elsewhere (refines.holder_of_inside inside)
    simpa [setPhase, different] using refines.others other elsewhere

/-- Who leaves has done in all its steps what the abstract step does. -/
private theorem leave
    (refines : Refines service locked atomic)
    {thread : Thread}
    {operation : Operation}
    {result : Result}
    (inside : locked.phase thread = .inside operation (.done result)) :
    ∃ next,
      Refines service
        ({ locked with
          holder := none
          client := service.finish locked.client operation result }.setPhase thread .outside)
        next ∧ Reachable (Atomic.step service) atomic next := by
  obtain ⟨waiting, progress⟩ := refines.inside inside
  have ends : (service.body operation).run atomic.data = (locked.data, result) := progress.run.symm
  have acted : atomic.step service (.act thread) = some _ := Atomic.step_act waiting
  have ready : (({ atomic with data := ((service.body operation).run atomic.data).1 }.setPhase
      thread (.inside operation ((service.body operation).run atomic.data).2)).phase thread) =
        .inside operation result := by
    simp [Atomic.setPhase, ends]
  refine ⟨_, ?_, (Reachable.tail .refl acted).tail (Atomic.step_return ready)⟩
  refine ⟨?_, fun _ => congrArg Prod.fst ends, ?_, ?_⟩
  · exact congrArg (service.finish · operation result) refines.client
  · intro holder holds
    simp [setPhase] at holds
  · intro other _
    rcases eq_or_ne other thread with rfl | different
    · exact .inl ⟨by simp [setPhase], by simp [Atomic.setPhase]⟩
    · have elsewhere : locked.holder ≠ some other := by
        rw [refines.holder_of_inside inside]
        exact fun same => different (Option.some.inj same).symm
      simpa [setPhase, Atomic.setPhase, different] using refines.others other elsewhere

/-- The step rule: leaving is the step of the operation. -/
theorem step
    {label : Label Thread Operation}
    {after : Locked Thread Operation Data Result Client}
    (refines : Refines service locked atomic)
    (stepped : locked.step service label = some after) :
    ∃ next, Refines service after next ∧ Reachable (Atomic.step service) atomic next := by
  cases move_of_step stepped with
  | @call thread operation client outside allowed =>
      obtain ⟨apart, same⟩ := refines.outside outside
      rw [← refines.client] at allowed
      exact ⟨_, refines.call client apart, .tail .refl (Atomic.step_call same allowed)⟩
  | enter waiting free => exact ⟨atomic, refines.enter waiting free, .refl⟩
  | advance inside => exact ⟨atomic, refines.advance inside, .refl⟩
  | leave inside => exact refines.leave inside

end Refines

/-- Every state reached with many steps refines one reached with single ones. -/
theorem refines_of_reachable
    {data : Data}
    {client : Client}
    (reached : Reachable (step service) (initial data client) state) :
    ∃ atomic, Refines service state atomic ∧
      Reachable (Atomic.step service) (Atomic.initial data client) atomic :=
  Reachable.refine (Refines service) (.initial data client)
    (fun _ _ _ _ refines stepped => refines.step stepped) reached

end Locked
end Lib
end Cgo
