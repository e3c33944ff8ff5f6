import Cgo.Coroutine.Plug

/-!
# The loop of the call stack

One pass of the loop of `_call_stack_execute` resumes the current frame and finds
the next one.  A frame that was given an exception still has it as its error when
it comes back, and the loop takes that for an exception that leaves the frame.
So the loop does what direct evaluation does exactly when every exception that a
`co_await` throws is thrown on by the body that gets it.
-/

namespace Cgo
namespace Coroutine

variable {Value Error Step : Type} [Inhabited Value]

/-- The heap holds a call stack whose current frame, when it is resumed, is given
`seen` and goes on with the body. -/
structure Ready
    (machine : Machine Value Error Step)
    (entry top : Level)
    (waiting : List (Waiting Value Error Step))
    (seen : List (Event Value Error Step))
    (body : Body Value Error Step) : Prop where
  short : seen.length ≤ 1
  handler : machine.handlerOf top.frame = some top.frame
  resumes :
    ∃ resumed, machine.resume top.frame = resumed.run top.frame seen body ∧
      CallStack resumed entry top waiting ∧ Calm resumed waiting ∧
        (resumed.promise top.frame).error = stale seen

namespace CallStack

variable {machine : Machine Value Error Step} {entry top : Level}
variable {waiting : List (Waiting Value Error Step)}

omit [Inhabited Value] in
/-- The object of the current frame refers to it. -/
theorem handlerOf_top (stack : CallStack machine entry top waiting) :
    machine.handlerOf top.frame = some top.frame := by
  have owned := stack.owned top top_mem
  simp [Machine.handlerOf, owned.onwer, owned.object]

/-- A frame at its initial suspension is ready. -/
theorem ready_fresh
    (stack : CallStack machine entry top waiting)
    (calm : Calm machine waiting)
    {body : Body Value Error Step}
    (fresh : machine.frame top.frame = some (.fresh body))
    (errorless : (machine.promise top.frame).error = none) :
    Ready machine entry top waiting [.enter] body where
  short := Nat.le_refl _
  handler := stack.handlerOf_top
  resumes := ⟨machine, by simp [Machine.resume, fresh], stack, calm, errorless⟩

/-- A suspended frame is ready. -/
theorem ready_suspended
    (stack : CallStack machine entry top waiting)
    (calm : Calm machine waiting)
    {rest : Body Value Error Step}
    (suspended : machine.frame top.frame = some (.suspended rest))
    (errorless : (machine.promise top.frame).error = none) :
    Ready machine entry top waiting [] rest where
  short := Nat.zero_le _
  handler := stack.handlerOf_top
  resumes := ⟨machine, by simp [Machine.resume, suspended], stack, calm, errorless⟩

/-- A frame whose child has come back is ready. -/
theorem ready_awaiting
    (stack : CallStack machine entry top waiting)
    (calm : Calm machine waiting)
    {child : Level}
    {onValue : Value → Body Value Error Step}
    {onError : Error → Body Value Error Step}
    (awaiting : machine.frame top.frame = some (.awaiting child.object onValue onError))
    (owns : machine.object child.object = ⟨some child.frame, some child.frame⟩)
    (apartObject : ∀ level ∈ levels top waiting, level.object ≠ child.object)
    (apartFrame : ∀ level ∈ levels top waiting, level.frame ≠ child.frame)
    (passed : (machine.promise top.frame).error = (machine.promise child.frame).error) :
    (∀ error, (machine.promise child.frame).error = some error →
      Ready machine entry top waiting [.error error] (onError error)) ∧
    ((machine.promise child.frame).error = none →
      Ready machine entry top waiting [.value (machine.promise child.frame).value]
        (onValue (machine.promise child.frame).value)) := by
  have destroyed := stack.destroy owns apartObject apartFrame
  have kept : (machine.destroy child.object).promise = machine.promise := by
    simp [Machine.destroy, owns, Machine.setFrame, Machine.setObject]
  have stillCalm : Calm (machine.destroy child.object) waiting := by
    intro below member
    rw [kept]
    exact calm below member
  refine ⟨fun error thrown => ?_, fun returned => ?_⟩
  · refine ⟨Nat.le_refl _, stack.handlerOf_top, machine.destroy child.object, ?_, destroyed,
      stillCalm, ?_⟩
    · simp [Machine.resume, awaiting, owns, thrown]
    · rw [kept, passed]
      exact thrown
  · refine ⟨Nat.le_refl _, stack.handlerOf_top, machine.destroy child.object, ?_, destroyed,
      stillCalm, ?_⟩
    · simp [Machine.resume, awaiting, owns, returned]
    · rw [kept, passed]
      exact returned

end CallStack

/-! ## Frames that come back -/

/-- The current frame has come back to the loop. -/
structure Back
    (machine : Machine Value Error Step)
    (entry top : Level)
    (waiting : List (Waiting Value Error Step))
    (state : FrameState Value Error Step)
    (error : Option Error) : Prop where
  stack : CallStack machine entry top waiting
  calm : Calm machine waiting
  frame : machine.frame top.frame = some state
  error : (machine.promise top.frame).error = error

/-- The entry has ended with a value or with an exception. -/
structure Ended
    (machine : Machine Value Error Step)
    (entry : Level)
    (error : Option Error) : Prop where
  object : machine.object entry.object = ⟨some entry.frame, some entry.frame⟩
  object_lt : entry.object < machine.objects
  frame : machine.frame entry.frame = some .finished
  error : (machine.promise entry.frame).error = error

omit [Inhabited Value] in
/-- The frames and the promises of a call stack without waiting frames. -/
theorem CallStack.top_eq
    {machine : Machine Value Error Step}
    {entry top : Level}
    (stack : CallStack machine entry top []) :
    top = entry := by
  have bottom := stack.bottom
  simpa [levels] using bottom

omit [Inhabited Value] in
/-- The frame below gets the error of the frame that is popped. -/
theorem Machine.turnError_eq
    {machine popped : Machine Value Error Step}
    {entry next : FrameId}
    (pops : machine.callStackPop entry = some (popped, some next))
    (current : (popped.promise entry).current = some next)
    (events : List (Event Value Error Step))
    (error : Error) :
    ∃ passed, machine.turnError entry events error = some ⟨passed, events, some next, none⟩ ∧
      (passed.links = popped.links ∧ passed.frame = popped.frame ∧
        passed.object = popped.object ∧ passed.frames = popped.frames ∧
        passed.objects = popped.objects) ∧
      ∀ address,
        (passed.promise address).onwer = (popped.promise address).onwer ∧
          (passed.promise address).entry = (popped.promise address).entry ∧
          (passed.promise address).current = (popped.promise address).current ∧
          (passed.promise address).error =
            if address = next then some error else (popped.promise address).error := by
  let given := popped.setPromise next { popped.promise next with error := some error }
  refine ⟨given.setPromise entry { given.promise entry with current := some next }, ?_,
    ⟨rfl, rfl, rfl, rfl, rfl⟩, fun address => ?_⟩
  · simp [Machine.turnError, pops, given]
  simp only [given, Machine.setPromise]
  rcases eq_or_ne address entry with rfl | outside
  · rcases eq_or_ne address next with rfl | apart
    · simp [current]
    · simp [apart, current]
  · rcases eq_or_ne address next with rfl | apart
    · simp [outside]
    · simp [outside, apart]

namespace Back

variable {machine : Machine Value Error Step} {entry top : Level}
variable {below : Waiting Value Error Step} {waiting : List (Waiting Value Error Step)}
variable {state : FrameState Value Error Step}

omit [Inhabited Value] in
/-- The current frame and its object are not those of the frames that wait. -/
private theorem apart
    {error : Option Error}
    (back : Back machine entry top (below :: waiting) state error) :
    (∀ level ∈ levels below.level waiting, level.object ≠ top.object) ∧
      ∀ level ∈ levels below.level waiting, level.frame ≠ top.frame := by
  have frames := (List.nodup_cons.mp back.stack.frames_nodup).1
  have objects := (List.nodup_cons.mp back.stack.objects_nodup).1
  refine ⟨fun level member same => ?_, fun level member same => ?_⟩
  · apply objects
    rw [← same]
    exact List.mem_map_of_mem member
  · apply frames
    rw [← same]
    exact List.mem_map_of_mem member

/-- An error goes to the frame below. -/
theorem turnError
    {error : Error}
    (back : Back machine entry top (below :: waiting) state (some error))
    (events : List (Event Value Error Step)) :
    ∃ passed, machine.turnError entry.frame events error =
        some ⟨passed, events, some below.level.frame, none⟩ ∧
      Ready passed entry below.level waiting [.error error] (below.onError error) := by
  obtain ⟨popped, pops, frame, object, promise, stack⟩ := back.stack.pop
  obtain ⟨apartObject, apartFrame⟩ := back.apart
  obtain ⟨passed, turned, ⟨links, passedFrame, passedObject, frames, objects⟩, passedPromise⟩ :=
    Machine.turnError_eq pops stack.current events error
  refine ⟨passed, turned, ?_⟩
  have passedStack : CallStack passed entry below.level waiting := by
    apply stack.congr links
    · exact fun level _ => ⟨(passedPromise _).1, (passedPromise _).2.1, (passedPromise _).2.2.1⟩
    · intro deeper member
      rw [passedFrame]
    · intro level member
      rw [passedObject]
    · exact Nat.le_of_eq frames.symm
    · exact Nat.le_of_eq objects.symm
  have passedCalm : Calm passed waiting := by
    intro deeper member
    rw [(passedPromise _).2.2.2, if_neg (passedStack.frame_ne member), (promise _).1]
    exact back.calm deeper (List.mem_cons_of_mem _ member)
  have childError : (passed.promise top.frame).error = some error := by
    have outside := apartFrame below.level List.mem_cons_self
    rw [(passedPromise _).2.2.2, if_neg (Ne.symm outside), (promise _).1]
    exact back.error
  have awaiting : passed.frame below.level.frame =
      some (.awaiting top.object below.onValue below.onError) := by
    rw [passedFrame, frame]
    exact back.stack.awaits.1
  have owns : passed.object top.object = ⟨some top.frame, some top.frame⟩ := by
    rw [passedObject, object]
    exact (back.stack.owned top CallStack.top_mem).object
  have same : (passed.promise below.level.frame).error = (passed.promise top.frame).error := by
    rw [childError, (passedPromise _).2.2.2, if_pos rfl]
  exact (passedStack.ready_awaiting passedCalm awaiting owns apartObject apartFrame same).1
    error childError

omit [Inhabited Value] in
/-- The entry is popped, and has ended when it was finished. -/
theorem pop_entry
    {raised : Option Error}
    (back : Back machine entry top [] state raised) :
    ∃ popped, machine.callStackPop entry.frame = some (popped, none) ∧
      (state = .finished → Ended popped entry raised) ∧
      (popped.promise entry.frame).value = (machine.promise entry.frame).value := by
  obtain ⟨popped, pops, frame, object, objects, promise⟩ := back.stack.pop_entry
  obtain rfl := back.stack.top_eq
  refine ⟨popped, pops, ?_, (promise _).2⟩
  rintro rfl
  refine ⟨?_, ?_, ?_, ?_⟩
  · rw [object]
    exact (back.stack.owned top CallStack.top_mem).object
  · rw [objects]
    exact (back.stack.owned top CallStack.top_mem).object_lt
  · rw [frame]
    exact back.frame
  · rw [(promise _).1]
    exact back.error

omit [Inhabited Value] in
/-- An error of the entry leaves the loop. -/
theorem turnError_entry
    {error : Error}
    (back : Back machine entry top [] state (some error))
    (events : List (Event Value Error Step)) :
    ∃ popped, machine.turnError entry.frame events error =
        some ⟨popped, events, none, some error⟩ ∧
      (state = .finished → Ended popped entry (some error)) := by
  obtain ⟨popped, pops, ended, _⟩ := back.pop_entry
  exact ⟨popped, by simp only [Machine.turnError, pops], ended⟩

/-- The value of a finished frame goes to the frame below. -/
theorem turnValue
    (back : Back machine entry top (below :: waiting) .finished none)
    (events : List (Event Value Error Step)) :
    ∃ popped, machine.turnValue entry.frame top.frame events =
        some ⟨popped, events, some below.level.frame, none⟩ ∧
      Ready popped entry below.level waiting [.value (machine.promise top.frame).value]
        (below.onValue (machine.promise top.frame).value) := by
  obtain ⟨popped, pops, frame, object, promise, stack⟩ := back.stack.pop
  obtain ⟨apartObject, apartFrame⟩ := back.apart
  have done : machine.done top.frame = true := by
    simp [Machine.done, back.frame]
  refine ⟨popped, by simp [Machine.turnValue, back.stack.handlerOf_top, done, pops], ?_⟩
  have calm : Calm popped waiting := by
    intro deeper member
    rw [(promise _).1]
    exact back.calm deeper (List.mem_cons_of_mem _ member)
  have childError : (popped.promise top.frame).error = none := by
    rw [(promise _).1]
    exact back.error
  have awaiting : popped.frame below.level.frame =
      some (.awaiting top.object below.onValue below.onError) := by
    rw [frame]
    exact back.stack.awaits.1
  have owns : popped.object top.object = ⟨some top.frame, some top.frame⟩ := by
    rw [object]
    exact (back.stack.owned top CallStack.top_mem).object
  have same : (popped.promise below.level.frame).error = (popped.promise top.frame).error := by
    rw [childError, (promise _).1]
    exact back.calm below List.mem_cons_self
  rw [← (promise top.frame).2]
  exact (stack.ready_awaiting calm awaiting owns apartObject apartFrame same).2 childError

omit [Inhabited Value] in
/-- The loop ends when the entry has finished. -/
theorem turnValue_entry
    (back : Back machine entry top [] .finished none)
    (events : List (Event Value Error Step)) :
    ∃ popped, machine.turnValue entry.frame top.frame events =
        some ⟨popped, events, none, none⟩ ∧
      Ended popped entry none ∧
      (popped.promise entry.frame).value = (machine.promise entry.frame).value := by
  obtain ⟨popped, pops, ended, value⟩ := back.pop_entry
  obtain rfl := back.stack.top_eq
  have done : machine.done top.frame = true := by
    simp [Machine.done, back.frame]
  refine ⟨popped, ?_, ended rfl, value⟩
  simp [Machine.turnValue, back.stack.handlerOf_top, done, pops]

omit [Inhabited Value] in
/-- The loop ends when the current frame is suspended. -/
theorem turnValue_suspended
    {rest : Body Value Error Step}
    (back : Back machine entry top waiting (.suspended rest) none)
    (events : List (Event Value Error Step)) :
    machine.turnValue entry.frame top.frame events =
      some ⟨machine, events, some top.frame, none⟩ := by
  have running : machine.done top.frame = false := by
    simp [Machine.done, back.frame]
  simp [Machine.turnValue, back.stack.handlerOf_top, running, back.stack.current]

end Back

/-! ## One pass of the loop -/

/-- The entry is suspended, and the trace is what it has still to do. -/
structure Paused
    (machine : Machine Value Error Step)
    (entry top : Level)
    (waiting : List (Waiting Value Error Step))
    (rest : Body Value Error Step) : Prop where
  stack : CallStack machine entry top waiting
  calm : Calm machine waiting
  frame : machine.frame top.frame = some (.suspended rest)
  error : (machine.promise top.frame).error = none

/-- A pass of the loop that leaves the trace to be done. -/
inductive Passes (entry current : Level) (events : List (Event Value Error Step)) :
    Trace Value Error Step → Turn Value Error Step → Prop
  | goesOn
      {machine : Machine Value Error Step}
      {top : Level}
      {waiting : List (Waiting Value Error Step)}
      {seen : List (Event Value Error Step)}
      {body : Body Value Error Step}
      (ready : Ready machine entry top waiting seen body)
      (given : seen.length = 1)
      (apart : top.frame ≠ current.frame) :
      Passes entry current events ((Trace.emit seen body.direct).plug waiting)
        ⟨machine, events, some top.frame, none⟩
  | returns
      {machine : Machine Value Error Step}
      (ended : Ended machine entry none) :
      Passes entry current events (.ret (machine.promise entry.frame).value)
        ⟨machine, events, none, none⟩
  | raises
      {machine : Machine Value Error Step}
      {error : Error}
      (ended : Ended machine entry (some error)) :
      Passes entry current events (.throw error) ⟨machine, events, none, some error⟩
  | suspends
      {machine : Machine Value Error Step}
      {waiting : List (Waiting Value Error Step)}
      {rest : Body Value Error Step}
      (paused : Paused machine entry current waiting rest) :
      Passes entry current events (.suspend (rest.direct.plug waiting))
        ⟨machine, events, some current.frame, none⟩

/-- A pass of the loop in which an exception that was caught is taken for one that
leaves the frame; the trace is what direct evaluation does instead. -/
inductive Strays (entry current : Level) (events : List (Event Value Error Step)) :
    Trace Value Error Step → Turn Value Error Step → Prop
  | raises
      {machine : Machine Value Error Step}
      {trace : Trace Value Error Step}
      {error : Error}
      (quiet : trace.events = [])
      (unraised : ∀ error, trace.stop ≠ .raised error) :
      Strays entry current events trace ⟨machine, events, none, some error⟩
  | unwinds
      {machine : Machine Value Error Step}
      {below : Level}
      {waiting : List (Waiting Value Error Step)}
      {body : Body Value Error Step}
      {trace : Trace Value Error Step}
      {error : Error}
      (ready : Ready machine entry below waiting [.error error] body)
      (apart : below.frame ≠ current.frame)
      (other : ∀ more, trace.events ≠ .error error :: more) :
      Strays entry current events trace ⟨machine, events, some below.frame, none⟩
  | drops
      {machine : Machine Value Error Step}
      {trace : Trace Value Error Step}
      (busy : trace.events ≠ []) :
      Strays entry current events trace ⟨machine, events, some current.frame, none⟩

namespace Ready

variable {machine : Machine Value Error Step} {entry top : Level}
variable {waiting : List (Waiting Value Error Step)}
variable {seen : List (Event Value Error Step)} {body : Body Value Error Step}

/-- A frame that comes back with an error is taken for thrown out of. -/
theorem turn_error
    (ready : Ready machine entry top waiting seen body)
    {resumed halted : Machine Value Error Step}
    {error : Error}
    (resumes : machine.resume top.frame = resumed.run top.frame seen body)
    (halts : resumed.halt top.frame body.advance.2 = some halted)
    (thrown : (halted.promise top.frame).error = some error) :
    machine.turn entry.frame top.frame =
      halted.turnError entry.frame (seen ++ body.advance.1) error := by
  simp [Machine.turn, ready.handler, resumes, Machine.run, halts, thrown]

/-- A frame that comes back without an error has finished, is suspended or awaits. -/
theorem turn_value
    (ready : Ready machine entry top waiting seen body)
    {resumed halted : Machine Value Error Step}
    (resumes : machine.resume top.frame = resumed.run top.frame seen body)
    (halts : resumed.halt top.frame body.advance.2 = some halted)
    (errorless : (halted.promise top.frame).error = none) :
    machine.turn entry.frame top.frame =
      halted.turnValue entry.frame top.frame (seen ++ body.advance.1) := by
  simp [Machine.turn, ready.handler, resumes, Machine.run, halts, errorless]

end Ready

namespace CallStack

variable {machine : Machine Value Error Step} {entry top : Level}
variable {waiting : List (Waiting Value Error Step)}

omit [Inhabited Value] in
/-- What happens to the current frame does not make the waiting ones err. -/
private theorem calm_halted
    (stack : CallStack machine entry top waiting)
    (calm : Calm machine waiting)
    (promise : Promise Value Error)
    (state : Option (FrameState Value Error Step)) :
    Calm ((machine.setPromise top.frame promise).setFrame top.frame state) waiting := by
  intro below member
  simpa [Machine.setFrame, Machine.setPromise, stack.frame_ne member] using calm below member

/-- A body that returns leaves its value in the promise. -/
theorem back_ret
    (stack : CallStack machine entry top waiting)
    (calm : Calm machine waiting)
    (value : Value) :
    ∃ halted, machine.halt top.frame (.ret value) = some halted ∧
      Back halted entry top waiting .finished (machine.promise top.frame).error ∧
      (halted.promise top.frame).value = value := by
  refine ⟨_, rfl, ⟨?_, stack.calm_halted calm _ _, ?_, ?_⟩, ?_⟩
  · exact stack.halted _ _ rfl rfl rfl
  · simp [Machine.setFrame]
  · simp [Machine.setFrame, Machine.setPromise]
  · simp [Machine.setFrame, Machine.setPromise]

/-- A body that throws leaves its exception in the promise. -/
theorem back_throw
    (stack : CallStack machine entry top waiting)
    (calm : Calm machine waiting)
    (error : Error) :
    ∃ halted, machine.halt top.frame (.throw error) = some halted ∧
      Back halted entry top waiting .finished (some error) := by
  refine ⟨_, rfl, ?_, stack.calm_halted calm _ _, ?_, ?_⟩
  · exact stack.halted _ _ rfl rfl rfl
  · simp [Machine.setFrame]
  · simp [Machine.setFrame, Machine.setPromise]

/-- A body that is suspended leaves the promise as it is. -/
theorem back_suspend
    (stack : CallStack machine entry top waiting)
    (calm : Calm machine waiting)
    (rest : Body Value Error Step) :
    ∃ halted, machine.halt top.frame (.suspend rest) = some halted ∧
      Back halted entry top waiting (.suspended rest) (machine.promise top.frame).error := by
  have same : machine.setFrame top.frame (some (.suspended rest)) =
      (machine.setPromise top.frame (machine.promise top.frame)).setFrame top.frame
        (some (.suspended rest)) := by
    simp [Machine.setPromise]
  refine ⟨_, rfl, ?_⟩
  rw [same]
  refine ⟨?_, stack.calm_halted calm _ _, ?_, ?_⟩
  · exact stack.halted _ _ rfl rfl rfl
  · simp [Machine.setFrame]
  · simp [Machine.setFrame, Machine.setPromise]

omit [Inhabited Value] in
/-- The loop turns to the child that the current frame awaits. -/
theorem turnValue_awaiting
    {below : Waiting Value Error Step}
    (stack : CallStack machine entry top (below :: waiting))
    (events : List (Event Value Error Step)) :
    machine.turnValue entry.frame below.level.frame events =
      some ⟨machine, events, some top.frame, none⟩ := by
  have owned := stack.owned below.level (waiting_mem List.mem_cons_self)
  have handler : machine.handlerOf below.level.frame = some below.level.frame := by
    simp [Machine.handlerOf, owned.onwer, owned.object]
  have running : machine.done below.level.frame = false := by
    simp [Machine.done, stack.awaits.1]
  simp [Machine.turnValue, handler, running, stack.current]

end CallStack

/-- An error that was not thrown goes to the frame below, or out of the loop. -/
theorem Back.strays
    {machine : Machine Value Error Step}
    {entry top : Level}
    {waiting : List (Waiting Value Error Step)}
    {state : FrameState Value Error Step}
    {error : Error}
    (back : Back machine entry top waiting state (some error))
    {events : List (Event Value Error Step)}
    {trace : Trace Value Error Step}
    (quiet : waiting = [] → trace.events = [] ∧ ∀ error, trace.stop ≠ .raised error)
    (other : ∀ more, trace.events ≠ .error error :: more) :
    ∃ turn, machine.turnError entry.frame events error = some turn ∧
      Strays entry top events trace turn := by
  cases waiting with
  | nil =>
      obtain ⟨popped, turned, -⟩ := back.turnError_entry events
      exact ⟨_, turned, .raises (quiet rfl).1 (quiet rfl).2⟩
  | cons below waiting =>
      obtain ⟨passed, turned, next⟩ := back.turnError events
      exact ⟨_, turned, .unwinds next (back.stack.frame_ne List.mem_cons_self) other⟩

namespace Ready

variable {machine : Machine Value Error Step} {entry top : Level}
variable {waiting : List (Waiting Value Error Step)}
variable {seen : List (Event Value Error Step)} {body : Body Value Error Step}

/-- A frame that throws on, and a frame that was given no exception, pass. -/
theorem passes
    (ready : Ready machine entry top waiting seen body)
    (safe : ((stale seen).isNone || body.advance.2.throws) = true) :
    ∃ turn, machine.turn entry.frame top.frame = some turn ∧
      Passes entry top (seen ++ body.advance.1) (body.advance.2.direct.plug waiting) turn := by
  obtain ⟨resumed, resumes, stack, calm, error⟩ := ready.resumes
  cases halt : body.advance.2 with
  | throw thrown =>
      obtain ⟨halted, halts, back⟩ := stack.back_throw calm thrown
      rw [← halt] at halts
      rw [ready.turn_error resumes halts back.error]
      cases waiting with
      | nil =>
          obtain ⟨popped, turned, ended⟩ := back.turnError_entry (seen ++ body.advance.1)
          exact ⟨_, turned, .raises (ended rfl)⟩
      | cons below waiting =>
          obtain ⟨passed, turned, next⟩ := back.turnError (seen ++ body.advance.1)
          refine ⟨_, turned, ?_⟩
          have goes : Passes entry top (seen ++ body.advance.1) _ _ :=
            .goesOn next rfl (back.stack.frame_ne List.mem_cons_self)
          simpa [Halt.direct] using goes
  | ret value =>
      have fresh : stale seen = none := by simpa [halt, Halt.throws] using safe
      obtain ⟨halted, halts, back, returned⟩ := stack.back_ret calm value
      rw [← halt] at halts
      rw [error, fresh] at back
      rw [ready.turn_value resumes halts back.error]
      cases waiting with
      | nil =>
          obtain ⟨popped, turned, ended, kept⟩ := back.turnValue_entry (seen ++ body.advance.1)
          obtain rfl := back.stack.top_eq
          rw [returned] at kept
          refine ⟨_, turned, ?_⟩
          rw [← kept]
          exact .returns ended
      | cons below waiting =>
          obtain ⟨popped, turned, next⟩ := back.turnValue (seen ++ body.advance.1)
          refine ⟨_, turned, ?_⟩
          rw [returned] at next
          have goes : Passes entry top (seen ++ body.advance.1) _ _ :=
            .goesOn next rfl (back.stack.frame_ne List.mem_cons_self)
          simpa [Halt.direct] using goes
  | suspend rest =>
      have fresh : stale seen = none := by simpa [halt, Halt.throws] using safe
      obtain ⟨halted, halts, back⟩ := stack.back_suspend calm rest
      rw [← halt] at halts
      rw [error, fresh] at back
      rw [ready.turn_value resumes halts back.error]
      refine ⟨_, back.turnValue_suspended _, ?_⟩
      simp only [Halt.direct, Trace.plug_suspend]
      exact .suspends ⟨back.stack, back.calm, back.frame, back.error⟩
  | await child onValue onError =>
      have fresh : stale seen = none := by simpa [halt, Halt.throws] using safe
      obtain ⟨pushed, halts, childFresh, childError, errors, pushedStack⟩ :=
        stack.await child onValue onError
      rw [← halt] at halts
      have errorless : (pushed.promise top.frame).error = none := by
        rw [errors top CallStack.top_mem, error, fresh]
      rw [ready.turn_value resumes halts errorless]
      have calmPushed : Calm pushed (⟨top, onValue, onError⟩ :: waiting) := by
        intro below member
        rcases List.mem_cons.mp member with rfl | deeper
        · exact errorless
        · rw [errors _ (CallStack.waiting_mem deeper)]
          exact calm below deeper
      refine ⟨_, pushedStack.turnValue_awaiting _, ?_⟩
      rw [Halt.plug_await]
      have goes : Passes entry top (seen ++ body.advance.1) _ _ :=
        .goesOn (pushedStack.ready_fresh calmPushed childFresh childError) rfl
          (Ne.symm (pushedStack.frame_ne List.mem_cons_self))
      simpa using goes

/-- A frame that was given an exception and does not throw strays. -/
theorem strays
    (ready : Ready machine entry top waiting seen body)
    {error : Error}
    (given : stale seen = some error)
    (caught : body.advance.2.throws = false) :
    ∃ turn, machine.turn entry.frame top.frame = some turn ∧
      Strays entry top (seen ++ body.advance.1) (body.advance.2.direct.plug waiting) turn := by
  obtain ⟨resumed, resumes, stack, calm, kept⟩ := ready.resumes
  rw [given] at kept
  cases halt : body.advance.2 with
  | throw thrown => simp [halt, Halt.throws] at caught
  | ret value =>
      obtain ⟨halted, halts, back, -⟩ := stack.back_ret calm value
      rw [← halt] at halts
      rw [kept] at back
      rw [ready.turn_error resumes halts back.error]
      apply back.strays
      · rintro rfl
        exact ⟨rfl, by simp [Halt.direct, Trace.stop]⟩
      · cases waiting with
        | nil => simp [Halt.direct, Trace.events]
        | cons below waiting => simp [Halt.direct, Trace.events]
  | suspend rest =>
      obtain ⟨halted, halts, back⟩ := stack.back_suspend calm rest
      rw [← halt] at halts
      rw [kept] at back
      rw [ready.turn_error resumes halts back.error]
      apply back.strays
      · rintro rfl
        exact ⟨rfl, by simp [Halt.direct, Trace.stop]⟩
      · simp [Halt.direct, Trace.events]
  | await child onValue onError =>
      obtain ⟨pushed, halts, -, -, errors, pushedStack⟩ := stack.await child onValue onError
      rw [← halt] at halts
      have thrown : (pushed.promise top.frame).error = some error := by
        rw [errors top CallStack.top_mem, kept]
      rw [ready.turn_error resumes halts thrown]
      obtain ⟨popped, pops, -, -, -, poppedStack⟩ := pushedStack.pop
      obtain ⟨passed, turned, -⟩ :=
        Machine.turnError_eq pops poppedStack.current (seen ++ body.advance.1) error
      refine ⟨_, turned, .drops ?_⟩
      rw [Halt.plug_await top]
      simp [Trace.events]

end Ready

/-! ## The whole loop -/

/-- How the entry rests after the loop. -/
inductive Rests (entry : Level) :
    Outcome Value Error Step → Trace.Stop Value Error Step → Prop
  | returned
      {outcome : Outcome Value Error Step}
      (ended : Ended outcome.machine entry none)
      (raised : outcome.raised = none) :
      Rests entry outcome (.returned (outcome.machine.promise entry.frame).value)
  | raised
      {outcome : Outcome Value Error Step}
      {error : Error}
      (ended : Ended outcome.machine entry (some error))
      (raised : outcome.raised = some error) :
      Rests entry outcome (.raised error)
  | suspended
      {outcome : Outcome Value Error Step}
      {top : Level}
      {waiting : List (Waiting Value Error Step)}
      {rest : Body Value Error Step}
      (paused : Paused outcome.machine entry top waiting rest)
      (raised : outcome.raised = none) :
      Rests entry outcome (.suspended (rest.direct.plug waiting))

omit [Inhabited Value] in
/-- More events before an outcome do not change how the entry rests. -/
theorem Rests.prepend
    {entry : Level}
    {outcome : Outcome Value Error Step}
    {stop : Trace.Stop Value Error Step}
    (rests : Rests entry outcome stop)
    (events : List (Event Value Error Step)) :
    Rests entry { outcome with events := events ++ outcome.events } stop := by
  cases rests with
  | returned ended raised =>
      have prepended : Rests entry ⟨outcome.machine, events ++ outcome.events, outcome.raised⟩ _ :=
        .returned ended raised
      exact prepended
  | raised ended raised => exact .raised ended raised
  | suspended paused raised => exact .suspended paused raised

omit [Inhabited Value] in
/-- The trace of a frame that is ready, cut where its body halts. -/
theorem Ready.trace_eq
    {waiting : List (Waiting Value Error Step)}
    {seen : List (Event Value Error Step)}
    {body : Body Value Error Step} :
    (Trace.emit seen body.direct).plug waiting =
      Trace.emit (seen ++ body.advance.1) (body.advance.2.direct.plug waiting) := by
  rw [Body.direct_eq body, ← Trace.emit_append, Trace.plug_emit]

/-- The loop goes on with another frame. -/
theorem Machine.loop_next
    {machine after : Machine Value Error Step}
    {entry current next : FrameId}
    {events : List (Event Value Error Step)}
    (turned : machine.turn entry current = some ⟨after, events, some next, none⟩)
    (apart : next ≠ current)
    (fuel : Nat) :
    loop entry (fuel + 1) machine (some current) =
      (loop entry fuel after (some next)).map fun outcome =>
        { outcome with events := events ++ outcome.events } := by
  simp [loop, turned, apart]

/-- The loop ends with an exception, with no frame or with the same one. -/
theorem Machine.loop_end
    {machine after : Machine Value Error Step}
    {entry current : FrameId}
    {events : List (Event Value Error Step)}
    {next : Option FrameId}
    {raised : Option Error}
    (turned : machine.turn entry current = some ⟨after, events, next, raised⟩)
    (ends : raised ≠ none ∨ next = none ∨ next = some current)
    (fuel : Nat) :
    loop entry (fuel + 1) machine (some current) = some ⟨after, events, raised⟩ := by
  cases raised with
  | some error => simp [loop, turned]
  | none =>
      rcases ends with impossible | rfl | rfl
      · exact absurd rfl impossible
      · simp [loop, turned]
      · simp [loop, turned]

/-- Where exceptions are thrown on, the loop does what direct evaluation does up
to its first suspension. -/
theorem Ready.loop_direct
    {entry : Level}
    (fuel : Nat) :
    ∀ {machine : Machine Value Error Step} {top : Level}
      {waiting : List (Waiting Value Error Step)} {seen : List (Event Value Error Step)}
      {body : Body Value Error Step},
    Ready machine entry top waiting seen body →
    ((Trace.emit seen body.direct).plug waiting).catchSafeHere = true →
    ((Trace.emit seen body.direct).plug waiting).events.length + 1 ≤ fuel + seen.length →
    ∃ outcome, Machine.loop entry.frame fuel machine (some top.frame) = some outcome ∧
      outcome.events = ((Trace.emit seen body.direct).plug waiting).events ∧
      Rests entry outcome ((Trace.emit seen body.direct).plug waiting).stop := by
  induction fuel with
  | zero =>
      intro machine top waiting seen body ready safe enough
      rw [Ready.trace_eq, Trace.events_emit] at enough
      simp only [List.length_append] at enough
      omega
  | succ fuel inductionHypothesis =>
      intro machine top waiting seen body ready safe enough
      rw [Ready.trace_eq] at safe enough ⊢
      rw [Trace.catchSafeHere_emit ready.short, Halt.rethrows_plug, Bool.and_eq_true] at safe
      rw [Trace.events_emit, List.length_append, List.length_append] at enough
      rw [Trace.events_emit, Trace.stop_emit]
      obtain ⟨turn, turned, passes⟩ := ready.passes safe.1
      generalize body.advance.2.direct.plug waiting = trace at *
      cases passes with
      | goesOn next given apart =>
          rw [Machine.loop_next turned apart]
          obtain ⟨outcome, loops, events, rests⟩ := inductionHypothesis next safe.2 (by omega)
          refine ⟨_, by rw [loops]; rfl, by rw [events], rests.prepend _⟩
      | returns ended =>
          rw [Machine.loop_end turned (.inr (.inl rfl))]
          have rests : Rests entry ⟨_, seen ++ body.advance.1, none⟩ _ := .returned ended rfl
          exact ⟨_, rfl, by simp [Trace.events], rests⟩
      | raises ended =>
          rw [Machine.loop_end turned (.inl (by simp))]
          exact ⟨_, rfl, by simp [Trace.events], .raised ended rfl⟩
      | suspends paused =>
          rw [Machine.loop_end turned (.inr (.inr rfl))]
          exact ⟨_, rfl, by simp [Trace.events], .suspended paused rfl⟩

/-- What the loop lets be seen starts with what its first pass does. -/
theorem Machine.loop_events
    {machine : Machine Value Error Step}
    {entry current : FrameId}
    {turn : Turn Value Error Step}
    (turned : machine.turn entry current = some turn)
    {fuel : Nat}
    {outcome : Outcome Value Error Step}
    (loops : loop entry fuel machine (some current) = some outcome) :
    ∃ more, outcome.events = turn.events ++ more := by
  cases fuel with
  | zero => cases loops
  | succ fuel =>
      simp only [loop, turned] at loops
      split at loops
      · obtain rfl := Option.some.inj loops
        exact ⟨[], by simp⟩
      · split at loops
        · obtain ⟨later, -, rfl⟩ := Option.map_eq_some_iff.mp loops
          exact ⟨later.events, rfl⟩
        · obtain rfl := Option.some.inj loops
          exact ⟨[], by simp⟩

/-- What a frame is given is seen first. -/
theorem Ready.loop_seen
    {machine : Machine Value Error Step}
    {entry top : Level}
    {waiting : List (Waiting Value Error Step)}
    {seen : List (Event Value Error Step)}
    {body : Body Value Error Step}
    (ready : Ready machine entry top waiting seen body)
    {fuel : Nat}
    {outcome : Outcome Value Error Step}
    (loops : Machine.loop entry.frame fuel machine (some top.frame) = some outcome) :
    ∃ more, outcome.events = seen ++ more := by
  have turns : ∃ turn, machine.turn entry.frame top.frame = some turn ∧
      turn.events = seen ++ body.advance.1 := by
    cases safe : (stale seen).isNone || body.advance.2.throws with
    | true =>
        obtain ⟨turn, turned, passes⟩ := ready.passes safe
        refine ⟨turn, turned, ?_⟩
        generalize body.advance.2.direct.plug waiting = trace at passes
        cases passes <;> rfl
    | false =>
        obtain ⟨given, caught⟩ := Bool.or_eq_false_iff.mp safe
        obtain ⟨error, given⟩ := Option.isSome_iff_exists.mp (Option.isNone_eq_false_iff.mp given)
        obtain ⟨turn, turned, strays⟩ := ready.strays given caught
        refine ⟨turn, turned, ?_⟩
        cases strays <;> rfl
  obtain ⟨turn, turned, events⟩ := turns
  obtain ⟨more, first⟩ := Machine.loop_events turned loops
  exact ⟨body.advance.1 ++ more, by rw [first, events, List.append_assoc]⟩

/-- Where an exception is caught, the loop does something else. -/
theorem Ready.loop_strays
    {entry : Level}
    (fuel : Nat) :
    ∀ {machine : Machine Value Error Step} {top : Level}
      {waiting : List (Waiting Value Error Step)} {seen : List (Event Value Error Step)}
      {body : Body Value Error Step} {outcome : Outcome Value Error Step},
    Ready machine entry top waiting seen body →
    ((Trace.emit seen body.direct).plug waiting).catchSafeHere = false →
    Machine.loop entry.frame fuel machine (some top.frame) = some outcome →
    outcome.events = ((Trace.emit seen body.direct).plug waiting).events →
    outcome.raised ≠ none ∧
      ∀ error, ((Trace.emit seen body.direct).plug waiting).stop ≠ .raised error := by
  induction fuel with
  | zero =>
      intro machine top waiting seen body outcome _ _ loops
      cases loops
  | succ fuel inductionHypothesis =>
      intro machine top waiting seen body outcome ready caughtHere loops same
      rw [Ready.trace_eq] at caughtHere same ⊢
      rw [Trace.catchSafeHere_emit ready.short, Halt.rethrows_plug] at caughtHere
      rw [Trace.events_emit] at same
      rw [Trace.stop_emit]
      cases safe : (stale seen).isNone || body.advance.2.throws with
      | true =>
          rw [safe, Bool.true_and] at caughtHere
          obtain ⟨turn, turned, passes⟩ := ready.passes safe
          generalize body.advance.2.direct.plug waiting = trace at *
          cases passes with
          | goesOn next given apart =>
              rw [Machine.loop_next turned apart] at loops
              obtain ⟨later, laterLoops, rfl⟩ := Option.map_eq_some_iff.mp loops
              have laterSame : later.events = _ := List.append_cancel_left same
              have strayed := inductionHypothesis next caughtHere laterLoops laterSame
              exact strayed
          | returns ended => cases caughtHere
          | raises ended => cases caughtHere
          | suspends paused => cases caughtHere
      | false =>
          obtain ⟨given, caught⟩ := Bool.or_eq_false_iff.mp safe
          obtain ⟨error, given⟩ :=
            Option.isSome_iff_exists.mp (Option.isNone_eq_false_iff.mp given)
          obtain ⟨turn, turned, strays⟩ := ready.strays given caught
          cases strays with
          | raises quiet unraised =>
              rw [Machine.loop_end turned (.inl (by simp))] at loops
              obtain rfl := Option.some.inj loops
              exact ⟨by simp, unraised⟩
          | unwinds next apart other =>
              rw [Machine.loop_next turned apart] at loops
              obtain ⟨later, laterLoops, rfl⟩ := Option.map_eq_some_iff.mp loops
              obtain ⟨more, first⟩ := next.loop_seen laterLoops
              have rest := List.append_cancel_left same
              rw [first] at rest
              exact absurd rest.symm (other more)
          | drops busy =>
              rw [Machine.loop_end turned (.inr (.inr rfl))] at loops
              obtain rfl := Option.some.inj loops
              exact absurd (List.self_eq_append_right.mp same) busy

end Coroutine
end Cgo
