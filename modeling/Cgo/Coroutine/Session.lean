import Cgo.Coroutine.Trampoline

/-!
# Nested calls

The owner of an entry resumes it and may move the object that owns it.  What the
owner sees is what direct evaluation shows: for all uses of the entry exactly when
every exception that a `co_await` throws is thrown on, and so whenever no body of
the nest catches.  An exception that a body catches and does not throw on stays
in its promise, and the loop throws it again.
-/

namespace Cgo
namespace Coroutine

variable {Value Error Step : Type}

/-! ## Moving the entry -/

/-- The level after its frame has gone to another object. -/
def Level.moveTo (frame : FrameId) (object : ObjectId) (level : Level) : Level :=
  if level.frame = frame then ⟨frame, object⟩ else level

/-- The waiting frame after a move. -/
def Waiting.moveTo
    (frame : FrameId)
    (object : ObjectId)
    (below : Waiting Value Error Step) : Waiting Value Error Step :=
  { below with level := below.level.moveTo frame object }

@[simp] theorem Level.frame_moveTo (frame : FrameId) (object : ObjectId) (level : Level) :
    (level.moveTo frame object).frame = level.frame := by
  rw [Level.moveTo]
  split
  · next same => exact same.symm
  · rfl

theorem Level.moveTo_self (object : ObjectId) (level : Level) :
    level.moveTo level.frame object = ⟨level.frame, object⟩ :=
  if_pos rfl

theorem Level.moveTo_of_ne
    {frame : FrameId}
    {level : Level}
    (apart : level.frame ≠ frame)
    (object : ObjectId) :
    level.moveTo frame object = level :=
  if_neg apart

theorem levels_moveTo
    (frame : FrameId)
    (object : ObjectId)
    (top : Level)
    (waiting : List (Waiting Value Error Step)) :
    levels (top.moveTo frame object) (waiting.map (Waiting.moveTo frame object)) =
      (levels top waiting).map (Level.moveTo frame object) := by
  simp only [levels, List.map_cons, List.map_map]
  rfl

/-- A move does not change what is still to be done. -/
theorem Trace.plug_moveTo
    (frame : FrameId)
    (object : ObjectId)
    (trace : Trace Value Error Step)
    (waiting : List (Waiting Value Error Step)) :
    trace.plug (waiting.map (Waiting.moveTo frame object)) = trace.plug waiting := by
  induction waiting generalizing trace with
  | nil => rfl
  | cons below rest inductionHypothesis => exact inductionHypothesis _

/-- No frame awaits the entry, so a move of the entry leaves the frames waiting. -/
theorem Awaits.moveTo
    {machine moved : Machine Value Error Step}
    {entry : Level}
    (object : ObjectId)
    (kept : moved.frame = machine.frame)
    {waiting : List (Waiting Value Error Step)} :
    ∀ {top : Level}, Awaits machine top.object waiting →
      ((levels top waiting).map Level.frame).Nodup →
      (levels top waiting).getLast? = some entry →
      Awaits moved (top.moveTo entry.frame object).object
        (waiting.map (Waiting.moveTo entry.frame object)) := by
  induction waiting with
  | nil => exact fun _ _ _ => trivial
  | cons below rest inductionHypothesis =>
      intro top awaits nodup bottom
      have bottomBelow : (levels below.level rest).getLast? = some entry := by
        simpa [levels, List.getLast?_cons_cons] using bottom
      obtain ⟨outside, nodupBelow⟩ := List.nodup_cons.mp nodup
      have apart : top.frame ≠ entry.frame := by
        intro same
        apply outside
        rw [same]
        exact List.mem_map_of_mem (List.mem_of_getLast? bottomBelow)
      refine ⟨?_, inductionHypothesis awaits.2 nodupBelow bottomBelow⟩
      rw [Level.moveTo_of_ne apart, kept]
      simpa [Waiting.moveTo] using awaits.1

/-- The frame has gone from one object to the next free one. -/
structure Moved
    (machine moved : Machine Value Error Step)
    (object : ObjectId)
    (frame : FrameId) : Prop where
  links : moved.links = machine.links
  states : moved.frame = machine.frame
  frames : moved.frames = machine.frames
  objects : moved.objects = machine.objects + 1
  owns : moved.object machine.objects = ⟨some frame, some frame⟩
  object : ∀ other, other ≠ object → other ≠ machine.objects →
    moved.object other = machine.object other
  onwer : (moved.promise frame).onwer = some machine.objects
  otherOnwer : ∀ address, address ≠ frame →
    (moved.promise address).onwer = (machine.promise address).onwer
  promise : ∀ address,
    (moved.promise address).error = (machine.promise address).error ∧
      (moved.promise address).entry = (machine.promise address).entry ∧
      (moved.promise address).current = (machine.promise address).current

/-- An object that owns a frame can be moved. -/
theorem Machine.move_eq
    {machine : Machine Value Error Step}
    {object : ObjectId}
    {frame : FrameId}
    (owns : machine.object object = ⟨some frame, some frame⟩)
    (fresh : object ≠ machine.objects) :
    ∃ moved, machine.move object = some moved ∧ Moved machine moved object frame := by
  have moves : machine.move object = some
      { ((machine.setObject machine.objects ⟨some frame, some frame⟩).setObject
          object ⟨none, none⟩).setPromise frame
            { machine.promise frame with onwer := some machine.objects } with
        objects := machine.objects + 1 } := by
    simp [Machine.move, owns]
  refine ⟨_, moves, rfl, rfl, rfl, rfl, ?_, ?_, ?_, ?_, ?_⟩
  · simp [Machine.setPromise, Machine.setObject, Ne.symm fresh]
  · intro other apart outside
    simp [Machine.setPromise, Machine.setObject, apart, outside]
  · simp [Machine.setPromise]
  · intro address apart
    simp [Machine.setPromise, Machine.setObject, apart]
  · intro address
    rcases eq_or_ne address frame with rfl | apart
    · simp [Machine.setPromise]
    · simp [Machine.setPromise, Machine.setObject, apart]

namespace CallStack

variable {machine : Machine Value Error Step} {entry top : Level}
variable {waiting : List (Waiting Value Error Step)}

/-- Levels with one frame are the same. -/
theorem level_eq
    (stack : CallStack machine entry top waiting)
    {level other : Level}
    (member : level ∈ levels top waiting)
    (otherMember : other ∈ levels top waiting)
    (same : level.frame = other.frame) :
    level = other :=
  List.inj_on_of_nodup_map stack.frames_nodup member otherMember same

/-- The entry is moved into a new object. -/
theorem move (stack : CallStack machine entry top waiting) :
    ∃ moved, machine.move entry.object = some moved ∧ moved.frame = machine.frame ∧
      (∀ address, (moved.promise address).error = (machine.promise address).error) ∧
      CallStack moved ⟨entry.frame, machine.objects⟩
        (top.moveTo entry.frame machine.objects)
        (waiting.map (Waiting.moveTo entry.frame machine.objects)) := by
  obtain ⟨machineMoved, moves, moved⟩ :=
    Machine.move_eq (stack.owned entry stack.entry_mem).object (stack.fresh stack.entry_mem).2
  refine ⟨machineMoved, moves, moved.states, fun address => (moved.promise address).1, ?_⟩
  have frames : (levels (top.moveTo entry.frame machine.objects)
      (waiting.map (Waiting.moveTo entry.frame machine.objects))).map Level.frame =
        (levels top waiting).map Level.frame := by
    rw [levels_moveTo, List.map_map]
    apply List.map_congr_left
    intro level _
    simp
  refine ⟨?_, ?_, ?_, ?_, ?_, ?_, ?_, ?_⟩
  · rw [frames, moved.links]
    exact stack.links
  · rw [Level.frame_moveTo, moved.links]
    exact stack.last
  · rw [frames]
    exact stack.frames_nodup
  · rw [levels_moveTo, List.map_map]
    apply List.Nodup.map_on
    · intro level member other otherMember same
      have below : ∀ level ∈ levels top waiting, level.object ≠ machine.objects :=
        fun level member => (stack.fresh member).2
      rcases eq_or_ne level.frame entry.frame with isEntry | apart
      · rcases eq_or_ne other.frame entry.frame with otherIsEntry | otherApart
        · exact stack.level_eq member otherMember (isEntry.trans otherIsEntry.symm)
        · simp only [Function.comp, Level.moveTo, isEntry, otherApart, if_true, if_false] at same
          exact absurd same.symm (below other otherMember)
      · rcases eq_or_ne other.frame entry.frame with otherIsEntry | otherApart
        · simp only [Function.comp, Level.moveTo, apart, otherIsEntry, if_true, if_false] at same
          exact absurd same (below level member)
        · simp only [Function.comp, Level.moveTo, apart, otherApart, if_false] at same
          exact List.inj_on_of_nodup_map stack.objects_nodup member otherMember same
    · exact List.Nodup.of_map _ stack.frames_nodup
  · rw [levels_moveTo, List.getLast?_map, stack.bottom, Option.map_some, Level.moveTo_self]
  · rw [(moved.promise _).2.2, Level.frame_moveTo]
    exact stack.current
  · intro level member
    rw [levels_moveTo] at member
    obtain ⟨before, beforeMember, rfl⟩ := List.mem_map.mp member
    have owned := stack.owned before beforeMember
    have entered : (machineMoved.promise before.frame).entry = some entry.frame := by
      rw [(moved.promise _).2.1]
      exact owned.entry
    have frame_lt : before.frame < machineMoved.frames := by
      rw [moved.frames]
      exact owned.frame_lt
    rcases eq_or_ne before.frame entry.frame with isEntry | apart
    · obtain rfl := stack.level_eq beforeMember stack.entry_mem isEntry
      rw [Level.moveTo_self]
      refine ⟨moved.onwer, moved.owns, entered, frame_lt, ?_⟩
      rw [moved.objects]
      exact Nat.lt_succ_self _
    · rw [Level.moveTo_of_ne apart]
      have apartObject : before.object ≠ entry.object := by
        intro same
        apply apart
        rw [List.inj_on_of_nodup_map stack.objects_nodup beforeMember stack.entry_mem same]
      refine ⟨?_, ?_, entered, frame_lt, ?_⟩
      · rw [moved.otherOnwer _ apart]
        exact owned.onwer
      · rw [moved.object _ apartObject (stack.fresh beforeMember).2]
        exact owned.object
      · rw [moved.objects]
        exact Nat.lt_succ_of_lt owned.object_lt
  · exact stack.awaits.moveTo _ moved.states stack.frames_nodup stack.bottom

end CallStack

/-- A frame that awaits another one is not done. -/
theorem Awaits.running
    {machine : Machine Value Error Step}
    {waiting : List (Waiting Value Error Step)}
    {below : Waiting Value Error Step}
    (member : below ∈ waiting) :
    ∀ {object : ObjectId}, Awaits machine object waiting →
      machine.done below.level.frame = false := by
  induction waiting with
  | nil => cases member
  | cons first rest inductionHypothesis =>
      intro object awaits
      rcases List.mem_cons.mp member with rfl | deeper
      · simp [Machine.done, awaits.1]
      · exact inductionHypothesis deeper awaits.2

/-- The entry is not done while the current frame is not. -/
theorem CallStack.running
    {machine : Machine Value Error Step}
    {entry top : Level}
    {waiting : List (Waiting Value Error Step)}
    (stack : CallStack machine entry top waiting)
    (running : machine.done top.frame = false) :
    machine.done entry.frame = false := by
  rcases List.mem_cons.mp stack.entry_mem with rfl | below
  · exact running
  · obtain ⟨below, member, same⟩ := List.mem_map.mp below
    rw [← same]
    exact stack.awaits.running member

/-! ## Poised entries -/

/-- The object owns an entry that has the trace still to do. -/
inductive Poised (machine : Machine Value Error Step) (object : ObjectId) :
    Trace Value Error Step → Prop
  | fresh
      {frame : FrameId}
      {body : Body Value Error Step}
      (stack : CallStack machine ⟨frame, object⟩ ⟨frame, object⟩ [])
      (fresh : machine.frame frame = some (.fresh body))
      (error : (machine.promise frame).error = none) :
      Poised machine object body.evaluate
  | paused
      {frame : FrameId}
      {top : Level}
      {waiting : List (Waiting Value Error Step)}
      {rest : Body Value Error Step}
      (paused : Paused machine ⟨frame, object⟩ top waiting rest) :
      Poised machine object (rest.direct.plug waiting)

namespace Poised

variable {machine : Machine Value Error Step} {object : ObjectId}
variable {trace : Trace Value Error Step}

/-- A move hands the entry to the next object. -/
theorem move (poised : Poised machine object trace) :
    ∃ moved, machine.move object = some moved ∧ Poised moved machine.objects trace := by
  cases poised with
  | fresh stack fresh error =>
      obtain ⟨moved, moves, states, errors, movedStack⟩ := stack.move
      refine ⟨moved, moves, ?_⟩
      rw [Level.moveTo_self] at movedStack
      refine .fresh movedStack ?_ ?_
      · rw [states, fresh]
      · rw [errors, error]
  | paused paused =>
      obtain ⟨moved, moves, states, errors, movedStack⟩ := paused.stack.move
      refine ⟨moved, moves, ?_⟩
      rw [← Trace.plug_moveTo _ machine.objects]
      refine .paused ⟨movedStack, ?_, ?_, ?_⟩
      · intro below member
        obtain ⟨before, beforeMember, rfl⟩ := List.mem_map.mp member
        simp only [Waiting.moveTo, Level.frame_moveTo, errors]
        exact paused.calm before beforeMember
      · rw [Level.frame_moveTo, states, paused.frame]
      · rw [Level.frame_moveTo, errors, paused.error]

/-- A resume runs the loop from the current frame. -/
private theorem executes [Inhabited Value]
    {frame : FrameId}
    {top : Level}
    {waiting : List (Waiting Value Error Step)}
    (stack : CallStack machine ⟨frame, object⟩ top waiting)
    (fuel : Nat) :
    machine.callStackExecute fuel object = machine.loop frame fuel (some top.frame) := by
  have owned := stack.owned _ stack.entry_mem
  simp [Machine.callStackExecute, owned.object, owned.entry, stack.current]

/-- A resume of a poised entry starts at a frame that is ready. -/
theorem execute [Inhabited Value] (poised : Poised machine object trace) :
    ∃ frame top waiting seen body,
      machine.object object = ⟨some frame, some frame⟩ ∧
      machine.done frame = false ∧
      (∀ fuel, machine.callStackExecute fuel object =
        machine.loop frame fuel (some top.frame)) ∧
      Ready machine ⟨frame, object⟩ top waiting seen body ∧
      trace = (Trace.emit seen body.direct).plug waiting := by
  cases poised with
  | @fresh frame body stack fresh error =>
      refine ⟨frame, _, [], [.enter], body, (stack.owned _ stack.entry_mem).object, ?_,
        executes stack, stack.ready_fresh (by simp [Calm]) fresh error, rfl⟩
      simp [Machine.done, fresh]
  | @paused frame top waiting rest paused =>
      refine ⟨frame, top, waiting, [], rest,
        (paused.stack.owned _ paused.stack.entry_mem).object, ?_, executes paused.stack,
        paused.stack.ready_suspended paused.calm paused.frame paused.error, rfl⟩
      apply paused.stack.running
      simp [Machine.done, paused.frame]

end Poised

/-- The owner of an entry that has ended gets nothing more. -/
theorem Ended.session [Inhabited Value]
    {error : Option Error}
    (fuel : Nat)
    (uses : List Use) :
    ∀ {machine : Machine Value Error Step} {entry : Level}, Ended machine entry error →
      machine.session fuel entry.object uses = some [] := by
  induction uses with
  | nil => exact fun _ => rfl
  | cons use uses inductionHypothesis =>
      intro machine entry ended
      cases use with
      | resume =>
          have done : machine.done entry.frame = true := by
            simp [Machine.done, ended.frame]
          simp [Machine.session, ended.object, done]
      | move =>
          obtain ⟨after, moves, moved⟩ :=
            Machine.move_eq ended.object (Nat.ne_of_lt ended.object_lt)
          have endedMoved : Ended after ⟨entry.frame, machine.objects⟩ error := by
            refine ⟨moved.owns, ?_, ?_, ?_⟩
            · rw [moved.objects]
              exact Nat.lt_succ_self _
            · rw [moved.states]
              exact ended.frame
            · rw [(moved.promise _).1]
              exact ended.error
          simp only [Machine.session, moves]
          exact inductionHypothesis endedMoved

/-! ## Sessions -/

/-- What is seen before a suspension is no more than all there is to see. -/
theorem Trace.events_length_le (trace : Trace Value Error Step) :
    trace.events.length ≤ trace.length := by
  induction trace with
  | ret value => exact Nat.le_refl _
  | throw error => exact Nat.le_refl _
  | event seen rest inductionHypothesis => exact Nat.succ_le_succ inductionHypothesis
  | suspend rest => exact Nat.zero_le _

/-- What follows a suspension is no more than all there is to see. -/
theorem Trace.length_le_of_suspended
    {trace rest : Trace Value Error Step}
    (suspended : trace.stop = .suspended rest) :
    rest.length ≤ trace.length := by
  induction trace with
  | ret value => cases suspended
  | throw error => cases suspended
  | event seen later inductionHypothesis =>
      exact Nat.le_succ_of_le (inductionHypothesis suspended)
  | suspend later =>
      obtain rfl := Trace.Stop.suspended.inj suspended
      exact Nat.le_refl _

/-- What holds of a trace once it holds of what follows its first suspension holds
of all traces. -/
theorem Trace.resumed_induction
    {holds : Trace Value Error Step → Prop}
    (step : ∀ trace : Trace Value Error Step,
      (∀ rest, trace.stop = .suspended rest → holds rest) → holds trace)
    (trace : Trace Value Error Step) :
    holds trace := by
  have both : holds trace ∧ ∀ rest, trace.stop = .suspended rest → holds rest := by
    induction trace with
    | ret value => exact ⟨step _ (by simp [Trace.stop]), by simp [Trace.stop]⟩
    | throw error => exact ⟨step _ (by simp [Trace.stop]), by simp [Trace.stop]⟩
    | event seen rest inductionHypothesis =>
        exact ⟨step _ inductionHypothesis.2, inductionHypothesis.2⟩
    | suspend rest inductionHypothesis =>
        have later : ∀ next, (Trace.suspend rest).stop = .suspended next → holds next := by
          intro next stops
          obtain rfl := Trace.Stop.suspended.inj stops
          exact inductionHypothesis.1
        exact ⟨step _ later, later⟩
  exact both.1

/-- The owner sees what the trace shows. -/
theorem Rests.report
    {entry : Level}
    {outcome : Outcome Value Error Step}
    {trace : Trace Value Error Step}
    (rests : Rests entry outcome trace.stop)
    (events : outcome.events = trace.events) :
    Machine.report outcome entry.frame = trace.report := by
  generalize stops : trace.stop = stop at rests
  cases rests with
  | returned ended raised =>
      have done : outcome.machine.done entry.frame = true := by
        simp [Machine.done, ended.frame]
      simp [Machine.report, Trace.report, stops, events, raised, done, ended.error]
  | raised ended raised =>
      have done : outcome.machine.done entry.frame = true := by
        simp [Machine.done, ended.frame]
      simp [Machine.report, Trace.report, stops, events, raised, done, ended.error]
  | suspended paused raised =>
      have running : outcome.machine.done entry.frame = false := by
        apply paused.stack.running
        simp [Machine.done, paused.frame]
      simp [Machine.report, Trace.report, stops, events, raised, running]

variable [Inhabited Value]

/-- One resume of a poised entry, where exceptions are thrown on. -/
theorem Poised.resume_direct
    {machine : Machine Value Error Step}
    {object : ObjectId}
    {trace : Trace Value Error Step}
    (poised : Poised machine object trace)
    (safe : trace.catchSafeHere = true)
    {fuel : Nat}
    (enough : trace.length < fuel)
    (uses : List Use) :
    ∃ after : Machine Value Error Step,
      (machine.session fuel object (.resume :: uses) =
        (after.session fuel object uses).map (trace.report :: ·)) ∧
      (∀ rest, trace.stop = .suspended rest → Poised after object rest) ∧
      ((∀ rest, trace.stop ≠ .suspended rest) → after.session fuel object uses = some []) := by
  obtain ⟨frame, top, waiting, seen, body, owns, running, executes, ready, rfl⟩ := poised.execute
  have shown := Trace.events_length_le ((Trace.emit seen body.direct).plug waiting)
  obtain ⟨outcome, loops, events, rests⟩ := ready.loop_direct fuel safe (by omega)
  refine ⟨outcome.machine, ?_, fun rest stops => ?_, fun ends => ?_⟩
  · simp [Machine.session, owns, running, executes, loops, rests.report events]
  · rw [stops] at rests
    cases rests with
    | suspended paused raised => exact .paused paused
  · generalize ((Trace.emit seen body.direct).plug waiting).stop = stop at rests ends
    cases rests with
    | returned ended raised => exact ended.session fuel uses
    | raised ended raised => exact ended.session fuel uses
    | suspended paused raised => exact absurd rfl (ends _)

/-- Where exceptions are thrown on, the owner of a poised entry sees what its trace
shows. -/
theorem Poised.session_direct
    (fuel : Nat)
    (uses : List Use) :
    ∀ {machine : Machine Value Error Step} {object : ObjectId} {trace : Trace Value Error Step},
      Poised machine object trace → trace.catchSafe = true → trace.length < fuel →
      machine.session fuel object uses = some (trace.session uses) := by
  induction uses with
  | nil => exact fun _ _ _ => rfl
  | cons use uses inductionHypothesis =>
      intro machine object trace poised safe enough
      cases use with
      | move =>
          obtain ⟨moved, moves, poisedMoved⟩ := poised.move
          simp only [Machine.session, moves, Trace.session]
          exact inductionHypothesis poisedMoved safe enough
      | resume =>
          obtain ⟨safeHere, safeLater⟩ := trace.catchSafe_iff.mp safe
          obtain ⟨after, session, goesOn, ends⟩ := poised.resume_direct safeHere enough uses
          rw [session, Trace.session]
          cases stops : trace.stop with
          | suspended rest =>
              have less := Trace.length_le_of_suspended stops
              rw [inductionHypothesis (goesOn rest stops) (safeLater rest stops) (by omega)]
              rfl
          | returned value =>
              rw [ends (by simp [stops])]
              rfl
          | raised error =>
              rw [ends (by simp [stops])]
              rfl

/-- One resume of a poised entry that catches an exception shows something else. -/
theorem Poised.resume_strays
    {machine : Machine Value Error Step}
    {object : ObjectId}
    {trace : Trace Value Error Step}
    (poised : Poised machine object trace)
    (caught : trace.catchSafeHere = false)
    (fuel : Nat) :
    machine.session fuel object [.resume] ≠ some (trace.session [.resume]) := by
  obtain ⟨frame, top, waiting, seen, body, owns, running, executes, ready, rfl⟩ := poised.execute
  intro same
  have single : ((Trace.emit seen body.direct).plug waiting).session [.resume] =
      [((Trace.emit seen body.direct).plug waiting).report] := by
    simp only [Trace.session]
    split <;> rfl
  rw [single] at same
  generalize traced : (Trace.emit seen body.direct).plug waiting = trace at *
  cases loops : machine.loop frame fuel (some top.frame) with
  | none => simp [Machine.session, owns, running, executes, loops] at same
  | some outcome =>
      simp only [Machine.session, owns, running, executes, loops] at same
      have reports : Machine.report outcome frame = trace.report := by simpa using same
      have events : outcome.events = trace.events := by
        have projected := congrArg Report.events reports
        cases stops : trace.stop <;> simpa [Machine.report, Trace.report, stops] using projected
      have raised := congrArg Report.raised reports
      obtain ⟨raises, unraised⟩ := ready.loop_strays fuel (traced ▸ caught) loops (traced ▸ events)
      cases stops : trace.stop with
      | raised error => exact unraised error (traced ▸ stops)
      | returned value => exact raises (by simpa [Machine.report, Trace.report, stops] using raised)
      | suspended rest => exact raises (by simpa [Machine.report, Trace.report, stops] using raised)

/-- Where an exception is caught, some use of a poised entry shows something else. -/
theorem Poised.session_strays (trace : Trace Value Error Step) :
    trace.catchSafe = false →
      ∃ uses, ∀ (machine : Machine Value Error Step) (object : ObjectId) (fuel : Nat),
        Poised machine object trace → trace.length < fuel →
          machine.session fuel object uses ≠ some (trace.session uses) := by
  induction trace using Trace.resumed_induction with
  | step trace inductionHypothesis =>
      intro caught
      cases here : trace.catchSafeHere with
      | false =>
          exact ⟨[.resume], fun machine object fuel poised _ => poised.resume_strays here fuel⟩
      | true =>
          obtain ⟨rest, stops, caughtLater⟩ :
              ∃ rest, trace.stop = .suspended rest ∧ rest.catchSafe = false := by
            by_contra absent
            have safe : trace.catchSafe = true := by
              apply trace.catchSafe_iff.mpr
              refine ⟨here, fun rest stops => ?_⟩
              cases later : rest.catchSafe with
              | true => rfl
              | false => exact absurd ⟨rest, stops, later⟩ absent
            rw [safe] at caught
            cases caught
          obtain ⟨uses, strays⟩ := inductionHypothesis rest stops caughtLater
          refine ⟨.resume :: uses, fun machine object fuel poised enough same => ?_⟩
          obtain ⟨after, session, goesOn, -⟩ := poised.resume_direct here enough uses
          have less := Trace.length_le_of_suspended stops
          apply strays after object fuel (goesOn rest stops) (by omega)
          rw [session] at same
          simp only [Trace.session, stops] at same
          obtain ⟨reports, later, both⟩ := Option.map_eq_some_iff.mp same
          rw [later, (List.cons.inj both).2]

/-- `FrameOperator::init` poises the entry. -/
theorem Machine.start_poised (body : Body Value Error Step) :
    ∃ machine, (Machine.empty.create body).callStackCreate 0 = some machine ∧
      Poised machine 0 body.evaluate := by
  let machine : Machine Value Error Step :=
    (Machine.empty.create body).setPromise 0
      { (Machine.empty.create body).promise 0 with entry := some 0, current := some 0 }
  refine ⟨machine, ?_, ?_⟩
  · simp [Machine.callStackCreate, Machine.create, Machine.empty, machine]
  · have stack : CallStack machine ⟨0, 0⟩ ⟨0, 0⟩ [] := by
      refine ⟨?_, ?_, List.nodup_singleton _, List.nodup_singleton _, rfl, ?_, ?_, trivial⟩
      · simp [machine, levels, Links.Stacked, Machine.setPromise, Machine.create, Machine.empty,
          Links.create, Links.setPrev, Links.setNext]
      · simp [machine, Machine.setPromise, Machine.create, Machine.empty, Links.create,
          Links.setPrev, Links.setNext]
      · simp [machine, Machine.setPromise]
      · intro level member
        obtain rfl := List.mem_singleton.mp member
        refine ⟨?_, ?_, ?_, Nat.one_pos, Nat.one_pos⟩
        · simp [machine, Machine.setPromise, Machine.create, Machine.empty]
        · simp [machine, Machine.setPromise, Machine.create, Machine.empty]
        · simp [machine, Machine.setPromise]
    apply Poised.fresh stack
    · simp [machine, Machine.setPromise, Machine.create, Machine.empty]
    · simp [machine, Machine.setPromise, Machine.create, Machine.empty]

/-- Where no body catches, the owner of an entry sees nested calls: each resume does
what direct evaluation does between two suspensions, whenever the entry is moved. -/
theorem nested_calls
    {body : Body Value Error Step}
    (noCatch : body.NoCatch)
    (uses : List Use) :
    ∃ bound, ∀ fuel, bound ≤ fuel →
      Machine.start fuel body uses = some (body.evaluate.session uses) := by
  obtain ⟨machine, starts, poised⟩ := Machine.start_poised body
  refine ⟨body.evaluate.length + 1, fun fuel enough => ?_⟩
  simp only [Machine.start, starts]
  exact poised.session_direct fuel uses noCatch.catchSafe enough

/-- A nest of three bodies that is suspended twice, moved and thrown out of. -/
def threeDeep : Body Nat Unit Nat :=
  .step 0 (.await
    (.await (.step 1 (.suspend (.ret 5))) (fun value => .step value (.suspend (.throw ()))) .throw)
    .ret .throw)

theorem nested_calls_sample :
    ∃ bound, ∀ fuel, bound ≤ fuel →
      Machine.start fuel threeDeep [.resume, .move, .resume, .move, .resume] =
        some [⟨[.enter, .step 0, .enter, .enter, .step 1], none, false, none⟩,
          ⟨[.value 5, .step 5], none, false, none⟩,
          ⟨[.error ()], some (), true, none⟩] := by
  have noCatch : threeDeep.NoCatch :=
    ⟨⟨trivial, fun _ => trivial, rfl⟩, fun _ => trivial, rfl⟩
  exact nested_calls noCatch [.resume, .move, .resume, .move, .resume]

/-- The owner of an entry sees nested calls exactly when every exception that a
`co_await` throws is thrown on by the body that gets it, after local steps at most. -/
theorem nested_calls_iff_thrown_on (body : Body Value Error Step) :
    (∀ uses, ∃ bound, ∀ fuel, bound ≤ fuel →
        Machine.start fuel body uses = some (body.evaluate.session uses)) ↔
      body.evaluate.catchSafe = true := by
  obtain ⟨machine, starts, poised⟩ := Machine.start_poised body
  simp only [Machine.start, starts]
  refine ⟨fun direct => ?_, fun safe uses => ?_⟩
  · cases safe : body.evaluate.catchSafe with
    | true => rfl
    | false =>
        obtain ⟨uses, strays⟩ := Poised.session_strays body.evaluate safe
        obtain ⟨bound, same⟩ := direct uses
        have enough : body.evaluate.length < max bound (body.evaluate.length + 1) := by omega
        exact absurd (same _ (Nat.le_max_left _ _)) (strays machine 0 _ poised enough)
  · exact ⟨body.evaluate.length + 1, fun fuel enough => poised.session_direct fuel uses safe enough⟩

/-- `try { co_await child } catch (..) {} co_return 1`, with a child that throws -/
def caughtThenReturned : Body Nat Unit Unit :=
  .await (.throw ()) .ret fun _ => .ret 1

/-- `try { co_await child } catch (..) {} co_return co_await other`, with a child
that throws and one that returns 5 -/
def caughtThenAwaited : Body Nat Unit Unit :=
  .await (.throw ()) .ret fun _ => .await (.ret 5) .ret .throw

/-- The exception that was caught leaves `resume`, and a child that is awaited after
the catch does not run. -/
theorem caught_exception_thrown_again :
    (¬ ∃ bound, ∀ fuel, bound ≤ fuel →
      Machine.start fuel caughtThenReturned [.resume] =
        some (caughtThenReturned.evaluate.session [.resume])) ∧
    ¬ ∃ bound, ∀ fuel, bound ≤ fuel →
      Machine.start fuel caughtThenAwaited [.resume] =
        some (caughtThenAwaited.evaluate.session [.resume]) := by
  have returned : ∀ fuel, Machine.start (fuel + 3) caughtThenReturned [.resume] =
      some [⟨[.enter, .enter, .error ()], some (), true, none⟩] := fun _ => rfl
  have awaited : ∀ fuel, Machine.start (fuel + 3) caughtThenAwaited [.resume] =
      some [⟨[.enter, .enter, .error ()], none, false, none⟩] := fun _ => rfl
  refine ⟨?_, ?_⟩
  · rintro ⟨bound, same⟩
    have direct := same (bound + 3) (by omega)
    rw [returned] at direct
    revert direct
    decide
  · rintro ⟨bound, same⟩
    have direct := same (bound + 3) (by omega)
    rw [awaited] at direct
    revert direct
    decide

end Coroutine
end Cgo
