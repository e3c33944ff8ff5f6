import Cgo.Coroutine.Machine

/-!
# The shape of the call stack

From the current frame down to the entry, the frames of a call stack are linked
to one another, each is owned by its object, and each but the current one awaits
the object of the frame above it.  Pushing a child and popping a frame keep this
shape, and so does everything that happens above the stack.
-/

namespace Cgo
namespace Coroutine

variable {Value Error Step : Type}

/-- A frame and the object that owns it. -/
structure Level where
  frame : FrameId
  object : ObjectId

/-- A frame that awaits the one above it. -/
structure Waiting (Value Error Step : Type) where
  level : Level
  onValue : Value → Body Value Error Step
  onError : Error → Body Value Error Step

/-- The levels of a call stack, the current one first. -/
def levels (top : Level) (waiting : List (Waiting Value Error Step)) : List Level :=
  top :: waiting.map Waiting.level

/-- Each waiting frame awaits the object of the level above it. -/
def Awaits (machine : Machine Value Error Step) :
    ObjectId → List (Waiting Value Error Step) → Prop
  | _, [] => True
  | object, below :: rest =>
      machine.frame below.level.frame =
          some (.awaiting object below.onValue below.onError) ∧
        Awaits machine below.level.object rest

/-- The object owns the frame, which belongs to the entry's call stack. -/
structure Owned (machine : Machine Value Error Step) (entry : FrameId) (level : Level) :
    Prop where
  onwer : (machine.promise level.frame).onwer = some level.object
  object : machine.object level.object = ⟨some level.frame, some level.frame⟩
  entry : (machine.promise level.frame).entry = some entry
  frame_lt : level.frame < machine.frames
  object_lt : level.object < machine.objects

/-- The heap holds a call stack. -/
structure CallStack
    (machine : Machine Value Error Step)
    (entry top : Level)
    (waiting : List (Waiting Value Error Step)) : Prop where
  links : machine.links.Stacked ((levels top waiting).map Level.frame)
  last : machine.links.next top.frame = none
  frames_nodup : ((levels top waiting).map Level.frame).Nodup
  objects_nodup : ((levels top waiting).map Level.object).Nodup
  bottom : (levels top waiting).getLast? = some entry
  current : (machine.promise entry.frame).current = some top.frame
  owned : ∀ level ∈ levels top waiting, Owned machine entry.frame level
  awaits : Awaits machine top.object waiting

/-- No waiting frame has an error. -/
def Calm (machine : Machine Value Error Step) (waiting : List (Waiting Value Error Step)) :
    Prop :=
  ∀ below ∈ waiting, (machine.promise below.level.frame).error = none

/-- What waits depends on the frames that wait only. -/
theorem Awaits.congr
    {before after : Machine Value Error Step}
    {object : ObjectId}
    {waiting : List (Waiting Value Error Step)}
    (awaits : Awaits before object waiting)
    (frame : ∀ below ∈ waiting, after.frame below.level.frame = before.frame below.level.frame) :
    Awaits after object waiting := by
  induction waiting generalizing object with
  | nil => trivial
  | cons below rest inductionHypothesis =>
      obtain ⟨awaiting, awaits⟩ := awaits
      refine ⟨?_, ?_⟩
      · rw [frame below List.mem_cons_self]
        exact awaiting
      · apply inductionHypothesis awaits
        exact fun deeper member => frame deeper (List.mem_cons_of_mem _ member)

namespace CallStack

variable {machine after : Machine Value Error Step} {entry top : Level}
variable {waiting : List (Waiting Value Error Step)}

theorem top_mem : top ∈ levels top waiting :=
  List.mem_cons_self

theorem waiting_mem
    {below : Waiting Value Error Step}
    (member : below ∈ waiting) :
    below.level ∈ levels top waiting :=
  List.mem_cons_of_mem _ (List.mem_map_of_mem member)

/-- A waiting frame is not the current one. -/
theorem frame_ne
    (stack : CallStack machine entry top waiting)
    {below : Waiting Value Error Step}
    (member : below ∈ waiting) :
    below.level.frame ≠ top.frame := by
  intro same
  have nodup := stack.frames_nodup
  simp only [levels, List.map_cons, List.nodup_cons] at nodup
  apply nodup.1
  rw [← same]
  exact List.mem_map_of_mem (List.mem_map_of_mem member)

theorem entry_mem (stack : CallStack machine entry top waiting) :
    entry ∈ levels top waiting :=
  List.mem_of_getLast? stack.bottom

/-- A call stack depends on its own frames and objects only, and for the current
frame neither on its state nor on its error. -/
theorem congr
    (stack : CallStack machine entry top waiting)
    (links : after.links = machine.links)
    (promise : ∀ level ∈ levels top waiting,
      (after.promise level.frame).onwer = (machine.promise level.frame).onwer ∧
        (after.promise level.frame).entry = (machine.promise level.frame).entry ∧
        (after.promise level.frame).current = (machine.promise level.frame).current)
    (frame : ∀ below ∈ waiting,
      after.frame below.level.frame = machine.frame below.level.frame)
    (object : ∀ level ∈ levels top waiting,
      after.object level.object = machine.object level.object)
    (frames : machine.frames ≤ after.frames)
    (objects : machine.objects ≤ after.objects) :
    CallStack after entry top waiting where
  links := by
    rw [links]
    exact stack.links
  last := by
    rw [links]
    exact stack.last
  frames_nodup := stack.frames_nodup
  objects_nodup := stack.objects_nodup
  bottom := stack.bottom
  current := by
    rw [(promise entry stack.entry_mem).2.2]
    exact stack.current
  owned level member := by
    have owned := stack.owned level member
    refine ⟨?_, ?_, ?_, Nat.lt_of_lt_of_le owned.frame_lt frames,
      Nat.lt_of_lt_of_le owned.object_lt objects⟩
    · rw [(promise level member).1]
      exact owned.onwer
    · rw [object level member]
      exact owned.object
    · rw [(promise level member).2.1]
      exact owned.entry
  awaits := stack.awaits.congr frame

/-- The frame and the promise of the current frame may change. -/
theorem halted
    (stack : CallStack machine entry top waiting)
    (promise : Promise Value Error)
    (state : Option (FrameState Value Error Step))
    (onwer : promise.onwer = (machine.promise top.frame).onwer)
    (entered : promise.entry = (machine.promise top.frame).entry)
    (current : promise.current = (machine.promise top.frame).current) :
    CallStack ((machine.setPromise top.frame promise).setFrame top.frame state)
      entry top waiting := by
  refine stack.congr rfl (fun level member => ?_) (fun below member => ?_) (fun _ _ => rfl)
    (Nat.le_refl _) (Nat.le_refl _)
  · rcases eq_or_ne level.frame top.frame with same | apart
    · simp [Machine.setFrame, Machine.setPromise, same, onwer, entered, current]
    · simp [Machine.setFrame, Machine.setPromise, apart]
  · simp [Machine.setFrame, Machine.setPromise, stack.frame_ne member]

/-- An object outside the stack is destroyed with its frame. -/
theorem destroy
    (stack : CallStack machine entry top waiting)
    {object : ObjectId}
    {child : FrameId}
    (owns : machine.object object = ⟨some child, some child⟩)
    (apartObject : ∀ level ∈ levels top waiting, level.object ≠ object)
    (apartFrame : ∀ level ∈ levels top waiting, level.frame ≠ child) :
    CallStack (machine.destroy object) entry top waiting := by
  have destroyed : machine.destroy object =
      (machine.setFrame child none).setObject object ⟨none, none⟩ := by
    simp [Machine.destroy, owns]
  rw [destroyed]
  refine stack.congr rfl (fun _ _ => ⟨rfl, rfl, rfl⟩) (fun below member => ?_)
    (fun level member => ?_) (Nat.le_refl _) (Nat.le_refl _)
  · simp [Machine.setFrame, Machine.setObject, apartFrame _ (waiting_mem member)]
  · simp [Machine.setFrame, Machine.setObject, apartObject level member]

/-- The last level is the entry; above others the current one is not. -/
private theorem bottom_cons
    {below : Waiting Value Error Step}
    (stack : CallStack machine entry top (below :: waiting)) :
    (levels below.level waiting).getLast? = some entry := by
  have bottom := stack.bottom
  simpa [levels, List.getLast?_cons_cons] using bottom

/-- `_call_stack_pop` returns the frame below the current one. -/
theorem pop
    {below : Waiting Value Error Step}
    (stack : CallStack machine entry top (below :: waiting)) :
    ∃ popped, machine.callStackPop entry.frame = some (popped, some below.level.frame) ∧
      popped.frame = machine.frame ∧ popped.object = machine.object ∧
      (∀ frame, (popped.promise frame).error = (machine.promise frame).error ∧
        (popped.promise frame).value = (machine.promise frame).value) ∧
      CallStack popped entry below.level waiting := by
  have entered := (stack.owned entry stack.entry_mem).entry
  have front : machine.links.front top.frame = some below.level.frame := stack.links.1
  obtain ⟨links, last⟩ := stack.links.unlinkBack stack.last stack.frames_nodup
  have pops : machine.callStackPop entry.frame = some
      (({ machine with links := machine.links.unlinkBack below.level.frame }).setPromise
        entry.frame { machine.promise entry.frame with current := some below.level.frame },
        some below.level.frame) := by
    simp [Machine.callStackPop, entered, stack.current, front]
  refine ⟨_, pops, rfl, rfl, fun frame => ?_, ?_⟩
  · rcases eq_or_ne frame entry.frame with same | apart
    · simp [Machine.setPromise, same]
    · simp [Machine.setPromise, apart]
  · refine ⟨links, last, (List.nodup_cons.mp stack.frames_nodup).2,
      (List.nodup_cons.mp stack.objects_nodup).2, bottom_cons stack, ?_,
      fun level member => ?_, stack.awaits.2.congr fun _ _ => rfl⟩
    · simp [Machine.setPromise]
    · have owned := stack.owned level (List.mem_cons_of_mem _ member)
      refine ⟨?_, owned.object, ?_, owned.frame_lt, owned.object_lt⟩
      · rcases eq_or_ne level.frame entry.frame with same | apart
        · have onwer := owned.onwer
          rw [same] at onwer
          simp [Machine.setPromise, same, onwer]
        · simpa [Machine.setPromise, apart] using owned.onwer
      · rcases eq_or_ne level.frame entry.frame with same | apart
        · simp [Machine.setPromise, same, entered]
        · simpa [Machine.setPromise, apart] using owned.entry

/-- `_call_stack_pop` at the entry returns nothing. -/
theorem pop_entry
    (stack : CallStack machine entry top []) :
    ∃ popped, machine.callStackPop entry.frame = some (popped, none) ∧
      popped.frame = machine.frame ∧ popped.object = machine.object ∧
      popped.objects = machine.objects ∧
      ∀ frame, (popped.promise frame).error = (machine.promise frame).error ∧
        (popped.promise frame).value = (machine.promise frame).value := by
  have entered := (stack.owned entry stack.entry_mem).entry
  have front : machine.links.front top.frame = none := stack.links
  have pops : machine.callStackPop entry.frame = some
      (machine.setPromise entry.frame { machine.promise entry.frame with current := none },
        none) := by
    simp [Machine.callStackPop, entered, stack.current, front, Machine.setPromise]
  refine ⟨_, pops, rfl, rfl, rfl, fun frame => ?_⟩
  rcases eq_or_ne frame entry.frame with same | apart
  · simp [Machine.setPromise, same]
  · simp [Machine.setPromise, apart]

/-- The addresses of the next frame and of the next object are in no stack. -/
theorem fresh
    (stack : CallStack machine entry top waiting)
    {level : Level}
    (member : level ∈ levels top waiting) :
    level.frame ≠ machine.frames ∧ level.object ≠ machine.objects := by
  have owned := stack.owned level member
  exact ⟨Nat.ne_of_lt owned.frame_lt, Nat.ne_of_lt owned.object_lt⟩

/-- The `co_await` of a child puts the child on the stack. -/
theorem await [Inhabited Value]
    (stack : CallStack machine entry top waiting)
    (child : Body Value Error Step)
    (onValue : Value → Body Value Error Step)
    (onError : Error → Body Value Error Step) :
    ∃ pushed, machine.halt top.frame (.await child onValue onError) = some pushed ∧
      pushed.frame machine.frames = some (.fresh child) ∧
      (pushed.promise machine.frames).error = none ∧
      (∀ level ∈ levels top waiting,
        (pushed.promise level.frame).error = (machine.promise level.frame).error) ∧
      CallStack pushed entry ⟨machine.frames, machine.objects⟩
        (⟨top, onValue, onError⟩ :: waiting) := by
  have topFresh := stack.fresh top_mem
  have entryFresh := stack.fresh stack.entry_mem
  have entered := (stack.owned top top_mem).entry
  have halts : machine.halt top.frame (.await child onValue onError) = some
      { links := (machine.links.create machine.frames).linkBack top.frame machine.frames
        promise := Function.update (Function.update machine.promise machine.frames
          ⟨some machine.objects, none, some entry.frame, none, default⟩) entry.frame
            { machine.promise entry.frame with current := some machine.frames }
        frame := Function.update (Function.update machine.frame machine.frames
          (some (.fresh child))) top.frame
            (some (.awaiting machine.objects onValue onError))
        object := Function.update machine.object machine.objects
          ⟨some machine.frames, some machine.frames⟩
        frames := machine.frames + 1
        objects := machine.objects + 1 } := by
    simp [Machine.halt, Machine.awaitSuspend, Machine.create, Machine.callStackPush,
      Machine.setFrame, Machine.setPromise, topFresh.1, entryFresh.1, entered, stack.current]
  refine ⟨_, halts, ?_, ?_, fun level member => ?_, ?_⟩
  · simp [Ne.symm topFresh.1]
  · simp [Ne.symm entryFresh.1]
  · have levelFresh := stack.fresh member
    rcases eq_or_ne level.frame entry.frame with same | apart
    · simp [same]
    · simp [apart, levelFresh.1]
  · have outside : machine.frames ∉ (levels top waiting).map Level.frame := by
      intro member
      obtain ⟨level, inside, same⟩ := List.mem_map.mp member
      exact (stack.fresh inside).1 same
    have created : (machine.links.create machine.frames).Stacked
        ((levels top waiting).map Level.frame) := by
      apply stack.links.congr
      · intro node member
        have apart : node ≠ machine.frames := by
          rintro rfl
          exact outside member
        simp [Links.create, Links.setPrev, Links.setNext, apart]
      · intro node member
        have apart : node ≠ machine.frames := by
          rintro rfl
          exact outside (List.mem_cons_of_mem _ member)
        simp [Links.create, Links.setPrev, Links.setNext, apart]
    have lastCreated : (machine.links.create machine.frames).next top.frame = none := by
      simpa [Links.create, Links.setPrev, Links.setNext, topFresh.1] using stack.last
    obtain ⟨links, last⟩ := created.linkBack lastCreated stack.frames_nodup outside
    have outsideObjects : machine.objects ∉ (levels top waiting).map Level.object := by
      intro member
      obtain ⟨level, inside, same⟩ := List.mem_map.mp member
      exact (stack.fresh inside).2 same
    refine ⟨links, last, List.nodup_cons.mpr ⟨outside, stack.frames_nodup⟩,
      List.nodup_cons.mpr ⟨outsideObjects, stack.objects_nodup⟩, ?_, by simp,
      fun level member => ?_, ?_, ?_⟩
    · simpa [levels, List.getLast?_cons_cons] using stack.bottom
    · rcases List.mem_cons.mp member with rfl | below
      · exact ⟨by simp [Ne.symm entryFresh.1], by simp, by simp [Ne.symm entryFresh.1],
          Nat.lt_succ_self _, Nat.lt_succ_self _⟩
      · have owned := stack.owned level below
        have levelFresh := stack.fresh below
        refine ⟨?_, ?_, ?_, Nat.lt_succ_of_lt owned.frame_lt, Nat.lt_succ_of_lt owned.object_lt⟩
        · rcases eq_or_ne level.frame entry.frame with same | apart
          · have onwer := owned.onwer
            rw [same] at onwer
            simp [same, onwer]
          · simpa [apart, levelFresh.1] using owned.onwer
        · simpa [levelFresh.2] using owned.object
        · rcases eq_or_ne level.frame entry.frame with same | apart
          · have entered := owned.entry
            rw [same] at entered
            simp [same, entered]
          · simpa [apart, levelFresh.1] using owned.entry
    · simp
    · apply stack.awaits.congr
      intro below member
      simp [stack.frame_ne member, (stack.fresh (waiting_mem member)).1]

end CallStack

end Coroutine
end Cgo
