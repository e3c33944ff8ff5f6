import Cgo.Channel.Absent
import Cgo.Channel.Guarded

/-!
# What a finished operation leaves behind

The guards of plain operations and `Select::_drop` see to it that an operation that is
over has dropped its messages, so that the channels do not know them any more.

`operator()` of a select makes its `defer` guard only after its listener loop.
When a listener throws, `_drop` has to wait for `~Select`, and the cases entered
before stay linked although `operator()` is over.
-/

namespace Cgo
namespace Channel

variable {α : Type}

namespace Guarded

section

variable {program : Program α}

/-- The operation is over: the coroutine of the plain message has ended or its frame was
destroyed, or `operator()` of the select has ended, or `~Select` runs. -/
def Over (state : Guarded α) : Operation → Prop
  | .plain message => ∃ exit, state.plain message = .over exit
  | .select select => (state.stage select).Over

variable [Inhabited α] {selects : Selects program} {state after : Guarded α}

/-! ## What the guards see to -/

/-- The guard of a plain operation that is over has dropped its message, if that was ever
entered, and `_drop` of a select that is over has dropped its cases, unless the select has
thrown. -/
structure Sound (program : Program α) (state : Guarded α) : Prop where
  plain : ∀ message, state.plain message ≠ .idle → IsPlain program message
  idle : ∀ message, IsPlain program message → state.plain message = .idle →
    state.selecting.system.phase message = .fresh
  ended : ∀ message exit, state.plain message = .over exit →
    state.selecting.system.phase message = .fresh ∨
      state.selecting.system.dropped message = true
  unused : ∀ select, state.selecting.pc select = .idle → state.selecting.msgs select = []
  stopped : ∀ select, state.stage select ≠ .body →
    state.selecting.pc select = .idle ∨ (state.selecting.pc select).Ended
  emptied : ∀ select, (state.stage select).Over → state.selecting.msgs select = [] ∨
    ∃ error, state.selecting.pc select = .threw error

/-- A plain message that is not entered stays fresh. -/
private theorem fresh_of_step
    {before after : Selecting α}
    {action : Selecting.Label}
    {message : MsgId}
    (reached : Selecting.Reached selects before)
    (stepped : Selecting.step selects before action = some after)
    (plain : program.select? message = none)
    (notEntered : action ≠ .enter message)
    (fresh : before.system.phase message = .fresh) :
    after.system.phase message = .fresh := by
  have wellFormed := WellFormed.of_reached (Selecting.system_reached reached)
  by_contra entered
  have beside : ∀ label, System.step program before.system label = some after.system →
      label ≠ .enter message → False := fun label acted other =>
    Selecting.Tracked.beside wellFormed acted other entered fresh
  cases Selecting.move_of_step stepped with
  | @enter other _ _ acted =>
      refine beside _ acted ?_
      rintro ⟨rfl⟩
      exact notEntered rfl
  | turn acted => exact beside _ acted (by simp)
  | drop _ acted => exact beside _ acted (by simp)
  | go => exact entered fresh
  | @poll select polled listeners _ polling acted =>
      refine beside _ acted ?_
      rintro ⟨rfl⟩
      have owned := (Selecting.Tracked.of_reached reached).remaining select message
        (by simp [polling, Select.Pc.remaining])
      rw [plain] at owned
      cases owned
  | fire _ _ acted => exact beside _ acted (by simp)
  | dropNext _ _ acted => exact beside _ acted (by simp)

/-- A step of channels and selects leaves what the guards have done. -/
private theorem ended_of_step
    {before after : Selecting α}
    {action : Selecting.Label}
    {message : MsgId}
    (reached : Selecting.Reached selects before)
    (stepped : Selecting.step selects before action = some after)
    (plain : program.select? message = none)
    (notEntered : action ≠ .enter message)
    (ended : before.system.phase message = .fresh ∨ before.system.dropped message = true) :
    after.system.phase message = .fresh ∨ after.system.dropped message = true := by
  refine ended.imp (fresh_of_step reached stepped plain notEntered) fun dropped => ?_
  rcases Selecting.step_system stepped with same | ⟨label, acted, -⟩
  · rwa [same]
  · exact System.dropped_of_step acted dropped

namespace Sound

omit [Inhabited α] in
theorem initial : Sound program (Guarded.initial program) where
  plain := by simp [Guarded.initial]
  idle := by simp [Guarded.initial, Selecting.initial, System.initial]
  ended := by simp [Guarded.initial]
  unused := by simp [Guarded.initial, Selecting.initial]
  stopped := by simp [Guarded.initial]
  emptied := by simp [Guarded.initial, Select.Stage.Over]

/-- What the guards of plain operations have done is left as it is by a step that enters
none of their messages, but for one that is in its call. -/
private theorem plain_of_step
    {action : Selecting.Label}
    {selecting : Selecting α}
    (sound : Sound program state)
    (reached : Selecting.Reached selects state.selecting)
    (acted : Selecting.step selects state.selecting action = some selecting)
    (enters : ∀ message, action = .enter message → IsPlain program message →
      state.plain message = .calling) :
    (∀ message, IsPlain program message → state.plain message = .idle →
      selecting.system.phase message = .fresh) ∧
    ∀ message exit, state.plain message = .over exit →
      selecting.system.phase message = .fresh ∨ selecting.system.dropped message = true := by
  have notEntered : ∀ message, IsPlain program message → state.plain message ≠ .calling →
      action ≠ .enter message := fun message plain other same => other (enters message same plain)
  refine ⟨fun message plain idle => ?_, fun message exit isOver => ?_⟩
  · exact fresh_of_step reached acted plain.1 (notEntered message plain (by simp [idle]))
      (sound.idle message plain idle)
  · have plain := sound.plain message (by simp [isOver])
    exact ended_of_step reached acted plain.1 (notEntered message plain (by simp [isOver]))
      (sound.ended message exit isOver)

/-- A step of channels and selects beside all selects. -/
private theorem beside
    {action : Selecting.Label}
    {selecting : Selecting α}
    (sound : Sound program state)
    (reached : Selecting.Reached selects state.selecting)
    (acted : Selecting.step selects state.selecting action = some selecting)
    (enters : ∀ message, action = .enter message → IsPlain program message →
      state.plain message = .calling)
    (body : action.body? = none)
    (drops : ∀ select, action ≠ .dropNext select) :
    Sound program { state with selecting } := by
  obtain ⟨idle, ended⟩ := sound.plain_of_step reached acted enters
  obtain ⟨pcs, msgs⟩ := same_of_step acted body drops
  refine ⟨sound.plain, idle, ended, ?_, ?_, ?_⟩
  · simpa [pcs, msgs] using sound.unused
  · simpa [pcs] using sound.stopped
  · simpa [pcs, msgs] using sound.emptied

/-- A step of `operator()`. -/
private theorem body
    {action : Selecting.Label}
    {select : SelectId}
    {selecting : Selecting α}
    (sound : Sound program state)
    (reached : Selecting.Reached selects state.selecting)
    (own : action.body? = some select)
    (acted : Selecting.step selects state.selecting action = some selecting) :
    Sound program
      { selecting
        plain := state.plain
        stage := Function.update state.stage select (selecting.pc select).stage } := by
  have enters : ∀ message, action = .enter message → IsPlain program message →
      state.plain message = .calling := by
    rintro message rfl
    simp [Selecting.Label.body?] at own
  obtain ⟨idle, ended⟩ := sound.plain_of_step reached acted enters
  have begun : selecting.pc select ≠ .idle := begun_of_body acted own
  refine ⟨sound.plain, idle, ended, fun other unused => ?_, fun other outside => ?_,
    fun other isOver => ?_⟩
  all_goals
    rcases eq_or_ne other select with rfl | different
  · exact absurd unused begun
  · obtain ⟨pc, msgs⟩ := beside_of_step acted (.inl own) different
    rw [msgs]
    exact sound.unused other (pc ▸ unused)
  · right
    cases pc : selecting.pc other <;> simp [pc, Select.Pc.stage, Select.Pc.Ended] at outside ⊢
  · obtain ⟨pc, -⟩ := beside_of_step acted (.inl own) different
    simpa only [pc] using sound.stopped other (by simpa [different] using outside)
  · right
    cases pc : selecting.pc other <;> simp [pc, Select.Pc.stage, Select.Stage.Over] at isOver ⊢
  · obtain ⟨pc, msgs⟩ := beside_of_step acted (.inl own) different
    simpa only [pc, msgs] using sound.emptied other (by simpa [different] using isOver)

/-- `_drop` drops a message. -/
private theorem dropNext
    {select : SelectId}
    {selecting : Selecting α}
    (sound : Sound program state)
    (reached : Selecting.Reached selects state.selecting)
    (acted : Selecting.step selects state.selecting (.dropNext select) = some selecting) :
    Sound program { state with selecting } := by
  obtain ⟨idle, ended⟩ := sound.plain_of_step reached acted (by simp)
  have pcs : selecting.pc = state.selecting.pc ∧
      ∀ other, state.selecting.msgs other = [] → selecting.msgs other = [] := by
    cases Selecting.move_of_step acted with
    | go own => simp [Selecting.Label.body?] at own
    | dropNext _ next =>
        refine ⟨rfl, fun other empty => ?_⟩
        rcases eq_or_ne other select with rfl | different
        · simp [next] at empty
        · simpa [different] using empty
  obtain ⟨pc, msgs⟩ := pcs
  refine ⟨sound.plain, idle, ended, fun other unused => ?_, fun other outside => ?_,
    fun other isOver => ?_⟩
  · exact msgs other (sound.unused other (pc ▸ unused))
  · simpa only [pc] using sound.stopped other outside
  · simpa only [pc] using (sound.emptied other isOver).imp_left (msgs other)

omit [Inhabited α] in
/-- The coroutine of a plain operation goes on to a point inside its scope. -/
private theorem goto
    {message : MsgId}
    {pc : Plain.Pc}
    (sound : Sound program state)
    (plain : IsPlain program message)
    (inside : ∀ exit, pc ≠ .over exit)
    (begun : pc ≠ .idle) :
    Sound program (state.goto message pc) := by
  refine ⟨fun other running => ?_, fun other otherPlain idle => ?_,
    fun other exit isOver => ?_, sound.unused, sound.stopped, sound.emptied⟩
  · rcases eq_or_ne other message with rfl | different
    · exact plain
    · exact sound.plain other (by simpa [Guarded.goto, different] using running)
  · rcases eq_or_ne other message with rfl | different
    · exact absurd (by simpa [Guarded.goto] using idle) begun
    · exact sound.idle other otherPlain (by simpa [Guarded.goto, different] using idle)
  · rcases eq_or_ne other message with rfl | different
    · exact absurd (by simpa [Guarded.goto] using isOver) (inside exit)
    · exact sound.ended other exit (by simpa [Guarded.goto, different] using isOver)

omit [Inhabited α] in
/-- The coroutine of a plain operation is over, and its message was dropped or was never
entered. -/
private theorem ends
    {message : MsgId}
    {exit : Exit}
    (sound : Sound program state)
    (plain : IsPlain program message)
    (ended : state.selecting.system.phase message = .fresh ∨
      state.selecting.system.dropped message = true) :
    Sound program (state.goto message (.over exit)) := by
  refine ⟨fun other running => ?_, fun other otherPlain idle => ?_,
    fun other otherExit isOver => ?_, sound.unused, sound.stopped, sound.emptied⟩
  · rcases eq_or_ne other message with rfl | different
    · exact plain
    · exact sound.plain other (by simpa [Guarded.goto, different] using running)
  · rcases eq_or_ne other message with rfl | different
    · simp [Guarded.goto] at idle
    · exact sound.idle other otherPlain (by simpa [Guarded.goto, different] using idle)
  · rcases eq_or_ne other message with rfl | different
    · exact ended
    · exact sound.ended other otherExit (by simpa [Guarded.goto, different] using isOver)

omit [Inhabited α] in
/-- A select is at another stage. -/
private theorem enter
    {select : SelectId}
    {stage : Select.Stage}
    (sound : Sound program state)
    (stopped : state.selecting.pc select = .idle ∨ (state.selecting.pc select).Ended)
    (emptied : state.selecting.msgs select = [] ∨
      ∃ error, state.selecting.pc select = .threw error) :
    Sound program (state.enter select stage) := by
  refine ⟨sound.plain, sound.idle, sound.ended, sound.unused, fun other outside => ?_,
    fun other isOver => ?_⟩
  · rcases eq_or_ne other select with rfl | different
    · exact stopped
    · exact sound.stopped other (by simpa [Guarded.enter, different] using outside)
  · rcases eq_or_ne other select with rfl | different
    · exact emptied
    · exact sound.emptied other (by simpa [Guarded.enter, different] using isOver)

theorem step
    {label : Label}
    (sound : Sound program state)
    (reached : Reached selects state)
    (stepped : Guarded.step selects state label = some after) :
    Sound program after := by
  have reached := selecting_reached reached
  cases move_of_step stepped with
  | @call message selecting _ plain acted =>
      have calling : Sound program (state.goto message .calling) :=
        sound.goto plain (by simp) (by simp)
      refine calling.beside reached acted ?_ rfl (by simp)
      rintro other ⟨rfl⟩ _
      simp [Guarded.goto]
  | @nowait message selecting oneshot acted =>
      refine sound.beside reached acted ?_ rfl (by simp)
      rintro other ⟨rfl⟩ plain
      simp [plain.2] at oneshot
  | turn acted => exact sound.beside reached acted (by simp) rfl (by simp)
  | @go label message pc _ running inside begun =>
      refine sound.goto (sound.plain message ?_) inside begun
      rcases running with calling | aquires
      · simp [calling]
      · simp [aquires]
  | unborn idle plain => exact sound.ends plain (.inl (sound.idle _ plain idle))
  | @drop message exit selecting leaves acted =>
      have kept := sound.beside reached acted (by simp) rfl (by simp)
      have plain := sound.plain message (by simp [leaves])
      refine kept.ends plain (.inr ?_)
      cases Selecting.move_of_step acted with
      | drop _ dropping =>
          obtain ⟨_, _, rfl⟩ := System.step_drop dropping
          simp
      | go own => simp [Selecting.Label.body?] at own
  | body own _ acted => exact sound.body reached own acted
  | dropNext _ acted => exact sound.dropNext reached acted
  | @finish select stage empty drops =>
      refine sound.enter (sound.stopped select ?_) (.inl empty)
      rcases drops with leaves | destructs
      · simp [leaves]
      · simp [destructs]
  | @destruct select ends =>
      rcases ends with isOver | ⟨_, unused⟩
      · exact sound.enter (sound.stopped select (by simp [isOver]))
          (sound.emptied select (by simp [isOver, Select.Stage.Over]))
      · exact sound.enter (.inl unused) (.inl (sound.unused select unused))

theorem of_reached (reached : Reached selects state) : Sound program state := by
  refine reached.invariant_of_reachable (Sound program) .initial ?_
  intro before label after reached sound stepped
  exact sound.step reached stepped

end Sound

/-! ## Nothing is left -/

/-- What becomes of an operation that is over: a select has nothing left to drop. -/
def Done (state : Guarded α) : Operation → Prop
  | .plain message => Over state (.plain message)
  | .select select => Over state (.select select) ∧ state.selecting.msgs select = []

theorem Done.step
    {label : Label}
    {operation : Operation}
    (done : Done state operation)
    (stepped : Guarded.step selects state label = some after) :
    Done after operation := by
  cases operation with
  | plain message =>
      obtain ⟨exit, isOver⟩ := done
      refine ⟨exit, ?_⟩
      have apart : ∀ other, state.plain other ≠ .over exit → message ≠ other := by
        rintro other inside rfl
        exact inside isOver
      cases move_of_step stepped with
      | @call other _ idle => simpa [apart other (by simp [idle])] using isOver
      | @go label other pc _ running =>
          have different : message ≠ other := by
            rcases running with calling | aquires
            · exact apart other (by simp [calling])
            · exact apart other (by simp [aquires])
          simpa [goto, different] using isOver
      | @unborn other idle => simpa [goto, apart other (by simp [idle])] using isOver
      | @drop other _ _ leaves => simpa [apart other (by simp [leaves])] using isOver
      | _ => exact isOver
  | select select =>
      obtain ⟨isOver, empty⟩ := done
      have apart : ∀ other, ¬(state.stage other).Over → select ≠ other := by
        rintro other inside rfl
        exact inside isOver
      -- a step that is neither of the select nor drops its messages
      have kept : ∀ {action selecting},
          Selecting.step selects state.selecting action = some selecting →
          action.body? = none → (∀ other, action ≠ .dropNext other) →
            selecting.msgs select = [] := by
        intro action selecting acted body drops
        rw [(same_of_step acted body drops).2]
        exact empty
      cases move_of_step stepped with
      | call _ _ acted => exact ⟨isOver, kept acted rfl (by simp)⟩
      | nowait _ acted => exact ⟨isOver, kept acted rfl (by simp)⟩
      | turn acted => exact ⟨isOver, kept acted rfl (by simp)⟩
      | go => exact ⟨isOver, empty⟩
      | unborn => exact ⟨isOver, empty⟩
      | drop _ acted => exact ⟨isOver, kept acted rfl (by simp)⟩
      | @body label other selecting own running acted =>
          have different := apart other (by simp [running, Select.Stage.Over])
          refine ⟨by simpa [Over, different] using isOver, ?_⟩
          rw [(beside_of_step acted (.inl own) different).2]
          exact empty
      | @dropNext other selecting _ acted =>
          refine ⟨isOver, ?_⟩
          rcases eq_or_ne select other with rfl | different
          · cases Selecting.move_of_step acted with
            | go own => simp [Selecting.Label.body?] at own
            | dropNext _ next => simp [empty] at next
          · rw [(beside_of_step acted (.inr rfl) different).2]
            exact empty
      | @finish other stage _ _ ends =>
          refine ⟨?_, empty⟩
          rcases eq_or_ne select other with rfl | different
          · simpa [Over, enter] using ends
          · simpa [Over, enter, different] using isOver
      | @destruct other =>
          refine ⟨?_, empty⟩
          rcases eq_or_ne select other with rfl | different
          · simp [Over, enter, Select.Stage.Over]
          · simpa [Over, enter, different] using isOver

/-- The messages of an operation that is over were dropped or never entered. -/
theorem Done.dropped
    {operation : Operation}
    {message : MsgId}
    (done : Done state operation)
    (reached : Reached selects state)
    (uses : operation.Uses program message) :
    state.selecting.system.phase message = .fresh ∨
      state.selecting.system.dropped message = true := by
  cases operation with
  | plain own =>
      obtain rfl : message = own := uses
      obtain ⟨exit, isOver⟩ := done
      exact (Sound.of_reached reached).ended message exit isOver
  | select select =>
      rcases eq_or_ne (state.selecting.system.phase message) .fresh with fresh | entered
      · exact .inl fresh
      · have tracked := Selecting.Tracked.of_reached (selecting_reached reached)
        rcases tracked.listed message select uses entered with member | gone
        · simp [done.2] at member
        · exact .inr gone

theorem Done.quiet
    {operation : Operation}
    (done : Done state operation)
    (reached : Reached selects state) :
    Selecting.Quiet program state.selecting operation := by
  have sound := Sound.of_reached reached
  have systemReached := Selecting.system_reached (selecting_reached reached)
  refine ⟨fun message uses => ?_, fun message select uses owned deciding => ?_⟩
  · rcases done.dropped reached uses with fresh | gone
    · exact (WellFormed.of_reached systemReached).absent_of_fresh fresh
    · exact System.absent_of_dropped systemReached gone
  · cases operation with
    | plain own =>
        obtain rfl : message = own := uses
        obtain ⟨exit, isOver⟩ := done
        have plain := sound.plain message (by simp [isOver])
        simp [plain.1] at owned
    | select own =>
        obtain rfl : own = select := Option.some.inj (uses.symm.trans owned)
        have isOver : (state.stage own).Over := done.1
        rcases sound.stopped own (by rintro body; simp [body, Select.Stage.Over] at isOver) with
          unused | ended
        · simp [deciding] at unused
        · simp [deciding, Select.Pc.Ended] at ended

/-- From this state on, the channels know no message of the operation, and what
only the operation points to is neither read nor written by any turn. -/
def LeavesNothing (selects : Selects program) (state : Guarded α)
    (operation : Operation) : Prop :=
  ∀ later, Lib.Reachable (Guarded.step selects) state later →
    (∀ message, operation.Uses program message →
      later.selecting.system.Absent message) ∧
      ∀ places, operation.Owns program places →
        later.selecting.system.Blind program places ∧
          World.SameAt places state.selecting.system.world later.selecting.system.world

theorem Done.leavesNothing
    {operation : Operation}
    (done : Done state operation)
    (reached : Reached selects state) :
    LeavesNothing selects state operation := by
  have still : ∀ later, Lib.Reachable (Guarded.step selects) state later →
      Selecting.Quiet program later.selecting operation := by
    intro later continued
    have doneLater : Done later operation := by
      refine continued.invariant_of_reachable (Done · operation) done ?_
      intro before label next _ doneBefore stepped
      exact doneBefore.step stepped
    exact doneLater.quiet (reached.trans continued)
  intro later continued
  refine ⟨(still later continued).absent, fun places owns =>
    ⟨(still later continued).blind (selecting_reached (reached.trans continued)) owns, ?_⟩⟩
  refine continued.invariant_of_reachable (fun later => World.SameAt places
    state.selecting.system.world later.selecting.system.world) (.refl _) ?_
  intro before label next between same stepped
  rcases step_selecting stepped with idle | ⟨action, acted, -⟩
  · rwa [idle]
  · exact same.trans ((still before between).sameAt
      (selecting_reached (reached.trans between)) owns acted)

/-- The step is a turn of a call that looks for a partner and comes upon a case
of its own select. -/
def Clashes (program : Program α) (state : Guarded α) : Label → Prop
  | .turn id => Selecting.Clashes program state.selecting (.turn id)
  | _ => False

instance (label : Label) : Decidable (Clashes program state label) := by
  cases label <;> unfold Clashes <;> infer_instance

theorem calm_of_path
    {transitions : List (Lib.Transition (Guarded α) Label)}
    (path : Lib.Path (Guarded.step selects) (Guarded.initial program) transitions state)
    (unclashed : ∀ transition ∈ transitions,
      ¬Clashes program transition.before transition.label) :
    Selecting.Calm state.selecting := by
  let Holds : Guarded α → Prop := fun state => Selecting.Calm state.selecting
  refine (path.guarded_invariant unclashed ?_ ?_ : Holds state)
  · exact .initial
  intro before label after reached calm quiet stepped
  change Selecting.Calm before.selecting at calm
  rcases step_selecting stepped with same | ⟨action, acted, turns⟩
  · rwa [← same] at calm
  · refine calm.step (WellFormed.of_reached
      (Selecting.system_reached (selecting_reached reached))) ?_ acted
    intro clashes
    cases action with
    | turn id =>
        obtain rfl := turns id rfl
        exact quiet clashes
    | _ => exact clashes

/-- Unless its select has thrown, an operation that is over is done. -/
theorem done_of_over
    {operation : Operation}
    (reached : Reached selects state)
    (calm : Selecting.Calm state.selecting)
    (isOver : Over state operation) :
    Done state operation := by
  cases operation with
  | plain message => exact isOver
  | select select =>
      rcases (Sound.of_reached reached).emptied select isOver with empty | ⟨error, threw⟩
      · exact ⟨isOver, empty⟩
      · exact absurd threw (calm.pc select error)

/-- Where no select sends and receives on one channel, every operation that is over has
left nothing behind. -/
theorem leavesNothing_of_unmixed
    {operation : Operation}
    (unmixed : ∀ sender recver, program.SameSelect sender recver →
      (program.msg sender).side = .send → (program.msg recver).side = .recv →
        (program.msg sender).chan ≠ (program.msg recver).chan)
    (reached : Reached selects state)
    (isOver : Over state operation) :
    LeavesNothing selects state operation := by
  obtain ⟨transitions, path⟩ := reached
  have calm := calm_of_path path fun transition member => by
    have before := (path.mem_transition member).1
    have wellFormed := WellFormed.of_reached
      (Selecting.system_reached (selecting_reached before))
    cases transition.label with
    | turn id =>
        have unclashed : ¬Selecting.Clashes program transition.before.selecting (.turn id) :=
          Selecting.unclashed_of_unmixed unmixed wellFormed
        exact unclashed
    | _ => exact id
  exact (done_of_over ⟨_, path⟩ calm isOver).leavesNothing ⟨_, path⟩

/-- The message that a step drops. -/
def dropping (state : Guarded α) : Label → Option MsgId
  | .drop message => some message
  | .dropNext select => (state.selecting.msgs select).head?
  | _ => none

/-- A step that drops a message is a drop in the channels. -/
theorem step_dropping
    {label : Label}
    {message : MsgId}
    (stepped : Guarded.step selects state label = some after)
    (drops : dropping state label = some message) :
    System.step program state.selecting.system (.drop message) =
      some after.selecting.system := by
  cases move_of_step stepped with
  | @drop other _ _ _ acted =>
      obtain rfl : other = message := by simpa [dropping] using drops
      cases Selecting.move_of_step acted with
      | drop _ dropped => exact dropped
      | go own => simp [Selecting.Label.body?] at own
  | dropNext _ acted =>
      cases Selecting.move_of_step acted with
      | @dropNext _ other msgs _ _ next dropped =>
          obtain rfl : other = message := by simpa [dropping, next] using drops
          exact dropped
      | go own => simp [Selecting.Label.body?] at own
  | go own => rcases own with rfl | rfl | rfl <;> simp [dropping] at drops
  | _ => simp [dropping] at drops

/-- Unless a call comes upon a case of its own select, an operation that is over
has dropped its messages and left nothing behind: the channels know none of them, and no
later turn reads or writes what only they point to.  A drop takes its message out of
the queues and leaves the rest of them, in their order, and all buffers. -/
theorem finished_leaves_nothing
    {transitions : List (Lib.Transition (Guarded α) Label)}
    (path : Lib.Path (Guarded.step selects) (Guarded.initial program) transitions state)
    (unclashed : ∀ transition ∈ transitions,
      ¬Clashes program transition.before transition.label) :
    (∀ operation, Over state operation →
      (∀ message, operation.Uses program message →
        state.selecting.system.phase message = .fresh ∨
          state.selecting.system.dropped message = true) ∧
      LeavesNothing selects state operation) ∧
      ∀ label after message, Guarded.step selects state label = some after →
        dropping state label = some message → ∀ id,
          (∀ side, (after.selecting.system.chan id).queue side =
            ((state.selecting.system.chan id).queue side).filter (· ≠ message)) ∧
          (after.selecting.system.chan id).buffer =
            (state.selecting.system.chan id).buffer := by
  have reached : Reached selects state := ⟨_, path⟩
  have calm := calm_of_path path unclashed
  constructor
  · intro operation isOver
    have done := done_of_over reached calm isOver
    exact ⟨fun message uses => done.dropped reached uses, done.leavesNothing reached⟩
  · intro label after message stepped drops
    have dropped := step_dropping stepped drops
    exact System.drop_spec
      (WellFormed.of_reached (Selecting.system_reached (selecting_reached reached))) dropped

end

/-- The coroutine of the send 0 waits until its frame is destroyed.  The coroutine of the
send 4 meets a case of the select, and both end and drop their messages. -/
private def servedAndDropped : List Label :=
  [.call 0, .turn 0, .turn 0, .resume 0, .destroy 0, .drop 0] ++
    [.start 0 [2, 3], .poll 0].map Label.body ++ [.turn 0, .turn 0] ++
    [.resume 0, .check 0, .poll 0].map Label.body ++ [.turn 1, .turn 1] ++
    [.resume 0, .check 0, .poll 0, .decide 0].map Label.body ++
    [.call 4, .turn 1, .turn 1, .resume 4, .wake 4, .drop 4, .body (.wake 0), .dropNext 0,
      .dropNext 0, .finish 0]

theorem finished_leaves_nothing_sample :
    let state := Lib.runFrom (step Selecting.sample) (initial .sample) servedAndDropped
    (state.plain 0 = .over .destroyed ∧ LeavesNothing Selecting.sample state (.plain 0)) ∧
      (state.plain 4 = .over .returned ∧ LeavesNothing Selecting.sample state (.plain 4)) ∧
        state.stage 0 = .over ∧ LeavesNothing Selecting.sample state (.select 0) := by
  intro state
  have path : Lib.Path (step Selecting.sample) (initial .sample)
      (Lib.trace (step Selecting.sample) (initial .sample) servedAndDropped) state :=
    Lib.path_runFrom (by decide)
  have destroyed : state.plain 0 = .over .destroyed := by decide
  have returned : state.plain 4 = .over .returned := by decide
  have ended : state.stage 0 = .over := by decide
  have leaves := (finished_leaves_nothing path (by decide)).1
  exact ⟨⟨destroyed, (leaves (.plain 0) ⟨_, destroyed⟩).2⟩,
    ⟨returned, (leaves (.plain 4) ⟨_, returned⟩).2⟩,
    ended, (leaves (.select 0) (by simp [Over, ended, Select.Stage.Over])).2⟩

/-- Messages 0 and 1 are a receive and a send of select 0 on channel 0, which has
no buffer; the other messages are plain sends on channel 1. -/
def bothWays : Program Nat where
  capacity _ := 0
  msg
    | 0 => ⟨.multiplex (some 0) 0 ⟨20, by decide⟩, 0, .recv, false⟩
    | 1 => ⟨.multiplex (some 1) 0 ⟨21, by decide⟩, 0, .send, false⟩
    | other => ⟨.simplex (some other) true, 1, .send, false⟩
  mem var := var + 100
  sends_data message _ := by
    rcases message with _ | _ | other <;> simp [Variant.data]

/-- The select of that program, without a default. -/
def selectBothWays : Selects bothWays where
  listeners select := if select = 0 then [0, 1] else []
  defaultKey _ := none
  mem_listeners select message := by
    rcases message with _ | _ | other <;> by_cases select = 0 <;>
      simp_all [bothWays, Program.select?, Variant.select?, eq_comm]

/-- The send comes upon the linked receive of its own select. -/
private def meetsItself : List Label :=
  [.start 0 [0, 1], .poll 0].map Label.body ++ [.turn 0, .turn 0] ++
    [.resume 0, .check 0, .poll 0].map Label.body ++ [.turn 0, .turn 0, .body (.resume 0)]

/-- `operator()` has thrown, and its receive is still linked. -/
theorem thrown_select_stays_linked :
    ¬∀ state : Guarded Nat, Reached selectBothWays state →
      ∀ operation, Over state operation → LeavesNothing selectBothWays state operation := by
  intro leaves
  let state := Lib.runFrom (step selectBothWays) (initial bothWays) meetsItself
  have threw : state.stage 0 = .over := by decide
  have absent := (leaves state (Lib.Reachable.runFrom _ _ _) (.select 0)
    (by simp [Over, threw, Select.Stage.Over]) state .refl).1 0 rfl
  have linked : 0 ∈ (state.selecting.system.chan 0).queue .recv := by decide
  exact absent.unlinked 0 .recv linked

end Guarded

end Channel
end Cgo
