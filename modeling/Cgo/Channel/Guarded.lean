import Cgo.Channel.Select

/-!
# Operations and their guards

A plain send or receive is a coroutine that makes a guard, enters its message into the
channel and awaits its semaphore; the guard's destructor drops the message, when the body
ends and when the frame is destroyed.  `operator()` of a select makes its guard after the
loop over its listeners, so a listener that throws ends it without `_drop`, and `~Select`
calls `_drop` again.

The steps are those of channels and selects, each taken where the coroutine or the
destructor that makes it stands.
-/

namespace Cgo
namespace Channel

variable {α : Type}

/-- How the scope of a coroutine is left. -/
inductive Exit
  | returned
  | threw (error : String)
  /-- The frame was destroyed at a suspension. -/
  | destroyed
  deriving DecidableEq

/-- Where the coroutine of a plain send or receive stands. -/
inductive Plain.Pc
  | idle
  /-- `recv_from` or `send_to` has not ended. -/
  | calling
  /-- `co_await signal.aquire()` -/
  | aquire
  /-- The scope is being left, and the destructor of `guard` has not run `drop`. -/
  | leaving (exit : Exit)
  /-- The coroutine has ended, or its frame is gone. -/
  | over (exit : Exit)
  deriving DecidableEq

/-- How far the life of a select has come. -/
inductive Select.Stage
  /-- The body of `operator()` has not ended. -/
  | body
  /-- The destructor of its guard runs `_drop`. -/
  | leaving
  /-- `operator()` has ended. -/
  | over
  /-- `~Select` runs `_drop`. -/
  | destructing
  | gone
  deriving DecidableEq

/-- `operator()` has ended, or `~Select` runs or has run. -/
def Select.Stage.Over : Select.Stage → Prop
  | .body => False
  | .leaving => False
  | _ => True

/-- The stage that a point of `operator()` leads to: the guard is there once the loop over
the listeners has ended without an exception. -/
def Select.Pc.stage : Select.Pc → Select.Stage
  | .returned _ => .leaving
  | .destroyed => .leaving
  | .threw _ => .over
  | _ => .body

/-- Channels and selects, and where the operations on them stand. -/
structure Guarded (α : Type) where
  selecting : Selecting α
  plain : MsgId → Plain.Pc
  stage : SelectId → Select.Stage

namespace Guarded

inductive Label
  /-- The coroutine of a plain message starts: it makes the guard, and `recv_from` or
  `send_to` takes the lock. -/
  | call (message : MsgId)
  /-- The same of a nowait send, which is no coroutine and makes no guard. -/
  | nowait (message : MsgId)
  /-- The call that holds the channel's lock makes its next turn. -/
  | turn (chan : ChanId)
  /-- `recv_from` or `send_to` has returned or thrown. -/
  | resume (message : MsgId)
  /-- The semaphore lets the coroutine go on. -/
  | wake (message : MsgId)
  /-- The frame of the coroutine is destroyed at a suspension. -/
  | destroy (message : MsgId)
  /-- The destructor of the guard runs `drop`. -/
  | drop (message : MsgId)
  /-- A step of `operator()`. -/
  | body (label : Selecting.Label)
  /-- `_drop` drops its next message. -/
  | dropNext (select : SelectId)
  /-- `_drop` has dropped all. -/
  | finish (select : SelectId)
  /-- `~Select` begins. -/
  | destruct (select : SelectId)

variable {program : Program α}

/-- The state before the run. -/
def initial (program : Program α) : Guarded α where
  selecting := .initial program
  plain := fun _ => .idle
  stage := fun _ => .body

/-- The state with a plain operation at another point. -/
def goto (state : Guarded α) (message : MsgId) (pc : Plain.Pc) : Guarded α :=
  { state with plain := Function.update state.plain message pc }

/-- The state with a select at another stage. -/
def enter (state : Guarded α) (select : SelectId) (stage : Select.Stage) : Guarded α :=
  { state with stage := Function.update state.stage select stage }

/-- The message belongs to the coroutine of a plain send or receive. -/
def IsPlain (program : Program α) (message : MsgId) : Prop :=
  program.select? message = none ∧ (program.msg message).oneshot = false

instance (program : Program α) (message : MsgId) : Decidable (IsPlain program message) := by
  unfold IsPlain
  infer_instance

variable [Inhabited α]

/-- A step of channels and selects. -/
def act (selects : Selects program) (state : Guarded α) (action : Selecting.Label) :
    Option (Guarded α) :=
  (Selecting.step selects state.selecting action).map fun selecting =>
    { state with selecting }

/-- The next state, or `none` when the step is not enabled. -/
def step (selects : Selects program) (state : Guarded α) : Label → Option (Guarded α)
  | .call message =>
      if state.plain message = .idle ∧ IsPlain program message then
        (state.act selects (.enter message)).map fun entered => entered.goto message .calling
      else none
  | .nowait message =>
      if (program.msg message).oneshot = true then state.act selects (.enter message)
      else none
  | .turn chan => state.act selects (.turn chan)
  | .resume message =>
      if state.plain message = .calling then
        match state.selecting.system.phase message with
        | .returned _ => some (state.goto message .aquire)
        | .threw error => some (state.goto message (.leaving (.threw error)))
        | _ => none
      else none
  | .wake message =>
      if state.plain message = .aquire ∧ 0 < state.selecting.system.world.signal message then
        some (state.goto message (.leaving .returned))
      else none
  | .destroy message =>
      match state.plain message with
      | .idle =>
          if IsPlain program message then some (state.goto message (.over .destroyed)) else none
      | .aquire => some (state.goto message (.leaving .destroyed))
      | _ => none
  | .drop message =>
      match state.plain message with
      | .leaving exit =>
          (state.act selects (.drop message)).map fun dropped =>
            dropped.goto message (.over exit)
      | _ => none
  | .body label =>
      match label.body? with
      | none => none
      | some select =>
          if state.stage select = .body then
            (state.act selects label).map fun after =>
              after.enter select (after.selecting.pc select).stage
          else none
  | .dropNext select =>
      if state.stage select = .leaving ∨ state.stage select = .destructing then
        state.act selects (.dropNext select)
      else none
  | .finish select =>
      if state.selecting.msgs select = [] then
        match state.stage select with
        | .leaving => some (state.enter select .over)
        | .destructing => some (state.enter select .gone)
        | _ => none
      else none
  | .destruct select =>
      if state.stage select = .over ∨
          state.stage select = .body ∧ state.selecting.pc select = .idle then
        some (state.enter select .destructing)
      else none

/-- The states that channels, selects and their operations can reach. -/
abbrev Reached (selects : Selects program) (state : Guarded α) : Prop :=
  Lib.Reachable (step selects) (initial program) state

section

variable {selects : Selects program} {state after : Guarded α}

/-- What a step can do. -/
inductive Move (selects : Selects program) (state : Guarded α) : Label → Guarded α → Prop
  | call {message : MsgId} {selecting : Selecting α}
      (idle : state.plain message = .idle)
      (plain : IsPlain program message)
      (acted : Selecting.step selects state.selecting (.enter message) = some selecting) :
      Move selects state (.call message)
        { selecting
          plain := Function.update state.plain message .calling
          stage := state.stage }
  | nowait {message : MsgId} {selecting : Selecting α}
      (oneshot : (program.msg message).oneshot = true)
      (acted : Selecting.step selects state.selecting (.enter message) = some selecting) :
      Move selects state (.nowait message) { state with selecting }
  | turn {chan : ChanId} {selecting : Selecting α}
      (acted : Selecting.step selects state.selecting (.turn chan) = some selecting) :
      Move selects state (.turn chan) { state with selecting }
  | go {label : Label} {message : MsgId} {pc : Plain.Pc}
      (own : label = .resume message ∨ label = .wake message ∨ label = .destroy message)
      (running : state.plain message = .calling ∨ state.plain message = .aquire)
      (inside : ∀ exit, pc ≠ .over exit)
      (begun : pc ≠ .idle) :
      Move selects state label (state.goto message pc)
  | unborn {message : MsgId}
      (idle : state.plain message = .idle)
      (plain : IsPlain program message) :
      Move selects state (.destroy message) (state.goto message (.over .destroyed))
  | drop {message : MsgId} {exit : Exit} {selecting : Selecting α}
      (leaves : state.plain message = .leaving exit)
      (acted : Selecting.step selects state.selecting (.drop message) = some selecting) :
      Move selects state (.drop message)
        { selecting
          plain := Function.update state.plain message (.over exit)
          stage := state.stage }
  | body {label : Selecting.Label} {select : SelectId} {selecting : Selecting α}
      (own : label.body? = some select)
      (running : state.stage select = .body)
      (acted : Selecting.step selects state.selecting label = some selecting) :
      Move selects state (.body label)
        { selecting
          plain := state.plain
          stage := Function.update state.stage select (selecting.pc select).stage }
  | dropNext {select : SelectId} {selecting : Selecting α}
      (drops : state.stage select = .leaving ∨ state.stage select = .destructing)
      (acted : Selecting.step selects state.selecting (.dropNext select) = some selecting) :
      Move selects state (.dropNext select) { state with selecting }
  | finish {select : SelectId} {stage : Select.Stage}
      (empty : state.selecting.msgs select = [])
      (drops : state.stage select = .leaving ∨ state.stage select = .destructing)
      (ends : stage.Over) :
      Move selects state (.finish select) (state.enter select stage)
  | destruct {select : SelectId}
      (ends : state.stage select = .over ∨
        state.stage select = .body ∧ state.selecting.pc select = .idle) :
      Move selects state (.destruct select) (state.enter select .destructing)

theorem act_eq
    {action : Selecting.Label}
    (acted : state.act selects action = some after) :
    ∃ selecting, Selecting.step selects state.selecting action = some selecting ∧
      after = { state with selecting } := by
  obtain ⟨selecting, isStep, rfl⟩ := Option.map_eq_some_iff.mp acted
  exact ⟨selecting, isStep, rfl⟩

theorem move_of_step
    {label : Label}
    (stepped : step selects state label = some after) :
    Move selects state label after := by
  cases label with
  | call message =>
      simp only [step] at stepped
      split at stepped
      · next enabled =>
          obtain ⟨between, acted, rfl⟩ := Option.map_eq_some_iff.mp stepped
          obtain ⟨selecting, isStep, rfl⟩ := act_eq acted
          exact .call enabled.1 enabled.2 isStep
      · cases stepped
  | nowait message =>
      simp only [step] at stepped
      split at stepped
      · next oneshot =>
          obtain ⟨selecting, isStep, rfl⟩ := act_eq stepped
          exact .nowait oneshot isStep
      · cases stepped
  | turn chan =>
      obtain ⟨selecting, isStep, rfl⟩ := act_eq stepped
      exact .turn isStep
  | resume message =>
      simp only [step] at stepped
      split at stepped
      · next calling =>
          split at stepped
          · obtain rfl := Option.some.inj stepped
            exact .go (by simp) (.inl calling) (by simp) (by simp)
          · obtain rfl := Option.some.inj stepped
            exact .go (by simp) (.inl calling) (by simp) (by simp)
          · cases stepped
      · cases stepped
  | wake message =>
      simp only [step] at stepped
      split at stepped
      · next enabled =>
          obtain rfl := Option.some.inj stepped
          exact .go (by simp) (.inr enabled.1) (by simp) (by simp)
      · cases stepped
  | destroy message =>
      simp only [step] at stepped
      split at stepped
      · next idle =>
          split at stepped
          · next plain =>
              obtain rfl := Option.some.inj stepped
              exact .unborn idle plain
          · cases stepped
      · next aquires =>
          obtain rfl := Option.some.inj stepped
          exact .go (by simp) (.inr aquires) (by simp) (by simp)
      · cases stepped
  | drop message =>
      simp only [step] at stepped
      split at stepped
      · next leaves =>
          obtain ⟨between, acted, rfl⟩ := Option.map_eq_some_iff.mp stepped
          obtain ⟨selecting, isStep, rfl⟩ := act_eq acted
          exact .drop leaves isStep
      · cases stepped
  | body label =>
      simp only [step] at stepped
      split at stepped
      · cases stepped
      · next own =>
          split at stepped
          · next running =>
              obtain ⟨between, acted, rfl⟩ := Option.map_eq_some_iff.mp stepped
              obtain ⟨selecting, isStep, rfl⟩ := act_eq acted
              exact .body own running isStep
          · cases stepped
  | dropNext select =>
      simp only [step] at stepped
      split at stepped
      · next drops =>
          obtain ⟨selecting, isStep, rfl⟩ := act_eq stepped
          exact .dropNext drops isStep
      · cases stepped
  | finish select =>
      simp only [step] at stepped
      split at stepped
      · next empty =>
          split at stepped
          · next leaves =>
              obtain rfl := Option.some.inj stepped
              exact .finish empty (.inl leaves) trivial
          · next destructs =>
              obtain rfl := Option.some.inj stepped
              exact .finish empty (.inr destructs) trivial
          · cases stepped
      · cases stepped
  | destruct select =>
      simp only [step] at stepped
      split at stepped
      · next ends =>
          obtain rfl := Option.some.inj stepped
          exact .destruct ends
      · cases stepped

/-- A select that has made a step has begun. -/
theorem begun_of_body
    {before after : Selecting α}
    {action : Selecting.Label}
    {select : SelectId}
    (stepped : Selecting.step selects before action = some after)
    (own : action.body? = some select) :
    after.pc select ≠ .idle := by
  cases Selecting.move_of_step stepped with
  | enter => simp [Selecting.Label.body?] at own
  | turn => simp [Selecting.Label.body?] at own
  | drop => simp [Selecting.Label.body?] at own
  | go body _ _ _ _ begun =>
      obtain rfl := Option.some.inj (own.symm.trans body)
      simpa [Selecting.goto] using begun
  | poll =>
      obtain rfl : _ = select := by simpa [Selecting.Label.body?] using own
      simp
  | fire =>
      obtain rfl : _ = select := by simpa [Selecting.Label.body?] using own
      simp
  | dropNext => simp [Selecting.Label.body?] at own

/-- A step of one `operator()` or of one `_drop` leaves the other selects as they are. -/
theorem beside_of_step
    {before after : Selecting α}
    {action : Selecting.Label}
    {select other : SelectId}
    (stepped : Selecting.step selects before action = some after)
    (own : action.body? = some select ∨ action = .dropNext select)
    (apart : other ≠ select) :
    after.pc other = before.pc other ∧ after.msgs other = before.msgs other := by
  cases Selecting.move_of_step stepped with
  | enter => simp [Selecting.Label.body?] at own
  | turn => simp [Selecting.Label.body?] at own
  | drop => simp [Selecting.Label.body?] at own
  | go body =>
      rcases own with own | rfl
      · obtain rfl := Option.some.inj (own.symm.trans body)
        exact ⟨Function.update_of_ne apart _ _, rfl⟩
      · simp [Selecting.Label.body?] at body
  | poll =>
      obtain rfl : select = _ := by simpa [Selecting.Label.body?, eq_comm] using own
      exact ⟨Function.update_of_ne apart _ _, Function.update_of_ne apart _ _⟩
  | fire =>
      obtain rfl : select = _ := by simpa [Selecting.Label.body?, eq_comm] using own
      exact ⟨Function.update_of_ne apart _ _, rfl⟩
  | dropNext =>
      obtain rfl : select = _ := by simpa [Selecting.Label.body?, eq_comm] using own
      exact ⟨rfl, Function.update_of_ne apart _ _⟩

/-- A step of the channels beside the selects leaves them all as they are. -/
theorem same_of_step
    {before after : Selecting α}
    {action : Selecting.Label}
    (stepped : Selecting.step selects before action = some after)
    (beside : action.body? = none)
    (drops : ∀ select, action ≠ .dropNext select) :
    after.pc = before.pc ∧ after.msgs = before.msgs := by
  cases Selecting.move_of_step stepped with
  | enter => exact ⟨rfl, rfl⟩
  | turn => exact ⟨rfl, rfl⟩
  | drop => exact ⟨rfl, rfl⟩
  | go body =>
      rw [beside] at body
      cases body
  | poll => simp [Selecting.Label.body?] at beside
  | fire => simp [Selecting.Label.body?] at beside
  | dropNext => exact absurd rfl (drops _)

/-- What a step does to the channels and selects: nothing, or a step of theirs. -/
theorem step_selecting
    {label : Label}
    (stepped : step selects state label = some after) :
    after.selecting = state.selecting ∨
      ∃ action, Selecting.step selects state.selecting action = some after.selecting ∧
        ∀ id, action = .turn id → label = .turn id := by
  cases move_of_step stepped with
  | call _ _ acted => exact .inr ⟨_, acted, by simp⟩
  | nowait _ acted => exact .inr ⟨_, acted, by simp⟩
  | turn acted => exact .inr ⟨_, acted, fun id same => by simpa using same⟩
  | drop _ acted => exact .inr ⟨_, acted, by simp⟩
  | body own _ acted =>
      refine .inr ⟨_, acted, ?_⟩
      rintro id rfl
      simp [Selecting.Label.body?] at own
  | dropNext _ acted => exact .inr ⟨_, acted, by simp⟩
  | _ => exact .inl rfl

/-- What the operations do, channels and selects can do. -/
theorem selecting_reached (reached : Reached selects state) :
    Selecting.Reached selects state.selecting := by
  refine Lib.Reachable.simulate Guarded.selecting ?_ reached
  intro before label after stepped
  exact (step_selecting stepped).imp_right fun ⟨action, isStep, _⟩ => ⟨action, isStep⟩

end

end Guarded

end Channel
end Cgo
