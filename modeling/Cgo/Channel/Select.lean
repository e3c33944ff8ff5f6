import Cgo.Channel.Delivery

/-!
# Select

`Select::operator()` and `Select::_drop` over the channels.  A select runs its
listeners in the order `std::shuffle` left them in, each of which enters its
case into a channel and then looks at `_key` under the select's lock; then it
takes its default key or waits for its semaphore, and returns `_key`.

The selects of a program run beside its plain operations, and every step of
theirs is a step of the channels or changes nothing there; so what is known of
the channels holds here too.
-/

namespace Cgo
namespace Channel

variable {α : Type}

section

variable [Inhabited α] {program : Program α}

/-- A deal gives a select a key only by committing one of its cases. -/
theorem Deal.key_cases
    {world moved : World α}
    {chan after : Chan α}
    (deal : Deal program world chan moved after)
    (select : SelectId) :
    moved.key select = world.key select ∨
      ∃ message, program.select? message = some select ∧
        moved.key select = program.caseKey? message ∧ moved.commits message ≠ 0 := by
  cases deal with
  | idle => exact .inl rfl
  | @take _ sender =>
      rw [World.take, World.commit_key]
      by_cases owned : program.select? sender = some select
      · exact .inr ⟨sender, owned, if_pos owned, by simp⟩
      · exact .inl (by simp [owned])
  | @hand _ recver =>
      rw [World.hand, World.commit_key]
      by_cases owned : program.select? recver = some select
      · exact .inr ⟨recver, owned, if_pos owned, by simp⟩
      · exact .inl (by simp [owned])
  | @exchange _ src dst =>
      have srcCommitted := World.exchange_commits_src world program src dst
      have dstCommitted := World.exchange_commits_dst world program src dst
      rw [World.exchange, World.commit_key, World.commit_key]
      by_cases dstOwned : program.select? dst = some select
      · exact .inr ⟨dst, dstOwned, if_pos dstOwned, dstCommitted⟩
      · by_cases srcOwned : program.select? src = some select
        · refine .inr ⟨src, srcOwned, ?_, srcCommitted⟩
          rw [if_neg dstOwned, if_pos srcOwned]
        · exact .inl (by simp [dstOwned, srcOwned])

/-- A deal commits no case of a select that has fired. -/
theorem Deal.commits_of_refused
    {world moved : World α}
    {chan after : Chan α}
    {message : MsgId}
    (deal : Deal program world chan moved after)
    (refused : world.accepts program message = false) :
    moved.commits message = world.commits message := by
  have other : ∀ served, world.accepts program served = true → message ≠ served := by
    rintro served accepted rfl
    simp [accepted] at refused
  cases deal with
  | idle => rfl
  | take _ _ accepted => simp [other _ accepted]
  | hand _ _ accepted => simp [other _ accepted]
  | @exchange _ src dst _ sends srcAccepted _ receives dstAccepted =>
      have apart : src ≠ dst := by
        rintro rfl
        rw [sends] at receives
        simp at receives
      simp [World.exchange_commits world program apart, other _ srcAccepted,
        other _ dstAccepted]

end

section

variable [Inhabited α] {program : Program α} {system after : System α}

/-- No case of a select that has fired is committed any more. -/
theorem System.commits_of_fired
    {label : Label}
    {select : SelectId}
    {key : CaseKey}
    {message : MsgId}
    (reached : System.Reached program system)
    (stepped : System.step program system label = some after)
    (fired : system.world.key select = some key)
    (owned : program.select? message = some select) :
    after.world.commits message = system.world.commits message := by
  have wellFormed := WellFormed.of_reached reached
  cases label with
  | enter other =>
      obtain ⟨_, _, rfl⟩ := System.step_enter stepped
      rfl
  | fire other key =>
      obtain ⟨_, rfl⟩ := System.step_fire stepped
      rfl
  | drop other =>
      obtain ⟨_, _, rfl⟩ := System.step_drop stepped
      rfl
  | turn id =>
      obtain ⟨call, outcome, held, turn, rfl⟩ := wellFormed.turn stepped
      refine (wellFormed.deal (Matched.of_reached reached id) held turn).commits_of_refused ?_
      by_contra accepted
      have unfired := (World.accepts_iff program system.world message).mp
        (by simpa using accepted) select owned
      rw [fired] at unfired
      simp at unfired

/-- A select that has a key keeps it. -/
theorem System.key_of_step
    {label : Label}
    {select : SelectId}
    {key : CaseKey}
    (reached : System.Reached program system)
    (stepped : System.step program system label = some after)
    (fired : system.world.key select = some key) :
    after.world.key select = some key := by
  have wellFormed := WellFormed.of_reached reached
  have kept := fun message (owned : program.select? message = some select) =>
    System.commits_of_fired reached stepped fired owned
  cases label with
  | enter other =>
      obtain ⟨_, _, rfl⟩ := System.step_enter stepped
      exact fired
  | fire other otherKey =>
      obtain ⟨unfired, rfl⟩ := System.step_fire stepped
      have different : select ≠ other := by
        rintro rfl
        rw [fired] at unfired
        simp at unfired
      simpa [different] using fired
  | drop other =>
      obtain ⟨_, _, rfl⟩ := System.step_drop stepped
      exact fired
  | turn id =>
      obtain ⟨call, outcome, held, turn, rfl⟩ := wellFormed.turn stepped
      have deal := wellFormed.deal (Matched.of_reached reached id) held turn
      rcases deal.key_cases select with same | ⟨message, owned, isKey, committed⟩
      · exact same.trans fired
      · have committedBefore : system.world.commits message ≠ 0 := by
          rw [← kept message owned]
          exact committed
        have before := (Delivered.of_reached reached).ledger.fired message select
          committedBefore owned
        exact isKey.trans (before.symm.trans fired)

/-- Where the key of a select comes from: from its committed case, or from its
default branch, and then no case is committed. -/
def System.KeyOrigin (program : Program α) (defaultKey : SelectId → Option CaseKey)
    (system : System α) : Prop :=
  ∀ select key, system.world.key select = some key →
    (∃ message, program.select? message = some select ∧
      program.caseKey? message = some key ∧ system.world.commits message ≠ 0) ∨
    (defaultKey select = some key ∧
      ∀ message, program.select? message = some select → system.world.commits message = 0)

theorem System.KeyOrigin.step
    {defaultKey : SelectId → Option CaseKey}
    {label : Label}
    (origin : system.KeyOrigin program defaultKey)
    (reached : System.Reached program system)
    (stepped : System.step program system label = some after)
    (defaults : ∀ select key, label = .fire select key → defaultKey select = some key) :
    after.KeyOrigin program defaultKey := by
  have wellFormed := WellFormed.of_reached reached
  have ledger := (Delivered.of_reached reached).ledger
  intro select key isKey
  cases fired : system.world.key select with
  | some earlier =>
      obtain rfl : earlier = key := by
        have stays := System.key_of_step reached stepped fired
        rw [isKey] at stays
        exact (Option.some.inj stays).symm
      rcases origin select earlier fired with ⟨message, owned, own, committed⟩ |
          ⟨isDefault, uncommitted⟩
      · exact .inl ⟨message, owned, own, committed_of_step reached stepped committed⟩
      · refine .inr ⟨isDefault, fun message owned => ?_⟩
        rw [System.commits_of_fired reached stepped fired owned]
        exact uncommitted message owned
  | none =>
      have unfired : after.world.key select ≠ system.world.key select := by
        rw [isKey, fired]
        simp
      cases label with
      | enter other =>
          obtain ⟨_, _, rfl⟩ := System.step_enter stepped
          exact absurd rfl unfired
      | drop other =>
          obtain ⟨_, _, rfl⟩ := System.step_drop stepped
          exact absurd rfl unfired
      | turn id =>
          obtain ⟨call, outcome, held, turn, rfl⟩ := wellFormed.turn stepped
          have deal := wellFormed.deal (Matched.of_reached reached id) held turn
          rcases deal.key_cases select with same | ⟨message, owned, own, committed⟩
          · exact absurd same unfired
          · exact .inl ⟨message, owned, own.symm.trans isKey, committed⟩
      | fire other otherKey =>
          obtain ⟨_, rfl⟩ := System.step_fire stepped
          obtain rfl : select = other := by
            by_contra different
            exact unfired (by simp [different])
          obtain rfl : otherKey = key := by simpa using isKey
          refine .inr ⟨defaults select otherKey rfl, fun message owned => ?_⟩
          by_contra committed
          have caseFired := ledger.fired message select committed owned
          obtain ⟨caseKey, own⟩ := Program.caseKey_isSome owned
          rw [fired, own] at caseFired
          simp at caseFired

end

/-- The selects of a program: `_listeners`, each entering one case, and
`_default_key` (`none` for `InvalidSelectKey`). -/
structure Selects (program : Program α) where
  listeners : SelectId → List MsgId
  defaultKey : SelectId → Option CaseKey
  mem_listeners : ∀ select message,
    message ∈ listeners select ↔ program.select? message = some select

/-- The cases of a select and its default have different keys. -/
structure Selects.DistinctKeys {program : Program α} (selects : Selects program) : Prop where
  cases : ∀ select left right key, program.select? left = some select →
    program.select? right = some select → program.caseKey? left = some key →
      program.caseKey? right = some key → left = right
  default : ∀ select message key, program.select? message = some select →
    program.caseKey? message = some key → selects.defaultKey select ≠ some key

/-- Where `Select::operator()` stands. -/
inductive Select.Pc
  | idle
  /-- The loop is at the next listener. -/
  | poll (listeners : List MsgId)
  /-- A listener's call of `send_to` or `recv_from` has not ended. -/
  | calling (message : MsgId) (listeners : List MsgId)
  /-- After a listener, `_key` is looked at. -/
  | check (listeners : List MsgId)
  | decide
  /-- `co_await _signal.aquire()`. -/
  | aquire
  | returned (key : Option CaseKey)
  | threw (error : String)
  /-- The frame was destroyed while it waited. -/
  | destroyed
  deriving DecidableEq

/-- The body of `operator()` has ended, so `_drop` may run. -/
def Select.Pc.Ended : Select.Pc → Prop
  | .returned _ => True
  | .threw _ => True
  | .destroyed => True
  | _ => False

instance (pc : Select.Pc) : Decidable pc.Ended := by
  cases pc <;> unfold Select.Pc.Ended <;> infer_instance

/-- The listeners that the loop has not called yet. -/
def Select.Pc.remaining : Select.Pc → List MsgId
  | .poll listeners => listeners
  | .calling _ listeners => listeners
  | .check listeners => listeners
  | _ => []

/-- The channels and the selects; `msgs` is `_msgs`. -/
structure Selecting (α : Type) where
  system : System α
  pc : SelectId → Select.Pc
  msgs : SelectId → List MsgId

namespace Selecting

/-- The steps of channels and selects. -/
inductive Label
  /-- A plain message takes the lock of its channel. -/
  | enter (message : MsgId)
  /-- The call that holds the channel's lock makes its next turn. -/
  | turn (chan : ChanId)
  /-- A plain message is dropped. -/
  | drop (message : MsgId)
  /-- `operator()` is called and shuffles the listeners. -/
  | start (select : SelectId) (order : List MsgId)
  /-- The loop calls the next listener, which takes the lock of its channel, or
  ends. -/
  | poll (select : SelectId)
  /-- The listener has returned or thrown. -/
  | resume (select : SelectId)
  /-- The loop looks at `_key`. -/
  | check (select : SelectId)
  /-- After the loop, the default key is taken unless a case was committed. -/
  | decide (select : SelectId)
  /-- The semaphore lets the select go on. -/
  | wake (select : SelectId)
  /-- The waiting frame is destroyed. -/
  | destroy (select : SelectId)
  /-- `_drop` drops its next message. -/
  | dropNext (select : SelectId)

/-- The select whose `operator()` takes the step. -/
def Label.body? : Label → Option SelectId
  | .start select _ => some select
  | .poll select => some select
  | .resume select => some select
  | .check select => some select
  | .decide select => some select
  | .wake select => some select
  | .destroy select => some select
  | _ => none

variable {program : Program α}

/-- The state before the run. -/
def initial (program : Program α) : Selecting α where
  system := .initial program
  pc := fun _ => .idle
  msgs := fun _ => []

/-- The state with a select at another point. -/
def goto (state : Selecting α) (select : SelectId) (pc : Select.Pc) : Selecting α :=
  { state with pc := Function.update state.pc select pc }

variable [Inhabited α]

/-- A step of the channels beside the selects. -/
def stepSystem (program : Program α) (state : Selecting α) (label : Channel.Label) :
    Option (Selecting α) :=
  (System.step program state.system label).map fun system => { state with system }

/-- The next state, or `none` when the step is not enabled. -/
def step (selects : Selects program) (state : Selecting α) : Label → Option (Selecting α)
  | .enter message =>
      if program.select? message = none then state.stepSystem program (.enter message)
      else none
  | .turn chan => state.stepSystem program (.turn chan)
  | .drop message =>
      if program.select? message = none then state.stepSystem program (.drop message)
      else none
  | .start select order =>
      if state.pc select = .idle ∧ order.Perm (selects.listeners select) then
        some (state.goto select (.poll order))
      else none
  | .poll select =>
      match state.pc select with
      | .poll [] => some (state.goto select .decide)
      | .poll (message :: listeners) =>
          ({ state with
              msgs := Function.update state.msgs select (state.msgs select ++ [message])
            }.stepSystem program (.enter message)).map
              fun entered : Selecting α => entered.goto select (.calling message listeners)
      | _ => none
  | .resume select =>
      match state.pc select with
      | .calling message listeners =>
          match state.system.phase message with
          | .returned _ => some (state.goto select (.check listeners))
          | .threw error => some (state.goto select (.threw error))
          | _ => none
      | _ => none
  | .check select =>
      match state.pc select with
      | .check listeners =>
          if state.system.world.key select = none then
            some (state.goto select (.poll listeners))
          else some (state.goto select .decide)
      | _ => none
  | .decide select =>
      match state.pc select with
      | .decide =>
          match selects.defaultKey select with
          | none => some (state.goto select .aquire)
          | some key =>
              match state.system.world.key select with
              | some fired => some (state.goto select (.returned (some fired)))
              | none =>
                  (state.stepSystem program (.fire select key)).map
                    fun fired : Selecting α => fired.goto select (.returned (some key))
      | _ => none
  | .wake select =>
      if state.pc select = .aquire ∧ 0 < state.system.world.selectSignal select then
        some (state.goto select (.returned (state.system.world.key select)))
      else none
  | .destroy select =>
      if state.pc select = .aquire then some (state.goto select .destroyed) else none
  | .dropNext select =>
      match state.msgs select with
      | message :: msgs =>
          if (state.pc select).Ended then
            { state with msgs := Function.update state.msgs select msgs }.stepSystem program
              (.drop message)
          else none
      | [] => none

/-- The states that channels and selects can reach. -/
abbrev Reached (selects : Selects program) (state : Selecting α) : Prop :=
  Lib.Reachable (step selects) (initial program) state

section

variable {selects : Selects program} {state after : Selecting α}

theorem stepSystem_eq
    {label : Channel.Label}
    (stepped : state.stepSystem program label = some after) :
    ∃ system, System.step program state.system label = some system ∧
      after = { state with system } := by
  obtain ⟨system, isStep, rfl⟩ := Option.map_eq_some_iff.mp stepped
  exact ⟨system, isStep, rfl⟩

/-- What a step can do.  Where only the point of a select changes, it had not
ended; its listeners are its cases, it throws what its listener threw, and it
returns its key, which is set or which its semaphore has announced. -/
inductive Move (selects : Selects program) (state : Selecting α) :
    Label → Selecting α → Prop
  | enter {message : MsgId} {system : System α}
      (plain : program.select? message = none)
      (entered : System.step program state.system (.enter message) = some system) :
      Move selects state (.enter message) { state with system }
  | turn {chan : ChanId} {system : System α}
      (turned : System.step program state.system (.turn chan) = some system) :
      Move selects state (.turn chan) { state with system }
  | drop {message : MsgId} {system : System α}
      (plain : program.select? message = none)
      (dropped : System.step program state.system (.drop message) = some system) :
      Move selects state (.drop message) { state with system }
  | go {label : Label} {select : SelectId} {pc : Select.Pc}
      (body : label.body? = some select)
      (running : ¬(state.pc select).Ended)
      (listens : ∀ message ∈ pc.remaining,
        message ∈ (state.pc select).remaining ∨ program.select? message = some select)
      (threw : ∀ error, pc = .threw error →
        ∃ message, state.system.phase message = .threw error)
      (returned : ∀ key, pc = .returned key → state.system.world.key select = key ∧
        (key ≠ none ∨ 0 < state.system.world.selectSignal select))
      (begun : pc ≠ .idle) :
      Move selects state label (state.goto select pc)
  | poll {select : SelectId} {message : MsgId} {listeners : List MsgId} {system : System α}
      (polling : state.pc select = .poll (message :: listeners))
      (entered : System.step program state.system (.enter message) = some system) :
      Move selects state (.poll select)
        { system
          pc := Function.update state.pc select (.calling message listeners)
          msgs := Function.update state.msgs select (state.msgs select ++ [message]) }
  | fire {select : SelectId} {key : CaseKey} {system : System α}
      (deciding : state.pc select = .decide)
      (isDefault : selects.defaultKey select = some key)
      (fired : System.step program state.system (.fire select key) = some system) :
      Move selects state (.decide select)
        { state with
          system
          pc := Function.update state.pc select (.returned (some key)) }
  | dropNext {select : SelectId} {message : MsgId} {msgs : List MsgId} {system : System α}
      (ended : (state.pc select).Ended)
      (next : state.msgs select = message :: msgs)
      (dropped : System.step program state.system (.drop message) = some system) :
      Move selects state (.dropNext select)
        { state with
          system
          msgs := Function.update state.msgs select msgs }

theorem move_of_step
    {label : Label}
    (stepped : step selects state label = some after) :
    Move selects state label after := by
  cases label with
  | enter message =>
      simp only [step] at stepped
      split at stepped
      · rename_i plain
        obtain ⟨system, entered, rfl⟩ := stepSystem_eq stepped
        exact .enter plain entered
      · simp at stepped
  | turn chan =>
      obtain ⟨system, turned, rfl⟩ := stepSystem_eq stepped
      exact .turn turned
  | drop message =>
      simp only [step] at stepped
      split at stepped
      · rename_i plain
        obtain ⟨system, dropped, rfl⟩ := stepSystem_eq stepped
        exact .drop plain dropped
      · simp at stepped
  | start select order =>
      simp only [step] at stepped
      split at stepped
      · rename_i enabled
        obtain rfl := Option.some.inj stepped
        refine .go rfl (by simp [enabled.1, Select.Pc.Ended]) ?_ (by simp) (by simp) (by simp)
        intro message member
        exact .inr ((selects.mem_listeners select message).mp (enabled.2.mem_iff.mp member))
      · simp at stepped
  | poll select =>
      simp only [step] at stepped
      split at stepped
      · rename_i polling
        obtain rfl := Option.some.inj stepped
        exact .go rfl (by simp [polling, Select.Pc.Ended]) (by simp [Select.Pc.remaining])
          (by simp) (by simp) (by simp)
      · rename_i message listeners polling
        obtain ⟨between, entering, rfl⟩ := Option.map_eq_some_iff.mp stepped
        obtain ⟨system, entered, rfl⟩ := stepSystem_eq entering
        exact .poll polling entered
      · simp at stepped
  | resume select =>
      simp only [step] at stepped
      split at stepped
      · rename_i message listeners calling
        have running : ¬(state.pc select).Ended := by simp [calling, Select.Pc.Ended]
        split at stepped
        · obtain rfl := Option.some.inj stepped
          refine .go rfl running (fun message member => .inl ?_) (by simp) (by simp) (by simp)
          rwa [calling]
        · rename_i error threw
          obtain rfl := Option.some.inj stepped
          refine .go rfl running (by simp [Select.Pc.remaining]) ?_ (by simp) (by simp)
          rintro _ ⟨rfl⟩
          exact ⟨message, threw⟩
        · simp at stepped
      · simp at stepped
  | check select =>
      simp only [step] at stepped
      split at stepped
      · rename_i listeners checking
        have running : ¬(state.pc select).Ended := by simp [checking, Select.Pc.Ended]
        split at stepped
        · obtain rfl := Option.some.inj stepped
          refine .go rfl running (fun message member => .inl ?_) (by simp) (by simp) (by simp)
          rwa [checking]
        · obtain rfl := Option.some.inj stepped
          exact .go rfl running (by simp [Select.Pc.remaining]) (by simp) (by simp) (by simp)
      · simp at stepped
  | decide select =>
      simp only [step] at stepped
      split at stepped
      · rename_i deciding
        have running : ¬(state.pc select).Ended := by simp [deciding, Select.Pc.Ended]
        split at stepped
        · obtain rfl := Option.some.inj stepped
          exact .go rfl running (by simp [Select.Pc.remaining]) (by simp) (by simp) (by simp)
        · rename_i key isDefault
          split at stepped
          · rename_i own fired
            obtain rfl := Option.some.inj stepped
            refine .go rfl running (by simp [Select.Pc.remaining]) (by simp) ?_ (by simp)
            rintro _ ⟨rfl⟩
            exact ⟨fired, .inl (by simp)⟩
          · obtain ⟨between, firing, rfl⟩ := Option.map_eq_some_iff.mp stepped
            obtain ⟨system, fired, rfl⟩ := stepSystem_eq firing
            exact .fire deciding isDefault fired
      · simp at stepped
  | wake select =>
      simp only [step] at stepped
      split at stepped
      · rename_i enabled
        obtain rfl := Option.some.inj stepped
        refine .go rfl (by simp [enabled.1, Select.Pc.Ended]) (by simp [Select.Pc.remaining])
          (by simp) ?_ (by simp)
        rintro _ ⟨rfl⟩
        exact ⟨rfl, .inr enabled.2⟩
      · simp at stepped
  | destroy select =>
      simp only [step] at stepped
      split at stepped
      · rename_i waiting
        obtain rfl := Option.some.inj stepped
        exact .go rfl (by simp [waiting, Select.Pc.Ended]) (by simp [Select.Pc.remaining])
          (by simp) (by simp) (by simp)
      · simp at stepped
  | dropNext select =>
      simp only [step] at stepped
      split at stepped
      · rename_i message msgs next
        split at stepped
        · rename_i ended
          obtain ⟨system, dropped, rfl⟩ := stepSystem_eq stepped
          exact .dropNext ended next dropped
        · simp at stepped
      · simp at stepped

/-- What a step does to the channels: nothing, a step of theirs that fires no
select, or the default branch of a select. -/
theorem step_system
    {label : Label}
    (stepped : step selects state label = some after) :
    after.system = state.system ∨
      ∃ action, System.step program state.system action = some after.system ∧
        ∀ select key, action = .fire select key → selects.defaultKey select = some key := by
  cases move_of_step stepped with
  | enter _ entered => exact .inr ⟨_, entered, by simp⟩
  | turn turned => exact .inr ⟨_, turned, by simp⟩
  | drop _ dropped => exact .inr ⟨_, dropped, by simp⟩
  | go => exact .inl rfl
  | poll _ entered => exact .inr ⟨_, entered, by simp⟩
  | fire _ isDefault fired =>
      refine .inr ⟨_, fired, ?_⟩
      rintro _ _ ⟨rfl, rfl⟩
      exact isDefault
  | dropNext _ _ dropped => exact .inr ⟨_, dropped, by simp⟩

/-- How a select comes to have returned: it had, it found its key set or set it,
or its semaphore let it go on. -/
theorem step_returned
    {label : Label}
    {select : SelectId}
    {key : Option CaseKey}
    (stepped : step selects state label = some after)
    (returned : after.pc select = .returned key) :
    state.pc select = .returned key ∨
      (key ≠ none ∧ after.system.world.key select = key) ∨
      (after.system = state.system ∧ 0 < state.system.world.selectSignal select ∧
        key = state.system.world.key select) := by
  cases move_of_step stepped with
  | enter => exact .inl returned
  | turn => exact .inl returned
  | drop => exact .inl returned
  | dropNext => exact .inl returned
  | @go _ other pc _ _ _ _ returns =>
      rcases eq_or_ne select other with rfl | different
      · obtain ⟨own, announced⟩ := returns key (by simpa [goto] using returned)
        rcases announced with isKey | signalled
        · exact .inr (.inl ⟨isKey, own⟩)
        · exact .inr (.inr ⟨rfl, signalled, own.symm⟩)
      · exact .inl (by simpa [goto, different] using returned)
  | @poll other message listeners =>
      rcases eq_or_ne select other with rfl | different
      · simp at returned
      · exact .inl (by simpa [different] using returned)
  | @fire other default system _ _ fired =>
      rcases eq_or_ne select other with rfl | different
      · obtain rfl : some default = key := by simpa using returned
        obtain ⟨_, rfl⟩ := System.step_fire fired
        exact .inr (.inl ⟨by simp, by simp⟩)
      · exact .inl (by simpa [different] using returned)

/-! ## Runs of channels and selects -/

/-- What the selects do, the channels can do. -/
theorem system_reached (reached : Reached selects state) :
    System.Reached program state.system := by
  refine Lib.Reachable.simulate Selecting.system ?_ reached
  intro before label after stepped
  exact (step_system stepped).imp_right fun ⟨action, isStep, _⟩ => ⟨action, isStep⟩

theorem keyOrigin (reached : Reached selects state) :
    state.system.KeyOrigin program selects.defaultKey := by
  refine reached.invariant_of_reachable
    (fun state => state.system.KeyOrigin program selects.defaultKey) ?_ ?_
  · intro select key isKey
    simp [initial, System.initial, World.initial] at isKey
  · intro before label after reached origin stepped
    rcases step_system stepped with same | ⟨action, isStep, defaults⟩
    · rwa [same]
    · exact origin.step (system_reached reached) isStep defaults

/-- A select that has a key keeps it for the rest of the run. -/
theorem key_persists
    {select : SelectId}
    {key : CaseKey}
    (reached : Reached selects state)
    (continued : Lib.Reachable (step selects) state after)
    (fired : state.system.world.key select = some key) :
    after.system.world.key select = some key := by
  refine continued.invariant_of_reachable
    (fun state => state.system.world.key select = some key) fired ?_
  intro before label next later isKey stepped
  rcases step_system stepped with same | ⟨action, isStep, _⟩
  · rwa [same]
  · exact System.key_of_step (system_reached (reached.trans later)) isStep isKey

/-- `operator()` returns the key of its select, and never `InvalidSelectKey`. -/
theorem returned_key (reached : Reached selects state) :
    ∀ select key, state.pc select = .returned key →
      key ≠ none ∧ state.system.world.key select = key := by
  refine reached.invariant_of_reachable (fun state => ∀ select key,
    state.pc select = .returned key →
      key ≠ none ∧ state.system.world.key select = key) ?_ ?_
  · simp [initial]
  · intro before label after reached returnedBefore stepped select key returned
    rcases step_returned stepped returned with earlier | now | ⟨same, signalled, own⟩
    · obtain ⟨valid, isKey⟩ := returnedBefore select key earlier
      obtain ⟨value, rfl⟩ := Option.ne_none_iff_exists'.mp valid
      exact ⟨valid, key_persists reached (Lib.Reachable.refl.tail stepped) isKey⟩
    · exact now
    · rw [same, own]
      refine ⟨?_, rfl⟩
      have ledger := (Delivered.of_reached (system_reached reached)).ledger
      -- a released semaphore is that of a committed case
      by_contra unfired
      have idle := ledger.idle select fun message owned => by
        by_contra committed
        obtain ⟨caseKey, own⟩ := Program.caseKey_isSome owned
        have fired := ledger.fired message select committed owned
        rw [unfired, own] at fired
        simp at fired
      omega

/-- A select commits at most one of its cases, once.  If it returns the key of a
case, that case is the committed one and its value has moved, and the variables of its
other cases are as before the run.  If it returns its default key, none of its cases is
committed, then or later.  Two cases of one select are never matched. -/
theorem select_commits_one_case
    (keys : selects.DistinctKeys)
    (vars : program.DistinctVars)
    (reached : Reached selects state) :
    (∀ message, state.system.world.commits message ≤ 1) ∧
    (∀ left right, program.SameSelect left right →
      state.system.world.commits left ≠ 0 → state.system.world.commits right ≠ 0 →
        left = right) ∧
    (∀ select key, state.pc select = .returned key →
      ∃ value, key = some value ∧ (selects.defaultKey select = some value ∨
        ∃ message, program.select? message = some select ∧
          program.caseKey? message = some value)) ∧
    (∀ select message key, program.select? message = some select →
      program.caseKey? message = some key → state.pc select = .returned (some key) →
        state.system.world.commits message = 1 ∧ state.system.Transferred program message ∧
          ∀ other, program.select? other = some select → other ≠ message →
            state.system.world.commits other = 0 ∧
              ∀ var, program.data other = some var →
                state.system.world.mem var = some (program.mem var)) ∧
    (∀ select key, selects.defaultKey select = some key →
      state.pc select = .returned (some key) →
        ∀ later, Lib.Reachable (step selects) state later →
          ∀ message, program.select? message = some select →
            later.system.world.commits message = 0) ∧
    (∀ id, ∀ given ∈ (state.system.chan id).given,
      ¬program.SameSelect given.target given.sent.origin) := by
  have delivered := Delivered.of_reached (system_reached reached)
  have ledger := delivered.ledger
  have faithful := Faithful.of_reached vars (system_reached reached)
  have origin := keyOrigin reached
  refine ⟨ledger.once, fun left right same leftCommitted rightCommitted =>
    ledger.single left right leftCommitted rightCommitted same, ?_, ?_, ?_, ?_⟩
  · intro select key returned
    obtain ⟨valid, isKey⟩ := returned_key reached select key returned
    obtain ⟨value, rfl⟩ := Option.ne_none_iff_exists'.mp valid
    refine ⟨value, rfl, ?_⟩
    rcases origin select value isKey with ⟨message, owned, own, _⟩ | ⟨isDefault, _⟩
    · exact .inr ⟨message, owned, own⟩
    · exact .inl isDefault
  · intro select message key owned own returned
    have isKey := (returned_key reached select _ returned).2
    have committed : state.system.world.commits message ≠ 0 := by
      rcases origin select key isKey with ⟨served, servedOwned, servedKey, committed⟩ |
          ⟨isDefault, _⟩
      · rwa [keys.cases select message served key owned servedOwned own servedKey]
      · exact absurd isDefault (keys.default select message key owned own)
    have once := ledger.once message
    refine ⟨by omega,
      System.transferred_of_committed vars (system_reached reached) committed,
      fun other otherOwned different => ?_⟩
    have uncommitted : state.system.world.commits other = 0 := by
      by_contra otherCommitted
      exact different (ledger.single other message otherCommitted committed
        ⟨select, otherOwned, owned⟩)
    exact ⟨uncommitted, fun var points => faithful.untouched other var points uncommitted⟩
  · intro select key isDefault returned later continued message owned
    have isKey := (returned_key reached select _ returned).2
    rcases keyOrigin (reached.trans continued) select key
        (key_persists reached continued isKey) with ⟨served, servedOwned, servedKey, _⟩ |
          ⟨_, uncommitted⟩
    · exact absurd isDefault (keys.default select served key servedOwned servedKey)
    · exact uncommitted message owned
  · intro id given member same
    obtain ⟨_, receives, dstCommitted⟩ :=
      (delivered.mem_given id given.target).mp (List.mem_map_of_mem member)
    have taken : given.sent ∈ (state.system.chan id).taken := by
      rw [delivered.fifo id]
      exact List.mem_append_left _ (List.mem_map_of_mem member)
    obtain ⟨_, sends, srcCommitted⟩ :=
      (delivered.mem_taken id given.sent.origin).mp (List.mem_map_of_mem taken)
    have one := ledger.single given.target given.sent.origin dstCommitted srcCommitted same
    rw [one, sends] at receives
    simp at receives

end

/-- The select of the sample program, without a default. -/
def sample : Selects Program.sample where
  listeners select := if select = 0 then [2, 3] else []
  defaultKey _ := none
  mem_listeners select message := by
    rcases message with _ | _ | _ | _ | _ | other <;> by_cases select = 0 <;>
      simp_all [Program.sample, Program.select?, Variant.select?, eq_comm]

theorem sample_distinctKeys : sample.DistinctKeys where
  cases select left right key leftOwned rightOwned leftKey rightKey := by
    have members := fun message => (sample.mem_listeners select message).mpr
    have inLeft := members left leftOwned
    have inRight := members right rightOwned
    by_cases same : select = 0
    · simp only [sample, same, if_true, List.mem_cons, List.not_mem_nil, or_false]
        at inLeft inRight
      rcases inLeft with rfl | rfl <;> rcases inRight with rfl | rfl <;>
        simp_all [Program.sample, Program.caseKey?, Variant.caseKey?]
      all_goals
        rw [← rightKey] at leftKey
        simp at leftKey
    · simp [sample, same] at inLeft
  default _ _ _ _ _ := by simp [sample]

theorem select_commits_one_case_sample :
    let state := Lib.runFrom (step sample) (initial .sample)
      [.start 0 [2, 3], .poll 0, .turn 0, .turn 0, .resume 0, .check 0, .poll 0, .turn 1,
        .turn 1, .resume 0, .check 0, .poll 0, .decide 0, .enter 4, .turn 1, .turn 1, .wake 0]
    state.pc 0 = .returned (some ⟨11, by decide⟩) ∧
      state.system.world.commits 3 = 1 ∧ state.system.world.mem 3 = some 104 ∧
        state.system.world.mem 2 = some 102 := by
  intro state
  have reached : Reached sample state := Lib.Reachable.runFrom _ _ _
  have returned : state.pc 0 = .returned (some ⟨11, by decide⟩) := by decide
  obtain ⟨_, _, _, exact_, _, _⟩ :=
    select_commits_one_case sample_distinctKeys Program.sample_distinctVars reached
  obtain ⟨once, ⟨given, member, -, value⟩, others⟩ :=
    exact_ 0 3 ⟨11, by decide⟩ rfl rfl returned
  have only : (state.system.chan 1).given = [⟨3, ⟨4, 104⟩⟩] := by decide
  have handed : given ∈ (state.system.chan 1).given := member
  rw [only, List.mem_singleton] at handed
  refine ⟨returned, once, ?_, (others 2 rfl (by decide)).2 2 rfl⟩
  rw [value 3 rfl, handed]

end Selecting

end Channel
end Cgo
