import Cgo.Channel.Turn

/-!
# What commits leave behind

The commits of a world, the keys of its selects and the counters of its
semaphores agree: a message is committed at most once, a select has the key of
its only committed case, and each semaphore was released once for each commit it
stands for.  A transfer keeps this as long as it commits only messages that are
live.
-/

namespace Cgo
namespace Channel

variable {α : Type}

/-- A semaphore: that of a plain message, or the one the cases of a select
share. -/
inductive Signal
  | own (message : MsgId)
  | shared (select : SelectId)
  deriving DecidableEq

/-- The semaphore that a commit of the message releases; a nowait message has
none. -/
def Program.signal? (program : Program α) (message : MsgId) : Option Signal :=
  match (program.msg message).variant with
  | .simplex _ true => some (.own message)
  | .simplex _ false => none
  | .multiplex _ select _ => some (.shared select)

/-- How often a semaphore was released. -/
def World.released (world : World α) : Signal → Nat
  | .own message => world.signal message
  | .shared select => world.selectSignal select

/-- The value that a message's variable holds before the run. -/
def Program.value [Inhabited α] (program : Program α) (message : MsgId) : α :=
  match program.data message with
  | none => default
  | some var => program.mem var

theorem Program.caseKey_isSome
    {program : Program α}
    {message : MsgId}
    {select : SelectId}
    (owned : program.select? message = some select) :
    ∃ key, program.caseKey? message = some key := by
  unfold Program.select? at owned
  unfold Program.caseKey?
  cases variant : (program.msg message).variant with
  | simplex data signal => simp [variant, Variant.select?] at owned
  | multiplex data owner caseKey => exact ⟨caseKey, rfl⟩

/-- A message has the semaphore of its select, or one of its own. -/
theorem Program.signal_cases
    {program : Program α}
    {message : MsgId}
    {signal : Signal}
    (has : program.signal? message = some signal) :
    (∃ select, signal = .shared select ∧ program.select? message = some select) ∨
      (signal = .own message ∧ program.hasSignal message = true) := by
  unfold Program.signal? at has
  unfold Program.select? Program.hasSignal
  cases variant : (program.msg message).variant with
  | simplex data own =>
      cases own with
      | false => simp [variant] at has
      | true =>
          right
          refine ⟨?_, rfl⟩
          simpa [variant, eq_comm] using has
  | multiplex data select caseKey =>
      left
      refine ⟨select, ?_, rfl⟩
      simpa [variant, eq_comm] using has

/-- The commits, keys and semaphores of a world agree. -/
structure Ledger (program : Program α) (world : World α) : Prop where
  once : ∀ message, world.commits message ≤ 1
  fired : ∀ message select, world.commits message ≠ 0 →
    program.select? message = some select →
      world.key select = program.caseKey? message
  single : ∀ left right, world.commits left ≠ 0 → world.commits right ≠ 0 →
    program.SameSelect left right → left = right
  own : ∀ message, program.hasSignal message = true →
    world.signal message = world.commits message
  idle : ∀ select, (∀ message, program.select? message = some select →
    world.commits message = 0) → world.selectSignal select = 0
  shared : ∀ message select, world.commits message ≠ 0 →
    program.select? message = some select → world.selectSignal select = 1

namespace Ledger

variable {program : Program α} {world : World α}

theorem initial : Ledger program (.initial program) where
  once := by simp [World.initial]
  fired := by simp [World.initial]
  single := by simp [World.initial]
  own := by simp [World.initial]
  idle := by simp [World.initial]
  shared := by simp [World.initial]

theorem move
    (ledger : Ledger program world)
    (src dst : Ptr α) :
    Ledger program (world.move src dst) where
  once := by simpa using ledger.once
  fired := by simpa using ledger.fired
  single := by simpa using ledger.single
  own := by simpa using ledger.own
  idle := by simpa using ledger.idle
  shared := by simpa using ledger.shared

/-- A select with a committed case has fired. -/
theorem uncommitted
    (ledger : Ledger program world)
    {message other : MsgId}
    {select : SelectId}
    (accepted : world.accepts program message = true)
    (owned : program.select? message = some select)
    (otherOwned : program.select? other = some select) :
    world.commits other = 0 := by
  by_contra committed
  have open_ := (world.accepts_iff program message).mp accepted select owned
  have fired := ledger.fired other select committed otherOwned
  obtain ⟨key, isKey⟩ := Program.caseKey_isSome otherOwned
  rw [open_, isKey] at fired
  simp at fired

/-- Committing a live message keeps the books. -/
theorem commit
    (ledger : Ledger program world)
    {message : MsgId}
    (live : world.Live program message) :
    Ledger program (world.commit program message) := by
  obtain ⟨pending, accepted⟩ := live
  have one : ∀ other, (world.commit program message).commits other ≠ 0 →
      other = message ∨ world.commits other ≠ 0 := by
    intro other committed
    by_cases same : other = message
    · exact .inl same
    · exact .inr (by simpa [same] using committed)
  -- no case of the message's select was committed before
  have alone : ∀ other, world.commits other ≠ 0 →
      ¬program.SameSelect message other := by
    rintro other committed ⟨select, owned, otherOwned⟩
    exact committed (ledger.uncommitted accepted owned otherOwned)
  constructor
  · intro other
    by_cases same : other = message
    · subst same
      simp [pending]
    · simpa [same] using ledger.once other
  · intro other select committed owned
    rw [World.commit_key]
    split
    · rename_i firing
      rcases one other committed with rfl | before
      · rfl
      · exact absurd ⟨select, firing, owned⟩ (alone other before)
    · rename_i elsewhere
      rcases one other committed with rfl | before
      · exact absurd owned elsewhere
      · exact ledger.fired other select before owned
  · intro left right leftCommitted rightCommitted same
    rcases one left leftCommitted with rfl | leftBefore
    · rcases one right rightCommitted with rfl | rightBefore
      · rfl
      · exact absurd same (alone right rightBefore)
    · rcases one right rightCommitted with rfl | rightBefore
      · obtain ⟨select, leftOwned, rightOwned⟩ := same
        exact absurd ⟨select, rightOwned, leftOwned⟩ (alone left leftBefore)
      · exact ledger.single left right leftBefore rightBefore same
  · intro other has
    rw [World.commit_signal]
    by_cases same : other = message
    · subst same
      simp [has, ledger.own other has]
    · simp [same, ledger.own other has]
  · intro select none_
    rw [World.commit_selectSignal, if_neg]
    · apply ledger.idle
      intro other owned
      have after := none_ other owned
      by_cases same : other = message
      · subst same
        simp at after
      · simpa [same] using after
    · intro owned
      have after := none_ message owned
      simp at after
  · intro other select committed owned
    rw [World.commit_selectSignal]
    split
    · rename_i firing
      rw [ledger.idle select fun third thirdOwned =>
        ledger.uncommitted accepted firing thirdOwned]
    · rename_i elsewhere
      rcases one other committed with rfl | before
      · exact absurd owned elsewhere
      · exact ledger.shared other select before owned

theorem take
    [Inhabited α]
    (ledger : Ledger program world)
    {message : MsgId}
    (live : world.Live program message) :
    Ledger program (world.take program message) :=
  (ledger.move _ _).commit (by simpa [World.Live] using live)

theorem hand
    (ledger : Ledger program world)
    {message : MsgId}
    (value : α)
    (live : world.Live program message) :
    Ledger program (world.hand program message value) :=
  (ledger.move _ _).commit (by simpa [World.Live] using live)

theorem exchange
    (ledger : Ledger program world)
    {src dst : MsgId}
    (different : src ≠ dst)
    (separate : ¬program.SameSelect src dst)
    (srcLive : world.Live program src)
    (dstLive : world.Live program dst) :
    Ledger program (world.exchange program src dst) := by
  have first := (ledger.move (.ofData (program.data src))
    (.ofData (program.data dst))).commit
      (by simpa [World.Live] using srcLive)
  refine first.commit ⟨?_, ?_⟩
  · simpa [Ne.symm different] using dstLive.1
  · rw [World.accepts_commit_of_not_sameSelect program _ separate]
    simpa using dstLive.2

/-- A select that takes its default key has no committed case. -/
theorem fire
    (ledger : Ledger program world)
    {select : SelectId}
    (key : CaseKey)
    (unfired : world.key select = none) :
    Ledger program { world with key := Function.update world.key select (some key) } := by
  refine ⟨ledger.once, ?_, ledger.single, ledger.own, ledger.idle, ledger.shared⟩
  intro message owner committed owned
  by_cases same : owner = select
  · subst same
    have fired := ledger.fired message owner committed owned
    obtain ⟨caseKey, isKey⟩ := Program.caseKey_isSome owned
    rw [unfired, isKey] at fired
    simp at fired
  · simpa [same] using ledger.fired message owner committed owned

/-- A committed message's semaphore was released exactly once. -/
theorem released_once
    (ledger : Ledger program world)
    {message : MsgId}
    {signal : Signal}
    (committed : world.commits message ≠ 0)
    (has : program.signal? message = some signal) :
    world.released signal = 1 := by
  rcases Program.signal_cases has with ⟨select, rfl, owned⟩ | ⟨rfl, own⟩
  · exact ledger.shared message select committed owned
  · have once := ledger.once message
    rw [World.released, ledger.own message own]
    omega

end Ledger

end Channel
end Cgo
