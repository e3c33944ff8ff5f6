import Cgo.Channel.Deal

/-!
# Exactly-once delivery

The values taken from the senders of a channel are those handed to its receivers
followed by those still in the buffer, each belongs to one committed message, and
whoever is not committed was never touched.
-/

namespace Cgo
namespace Channel

variable {α : Type} {program : Program α}

/-- The values of a channel are as before. -/
structure SameValues (chan after : Chan α) : Prop where
  buffer : after.buffer = chan.buffer
  taken : after.taken = chan.taken
  given : after.given = chan.given

theorem SameValues.refl (chan : Chan α) : SameValues chan chan :=
  ⟨rfl, rfl, rfl⟩

theorem SameValues.enter (chan : Chan α) (side : Side) (message : MsgId) :
    SameValues chan (chan.enter side message) := by
  cases side <;> exact ⟨rfl, rfl, rfl⟩

theorem SameValues.of_enter (system : System α) (message : MsgId) (id : ChanId) :
    SameValues (system.chan id) (Function.update system.chan (program.msg message).chan
      ((system.chan (program.msg message).chan).enter (program.msg message).side message)
        id) := by
  revert id
  rw [Function.forall_update_iff _ fun id chan => SameValues (system.chan id) chan]
  exact ⟨.enter _ _ _, fun _ _ => .refl _⟩

theorem SameValues.of_drop (system : System α) (message : MsgId) (id : ChanId) :
    SameValues (system.chan id) (Function.update system.chan (program.msg message).chan
      ((system.chan (program.msg message).chan).unlinkThis message) id) := by
  revert id
  rw [Function.forall_update_iff _ fun id chan => SameValues (system.chan id) chan]
  exact ⟨⟨rfl, rfl, rfl⟩, fun _ _ => .refl _⟩

/-- The histories of every channel are those of its committed messages. -/
structure Delivered (program : Program α) (system : System α) : Prop where
  ledger : Ledger program system.world
  pending : ∀ message, (system.chan (program.msg message).chan).Pending program message →
    system.world.commits message = 0
  fresh : ∀ message, system.phase message = .fresh → system.world.commits message = 0
  taken_nodup : ∀ id, ((system.chan id).taken.map Sent.origin).Nodup
  mem_taken : ∀ id message, message ∈ (system.chan id).taken.map Sent.origin ↔
    (program.msg message).chan = id ∧ (program.msg message).side = .send ∧
      system.world.commits message ≠ 0
  given_nodup : ∀ id, ((system.chan id).given.map Given.target).Nodup
  mem_given : ∀ id message, message ∈ (system.chan id).given.map Given.target ↔
    (program.msg message).chan = id ∧ (program.msg message).side = .recv ∧
      system.world.commits message ≠ 0
  fifo : ∀ id, (system.chan id).taken =
    (system.chan id).given.map Given.sent ++ (system.chan id).buffer

namespace Delivered

variable {system after : System α}

theorem initial : Delivered program (System.initial program) where
  ledger := .initial
  pending := by simp [System.initial, World.initial]
  fresh := by simp [System.initial, World.initial]
  taken_nodup := by simp [System.initial, Chan.initial]
  mem_taken := by simp [System.initial, Chan.initial, World.initial]
  given_nodup := by simp [System.initial, Chan.initial]
  mem_given := by simp [System.initial, Chan.initial, World.initial]
  fifo := by simp [System.initial, Chan.initial]

/-- A step that appends `sent` and `handed` to the histories of one channel, and
commits exactly the messages these name, keeps the books. -/
private theorem advance
    (id : ChanId)
    {sent : List (Sent α)}
    {handed : List (Given α)}
    (delivered : Delivered program system)
    (ledger : Ledger program after.world)
    (commits : ∀ message, after.world.commits message ≠ 0 ↔
      system.world.commits message ≠ 0 ∨ message ∈ sent.map Sent.origin ∨
        message ∈ handed.map Given.target)
    (sends : ∀ message ∈ sent.map Sent.origin, (program.msg message).chan = id ∧
      (program.msg message).side = .send ∧ system.world.commits message = 0)
    (receives : ∀ message ∈ handed.map Given.target, (program.msg message).chan = id ∧
      (program.msg message).side = .recv ∧ system.world.commits message = 0)
    (sent_nodup : (sent.map Sent.origin).Nodup)
    (handed_nodup : (handed.map Given.target).Nodup)
    (taken : ∀ other, (after.chan other).taken =
      (system.chan other).taken ++ if other = id then sent else [])
    (given : ∀ other, (after.chan other).given =
      (system.chan other).given ++ if other = id then handed else [])
    (fifo : ∀ other, (after.chan other).taken =
      (after.chan other).given.map Given.sent ++ (after.chan other).buffer)
    (pending : ∀ message, (after.chan (program.msg message).chan).Pending program message →
      after.world.commits message = 0)
    (fresh : ∀ message, after.phase message = .fresh → after.world.commits message = 0) :
    Delivered program after where
  ledger := ledger
  pending := pending
  fresh := fresh
  fifo := fifo
  taken_nodup other := by
    rw [taken]
    by_cases same : other = id
    · subst same
      rw [if_pos rfl, List.map_append]
      refine (delivered.taken_nodup other).append sent_nodup ?_
      intro message before new
      exact ((delivered.mem_taken other message).mp before).2.2 (sends message new).2.2
    · simpa [same] using delivered.taken_nodup other
  mem_taken other message := by
    rw [taken, commits, List.map_append, List.mem_append, delivered.mem_taken]
    by_cases new : message ∈ sent.map Sent.origin
    · obtain ⟨own, side, _⟩ := sends message new
      by_cases same : other = id
      · subst same
        simp [new, own, side]
      · have foreign : (program.msg message).chan ≠ other := fun equal =>
          same (equal.symm.trans own)
        simp [same, foreign]
    · have notHanded : (program.msg message).side = .send →
          message ∉ handed.map Given.target := by
        intro side handed
        rw [(receives message handed).2.1] at side
        simp at side
      have notNew : message ∉ (if other = id then sent else []).map Sent.origin := by
        by_cases same : other = id <;> simp_all
      constructor
      · rintro (⟨own, side, committed⟩ | absurdly)
        · exact ⟨own, side, .inl committed⟩
        · exact absurd absurdly notNew
      · rintro ⟨own, side, committed | absurdly | handed⟩
        · exact .inl ⟨own, side, committed⟩
        · exact absurd absurdly new
        · exact absurd handed (notHanded side)
  given_nodup other := by
    rw [given]
    by_cases same : other = id
    · subst same
      rw [if_pos rfl, List.map_append]
      refine (delivered.given_nodup other).append handed_nodup ?_
      intro message before new
      exact ((delivered.mem_given other message).mp before).2.2 (receives message new).2.2
    · simpa [same] using delivered.given_nodup other
  mem_given other message := by
    rw [given, commits, List.map_append, List.mem_append, delivered.mem_given]
    by_cases new : message ∈ handed.map Given.target
    · obtain ⟨own, side, _⟩ := receives message new
      by_cases same : other = id
      · subst same
        simp [new, own, side]
      · have foreign : (program.msg message).chan ≠ other := fun equal =>
          same (equal.symm.trans own)
        simp [same, foreign]
    · have notSent : (program.msg message).side = .recv →
          message ∉ sent.map Sent.origin := by
        intro side sent
        rw [(sends message sent).2.1] at side
        simp at side
      have notNew : message ∉ (if other = id then handed else []).map Given.target := by
        by_cases same : other = id <;> simp_all
      constructor
      · rintro (⟨own, side, committed⟩ | absurdly)
        · exact ⟨own, side, .inl committed⟩
        · exact absurd absurdly notNew
      · rintro ⟨own, side, committed | sent | absurdly⟩
        · exact .inl ⟨own, side, committed⟩
        · exact absurd sent (notSent side)
        · exact absurd absurdly new

/-- Who waits for a transfer is not committed. -/
theorem uncommitted
    {id : ChanId}
    {message : MsgId}
    (delivered : Delivered program system)
    (wellFormed : WellFormed program system)
    (waits : (system.chan id).Pending program message) :
    system.world.commits message = 0 := by
  refine delivered.pending message ?_
  rwa [(wellFormed.pending_here waits).1]

variable [Inhabited α]

private theorem step_turn
    {id : ChanId}
    (wellFormed : WellFormed program system)
    (matched : Matched program system.world (program.capacity id) (system.chan id))
    (delivered : Delivered program system)
    (stepped : System.step program system (.turn id) = some after) :
    Delivered program after := by
  obtain ⟨call, outcome, held, turn, rfl⟩ := wellFormed.turn stepped
  have uncommitted : ∀ message, (system.chan id).Pending program message →
      system.world.commits message = 0 := fun message =>
    delivered.uncommitted wellFormed
  have pendingHere : ∀ message, (system.chan id).Pending program message →
      (program.msg message).chan = id ∧ system.phase message ≠ .fresh := fun message =>
    wellFormed.pending_here
  obtain ⟨sent, handed, advanced⟩ :=
    (wellFormed.deal matched held turn).advance delivered.ledger uncommitted
      (delivered.fifo id)
  -- messages that do not wait on this channel are committed as before
  have elsewhere : ∀ message, ¬(system.chan id).Pending program message →
      system.world.commits message = 0 → outcome.1.commits message = 0 := by
    intro message notPending zero
    by_contra committed
    rcases (advanced.commits message).mp committed with before | new | new
    · exact before zero
    · exact notPending (advanced.sends message new).1
    · exact notPending (advanced.receives message new).1
  refine delivered.advance id advanced.ledger advanced.commits ?_ ?_
    advanced.sent_nodup advanced.handed_nodup ?_ ?_ ?_ ?_ ?_
  · intro message new
    obtain ⟨waits, side⟩ := advanced.sends message new
    exact ⟨(pendingHere message waits).1, side, uncommitted message waits⟩
  · intro message new
    obtain ⟨waits, side⟩ := advanced.receives message new
    exact ⟨(pendingHere message waits).1, side, uncommitted message waits⟩
  · intro other
    by_cases same : other = id
    · subst same
      simp [System.settle, advanced.taken]
    · simp [System.settle, same]
  · intro other
    by_cases same : other = id
    · subst same
      simp [System.settle, advanced.given]
    · simp [System.settle, same]
  · intro other
    by_cases same : other = id
    · subst same
      simpa [System.settle] using advanced.fifo
    · simpa [System.settle, same] using delivered.fifo other
  · intro message waits
    by_cases same : (program.msg message).chan = id
    · simp only [System.settle, same, Function.update_self] at waits
      obtain ⟨before, kept⟩ := wellFormed.pending_of_turn held turn waits
      simpa [System.settle, kept] using uncommitted message before
    · simp only [System.settle, Function.update_of_ne same] at waits
      refine elsewhere message ?_ (delivered.pending message waits)
      exact fun here => same (pendingHere message here).1
  · intro message isFresh
    have different : message ≠ call.message := by
      rintro rfl
      cases next : outcome.2.2 <;> simp [System.settle, next, Next.phase] at isFresh
    simp only [System.settle, Function.update_of_ne different] at isFresh
    refine elsewhere message ?_ (delivered.fresh message isFresh)
    exact fun here => (pendingHere message here).2 isFresh

omit [Inhabited α] in
/-- A step that commits nobody and moves no value keeps the books. -/
private theorem unmoved
    (delivered : Delivered program system)
    (ledger : Ledger program after.world)
    (commits : after.world.commits = system.world.commits)
    (kept : ∀ id, SameValues (system.chan id) (after.chan id))
    (fresh : ∀ message, after.phase message = .fresh → system.phase message = .fresh)
    (pending : ∀ message, (after.chan (program.msg message).chan).Pending program message →
      system.world.commits message = 0) :
    Delivered program after where
  ledger := ledger
  pending message waits := by
    rw [commits]
    exact pending message waits
  fresh message isFresh := by
    rw [commits]
    exact delivered.fresh message (fresh message isFresh)
  taken_nodup id := by
    rw [(kept id).taken]
    exact delivered.taken_nodup id
  mem_taken id := by
    rw [(kept id).taken, commits]
    exact delivered.mem_taken id
  given_nodup id := by
    rw [(kept id).given]
    exact delivered.given_nodup id
  mem_given id := by
    rw [(kept id).given, commits]
    exact delivered.mem_given id
  fifo id := by
    rw [(kept id).taken, (kept id).given, (kept id).buffer]
    exact delivered.fifo id

private theorem step_enter
    {message : MsgId}
    (delivered : Delivered program system)
    (stepped : System.step program system (.enter message) = some after) :
    Delivered program after := by
  obtain ⟨fresh, free, rfl⟩ := System.step_enter stepped
  refine delivered.unmoved delivered.ledger rfl (.of_enter system message) ?_ ?_
  · intro other isFresh
    by_cases same : other = message
    · subst same
      simp at isFresh
    · simpa [same] using isFresh
  · intro other waits
    by_cases equal : other = message
    · subst equal
      exact delivered.fresh other fresh
    · refine delivered.pending other ?_
      by_cases same : (program.msg other).chan = (program.msg message).chan
      · rw [same] at waits ⊢
        simp only [Function.update_self] at waits
        rcases waits with linked | ⟨pc, _, calling⟩
        · exact .inl (by simpa using linked)
        · have entered : (⟨message, .buffer⟩ : Call) = ⟨other, pc⟩ := by simpa using calling
          exact absurd (congrArg Call.message entered).symm equal
      · simpa [Function.update_of_ne same] using waits

private theorem step_drop
    {message : MsgId}
    (delivered : Delivered program system)
    (stepped : System.step program system (.drop message) = some after) :
    Delivered program after := by
  obtain ⟨ended, free, rfl⟩ := System.step_drop stepped
  refine delivered.unmoved delivered.ledger rfl (.of_drop system message) (fun _ => id) ?_
  intro other waits
  refine delivered.pending other ?_
  by_cases same : (program.msg other).chan = (program.msg message).chan
  · rw [same] at waits ⊢
    simp only [Function.update_self] at waits
    rcases waits with linked | calling
    · rw [Chan.queue_unlinkThis] at linked
      exact .inl (List.mem_of_mem_erase linked)
    · exact .inr calling
  · simpa [Function.update_of_ne same] using waits

/-- Every step keeps the books. -/
theorem step
    {label : Label}
    (wellFormed : WellFormed program system)
    (matched : ∀ id, Matched program system.world (program.capacity id) (system.chan id))
    (delivered : Delivered program system)
    (stepped : System.step program system label = some after) :
    Delivered program after := by
  cases label with
  | enter message => exact delivered.step_enter stepped
  | turn id => exact step_turn wellFormed (matched id) delivered stepped
  | fire select key =>
      obtain ⟨unfired, rfl⟩ := System.step_fire stepped
      exact delivered.unmoved (delivered.ledger.fire key unfired) rfl (fun _ => .refl _)
        (fun _ => id) delivered.pending
  | drop message => exact delivered.step_drop stepped

theorem of_reached (reached : System.Reached program system) :
    Delivered program system :=
  reached.invariant_of_reachable _ initial fun _ _ _ reached delivered stepped =>
    delivered.step (.of_reached reached) (Matched.of_reached reached) stepped

end Delivered

/-- A commit is never taken back. -/
theorem committed_of_step
    [Inhabited α]
    {system after : System α}
    {label : Label}
    {message : MsgId}
    (reached : System.Reached program system)
    (stepped : System.step program system label = some after)
    (committed : system.world.commits message ≠ 0) :
    after.world.commits message ≠ 0 := by
  have wellFormed := WellFormed.of_reached reached
  have delivered := Delivered.of_reached reached
  cases label with
  | enter other =>
      obtain ⟨_, _, rfl⟩ := System.step_enter stepped
      exact committed
  | fire select key =>
      obtain ⟨_, rfl⟩ := System.step_fire stepped
      exact committed
  | drop other =>
      obtain ⟨_, _, rfl⟩ := System.step_drop stepped
      exact committed
  | turn id =>
      obtain ⟨call, outcome, held, turn, rfl⟩ := wellFormed.turn stepped
      obtain ⟨sent, handed, advanced⟩ :=
        (wellFormed.deal (Matched.of_reached reached id) held turn).advance delivered.ledger
          (fun _ => delivered.uncommitted wellFormed) (delivered.fifo id)
      exact (advanced.commits message).mpr (.inl committed)

/-! ## The variables -/

section Memory

variable [Inhabited α]

/-- Where all messages use their own variables, a turn changes the variables of
the messages it commits and no others. -/
theorem Deal.mem_of_uncommitted
    {world moved : World α}
    {chan after : Chan α}
    {message : MsgId}
    {var : Var}
    (deal : Deal program world chan moved after)
    (distinct : program.DistinctVars)
    (points : program.data message = some var)
    (uncommitted : moved.commits message = world.commits message) :
    moved.mem var = world.mem var := by
  have foreign : ∀ other, message ≠ other → Ptr.ofData (program.data other) ≠
      (Ptr.user var : Ptr α) := by
    intro other different same
    cases owned : program.data other with
    | none => simp [owned, Ptr.ofData] at same
    | some own =>
        obtain rfl : own = var := by simpa [owned, Ptr.ofData] using same
        exact different (distinct message other own points owned)
  have slot : ∀ value : α, (Ptr.slot value : Ptr α) ≠ .user var := by simp
  cases deal with
  | idle => rfl
  | @take _ sender =>
      have different : message ≠ sender := by
        rintro rfl
        simp at uncommitted
      rw [World.take, World.commit_mem]
      exact world.move_mem_of_ne (foreign _ different) (slot _)
  | @hand _ recver =>
      have different : message ≠ recver := by
        rintro rfl
        simp at uncommitted
      rw [World.hand, World.commit_mem]
      exact world.move_mem_of_ne (slot _) (foreign _ different)
  | @exchange _ src dst srcPending sends srcAccepted dstPending receives =>
      have apart : src ≠ dst := by
        rintro rfl
        rw [sends] at receives
        simp at receives
      rw [World.exchange_commits _ _ apart] at uncommitted
      have notDst : message ≠ dst := by
        rintro rfl
        simp at uncommitted
      have notSrc : message ≠ src := by
        rintro rfl
        simp [notDst] at uncommitted
      rw [World.exchange, World.commit_mem, World.commit_mem]
      exact world.move_mem_of_ne (foreign _ notSrc) (foreign _ notDst)

/-- The value was handed to a receiver without a variable, which takes it from no
sender. -/
def Chan.Discarded (program : Program α) (chan : Chan α) (sent : Sent α) : Prop :=
  ∃ given ∈ chan.given, given.sent = sent ∧ program.data given.target = none

/-- What was taken and handed over are the values the senders held before the
run, moved out of their variables unless the receiver has none, and what nobody took or
handed over is still in its place. -/
structure Faithful (program : Program α) (system : System α) : Prop where
  untouched : ∀ message var, program.data message = some var →
    system.world.commits message = 0 → system.world.mem var = some (program.mem var)
  sent_value : ∀ id, ∀ sent ∈ (system.chan id).taken,
    sent.value = program.value sent.origin
  moved_from : ∀ id, ∀ sent ∈ (system.chan id).taken, ∀ var,
    program.data sent.origin = some var →
      system.world.mem var = none ∨ (system.chan id).Discarded program sent
  given_value : ∀ id, ∀ given ∈ (system.chan id).given, ∀ var,
    program.data given.target = some var → system.world.mem var = some given.sent.value

namespace Faithful

variable {system after : System α}

theorem initial : Faithful program (System.initial program) where
  untouched := by simp [System.initial, World.initial]
  sent_value := by simp [System.initial, Chan.initial]
  moved_from := by simp [System.initial, Chan.initial]
  given_value := by simp [System.initial, Chan.initial]

/-- An uncommitted sender still holds its value. -/
theorem offer_value
    (faithful : Faithful program system)
    {message : MsgId}
    (pending : system.world.commits message = 0) :
    (system.world.offer program message).value = program.value message := by
  unfold World.offer Program.value
  cases points : program.data message with
  | none => rfl
  | some var =>
      simp [World.load, faithful.untouched message var points pending]

/-- A step that moves no value keeps all of them in their places. -/
private theorem unmoved
    (faithful : Faithful program system)
    (commits : after.world.commits = system.world.commits)
    (mem : after.world.mem = system.world.mem)
    (kept : ∀ id, SameValues (system.chan id) (after.chan id)) :
    Faithful program after where
  untouched message var points pending := by
    rw [mem]
    rw [commits] at pending
    exact faithful.untouched message var points pending
  sent_value id sent member := by
    rw [(kept id).taken] at member
    exact faithful.sent_value id sent member
  moved_from id sent member var points := by
    rw [(kept id).taken] at member
    rw [mem, Chan.Discarded, (kept id).given]
    exact faithful.moved_from id sent member var points
  given_value id given member var points := by
    rw [(kept id).given] at member
    rw [mem]
    exact faithful.given_value id given member var points

/-- What a deal adds to the histories are the values it moved. -/
private theorem of_deal
    {chan next : Chan α}
    {moved : World α}
    (distinct : program.DistinctVars)
    (faithful : Faithful program system)
    (deal : Deal program system.world chan moved next)
    (uncommitted : ∀ message, chan.Pending program message →
      system.world.commits message = 0) :
    (∀ sent ∈ next.taken, sent ∈ chan.taken ∨ sent.value = program.value sent.origin ∧
        ∀ var, program.data sent.origin = some var →
          moved.mem var = none ∨ next.Discarded program sent) ∧
      ∀ given ∈ next.given, given ∈ chan.given ∨ ∀ var,
        program.data given.target = some var → moved.mem var = some given.sent.value := by
  have offered : ∀ message, chan.Pending program message →
      (system.world.offer program message).value = program.value message :=
    fun message pending => faithful.offer_value (uncommitted message pending)
  cases deal with
  | idle buffer taken given =>
      rw [taken, given]
      exact ⟨fun _ => .inl, fun _ => .inl⟩
  | take pending sends accepted buffer taken given =>
      rw [taken, given]
      refine ⟨fun sent member => ?_, fun _ => .inl⟩
      rcases List.mem_append.mp member with before | new
      · exact .inl before
      · obtain rfl := List.mem_singleton.mp new
        refine .inr ⟨offered _ pending, fun var points => .inl ?_⟩
        simp only [World.offer] at points
        simp [World.take, points, Ptr.ofData, World.move]
  | hand pending receives accepted found buffer taken given =>
      rw [taken, given]
      refine ⟨fun _ => .inl, fun entry member => ?_⟩
      rcases List.mem_append.mp member with before | new
      · exact .inl before
      · obtain rfl := List.mem_singleton.mp new
        refine .inr fun var points => ?_
        simp [World.hand, points, Ptr.ofData, World.move]
  | @exchange _ src dst srcPending sends srcAccepted dstPending receives dstAccepted
      separate empty buffer taken given =>
      rw [taken, given]
      refine ⟨fun sent member => ?_, fun entry member => ?_⟩
      · rcases List.mem_append.mp member with before | new
        · exact .inl before
        · obtain rfl := List.mem_singleton.mp new
          refine .inr ⟨offered _ srcPending, fun var points => ?_⟩
          simp only [World.offer] at points
          cases target : program.data dst with
          | none =>
              right
              exact ⟨_, given ▸ List.mem_append_right _ (List.mem_singleton_self _), rfl, target⟩
          | some other =>
              left
              -- the receiver has a variable of its own
              have different : var ≠ other := by
                rintro rfl
                obtain rfl := distinct src dst var points target
                rw [sends] at receives
                cases receives
              simp [World.exchange, points, target, World.move, Ptr.ofData, different]
      · rcases List.mem_append.mp member with before | new
        · exact .inl before
        · obtain rfl := List.mem_singleton.mp new
          refine .inr fun var points => ?_
          obtain ⟨source, srcPoints⟩ :=
            Option.ne_none_iff_exists'.mp (program.sends_data src sends)
          have holds := faithful.untouched src source srcPoints (uncommitted _ srcPending)
          simp only at points
          simp [World.exchange, World.offer, World.load, Program.data, srcPoints, holds,
            World.move, Ptr.ofData, show (program.msg dst).variant.data = some var from points]

/-- Every step moves only what it commits. -/
theorem step
    {label : Label}
    (distinct : program.DistinctVars)
    (wellFormed : WellFormed program system)
    (matched : ∀ id, Matched program system.world (program.capacity id) (system.chan id))
    (delivered : Delivered program system)
    (faithful : Faithful program system)
    (stepped : System.step program system label = some after) :
    Faithful program after := by
  cases label with
  | enter message =>
      obtain ⟨_, _, rfl⟩ := System.step_enter stepped
      exact faithful.unmoved rfl rfl (.of_enter system message)
  | fire select key =>
      obtain ⟨_, rfl⟩ := System.step_fire stepped
      exact faithful.unmoved rfl rfl fun _ => .refl _
  | drop message =>
      obtain ⟨_, _, rfl⟩ := System.step_drop stepped
      exact faithful.unmoved rfl rfl (.of_drop system message)
  | turn id =>
      obtain ⟨call, outcome, held, turn, rfl⟩ := wellFormed.turn stepped
      have deal := wellFormed.deal (matched id) held turn
      have uncommitted : ∀ message, (system.chan id).Pending program message →
          system.world.commits message = 0 := fun message =>
        delivered.uncommitted wellFormed
      obtain ⟨sent, handed, advanced⟩ :=
        deal.advance delivered.ledger uncommitted (delivered.fifo id)
      -- a commit is never taken back, so who is committed on neither or on both
      -- sides of the turn kept its variable
      have keeps : ∀ message var, program.data message = some var →
          (outcome.1.commits message = 0 ∨ system.world.commits message ≠ 0) →
            outcome.1.mem var = system.world.mem var := by
        intro message var points settled
        refine deal.mem_of_uncommitted distinct points ?_
        have grows := advanced.commits message
        have before := delivered.ledger.once message
        have now := advanced.ledger.once message
        rcases settled with zero | committed
        · have zeroBefore : ¬system.world.commits message ≠ 0 :=
            fun committed => grows.mpr (.inl committed) zero
          omega
        · have stays := grows.mpr (.inl committed)
          omega
      obtain ⟨takenValues, givenValues⟩ := faithful.of_deal distinct deal uncommitted
      constructor
      · intro message var points zero
        have zeroBefore : system.world.commits message = 0 := by
          by_contra committed
          exact (advanced.commits message).mpr (.inl committed) zero
        have same := keeps message var points (.inl zero)
        simpa [System.settle, same] using faithful.untouched message var points zeroBefore
      · intro other entry member
        by_cases same : other = id
        · subst same
          have member' : entry ∈ outcome.2.1.taken := by simpa [System.settle] using member
          rcases takenValues entry member' with before | ⟨value, -⟩
          · exact faithful.sent_value other entry before
          · exact value
        · exact faithful.sent_value other entry (by simpa [System.settle, same] using member)
      · intro other entry member var points
        have old : entry ∈ (system.chan other).taken →
            outcome.1.mem var = none ∨ (system.chan other).Discarded program entry := by
          intro before
          have committed := ((delivered.mem_taken other entry.origin).mp
            (List.mem_map_of_mem before)).2.2
          rw [keeps entry.origin var points (.inr committed)]
          exact faithful.moved_from other entry before var points
        by_cases same : other = id
        · subst same
          have member' : entry ∈ outcome.2.1.taken := by simpa [System.settle] using member
          have emptied : outcome.1.mem var = none ∨ outcome.2.1.Discarded program entry := by
            rcases takenValues entry member' with before | ⟨-, emptied⟩
            · refine (old before).imp_right ?_
              rintro ⟨given, before, rest⟩
              exact ⟨given, advanced.given ▸ List.mem_append_left _ before, rest⟩
            · exact emptied var points
          simpa [System.settle, Chan.Discarded] using emptied
        · simpa [System.settle, same] using old (by simpa [System.settle, same] using member)
      · intro other entry member var points
        have old : entry ∈ (system.chan other).given →
            outcome.1.mem var = some entry.sent.value := by
          intro before
          have committed := ((delivered.mem_given other entry.target).mp
            (List.mem_map_of_mem before)).2.2
          rw [keeps entry.target var points (.inr committed)]
          exact faithful.given_value other entry before var points
        by_cases same : other = id
        · subst same
          have member' : entry ∈ outcome.2.1.given := by simpa [System.settle] using member
          rcases givenValues entry member' with before | value
          · exact old before
          · exact value var points
        · exact old (by simpa [System.settle, same] using member)

theorem of_reached
    (distinct : program.DistinctVars)
    (reached : System.Reached program system) :
    Faithful program system :=
  reached.invariant_of_reachable _ initial fun _ _ _ reached faithful stepped =>
    faithful.step distinct (.of_reached reached) (Matched.of_reached reached)
      (.of_reached reached) stepped

end Faithful

/-- The value of the message has moved: that of a sender out of its variable, unless its
receiver has none, and what a receiver was given into its variable. -/
def System.Transferred (program : Program α) (system : System α) (message : MsgId) : Prop :=
  let chan := system.chan (program.msg message).chan
  match (program.msg message).side with
  | .send => ∃ sent ∈ chan.taken, sent.origin = message ∧ sent.value = program.value message ∧
      ∀ var, program.data message = some var →
        system.world.mem var = none ∨ chan.Discarded program sent
  | .recv => ∃ given ∈ chan.given, given.target = message ∧
      ∀ var, program.data message = some var → system.world.mem var = some given.sent.value

theorem System.transferred_of_committed
    {system : System α}
    {message : MsgId}
    (distinct : program.DistinctVars)
    (reached : System.Reached program system)
    (committed : system.world.commits message ≠ 0) :
    system.Transferred program message := by
  have delivered := Delivered.of_reached reached
  have faithful := Faithful.of_reached distinct reached
  simp only [System.Transferred]
  cases side : (program.msg message).side with
  | send =>
      obtain ⟨sent, member, rfl⟩ :=
        List.mem_map.mp ((delivered.mem_taken _ message).mpr ⟨rfl, side, committed⟩)
      exact ⟨sent, member, rfl, faithful.sent_value _ sent member,
        faithful.moved_from _ sent member⟩
  | recv =>
      obtain ⟨given, member, rfl⟩ :=
        List.mem_map.mp ((delivered.mem_given _ message).mpr ⟨rfl, side, committed⟩)
      exact ⟨given, member, rfl, faithful.given_value _ given member⟩

/-- The values that the committed senders of a channel held are exactly those its
committed receivers were given, followed by those in its buffer; every message
is committed at most once, its semaphore released with it, and the variable of a
message that is not committed is as before the run. -/
theorem exactly_once
    {system : System α}
    (distinct : program.DistinctVars)
    (reached : System.Reached program system) :
    (∀ id,
      ((system.chan id).taken.map Sent.origin).Nodup ∧
      (∀ message, message ∈ (system.chan id).taken.map Sent.origin ↔
        (program.msg message).chan = id ∧ (program.msg message).side = .send ∧
          system.world.commits message ≠ 0) ∧
      (∀ sent ∈ (system.chan id).taken, sent.value = program.value sent.origin) ∧
      ((system.chan id).given.map Given.target).Nodup ∧
      (∀ message, message ∈ (system.chan id).given.map Given.target ↔
        (program.msg message).chan = id ∧ (program.msg message).side = .recv ∧
          system.world.commits message ≠ 0) ∧
      (∀ given ∈ (system.chan id).given, ∀ var,
        program.data given.target = some var →
          system.world.mem var = some given.sent.value) ∧
      (system.chan id).taken =
        (system.chan id).given.map Given.sent ++ (system.chan id).buffer) ∧
    (∀ message var, program.data message = some var →
      system.world.commits message = 0 →
        system.world.mem var = some (program.mem var)) ∧
    (∀ message, system.world.commits message ≠ 0 →
      system.world.commits message = 1 ∧
        ∀ signal, program.signal? message = some signal →
          system.world.released signal = 1) := by
  have delivered := Delivered.of_reached reached
  have faithful := Faithful.of_reached distinct reached
  refine ⟨fun id => ?_, faithful.untouched, fun message committed => ⟨?_, ?_⟩⟩
  · exact ⟨delivered.taken_nodup id, delivered.mem_taken id, faithful.sent_value id,
      delivered.given_nodup id, delivered.mem_given id, faithful.given_value id,
      delivered.fifo id⟩
  · have once := delivered.ledger.once message
    omega
  · exact fun signal has => delivered.ledger.released_once committed has

theorem exactly_once_sample :
    let system := System.after .sample
      [.enter 1, .turn 0, .turn 0, .enter 0, .turn 0, .turn 0]
    (system.chan 0).given = [⟨1, ⟨0, 100⟩⟩] ∧ system.world.mem 1 = some 100 ∧
      system.world.released (.own 0) = 1 := by
  intro system
  have reached : System.Reached .sample system := System.reached_after _ _
  obtain ⟨books, _, once⟩ := exactly_once Program.sample_distinctVars reached
  obtain ⟨_, _, _, _, _, values, _⟩ := books 0
  have given : (system.chan 0).given = [⟨1, ⟨0, 100⟩⟩] := by decide
  refine ⟨given, ?_, ?_⟩
  · exact values ⟨1, ⟨0, 100⟩⟩ (by simp [given]) 1 rfl
  · exact (once 0 (by decide)).2 (.own 0) rfl

end Memory

end Channel
end Cgo
