import Cgo.Lib.Batch
import Cgo.Lib.Path

/-!
# What a batch has tried

A call that returns with room for another item has tried every queue.  Each queue was
empty at some moment of the call, or it gave an item to the call; so a call that returns
nothing has seen every queue empty, though not all of them at one moment.
-/

namespace Cgo
namespace Lib
namespace Batch

universe u v w x

variable {α : Type u}

/-! ## One call -/

/-- Every queue has an offset from the caller's own. -/
theorem exists_offset
    {own index count : Nat}
    (ownBelow : own < count)
    (below : index < count) :
    ∃ i < count, (own + i) % count = index := by
  rcases Nat.lt_or_ge index own with less | atLeast
  · refine ⟨index + count - own, by omega, ?_⟩
    rw [show own + (index + count - own) = index + count by omega, Nat.add_mod_right,
      Nat.mod_eq_of_lt below]
  · refine ⟨index - own, by omega, ?_⟩
    rw [Nat.add_sub_cancel' atLeast, Nat.mod_eq_of_lt below]

/-- A turn of a call, in which an attempt finds what there is. -/
inductive Turn (queues : Nat) (finds : Nat → Option α) (call : Call α) : Outcome α → Prop
  | left :
      call.pc.executing = false → call.offset? queues = none →
      Turn queues finds call call.left
  | missed (i : Nat) :
      call.offset? queues = some i → finds i = none → Turn queues finds call call.missed
  | found (i : Nat) (item : α) :
      call.offset? queues = some i → finds i = some item →
      Turn queues finds call (.goesOn (call.found item))
  | finished :
      call.pc.executing = true → Turn queues finds call call.finished

/-- How many queues the second loop has tried. -/
def Call.tried (call : Call α) : Nat :=
  match call.pc with
  | .steal i => i
  | .stealExecute i => i + 1
  | _ => 0

/-- The first queues up to a number were empty once, or gave an item to the call. -/
def Call.Covers
    (Empty : Nat → Prop) (Gave : Nat → α → Prop) (count : Nat) (call : Call α) : Prop :=
  ∀ i < count, Empty i ∨ ∃ item ∈ call.executed, Gave i item

/-- What a turn leaves: a call that has covered what it has tried, or one that has covered
all unless its batch is complete. -/
def Outcome.Covers
    (Empty : Nat → Prop) (Gave : Nat → α → Prop) (queues : Nat) : Outcome α → Prop
  | .goesOn call => call.Covers Empty Gave call.tried
  | .returns call => call.cnt < call.batchSize → call.Covers Empty Gave queues

namespace Call

variable {Empty : Nat → Prop} {Gave : Nat → α → Prop} {queues : Nat} {call : Call α}

/-- A call that has tried nothing covers it. -/
theorem covers_zero (call : Call α) : call.Covers Empty Gave 0 := by
  simp [Covers]

/-- Between the loops either the batch is complete or nothing was stolen yet. -/
theorem covers_leaveOwn (call : Call α) : call.leaveOwn.Covers Empty Gave queues := by
  unfold leaveOwn
  split
  · next complete => exact fun room => absurd complete (Nat.ne_of_lt room)
  · exact covers_zero _

/-- One more queue is covered. -/
theorem Covers.succ
    {count : Nat}
    (covers : call.Covers Empty Gave count)
    (last : Empty count ∨ ∃ item ∈ call.executed, Gave count item) :
    call.Covers Empty Gave (count + 1) := by
  intro i below
  rcases Nat.lt_succ_iff_lt_or_eq.mp below with earlier | rfl
  · exact covers i earlier
  · exact last

/-- The call goes on, or more is known. -/
theorem Covers.mono
    {count : Nat}
    {later : Call α}
    {Empty' : Nat → Prop}
    {Gave' : Nat → α → Prop}
    (covers : call.Covers Empty Gave count)
    (executed : ∀ item ∈ call.executed, item ∈ later.executed)
    (empty : ∀ i, Empty i → Empty' i)
    (gave : ∀ i item, Gave i item → Gave' i item) :
    later.Covers Empty' Gave' count := by
  intro i below
  rcases covers i below with nothing | ⟨item, member, given⟩
  · exact .inl (empty i nothing)
  · exact .inr ⟨item, executed item member, gave i item given⟩

/-- A call that executes tries nothing. -/
theorem executing_of_tries
    {i : Nat}
    (tries : call.offset? queues = some i) :
    call.pc.executing = false := by
  cases pc : call.pc with
  | own => rfl
  | steal => rfl
  | ownExecute => simp [offset?, pc] at tries
  | stealExecute => simp [offset?, pc] at tries

/-- The number of the queue that is tried. -/
theorem eq_of_steal
    {i j : Nat}
    (pc : call.pc = .steal j)
    (tries : call.offset? queues = some i) :
    j = i := by
  simp only [offset?, pc] at tries
  split at tries
  · exact Option.some.inj tries
  · cases tries

end Call

theorem Turn.covers
    {Empty : Nat → Prop}
    {Gave : Nat → α → Prop}
    {queues : Nat}
    {finds : Nat → Option α}
    {call : Call α}
    {outcome : Outcome α}
    (turn : Turn queues finds call outcome)
    (covers : call.Covers Empty Gave call.tried)
    (empty : ∀ i, call.pc.executing = false → finds i = none → Empty i)
    (gave : ∀ i item, finds i = some item → Gave i item) :
    outcome.Covers Empty Gave queues := by
  cases turn with
  | left idle stops =>
      cases pc : call.pc with
      | own =>
          simp only [Call.left, pc]
          exact call.covers_leaveOwn
      | steal i =>
          have all : queues ≤ i := by
            by_contra more
            simp [Call.offset?, pc, Nat.lt_of_not_le more] at stops
          simp only [Call.left, pc]
          simp only [Call.tried, pc] at covers
          exact fun _ j below => covers j (by omega)
      | ownExecute => simp [pc, Pc.executing] at idle
      | stealExecute => simp [pc, Pc.executing] at idle
  | missed i tries nothing =>
      cases pc : call.pc with
      | own =>
          simp only [Call.missed, pc]
          exact Call.covers_leaveOwn _
      | steal j =>
          obtain rfl := Call.eq_of_steal pc tries
          simp only [Call.missed, pc]
          simp only [Call.tried, pc] at covers
          exact covers.succ (.inl (empty j (Call.executing_of_tries tries) nothing))
      | ownExecute => simp [Call.offset?, pc] at tries
      | stealExecute => simp [Call.offset?, pc] at tries
  | found i item tries has =>
      cases pc : call.pc with
      | own =>
          simp only [Outcome.Covers, Call.tried, Call.found, pc]
          exact Call.covers_zero _
      | steal j =>
          obtain rfl := Call.eq_of_steal pc tries
          simp only [Call.tried, pc] at covers
          have kept : (call.found item).Covers Empty Gave j :=
            covers.mono (by simp +contextual [Call.found]) (fun _ => id) fun _ _ => id
          have more := kept.succ (.inr ⟨item, by simp [Call.found], gave j item has⟩)
          simpa only [Outcome.Covers, Call.tried, Call.found, pc] using more
      | ownExecute => simp [Call.offset?, pc] at tries
      | stealExecute => simp [Call.offset?, pc] at tries
  | finished executing =>
      cases pc : call.pc with
      | ownExecute =>
          simp only [Call.finished, pc]
          exact Call.covers_zero _
      | stealExecute i =>
          simp only [Call.tried, pc] at covers
          simp only [Call.finished, pc]
          split
          · next complete => exact fun room => absurd complete (Nat.ne_of_lt room)
          · exact covers
      | own => simp [pc, Pc.executing] at executing
      | steal => simp [pc, Pc.executing] at executing

/-- The call finds its own queue empty in a turn that tries it. -/
theorem Turn.foundEmpty
    {queues : Nat}
    {finds : Nat → Option α}
    {call : Call α}
    {outcome : Outcome α}
    (turn : Turn queues finds call outcome)
    (empty : outcome.call.foundEmpty = true) :
    call.foundEmpty = true ∨ call.pc.executing = false ∧ finds 0 = none := by
  have leaveOwn : ∀ call : Call α, call.leaveOwn.call.foundEmpty = call.foundEmpty := by
    intro call
    unfold Call.leaveOwn
    split <;> rfl
  cases turn with
  | left =>
      left
      unfold Call.left at empty
      split at empty
      · rwa [leaveOwn] at empty
      · exact empty
  | missed i tries nothing =>
      cases pc : call.pc with
      | own =>
          have own : i = 0 := by
            simp only [Call.offset?, pc] at tries
            split at tries
            · exact (Option.some.inj tries).symm
            · cases tries
          exact .inr ⟨rfl, own ▸ nothing⟩
      | steal j =>
          simp only [Call.missed, pc] at empty
          exact .inl empty
      | ownExecute => simp [Call.offset?, pc] at tries
      | stealExecute => simp [Call.offset?, pc] at tries
  | found => exact .inl empty
  | finished =>
      left
      simp only [Call.finished] at empty
      split at empty
      · split at empty <;> exact empty
      · exact empty

/-- No turn changes the size of the batch. -/
theorem Turn.batchSize
    {queues : Nat}
    {finds : Nat → Option α}
    {call : Call α}
    {outcome : Outcome α}
    (turn : Turn queues finds call outcome) :
    outcome.call.batchSize = call.batchSize := by
  have leaveOwn : ∀ call : Call α, call.leaveOwn.call.batchSize = call.batchSize := by
    intro call
    unfold Call.leaveOwn
    split <;> rfl
  cases turn with
  | left =>
      unfold Call.left
      split
      · exact leaveOwn call
      · rfl
  | missed =>
      unfold Call.missed
      split
      · rfl
      · exact leaveOwn _
  | found => rfl
  | finished =>
      simp only [Call.finished]
      split
      · split <;> rfl
      · rfl

/-! ## Runs -/

section

variable {State : Type v} {Label : Type w} {Worker : Type x} [DecidableEq Worker]
variable {step : State → Label → Option State} {initial : State}
variable {calls : State → Calls Worker α}
variable {queues : Worker → Nat} {finds : State → Worker → Nat → Option α}
variable {tries : Label → Worker → Prop}
variable {worker : Worker} {batchSize : Nat} {taken : List (Transition State Label)}

/-- The call of a worker stays as it is, or makes a turn; all turns but the end of an
execution are tries. -/
def Round
    (queues : Worker → Nat) (finds : Worker → Nat → Option α) (tries : Worker → Prop)
    (calls after : Calls Worker α) (worker : Worker) (call : Call α) : Prop :=
  (after.running worker = some call ∧ after.past worker = calls.past worker) ∨
    ∃ outcome, Turn (queues worker) (finds worker) call outcome ∧
      (call.pc.executing = false → tries worker) ∧ after = calls.settle worker outcome

/-- In every state of a system, a step is a round for every worker that makes a call. -/
def Rounds
    (step : State → Label → Option State)
    (initial : State)
    (calls : State → Calls Worker α)
    (queues : Worker → Nat)
    (finds : State → Worker → Nat → Option α)
    (tries : Label → Worker → Prop) : Prop :=
  ∀ ⦃before label after worker call⦄,
    Reachable step initial before → step before label = some after →
    (calls before).running worker = some call →
      Round queues (finds before) (tries label) (calls before) (calls after) worker call

omit [DecidableEq Worker] in
/-- A worker that makes a call had none. -/
theorem ne_of_idle
    {calls : Calls Worker α}
    {caller : Worker}
    {call : Call α}
    (running : calls.running worker = some call)
    (idle : calls.running caller = none) :
    worker ≠ caller := by
  rintro rfl
  rw [idle] at running
  cases running

/-- A turn of one worker is a round of all. -/
theorem Turn.round
    {calls after : Calls Worker α}
    {finds : Worker → Nat → Option α}
    {tries : Worker → Prop}
    {caller : Worker}
    {call called : Call α}
    {outcome : Outcome α}
    (running : calls.running worker = some call)
    (runs : calls.running caller = some called)
    (turn : Turn (queues caller) (finds caller) called outcome)
    (trying : called.pc.executing = false → tries caller)
    (settled : after = calls.settle caller outcome) :
    Round queues finds tries calls after worker call := by
  rcases eq_or_ne worker caller with rfl | apart
  · obtain rfl := Option.some.inj (runs.symm.trans running)
    exact .inr ⟨outcome, turn, trying, settled⟩
  · left
    rw [settled, calls.running_settle_of_ne apart, calls.past_settle_of_ne apart]
    exact ⟨running, rfl⟩

/-- A worker without a call makes one. -/
theorem round_of_start
    {calls after : Calls Worker α}
    {finds : Worker → Nat → Option α}
    {tries : Worker → Prop}
    {caller : Worker}
    {call called : Call α}
    (running : calls.running worker = some call)
    (idle : calls.running caller = none)
    (settled : after = calls.settle caller (.goesOn called)) :
    Round queues finds tries calls after worker call := by
  left
  rw [settled, calls.running_settle_of_ne (ne_of_idle running idle)]
  exact ⟨running, rfl⟩

/-- The queue was empty at some moment of the run, in a try of the worker. -/
def WasEmpty
    (finds : State → Worker → Nat → Option α) (tries : Label → Worker → Prop) (worker : Worker)
    (taken : List (Transition State Label)) (i : Nat) : Prop :=
  ∃ transition ∈ taken, tries transition.label worker ∧ finds transition.before worker i = none

/-- The item was the first of the queue at some moment of the run. -/
def WasFirst
    (finds : State → Worker → Nat → Option α) (worker : Worker)
    (taken : List (Transition State Label)) (i : Nat) (item : α) : Prop :=
  ∃ transition ∈ taken, finds transition.before worker i = some item

/-- What is known of a call of the worker that is under way; `past` is what its earlier
calls have executed. -/
structure Trying
    (finds : State → Worker → Nat → Option α) (tries : Label → Worker → Prop)
    (worker : Worker) (batchSize : Nat)
    (past : List α) (taken : List (Transition State Label)) (calls : Calls Worker α)
    (call : Call α) : Prop where
  running : calls.running worker = some call
  past : calls.past worker = past
  size : call.batchSize = batchSize
  own : call.foundEmpty = true → WasEmpty finds tries worker taken 0
  covers : call.Covers (WasEmpty finds tries worker taken) (WasFirst finds worker taken) call.tried

/-- The call has returned, and has tried every queue unless its batch is complete. -/
structure HasTried
    (queues : Worker → Nat)
    (finds : State → Worker → Nat → Option α) (tries : Label → Worker → Prop)
    (worker : Worker) (batchSize : Nat)
    (past : List α) (taken : List (Transition State Label)) (calls : Calls Worker α)
    (call : Call α) : Prop where
  idle : calls.running worker = none
  past : calls.past worker = past ++ call.executed
  last : calls.returned.getLast? = some ⟨worker, call, call.cnt⟩
  size : call.batchSize = batchSize
  own : call.foundEmpty = true → WasEmpty finds tries worker taken 0
  covers : call.cnt < batchSize →
    call.Covers (WasEmpty finds tries worker taken) (WasFirst finds worker taken) (queues worker)

/-- What a step preserves. -/
theorem Trying.of_step
    {past : List α}
    {before after : State}
    {label : Label}
    {call : Call α}
    (rounds : Rounds step initial calls queues finds tries)
    (reached : Reachable step initial before)
    (trying : Trying finds tries worker batchSize past taken (calls before) call)
    (stepped : step before label = some after) :
    let taken := taken ++ [⟨before, label, after⟩]
    ∃ next, Trying finds tries worker batchSize past taken (calls after) next ∨
      HasTried queues finds tries worker batchSize past taken (calls after) next := by
  intro more
  have empty : ∀ i, WasEmpty finds tries worker taken i → WasEmpty finds tries worker more i := by
    rintro i ⟨transition, member, tried, nothing⟩
    exact ⟨transition, List.mem_append_left _ member, tried, nothing⟩
  have gave : ∀ i item, WasFirst finds worker taken i item →
      WasFirst finds worker more i item := by
    rintro i item ⟨transition, member, first⟩
    exact ⟨transition, List.mem_append_left _ member, first⟩
  have kept := trying.covers.mono (fun _ => id) empty gave
  rcases rounds reached stepped trying.running with
    ⟨same, samePast⟩ | ⟨outcome, turn, attempt, settled⟩
  · exact ⟨call, .inl ⟨same, samePast.trans trying.past, trying.size,
      fun found => empty 0 (trying.own found), kept⟩⟩
  · have last : ⟨before, label, after⟩ ∈ more := by simp [more]
    have turned := turn.covers kept (fun i idle nothing => ⟨_, last, attempt idle, nothing⟩)
      fun i item first => ⟨_, last, first⟩
    have own : outcome.call.foundEmpty = true → WasEmpty finds tries worker more 0 := by
      intro found
      rcases turn.foundEmpty found with earlier | ⟨idle, nothing⟩
      · exact empty 0 (trying.own earlier)
      · exact ⟨_, last, attempt idle, nothing⟩
    have size := turn.batchSize.trans trying.size
    rw [settled]
    cases outcome with
    | goesOn next => exact ⟨next, .inl ⟨by simp, trying.past, size, own, turned⟩⟩
    | returns final =>
        refine ⟨final, .inr ⟨by simp [Calls.settle], by simp [trying.past],
          by simp [Calls.settle], size, own, fun room => turned ?_⟩⟩
        rwa [show final.batchSize = batchSize from size]

/-- A call that returns has executed what the worker has executed since, and one with room
for another item has tried every queue: it was empty at some moment of the call, or it gave
an item. -/
theorem Rounds.hasTried
    {start state : State}
    (rounds : Rounds step initial calls queues finds tries)
    (reached : Reachable step initial start)
    (path : Path step start taken state)
    (begun : (calls start).running worker = some (.start batchSize))
    (underWay : ∀ transition ∈ taken, (calls transition.before).running worker ≠ none)
    (returned : (calls state).running worker = none) :
    ∃ call, HasTried queues finds tries worker batchSize ((calls start).past worker) taken
      (calls state) call := by
  have known : ∃ call,
      Trying finds tries worker batchSize ((calls start).past worker) taken (calls state) call ∨
        HasTried queues finds tries worker batchSize ((calls start).past worker) taken (calls state)
          call := by
    clear returned
    induction path with
    | nil => exact ⟨_, .inl ⟨begun, rfl, rfl, by simp [Call.start], Call.covers_zero _⟩⟩
    | snoc prior stepped inductionHypothesis =>
        obtain ⟨call, trying | tried⟩ :=
          inductionHypothesis fun _ member => underWay _ (by simp [member])
        · exact trying.of_step rounds (reached.trans ⟨_, prior⟩) stepped
        · exact absurd tried.idle (underWay _ (List.mem_append_right _ (List.mem_singleton_self _)))
  obtain ⟨call, trying | tried⟩ := known
  · have running := trying.running
    rw [returned] at running
    cases running
  · exact ⟨call, tried⟩

end

end Batch
end Lib
end Cgo
