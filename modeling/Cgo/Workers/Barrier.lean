import Cgo.Lib.Barrier
import Cgo.Workers.System

/-!
# The barrier of the workers

`Context::_run` passes `_barrier` twice: before the loop and after it.  The system of the
workers lets a worker pass when all have come as far; here the `std::barrier` itself
decides, and the two agree in every reachable state.
-/

namespace Cgo
namespace Workers

open Lib (Barrier)

/-- How often a worker has arrived at the barrier and how often it has passed it,
together. -/
def Pc.gate (pc : Pc) : Nat :=
  min (pc.stage - 3) 4

namespace Context

variable {workers : Nat} {before after : Context} {label : Label}

/-- A worker moves, and if it is not one of the context it stands still. -/
structure Moves (workers : Nat) (before after : Context) (worker : Index) (target : Pc) : Prop where
  pc : after.pc = Function.update before.pc worker target
  known : workers ≤ worker → before.pc worker ≠ .start

/-- The steps that have nothing to do with the barrier. -/
def Label.ordinary : Label → Bool
  | .arrive _ | .pass _ _ | .loop _ | .stop _ => false
  | _ => true

/-- No worker crosses the barrier. -/
inductive Between (workers : Nat) (before after : Context) : Prop
  | moves (worker : Index) (target : Pc) (moves : Moves workers before after worker target)
      (same : target.gate = (before.pc worker).gate)
  | stays (pc : after.pc = before.pc)

theorem Moves.of_at
    {worker : Index}
    {origin target : Pc}
    (at_ : before.pc worker = origin)
    (started : origin ≠ .start)
    (pc : after.pc = Function.update before.pc worker target) :
    Moves workers before after worker target :=
  ⟨pc, fun _ => at_ ▸ started⟩

theorem gate_afterBranch (ctx : Context) (worker : Index) (flag : Bool) (now : Time) :
    (ctx.afterBranch worker flag now).gate = 2 := by
  unfold afterBranch
  split
  · split <;> rfl
  · rfl

/-- A worker that is on its way between two barriers. -/
theorem between_of_at
    {worker : Index}
    {origin target : Pc}
    (at_ : before.pc worker = origin)
    (started : origin ≠ .start)
    (pc : after.pc = Function.update before.pc worker target)
    (same : target.gate = origin.gate) :
    Between workers before after :=
  .moves worker target (.of_at at_ started pc) (by rw [at_, same])

theorem between_of_step
    (ordinary : label.ordinary)
    (stepped : step workers before label = some after) :
    Between workers before after := by
  cases label with
  | arrive => simp [Label.ordinary] at ordinary
  | pass => simp [Label.ordinary] at ordinary
  | loop => simp [Label.ordinary] at ordinary
  | stop => simp [Label.ordinary] at ordinary
  | construct worker =>
      simp only [step] at stepped
      split at stepped
      · next enabled =>
          obtain rfl := Option.some.inj stepped
          have known : workers ≤ worker → before.pc worker ≠ .start :=
            fun outside => absurd enabled.1 (Nat.not_lt.mpr outside)
          exact .moves worker .constructed ⟨rfl, known⟩ (by rw [enabled.2]; rfl)
      · cases stepped
  | onScheduled worker =>
      simp only [step] at stepped
      split at stepped
      · next at_ =>
          obtain rfl := Option.some.inj stepped
          exact between_of_at at_ (by simp) rfl rfl
      · cases stepped
  | onTimeout worker =>
      simp only [step] at stepped
      split at stepped
      · next at_ =>
          obtain rfl := Option.some.inj stepped
          exact between_of_at at_ (by simp) rfl rfl
      · cases stepped
  | runTask worker partition =>
      simp only [step] at stepped
      split at stepped
      · next ran task rest at_ queued =>
          obtain rfl := Option.some.inj stepped
          exact between_of_at at_ (by simp) rfl rfl
      · cases stepped
  | endScheduled worker =>
      simp only [step] at stepped
      split at stepped
      · next ran at_ =>
          obtain rfl := Option.some.inj stepped
          exact between_of_at at_ (by simp) rfl rfl
      · cases stepped
  | runTimer worker slot timer now =>
      simp only [step] at stepped
      split at stepped
      · next schedFlag ran at_ =>
          split at stepped
          · obtain rfl := Option.some.inj stepped
            exact between_of_at at_ (by simp) rfl rfl
          · cases stepped
      · cases stepped
  | endTimeout worker =>
      simp only [step] at stepped
      split at stepped
      · next schedFlag ran at_ =>
          obtain rfl := Option.some.inj stepped
          exact between_of_at at_ (by simp) rfl rfl
      · cases stepped
  | branch worker now =>
      simp only [step] at stepped
      split at stepped
      · next flag at_ =>
          obtain rfl := Option.some.inj stepped
          exact between_of_at at_ (by simp) rfl (gate_afterBranch before worker flag now)
      · cases stepped
  | endHandler worker now =>
      simp only [step] at stepped
      split at stepped
      · next timeout at_ =>
          obtain rfl := Option.some.inj stepped
          exact between_of_at at_ (by simp) rfl rfl
      · cases stepped
  | close worker =>
      simp only [step] at stepped
      split at stepped
      · next at_ =>
          obtain rfl := Option.some.inj stepped
          exact between_of_at at_ (by simp) rfl rfl
      · cases stepped
  | detach worker =>
      simp only [step] at stepped
      split at stepped
      · next at_ =>
          obtain rfl := Option.some.inj stepped
          exact between_of_at at_ (by simp) rfl rfl
      · cases stepped
  | «return» worker =>
      simp only [step] at stepped
      split at stepped
      · next at_ =>
          obtain rfl := Option.some.inj stepped
          exact between_of_at at_ (by simp) rfl rfl
      · cases stepped
  | shutdown =>
      obtain rfl := Option.some.inj stepped
      exact .stays rfl
  | push thread id =>
      simp only [step] at stepped
      split at stepped
      · obtain rfl := Option.some.inj stepped
        exact .stays rfl
      · cases stepped
  | createTimeout thread ex =>
      simp only [step] at stepped
      split at stepped
      · obtain rfl := Option.some.inj stepped
        exact .stays rfl
      · cases stepped
  | emit thread =>
      simp only [step] at stepped
      split at stepped
      · cases stepped
      · obtain rfl := Option.some.inj stepped
        exact .stays rfl

end Context

/-- A context with its `_barrier`, and the phase in which each worker arrived. -/
structure Gated where
  ctx : Context
  barrier : Barrier
  token : Index → Nat

namespace Gated

open Context (Label)

/-- After the constructors in `startup`, before the threads run. -/
def initial (workers : Nat) : Gated where
  ctx := .initial
  barrier := .ofExpected workers
  token := fun _ => 0

/-- A worker arrives at the barrier. -/
def arriveAt (gated : Gated) (worker : Index) : Gated :=
  { gated with
    barrier := gated.barrier.arrive
    token := Function.update gated.token worker gated.barrier.phase }

/-- One step; the barrier lets a worker pass once its phase is over. -/
def step (workers : Nat) (gated : Gated) : Label → Option Gated
  | .arrive worker =>
      (gated.ctx.step workers (.arrive worker)).map fun ctx =>
        { gated with ctx }.arriveAt worker
  | .pass worker now =>
      if gated.ctx.pc worker = .arrived ∧ gated.barrier.phase ≠ gated.token worker then
        some { gated with
          ctx := { gated.ctx.goto worker .loop with
            lastHandle := Function.update gated.ctx.lastHandle worker now } }
      else none
  | .loop worker =>
      (gated.ctx.step workers (.loop worker)).map fun ctx =>
        if ctx.pc worker = .left then { gated with ctx }.arriveAt worker else { gated with ctx }
  | .stop worker =>
      if gated.ctx.pc worker = .left ∧ gated.barrier.phase ≠ gated.token worker then
        some { gated with ctx := gated.ctx.goto worker .stopped }
      else none
  | label => (gated.ctx.step workers label).map fun ctx => { gated with ctx }

/-- Reachable from the start of a context with `workers` workers. -/
def Reached (workers : Nat) (gated : Gated) : Prop :=
  Lib.Reachable (step workers) (initial workers) gated

/-- The barrier has counted the workers of the context. -/
structure Sound (workers : Nat) (gated : Gated) : Prop where
  counts : gated.barrier.Counts (Finset.range workers) (fun worker => (gated.ctx.pc worker).gate)
    gated.token
  outside : ∀ worker, workers ≤ worker → gated.ctx.pc worker = .start

namespace Sound

variable {workers : Nat} {gated : Gated}

theorem initial (workers : Nat) : Sound workers (initial workers) where
  counts := by
    have counts := Barrier.Counts.initial (Finset.range workers) fun _ => 0
    rwa [Finset.card_range] at counts
  outside := fun _ _ => rfl

/-- A worker that moves is one of the context. -/
private theorem known
    {after : Context}
    {worker : Index}
    {target : Pc}
    (sound : Sound workers gated)
    (moves : gated.ctx.Moves workers after worker target) :
    worker ∈ Finset.range workers := by
  rw [Finset.mem_range]
  by_contra outside
  exact moves.known (Nat.not_lt.mp outside) (sound.outside worker (Nat.not_lt.mp outside))

private theorem outside_of_moves
    {after : Context}
    {worker : Index}
    {target : Pc}
    (sound : Sound workers gated)
    (moves : gated.ctx.Moves workers after worker target) :
    ∀ other, workers ≤ other → after.pc other = .start := by
  intro other outside
  have different : other ≠ worker := by
    rintro rfl
    exact moves.known outside (sound.outside other outside)
  rw [moves.pc, Function.update_of_ne different]
  exact sound.outside other outside

/-- The gates after a move. -/
private theorem gate_of_moves
    {after : Context}
    {worker : Index}
    {target : Pc}
    (moves : gated.ctx.Moves workers after worker target) :
    (fun other => (after.pc other).gate) =
      Function.update (fun other => (gated.ctx.pc other).gate) worker target.gate := by
  funext other
  rw [moves.pc]
  rcases eq_or_ne other worker with rfl | different
  · simp
  · simp [different]

/-- Nobody crosses the barrier. -/
private theorem between
    {after : Context}
    (sound : Sound workers gated)
    (between : gated.ctx.Between workers after) :
    Sound workers { gated with ctx := after } := by
  cases between with
  | moves worker target moves same =>
      refine ⟨?_, sound.outside_of_moves moves⟩
      have kept := gate_of_moves moves
      rw [same, Function.update_eq_self] at kept
      simp only [kept]
      exact sound.counts
  | stays pc => exact ⟨by simpa [pc] using sound.counts, by simpa [pc] using sound.outside⟩

/-- A worker arrives. -/
private theorem arrive
    {after : Context}
    {worker : Index}
    {target : Pc}
    (sound : Sound workers gated)
    (moves : gated.ctx.Moves workers after worker target)
    (even : (gated.ctx.pc worker).gate % 2 = 0)
    (next : target.gate = (gated.ctx.pc worker).gate + 1) :
    Sound workers ({ gated with ctx := after }.arriveAt worker) where
  counts := by
    have arrived := sound.counts.arrive (sound.known moves) even
    rw [← next, ← gate_of_moves moves] at arrived
    exact arrived
  outside := sound.outside_of_moves moves

/-- A worker passes. -/
private theorem pass
    {after : Context}
    {worker : Index}
    {target : Pc}
    (sound : Sound workers gated)
    (moves : gated.ctx.Moves workers after worker target)
    (odd : (gated.ctx.pc worker).gate % 2 = 1)
    (next : target.gate = (gated.ctx.pc worker).gate + 1)
    (ended : gated.barrier.phase ≠ gated.token worker) :
    Sound workers { gated with ctx := after } where
  counts := by
    have passed := sound.counts.pass (sound.known moves) odd ended
    rw [← next, ← gate_of_moves moves] at passed
    exact passed
  outside := sound.outside_of_moves moves

/-- The barrier lets a worker pass exactly when all have come as far. -/
theorem ended_iff
    (sound : Sound workers gated)
    (worker : Index)
    (stage : Nat)
    (started : gated.ctx.pc worker ≠ .start)
    (at_ : (gated.ctx.pc worker).stage = stage)
    (odd : stage = 4 ∨ stage = 6) :
    gated.barrier.phase ≠ gated.token worker ↔ gated.ctx.AllAt workers stage := by
  have member : worker ∈ Finset.range workers := by
    rw [Finset.mem_range]
    by_contra outside
    exact started (sound.outside worker (Nat.not_lt.mp outside))
  have waits : (gated.ctx.pc worker).gate % 2 = 1 := by
    rw [Pc.gate, at_]
    rcases odd with rfl | rfl <;> rfl
  rw [sound.counts.open_iff member waits, Context.AllAt]
  simp only [Finset.mem_range, Pc.gate, at_]
  refine forall_congr' fun other => imp_congr_right fun _ => ?_
  rcases odd with rfl | rfl <;> omega

end Sound

/-- The barrier and the guards of the system agree. -/
theorem Sound.agrees
    {workers : Nat}
    {gated : Gated}
    (sound : Sound workers gated)
    (label : Label) :
    (gated.step workers label).map Gated.ctx = gated.ctx.step workers label := by
  cases label with
  | arrive worker => simp [step, Function.comp_def, arriveAt]
  | loop worker =>
      rw [step, Option.map_map]
      have same : (Gated.ctx ∘ fun ctx =>
          if ctx.pc worker = .left then { gated with ctx }.arriveAt worker
          else { gated with ctx }) = id := by
        funext ctx
        simp only [Function.comp_apply, id]
        split <;> rfl
      rw [same, Option.map_id, id]
  | pass worker now =>
      simp only [step, Context.step]
      by_cases at_ : gated.ctx.pc worker = .arrived
      · have agrees := sound.ended_iff worker 4 (by simp [at_]) (by rw [at_]; rfl) (.inl rfl)
        by_cases all : gated.ctx.AllAt workers 4
        · simp [at_, all, agrees.mpr all]
        · simp [at_, all, Decidable.not_not.mp (agrees.not.mpr all)]
      · simp [at_]
  | stop worker =>
      simp only [step, Context.step]
      by_cases at_ : gated.ctx.pc worker = .left
      · have agrees := sound.ended_iff worker 6 (by simp [at_]) (by rw [at_]; rfl) (.inr rfl)
        by_cases all : gated.ctx.AllAt workers 6
        · simp [at_, all, agrees.mpr all]
        · simp [at_, all, Decidable.not_not.mp (agrees.not.mpr all)]
      · simp [at_]
  | _ => simp [step, Function.comp_def]

/-- The step rule. -/
theorem Sound.step
    {workers : Nat}
    {gated after : Gated}
    {label : Label}
    (sound : Sound workers gated)
    (stepped : gated.step workers label = some after) :
    Sound workers after := by
  cases label with
  | arrive worker =>
      obtain ⟨ctx, moved, rfl⟩ := Option.map_eq_some_iff.mp stepped
      simp only [Context.step, Option.ite_none_right_eq_some, Option.some.injEq] at moved
      obtain ⟨at_, rfl⟩ := moved
      exact sound.arrive (.of_at at_ (by simp) rfl) (by rw [at_]; rfl) (by rw [at_]; rfl)
  | loop worker =>
      obtain ⟨ctx, moved, rfl⟩ := Option.map_eq_some_iff.mp stepped
      simp only [Context.step, Option.ite_none_right_eq_some, Option.some.injEq] at moved
      obtain ⟨at_, rfl⟩ := moved
      cases finished : gated.ctx.finished with
      | true =>
          simp only [if_true, Context.goto, Function.update_self]
          exact sound.arrive (.of_at at_ (by simp) rfl) (by rw [at_]; rfl) (by rw [at_]; rfl)
      | false =>
          simp only [Bool.false_eq_true, if_false, Context.goto, Function.update_self, reduceCtorEq]
          exact sound.between (Context.between_of_at at_ (by simp) rfl rfl)
  | pass worker now =>
      simp only [Gated.step, Option.ite_none_right_eq_some, Option.some.injEq] at stepped
      obtain ⟨⟨at_, ended⟩, rfl⟩ := stepped
      exact sound.pass (.of_at at_ (by simp) rfl) (by rw [at_]; rfl) (by rw [at_]; rfl) ended
  | stop worker =>
      simp only [Gated.step, Option.ite_none_right_eq_some, Option.some.injEq] at stepped
      obtain ⟨⟨at_, ended⟩, rfl⟩ := stepped
      exact sound.pass (.of_at at_ (by simp) rfl) (by rw [at_]; rfl) (by rw [at_]; rfl) ended
  | shutdown =>
      obtain rfl := Option.some.inj stepped
      exact sound.between (.stays rfl)
  | _ =>
      obtain ⟨ctx, moved, rfl⟩ := Option.map_eq_some_iff.mp stepped
      exact sound.between (Context.between_of_step rfl moved)

theorem Sound.of_reached
    {workers : Nat}
    {gated : Gated}
    (reached : gated.Reached workers) :
    Sound workers gated :=
  reached.invariant (.initial workers) fun _ _ _ sound stepped => sound.step stepped

/-- The barrier does what the guards of the system do: in every reachable state the same
steps are enabled and lead to the same context.  So no worker is in its loop before all
have attached their signals, and none closes its signal or goes through its tasks before
all have left their loops. -/
theorem barrier_agrees_with_guards
    {workers : Nat}
    {gated : Gated}
    (reached : gated.Reached workers) :
    gated.ctx.Reached workers ∧
      (∀ label, (gated.step workers label).map Gated.ctx = gated.ctx.step workers label) ∧
      ∀ worker other, other < workers →
        (5 ≤ (gated.ctx.pc worker).stage → 4 ≤ (gated.ctx.pc other).stage) ∧
          (7 ≤ (gated.ctx.pc worker).stage → 6 ≤ (gated.ctx.pc other).stage) := by
  have sound := Sound.of_reached reached
  refine ⟨?_, sound.agrees, ?_⟩
  · refine reached.invariant_of_reachable (fun gated => gated.ctx.Reached workers) .refl ?_
    intro before label after reachedBefore ctxReached stepped
    apply ctxReached.tail
    rw [← (Sound.of_reached reachedBefore).agrees, stepped, Option.map_some]
  · intro worker other known
    rcases Nat.lt_or_ge worker workers with member | outside
    · have upper := sound.counts.upper worker (Finset.mem_range.mpr member)
      have lower := sound.counts.lower other (Finset.mem_range.mpr known)
      simp only [Pc.gate] at upper lower
      omega
    · rw [sound.outside worker outside]
      simp [Pc.stage]

/-- Two workers attach their signals, and the first of them passes and leaves its loop
when the context is shut down. -/
private def firstLeaves : List Label :=
  [.construct 0, .onScheduled 0, .onTimeout 0, .arrive 0, .construct 1, .onScheduled 1,
    .onTimeout 1, .arrive 1, .pass 0 30, .shutdown, .loop 0]

theorem barrier_agrees_with_guards_sample :
    let gated := Lib.runFrom (step 2) (initial 2) firstLeaves
    gated.ctx.pc 0 = .left ∧ (gated.step 2 (.stop 0)).map Gated.ctx = none := by
  intro gated
  refine ⟨by decide, ?_⟩
  rw [(barrier_agrees_with_guards (Lib.Reachable.runFrom (step 2) (initial 2) firstLeaves)).2.1]
  decide

end Gated
end Workers
end Cgo
