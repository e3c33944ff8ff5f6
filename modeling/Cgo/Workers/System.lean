import Cgo.Lib.Path
import Mathlib.Logic.Function.Basic

/-!
# The workers of a context

`Context::_run` of every worker from its start to its return, the signal that lives
in it, and what refers to that signal: the runnable queue and the timer slot of the
worker's partition.  Any thread may push tasks and create timers at any time, also
while the workers start or stop and afterwards.  What a task or a timer does is in
the pushes; which of them `run_scheduled` and `run_timeout` take is left open.
-/

namespace Cgo
namespace Workers

/-- The number of a worker and of its partition, `pindex`. -/
abbrev Index := Nat

/-- A time of the steady clock, in nanoseconds. -/
abbrev Time := Int

/-- `BaseLazySignal`: `_waited` and `_emitted`. -/
structure LazySignal where
  waited : Bool
  emitted : Bool
  deriving DecidableEq

/-- A signal as constructed. -/
def LazySignal.initial : LazySignal where
  waited := false
  emitted := false

/-- The test by which `emit` calls `_emit`. -/
def LazySignal.emits (signal : LazySignal) : Bool :=
  signal.waited && !signal.emitted

/-- `BaseLazySignal::emit`. -/
def LazySignal.emit (signal : LazySignal) : LazySignal :=
  if signal.emits then { signal with emitted := true } else signal

/-- `TimedContext::Task` without its callback. -/
structure Timer where
  id : Nat
  ex : Time
  deriving DecidableEq

/-- Where a worker is in `_run`. -/
inductive Pc where
  | start
  /-- The signal is constructed. -/
  | constructed
  /-- After `on_scheduled`. -/
  | onScheduled
  /-- After `on_timeout`. -/
  | onTimeout
  /-- At the first barrier. -/
  | arrived
  /-- At the head of the loop. -/
  | loop
  /-- In `run_scheduled`, and whether it has run a task. -/
  | scheduled (ran : Bool)
  /-- In `run_timeout`, with `sched_flag` and whether it has run a timer. -/
  | timed (schedFlag ran : Bool)
  /-- At the branch, with `sched_flag || timed_flag`. -/
  | branch (flag : Bool)
  /-- In `run_handler`, with the timeout in milliseconds. -/
  | handler (timeout : Nat)
  /-- At the second barrier. -/
  | left
  /-- Before `signal.close()`. -/
  | stopped
  /-- Before `final_schedule`. -/
  | closed
  /-- In the loop of `final_schedule`. -/
  | detached
  | returned
  deriving DecidableEq

/-- How far `_run` has come. -/
def Pc.stage : Pc → Nat
  | start => 0
  | constructed => 1
  | onScheduled => 2
  | onTimeout => 3
  | arrived => 4
  | loop | scheduled _ | timed _ _ | branch _ | handler _ => 5
  | left => 6
  | stopped => 7
  | closed => 8
  | detached => 9
  | returned => 10

/-- A context.  A signal is named by the worker that owns it. -/
structure Context where
  pc : Index → Pc
  /-- `last_handle_time` of a worker. -/
  lastHandle : Index → Time
  signals : Index → LazySignal
  /-- The calls of `_emit` on a signal.  The code does not count them. -/
  emits : Index → Nat
  /-- The runnable queue of a partition and its `_signal`. -/
  runnable : Index → List Nat
  schedSignal : Index → Option Index
  /-- The timers of a slot and its `_signal`. -/
  timers : Index → List Timer
  timedSignal : Index → Option Index
  /-- `TimedContext::_tid`. -/
  tid : Nat
  /-- The signal on which a thread calls `emit` inside a push. -/
  pushing : Nat → Option Index
  finished : Bool

namespace Context

/-- After the constructors in `startup`, before the threads run. -/
def initial : Context where
  pc := fun _ => .start
  lastHandle := fun _ => 0
  signals := fun _ => .initial
  emits := fun _ => 0
  runnable := fun _ => []
  schedSignal := fun _ => none
  timers := fun _ => []
  timedSignal := fun _ => none
  tid := 0
  pushing := fun _ => none
  finished := false

/-- A worker goes on. -/
def goto (ctx : Context) (worker : Index) (pc : Pc) : Context :=
  { ctx with pc := Function.update ctx.pc worker pc }

/-- All `workers` workers have come so far. -/
def AllAt (ctx : Context) (workers stage : Nat) : Prop :=
  ∀ worker, worker < workers → stage ≤ (ctx.pc worker).stage

instance (ctx : Context) (workers stage : Nat) : Decidable (ctx.AllAt workers stage) :=
  inferInstanceAs (Decidable (∀ worker, worker < workers → stage ≤ (ctx.pc worker).stage))

/-- `next_schedule_time`: the expiry at the top of the heap, and `none` for
`TimePoint::max()`. -/
def nextScheduleTime (ctx : Context) (worker : Index) : Option Time :=
  ((ctx.timers worker).map Timer.ex).min?

/-- The argument of `run_handler` in the last branch of the loop. -/
def handlerTimeout (ctx : Context) (worker : Index) (now : Time) : Nat :=
  match ctx.nextScheduleTime worker with
  | none => 50
  | some next => min ((next - now).toNat / 1000000) 50

/-- `now >= next_sched_time`. -/
def due (ctx : Context) (worker : Index) (now : Time) : Bool :=
  match ctx.nextScheduleTime worker with
  | none => false
  | some next => decide (next ≤ now)

/-- Where the branch at the end of the loop leads. -/
def afterBranch (ctx : Context) (worker : Index) (flag : Bool) (now : Time) : Pc :=
  if flag || ctx.due worker now then
    if now - ctx.lastHandle worker < 1000000 then .loop else .handler 0
  else .handler (ctx.handlerTimeout worker now)

/-- The timer is earlier than all timers of its slot. -/
def Earliest (ctx : Context) (slot : Index) (ex : Time) : Prop :=
  ∀ timer ∈ ctx.timers slot, ex < timer.ex

instance (ctx : Context) (slot : Index) (ex : Time) : Decidable (ctx.Earliest slot ex) :=
  inferInstanceAs (Decidable (∀ timer ∈ ctx.timers slot, ex < timer.ex))

inductive Label where
  | construct (worker : Index)
  | onScheduled (worker : Index)
  | onTimeout (worker : Index)
  | arrive (worker : Index)
  /-- The first barrier lets the worker pass, and it reads the clock. -/
  | pass (worker : Index) (now : Time)
  /-- `while (!_finished)`. -/
  | loop (worker : Index)
  /-- `run_scheduled` takes the first task of a partition. -/
  | runTask (worker partition : Index)
  | endScheduled (worker : Index)
  /-- `run_timeout` takes the first timer of a slot. -/
  | runTimer (worker slot : Index) (timer : Timer) (now : Time)
  | endTimeout (worker : Index)
  /-- The branch at the end of the loop, with the time it reads. -/
  | branch (worker : Index) (now : Time)
  /-- `run_handler` returns. -/
  | endHandler (worker : Index) (now : Time)
  /-- The second barrier lets the worker pass. -/
  | stop (worker : Index)
  | close (worker : Index)
  /-- `scheduler._signal = nullptr` in `final_schedule`. -/
  | detach (worker : Index)
  | «return» (worker : Index)
  | shutdown
  /-- `SchedContext::Scheduler::push` of a task, up to `emit`. -/
  | push (thread : Nat) (id : Nat)
  /-- `create_timeout` with the expiry it computes, up to `emit`. -/
  | createTimeout (thread : Nat) (ex : Time)
  /-- The call of `emit` in a push. -/
  | emit (thread : Nat)

/-- One step of a context with `workers` workers. -/
def step (workers : Nat) (ctx : Context) : Label → Option Context
  | .construct worker =>
      if worker < workers ∧ ctx.pc worker = .start then
        some (ctx.goto worker .constructed)
      else none
  | .onScheduled worker =>
      if ctx.pc worker = .constructed then
        some { ctx.goto worker .onScheduled with
          schedSignal := Function.update ctx.schedSignal worker (some worker) }
      else none
  | .onTimeout worker =>
      if ctx.pc worker = .onScheduled then
        some { ctx.goto worker .onTimeout with
          timedSignal := Function.update ctx.timedSignal worker (some worker) }
      else none
  | .arrive worker =>
      if ctx.pc worker = .onTimeout then some (ctx.goto worker .arrived) else none
  | .pass worker now =>
      if ctx.pc worker = .arrived ∧ ctx.AllAt workers 4 then
        some { ctx.goto worker .loop with
          lastHandle := Function.update ctx.lastHandle worker now }
      else none
  | .loop worker =>
      if ctx.pc worker = .loop then
        some (ctx.goto worker (if ctx.finished then .left else .scheduled false))
      else none
  | .runTask worker partition =>
      match ctx.pc worker, ctx.runnable partition with
      | .scheduled _, _ :: rest =>
          some { ctx.goto worker (.scheduled true) with
            runnable := Function.update ctx.runnable partition rest }
      | _, _ => none
  | .endScheduled worker =>
      match ctx.pc worker with
      | .scheduled ran => some (ctx.goto worker (.timed ran false))
      | _ => none
  | .runTimer worker slot timer now =>
      match ctx.pc worker with
      | .timed schedFlag _ =>
          if timer ∈ ctx.timers slot ∧ (∀ other ∈ ctx.timers slot, timer.ex ≤ other.ex) ∧
              timer.ex ≤ now then
            some { ctx.goto worker (.timed schedFlag true) with
              timers := Function.update ctx.timers slot ((ctx.timers slot).erase timer) }
          else none
      | _ => none
  | .endTimeout worker =>
      match ctx.pc worker with
      | .timed schedFlag ran => some (ctx.goto worker (.branch (schedFlag || ran)))
      | _ => none
  | .branch worker now =>
      match ctx.pc worker with
      | .branch flag => some (ctx.goto worker (ctx.afterBranch worker flag now))
      | _ => none
  | .endHandler worker now =>
      match ctx.pc worker with
      | .handler _ =>
          some { ctx.goto worker .loop with
            lastHandle := Function.update ctx.lastHandle worker now }
      | _ => none
  | .stop worker =>
      if ctx.pc worker = .left ∧ ctx.AllAt workers 6 then
        some (ctx.goto worker .stopped)
      else none
  | .close worker =>
      if ctx.pc worker = .stopped then some (ctx.goto worker .closed) else none
  | .detach worker =>
      if ctx.pc worker = .closed then
        some { ctx.goto worker .detached with
          schedSignal := Function.update ctx.schedSignal worker none }
      else none
  | .return worker =>
      if ctx.pc worker = .detached then some (ctx.goto worker .returned) else none
  | .shutdown => some { ctx with finished := true }
  | .push thread id =>
      if ctx.pushing thread = none then
        some { ctx with
          runnable := Function.update ctx.runnable (id % workers)
            (ctx.runnable (id % workers) ++ [id])
          pushing := Function.update ctx.pushing thread (ctx.schedSignal (id % workers)) }
      else none
  | .createTimeout thread ex =>
      if ctx.pushing thread = none then
        let slot := ctx.tid % workers
        some { ctx with
          tid := ctx.tid + 1
          timers := Function.update ctx.timers slot (⟨ctx.tid, ex⟩ :: ctx.timers slot)
          pushing := Function.update ctx.pushing thread
            (if ctx.Earliest slot ex then ctx.timedSignal slot else none) }
      else none
  | .emit thread =>
      match ctx.pushing thread with
      | none => none
      | some worker =>
          some { ctx with
            pushing := Function.update ctx.pushing thread none
            signals := Function.update ctx.signals worker (ctx.signals worker).emit
            emits := Function.update ctx.emits worker
              (ctx.emits worker + if (ctx.signals worker).emits then 1 else 0) }

/-- Reachable from the start of a context with `workers` workers. -/
def Reached (workers : Nat) (ctx : Context) : Prop :=
  Lib.Reachable (step workers) initial ctx

end Context

end Workers
end Cgo
