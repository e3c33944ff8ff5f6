import Cgo.Locking.Operations

/-!
# The operations take their locks in order

Each function takes only locks above those that its callers hold: one lemma for each,
from the signals up to the channels.  So no threads wait for one another's locks in a
circle.
-/

namespace Cgo
namespace Locking

open Lib.Prog (Above guarded)

variable {Result : Type} {limit : Nat ×ₗ Nat}

/-! ## Ranks -/

/-- A lock of a smaller kind comes first. -/
theorem rank_lt_of_kind
    {left right : Lock}
    (kind : (ofLex left.rank).1 < (ofLex right.rank).1) :
    left.rank < right.rank :=
  Prod.Lex.lt_iff.mpr (.inl kind)

theorem channel_lt_select (chan select : Nat) :
    (Lock.channel chan).rank < (Lock.select select).rank :=
  rank_lt_of_kind (Nat.lt_succ_self 1)

theorem select_lt_semaphore (select : Nat) (sem : SemId) :
    (Lock.select select).rank < (Lock.semaphore sem).rank :=
  rank_lt_of_kind (Nat.lt_succ_self 2)

theorem semaphore_lt_condition (sem : SemId) :
    (Lock.semaphore sem).rank < (Lock.condition sem).rank :=
  rank_lt_of_kind (Nat.lt_succ_self 3)

theorem condition_lt_scheduler (sem : SemId) (scheduler : Nat) :
    (Lock.condition sem).rank < (Lock.scheduler scheduler).rank :=
  rank_lt_of_kind (Nat.lt_succ_self 4)

theorem scheduler_lt_signal (scheduler signal : Nat) :
    (Lock.scheduler scheduler).rank < (Lock.signal signal).rank :=
  rank_lt_of_kind (Nat.lt_succ_self 5)

/-- Selects are ordered by their addresses. -/
theorem select_lt_select
    {first second : Nat}
    (address : first < second) :
    (Lock.select first).rank < (Lock.select second).rank :=
  Prod.Lex.lt_iff.mpr (.inr ⟨rfl, address⟩)

/-! ## Programs -/

theorem above_load (cell : Cell) : (load cell).Above Lock.rank limit :=
  Above.get cell

theorem above_pure (result : Result) : (pure result : Act Result).Above Lock.rank limit :=
  Above.done result

/-! ## Schedulers, conditions and semaphores -/

theorem above_emit
    {signal : Nat}
    (below : limit < (Lock.signal signal).rank) :
    (emit signal).Above Lock.rank limit := by
  apply Above.bind (above_load _)
  intro waited
  apply Above.bind (above_load _)
  intro emitted
  split
  · apply Above.guarded below
    apply Above.bind (above_load _)
    intro _
    apply Above.bind (above_load _)
    exact fun _ => above_pure ()
  · exact above_pure ()

theorem above_push
    {scheduler : Nat}
    (below : limit < (Lock.scheduler scheduler).rank) :
    (push scheduler).Above Lock.rank limit := by
  apply Above.guarded below
  apply Above.bind (above_load _)
  intro attached
  cases attached with
  | some signal => exact above_emit (scheduler_lt_signal _ _)
  | none => exact above_pure ()

theorem above_pop
    {scheduler : Nat}
    (below : limit < (Lock.scheduler scheduler).rank) :
    (pop scheduler).Above Lock.rank limit :=
  Above.guarded below (above_load _)

theorem above_scheduleFromThis (sem : SemId) :
    (scheduleFromThis sem).Above Lock.rank (Lock.condition sem).rank := by
  apply Above.bind (above_load _)
  intro blocked
  cases blocked with
  | none => exact above_pure ()
  | some scheduler => exact above_push (condition_lt_scheduler _ _)

theorem above_notify
    {sem : SemId}
    (below : limit < (Lock.condition sem).rank) :
    (notify sem).Above Lock.rank limit :=
  Above.guarded below (above_scheduleFromThis sem)

theorem above_remove
    {sem : SemId}
    (below : limit < (Lock.condition sem).rank) :
    (remove sem).Above Lock.rank limit := by
  apply Above.guarded below
  apply Above.bind (above_load _)
  intro scheduledHere
  split
  · exact above_scheduleFromThis sem
  · exact above_pure ()

theorem above_release
    {sem : SemId}
    (below : limit < (Lock.semaphore sem).rank) :
    (release sem).Above Lock.rank limit :=
  Above.guarded below (above_notify (semaphore_lt_condition sem))

/-- The two locks that outlive the suspension are released one after the other. -/
theorem above_aquire
    {sem : SemId}
    (below : limit < (Lock.semaphore sem).rank) :
    (aquire sem).Above Lock.rank limit := by
  intro held under
  have outside : Lock.semaphore sem ∉ held := fun member => (under _ member).not_gt below
  have restored : insert (Lock.semaphore sem) held \ {Lock.semaphore sem} = held :=
    Set.insert_sdiff_self_of_notMem outside
  refine ⟨fun other member => (under other member).trans_lt below, fun (vacant : UInt64) => ?_⟩
  change Lib.Prog.Orderly Lock.rank (if 0 < vacant then _ else _) _ _
  split
  · refine ⟨Set.mem_insert _ _, ?_⟩
    exact restored
  · refine ⟨fun other member => ?_, ?_⟩
    · rcases Set.mem_insert_iff.mp member with rfl | member
      · exact semaphore_lt_condition sem
      · exact ((under other member).trans_lt below).trans (semaphore_lt_condition sem)
    · have apart : Lock.condition sem ∉ insert (Lock.semaphore sem) held := by
        intro member
        rcases Set.mem_insert_iff.mp member with same | member
        · cases same
        · exact (under _ member).not_gt (below.trans (semaphore_lt_condition sem))
      refine ⟨Set.mem_insert _ _, ?_, ?_⟩
      · rw [Set.insert_sdiff_self_of_notMem apart]
        exact Set.mem_insert _ _
      · change _ = held
        rw [Set.insert_sdiff_self_of_notMem apart, restored]

/-! ## Messages -/

theorem above_commit
    {msg : Msg}
    (below : ∀ sem, limit < (Lock.semaphore sem).rank) :
    msg.commit.Above Lock.rank limit := by
  cases msg with
  | simplex signal =>
      cases signal with
      | none => exact above_pure ()
      | some signal => exact above_release (below signal)
  | multiplex select => exact above_release (below _)

/-- A message that is given or asked for a value locks its select at most. -/
theorem above_recvFromPtr
    {msg : Msg}
    (below : ∀ select, limit < (Lock.select select).rank) :
    msg.recvFromPtr.Above Lock.rank limit := by
  cases msg with
  | simplex signal =>
      apply Above.bind
      · apply above_commit
        exact fun sem => (below 0).trans (select_lt_semaphore 0 sem)
      · exact fun _ => above_pure _
  | multiplex select =>
      apply Above.guarded (below select)
      apply Above.bind (above_load _)
      intro chosen
      split
      · exact above_pure _
      · apply Above.bind
        · exact above_commit (select_lt_semaphore select)
        · exact fun _ => above_pure _

theorem above_sendToPtr
    {msg : Msg}
    (below : ∀ select, limit < (Lock.select select).rank) :
    msg.sendToPtr.Above Lock.rank limit := by
  have same : msg.sendToPtr = msg.recvFromPtr := by
    cases msg <;> rfl
  rw [same]
  exact above_recvFromPtr below

/-- Two messages lock the selects of both, that of the smaller address first. -/
theorem above_msg_sendTo
    {src dst : Msg}
    (below : ∀ select, limit < (Lock.select select).rank) :
    (src.sendTo dst).Above Lock.rank limit := by
  have belowSem : ∀ sem, limit < (Lock.semaphore sem).rank :=
    fun sem => (below 0).trans (select_lt_semaphore 0 sem)
  have commits : ∀ (status : MsgStatus) (msg : Msg),
      (msg.commitOn status).Above Lock.rank limit := by
    intro status msg
    rw [Msg.commitOn]
    split
    · exact above_commit belowSem
    · exact above_pure ()
  cases src with
  | simplex srcSignal =>
      cases dst with
      | simplex dstSignal =>
          apply Above.bind (above_recvFromPtr below)
          intro status
          apply Above.bind (commits status _)
          exact fun _ => above_pure _
      | multiplex dstSelect =>
          apply Above.bind (above_recvFromPtr below)
          intro status
          apply Above.bind (commits status _)
          exact fun _ => above_pure _
  | multiplex srcSelect =>
      cases dst with
      | simplex dstSignal =>
          apply Above.bind (above_sendToPtr below)
          intro status
          apply Above.bind (commits status _)
          exact fun _ => above_pure _
      | multiplex dstSelect =>
          simp only [Msg.sendTo]
          split
          · exact above_pure _
          · next apart =>
            apply Above.guarded (below _)
            apply Above.guarded
            · apply select_lt_select
              split <;> omega
            · apply Above.bind (above_load _)
              intro (srcChosen : Bool)
              cases srcChosen with
              | true => exact above_pure _
              | false =>
                  apply Above.bind (above_load _)
                  intro (dstChosen : Bool)
                  cases dstChosen with
                  | true => exact above_pure _
                  | false =>
                      apply Above.bind (above_commit (select_lt_semaphore _))
                      intro _
                      apply Above.bind (above_commit (select_lt_semaphore _))
                      exact fun _ => above_pure _

theorem above_drop
    {chan : Nat}
    (below : limit < (Lock.channel chan).rank) :
    (drop chan).Above Lock.rank limit :=
  Above.guarded below (above_pure ())

/-! ## Channels -/

theorem above_bufferSendTo
    (chan : Nat)
    {dst : Msg}
    (below : ∀ select, limit < (Lock.select select).rank) :
    (bufferSendTo chan dst).Above Lock.rank limit := by
  apply Above.bind (above_load _)
  intro bufferEmpty
  split
  · exact above_pure _
  · apply Above.bind (above_recvFromPtr below)
    exact fun _ => above_pure _

theorem above_bufferRecvFrom
    (chan : Nat)
    {src : Msg}
    (below : ∀ select, limit < (Lock.select select).rank) :
    (bufferRecvFrom chan src).Above Lock.rank limit := by
  apply Above.bind (above_load _)
  intro bufferFull
  split
  · exact above_pure _
  · apply Above.bind (above_sendToPtr below)
    exact fun _ => above_pure _

/-- The loops over a queue take the locks of the transfers. -/
theorem above_serve
    {transfer : Msg → Act Bool}
    (above : ∀ msg, (transfer msg).Above Lock.rank limit)
    (queue : List Msg) :
    (serve transfer queue).Above Lock.rank limit := by
  induction queue with
  | nil => exact above_pure ()
  | cons msg rest inductionHypothesis =>
      apply Above.bind (above msg)
      intro served
      split
      · exact above_pure ()
      · exact inductionHypothesis

theorem above_offer
    {transfer : Msg → Act (Option MsgStatus)}
    {popped : MsgStatus}
    {failed exhausted : ChanStatus}
    (above : ∀ msg, (transfer msg).Above Lock.rank limit)
    (queue : List Msg) :
    (offer transfer popped failed exhausted queue).Above Lock.rank limit := by
  induction queue with
  | nil => exact above_pure _
  | cons msg rest inductionHypothesis =>
      apply Above.bind (above msg)
      intro status
      cases status with
      | none => exact above_pure _
      | some status =>
          simp only
          split
          · exact above_pure _
          · split
            · exact inductionHypothesis
            · exact above_pure _

theorem above_sendTo
    {chan : Nat}
    {dst : Msg}
    {oneshot : Bool}
    (below : limit < (Lock.channel chan).rank) :
    (sendTo chan dst oneshot).Above Lock.rank limit := by
  have inner := channel_lt_select chan
  apply Above.guarded below
  apply Above.bind (above_bufferSendTo chan inner)
  intro fetched
  apply Above.bind (above_load _)
  intro senders
  split
  · apply Above.bind (above_serve (fun _ => above_bufferRecvFrom chan inner) senders)
    exact fun _ => above_pure _
  · exact above_offer (fun _ => above_msg_sendTo inner) senders

theorem above_recvFrom
    {chan : Nat}
    {src : Msg}
    {oneshot : Bool}
    (below : limit < (Lock.channel chan).rank) :
    (recvFrom chan src oneshot).Above Lock.rank limit := by
  have inner := channel_lt_select chan
  apply Above.guarded below
  apply Above.bind (above_bufferRecvFrom chan inner)
  intro stored
  apply Above.bind (above_load _)
  intro recvers
  split
  · apply Above.bind (above_serve (fun _ => above_bufferSendTo chan inner) recvers)
    exact fun _ => above_pure _
  · exact above_offer (fun _ => above_msg_sendTo inner) recvers

/-! ## Operations -/

/-- The rank below all locks. -/
def bottom : Nat ×ₗ Nat := toLex (0, 0)

theorem bottom_lt (mutex : Lock) : bottom < mutex.rank := by
  apply Prod.Lex.lt_iff.mpr
  left
  cases mutex <;> exact Nat.zero_lt_succ _

theorem above_poll
    (select : Nat)
    (listeners : List Listener) :
    (poll select listeners).Above Lock.rank bottom := by
  induction listeners with
  | nil => exact above_pure _
  | cons listener rest inductionHypothesis =>
      have calls : (listener.call select).Above Lock.rank bottom := by
        rw [Listener.call]
        split
        · exact above_recvFrom (bottom_lt _)
        · exact above_sendTo (bottom_lt _)
      apply Above.bind calls
      intro status
      cases status with
      | none => exact above_pure _
      | some status =>
          apply Above.bind (Above.guarded (bottom_lt _) (above_load _))
          intro (chosen : Bool)
          cases chosen with
          | true => exact above_pure _
          | false =>
              apply Above.bind inductionHypothesis
              exact fun _ => above_pure _

theorem above_dropAll (chans : List Nat) :
    (dropAll chans).Above Lock.rank bottom := by
  induction chans with
  | nil => exact above_pure ()
  | cons chan rest inductionHypothesis =>
      apply Above.bind (above_drop (bottom_lt _))
      exact fun _ => inductionHypothesis

theorem above_choose
    (select : Nat)
    (chans : List Nat) :
    (choose select chans).Above Lock.rank bottom := by
  apply Above.bind (Above.guarded (bottom_lt _) (above_load _))
  exact fun _ => above_dropAll chans

theorem above_selectCall
    (select : Nat)
    (listeners : List Listener)
    (default : Bool) :
    (selectCall select listeners default).Above Lock.rank bottom := by
  apply Above.bind (above_poll select listeners)
  intro polled
  cases polled with
  | none => exact above_pure ()
  | some chans =>
      cases default with
      | true => exact above_choose select chans
      | false =>
          apply Above.bind (above_aquire (bottom_lt _))
          intro aquired
          cases aquired with
          | true => exact above_choose select chans
          | false => exact above_pure ()

theorem above_awaitSignal (chan signal : Nat) :
    (awaitSignal chan signal).Above Lock.rank bottom := by
  apply Above.bind (above_aquire (bottom_lt _))
  intro aquired
  cases aquired with
  | true => exact above_drop (bottom_lt _)
  | false => exact above_pure ()

theorem above_plain
    {transfer : Msg → Act (Option ChanStatus)}
    (above : ∀ msg, (transfer msg).Above Lock.rank bottom)
    (chan signal : Nat) :
    (plain transfer chan signal).Above Lock.rank bottom := by
  apply Above.bind (above _)
  intro status
  cases status with
  | none => exact above_drop (bottom_lt _)
  | some _ => exact above_awaitSignal chan signal

/-- Every operation takes its locks in order. -/
theorem above_run (operation : Operation) :
    operation.run.Above Lock.rank bottom := by
  cases operation with
  | send chan signal => exact above_plain (fun _ => above_recvFrom (bottom_lt _)) chan signal
  | recv chan signal => exact above_plain (fun _ => above_sendTo (bottom_lt _)) chan signal
  | resumePlain chan signal => exact above_awaitSignal chan signal
  | nowait chan =>
      apply Above.bind (above_recvFrom (bottom_lt _))
      exact fun _ => above_pure ()
  | select select listeners default => exact above_selectCall select listeners default
  | resumeSelect select chans =>
      apply Above.bind (above_aquire (bottom_lt _))
      intro aquired
      cases aquired with
      | true => exact above_choose select chans
      | false => exact above_pure ()
  | dropSelect chans => exact above_dropAll chans
  | drop chan => exact above_drop (bottom_lt _)
  | aquire sem =>
      apply Above.bind (above_aquire (bottom_lt _))
      exact fun _ => above_pure ()
  | release sem => exact above_release (bottom_lt _)
  | remove sem => exact above_remove (bottom_lt _)
  | push scheduler => exact above_push (bottom_lt _)
  | pop scheduler =>
      apply Above.bind (above_pop (bottom_lt _))
      exact fun _ => above_pure ()

/-! ## No circle -/

/-- The order of the locks. -/
structure LocksInOrder (threads : Lib.Threads Nat Lock Cell Cell.Content) : Prop where
  /-- A thread that is about to take a lock holds only smaller ones. -/
  ordered : ∀ thread mutex held, threads.Wants thread mutex →
    threads.holder held = some thread → held.rank < mutex.rank
  /-- A thread holds one channel lock at most. -/
  one_channel : ∀ thread left right, threads.holder (.channel left) = some thread →
    threads.holder (.channel right) = some thread → left = right
  /-- No thread waits for itself, directly or through others. -/
  no_cycle : ∀ thread, ¬Relation.TransGen threads.WaitsFor thread thread

/-- In every state that threads reach with any operations, every lock is taken in
order, and no threads wait for one another in a circle. -/
theorem locks_in_order
    (threads : Lib.Threads Nat Lock Cell Cell.Content)
    (reached : Reached threads) :
    LocksInOrder threads := by
  have orderly : ∀ operation : Operation,
      operation.run.Orderly Lock.rank ∅ fun _ held => held = ∅ := by
    intro operation
    exact above_run operation ∅ fun other member => absurd member (Set.notMem_empty other)
  have obedient : threads.Obedient Lock.rank := Lib.Threads.Obedient.of_reachable orderly reached
  refine ⟨fun _ _ _ => obedient.lt_of_wants, fun thread left right holdsLeft holdsRight => ?_,
    obedient.no_cycle⟩
  by_contra apart
  apply Lib.Threads.RanksDiffer.of_reachable orderly reached thread _ _ holdsLeft holdsRight
  · simpa using apart
  · rfl

/-- A memory in which no buffer has room, and a select waits in every queue. -/
private def crowded : ∀ cell : Cell, cell.Content
  | .chosen _ => false
  | .vacant _ => (0 : UInt64)
  | .blocked _ => (none : Option Nat)
  | .scheduledHere _ => false
  | .attached _ => (none : Option Nat)
  | .runnable _ => false
  | .waited _ => false
  | .emitted _ => false
  | .bufferEmpty _ => true
  | .bufferFull _ => true
  | .senders _ => [Msg.multiplex 7]
  | .recvers _ => [Msg.multiplex 7]

/-- Thread 0 sends to channel 3 up to the lock of select 7, and thread 1 drops a
message of the same channel. -/
private def contending : List (Lib.Activity Nat Operation Cell Cell.Content) :=
  [.start 0 (.send 3 9), .advance 0 crowded, .advance 0 crowded, .advance 0 crowded,
    .start 1 (.dropSelect [3])]

/-- The state after it. -/
private def contended : Lib.Threads Nat Lock Cell Cell.Content :=
  Lib.runFrom (Lib.Threads.step Operation.run) .idle contending

theorem locks_in_order_sample :
    LocksInOrder contended ∧ contended.holder (.channel 3) = some 0 ∧
      contended.Wants 0 (.select 7) ∧ contended.WaitsFor 1 0 := by
  refine ⟨locks_in_order contended (Lib.Reachable.runFrom _ _ _), rfl, ⟨_, rfl⟩, ?_⟩
  exact ⟨.channel 3, ⟨_, rfl⟩, rfl⟩

end Locking
end Cgo
