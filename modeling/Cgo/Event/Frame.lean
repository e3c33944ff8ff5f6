import Cgo.Event.Handler
import Cgo.Lib.Path
import Cgo.Lib.Registry

/-!
# What a registration does to the others

`mod` and `del` erase the task under the tid of their descriptor, and a
descriptor that is not registered has tid 0 there, because `operator[]` makes
one.  Tid 0 is the first one given out, so the task may be that of another
descriptor.
-/

namespace Cgo
namespace Event

variable {Callback : Type}

namespace Handler

/-- The task registered for a descriptor. -/
def callOf (handler : Handler Callback) (fd : Fd) : Option (Task Callback) :=
  (handler.fdTids fd).bind handler.tidCalls

/-- The tids and the tasks of all other descriptors are the same in both handlers. -/
def SparesOthers (before after : Handler Callback) (fd : Fd) : Prop :=
  ∀ other, other ≠ fd →
    after.fdTids other = before.fdTids other ∧ after.callOf other = before.callOf other

/-- Another descriptor has this tid. -/
def Shared (handler : Handler Callback) (fd : Fd) (tid : Tid) : Prop :=
  ∃ other, other ≠ fd ∧ handler.fdTids other = some tid

/-- There is no task of another descriptor under the tid that `mod` and `del` erase. -/
def ErasesOwn (handler : Handler Callback) (fd : Fd) : Prop :=
  handler.Shared fd (handler.tidOf fd) → handler.tidCalls (handler.tidOf fd) = none

/-- The next tid is not that of another descriptor, or its task does not change. -/
def IssuesOwn (handler : Handler Callback) (task : Task Callback) : Prop :=
  handler.Shared task.fd handler.gid →
    handler.gid = handler.tidOf task.fd ∨ handler.tidCalls handler.gid = some task

/-- The task of a descriptor depends only on the entry under its tid. -/
theorem callOf_congr
    {before after : Handler Callback}
    {fd : Fd}
    (same : after.fdTids fd = before.fdTids fd) :
    after.callOf fd = before.callOf fd ↔
      ∀ tid, before.fdTids fd = some tid → after.tidCalls tid = before.tidCalls tid := by
  unfold callOf
  rw [same]
  cases before.fdTids fd <;> simp

/-- Exactly when `del` leaves the other descriptors alone. -/
theorem delTask_spares_iff
    (handler : Handler Callback)
    (fd : Fd) :
    SparesOthers handler (handler.delTask fd) fd ↔ handler.ErasesOwn fd := by
  have tids : ∀ other, other ≠ fd → (handler.delTask fd).fdTids other = handler.fdTids other :=
    fun other apart => Function.update_of_ne apart _ _
  constructor
  · rintro spares ⟨other, apart, registered⟩
    have kept := (callOf_congr (tids other apart)).mp (spares other apart).2 _ registered
    simpa [delTask] using kept.symm
  · intro own other apart
    refine ⟨tids other apart, (callOf_congr (tids other apart)).mpr fun tid registered => ?_⟩
    rcases eq_or_ne tid (handler.tidOf fd) with rfl | different
    · simp [delTask, own ⟨other, apart, registered⟩]
    · simp [delTask, different]

/-- Exactly when `mod` leaves the other descriptors alone. -/
theorem modTask_spares_iff
    (handler : Handler Callback)
    (task : Task Callback) :
    SparesOthers handler (handler.modTask task) task.fd ↔
      handler.ErasesOwn task.fd ∧ handler.IssuesOwn task := by
  have tids : ∀ other, other ≠ task.fd →
      (handler.modTask task).fdTids other = handler.fdTids other :=
    fun other apart => Function.update_of_ne apart _ _
  constructor
  · intro spares
    constructor
    · rintro ⟨other, apart, registered⟩
      have kept := (callOf_congr (tids other apart)).mp (spares other apart).2 _ registered
      simpa [modTask] using kept.symm
    · rintro ⟨other, apart, registered⟩
      rcases eq_or_ne handler.gid (handler.tidOf task.fd) with same | different
      · exact .inl same
      · have kept := (callOf_congr (tids other apart)).mp (spares other apart).2 _ registered
        right
        simpa [modTask, different] using kept.symm
  · rintro ⟨erases, issues⟩ other apart
    refine ⟨tids other apart, (callOf_congr (tids other apart)).mpr fun tid registered => ?_⟩
    rcases eq_or_ne tid (handler.tidOf task.fd) with rfl | notErased
    · simp [modTask, erases ⟨other, apart, registered⟩]
    · rcases eq_or_ne tid handler.gid with rfl | notIssued
      · rcases issues ⟨other, apart, registered⟩ with same | present
        · exact absurd same notErased
        · simp [modTask, notErased, present]
      · simp [modTask, notErased, notIssued]

end Handler

/-! ## Histories of calls -/

/-- A call on a handler, or the close of a descriptor. -/
inductive Call (Callback : Type) where
  | add (refused : Bool) (fd : Fd) (on : Mask) (fn : Callback)
  | mod (refused : Bool) (fd : Fd) (on : Mask) (fn : Callback)
  | del (refused : Bool) (fd : Fd)
  | close (fd : Fd)

/-- The call draws a tid. -/
def Call.registers : Call Callback → Bool
  | .add .. | .mod .. => true
  | .del .. | .close _ => false

/-- The state a call leaves, also one that throws. -/
def Poller.after (poller : Poller Callback) : Call Callback → Poller Callback
  | .add refused fd on fn => (poller.add refused fd on fn).2
  | .mod refused fd on fn => (poller.mod refused fd on fn).2
  | .del refused fd => poller.del refused fd
  | .close fd => { poller with epoll := poller.epoll.close fd }

/-- Any call can be made at any time. -/
def Poller.step (poller : Poller Callback) (call : Call Callback) : Option (Poller Callback) :=
  some (poller.after call)

/-- For every handler, whatever its history, and every call: `mod` leaves the tid and
the task of every other descriptor unchanged exactly when neither the tid that it
erases nor the one that it issues is another descriptor's with a task, and `del`
exactly when the tid that it erases is not. -/
theorem changes_spare_others_iff
    (poller : Poller Callback)
    (refused : Bool)
    (fd : Fd)
    (on : Mask)
    (fn : Callback) :
    (poller.handler.SparesOthers (poller.mod refused fd on fn).2.handler fd ↔
        poller.handler.ErasesOwn fd ∧ poller.handler.IssuesOwn ⟨fd, on, fn⟩) ∧
      (poller.handler.SparesOthers (poller.del refused fd).handler fd ↔
        poller.handler.ErasesOwn fd) := by
  rw [Poller.mod_handler, Poller.del_handler]
  exact ⟨poller.handler.modTask_spares_iff ⟨fd, on, fn⟩, poller.handler.delTask_spares_iff fd⟩

/-- A worker registers its event descriptor and a socket is registered and closed. -/
private def closedOnce : Poller Unit :=
  Lib.runFrom Poller.step (.initial Unit)
    [.add false 4 eventIn (), .add false 7 eventErr (), .del false 7, .close 7]

/-- Closing it again erases the callback of the worker. -/
theorem second_close_erases_first_task :
    ¬∀ (poller : Poller Unit), Lib.Reachable Poller.step (.initial Unit) poller →
      ∀ (refused : Bool) (fd : Fd) (on : Mask) (fn : Unit),
        poller.handler.SparesOthers (poller.mod refused fd on fn).2.handler fd ∧
          poller.handler.SparesOthers (poller.del refused fd).handler fd := by
  intro spares
  have kept := (spares closedOnce (Lib.Reachable.runFrom _ _ _) false 7 0 ()).2 4 (by decide)
  exact absurd kept.2 (by decide)

/-! ## Before the counter wraps -/

/-- The handler has drawn `count` tids, and no two descriptors share one. -/
structure Numbered (count : Nat) (handler : Handler Callback) : Prop where
  gid : handler.gid = BitVec.ofNat 32 count
  issued : ∀ {fd tid}, handler.fdTids fd = some tid →
    ∃ number, number < count ∧ tid = BitVec.ofNat 32 number
  distinct : ∀ {fd other tid}, handler.fdTids fd = some tid →
    handler.fdTids other = some tid → fd = other

namespace Numbered

variable {count : Nat} {handler : Handler Callback}

theorem initial : Numbered 0 (Handler.initial Callback) where
  gid := rfl
  issued := by simp [Handler.initial]
  distinct := by simp [Handler.initial]

/-- The next tid is nobody's. -/
theorem gid_ne
    (numbered : Numbered count handler)
    (bounded : count < 2 ^ 32)
    {fd : Fd}
    {tid : Tid}
    (registered : handler.fdTids fd = some tid) :
    tid ≠ handler.gid := by
  obtain ⟨number, earlier, rfl⟩ := numbered.issued registered
  rw [numbered.gid]
  exact Lib.counter_ne earlier bounded

/-- Giving the next tid to a descriptor. -/
theorem issue
    (numbered : Numbered count handler)
    (bounded : count < 2 ^ 32)
    {after : Handler Callback}
    (fd : Fd)
    (tids : after.fdTids = Function.update handler.fdTids fd (some handler.gid))
    (next : after.gid = handler.gid + 1) :
    Numbered (count + 1) after where
  gid := by
    rw [next, numbered.gid, BitVec.ofNat_add]
    rfl
  issued := by
    intro other tid registered
    rcases eq_or_ne other fd with rfl | apart
    · rw [tids, Function.update_self] at registered
      exact ⟨count, by omega, by rw [← Option.some.inj registered, numbered.gid]⟩
    · rw [tids, Function.update_of_ne apart] at registered
      obtain ⟨number, earlier, same⟩ := numbered.issued registered
      exact ⟨number, by omega, same⟩
  distinct := by
    intro first second tid firstTid secondTid
    rw [tids] at firstTid secondTid
    rcases eq_or_ne first fd with rfl | firstApart
    · rcases eq_or_ne second first with rfl | secondApart
      · rfl
      · rw [Function.update_self] at firstTid
        rw [Function.update_of_ne secondApart, ← firstTid] at secondTid
        exact absurd rfl (numbered.gid_ne bounded secondTid)
    · rw [Function.update_of_ne firstApart] at firstTid
      rcases eq_or_ne second fd with rfl | secondApart
      · rw [Function.update_self, ← firstTid] at secondTid
        exact absurd rfl (numbered.gid_ne bounded secondTid.symm)
      · rw [Function.update_of_ne secondApart] at secondTid
        exact numbered.distinct firstTid secondTid

/-- Taking a descriptor out. -/
theorem delTask
    (numbered : Numbered count handler)
    (fd : Fd) :
    Numbered count (handler.delTask fd) where
  gid := numbered.gid
  issued := by
    intro other tid registered
    rcases eq_or_ne other fd with rfl | apart
    · simp [Handler.delTask] at registered
    · exact numbered.issued (by simpa [Handler.delTask, apart] using registered)
  distinct := by
    intro first second tid firstTid secondTid
    rcases eq_or_ne first fd with rfl | firstApart
    · simp [Handler.delTask] at firstTid
    · rcases eq_or_ne second fd with rfl | secondApart
      · simp [Handler.delTask] at secondTid
      · apply numbered.distinct
        · simpa [Handler.delTask, firstApart] using firstTid
        · simpa [Handler.delTask, secondApart] using secondTid

/-- One call, whether it throws or not. -/
theorem after
    {poller : Poller Callback}
    (numbered : Numbered count poller.handler)
    (call : Call Callback)
    (few : count + (if call.registers then 1 else 0) ≤ 2 ^ 32) :
    Numbered (count + if call.registers then 1 else 0) (poller.after call).handler := by
  cases call with
  | add refused fd on fn =>
      apply numbered.issue (by simp only [Call.registers, if_true] at few; omega) fd
      · rw [Poller.after, Poller.add_handler, Handler.addTask]
      · rw [Poller.after, Poller.add_handler, Handler.addTask]
  | mod refused fd on fn =>
      apply numbered.issue (by simp only [Call.registers, if_true] at few; omega) fd
      · rw [Poller.after, Poller.mod_handler, Handler.modTask]
      · rw [Poller.after, Poller.mod_handler, Handler.modTask]
  | del refused fd => exact numbered.delTask fd
  | close fd => exact numbered

end Numbered

/-- The tids drawn in a history. -/
def registrations
    (transitions : List (Lib.Transition (Poller Callback) (Call Callback))) : Nat :=
  transitions.countP fun transition => transition.label.registers

/-- Whatever the calls, and whether they throw, the tids stay apart until the counter
wraps. -/
theorem numbered_of_path
    {transitions : List (Lib.Transition (Poller Callback) (Call Callback))}
    {poller : Poller Callback}
    (path : Lib.Path Poller.step (.initial Callback) transitions poller)
    (few : registrations transitions ≤ 2 ^ 32) :
    Numbered (registrations transitions) poller.handler := by
  induction path with
  | nil => exact .initial
  | @snoc taken before after label prior stepped inductionHypothesis =>
      have total : registrations (taken ++ [⟨before, label, after⟩]) =
          registrations taken + if label.registers then 1 else 0 := by
        simp [registrations, List.countP_append, List.countP_singleton]
      rw [total] at few ⊢
      have numbered : Numbered (registrations taken) before.handler :=
        inductionHypothesis (by omega)
      obtain rfl : before.after label = after := Option.some.inj stepped
      exact numbered.after label few

/-- Until the counter wraps, `mod` and `del` spare the other descriptors exactly when
their own is registered or tid 0 has no task of another one. -/
theorem changes_spare_others_iff_registered
    {transitions : List (Lib.Transition (Poller Callback) (Call Callback))}
    {poller : Poller Callback}
    (path : Lib.Path Poller.step (.initial Callback) transitions poller)
    (few : registrations transitions < 2 ^ 32)
    (refused : Bool)
    (fd : Fd)
    (on : Mask)
    (fn : Callback) :
    (poller.handler.SparesOthers (poller.mod refused fd on fn).2.handler fd ↔
        poller.handler.fdTids fd ≠ none ∨
          (poller.handler.Shared fd 0 → poller.handler.tidCalls 0 = none)) ∧
      (poller.handler.SparesOthers (poller.del refused fd).handler fd ↔
        poller.handler.fdTids fd ≠ none ∨
          (poller.handler.Shared fd 0 → poller.handler.tidCalls 0 = none)) := by
  have numbered := numbered_of_path path (Nat.le_of_lt few)
  have issues : poller.handler.IssuesOwn ⟨fd, on, fn⟩ := by
    rintro ⟨other, -, registered⟩
    exact absurd rfl (numbered.gid_ne few registered)
  have erases : poller.handler.ErasesOwn fd ↔
      poller.handler.fdTids fd ≠ none ∨
        (poller.handler.Shared fd 0 → poller.handler.tidCalls 0 = none) := by
    unfold Handler.ErasesOwn Handler.tidOf
    cases known : poller.handler.fdTids fd with
    | none => simp
    | some tid =>
        have alone : ¬ poller.handler.Shared fd tid := by
          rintro ⟨other, apart, registered⟩
          exact apart (numbered.distinct registered known)
        simp [alone]
  rw [Poller.mod_handler, Poller.del_handler, poller.handler.modTask_spares_iff ⟨fd, on, fn⟩,
    poller.handler.delTask_spares_iff fd, erases]
  exact ⟨and_iff_left issues, Iff.rfl⟩

end Event
end Cgo
