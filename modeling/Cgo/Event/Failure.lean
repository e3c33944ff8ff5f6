import Cgo.Event.Frame

/-!
# Registrations that fail

`add` and `mod` write both maps before they call `epoll_ctl`, and throw when it
fails without taking anything back.  What was registered for the descriptor is
then lost although epoll still holds its tid, and a descriptor that was never
registered gets an entry.
-/

namespace Cgo
namespace Event

variable {Callback : Type}

namespace Handler

/-- Both maps have the same contents. -/
def SameMaps (before after : Handler Callback) : Prop :=
  after.tidCalls = before.tidCalls ∧ after.fdTids = before.fdTids

/-- The next tid is that of the descriptor already. -/
def Redraws (handler : Handler Callback) (fd : Fd) : Prop :=
  handler.fdTids fd = some handler.gid

instance (handler : Handler Callback) (fd : Fd) : Decidable (handler.Redraws fd) :=
  inferInstanceAs (Decidable (_ = _))

/-- The maps can only stay when the descriptor keeps its tid. -/
theorem redraws_of_same
    {handler after : Handler Callback}
    {fd : Fd}
    (tids : after.fdTids = Function.update handler.fdTids fd (some handler.gid))
    (same : handler.SameMaps after) :
    handler.Redraws fd := by
  have kept := congrFun same.2 fd
  rw [tids, Function.update_self] at kept
  exact kept.symm

/-- Exactly when the writes of `add` change nothing. -/
theorem sameMaps_addTask_iff
    (handler : Handler Callback)
    (task : Task Callback) :
    handler.SameMaps (handler.addTask task) ↔
      handler.Redraws task.fd ∧ handler.tidCalls handler.gid = some task := by
  constructor
  · intro same
    refine ⟨redraws_of_same rfl same, ?_⟩
    have kept := congrFun same.1 handler.gid
    rw [addTask_tidCalls, Function.update_self] at kept
    exact kept.symm
  · rintro ⟨redraws, present⟩
    constructor
    · rw [addTask_tidCalls, ← present, Function.update_eq_self]
    · rw [addTask, ← redraws, Function.update_eq_self]

/-- Exactly when the writes of `mod` change nothing. -/
theorem sameMaps_modTask_iff
    (handler : Handler Callback)
    (task : Task Callback) :
    handler.SameMaps (handler.modTask task) ↔
      handler.Redraws task.fd ∧ handler.tidCalls handler.gid = none := by
  have own (redraws : handler.Redraws task.fd) : handler.tidOf task.fd = handler.gid := by
    rw [tidOf, redraws, Option.getD_some]
  constructor
  · intro same
    have redraws : handler.Redraws task.fd := redraws_of_same rfl same
    refine ⟨redraws, ?_⟩
    have kept := congrFun same.1 handler.gid
    rw [modTask_tidCalls, own redraws, Function.update_self] at kept
    exact kept.symm
  · rintro ⟨redraws, vacant⟩
    constructor
    · rw [modTask_tidCalls, own redraws, Function.update_idem, ← vacant, Function.update_eq_self]
    · rw [modTask, ← redraws, Function.update_eq_self]

end Handler

/-- For every handler, whatever its history, and every `add` and `mod` that throws:
both maps are as they were before the call exactly when the call drew the tid that the
descriptor had already, with the very task under it that `add` writes, and with none
under it for `mod`. -/
theorem failed_registration_keeps_iff
    (poller : Poller Callback)
    (refused : Bool)
    (fd : Fd)
    (on : Mask)
    (fn : Callback) :
    ((poller.add refused fd on fn).1 = .error "epoll_ctl add failed" →
        (poller.handler.SameMaps (poller.add refused fd on fn).2.handler ↔
          poller.handler.Redraws fd ∧
            poller.handler.tidCalls poller.handler.gid = some ⟨fd, on, fn⟩)) ∧
      ((poller.mod refused fd on fn).1 = .error "epoll_ctl mod failed" →
        (poller.handler.SameMaps (poller.mod refused fd on fn).2.handler ↔
          poller.handler.Redraws fd ∧
            poller.handler.tidCalls poller.handler.gid = none)) := by
  rw [Poller.add_handler, Poller.mod_handler]
  exact ⟨fun _ => poller.handler.sameMaps_addTask_iff ⟨fd, on, fn⟩,
    fun _ => poller.handler.sameMaps_modTask_iff ⟨fd, on, fn⟩⟩

/-- A socket is registered. -/
private def registeredOnce : Poller Nat :=
  Lib.runFrom Poller.step (.initial Nat) [.add false 7 eventIn 100]

/-- `EPOLL_CTL_ADD` fails for a descriptor that epoll has, and `EPOLL_CTL_MOD` for one
that it does not have. -/
theorem failed_registration_keeps_iff_sample :
    ¬registeredOnce.handler.SameMaps (registeredOnce.add false 7 eventIn 200).2.handler ∧
      ¬registeredOnce.handler.SameMaps (registeredOnce.mod false 9 eventIn 300).2.handler := by
  constructor
  · rw [(failed_registration_keeps_iff registeredOnce false 7 eventIn 200).1 (by decide)]
    intro redrawn
    exact absurd redrawn.1 (by decide)
  · rw [(failed_registration_keeps_iff registeredOnce false 9 eventIn 300).2 (by decide)]
    intro redrawn
    exact absurd redrawn.1 (by decide)

/-- When epoll refuses to change the registration, the callback of the socket is gone
although epoll still has its tid. -/
theorem failed_mod_loses_callback :
    ¬∀ (poller : Poller Nat), Lib.Reachable Poller.step (.initial Nat) poller →
      ∀ (refused : Bool) (fd : Fd) (on : Mask) (fn : Nat),
        ((poller.add refused fd on fn).1 = .error "epoll_ctl add failed" →
            poller.handler.SameMaps (poller.add refused fd on fn).2.handler) ∧
          ((poller.mod refused fd on fn).1 = .error "epoll_ctl mod failed" →
            poller.handler.SameMaps (poller.mod refused fd on fn).2.handler) := by
  intro keeps
  have same := (keeps registeredOnce (Lib.Reachable.runFrom _ _ _) true 7 eventOut 200).2
    (by decide)
  exact absurd (congrFun same.1 0) (by decide)

/-- Until the counter wraps, a registration that fails always leaves something behind. -/
theorem failed_registration_leaves_traces
    {transitions : List (Lib.Transition (Poller Callback) (Call Callback))}
    {poller : Poller Callback}
    (path : Lib.Path Poller.step (.initial Callback) transitions poller)
    (few : registrations transitions < 2 ^ 32)
    (refused : Bool)
    (fd : Fd)
    (on : Mask)
    (fn : Callback) :
    ¬poller.handler.SameMaps (poller.add refused fd on fn).2.handler ∧
      ¬poller.handler.SameMaps (poller.mod refused fd on fn).2.handler := by
  have numbered := numbered_of_path path (Nat.le_of_lt few)
  have fresh : ¬poller.handler.Redraws fd := by
    intro redraws
    exact absurd rfl (numbered.gid_ne few redraws)
  rw [Poller.add_handler, Poller.mod_handler, Handler.sameMaps_addTask_iff,
    Handler.sameMaps_modTask_iff]
  exact ⟨fun same => fresh same.1, fun same => fresh same.1⟩

end Event
end Cgo
