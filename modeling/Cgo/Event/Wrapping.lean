import Cgo.Event.Frame

/-!
# Tids that are drawn again

The counter of the tids has 32 bits, and nothing looks whether the tid that it
gives is still in use.  A registration that stays while 2^32 others are made
loses its tid to the last of them.
-/

namespace Cgo
namespace Event

variable {Callback : Type}

/-- The descriptor that a call is about. -/
def Call.fd : Call Callback → Fd
  | .add _ fd _ _ => fd
  | .mod _ fd _ _ => fd
  | .del _ fd => fd
  | .close fd => fd

/-- A handler, how many tids it has drawn, and how many it had drawn before the one
of each registered descriptor.  The code keeps neither count. -/
structure Drawing (Callback : Type) where
  poller : Poller Callback
  drawn : Nat
  since : Fd → Option Nat

namespace Drawing

/-- No registration was made. -/
def initial (Callback : Type) : Drawing Callback where
  poller := .initial Callback
  drawn := 0
  since := fun _ => none

/-- The maps of the handler. -/
abbrev handler (state : Drawing Callback) : Handler Callback :=
  state.poller.handler

/-- The counts after a call. -/
def count (state : Drawing Callback) (poller : Poller Callback) :
    Call Callback → Drawing Callback
  | .add _ fd _ _ =>
      ⟨poller, state.drawn + 1, Function.update state.since fd (some state.drawn)⟩
  | .mod _ fd _ _ =>
      ⟨poller, state.drawn + 1, Function.update state.since fd (some state.drawn)⟩
  | .del _ fd => ⟨poller, state.drawn, Function.update state.since fd none⟩
  | .close _ => ⟨poller, state.drawn, state.since⟩

/-- `add` is for descriptors that are not registered, `mod` and `del` for those that
are. -/
def Allows (state : Drawing Callback) : Call Callback → Prop
  | .add _ fd _ _ => state.handler.fdTids fd = none
  | .mod _ fd _ _ => state.handler.fdTids fd ≠ none
  | .del _ fd => state.handler.fdTids fd ≠ none
  | .close _ => True

instance (state : Drawing Callback) (call : Call Callback) : Decidable (state.Allows call) := by
  cases call <;> unfold Allows <;> infer_instance

/-- Whatever `epoll_ctl` answers. -/
def step (state : Drawing Callback) (call : Call Callback) : Option (Drawing Callback) :=
  if state.Allows call then some (state.count (state.poller.after call) call) else none

/-- The tid that the call gave to its descriptor is that of no other one. -/
def Fresh (transition : Lib.Transition (Drawing Callback) (Call Callback)) : Prop :=
  transition.label.registers = true →
    ∀ other, other ≠ transition.label.fd →
      transition.after.handler.fdTids other ≠
        transition.after.handler.fdTids transition.label.fd

/-- No other descriptor was registered a multiple of 2^32 registrations before. -/
def Spaced (transition : Lib.Transition (Drawing Callback) (Call Callback)) : Prop :=
  transition.label.registers = true →
    ∀ other, other ≠ transition.label.fd →
      ∀ number, transition.before.since other = some number →
        ¬2 ^ 32 ∣ transition.before.drawn - number

/-- The call leaves the tids and the callbacks of all other descriptors alone. -/
def Spares (transition : Lib.Transition (Drawing Callback) (Call Callback)) : Prop :=
  transition.before.handler.SparesOthers transition.after.handler transition.label.fd

variable {state before after : Drawing Callback} {call : Call Callback}

theorem step_eq_some :
    before.step call = some after ↔
      before.Allows call ∧ after = before.count (before.poller.after call) call := by
  unfold step
  rw [Option.ite_none_right_eq_some, Option.some.injEq, eq_comm (a := after)]

/-- A registration gives the next tid to its descriptor. -/
theorem fdTids_count
    (registers : call.registers = true) :
    (before.count (before.poller.after call) call).handler.fdTids =
      Function.update before.handler.fdTids call.fd (some before.handler.gid) := by
  cases call with
  | add refused fd on fn =>
      simp only [count, handler, Poller.after, Poller.add_handler, Handler.addTask, Call.fd]
  | mod refused fd on fn =>
      simp only [count, handler, Poller.after, Poller.mod_handler, Handler.modTask, Call.fd]
  | del refused fd => cases registers
  | close fd => cases registers

/-- `del` takes the tid of its descriptor out. -/
theorem fdTids_count_del
    (refused : Bool)
    (fd : Fd) :
    (before.count (before.poller.after (.del refused fd)) (.del refused fd)).handler.fdTids =
      Function.update before.handler.fdTids fd none :=
  rfl

/-! ## The counts -/

/-- The tids are the counts modulo 2^32. -/
structure Counted (state : Drawing Callback) : Prop where
  gid : state.handler.gid = BitVec.ofNat 32 state.drawn
  fdTids : ∀ fd, state.handler.fdTids fd = (state.since fd).map (BitVec.ofNat 32)
  since_lt : ∀ {fd number}, state.since fd = some number → number < state.drawn

namespace Counted

theorem initial : Counted (Drawing.initial Callback) where
  gid := rfl
  fdTids _ := rfl
  since_lt := by simp [Drawing.initial]

/-- A tid is drawn. -/
theorem draw
    (counted : Counted before)
    (fd : Fd)
    (gid : after.handler.gid = before.handler.gid + 1)
    (fdTids : after.handler.fdTids =
      Function.update before.handler.fdTids fd (some before.handler.gid))
    (drawn : after.drawn = before.drawn + 1)
    (since : after.since = Function.update before.since fd (some before.drawn)) :
    Counted after where
  gid := by
    rw [gid, drawn, counted.gid, BitVec.ofNat_add]
    rfl
  fdTids := by
    intro other
    rw [fdTids, since]
    rcases eq_or_ne other fd with rfl | apart
    · rw [Function.update_self, Function.update_self, counted.gid, Option.map_some]
    · rw [Function.update_of_ne apart, Function.update_of_ne apart]
      exact counted.fdTids other
  since_lt := by
    intro other number found
    rw [since] at found
    rw [drawn]
    rcases eq_or_ne other fd with rfl | apart
    · rw [Function.update_self] at found
      have same := Option.some.inj found
      omega
    · rw [Function.update_of_ne apart] at found
      have earlier := counted.since_lt found
      omega

theorem step
    (counted : Counted before)
    (stepped : before.step call = some after) :
    Counted after := by
  obtain ⟨-, rfl⟩ := step_eq_some.mp stepped
  cases call with
  | add refused fd on fn =>
      apply counted.draw fd _ (fdTids_count rfl) rfl rfl
      simp only [count, handler, Poller.after, Poller.add_handler, Handler.addTask]
  | mod refused fd on fn =>
      apply counted.draw fd _ (fdTids_count rfl) rfl rfl
      simp only [count, handler, Poller.after, Poller.mod_handler, Handler.modTask]
  | del refused fd =>
      refine ⟨counted.gid, fun other => ?_, fun {other number} found => ?_⟩
      · rw [fdTids_count_del]
        rcases eq_or_ne other fd with rfl | apart
        · simp [count]
        · simpa [count, apart] using counted.fdTids other
      · rcases eq_or_ne other fd with rfl | apart
        · simp [count] at found
        · exact counted.since_lt (by simpa [count, apart] using found)
  | close fd => exact ⟨counted.gid, counted.fdTids, counted.since_lt⟩

theorem of_reached
    (reached : Lib.Reachable Drawing.step (.initial Callback) state) :
    Counted state :=
  reached.invariant .initial fun _ _ _ counted stepped => counted.step stepped

/-- A descriptor has the next tid exactly when a multiple of 2^32 tids was drawn since
its own. -/
theorem fdTids_eq_gid_iff
    (counted : Counted state)
    (fd : Fd) :
    state.handler.fdTids fd = some state.handler.gid ↔
      ∃ number, state.since fd = some number ∧ 2 ^ 32 ∣ state.drawn - number := by
  rw [counted.fdTids, counted.gid, Option.map_eq_some_iff]
  apply exists_congr
  intro number
  apply and_congr_right
  intro found
  exact Lib.counter_eq_iff (counted.since_lt found).le

end Counted

/-- A registration gets a tid of its own exactly when no other descriptor was registered
a multiple of 2^32 registrations before. -/
theorem fresh_iff_spaced
    (transition : Lib.Transition (Drawing Callback) (Call Callback))
    (reached : Lib.Reachable step (.initial Callback) transition.before)
    (stepped : transition.before.step transition.label = some transition.after) :
    Fresh transition ↔ Spaced transition := by
  have counted := Counted.of_reached reached
  obtain ⟨-, result⟩ := step_eq_some.mp stepped
  unfold Fresh Spaced
  apply imp_congr_right
  intro registers
  apply forall_congr'
  intro other
  apply imp_congr_right
  intro apart
  rw [result, fdTids_count registers, Function.update_self, Function.update_of_ne apart, Ne,
    counted.fdTids_eq_gid_iff]
  simp only [not_exists, not_and]

/-! ## Nothing of another descriptor is overwritten -/

/-- No two descriptors have one tid. -/
def Apart (state : Drawing Callback) : Prop :=
  ∀ fd other tid, state.handler.fdTids fd = some tid →
    state.handler.fdTids other = some tid → fd = other

theorem Apart.not_shared
    {fd : Fd}
    {tid : Tid}
    (apart : Apart state)
    (registered : state.handler.fdTids fd = some tid) :
    ¬state.handler.Shared fd tid := by
  rintro ⟨other, different, also⟩
  exact different (apart other fd tid also registered)

/-- The next tid is nobody else's. -/
theorem not_shared_gid
    (stepped : before.step call = some after)
    (fresh : Fresh ⟨before, call, after⟩)
    (registers : call.registers = true) :
    ¬before.handler.Shared call.fd before.handler.gid := by
  obtain ⟨-, result⟩ := step_eq_some.mp stepped
  rintro ⟨other, different, registered⟩
  apply fresh registers other different
  rw [result, fdTids_count registers, Function.update_self, Function.update_of_ne different]
  exact registered

/-- A fresh tid keeps them apart. -/
theorem Apart.step
    (apart : Apart before)
    (stepped : before.step call = some after)
    (fresh : Fresh ⟨before, call, after⟩) :
    Apart after := by
  obtain ⟨-, result⟩ := step_eq_some.mp stepped
  cases registers : call.registers with
  | true =>
      have others := fresh registers
      intro fd other tid first second
      by_contra different
      rcases eq_or_ne fd call.fd with rfl | elsewhere
      · exact others other (Ne.symm different) (second.trans first.symm)
      · rcases eq_or_ne other call.fd with rfl | otherElsewhere
        · exact others fd elsewhere (first.trans second.symm)
        · rw [result, fdTids_count registers, Function.update_of_ne elsewhere] at first
          rw [result, fdTids_count registers, Function.update_of_ne otherElsewhere] at second
          exact different (apart fd other tid first second)
  | false =>
      have kept : ∀ fd tid, after.handler.fdTids fd = some tid →
          before.handler.fdTids fd = some tid := by
        intro fd tid found
        rw [result] at found
        cases call with
        | add refused target on fn => cases registers
        | mod refused target on fn => cases registers
        | del refused target =>
            rw [fdTids_count_del] at found
            rcases eq_or_ne fd target with rfl | elsewhere
            · simp at found
            · simpa [elsewhere] using found
        | close target => exact found
      intro fd other tid first second
      exact apart fd other tid (kept fd tid first) (kept other tid second)

/-- While the tids are apart and stay so, a call does nothing to other descriptors. -/
theorem Apart.spares
    (apart : Apart before)
    (stepped : before.step call = some after)
    (fresh : Fresh ⟨before, call, after⟩) :
    Spares ⟨before, call, after⟩ := by
  have unissued := not_shared_gid stepped fresh
  obtain ⟨allowed, rfl⟩ := step_eq_some.mp stepped
  have erases (known : before.handler.fdTids call.fd ≠ none) :
      before.handler.ErasesOwn call.fd := by
    obtain ⟨tid, registered⟩ := Option.ne_none_iff_exists'.mp known
    intro shared
    rw [Handler.tidOf, registered, Option.getD_some] at shared
    exact absurd shared (apart.not_shared registered)
  cases call with
  | add refused fd on fn =>
      have vacant := unissued rfl
      intro other different
      have tids : (before.handler.addTask ⟨fd, on, fn⟩).fdTids other =
          before.handler.fdTids other := Function.update_of_ne different _ _
      simp only [count, handler, Poller.after, Poller.add_handler]
      refine ⟨tids, (Handler.callOf_congr tids).mpr fun tid registered => ?_⟩
      have elsewhere : tid ≠ before.handler.gid := by
        rintro rfl
        exact vacant ⟨other, different, registered⟩
      exact Function.update_of_ne elsewhere _ _
  | mod refused fd on fn =>
      have spares := (before.handler.modTask_spares_iff ⟨fd, on, fn⟩).mpr
        ⟨erases allowed, fun shared => absurd shared (unissued rfl)⟩
      simpa only [Spares, count, handler, Poller.after, Poller.mod_handler, Call.fd] using spares
  | del refused fd => exact (before.handler.delTask_spares_iff fd).mpr (erases allowed)
  | close fd => exact fun _ _ => ⟨rfl, rfl⟩

end Drawing

open Drawing in
/-- In every run, of any length: every registration gets a tid that no other descriptor
has exactly when none of them is made a multiple of 2^32 registrations after the current
one of another descriptor; and then no call changes the tid or the callback of another
descriptor. -/
theorem ids_not_reused_iff
    {taken : List (Lib.Transition (Drawing Callback) (Call Callback))}
    {state : Drawing Callback}
    (path : Lib.Path Drawing.step (.initial Callback) taken state) :
    ((∀ transition ∈ taken, Fresh transition) ↔
        ∀ transition ∈ taken, Spaced transition) ∧
      ((∀ transition ∈ taken, Spaced transition) →
        ∀ transition ∈ taken, Spares transition) := by
  have equivalent := path.forall_iff fresh_iff_spaced
  refine ⟨equivalent, fun spaced => ?_⟩
  have fresh := equivalent.mpr spaced
  clear spaced equivalent
  suffices Apart state ∧ ∀ transition ∈ taken, Spares transition from this.2
  induction path with
  | nil => exact ⟨by simp [Apart, Drawing.initial, Poller.initial, Handler.initial], by simp⟩
  | snoc _ stepped inductionHypothesis =>
      simp only [List.forall_mem_append, List.forall_mem_singleton] at fresh ⊢
      obtain ⟨apart, spares⟩ := inductionHypothesis fresh.1
      exact ⟨apart.step stepped fresh.2, spares, apart.spares stepped fresh.2⟩

/-- A worker's event descriptor and a socket are registered, and the registration of
the socket is changed. -/
private def waited : List (Call Unit) :=
  [.add false 4 eventIn (), .add false 7 eventErr (), .mod false 7 eventIn ()]

/-- Before 2^32 tids were drawn, no two registrations are a multiple of 2^32 apart. -/
theorem spaced_of_few
    {taken : List (Lib.Transition (Drawing Callback) (Call Callback))}
    {state : Drawing Callback}
    (path : Lib.Path Drawing.step (.initial Callback) taken state)
    (few : ∀ transition ∈ taken, transition.before.drawn < 2 ^ 32) :
    ∀ transition ∈ taken, Drawing.Spaced transition := by
  intro transition member registers other apart number found multiple
  have counted := Drawing.Counted.of_reached (path.mem_transition member).1
  have earlier := counted.since_lt found
  have enough := Nat.le_of_dvd (by omega) multiple
  have bounded := few transition member
  omega

theorem ids_not_reused_iff_sample :
    (Lib.runFrom Drawing.step (.initial Unit) waited).drawn = 3 ∧
      ∀ transition ∈ Lib.trace Drawing.step (.initial Unit) waited,
        Drawing.Fresh transition := by
  have path : Lib.Path Drawing.step (.initial Unit)
      (Lib.trace Drawing.step (.initial Unit) waited)
      (Lib.runFrom Drawing.step (.initial Unit) waited) := Lib.path_runFrom (by decide)
  refine ⟨by decide, ?_⟩
  apply (ids_not_reused_iff path).1.mpr
  apply spaced_of_few path
  decide

/-- A socket that is waited for again and again, beside the event descriptor of a
worker that stays idle. -/
private theorem busy (count : Nat) :
    ∃ taken state, Lib.Path Drawing.step (.initial Unit) taken state ∧
      state.drawn = count + 2 ∧ state.handler.fdTids 4 = some 0 ∧
        state.handler.fdTids 7 ≠ none := by
  induction count with
  | zero =>
      let labels : List (Call Unit) := [.add false 4 eventIn (), .add false 7 eventErr ()]
      have path : Lib.Path Drawing.step (.initial Unit)
          (Lib.trace Drawing.step (.initial Unit) labels)
          (Lib.runFrom Drawing.step (.initial Unit) labels) := Lib.path_runFrom (by decide)
      exact ⟨_, _, path, by decide, by decide, by decide⟩
  | succ count inductionHypothesis =>
      obtain ⟨taken, state, path, drawn, idle, known⟩ := inductionHypothesis
      have stepped : state.step (.mod false 7 eventIn ()) =
          some (state.count (state.poller.after (.mod false 7 eventIn ()))
            (.mod false 7 eventIn ())) := Drawing.step_eq_some.mpr ⟨known, rfl⟩
      refine ⟨_, _, path.snoc stepped, ?_, ?_, ?_⟩
      · simp only [Drawing.count]
        omega
      · rw [Drawing.fdTids_count rfl]
        exact idle
      · rw [Drawing.fdTids_count rfl]
        simp [Call.fd]

/-- After 2^32 - 2 waits the next one draws the tid of the idle worker. -/
theorem idle_worker_loses_tid :
    ¬∀ (taken : List (Lib.Transition (Drawing Unit) (Call Unit))) (state : Drawing Unit),
      Lib.Path Drawing.step (.initial Unit) taken state →
        ∀ transition ∈ taken, Drawing.Fresh transition := by
  intro fresh
  obtain ⟨taken, state, path, drawn, idle, known⟩ := busy (2 ^ 32 - 2)
  have stepped : state.step (.mod false 7 eventIn ()) =
      some (state.count (state.poller.after (.mod false 7 eventIn ()))
        (.mod false 7 eventIn ())) := Drawing.step_eq_some.mpr ⟨known, rfl⟩
  have gid : state.handler.gid = 0 := by
    rw [(Drawing.Counted.of_reached ⟨taken, path⟩).gid, drawn]
    rfl
  have apart : (4 : Fd) ≠ 7 := by decide
  apply fresh _ _ (path.snoc stepped) _ List.mem_concat_self rfl 4 apart
  rw [Drawing.fdTids_count rfl, gid]
  simpa [Call.fd] using idle

end Event
end Cgo
