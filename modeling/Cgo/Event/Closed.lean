import Cgo.Event.Callbacks

/-!
# Sockets that are closed

`Socket::close` takes the registration of its socket away, and so does the next wait for
the same socket.  Neither says a word to those who wait already.  The number of a
callback is also the number of its registration, so a callback is held under one tid at
most and never comes back after it was erased.
-/

namespace Cgo
namespace Event
namespace Sockets

/-- The action takes the registration of the descriptor away, or replaces it. -/
def Action.Unregisters (fd : Fd) : Action → Prop
  | .step (.wait other _ _ _) => other = fd
  | .close other _ => other = fd
  | _ => False

variable {before after : Sockets} {action : Action}

/-! ## Which tasks there are -/

/-- A task was there, and is not the one that the action erases, or it is the one that the
action registers. -/
theorem task_of_act
    {tid : Tid}
    {task : Task Closure}
    (acted : before.act action = some after)
    (held : after.handler.tidCalls tid = some task) :
    (before.handler.tidCalls tid = some task ∧
        ∀ fd, action.Unregisters fd → tid ≠ before.handler.tidOf fd) ∨
      (action.registered = some task.fd ∧ tid = before.handler.gid ∧
        task.fn = before.made) := by
  cases action with
  | step label =>
      cases turn_of_step acted with
      | constructed fd refused _ maps =>
          rw [maps] at held
          rcases eq_or_ne tid before.handler.gid with rfl | apart
          · obtain rfl : _ = task := by simpa using held
            exact .inr ⟨rfl, rfl, rfl⟩
          · exact .inl ⟨by simpa [apart] using held, fun _ never => never.elim⟩
      | waited fd ready timed refused _ maps =>
          rw [maps] at held
          have kept : tid ≠ before.handler.tidOf fd := by
            rintro rfl
            simp at held
          rcases eq_or_ne tid before.handler.gid with rfl | apart
          · obtain rfl : _ = task := by simpa [kept] using held
            exact .inr ⟨rfl, rfl, rfl⟩
          · refine .inl ⟨by simpa [kept, apart] using held, ?_⟩
            rintro _ rfl
            exact kept
      | reported _ _ _ _ maps => exact .inl ⟨by rwa [maps] at held, fun _ never => never.elim⟩
      | dispatched _ _ _ _ _ poller =>
          exact .inl ⟨by rwa [handler, poller] at held, fun _ never => never.elim⟩
      | decided _ _ _ _ decides _ _ _ _ _ poller =>
          refine .inl ⟨by rwa [handler, poller] at held, fun _ unregisters => ?_⟩
          cases label <;> first | exact unregisters.elim | cases decides
  | close fd refused =>
      simp only [act] at acted
      split at acted
      · obtain rfl := Option.some.inj acted
        have kept : tid ≠ before.handler.tidOf fd := by
          rintro rfl
          simp [close, handler, Handler.delTask] at held
        refine .inl ⟨by simpa [close, handler, Handler.delTask, kept] using held, ?_⟩
        rintro _ rfl
        exact kept
      · cases acted

theorem gid_of_act (acted : before.act action = some after) :
    after.handler.gid =
      before.handler.gid + BitVec.ofNat 32 action.registered.isSome.toNat := by
  cases action with
  | step label =>
      cases turn_of_step acted with
      | constructed fd refused _ maps =>
          rw [maps]
          rfl
      | waited fd ready timed refused _ maps =>
          rw [maps]
          rfl
      | reported _ _ _ _ maps =>
          rw [maps]
          exact (BitVec.add_zero _).symm
      | dispatched _ _ _ _ _ poller =>
          rw [handler, poller]
          exact (BitVec.add_zero _).symm
      | decided _ _ _ _ decides _ _ _ _ _ poller =>
          rw [handler, poller]
          cases label <;> first | exact (BitVec.add_zero _).symm | cases decides
  | close fd refused =>
      simp only [act] at acted
      split at acted
      · obtain rfl := Option.some.inj acted
        exact (BitVec.add_zero _).symm
      · cases acted

theorem interest_close_of_ne
    (state : Sockets)
    (refused : Bool)
    {fd other : Fd}
    (apart : other ≠ fd) :
    (state.close fd refused).interest other = state.interest other := by
  simp only [close, interest, Poller.del, Epoll.close, Function.update_of_ne apart, Epoll.ctl]
  cases refused with
  | true => rfl
  | false => cases state.poller.epoll.interest fd <;> simp [apart]

/-! ## What unregisters a callback -/

/-- What unregisters a callback does nothing to its wait. -/
theorem waits_of_unregisters
    {fd : Fd}
    {closure : Closure}
    (acted : before.act action = some after)
    (unregisters : action.Unregisters fd)
    (earlier : closure < before.made) :
    after.waits closure = before.waits closure := by
  cases action with
  | step label =>
      cases turn_of_step acted with
      | waited _ _ _ _ _ _ kernel =>
          rcases kernel with ⟨-, -, waits⟩ | ⟨-, waits⟩
          · rw [waits]
          · rw [waits, Function.update_of_ne earlier.ne]
      | decided _ _ _ _ decides =>
          cases label <;> first | exact unregisters.elim | cases decides
      | _ => exact unregisters.elim
  | close fd refused =>
      simp only [act] at acted
      split at acted
      · obtain rfl := Option.some.inj acted
        rfl
      · cases acted

/-- A callback that is not held does not run. -/
theorem ran_of_act
    {closure : Closure}
    (acted : before.act action = some after)
    (unheld : ¬before.Held closure) :
    after.ran closure = before.ran closure := by
  cases action with
  | step label =>
      cases turn_of_step acted with
      | constructed _ _ _ _ _ _ _ ran => rw [ran]
      | waited _ _ _ _ _ _ _ _ _ ran => rw [ran]
      | reported _ _ _ _ _ _ _ _ _ ran => rw [ran]
      | dispatched _ _ _ _ _ _ _ outcome =>
          rcases outcome with ⟨-, -, ran⟩ | ⟨task, ev, invoked, -, ran⟩
          · rw [ran]
          · have apart : closure ≠ task.fn := by
              rintro rfl
              exact unheld ⟨_, task, (Handler.invoked_eq_some.mp invoked).1, rfl⟩
            rw [ran, Function.update_of_ne apart]
      | decided _ _ _ _ _ _ _ _ _ _ _ _ _ ran => rw [ran]
  | close fd refused =>
      simp only [act] at acted
      split at acted
      · obtain rfl := Option.some.inj acted
        rfl
      · cases acted

/-- What unregisters a callback runs none. -/
theorem ran_of_unregisters
    {fd : Fd}
    (acted : before.act action = some after)
    (unregisters : action.Unregisters fd) :
    after.ran = before.ran := by
  cases action with
  | step label =>
      cases turn_of_step acted with
      | waited _ _ _ _ _ _ _ _ _ ran => exact ran
      | decided _ _ _ _ _ _ _ _ _ _ _ _ _ ran => exact ran
      | _ => exact unregisters.elim
  | close fd refused =>
      simp only [act] at acted
      split at acted
      · obtain rfl := Option.some.inj acted
        rfl
      · cases acted

/-! ## Numbers -/

/-- The maps are as they should be, and a callback is held under the tid with its number
for the socket that is waited for. -/
structure Issued (state : Sockets) : Prop where
  sound : Sound state
  gid : state.handler.gid = BitVec.ofNat 32 state.made
  numbered : ∀ {tid task}, state.handler.tidCalls tid = some task →
    tid = BitVec.ofNat 32 task.fn ∧ task.fn < state.made
  own : ∀ {tid task wait}, state.handler.tidCalls tid = some task →
    state.waits task.fn = some wait → task.fd = wait.fd

namespace Issued

theorem initial : Issued Sockets.initial where
  sound := .initial
  gid := rfl
  numbered := by simp [Sockets.initial, handler, Poller.initial, Handler.initial]
  own := by simp [Sockets.initial]

/-- The next tid has no task before the counter wraps. -/
theorem vacant
    (issued : Issued before)
    (few : before.made < 2 ^ 32) :
    before.handler.tidCalls before.handler.gid = none := by
  by_contra taken
  obtain ⟨task, held⟩ := Option.ne_none_iff_exists'.mp taken
  obtain ⟨same, earlier⟩ := issued.numbered held
  rw [issued.gid] at same
  exact Lib.counter_ne earlier few same.symm

theorem sound_act
    (issued : Issued before)
    (acted : before.act action = some after)
    (few : after.made ≤ 2 ^ 32) :
    Sound after := by
  have made := made_of_act acted
  cases action with
  | step label =>
      refine issued.sound.turn (turn_of_step acted) ?_
      cases label with
      | construct fd refused =>
          simp only [Action.registered, Option.isSome_some, Bool.toNat_true] at made
          exact issued.vacant (by omega)
      | wait fd ready timed refused =>
          simp only [Action.registered, Option.isSome_some, Bool.toNat_true] at made
          exact issued.vacant (by omega)
      | _ => trivial
  | close fd refused =>
      simp only [act] at acted
      split at acted
      · next opened =>
          obtain rfl := Option.some.inj acted
          refine ⟨issued.sound.inverse.remove (issued.sound.tidOf_eq opened), ?_, ?_,
            issued.sound.closures⟩
          · intro other member
            obtain ⟨stays, apart⟩ : other ∈ before.sockets ∧ other ≠ fd := by
              simpa [close] using member
            simpa [close, handler, Handler.delTask, apart] using issued.sound.known other stays
          · intro other member
            obtain ⟨stays, apart⟩ : other ∈ before.sockets ∧ other ≠ fd := by
              simpa [close] using member
            rw [interest_close_of_ne before refused apart]
            exact issued.sound.listed other stays
      · cases acted

/-- What an action preserves before the counter wraps. -/
theorem act
    (issued : Issued before)
    (acted : before.act action = some after)
    (few : after.made ≤ 2 ^ 32) :
    Issued after := by
  have made := made_of_act acted
  refine ⟨issued.sound_act acted few, ?_, ?_, ?_⟩
  · rw [gid_of_act acted, issued.gid, made, BitVec.ofNat_add]
  · intro tid task held
    rcases task_of_act acted held with ⟨there, -⟩ | ⟨registered, rfl, fresh⟩
    · obtain ⟨same, earlier⟩ := issued.numbered there
      exact ⟨same, made ▸ Nat.lt_add_right _ earlier⟩
    · refine ⟨by rw [fresh, issued.gid], ?_⟩
      rw [made, registered, fresh]
      exact Nat.lt_succ_self _
  · intro tid task wait held found
    rcases wait_of_act acted found with ⟨earlier, begun⟩ | ⟨registered, fresh, -⟩
    · have known := issued.sound.closures begun
      rcases task_of_act acted held with ⟨there, -⟩ | ⟨_, _, fresh⟩
      · obtain ⟨later, same, hears⟩ := hears_of_act acted begun known
        obtain rfl := Option.some.inj (found.symm.trans same)
        rw [issued.own there begun]
        cases hears <;> rfl
      · exact absurd (fresh ▸ known) (Nat.lt_irrefl _)
    · rcases task_of_act acted held with ⟨there, -⟩ | ⟨same, _, _⟩
      · exact absurd (fresh ▸ (issued.numbered there).2) (Nat.lt_irrefl _)
      · exact Option.some.inj (same.symm.trans registered)

/-- The callback of a wait is held under the tid of its socket. -/
theorem tidOf_eq
    (issued : Issued before)
    {tid : Tid}
    {task : Task Closure}
    {wait : Wait}
    (held : before.handler.tidCalls tid = some task)
    (begun : before.waits task.fn = some wait) :
    before.handler.tidOf wait.fd = tid := by
  have current := issued.sound.inverse.current held
  rw [← issued.own held begun, Handler.tidOf, current, Option.getD_some]

/-- A callback whose socket is closed or waited for again is not held any more. -/
theorem unheld_of_unregisters
    (issued : Issued before)
    (acted : before.act action = some after)
    {closure : Closure}
    {wait : Wait}
    (begun : before.waits closure = some wait)
    (unregisters : action.Unregisters wait.fd) :
    ¬after.Held closure := by
  rintro ⟨tid, task, held, rfl⟩
  rcases task_of_act acted held with ⟨there, kept⟩ | ⟨_, _, fresh⟩
  · exact kept wait.fd unregisters (issued.tidOf_eq there begun).symm
  · exact absurd (fresh ▸ issued.sound.closures begun) (Nat.lt_irrefl _)

/-- A callback that was made and is not held does not come back. -/
theorem unheld
    (acted : before.act action = some after)
    {closure : Closure}
    (known : closure < before.made)
    (unheld : ¬before.Held closure) :
    ¬after.Held closure := by
  rintro ⟨tid, task, held, rfl⟩
  rcases task_of_act acted held with ⟨there, -⟩ | ⟨_, _, fresh⟩
  · exact unheld ⟨tid, task, there, rfl⟩
  · exact absurd (fresh ▸ known) (Nat.lt_irrefl _)

end Issued

/-! ## Nobody tells -/

/-- The wait has not been told of its event; without a timer nothing has happened to it at
all. -/
def Untold (wait later : Wait) : Prop :=
  later.signal.timeout ≠ 1 ∧ (wait.timer = false → later = wait)

/-- What an action preserves when the callback is not held. -/
theorem Untold.hears
    {wait later last : Wait}
    {held : Prop}
    (untold : Untold wait later)
    (unheld : ¬held)
    (unreleased : wait.signal.signal = 0)
    (hears : Hears held later last) :
    Untold wait last := by
  cases hears with
  | nothing => exact untold
  | event spurious invoked => exact absurd invoked unheld
  | timeout spurious timed =>
      refine ⟨?_, fun untimed => ?_⟩
      · simp only [Signal.onTimeout, Signal.claim]
        split
        · simp
        · exact untold.1
      · rw [untold.2 untimed, untimed] at timed
        cases timed
  | aquired free =>
      refine ⟨untold.1, fun untimed => ?_⟩
      rw [untold.2 untimed, unreleased] at free
      cases free

/-- The callback of a wait is gone, and nobody tells it: it has run if it had `ran`. -/
structure Silenced (closure : Closure) (wait : Wait) (ran : Bool) (state : Sockets) :
    Prop where
  issued : Issued state
  unheld : ¬state.Held closure
  waits : ∃ later, state.waits closure = some later ∧ Untold wait later
  ran : state.ran closure = ran

/-- What an action preserves. -/
theorem Silenced.act
    {closure : Closure}
    {wait : Wait}
    {ran : Bool}
    (silenced : Silenced closure wait ran before)
    (unreleased : wait.signal.signal = 0)
    (acted : before.act action = some after)
    (few : after.made ≤ 2 ^ 32) :
    Silenced closure wait ran after := by
  obtain ⟨later, begun, untold⟩ := silenced.waits
  have known := silenced.issued.sound.closures begun
  have quiet := ran_of_act acted silenced.unheld
  refine ⟨silenced.issued.act acted few, Issued.unheld acted known silenced.unheld, ?_,
    quiet.trans silenced.ran⟩
  obtain ⟨last, same, hears⟩ := hears_of_act acted begun known
  exact ⟨last, same, untold.hears silenced.unheld unreleased hears⟩

/-- The counter does not go back. -/
theorem made_le_of_path
    {start state : Sockets}
    {taken : List (Lib.Transition Sockets Action)}
    (path : Lib.Path act start taken state) :
    start.made ≤ state.made := by
  apply path.invariant (Nat.le_refl start.made)
  intro before action after grown acted
  rw [made_of_act acted]
  exact Nat.le_add_right_of_le grown

/-- What actions preserve before the counter wraps, whole runs preserve. -/
theorem invariant_of_few
    {Holds : Sockets → Prop}
    {start state : Sockets}
    {taken : List (Lib.Transition Sockets Action)}
    (path : Lib.Path act start taken state)
    (few : state.made ≤ 2 ^ 32)
    (initially : Holds start)
    (preserved : ∀ {before after action}, Holds before → before.act action = some after →
      after.made ≤ 2 ^ 32 → Holds after) :
    Holds state := by
  induction path with
  | nil => exact initially
  | snoc _ acted inductionHypothesis =>
      have made := made_of_act acted
      exact preserved (inductionHypothesis (by omega)) acted few

theorem Issued.of_path
    {state : Sockets}
    {taken : List (Lib.Transition Sockets Action)}
    (path : Lib.Path Sockets.act Sockets.initial taken state)
    (few : state.made ≤ 2 ^ 32) :
    Issued state :=
  invariant_of_few path few .initial Issued.act

/-- In every run with at most 2^32 registrations: once a socket is closed or waited for
again, the callback of a wait for it that is undecided is never held again and never runs.
The wait is never told that its event came; one without a timeout stays as it is and never
returns. -/
theorem closed_waits_stay_untold
    {taken earlier later : List (Lib.Transition Sockets Action)}
    {ending : Lib.Transition Sockets Action}
    {state : Sockets}
    (path : Lib.Path act initial taken state)
    (few : state.made ≤ 2 ^ 32)
    (split : taken = earlier ++ ending :: later)
    {closure : Closure}
    {wait : Wait}
    (begun : ending.before.waits closure = some wait)
    (pending : wait.Pending)
    (unregisters : ending.label.Unregisters wait.fd) :
    (∃ last, state.waits closure = some last ∧ Untold wait last) ∧
      (wait.timer = false → state.act (.step (.finish closure)) = none) ∧
      ¬state.Held closure ∧ state.ran closure = ending.before.ran closure := by
  rw [split] at path
  obtain ⟨middle, prior, rest⟩ := path.of_append
  obtain ⟨rfl, acted, rest⟩ := rest.of_cons
  have fewAfter : ending.after.made ≤ 2 ^ 32 := (made_le_of_path rest).trans few
  have grown := made_of_act acted
  have issued : Issued ending.before := .of_path prior (by omega)
  obtain ⟨timed, race, runs⟩ := runs_of_reached ⟨_, prior⟩ begun
  have unreleased := runs.unreleased pending
  have same := waits_of_unregisters acted unregisters (issued.sound.closures begun)
  have untold : Untold wait wait := by
    refine ⟨?_, fun _ => rfl⟩
    rw [pending]
    decide
  have atOnce : Silenced closure wait (ending.before.ran closure) ending.after :=
    ⟨issued.act acted fewAfter, issued.unheld_of_unregisters acted begun unregisters,
      ⟨wait, same.trans begun, untold⟩, by rw [ran_of_unregisters acted unregisters]⟩
  have silenced : Silenced closure wait (ending.before.ran closure) state :=
    invariant_of_few rest few atOnce fun silenced => silenced.act unreleased
  obtain ⟨last, found, untold⟩ := silenced.waits
  refine ⟨⟨last, found, untold⟩, fun untimed => ?_, silenced.unheld, silenced.ran⟩
  rw [untold.2 untimed] at found
  simp [act, step, found, unreleased]

/-- A socket is closed while it is waited for, and its descriptor is used again. -/
private def closedAndReused : List Action :=
  [.step (.construct 7 false), .step (.wait 7 .input false false), .close 7 false,
    .step (.construct 7 false), .step (.wait 7 .input false false),
    .step (.epollWait 0 [(7, epollIn)]), .step (.dispatch 0 false), .step (.finish 3)]

theorem closed_waits_stay_untold_sample :
    let state := Lib.runFrom act initial closedAndReused
    state.act (.step (.finish 1)) = none ∧ ¬state.Held 1 ∧ state.ran 1 = false := by
  intro state
  let waiting := Lib.runFrom act initial (closedAndReused.take 2)
  let closed := waiting.close 7 false
  have path : Lib.Path act initial (Lib.trace act initial closedAndReused) state :=
    Lib.path_runFrom (by decide)
  have split : Lib.trace act initial closedAndReused =
      Lib.trace act initial (closedAndReused.take 2) ++
        ⟨waiting, .close 7 false, closed⟩ :: Lib.trace act closed (closedAndReused.drop 3) :=
    rfl
  have begun : waiting.waits 1 = some ⟨7, .input, .initial, false⟩ := rfl
  obtain ⟨-, stays, unheld, quiet⟩ :=
    closed_waits_stay_untold path (by decide) split begun rfl rfl
  exact ⟨stays rfl, unheld, quiet⟩

end Sockets
end Event
end Cgo
