import Cgo.Channel.Select
import Mathlib.Data.List.FinRange

/-!
# The order of the cases

`Select::operator()` shuffles its listeners with a generator that it constructs on
the spot, so every call starts from the default seed.  Whatever permutation
`std::shuffle` makes of the number of listeners and the state of the generator, it
is the same one for all selects with that number of cases, and so is the case that
is polled first.
-/

namespace Cgo
namespace Channel

/-- `std::minstd_rand`: a number below the modulus 2^31 - 1 and not 0. -/
abbrev MinstdRand := { state : Nat // 0 < state ∧ state < 2147483647 }

/-- `std::minstd_rand rng;` takes the seed 1. -/
def MinstdRand.default : MinstdRand :=
  ⟨1, by decide⟩

/-- `std::shuffle`: the position that each place of the result comes from. -/
abbrev Shuffle := (length : Nat) → MinstdRand → Equiv.Perm (Fin length)

namespace Shuffle

/-- The shuffled range. -/
def apply {β : Type} (shuffle : Shuffle) (listeners : List β) (rng : MinstdRand) : List β :=
  List.ofFn (listeners.get ∘ shuffle listeners.length rng)

theorem apply_perm
    {β : Type}
    (shuffle : Shuffle)
    (listeners : List β)
    (rng : MinstdRand) :
    (shuffle.apply listeners rng).Perm listeners := by
  have perm := (shuffle listeners.length rng).ofFn_comp_perm listeners.get
  rwa [List.ofFn_get] at perm

/-- The position whose case comes first among `length` cases. -/
def favourite (shuffle : Shuffle) (length : Nat) (positive : 0 < length) : Fin length :=
  shuffle length .default ⟨0, positive⟩

theorem head_apply
    {β : Type}
    (shuffle : Shuffle)
    (listeners : List β)
    (positive : 0 < listeners.length) :
    (shuffle.apply listeners .default).head? =
      some (listeners.get (shuffle.favourite listeners.length positive)) := by
  rw [List.head?_eq_getElem?, apply, List.getElem?_ofFn, dif_pos positive]
  rfl

end Shuffle

/-- In the loop over the listeners. -/
def Select.Pc.Looping : Select.Pc → Prop
  | .poll _ => True
  | .calling _ _ => True
  | .check _ => True
  | _ => False

namespace Selecting

variable {α : Type} {program : Program α}

section

variable [Inhabited α]

/-- The order in which `operator()` calls the listeners. -/
def order (shuffle : Shuffle) (selects : Selects program) (select : SelectId) : List MsgId :=
  shuffle.apply (selects.listeners select) .default

/-- A step when `start` does what the two lines before the loop do. -/
def stepShuffled (shuffle : Shuffle) (selects : Selects program) (state : Selecting α) :
    Label → Option (Selecting α)
  | .start select listeners =>
      if listeners = order shuffle selects select then
        step selects state (.start select listeners)
      else none
  | label => step selects state label

variable {shuffle : Shuffle} {selects : Selects program} {state after : Selecting α}

/-- What is known of selects with any order holds with this one. -/
theorem step_of_stepShuffled
    {label : Label}
    (stepped : stepShuffled shuffle selects state label = some after) :
    step selects state label = some after := by
  cases label with
  | start select listeners =>
      simp only [stepShuffled] at stepped
      split at stepped
      · exact stepped
      · cases stepped
  | _ => exact stepped

/-- The step polls a case of the select, and none was polled before. -/
def FirstPoll (state after : Selecting α) (select : SelectId) (message : MsgId) : Prop :=
  state.msgs select = [] ∧ after.msgs select = [message]

/-! ## What is polled first -/

/-- Until a case was polled, the loop is at the head of the shuffled listeners. -/
def Starts (shuffle : Shuffle) (selects : Selects program) (state : Selecting α)
    (select : SelectId) : Prop :=
  match state.pc select with
  | .poll listeners => state.msgs select = [] → listeners = order shuffle selects select
  | .calling _ _ => state.msgs select ≠ []
  | .check _ => state.msgs select ≠ []
  | _ => True

omit [Inhabited α] in
theorem Starts.congr
    {select : SelectId}
    (starts : Starts shuffle selects state select)
    (pc : after.pc select = state.pc select)
    (msgs : after.msgs select = state.msgs select) :
    Starts shuffle selects after select := by
  unfold Starts at starts ⊢
  rwa [pc, msgs]

omit [Inhabited α] in
/-- Another point of one select. -/
theorem Starts.goto
    {select moved : SelectId}
    {pc : Select.Pc}
    (starts : Starts shuffle selects state select)
    (here : select = moved → Starts shuffle selects (state.goto moved pc) select) :
    Starts shuffle selects (state.goto moved pc) select := by
  rcases eq_or_ne select moved with same | apart
  · exact here same
  · exact starts.congr (Function.update_of_ne apart _ _) rfl

omit [Inhabited α] in
/-- A point outside the loop. -/
theorem Starts.leave
    {select moved : SelectId}
    {pc : Select.Pc}
    (starts : Starts shuffle selects state select)
    (outside : ¬pc.Looping) :
    Starts shuffle selects (state.goto moved pc) select := by
  apply starts.goto
  rintro rfl
  cases pc <;> simp_all [Starts, Selecting.goto, Select.Pc.Looping]

/-- What a step preserves.  The loop comes back to `poll` only after a listener was
called, and the messages are dropped only after the loop. -/
theorem Starts.step
    {label : Label}
    {select : SelectId}
    (starts : Starts shuffle selects state select)
    (stepped : stepShuffled shuffle selects state label = some after) :
    Starts shuffle selects after select := by
  have stepped' := step_of_stepShuffled stepped
  cases label with
  | enter message =>
      simp only [Selecting.step] at stepped'
      split at stepped'
      · obtain ⟨system, -, rfl⟩ := stepSystem_eq stepped'
        exact starts.congr rfl rfl
      · cases stepped'
  | turn chan =>
      obtain ⟨system, -, rfl⟩ := stepSystem_eq stepped'
      exact starts.congr rfl rfl
  | drop message =>
      simp only [Selecting.step] at stepped'
      split at stepped'
      · obtain ⟨system, -, rfl⟩ := stepSystem_eq stepped'
        exact starts.congr rfl rfl
      · cases stepped'
  | start moved listeners =>
      simp only [stepShuffled] at stepped
      split at stepped
      · next shuffled =>
          simp only [Selecting.step] at stepped
          split at stepped
          · obtain rfl := Option.some.inj stepped
            apply starts.goto
            rintro rfl
            simp [Starts, Selecting.goto, shuffled]
          · cases stepped
      · cases stepped
  | poll moved =>
      simp only [Selecting.step] at stepped'
      split at stepped'
      · obtain rfl := Option.some.inj stepped'
        exact starts.leave id
      · next message listeners polling =>
          obtain ⟨between, entering, rfl⟩ := Option.map_eq_some_iff.mp stepped'
          obtain ⟨system, -, rfl⟩ := stepSystem_eq entering
          rcases eq_or_ne select moved with rfl | apart
          · simp [Starts, Selecting.goto]
          · apply starts.congr
            · simp [Selecting.goto, apart]
            · simp [Selecting.goto, apart]
      · cases stepped'
  | resume moved =>
      simp only [Selecting.step] at stepped'
      split at stepped'
      · next message listeners calling =>
          split at stepped'
          · obtain rfl := Option.some.inj stepped'
            apply starts.goto
            rintro rfl
            simpa [Starts, Selecting.goto, calling] using starts
          · obtain rfl := Option.some.inj stepped'
            exact starts.leave id
          · cases stepped'
      · cases stepped'
  | check moved =>
      simp only [Selecting.step] at stepped'
      split at stepped'
      · next listeners checking =>
          split at stepped'
          · obtain rfl := Option.some.inj stepped'
            apply starts.goto
            rintro rfl
            have polled : state.msgs select ≠ [] := by simpa [Starts, checking] using starts
            simp [Starts, Selecting.goto, polled]
          · obtain rfl := Option.some.inj stepped'
            exact starts.leave id
      · cases stepped'
  | decide moved =>
      simp only [Selecting.step] at stepped'
      split at stepped'
      · split at stepped'
        · obtain rfl := Option.some.inj stepped'
          exact starts.leave id
        · split at stepped'
          · obtain rfl := Option.some.inj stepped'
            exact starts.leave id
          · obtain ⟨between, firing, rfl⟩ := Option.map_eq_some_iff.mp stepped'
            obtain ⟨system, -, rfl⟩ := stepSystem_eq firing
            exact Starts.leave (starts.congr rfl rfl) id
      · cases stepped'
  | wake moved =>
      simp only [Selecting.step] at stepped'
      split at stepped'
      · obtain rfl := Option.some.inj stepped'
        exact starts.leave id
      · cases stepped'
  | destroy moved =>
      simp only [Selecting.step] at stepped'
      split at stepped'
      · obtain rfl := Option.some.inj stepped'
        exact starts.leave id
      · cases stepped'
  | dropNext moved =>
      simp only [Selecting.step] at stepped'
      split at stepped'
      · split at stepped'
        · next ended =>
            obtain ⟨system, -, rfl⟩ := stepSystem_eq stepped'
            rcases eq_or_ne select moved with rfl | apart
            · revert ended
              cases pc : state.pc select <;> simp [Starts, pc, Select.Pc.Ended]
            · apply starts.congr
              · rfl
              · simp [apart]
        · cases stepped'
      · cases stepped'

theorem Starts.of_reached
    (reached : Lib.Reachable (stepShuffled shuffle selects) (initial program) state)
    (select : SelectId) :
    Starts shuffle selects state select := by
  apply reached.invariant
  · simp [Starts, initial]
  · exact fun _ _ _ starts stepped => starts.step stepped

/-- A step that polls. -/
theorem step_poll
    {select : SelectId}
    {message : MsgId}
    {listeners : List MsgId}
    {system : System α}
    (polling : state.pc select = .poll (message :: listeners))
    (entered : System.step program state.system (.enter message) = some system) :
    stepShuffled shuffle selects state (.poll select) = some
      { system
        pc := Function.update state.pc select (.calling message listeners)
        msgs := Function.update state.msgs select (state.msgs select ++ [message]) } := by
  simp [stepShuffled, step, polling, stepSystem, entered, goto]

/-- The first case that is polled is the first of the shuffled ones. -/
theorem first_poll_eq
    {select : SelectId}
    {message : MsgId}
    (reached : Lib.Reachable (stepShuffled shuffle selects) (initial program) state)
    (stepped : stepShuffled shuffle selects state (.poll select) = some after)
    (first : FirstPoll state after select message) :
    (order shuffle selects select).head? = some message := by
  have starts := Starts.of_reached reached select
  obtain ⟨fresh, polled⟩ := first
  simp only [stepShuffled, Selecting.step] at stepped
  split at stepped
  · obtain rfl := Option.some.inj stepped
    have unpolled : state.msgs select = [message] := polled
    rw [fresh] at unpolled
    cases unpolled
  · next next listeners polling =>
      obtain ⟨between, entering, rfl⟩ := Option.map_eq_some_iff.mp stepped
      obtain ⟨system, -, rfl⟩ := stepSystem_eq entering
      have shuffled : next :: listeners = order shuffle selects select := by
        simpa [Starts, polling, fresh] using starts
      obtain rfl : next = message := by simpa [Selecting.goto, fresh] using polled
      rw [← shuffled, List.head?_cons]
  · cases stepped

end

/-- Some execution of `operator()`, in some program with a select of `count` cases, polls
the case that was registered at position `index` first. -/
def PollsFirst (shuffle : Shuffle) (count index : Nat) : Prop :=
  ∃ (α : Type) (_ : Inhabited α) (program : Program α) (selects : Selects program)
      (select : SelectId) (state after : Selecting α) (message : MsgId),
    (selects.listeners select).Nodup ∧ (selects.listeners select).length = count ∧
      Lib.Reachable (stepShuffled shuffle selects) (initial program) state ∧
        stepShuffled shuffle selects state (.poll select) = some after ∧
          FirstPoll state after select message ∧
            (selects.listeners select)[index]? = some message

/-- Whatever the program does, the favourite comes first. -/
theorem PollsFirst.eq_favourite
    {shuffle : Shuffle}
    {count index : Nat}
    (positive : 0 < count)
    (polls : PollsFirst shuffle count index) :
    index = shuffle.favourite count positive := by
  obtain ⟨α, _, program, selects, select, state, after, message, nodup, rfl, reached, stepped,
    first, atIndex⟩ := polls
  have head := first_poll_eq reached stepped first
  rw [order, shuffle.head_apply _ positive, List.get_eq_getElem] at head
  have inRange := (List.getElem?_eq_some_iff.mp atIndex).1
  apply (List.getElem?_inj inRange nodup).mp
  rw [atIndex, List.getElem?_eq_getElem (Fin.isLt _), head]

/-- A program with a select of `count` receives, each on its own channel. -/
def fan (count : Nat) : Program Nat where
  capacity _ := 0
  msg message :=
    if message < count then
      ⟨.multiplex (some message) 0 ⟨message, by rw [InvalidSelectKey]; omega⟩, message, .recv,
        false⟩
    else ⟨.simplex (some message) true, message, .recv, false⟩
  mem _ := 0
  sends_data message sends := by
    split at sends <;> cases sends

/-- Its select. -/
def fanSelects (count : Nat) : Selects (fan count) where
  listeners select := if select = 0 then List.range count else []
  defaultKey _ := none
  mem_listeners select message := by
    by_cases inside : message < count <;> by_cases zero : select = 0 <;>
      simp [fan, Program.select?, Variant.select?, inside, zero, eq_comm]

/-- Some case is polled first. -/
theorem exists_pollsFirst
    (shuffle : Shuffle)
    {count : Nat}
    (positive : 0 < count) :
    ∃ index, PollsFirst shuffle count index := by
  have length : ((fanSelects count).listeners 0).length = count := by simp [fanSelects]
  have perm : (order shuffle (fanSelects count) 0).Perm ((fanSelects count).listeners 0) :=
    shuffle.apply_perm _ _
  obtain ⟨first, rest, shuffled⟩ : ∃ first rest,
      order shuffle (fanSelects count) 0 = first :: rest := by
    apply List.exists_cons_of_length_pos
    rw [perm.length_eq, length]
    exact positive
  have started : stepShuffled shuffle (fanSelects count) (initial (fan count))
      (.start 0 (first :: rest)) = some ((initial (fan count)).goto 0 (.poll (first :: rest))) := by
    rw [shuffled] at perm
    simp [stepShuffled, step, shuffled, initial, perm]
  obtain ⟨system, enters⟩ : ∃ system,
      System.step (fan count) (System.initial (fan count)) (.enter first) = some system := by
    simp [System.step, System.initial, Chan.initial]
  have polling : ((initial (fan count)).goto 0 (.poll (first :: rest))).pc 0 =
      .poll (first :: rest) := by simp [goto]
  have polls : stepShuffled shuffle (fanSelects count)
      ((initial (fan count)).goto 0 (.poll (first :: rest))) (.poll 0) = some _ :=
    step_poll polling enters
  obtain ⟨index, atIndex⟩ : ∃ index,
      ((fanSelects count).listeners 0)[index]? = some first := by
    apply List.mem_iff_getElem?.mp
    rw [← perm.mem_iff, shuffled]
    exact List.mem_cons_self
  refine ⟨index, Nat, inferInstance, fan count, fanSelects count, 0, _, _, first,
    List.nodup_range, length, .tail .refl started, polls, ⟨rfl, ?_⟩, atIndex⟩
  simp [goto, initial]

/-- For every way to permute and every number of cases from two on, one position is
polled first in all executions of all selects with that many cases, and the others
never. -/
theorem one_case_always_first
    (shuffle : Shuffle)
    {count : Nat}
    (several : 2 ≤ count) :
    (∃ favourite, favourite < count ∧
        ∀ index, PollsFirst shuffle count index ↔ index = favourite) ∧
      ¬∀ index, index < count → PollsFirst shuffle count index := by
  have positive : 0 < count := by omega
  have only : ∀ index, PollsFirst shuffle count index ↔
      index = shuffle.favourite count positive := by
    intro index
    constructor
    · exact fun polls => polls.eq_favourite positive
    · rintro rfl
      obtain ⟨polled, polls⟩ := exists_pollsFirst shuffle positive
      rwa [← polls.eq_favourite positive]
  refine ⟨⟨_, Fin.isLt _, only⟩, fun every => ?_⟩
  have zero := (only 0).mp (every 0 (by omega))
  have one := (only 1).mp (every 1 (by omega))
  omega

/-- A shuffle that leaves two listeners in their order when the generator starts from
its default seed. -/
theorem one_case_always_first_sample :
    ¬∀ index, index < 2 → PollsFirst (fun _ _ => Equiv.refl _) 2 index :=
  (one_case_always_first (fun _ _ => Equiv.refl _) (by decide)).2

/-- With two cases it is not so that each of them is polled first at times. -/
theorem second_case_never_first :
    ¬∀ (shuffle : Shuffle) (count : Nat), 2 ≤ count →
      ∀ index, index < count → PollsFirst shuffle count index := by
  intro every
  have polls := every (fun _ _ => Equiv.refl _) 2 (by decide) 1 (by decide)
  exact absurd (polls.eq_favourite (by decide)) (by decide)

end Selecting

end Channel
end Cgo
