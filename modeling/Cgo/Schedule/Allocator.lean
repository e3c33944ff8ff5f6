import Cgo.Schedule.Spinlock
import Mathlib.Data.List.Nodup

/-!
# The tasks of a partition

`SchedContext::Allocator`: `_pool` holds the tasks and `_index` finds each by its id.
`create` and `destroy` change both inside the spin lock, one after the other, while
workers go on using the tasks that are already there.
-/

namespace Cgo
namespace Schedule

open Lib (Section Service Phase Atomic)

/-- An element of `_pool`: the address of a task and its id.  An
`Allocator::Handler` refers to one. -/
structure Node where
  address : Nat
  id : Nat
  deriving DecidableEq

/-- Where a new element of a `std::list` may be put. -/
structure Memory where
  place : List Nat → Nat
  place_notMem : ∀ used, place used ∉ used

/-- `_pool`, oldest first, and `_index`. -/
structure Allocator where
  pool : List Node
  index : Nat → Option Nat

/-- The calls of `create`, with the id it is given, and of `destroy`. -/
inductive Request
  | create (id : Nat) (memory : Memory)
  | destroy (task : Node)

/-- What a call comes to. -/
inductive Answer
  | handler (task : Node)
  | destroyed
  /-- `_index.at` throws. -/
  | outOfRange
  /-- An iterator is used that is none of the list. -/
  | undefined

namespace Allocator

/-- No tasks. -/
def empty : Allocator where
  pool := []
  index := fun _ => none

variable (allocator : Allocator)

/-- The addresses in use. -/
def addresses : List Nat :=
  allocator.pool.map Node.address

/-- `_pool.emplace(_pool.end(), ..)`. -/
def emplace (address id : Nat) : Allocator :=
  { allocator with pool := allocator.pool ++ [⟨address, id⟩] }

/-- `_index[id] = ..`. -/
def assign (id address : Nat) : Allocator :=
  { allocator with index := Function.update allocator.index id (some address) }

/-- `_pool.erase(..)`. -/
def erase (address : Nat) : Allocator :=
  { allocator with pool := allocator.pool.filter fun node => node.address ≠ address }

/-- `_index.erase(id)`. -/
def forget (id : Nat) : Allocator :=
  { allocator with index := Function.update allocator.index id none }

/-- The section of `create`. -/
def create (id : Nat) (memory : Memory) : Section Allocator Answer :=
  .step (fun allocator => allocator.emplace (memory.place allocator.addresses) id) fun before =>
    .step (fun allocator => allocator.assign id (memory.place before.addresses)) fun _ =>
      .step (fun allocator => allocator) fun allocator =>
        match allocator.index id with
        | some address => .done (.handler ⟨address, id⟩)
        | none => .done .undefined

/-- The section of `destroy`. -/
def destroy (id : Nat) : Section Allocator Answer :=
  .step (fun allocator => allocator) fun allocator =>
    match allocator.index id with
    | none => .done .outOfRange
    | some address =>
        if address ∈ allocator.addresses then
          .step (fun allocator => allocator.erase address) fun _ =>
            .step (fun allocator => allocator.forget id) fun _ =>
              .done .destroyed
        else .done .undefined

/-- Each task is found by its id, and nothing else is. -/
structure Indexed : Prop where
  addresses : allocator.addresses.Nodup
  index : ∀ id address, allocator.index id = some address ↔ ⟨address, id⟩ ∈ allocator.pool

variable {allocator}

theorem indexed_empty : Indexed empty where
  addresses := List.nodup_nil
  index := by simp [empty]

@[simp] theorem addresses_emplace (address id : Nat) :
    (allocator.emplace address id).addresses = allocator.addresses ++ [address] := by
  simp [addresses, emplace]

@[simp] theorem addresses_assign (id address : Nat) :
    (allocator.assign id address).addresses = allocator.addresses := rfl

@[simp] theorem addresses_forget (id : Nat) :
    (allocator.forget id).addresses = allocator.addresses := rfl

/-- `create` gives back the task that it has added. -/
theorem run_create (id : Nat) (memory : Memory) :
    (create id memory).run allocator =
      ((allocator.emplace (memory.place allocator.addresses) id).assign id
        (memory.place allocator.addresses), .handler ⟨memory.place allocator.addresses, id⟩) := by
  simp [create, assign]

namespace Indexed

/-- Two tasks differ in their ids. -/
theorem eq_of_id
    {left right : Node}
    (indexed : allocator.Indexed)
    (leftIn : left ∈ allocator.pool)
    (rightIn : right ∈ allocator.pool)
    (same : left.id = right.id) :
    left = right := by
  have first := (indexed.index left.id left.address).mpr leftIn
  have second := (indexed.index right.id right.address).mpr rightIn
  rw [same, second] at first
  cases left
  cases right
  simp_all

/-- Two tasks differ in their addresses. -/
theorem eq_of_address
    {left right : Node}
    (indexed : allocator.Indexed)
    (leftIn : left ∈ allocator.pool)
    (rightIn : right ∈ allocator.pool)
    (same : left.address = right.address) :
    left = right :=
  List.inj_on_of_nodup_map indexed.addresses leftIn rightIn same

theorem create
    {id : Nat}
    (indexed : allocator.Indexed)
    (memory : Memory)
    (fresh : ∀ node ∈ allocator.pool, node.id ≠ id) :
    ((Allocator.create id memory).run allocator).1.Indexed := by
  rw [run_create]
  constructor
  · rw [addresses_assign, addresses_emplace, List.nodup_append]
    refine ⟨indexed.addresses, List.nodup_singleton _, ?_⟩
    intro address used other new same
    rw [List.mem_singleton.mp new] at same
    exact memory.place_notMem _ (same ▸ used)
  · intro other address
    rcases eq_or_ne other id with rfl | different
    · simp only [assign, Function.update_self, emplace, List.mem_append, List.mem_singleton]
      constructor
      · intro found
        exact .inr (by rw [Option.some.inj found])
      · rintro (known | new)
        · exact absurd rfl (fresh _ known)
        · rw [(Node.mk.inj new).1]
    · simp [assign, emplace, different, indexed.index]

/-- `destroy` of a task finds it. -/
theorem run_destroy
    {task : Node}
    (indexed : allocator.Indexed)
    (member : task ∈ allocator.pool) :
    (Allocator.destroy task.id).run allocator =
      ((allocator.erase task.address).forget task.id, .destroyed) := by
  have found := (indexed.index task.id task.address).mpr member
  have used : task.address ∈ allocator.addresses := List.mem_map_of_mem member
  simp [Allocator.destroy, found, used]

theorem destroy
    {task : Node}
    (indexed : allocator.Indexed)
    (member : task ∈ allocator.pool) :
    ((Allocator.destroy task.id).run allocator).1.Indexed := by
  rw [indexed.run_destroy member]
  constructor
  · rw [addresses_forget]
    exact indexed.addresses.sublist (List.filter_sublist.map _)
  · intro other address
    rcases eq_or_ne other task.id with rfl | different
    · simp only [forget, Function.update_self, erase, List.mem_filter, reduceCtorEq, false_iff]
      rintro ⟨known, apart⟩
      have same := indexed.eq_of_id known member rfl
      exact absurd (congrArg Node.address same) (by simpa using apart)
    · simp only [forget, ne_eq, different, not_false_eq_true, Function.update_of_ne, erase,
        List.mem_filter, decide_not, Bool.not_eq_eq_eq_not, Bool.not_true, decide_eq_false_iff_not]
      rw [indexed.index]
      refine ⟨fun known => ⟨known, fun same => ?_⟩, And.left⟩
      have whole := indexed.eq_of_address known member same
      exact different (congrArg Node.id whole)

end Indexed
end Allocator

/-! ## Who holds which task -/

/-- `_tid` of the context, and the handlers that callers hold. -/
structure Owners where
  tid : Nat
  handlers : List Node

namespace Owners

/-- No task has been created. -/
def initial : Owners where
  tid := 0
  handlers := []

/-- `create_scheduled` takes the next number for a task of this partition, those
between go to others; a handler that is given to `destroy` is gone. -/
def call (owners : Owners) : Request → Option Owners
  | .create id _ => if owners.tid ≤ id then some { owners with tid := id + 1 } else none
  | .destroy task =>
      if task ∈ owners.handlers then
        some { owners with handlers := owners.handlers.erase task }
      else none

/-- The caller of `create` gets a handler. -/
def finish (owners : Owners) : Request → Answer → Owners
  | .create _ _, .handler task => { owners with handlers := task :: owners.handlers }
  | _, _ => owners

end Owners

/-- The allocator of a partition. -/
def Allocator.service : Service Request Allocator Answer Owners where
  body
    | .create id memory => Allocator.create id memory
    | .destroy task => Allocator.destroy task.id
  call := Owners.call
  finish := Owners.finish

/-- The answers that a call is meant to have. -/
inductive Request.Answered : Request → Answer → Prop
  | create (id address : Nat) (memory : Memory) :
      Answered (.create id memory) (.handler ⟨address, id⟩)
  | destroy (task : Node) : Answered (.destroy task) .destroyed

/-- The id for which a thread is responsible: that of a task it creates or destroys. -/
def claim : Phase Request Answer → Option Nat
  | .waiting (.create id _) => some id
  | .waiting (.destroy task) => some task.id
  | .inside (.create id _) _ => some id
  | _ => none

variable {Thread : Type}

/-- A thread finds what it is about to do possible, and has the answer it is meant to
have. -/
def Fits (allocator : Allocator) : Phase Request Answer → Prop
  | .outside => True
  | .waiting (.create id _) => ∀ node ∈ allocator.pool, node.id ≠ id
  | .waiting (.destroy task) => task ∈ allocator.pool
  | .inside (.create id _) (.handler task) => task ∈ allocator.pool ∧ task.id = id
  | .inside (.destroy _) .destroyed => True
  | .inside _ _ => False

/-- A thread does not notice what happens to the tasks of others. -/
theorem Fits.of_agrees
    {before after : Allocator}
    {phase : Phase Request Answer}
    {id : Nat}
    (fits : Fits before phase)
    (other : claim phase ≠ some id)
    (agrees : ∀ node, node.id ≠ id → (node ∈ after.pool ↔ node ∈ before.pool)) :
    Fits after phase := by
  cases phase with
  | outside => trivial
  | waiting request =>
      cases request with
      | create own memory =>
          intro node member same
          have different : node.id ≠ id := fun equal => other (by simp [claim, ← same, equal])
          exact fits node ((agrees node different).mp member) same
      | destroy task => exact (agrees task fun same => other (by simp [claim, same])).mpr fits
  | inside request answer =>
      cases request with
      | create own memory =>
          cases answer with
          | handler task =>
              obtain ⟨member, same⟩ := fits
              have different : task.id ≠ id := fun equal => other (by simp [claim, ← same, equal])
              exact ⟨(agrees task different).mpr member, same⟩
          | destroyed => exact fits
          | outOfRange => exact fits
          | undefined => exact fits
      | destroy task =>
          cases answer with
          | destroyed => trivial
          | handler task => exact fits
          | outOfRange => exact fits
          | undefined => exact fits

variable {Thread : Type}

/-- At most one thread is responsible for a task, and then no caller holds its
handler. -/
structure Claims (claims : Thread → Option Nat) (owners : Owners) : Prop where
  below : ∀ thread id, claims thread = some id → id < owners.tid
  apart : ∀ left right id, claims left = some id → claims right = some id → left = right
  unheld : ∀ thread id, claims thread = some id → ∀ node ∈ owners.handlers, node.id ≠ id

namespace Claims

variable [DecidableEq Thread] {claims : Thread → Option Nat} {owners : Owners}

/-- A thread gives up what it has. -/
theorem drop
    (separate : Claims claims owners)
    (thread : Thread) :
    Claims (Function.update claims thread none) owners := by
  have claimed : ∀ other id, Function.update claims thread none other = some id →
      claims other = some id := by
    intro other id claim
    rcases eq_or_ne other thread with rfl | different
    · simp at claim
    · simpa [different] using claim
  constructor
  · exact fun other id claim => separate.below other id (claimed other id claim)
  · exact fun left right id first second =>
      separate.apart left right id (claimed left id first) (claimed right id second)
  · exact fun other id claim => separate.unheld other id (claimed other id claim)

/-- A thread becomes responsible for what nobody else is. -/
theorem take
    {tid id : Nat}
    {handlers : List Node}
    (separate : Claims claims owners)
    (thread : Thread)
    (fewer : ∀ node ∈ handlers, node ∈ owners.handlers)
    (more : owners.tid ≤ tid)
    (below : id < tid)
    (unclaimed : ∀ other, claims other ≠ some id)
    (unheld : ∀ node ∈ handlers, node.id ≠ id) :
    Claims (Function.update claims thread (some id)) ⟨tid, handlers⟩ := by
  constructor
  · intro other known claim
    rcases eq_or_ne other thread with rfl | different
    · obtain rfl : id = known := by simpa using claim
      exact below
    · exact Nat.lt_of_lt_of_le (separate.below other known (by simpa [different] using claim)) more
  · intro left right known first second
    rcases eq_or_ne left thread with rfl | leftDifferent
    · rcases eq_or_ne right left with rfl | rightDifferent
      · rfl
      · obtain rfl : id = known := by simpa using first
        exact absurd (by simpa [rightDifferent] using second) (unclaimed right)
    · rcases eq_or_ne right thread with rfl | rightDifferent
      · obtain rfl : id = known := by simpa using second
        exact absurd (by simpa [leftDifferent] using first) (unclaimed left)
      · exact separate.apart left right known (by simpa [leftDifferent] using first)
          (by simpa [rightDifferent] using second)
  · intro other known claim node member
    rcases eq_or_ne other thread with rfl | different
    · obtain rfl : id = known := by simpa using claim
      exact unheld node member
    · exact separate.unheld other known (by simpa [different] using claim) node (fewer node member)

end Claims

/-- What holds between the steps of the allocator. -/
structure Kept (state : Atomic Thread Request Allocator Answer Owners) : Prop where
  indexed : state.data.Indexed
  bounded : ∀ node ∈ state.data.pool, node.id < state.client.tid
  nodup : state.client.handlers.Nodup
  live : ∀ node ∈ state.client.handlers, node ∈ state.data.pool
  fits : ∀ thread, Fits state.data (state.phase thread)
  claims : Claims (fun thread => claim (state.phase thread)) state.client

namespace Kept

theorem initial : Kept (Atomic.initial Allocator.empty Owners.initial :
    Atomic Thread Request Allocator Answer Owners) where
  indexed := Allocator.indexed_empty
  bounded := by simp [Atomic.initial, Allocator.empty]
  nodup := List.nodup_nil
  live := by simp [Atomic.initial, Owners.initial]
  fits := fun _ => trivial
  claims := by constructor <;> simp [Atomic.initial, claim]

variable [DecidableEq Thread] {state : Atomic Thread Request Allocator Answer Owners}

/-- The claims after a thread has got to another phase. -/
private theorem claims_setPhase
    (thread : Thread)
    (phase : Phase Request Answer) :
    (fun other => claim ((state.setPhase thread phase).phase other)) =
      Function.update (fun other => claim (state.phase other)) thread (claim phase) := by
  funext other
  rcases eq_or_ne other thread with rfl | different
  · simp [Atomic.setPhase]
  · simp [Atomic.setPhase, different]

/-- A thread gets to a phase that fits while the allocator stays. -/
private theorem fits_setPhase
    {phase : Phase Request Answer}
    (kept : Kept state)
    (thread : Thread)
    (fits : Fits state.data phase)
    (other : Thread) :
    Fits state.data ((state.setPhase thread phase).phase other) := by
  rcases eq_or_ne other thread with rfl | different
  · simpa [Atomic.setPhase] using fits
  · simpa [Atomic.setPhase, different] using kept.fits other

/-- A call of `create` takes an id that no task has. -/
private theorem call_create
    {id : Nat}
    (kept : Kept state)
    (thread : Thread)
    (memory : Memory)
    (fresh : state.client.tid ≤ id) :
    Kept ({ state with client := { state.client with tid := id + 1 } }.setPhase thread
      (.waiting (.create id memory))) where
  indexed := kept.indexed
  bounded := by
    intro node member
    have below := kept.bounded node member
    exact Nat.lt_succ_of_le (by omega)
  nodup := kept.nodup
  live := kept.live
  fits := kept.fits_setPhase thread fun node member same =>
    absurd (kept.bounded node member) (by omega)
  claims := by
    rw [claims_setPhase]
    apply kept.claims.take thread (fun _ member => member) (by omega) (by omega)
    · intro other claim
      have below := kept.claims.below other id claim
      omega
    · intro node member
      have below := kept.bounded node (kept.live node member)
      omega

/-- A call of `destroy` takes a task whose handler was held. -/
private theorem call_destroy
    {task : Node}
    (kept : Kept state)
    (thread : Thread)
    (held : task ∈ state.client.handlers) :
    Kept ({ state with
      client := { state.client with handlers := state.client.handlers.erase task } }.setPhase
        thread (.waiting (.destroy task))) where
  indexed := kept.indexed
  bounded := kept.bounded
  nodup := kept.nodup.erase task
  live := fun node member => kept.live node (List.mem_of_mem_erase member)
  fits := kept.fits_setPhase thread (kept.live task held)
  claims := by
    rw [claims_setPhase]
    apply kept.claims.take thread (fun _ member => List.mem_of_mem_erase member) (Nat.le_refl _)
      (kept.bounded task (kept.live task held))
    · exact fun other claim => kept.claims.unheld other task.id claim task held rfl
    · intro node member same
      obtain ⟨different, known⟩ := kept.nodup.mem_erase_iff.mp member
      exact different (kept.indexed.eq_of_id (kept.live node known) (kept.live task held) same)

/-- A thread has changed the task it is responsible for, and no other. -/
private theorem act
    {thread : Thread}
    {after : Allocator}
    {phase : Phase Request Answer}
    {id : Nat}
    (kept : Kept state)
    (responsible : claim (state.phase thread) = some id)
    (claims : claim phase = some id ∨ claim phase = none)
    (indexed : after.Indexed)
    (agrees : ∀ node, node.id ≠ id → (node ∈ after.pool ↔ node ∈ state.data.pool))
    (fits : Fits after phase) :
    Kept ({ state with data := after }.setPhase thread phase) where
  indexed := indexed
  bounded := by
    intro node member
    rcases eq_or_ne node.id id with same | different
    · rw [same]
      exact kept.claims.below thread id responsible
    · exact kept.bounded node ((agrees node different).mp member)
  nodup := kept.nodup
  live := fun node member =>
    (agrees node (kept.claims.unheld thread id responsible node member)).mpr
      (kept.live node member)
  fits := by
    intro other
    rcases eq_or_ne other thread with rfl | different
    · simpa [Atomic.setPhase] using fits
    · have elsewhere : claim (state.phase other) ≠ some id := fun same =>
        different (kept.claims.apart other thread id same responsible)
      simpa [Atomic.setPhase, different] using (kept.fits other).of_agrees elsewhere agrees
  claims := by
    rw [claims_setPhase]
    rcases claims with same | gone
    · rw [same, ← responsible, Function.update_eq_self]
      exact kept.claims
    · rw [gone]
      exact kept.claims.drop thread

/-- `create` adds a task under the id it was given. -/
private theorem act_create
    {thread : Thread}
    {id : Nat}
    {memory : Memory}
    (kept : Kept state)
    (waiting : state.phase thread = .waiting (.create id memory)) :
    Kept ({ state with data := ((Allocator.create id memory).run state.data).1 }.setPhase thread
      (.inside (.create id memory) ((Allocator.create id memory).run state.data).2)) := by
  have fresh := kept.fits thread
  rw [waiting] at fresh
  apply kept.act (by rw [waiting]; rfl) (.inl rfl) (kept.indexed.create memory fresh)
  · intro node different
    have apart : node ≠ ⟨memory.place state.data.addresses, id⟩ := by
      rintro rfl
      exact different rfl
    simp [Allocator.run_create, Allocator.assign, Allocator.emplace, apart]
  · simp [Allocator.run_create, Allocator.assign, Allocator.emplace, Fits]

/-- `destroy` removes the task it was given. -/
private theorem act_destroy
    {thread : Thread}
    {task : Node}
    (kept : Kept state)
    (waiting : state.phase thread = .waiting (.destroy task)) :
    Kept ({ state with data := ((Allocator.destroy task.id).run state.data).1 }.setPhase thread
      (.inside (.destroy task) ((Allocator.destroy task.id).run state.data).2)) := by
  have member := kept.fits thread
  rw [waiting] at member
  apply kept.act (by rw [waiting]; rfl) (.inr rfl) (kept.indexed.destroy member)
  · intro node different
    have elsewhere : node ∈ state.data.pool → node.address ≠ task.address := fun known same =>
      different (congrArg Node.id (kept.indexed.eq_of_address known member same))
    simpa [kept.indexed.run_destroy member, Allocator.forget, Allocator.erase] using elsewhere
  · simp [kept.indexed.run_destroy member, Fits]

/-- The caller of `create` holds the handler of its task. -/
private theorem return_create
    {thread : Thread}
    {id : Nat}
    {memory : Memory}
    {task : Node}
    (kept : Kept state)
    (inside : state.phase thread = .inside (.create id memory) (.handler task)) :
    Kept ({ state with
      client := { state.client with handlers := task :: state.client.handlers } }.setPhase
        thread .outside) := by
  have fits := kept.fits thread
  rw [inside] at fits
  obtain ⟨member, rfl⟩ := fits
  have responsible : claim (state.phase thread) = some task.id := by rw [inside]; rfl
  have unheld := kept.claims.unheld thread task.id responsible
  refine ⟨kept.indexed, kept.bounded, ?_, ?_, kept.fits_setPhase thread trivial, ?_⟩
  · exact List.nodup_cons.mpr ⟨fun held => unheld task held rfl, kept.nodup⟩
  · intro node held
    rcases List.mem_cons.mp held with rfl | known
    · exact member
    · exact kept.live node known
  · rw [claims_setPhase]
    have dropped := kept.claims.drop thread
    refine ⟨dropped.below, dropped.apart, ?_⟩
    intro other known claimed node held
    rcases List.mem_cons.mp held with rfl | before
    · rintro rfl
      rcases eq_or_ne other thread with rfl | different
      · simp [claim] at claimed
      · exact different (kept.claims.apart other thread node.id
          (by simpa [different] using claimed) responsible)
    · exact dropped.unheld other known claimed node before

/-- A call ends that leaves nothing to its caller. -/
private theorem return_nothing
    (kept : Kept state)
    (thread : Thread) :
    Kept (state.setPhase thread .outside) where
  indexed := kept.indexed
  bounded := kept.bounded
  nodup := kept.nodup
  live := kept.live
  fits := kept.fits_setPhase thread trivial
  claims := by
    rw [claims_setPhase]
    exact kept.claims.drop thread

/-- The step rule. -/
theorem step
    {label : Atomic.Label Thread Request}
    {after : Atomic Thread Request Allocator Answer Owners}
    (kept : Kept state)
    (stepped : state.step Allocator.service label = some after) :
    Kept after := by
  cases Atomic.move_of_step stepped with
  | @call thread request client outside allowed =>
      cases request with
      | create id memory =>
          simp only [Allocator.service, Owners.call, Option.ite_none_right_eq_some,
            Option.some.injEq] at allowed
          obtain ⟨fresh, rfl⟩ := allowed
          exact kept.call_create thread memory fresh
      | destroy task =>
          simp only [Allocator.service, Owners.call, Option.ite_none_right_eq_some,
            Option.some.injEq] at allowed
          obtain ⟨held, rfl⟩ := allowed
          exact kept.call_destroy thread held
  | @act thread request waiting =>
      cases request with
      | create id memory => exact kept.act_create waiting
      | destroy task => exact kept.act_destroy waiting
  | @«return» thread request answer inside =>
      have fits := kept.fits thread
      rw [inside] at fits
      cases request with
      | create id memory =>
          cases answer with
          | handler task => exact kept.return_create inside
          | destroyed => exact fits.elim
          | outOfRange => exact fits.elim
          | undefined => exact fits.elim
      | destroy task => exact kept.return_nothing thread

theorem of_reachable
    (reached : Lib.Reachable (Atomic.step Allocator.service)
      (Atomic.initial Allocator.empty Owners.initial) state) :
    Kept state :=
  reached.invariant initial fun _ _ _ kept stepped => kept.step stepped

end Kept

/-! ## While a section is under way -/

/-- `create` leaves the tasks that there are. -/
theorem Allocator.along_create
    {allocator : Allocator}
    {handlers : List Node}
    (id : Nat)
    (memory : Memory)
    (live : ∀ node ∈ handlers, node ∈ allocator.pool) :
    (Allocator.create id memory).Along
      (fun allocator => ∀ node ∈ handlers, node ∈ allocator.pool) allocator := by
  have more : ∀ node ∈ handlers,
      node ∈ (allocator.emplace (memory.place allocator.addresses) id).pool :=
    fun node member => List.mem_append_left _ (live node member)
  refine ⟨live, more, more, ?_⟩
  simp only [assign, Function.update_self]
  exact more

/-- `destroy` leaves all tasks but its own. -/
theorem Allocator.along_destroy
    {allocator : Allocator}
    {handlers : List Node}
    {task : Node}
    (indexed : allocator.Indexed)
    (member : task ∈ allocator.pool)
    (live : ∀ node ∈ handlers, node ∈ allocator.pool)
    (unheld : ∀ node ∈ handlers, node.id ≠ task.id) :
    (Allocator.destroy task.id).Along
      (fun allocator => ∀ node ∈ handlers, node ∈ allocator.pool) allocator := by
  have found := (indexed.index task.id task.address).mpr member
  have used : task.address ∈ allocator.addresses := List.mem_map_of_mem member
  have fewer : ∀ node ∈ handlers, node ∈ (allocator.erase task.address).pool := by
    intro node held
    have apart : node.address ≠ task.address := fun same =>
      unheld node held
        (congrArg Node.id (indexed.eq_of_address (live node held) member same))
    simpa [erase, apart] using live node held
  refine ⟨live, ?_⟩
  simp only [found, if_pos used]
  exact ⟨live, fewer, fewer⟩

/-- Whatever sections of `create` and `destroy` are under way, every handler that is
held refers to a task of the pool and to none of another handler; `_index.at` never
throws and no iterator is used that is not there; and while the lock is free, the index
finds exactly the tasks of the pool. -/
theorem handlers_never_dangle
    [DecidableEq Thread]
    {lock : Spinlock Thread Request Allocator Answer Owners}
    (reached : Lib.Reachable (Spinlock.step Allocator.service)
      (Spinlock.initial Allocator.empty Owners.initial) lock) :
    (∀ node ∈ lock.client.handlers, node ∈ lock.data.pool) ∧
      (∀ left ∈ lock.client.handlers, ∀ right ∈ lock.client.handlers,
        left.address = right.address ∨ left.id = right.id → left = right) ∧
      (∀ thread request answer, lock.phase thread = .inside request (.done answer) →
        request.Answered answer) ∧
      (lock.locked = false → lock.data.Indexed) := by
  obtain ⟨atomic, serial, reachable⟩ := Spinlock.serial_of_reachable reached
  have kept := Kept.of_reachable reachable
  have fits : ∀ thread request body, lock.phase thread = .inside request body →
      Fits atomic.data (.waiting request) := by
    intro thread request body inside
    have fits := kept.fits thread
    rwa [(serial.inside thread request body inside).2.1] at fits
  refine ⟨?_, ?_, ?_, fun free => serial.free free ▸ kept.indexed⟩
  · cases flag : lock.locked with
    | false => exact serial.client ▸ serial.free flag ▸ kept.live
    | true =>
        obtain ⟨thread, request, body, inside⟩ := serial.taken flag
        obtain ⟨_, waiting, progress⟩ := serial.inside thread request body inside
        have member := fits thread request body inside
        rw [← serial.client]
        cases request with
        | create id memory =>
            exact ((Allocator.along_create id memory kept.live).of_progress progress).holds
        | destroy task =>
            have unheld := kept.claims.unheld thread task.id (by simp [waiting, claim])
            exact ((Allocator.along_destroy kept.indexed member kept.live unheld).of_progress
              progress).holds
  · rw [← serial.client]
    intro left leftHeld right rightHeld same
    have leftIn := kept.live left leftHeld
    have rightIn := kept.live right rightHeld
    rcases same with address | id
    · exact kept.indexed.eq_of_address leftIn rightIn address
    · exact kept.indexed.eq_of_id leftIn rightIn id
  · intro thread request answer inside
    obtain ⟨_, waiting, progress⟩ := serial.inside thread request _ inside
    have member := fits thread request _ inside
    have ends : ((Allocator.service.body request).run atomic.data).2 = answer := by
      rw [← progress.run]
      rfl
    cases request with
    | create id memory =>
        simp only [Allocator.service, Allocator.run_create] at ends
        exact ends ▸ .create id _ memory
    | destroy task =>
        simp only [Allocator.service, kept.indexed.run_destroy member] at ends
        exact ends ▸ .destroy task

/-- One more than all addresses together. -/
private def total : List Nat → Nat :=
  List.foldr (fun address rest => address + rest) 1

private theorem lt_total {used : List Nat} {address : Nat} (member : address ∈ used) :
    address < total used := by
  have positive : ∀ rest, 0 < total rest := by
    intro rest
    induction rest with
    | nil => exact Nat.one_pos
    | cons first rest inductionHypothesis => exact Nat.add_pos_right first inductionHypothesis
  induction used with
  | nil => simp at member
  | cons first rest inductionHypothesis =>
      rcases List.mem_cons.mp member with rfl | later
      · exact Nat.lt_add_of_pos_right (positive rest)
      · exact Nat.lt_of_lt_of_le (inductionHypothesis later) (Nat.le_add_left _ first)

/-- Puts an element behind all others. -/
def Memory.upwards : Memory where
  place := total
  place_notMem := fun _ member => Nat.lt_irrefl _ (lt_total member)

/-- Two tasks are there, and thread 0 has unlinked the first from the pool and not yet
from the index. -/
private def halfDestroyed : List (Spinlock.Label Nat Request) :=
  [.call 0 (.create 4 .upwards), .exchange 0 false, .advance 0, .advance 0, .advance 0, .unlock 0,
    .call 1 (.create 8 .upwards), .exchange 1 false, .advance 1, .advance 1, .advance 1, .unlock 1,
    .call 0 (.destroy ⟨1, 4⟩), .exchange 0 false, .advance 0, .advance 0]

theorem handlers_never_dangle_sample :
    let lock := Lib.runFrom (Spinlock.step Allocator.service)
      (Spinlock.initial Allocator.empty Owners.initial) halfDestroyed
    lock.client.handlers = [⟨2, 8⟩] ∧ (⟨2, 8⟩ : Node) ∈ lock.data.pool := by
  intro lock
  have held : lock.client.handlers = [⟨2, 8⟩] := rfl
  refine ⟨held, ?_⟩
  exact (handlers_never_dangle (Lib.Reachable.runFrom (Spinlock.step Allocator.service)
    (Spinlock.initial Allocator.empty Owners.initial) halfDestroyed)).1 _ (by rw [held]; simp)

end Schedule
end Cgo
