import Cgo.Lib.Path
import Mathlib.Logic.Relation
import Mathlib.Order.BooleanAlgebra.Set

/-!
# Locks taken in order

Threads run programs that take and release locks and read shared memory.  What a
read gives is left open, so a program stands for all it may do, whatever the
memory holds.  When every program takes a lock only while all locks it holds are
of smaller rank, no threads wait for one another in a circle.
-/

namespace Cgo
namespace Lib

/-- A program over locks and memory cells. -/
inductive Prog (Lock Cell : Type) (Content : Cell → Type) (Result : Type)
  | done (result : Result)
  | lock (mutex : Lock) (rest : Prog Lock Cell Content Result)
  | unlock (mutex : Lock) (rest : Prog Lock Cell Content Result)
  | read (cell : Cell) (rest : Content cell → Prog Lock Cell Content Result)

variable {Lock Cell : Type} {Content : Cell → Type} {Result Next : Type}

namespace Prog

/-- Go on with the result. -/
def andThen (next : Result → Prog Lock Cell Content Next) :
    Prog Lock Cell Content Result → Prog Lock Cell Content Next
  | .done result => next result
  | .lock mutex rest => .lock mutex (rest.andThen next)
  | .unlock mutex rest => .unlock mutex (rest.andThen next)
  | .read cell rest => .read cell fun content => (rest content).andThen next

instance : Monad (Prog Lock Cell Content) where
  pure := .done
  bind prog next := prog.andThen next

/-- The content of a cell. -/
def get (cell : Cell) : Prog Lock Cell Content (Content cell) :=
  .read cell .done

/-- A body that runs with a lock, which it releases at its end. -/
def guarded (mutex : Lock) (body : Prog Lock Cell Content Result) :
    Prog Lock Cell Content Result :=
  .lock mutex (body.andThen fun result => .unlock mutex (.done result))

variable {Rank : Type} [PartialOrder Rank] (rank : Lock → Rank)

/-- With the locks in `held`, the program takes only locks above all it holds,
releases only what it holds, and ends in `post`. -/
def Orderly : Prog Lock Cell Content Result → Set Lock → (Result → Set Lock → Prop) → Prop
  | .done result, held, post => post result held
  | .lock mutex rest, held, post =>
      (∀ other ∈ held, rank other < rank mutex) ∧ rest.Orderly (insert mutex held) post
  | .unlock mutex rest, held, post => mutex ∈ held ∧ rest.Orderly (held \ {mutex}) post
  | .read _ rest, held, post => ∀ content, (rest content).Orderly held post

variable {rank}

/-- The rule of consequence. -/
theorem Orderly.mono
    {prog : Prog Lock Cell Content Result}
    {held : Set Lock}
    {post later : Result → Set Lock → Prop}
    (orderly : prog.Orderly rank held post)
    (weaker : ∀ result after, post result after → later result after) :
    prog.Orderly rank held later := by
  induction prog generalizing held with
  | done result => exact weaker result held orderly
  | lock mutex rest inductionHypothesis =>
      exact ⟨orderly.1, inductionHypothesis orderly.2⟩
  | unlock mutex rest inductionHypothesis =>
      exact ⟨orderly.1, inductionHypothesis orderly.2⟩
  | read cell rest inductionHypothesis =>
      exact fun content => inductionHypothesis content (orderly content)

/-- The rule for one program after another. -/
theorem Orderly.andThen
    {prog : Prog Lock Cell Content Result}
    {next : Result → Prog Lock Cell Content Next}
    {held : Set Lock}
    {post : Next → Set Lock → Prop}
    (orderly : prog.Orderly rank held fun result after => (next result).Orderly rank after post) :
    (prog.andThen next).Orderly rank held post := by
  induction prog generalizing held with
  | done result => exact orderly
  | lock mutex rest inductionHypothesis =>
      exact ⟨orderly.1, inductionHypothesis orderly.2⟩
  | unlock mutex rest inductionHypothesis =>
      exact ⟨orderly.1, inductionHypothesis orderly.2⟩
  | read cell rest inductionHypothesis =>
      exact fun content => inductionHypothesis content (orderly content)

/-- Called with locks of rank `limit` at most, the program takes only locks above
them and ends with those it was called with. -/
def Above (rank : Lock → Rank) (limit : Rank) (prog : Prog Lock Cell Content Result) : Prop :=
  ∀ held, (∀ other ∈ held, rank other ≤ limit) →
    prog.Orderly rank held fun _ after => after = held

namespace Above

variable {limit : Rank}

theorem done (result : Result) :
    (Prog.done result : Prog Lock Cell Content Result).Above rank limit :=
  fun _ _ => rfl

theorem get (cell : Cell) :
    (Prog.get cell : Prog Lock Cell Content (Content cell)).Above rank limit :=
  fun _ _ _ => rfl

theorem bind
    {prog : Prog Lock Cell Content Result}
    {next : Result → Prog Lock Cell Content Next}
    (first : prog.Above rank limit)
    (second : ∀ result, (next result).Above rank limit) :
    (prog >>= next).Above rank limit := by
  intro held below
  apply Orderly.andThen
  apply (first held below).mono
  rintro result after rfl
  exact second result after below

/-- A lock above the limit may be taken, around a body that takes only locks above
that one. -/
theorem guarded
    {mutex : Lock}
    {body : Prog Lock Cell Content Result}
    (higher : limit < rank mutex)
    (inner : body.Above rank (rank mutex)) :
    (Prog.guarded mutex body).Above rank limit := by
  intro held below
  refine ⟨fun other member => (below other member).trans_lt higher, ?_⟩
  have outside : mutex ∉ held := fun member => (below mutex member).not_gt higher
  apply Orderly.andThen
  have belowMutex : ∀ other ∈ insert mutex held, rank other ≤ rank mutex := by
    intro other member
    rcases Set.mem_insert_iff.mp member with rfl | member
    · exact le_refl _
    · exact ((below other member).trans_lt higher).le
  apply (inner _ belowMutex).mono
  rintro result after rfl
  refine ⟨Set.mem_insert mutex held, ?_⟩
  exact Set.insert_sdiff_self_of_notMem outside

end Above

/-! ### A program where there are more locks -/

/-- Every lock that the program takes is above the rank. -/
def Beyond (rank : Lock → Rank) (limit : Rank) : Prog Lock Cell Content Result → Prop
  | .done _ => True
  | .lock mutex rest => limit < rank mutex ∧ rest.Beyond rank limit
  | .unlock _ rest => rest.Beyond rank limit
  | .read _ rest => ∀ content, (rest content).Beyond rank limit

namespace Beyond

variable {limit : Rank}

theorem done (result : Result) :
    (Prog.done result : Prog Lock Cell Content Result).Beyond rank limit :=
  trivial

theorem get (cell : Cell) :
    (Prog.get cell : Prog Lock Cell Content (Content cell)).Beyond rank limit :=
  fun _ => trivial

theorem bind
    {prog : Prog Lock Cell Content Result}
    {next : Result → Prog Lock Cell Content Next}
    (first : prog.Beyond rank limit)
    (second : ∀ result, (next result).Beyond rank limit) :
    (prog >>= next).Beyond rank limit := by
  change (prog.andThen next).Beyond rank limit
  induction prog with
  | done result => exact second result
  | lock mutex rest inductionHypothesis => exact ⟨first.1, inductionHypothesis first.2⟩
  | unlock mutex rest inductionHypothesis => exact inductionHypothesis first
  | read cell rest inductionHypothesis =>
      exact fun content => inductionHypothesis content (first content)

theorem guarded
    {mutex : Lock}
    {body : Prog Lock Cell Content Result}
    (higher : limit < rank mutex)
    (inner : body.Beyond rank limit) :
    (Prog.guarded mutex body).Beyond rank limit :=
  ⟨higher, bind inner fun _ => trivial⟩

/-- A smaller limit asks for less. -/
theorem mono
    {smaller : Rank}
    {prog : Prog Lock Cell Content Result}
    (beyond : prog.Beyond rank limit)
    (below : smaller ≤ limit) :
    prog.Beyond rank smaller := by
  induction prog with
  | done result => trivial
  | lock mutex rest inductionHypothesis =>
      exact ⟨below.trans_lt beyond.1, inductionHypothesis beyond.2⟩
  | unlock mutex rest inductionHypothesis => exact inductionHypothesis beyond
  | read cell rest inductionHypothesis =>
      exact fun content => inductionHypothesis content (beyond content)

end Beyond

section Within

variable {OuterLock OuterCell : Type} {OuterContent : OuterCell → Type}

/-- The same program where there are more locks and more memory. -/
def within : Prog Lock Cell Content Result →
    Prog (Lock ⊕ OuterLock) (Cell ⊕ OuterCell) (Sum.elim Content OuterContent) Result
  | .done result => .done result
  | .lock mutex rest => .lock (.inl mutex) rest.within
  | .unlock mutex rest => .unlock (.inl mutex) rest.within
  | .read cell rest => .read (.inl cell) fun content => (rest content).within

/-- The locks of the program itself among those that are held. -/
def innerOf (held : Set (Lock ⊕ OuterLock)) : Set Lock :=
  { mutex | .inl mutex ∈ held }

/-- The other ones. -/
def outerOf (held : Set (Lock ⊕ OuterLock)) : Set OuterLock :=
  { mutex | .inr mutex ∈ held }

variable {both : Lock ⊕ OuterLock → Rank}

/-- Other locks that are held are kept, when all that the program takes is above
them. -/
theorem Orderly.within
    {prog : Prog Lock Cell Content Result}
    {held : Set (Lock ⊕ OuterLock)}
    {post : Result → Set Lock → Prop}
    (orderly : prog.Orderly (both ∘ Sum.inl) (innerOf held) post)
    (beyond : ∀ mutex ∈ outerOf held, prog.Beyond (both ∘ Sum.inl) (both (.inr mutex))) :
    (prog.within : Prog _ _ (Sum.elim Content OuterContent) Result).Orderly both held
      fun result after => post result (innerOf after) ∧ outerOf after = outerOf held := by
  induction prog generalizing held with
  | done result => exact ⟨orderly, rfl⟩
  | lock mutex rest inductionHypothesis =>
      have inner : innerOf (insert (.inl mutex) held) = insert mutex (innerOf held) := by
        ext other
        simp [innerOf]
      have outer : outerOf (insert (.inl mutex) held) = outerOf held := by
        ext other
        simp [outerOf]
      refine ⟨fun other member => ?_, ?_⟩
      · cases other with
        | inl other => exact orderly.1 other member
        | inr other => exact (beyond other member).1
      · rw [← outer] at beyond ⊢
        refine inductionHypothesis ?_ fun other member => (beyond other member).2
        rw [inner]
        exact orderly.2
  | unlock mutex rest inductionHypothesis =>
      have inner : innerOf (held \ {.inl mutex}) = innerOf held \ {mutex} := by
        ext other
        simp [innerOf]
      have outer : outerOf (held \ {.inl mutex}) = outerOf held := by
        ext other
        simp [outerOf]
      refine ⟨orderly.1, ?_⟩
      rw [← outer] at beyond ⊢
      refine inductionHypothesis ?_ fun other member => beyond other member
      rw [inner]
      exact orderly.2
  | read cell rest inductionHypothesis =>
      exact fun content => inductionHypothesis content (orderly content)
        fun mutex member => beyond mutex member content

/-- A program that takes only locks above the limit does so among more locks. -/
theorem Above.within
    {limit : Rank}
    {prog : Prog Lock Cell Content Result}
    (above : prog.Above (both ∘ Sum.inl) limit)
    (beyond : prog.Beyond (both ∘ Sum.inl) limit) :
    (prog.within : Prog _ _ (Sum.elim Content OuterContent) Result).Above both limit := by
  intro held below
  have inner := above (innerOf held) fun other member => below (.inl other) member
  have outer : ∀ mutex ∈ outerOf held, prog.Beyond (both ∘ Sum.inl) (both (.inr mutex)) :=
    fun mutex member => beyond.mono (below (.inr mutex) member)
  refine (inner.within outer).mono fun result after kept => ?_
  ext other
  cases other with
  | inl other => exact Set.ext_iff.mp kept.1 other
  | inr other => exact Set.ext_iff.mp kept.2 other

end Within

end Prog

/-! ## Threads -/

/-- The locks, each with the thread that holds it, and what each thread still has
to run. -/
structure Threads (Thread Lock Cell : Type) (Content : Cell → Type) where
  holder : Lock → Option Thread
  program : Thread → Prog Lock Cell Content Unit

/-- A thread starts an operation, or takes its next step with some content of the
memory. -/
inductive Activity (Thread Operation Cell : Type) (Content : Cell → Type)
  | start (thread : Thread) (operation : Operation)
  | advance (thread : Thread) (memory : ∀ cell, Content cell)

namespace Threads

variable {Thread Operation : Type}

/-- No thread holds a lock or runs. -/
def idle : Threads Thread Lock Cell Content where
  holder := fun _ => none
  program := fun _ => .done ()

/-- The locks of a thread. -/
def heldBy (threads : Threads Thread Lock Cell Content) (thread : Thread) : Set Lock :=
  { mutex | threads.holder mutex = some thread }

/-- The thread is about to take the lock. -/
def Wants
    (threads : Threads Thread Lock Cell Content)
    (thread : Thread)
    (mutex : Lock) : Prop :=
  ∃ rest, threads.program thread = .lock mutex rest

/-- The thread is about to take a lock that another one holds, or it itself. -/
def WaitsFor
    (threads : Threads Thread Lock Cell Content)
    (thread other : Thread) : Prop :=
  ∃ mutex, threads.Wants thread mutex ∧ threads.holder mutex = some other

variable [DecidableEq Thread] [DecidableEq Lock]

/-- The state with another rest of a thread's program. -/
def setProgram
    (threads : Threads Thread Lock Cell Content)
    (thread : Thread)
    (rest : Prog Lock Cell Content Unit) : Threads Thread Lock Cell Content :=
  { threads with program := Function.update threads.program thread rest }

/-- The state with another holder of a lock. -/
def setHolder
    (threads : Threads Thread Lock Cell Content)
    (mutex : Lock)
    (holder : Option Thread) : Threads Thread Lock Cell Content :=
  { threads with holder := Function.update threads.holder mutex holder }

/-- The next state, or `none` while the lock that the thread wants is held. -/
def step
    (run : Operation → Prog Lock Cell Content Unit)
    (threads : Threads Thread Lock Cell Content) :
    Activity Thread Operation Cell Content → Option (Threads Thread Lock Cell Content)
  | .start thread operation =>
      match threads.program thread with
      | .done _ => some (threads.setProgram thread (run operation))
      | _ => none
  | .advance thread memory =>
      match threads.program thread with
      | .done _ => none
      | .lock mutex rest =>
          if threads.holder mutex = none then
            some ((threads.setHolder mutex (some thread)).setProgram thread rest)
          else none
      | .unlock mutex rest => some ((threads.setHolder mutex none).setProgram thread rest)
      | .read cell rest => some (threads.setProgram thread (rest (memory cell)))

variable {Rank : Type} [PartialOrder Rank] {rank : Lock → Rank}

omit [DecidableEq Thread] [DecidableEq Lock] in
/-- Every thread goes on in order and ends without a lock. -/
def Obedient (rank : Lock → Rank) (threads : Threads Thread Lock Cell Content) : Prop :=
  ∀ thread, (threads.program thread).Orderly rank (threads.heldBy thread) fun _ after => after = ∅

omit [DecidableEq Lock] in
@[simp] theorem heldBy_setProgram
    (threads : Threads Thread Lock Cell Content)
    (thread other : Thread)
    (rest : Prog Lock Cell Content Unit) :
    (threads.setProgram thread rest).heldBy other = threads.heldBy other := rfl

omit [DecidableEq Lock] in
@[simp] theorem program_setProgram_self
    (threads : Threads Thread Lock Cell Content)
    (thread : Thread)
    (rest : Prog Lock Cell Content Unit) :
    (threads.setProgram thread rest).program thread = rest :=
  Function.update_self ..

omit [DecidableEq Lock] in
theorem program_setProgram_of_ne
    (threads : Threads Thread Lock Cell Content)
    {thread other : Thread}
    (apart : other ≠ thread)
    (rest : Prog Lock Cell Content Unit) :
    (threads.setProgram thread rest).program other = threads.program other :=
  Function.update_of_ne apart ..

omit [DecidableEq Thread] in
@[simp] theorem program_setHolder
    (threads : Threads Thread Lock Cell Content)
    (mutex : Lock)
    (holder : Option Thread) :
    (threads.setHolder mutex holder).program = threads.program := rfl

omit [DecidableEq Thread] in
/-- A thread keeps its locks when another one takes or releases one. -/
private theorem heldBy_of_ne
    {threads : Threads Thread Lock Cell Content}
    {mutex : Lock}
    {before after : Option Thread}
    {thread : Thread}
    (was : threads.holder mutex = before)
    (notBefore : before ≠ some thread)
    (notAfter : after ≠ some thread) :
    (threads.setHolder mutex after).heldBy thread = threads.heldBy thread := by
  ext other
  rcases eq_or_ne other mutex with rfl | apart
  · simp [heldBy, setHolder, was, notBefore, notAfter]
  · simp [heldBy, setHolder, apart]

/-- Every step of threads that run orderly operations keeps the order. -/
theorem Obedient.step
    {run : Operation → Prog Lock Cell Content Unit}
    {threads after : Threads Thread Lock Cell Content}
    {activity : Activity Thread Operation Cell Content}
    (orderly : ∀ operation, (run operation).Orderly rank ∅ fun _ held => held = ∅)
    (obedient : threads.Obedient rank)
    (stepped : threads.step run activity = some after) :
    after.Obedient rank := by
  cases activity with
  | start thread operation =>
      simp only [Threads.step] at stepped
      split at stepped
      · next result idle =>
        obtain rfl := Option.some.inj stepped
        intro other
        rcases eq_or_ne other thread with rfl | apart
        · have free : threads.heldBy other = ∅ := by
            have ends := obedient other
            rw [idle] at ends
            exact ends
          rw [heldBy_setProgram, program_setProgram_self, free]
          exact orderly operation
        · rw [heldBy_setProgram, program_setProgram_of_ne _ apart]
          exact obedient other
      · cases stepped
  | advance thread memory =>
      have ahead := obedient thread
      simp only [Threads.step] at stepped
      split at stepped
      · cases stepped
      · next mutex rest wants =>
        split at stepped
        · next free =>
          obtain rfl := Option.some.inj stepped
          rw [wants] at ahead
          intro other
          rw [heldBy_setProgram]
          rcases eq_or_ne other thread with rfl | apart
          · have taken : (threads.setHolder mutex (some other)).heldBy other =
                insert mutex (threads.heldBy other) := by
              ext held
              rcases eq_or_ne held mutex with rfl | elsewhere
              · simp [heldBy, setHolder]
              · simp [heldBy, setHolder, elsewhere]
            rw [taken, program_setProgram_self]
            exact ahead.2
          · have another : some thread ≠ some other := fun same => apart (Option.some.inj same).symm
            have nobody : (none : Option Thread) ≠ some other := by simp
            rw [program_setProgram_of_ne _ apart, program_setHolder,
              heldBy_of_ne free nobody another]
            exact obedient other
        · cases stepped
      · next mutex rest releases =>
        obtain rfl := Option.some.inj stepped
        rw [releases] at ahead
        intro other
        rw [heldBy_setProgram]
        rcases eq_or_ne other thread with rfl | apart
        · have released : (threads.setHolder mutex none).heldBy other =
              threads.heldBy other \ {mutex} := by
            ext held
            rcases eq_or_ne held mutex with rfl | elsewhere
            · simp [heldBy, setHolder]
            · simp [heldBy, setHolder, elsewhere]
          rw [released, program_setProgram_self]
          exact ahead.2
        · have another : some thread ≠ some other := fun same => apart (Option.some.inj same).symm
          have holds : threads.holder mutex = some thread := ahead.1
          have nobody : (none : Option Thread) ≠ some other := by simp
          rw [program_setProgram_of_ne _ apart, program_setHolder,
            heldBy_of_ne holds another nobody]
          exact obedient other
      · next cell rest reads =>
        obtain rfl := Option.some.inj stepped
        rw [reads] at ahead
        intro other
        rw [heldBy_setProgram]
        rcases eq_or_ne other thread with rfl | apart
        · rw [program_setProgram_self]
          exact ahead (memory cell)
        · rw [program_setProgram_of_ne _ apart]
          exact obedient other

/-- Every state that threads reach with orderly operations is in order. -/
theorem Obedient.of_reachable
    {run : Operation → Prog Lock Cell Content Unit}
    {threads : Threads Thread Lock Cell Content}
    (orderly : ∀ operation, (run operation).Orderly rank ∅ fun _ held => held = ∅)
    (reached : Reachable (Threads.step run) idle threads) :
    threads.Obedient rank := by
  refine reached.invariant (fun thread => ?_) fun _ _ _ obedient stepped =>
    obedient.step orderly stepped
  simp [idle, heldBy, Prog.Orderly]

omit [DecidableEq Thread] [DecidableEq Lock] in
/-- A thread that wants a lock holds only smaller ones. -/
theorem Obedient.lt_of_wants
    {threads : Threads Thread Lock Cell Content}
    (obedient : threads.Obedient rank)
    {thread : Thread}
    {mutex held : Lock}
    (wants : threads.Wants thread mutex)
    (holds : threads.holder held = some thread) :
    rank held < rank mutex := by
  obtain ⟨rest, wants⟩ := wants
  have ahead := obedient thread
  rw [wants] at ahead
  exact ahead.1 held holds

omit [DecidableEq Thread] [DecidableEq Lock] [PartialOrder Rank] in
/-- The locks of a thread have different ranks. -/
def RanksDiffer (rank : Lock → Rank) (threads : Threads Thread Lock Cell Content) : Prop :=
  ∀ thread left right, threads.holder left = some thread → threads.holder right = some thread →
    left ≠ right → rank left ≠ rank right

/-- Every state that threads reach with orderly operations has only threads whose
locks differ in rank. -/
theorem RanksDiffer.of_reachable
    {run : Operation → Prog Lock Cell Content Unit}
    {threads : Threads Thread Lock Cell Content}
    (orderly : ∀ operation, (run operation).Orderly rank ∅ fun _ held => held = ∅)
    (reached : Reachable (Threads.step run) idle threads) :
    threads.RanksDiffer rank := by
  refine reached.invariant_of_reachable (RanksDiffer rank) (by simp [RanksDiffer, idle]) ?_
  intro before activity after reachedBefore different stepped thread left right
  have obedient := Obedient.of_reachable orderly reachedBefore
  cases activity with
  | start other operation =>
      simp only [Threads.step] at stepped
      split at stepped
      · obtain rfl := Option.some.inj stepped
        exact different thread left right
      · cases stepped
  | advance other memory =>
      simp only [Threads.step] at stepped
      split at stepped
      · cases stepped
      · next mutex rest wants =>
        split at stepped
        · obtain rfl := Option.some.inj stepped
          intro holdsLeft holdsRight apart
          simp only [setProgram, setHolder] at holdsLeft holdsRight
          rcases eq_or_ne left mutex with rfl | otherLeft
          · rw [Function.update_self] at holdsLeft
            rw [Function.update_of_ne apart.symm] at holdsRight
            obtain rfl := Option.some.inj holdsLeft
            exact (obedient.lt_of_wants ⟨rest, wants⟩ holdsRight).ne'
          · rw [Function.update_of_ne otherLeft] at holdsLeft
            rcases eq_or_ne right mutex with rfl | otherRight
            · rw [Function.update_self] at holdsRight
              obtain rfl := Option.some.inj holdsRight
              exact (obedient.lt_of_wants ⟨rest, wants⟩ holdsLeft).ne
            · rw [Function.update_of_ne otherRight] at holdsRight
              exact different thread left right holdsLeft holdsRight apart
        · cases stepped
      · next mutex rest releases =>
        obtain rfl := Option.some.inj stepped
        intro holdsLeft holdsRight apart
        have stays : ∀ held, Function.update before.holder mutex none held = some thread →
            before.holder held = some thread := by
          intro held holds
          rcases eq_or_ne held mutex with rfl | elsewhere
          · simp at holds
          · simpa [elsewhere] using holds
        exact different thread left right (stays left holdsLeft) (stays right holdsRight) apart
      · obtain rfl := Option.some.inj stepped
        exact different thread left right

omit [DecidableEq Thread] [DecidableEq Lock] in
/-- Along a chain of waiting threads the lock that is wanted grows. -/
private theorem Obedient.lt_of_chain
    {threads : Threads Thread Lock Cell Content}
    (obedient : threads.Obedient rank)
    {first last : Thread}
    (chain : Relation.TransGen threads.WaitsFor first last)
    {mutex : Lock}
    (wants : threads.Wants last mutex) :
    ∃ earlier, threads.Wants first earlier ∧ rank earlier < rank mutex := by
  induction chain generalizing mutex with
  | single waits =>
      obtain ⟨earlier, wantsFirst, holds⟩ := waits
      exact ⟨earlier, wantsFirst, obedient.lt_of_wants wants holds⟩
  | tail _ waits inductionHypothesis =>
      obtain ⟨between, wantsBetween, holds⟩ := waits
      obtain ⟨earlier, wantsFirst, smaller⟩ := inductionHypothesis wantsBetween
      exact ⟨earlier, wantsFirst, smaller.trans (obedient.lt_of_wants wants holds)⟩

omit [DecidableEq Thread] [DecidableEq Lock] in
/-- No thread waits for itself, directly or through others. -/
theorem Obedient.no_cycle
    {threads : Threads Thread Lock Cell Content}
    (obedient : threads.Obedient rank)
    (thread : Thread) :
    ¬Relation.TransGen threads.WaitsFor thread thread := by
  intro cycle
  obtain ⟨_, ⟨mutex, ⟨rest, wants⟩, -⟩, -⟩ := Relation.TransGen.head'_iff.mp cycle
  obtain ⟨earlier, ⟨otherRest, wantsEarlier⟩, smaller⟩ := obedient.lt_of_chain cycle ⟨rest, wants⟩
  rw [wants] at wantsEarlier
  obtain rfl := (Prog.lock.inj wantsEarlier).1
  exact lt_irrefl _ smaller

end Threads

end Lib
end Cgo
