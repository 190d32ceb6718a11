import Extism.Lib.Prog
import Extism.Lib.Transition
import Mathlib.Algebra.BigOperators.Group.List.Basic
import Mathlib.Tactic.Ring

/-!
# The memory limit of a manifest

A manifest with `max_pages` gives the plugin's store a `MemoryLimiter`: a budget
of bytes that all memories of the store draw on.  It is installed at the end of
`build_new`, when the kernel and the other linked modules have their memories
already, so those are charged for growth only.  The call that instantiates the
guest module refills the budget once the instance is there; the instance stays
for good, since nothing sets `store_needs_reset`, so there is one refill.

Wasmtime asks `memory_growing` for the initial size of each memory created and
for every growth, and does it exactly when the answer is `Ok(true)`.  It never
asks for less than the current size.

The account balances what the memories were granted with what is left: no request
changes the sum, so between two refills no more is granted than the limit.

## Main definitions

* `MemoryLimiter`, `MemoryLimiter.memoryGrowing` — the budget, and a request.
* `LimitedStore`, `limiterRuns` — the memories of a store, and the life of a plugin.
* `LimitedStore.ask_cases` says what a request can do; `Charged` is what it leaves.
* `LimitedStore.balance`, `Accounted` — the account.

## Main results

* `Charged.ask`, `Charged.asks` — what is asked for is taken from the budget.
* `Accounted.next`, `Accounted.spends` — one event keeps the account, and spends
  what is there unless it is the refill.
* `granted_le_of_steps` — what is granted between two moments without a refill.
* `limitedSize_le` — the limit, up to the refill and after it.
-/

namespace Extism.Runtime

/-- The budget of a store. -/
structure MemoryLimiter where
  bytesLeft : ℕ
  maxBytes : ℕ
  deriving DecidableEq, Repr

namespace MemoryLimiter

/-- The error of a request that is refused. -/
inductive LimitError
  | oom
  deriving DecidableEq, Repr

/-- The limiter of `max_pages`. -/
def new (maxPages : ℕ) : MemoryLimiter := ⟨maxPages * 65536, maxPages * 65536⟩

def reset (limiter : MemoryLimiter) : MemoryLimiter :=
  { limiter with bytesLeft := limiter.maxBytes }

/-- `memory_growing`. -/
def memoryGrowing (current desired : ℕ) (maximum : Option ℕ) :
    Prog MemoryLimiter LimitError Bool := do
  if maximum.any (· ≤ desired) then Prog.fail .oom
  else do
    let limiter ← Prog.get
    let d := desired - current
    if limiter.bytesLeft < d then Prog.fail .oom
    else do
      Prog.modify fun limiter => { limiter with bytesLeft := limiter.bytesLeft - d }
      pure true

/-- A request is paid for, or refused and not charged. -/
theorem memoryGrowing_cases (current desired : ℕ) (maximum : Option ℕ) (limiter : MemoryLimiter) :
    (desired - current ≤ limiter.bytesLeft ∧ memoryGrowing current desired maximum limiter =
      (.ok true, { limiter with bytesLeft := limiter.bytesLeft - (desired - current) })) ∨
    memoryGrowing current desired maximum limiter = (.error .oom, limiter) := by
  rw [memoryGrowing, Prog.ite_apply]
  split
  case isTrue => exact .inr rfl
  case isFalse =>
    rw [Prog.bind_ok (Prog.get_apply limiter), Prog.ite_apply]
    split
    case isTrue => exact .inr rfl
    case isFalse enough => exact .inl ⟨Nat.le_of_not_lt enough, rfl⟩

end MemoryLimiter

/-! ## The store -/

/-- A linear memory of a limited store. -/
structure LinearMemory where
  size : ℕ
  maximum : Option ℕ
  /-- Its size when the limiter was installed. -/
  uncharged : ℕ
  /-- Was it created or grown through the limiter? -/
  limited : Bool
  deriving DecidableEq, Repr

/-- What the limit of a plugin depends on. -/
structure LimitedStore where
  availablePages : ℕ
  limiter : MemoryLimiter
  memories : List LinearMemory
  instantiated : Bool
  storeNeedsReset : Bool

/-- What wasmtime asks the limiter for. -/
inductive MemoryRequest
  /-- A memory of an initial size. -/
  | create (size : ℕ) (maximum : Option ℕ)
  /-- More bytes for the `i`-th memory. -/
  | grow (i delta : ℕ)
  deriving DecidableEq, Repr

namespace LimitedStore

/-- The end of `build_new`: the limiter is installed beside the memories that
are there. -/
def build (maxPages : ℕ) (linked : List (ℕ × Option ℕ)) : LimitedStore where
  availablePages := maxPages
  limiter := .new maxPages
  memories := linked.map fun (size, maximum) => ⟨size, maximum, size, false⟩
  instantiated := false
  storeNeedsReset := false

/-- Ask the limiter, and do it if the answer is yes. -/
def ask (s : LimitedStore) : MemoryRequest → LimitedStore
  | .create size maximum =>
      match MemoryLimiter.memoryGrowing 0 size maximum s.limiter with
      | (.ok true, limiter) =>
          { s with limiter := limiter, memories := s.memories ++ [⟨size, maximum, 0, true⟩] }
      | (_, limiter) => { s with limiter := limiter }
  | .grow i delta =>
      match s.memories[i]? with
      | some memory =>
          match MemoryLimiter.memoryGrowing memory.size (memory.size + delta) memory.maximum
            s.limiter with
          | (.ok true, limiter) =>
              { s with
                limiter := limiter
                memories := s.memories.set i
                  { memory with size := memory.size + delta, limited := true } }
          | (_, limiter) => { s with limiter := limiter }
      | none => s

/-- `reset_store`, with what linking the modules anew asks for and whether it
succeeds. -/
def resetStore (requests : List MemoryRequest) (ok : Bool) (s : LimitedStore) : LimitedStore :=
  if s.storeNeedsReset then
    let s := requests.foldl ask { s with limiter := .new s.availablePages, memories := [] }
    if ok then { s with instantiated := false, storeNeedsReset := false } else s
  else s

/-- `instantiate`, with what `InstancePre::instantiate` asks for and whether it
succeeds. -/
def instantiate (requests : List MemoryRequest) (ok : Bool) (s : LimitedStore) : LimitedStore :=
  if s.instantiated then s
  else
    let s := requests.foldl ask s
    if ok then { s with instantiated := true, limiter := s.limiter.reset } else s

/-- The bytes of the memories created or grown through the limiter. -/
def limitedSize (s : LimitedStore) : ℕ :=
  ((s.memories.filter (·.limited)).map LinearMemory.size).sum

/-- What these memories had when the limiter was installed. -/
def unchargedSize (s : LimitedStore) : ℕ :=
  ((s.memories.filter (·.limited)).map LinearMemory.uncharged).sum

end LimitedStore

/-- What happens to a store. -/
inductive StoreEvent
  | ask (request : MemoryRequest)
  | instantiate (requests : List MemoryRequest) (ok : Bool)
  | resetStore (requests : List MemoryRequest) (ok : Bool)

/-- The store after an event. -/
def LimitedStore.next (s : LimitedStore) : StoreEvent → LimitedStore
  | .ask request => s.ask request
  | .instantiate requests ok => s.instantiate requests ok
  | .resetStore requests ok => s.resetStore requests ok

/-- The life of a plugin built with `max_pages = maxPages`. -/
def limiterRuns (maxPages : ℕ) : TransitionSystem LimitedStore StoreEvent where
  init s := ∃ linked, s = .build maxPages linked
  step s e s' := s.next e = s'

/-! ## The account -/

/-- The bytes of a list of memories that were asked for. -/
def granted (memories : List LinearMemory) : ℕ :=
  (memories.map fun memory => memory.size - memory.uncharged).sum

@[simp] theorem granted_nil : granted [] = 0 := rfl

@[simp] theorem granted_cons (memory : LinearMemory) (rest : List LinearMemory) :
    granted (memory :: rest) = memory.size - memory.uncharged + granted rest := by
  simp [granted]

@[simp] theorem granted_append (xs ys : List LinearMemory) :
    granted (xs ++ ys) = granted xs + granted ys := by
  simp [granted]

/-- What the memories were granted, and what is left. -/
def LimitedStore.balance (s : LimitedStore) : ℕ := granted s.memories + s.limiter.bytesLeft

/-- `d` bytes paid for, for memories that are then as given. -/
def LimitedStore.charged (s : LimitedStore) (d : ℕ) (memories : List LinearMemory) :
    LimitedStore :=
  { s with
    limiter := { s.limiter with bytesLeft := s.limiter.bytesLeft - d }
    memories := memories }

/-- What a request can do: nothing, or a memory is created or grows, and its
bytes were there and are paid for. -/
theorem LimitedStore.ask_cases (s : LimitedStore) (request : MemoryRequest) :
    s.ask request = s ∨
    (∃ size maximum, size ≤ s.limiter.bytesLeft ∧
      s.ask request = s.charged size (s.memories ++ [⟨size, maximum, 0, true⟩])) ∨
    ∃ (before after : List LinearMemory) (memory : LinearMemory) (delta : ℕ),
      s.memories = before ++ memory :: after ∧ delta ≤ s.limiter.bytesLeft ∧
      s.ask request = s.charged delta
        (before ++ { memory with size := memory.size + delta, limited := true } :: after) := by
  cases request with
  | create size maximum =>
      rw [ask]
      rcases MemoryLimiter.memoryGrowing_cases 0 size maximum s.limiter with ⟨paid, run⟩ | run
      · rw [run]
        exact .inr (.inl ⟨size, maximum, paid, rfl⟩)
      · rw [run]
        exact .inl rfl
  | grow i delta =>
      rw [ask]
      cases found : s.memories[i]? with
      | none => exact .inl rfl
      | some memory =>
          obtain ⟨lt, rfl⟩ := List.getElem?_eq_some_iff.1 found
          rcases MemoryLimiter.memoryGrowing_cases s.memories[i].size (s.memories[i].size + delta)
            s.memories[i].maximum s.limiter with ⟨paid, run⟩ | run
          · obtain ⟨before, after, split, -, set⟩ := @List.exists_of_set _ i
              { s.memories[i] with size := s.memories[i].size + delta, limited := true } _ lt
            rw [Nat.add_sub_cancel_left] at paid run
            simp only [run, set]
            exact .inr (.inr ⟨before, after, s.memories[i], delta, split, paid, rfl⟩)
          · exact .inl (by simp only [run])

/-- The books of a limiter. -/
structure Accounted (maxPages : ℕ) (s : LimitedStore) : Prop where
  budget : s.limiter.maxBytes = maxPages * 65536
  kept : s.storeNeedsReset = false
  grew : ∀ memory ∈ s.memories, memory.uncharged ≤ memory.size
  left : s.limiter.bytesLeft ≤ maxPages * 65536
  account : s.balance ≤ (if s.instantiated then 2 else 1) * (maxPages * 65536)

/-- What a request leaves: no more than there was, in a store as far as before. -/
structure Charged (s s' : LimitedStore) : Prop where
  budget : s'.limiter.maxBytes = s.limiter.maxBytes
  kept : s'.storeNeedsReset = s.storeNeedsReset
  instantiated : s'.instantiated = s.instantiated
  grew : ∀ memory ∈ s'.memories, memory.uncharged ≤ memory.size
  left : s'.limiter.bytesLeft ≤ s.limiter.bytesLeft
  balance : s'.balance ≤ s.balance

namespace Charged

variable {s : LimitedStore}

theorem refl (grew : ∀ memory ∈ s.memories, memory.uncharged ≤ memory.size) : Charged s s :=
  ⟨rfl, rfl, rfl, grew, Nat.le_refl _, Nat.le_refl _⟩

theorem ask (grew : ∀ memory ∈ s.memories, memory.uncharged ≤ memory.size)
    (request : MemoryRequest) : Charged s (s.ask request) := by
  rcases s.ask_cases request with same | ⟨size, maximum, paid, asked⟩ |
    ⟨before, after, memory, delta, split, paid, asked⟩
  · rw [same]
    exact refl grew
  · rw [asked]
    refine ⟨rfl, rfl, rfl, ?_, Nat.sub_le _ _, ?_⟩
    · simp only [LimitedStore.charged, List.mem_append, List.mem_singleton]
      rintro memory (mem | rfl)
      · exact grew memory mem
      · exact Nat.zero_le _
    · simp only [LimitedStore.balance, LimitedStore.charged, granted_append, granted_cons,
        granted_nil]
      omega
  · rw [asked]
    rw [split] at grew
    have old := grew memory (by simp)
    refine ⟨rfl, rfl, rfl, ?_, Nat.sub_le _ _, ?_⟩
    · simp only [LimitedStore.charged, List.mem_append, List.mem_cons] at grew ⊢
      rintro m (mem | rfl | mem)
      · exact grew m (.inl mem)
      · exact Nat.le_add_right_of_le old
      · exact grew m (.inr (.inr mem))
    · simp only [LimitedStore.balance, LimitedStore.charged, split, granted_append, granted_cons]
      omega

theorem asks (requests : List MemoryRequest)
    (grew : ∀ memory ∈ s.memories, memory.uncharged ≤ memory.size) :
    Charged s (requests.foldl LimitedStore.ask s) := by
  induction requests generalizing s with
  | nil => exact refl grew
  | cons request rest ih =>
      have head := ask grew request
      have tail := ih head.grew
      exact ⟨tail.budget.trans head.budget, tail.kept.trans head.kept,
        tail.instantiated.trans head.instantiated, tail.grew, tail.left.trans head.left,
        tail.balance.trans head.balance⟩

end Charged

namespace Accounted

variable {maxPages : ℕ} {s : LimitedStore}

theorem build (maxPages : ℕ) (linked : List (ℕ × Option ℕ)) :
    Accounted maxPages (.build maxPages linked) where
  budget := rfl
  kept := rfl
  grew := by
    simp only [LimitedStore.build, List.mem_map, Prod.exists, forall_exists_index, and_imp]
    rintro _ size maximum - rfl
    exact Nat.le_refl _
  left := Nat.le_refl _
  account := by
    simp [LimitedStore.balance, granted, LimitedStore.build, MemoryLimiter.new,
      Function.comp_def]

/-- What is asked for is taken from the budget. -/
theorem charged (accounted : Accounted maxPages s) {s' : LimitedStore} (paid : Charged s s') :
    Accounted maxPages s' where
  budget := paid.budget.trans accounted.budget
  kept := paid.kept.trans accounted.kept
  grew := paid.grew
  left := paid.left.trans accounted.left
  account := by
    rw [paid.instantiated]
    exact paid.balance.trans accounted.account

/-- The refill follows at most one budget spent. -/
theorem instantiate (accounted : Accounted maxPages s) (requests : List MemoryRequest) (ok : Bool) :
    Accounted maxPages (s.instantiate requests ok) := by
  rw [LimitedStore.instantiate]
  split
  case isTrue => exact accounted
  case isFalse new =>
    have paid := Charged.asks requests accounted.grew
    have asked := accounted.charged paid
    split
    case isTrue =>
      refine ⟨asked.budget, asked.kept, asked.grew, Nat.le_of_eq asked.budget, ?_⟩
      have account := asked.account
      simp only [LimitedStore.balance, paid.instantiated, new, MemoryLimiter.reset, asked.budget,
        if_true, if_false, Bool.false_eq_true] at account ⊢
      omega
    case isFalse => exact asked

theorem resetStore (accounted : Accounted maxPages s) (requests : List MemoryRequest) (ok : Bool) :
    s.resetStore requests ok = s := by
  simp [LimitedStore.resetStore, accounted.kept]

theorem next (accounted : Accounted maxPages s) (e : StoreEvent) :
    Accounted maxPages (s.next e) := by
  cases e with
  | ask request => exact accounted.charged (.ask accounted.grew request)
  | instantiate requests ok => exact accounted.instantiate requests ok
  | resetStore requests ok =>
      rw [LimitedStore.next, accounted.resetStore]
      exact accounted

/-- An event that is no refill spends what is there, and an instance stays. -/
theorem spends (accounted : Accounted maxPages s) (e : StoreEvent) :
    (s.next e).balance ≤ s.balance ∧ (s.next e).instantiated = s.instantiated ∨
      s.instantiated = false ∧ (s.next e).instantiated = true := by
  cases e with
  | ask request =>
      have paid := Charged.ask accounted.grew request
      exact .inl ⟨paid.balance, paid.instantiated⟩
  | instantiate requests ok =>
      rw [LimitedStore.next, LimitedStore.instantiate]
      split
      case isTrue => exact .inl ⟨Nat.le_refl _, rfl⟩
      case isFalse new =>
        split
        case isTrue => exact .inr ⟨Bool.eq_false_iff.2 new, rfl⟩
        case isFalse =>
          have paid := Charged.asks requests accounted.grew
          exact .inl ⟨paid.balance, paid.instantiated⟩
  | resetStore requests ok =>
      rw [LimitedStore.next, accounted.resetStore]
      exact .inl ⟨Nat.le_refl _, rfl⟩

/-- A memory has no more than what it had and what was asked for. -/
theorem limitedSize_le_granted (accounted : Accounted maxPages s) :
    s.limitedSize ≤ granted s.memories + s.unchargedSize := by
  have grew := accounted.grew
  rw [LimitedStore.limitedSize, LimitedStore.unchargedSize]
  generalize s.memories = memories at grew
  induction memories with
  | nil => exact Nat.le_refl _
  | cons memory rest ih =>
      obtain ⟨here, there⟩ := List.forall_mem_cons.1 grew
      have tail := ih there
      rw [granted_cons]
      cases limited : memory.limited with
      | false =>
          simp only [limited, Bool.false_eq_true, not_false_eq_true, List.filter_cons_of_neg]
          omega
      | true =>
          simp only [limited, List.filter_cons_of_pos, List.map_cons, List.sum_cons]
          omega

end Accounted

/-! ## The bound -/

theorem accounted_of_reachable {maxPages : ℕ} {s : LimitedStore}
    (reach : (limiterRuns maxPages).Reachable s) : Accounted maxPages s := by
  refine reach.invariant ?_ ?_
  · rintro _ ⟨linked, rfl⟩
    exact .build maxPages linked
  · rintro s _ e accounted rfl
    exact accounted.next e

/-- Between two states of a run without a refill the memories are granted what was
left in the first, which is no more than the limit. -/
theorem granted_le_of_steps {maxPages : ℕ} {s t : LimitedStore} {es : List StoreEvent}
    (accounted : Accounted maxPages s) (run : (limiterRuns maxPages).Steps s es t)
    (same : t.instantiated = s.instantiated) :
    granted t.memories ≤ granted s.memories + maxPages * 65536 := by
  -- a run keeps to the balance until the refill, and the refill is for good
  have spent : Accounted maxPages t ∧ (t.balance ≤ s.balance ∧ t.instantiated = s.instantiated ∨
      s.instantiated = false ∧ t.instantiated = true) := by
    refine run.invariant (I := fun t => Accounted maxPages t ∧
      (t.balance ≤ s.balance ∧ t.instantiated = s.instantiated ∨
        s.instantiated = false ∧ t.instantiated = true)) ?_
      ⟨accounted, .inl ⟨Nat.le_refl _, rfl⟩⟩
    rintro t _ e ⟨accounted, phase⟩ rfl
    refine ⟨accounted.next e, ?_⟩
    rcases accounted.spends e with ⟨le, here⟩ | ⟨fresh, refilled⟩
    · rcases phase with ⟨before, there⟩ | ⟨fresh, refilled⟩
      · exact .inl ⟨le.trans before, here.trans there⟩
      · exact .inr ⟨fresh, here.trans refilled⟩
    · rcases phase with ⟨-, there⟩ | ⟨-, refilled'⟩
      · exact .inr ⟨there.symm.trans fresh, refilled⟩
      · exact absurd (fresh.symm.trans refilled') (by decide)
  rcases spent.2 with ⟨balance, -⟩ | ⟨fresh, refilled⟩
  · have left := accounted.left
    simp only [LimitedStore.balance] at balance
    omega
  · rw [fresh, refilled] at same
    exact absurd same (by decide)

/-- **The limit.**  Up to the refill the memories created or grown through the
limiter have `max_pages` pages in all, and twice as many after it, beside what
they had when the limiter was installed; and from any moment on, so from the
refill on, the limiter grants at most `max_pages` pages until it is refilled. -/
theorem limitedSize_le {maxPages : ℕ} {s : LimitedStore}
    (reach : (limiterRuns maxPages).Reachable s) :
    s.limitedSize ≤ (if s.instantiated then 2 else 1) * (maxPages * 65536) + s.unchargedSize ∧
      ∀ es t, (limiterRuns maxPages).Steps s es t → t.instantiated = s.instantiated →
        granted t.memories ≤ granted s.memories + maxPages * 65536 := by
  have accounted := accounted_of_reachable reach
  have size := accounted.limitedSize_le_granted
  have account := accounted.account
  simp only [LimitedStore.balance] at account
  exact ⟨by omega, fun es t run same => granted_le_of_steps accounted run same⟩

/-- A module of one page under a limit of one, and one page more once it is
instantiated. -/
def refilled : LimitedStore :=
  [.instantiate [.create 65536 none] true, .ask (.grow 0 65536)].foldl LimitedStore.next
    (.build 1 [])

theorem limitedSize_refilled_le : refilled.limitedSize ≤ 2 * (1 * 65536) + 0 := by
  have start : (limiterRuns 1).Reachable (.build 1 []) := .of_init ⟨[], rfl⟩
  have here := start.step (l := .instantiate [.create 65536 none] true) rfl
  have grown := here.step (l := .ask (.grow 0 65536)) rfl
  exact (limitedSize_le grown).1

/-- The refill grants the limit a second time, and a memory that was there first
has what it had on top. -/
theorem not_limitedSize_le_always :
    (¬ ∀ maxPages s, (limiterRuns maxPages).Reachable s →
      s.limitedSize ≤ maxPages * 65536 + s.unchargedSize) ∧
    ¬ ∀ maxPages s, (limiterRuns maxPages).Reachable s → s.instantiated = false →
      s.limitedSize ≤ maxPages * 65536 := by
  refine ⟨fun always => ?_, fun always => ?_⟩
  · have start : (limiterRuns 1).Reachable (.build 1 []) := .of_init ⟨[], rfl⟩
    have here := start.step (l := .instantiate [.create 65536 none] true) rfl
    have grown := here.step (l := .ask (.grow 0 65536)) rfl
    exact absurd (always 1 _ grown) (by decide +kernel)
  · have start : (limiterRuns 1).Reachable (.build 1 [(1048576, none)]) :=
      .of_init ⟨[(1048576, none)], rfl⟩
    have grown := start.step (l := .ask (.grow 0 65536)) rfl
    exact absurd (always 1 _ grown rfl) (by decide +kernel)

end Extism.Runtime
