import Extism.Lib.ByteMemory
import Extism.Lib.Prog

/-!
# The kernel as a WebAssembly instance

The kernel is a module of its own with one linear memory; its only state is the
bytes of that memory and their number of pages.  A kernel function is an
`Exec`: it runs on an instance and leaves an instance behind, returning a value
or stopping with a `Fault`.

`memory.grow` is the one place where the outside decides.  `host` holds the
answers the embedder will give, in order, and `grows` records every
`memory.grow` executed with whether it succeeded, so that "no grow failed" and
"no grow was made" are statements about the instance.  A refusal is an answer of
-1 here, as for a memory that has all its pages; the limiter of a plugin refuses
by a trap instead, after which the memory is the same but the call does not
return.

Integers are naturals; a `u64` or `usize` (`u32`) that may wrap is reduced
explicitly, as the release build does.  Pointers are the exception: `ptr::add`
past the end of the 32-bit address space is undefined in Rust, and is a fault
here (`ptrAdd`).

## Main definitions

* `Instance`, `Instance.fresh` — the memory with the embedder behind it, and a
  new one.
* `Instance.peek`, `Instance.splice`, `Instance.poke` — its words and bytes.
* `Instance.grown`, `Instance.refused` — after a `memory.grow`.
* `Exec`, `Fault` — a computation on an instance, and how it may stop.
* `load`, `store`, `memoryGrow`, `ptrAdd` — the instructions.

## Main results

* `Instance.peek_congr` — a word depends on its own bytes only.
* `of_load`, `of_store`, `of_ptrAdd` — what a completed instruction did.
-/

namespace Extism.Kernel

/-- WebAssembly page size. -/
@[simp] abbrev PAGE_SIZE : ℕ := 65536

/-- The most pages a 32-bit memory may have. -/
@[simp] abbrev MAX_PAGES : ℕ := 65536

/-- `usize::MAX`, which `memory_grow` returns on failure. -/
@[simp] abbrev usizeMax : ℕ := 2 ^ 32 - 1

/-- `x as usize`. -/
def toUsize (x : ℕ) : ℕ := x % 2 ^ 32

theorem toUsize_of_lt {x : ℕ} (lt : x < 2 ^ 32) : toUsize x = x :=
  Nat.mod_eq_of_lt lt

/-- `a + b` on `u64`. -/
def addU64 (a b : ℕ) : ℕ := (a + b) % 2 ^ 64

/-- `a - b` on `u64`, for `b` in range. -/
def subU64 (a b : ℕ) : ℕ := (a + (2 ^ 64 - b)) % 2 ^ 64

/-- `a + b` on `usize`. -/
def addUsize (a b : ℕ) : ℕ := (a + b) % 2 ^ 32

/-- `a - b` on `usize`, for `b` in range. -/
def subUsize (a b : ℕ) : ℕ := (a + (2 ^ 32 - b)) % 2 ^ 32

/-- Why a call did not complete. -/
inductive Fault
  /-- A wasm trap: an access outside linear memory, or `unreachable`. -/
  | trap
  /-- Pointer arithmetic left the address space. -/
  | overflow
  /-- A loop ran past its bound on the number of iterations; no loop of the
  kernel does (`findFreeBlock_ne_spin`, `findBlock_ne_spin`). -/
  | spin
  deriving DecidableEq, Repr

/-- The kernel's linear memory and the embedder behind it. -/
structure Instance where
  /-- The content of the memory; meaningless past its end. -/
  bytes : ByteMem
  /-- `memory_size`, in pages. -/
  pages : ℕ
  /-- The embedder's answer to each `memory.grow`, in the order they are made; a
  refusal is the answer -1. -/
  host : ℕ → Bool
  /-- The `memory.grow`s executed so far: pages asked for, and the outcome. -/
  grows : List (ℕ × Bool)

namespace Instance

/-- The number of bytes of linear memory. -/
def size (m : Instance) : ℕ := PAGE_SIZE * m.pages

/-- The word of `k` bytes at `a`. -/
def peek (m : Instance) (k a : ℕ) : ℕ := m.bytes.readWord k a

/-- Overwrite the `k` bytes from `a` on. -/
def splice (m : Instance) (a k : ℕ) (f : ℕ → UInt8) : Instance :=
  { m with bytes := m.bytes.splice a k f }

/-- Overwrite the word of `k` bytes at `a`. -/
abbrev poke (m : Instance) (k a v : ℕ) : Instance := m.splice a k (ByteMem.wordBytes v)

/-- Set the `n` bytes from `a` on to zero. -/
abbrev clear (m : Instance) (a n : ℕ) : Instance := m.splice a n fun _ => 0

/-- Copy a buffer to address `a`. -/
abbrev copy (m : Instance) (a : ℕ) (bs : List UInt8) : Instance :=
  m.splice a bs.length fun i => bs.getD i 0

/-- Whether the next `memory.grow` succeeds when it asks for `k` pages. -/
def CanGrow (m : Instance) (k : ℕ) : Prop :=
  m.host m.grows.length = true ∧ m.pages + k ≤ MAX_PAGES

instance (m : Instance) (k : ℕ) : Decidable (m.CanGrow k) :=
  inferInstanceAs (Decidable (_ ∧ _))

/-- The instance after a successful `memory.grow`: zeroed pages at the end. -/
def grown (m : Instance) (k : ℕ) : Instance :=
  { m.clear m.size (PAGE_SIZE * k) with
    pages := m.pages + k
    grows := m.grows ++ [(k, true)] }

/-- The instance after a refused `memory.grow`. -/
def refused (m : Instance) (k : ℕ) : Instance :=
  { m with grows := m.grows ++ [(k, false)] }

/-- A new instance: zeroed memory of the given number of pages. -/
def fresh (pages : ℕ) (host : ℕ → Bool) : Instance := ⟨fun _ => 0, pages, host, []⟩

/-! ### Reading back a write -/

section Readback

variable (m : Instance) (f : ℕ → UInt8)

@[simp] theorem pages_splice (a k : ℕ) : (m.splice a k f).pages = m.pages := rfl
@[simp] theorem pages_grown (k : ℕ) : (m.grown k).pages = m.pages + k := rfl
@[simp] theorem pages_refused (k : ℕ) : (m.refused k).pages = m.pages := rfl

@[simp] theorem size_splice (a k : ℕ) : (m.splice a k f).size = m.size := rfl
@[simp] theorem size_grown (k : ℕ) : (m.grown k).size = m.size + PAGE_SIZE * k := by
  simp [size, Nat.mul_add]
@[simp] theorem size_refused (k : ℕ) : (m.refused k).size = m.size := rfl

@[simp] theorem grows_splice (a k : ℕ) : (m.splice a k f).grows = m.grows := rfl
@[simp] theorem grows_grown (k : ℕ) : (m.grown k).grows = m.grows ++ [(k, true)] := rfl
@[simp] theorem grows_refused (k : ℕ) : (m.refused k).grows = m.grows ++ [(k, false)] := rfl

theorem bytes_splice_of_notMem {a k x : ℕ} (out : x < a ∨ a + k ≤ x) :
    (m.splice a k f).bytes x = m.bytes x :=
  ByteMem.splice_of_notMem m.bytes f out

theorem bytes_splice_of_mem {a k x : ℕ} (lo : a ≤ x) (hi : x < a + k) :
    (m.splice a k f).bytes x = f (x - a) :=
  ByteMem.splice_of_mem m.bytes f lo hi

/-- The same bytes written into two memories keep them equal where they were. -/
theorem bytes_splice_congr {m m' : Instance} {x : ℕ} (a k : ℕ) (f : ℕ → UInt8)
    (eq : m.bytes x = m'.bytes x) : (m.splice a k f).bytes x = (m'.splice a k f).bytes x :=
  ByteMem.splice_congr a k f eq

theorem bytes_grown_of_lt {x : ℕ} (k : ℕ) (lt : x < m.size) :
    (m.grown k).bytes x = m.bytes x :=
  m.bytes_splice_of_notMem (fun _ => 0) (k := PAGE_SIZE * k) (.inl lt)

theorem bytes_grown_of_ge {k x : ℕ} (ge : m.size ≤ x) (lt : x < m.size + PAGE_SIZE * k) :
    (m.grown k).bytes x = 0 :=
  m.bytes_splice_of_mem (fun _ => 0) ge lt

@[simp] theorem bytes_refused (k : ℕ) : (m.refused k).bytes = m.bytes := rfl

theorem peek_lt (k a : ℕ) : m.peek k a < 256 ^ k :=
  ByteMem.readWord_lt m.bytes k a

theorem peek_poke_self (k a v : ℕ) : (m.poke k a v).peek k a = v % 256 ^ k :=
  ByteMem.readWord_splice_wordBytes m.bytes k a v

theorem peek_poke_of_lt {k a v : ℕ} (lt : v < 256 ^ k) : (m.poke k a v).peek k a = v := by
  rw [peek_poke_self, Nat.mod_eq_of_lt lt]

theorem peek_splice_of_disjoint {a k j b : ℕ} (out : b + j ≤ a ∨ a + k ≤ b) :
    (m.splice a k f).peek j b = m.peek j b :=
  ByteMem.readWord_splice_of_disjoint m.bytes f out

theorem peek_grown_of_le {j b : ℕ} (k : ℕ) (le : b + j ≤ m.size) :
    (m.grown k).peek j b = m.peek j b :=
  m.peek_splice_of_disjoint (fun _ => 0) (k := PAGE_SIZE * k) (.inl le)

@[simp] theorem peek_refused (j b k : ℕ) : (m.refused k).peek j b = m.peek j b := rfl

end Readback

/-- A word depends on its own bytes only. -/
theorem peek_congr {m m' : Instance} {k a : ℕ}
    (eq : ∀ x, a ≤ x → x < a + k → m.bytes x = m'.bytes x) : m.peek k a = m'.peek k a :=
  ByteMem.readWord_congr eq

theorem peek_eq_zero {m : Instance} {k a : ℕ}
    (zero : ∀ x, a ≤ x → x < a + k → m.bytes x = 0) : m.peek k a = 0 :=
  ByteMem.readWord_eq_zero zero

end Instance

/-- A computation on an instance.  A fault keeps the instance it left behind:
nothing undoes the stores made before a trap. -/
abbrev Exec (α : Type) : Type := Prog Instance Fault α

/-! ## The instructions the kernel is compiled to -/

/-- Load the `k` bytes at `a`. -/
def load (k a : ℕ) : Exec ℕ := fun m =>
  if a + k ≤ m.size then (.ok (m.peek k a), m) else (.error .trap, m)

/-- Store the low `k` bytes of `v` at `a`. -/
def store (k a v : ℕ) : Exec Unit := fun m =>
  if a + k ≤ m.size then (.ok (), m.poke k a v) else (.error .trap, m)

/-- `core::ptr::write_bytes(a, 0, n)` on bytes. -/
def writeZeros (a n : ℕ) : Exec Unit := fun m =>
  if a + n ≤ m.size then (.ok (), m.clear a n) else (.error .trap, m)

/-- `core::arch::wasm32::memory_size(0)`. -/
def memorySize : Exec ℕ := fun m => (.ok m.pages, m)

/-- `core::arch::wasm32::memory_grow(0, k)`: the old size, or `usize::MAX`. -/
def memoryGrow (k : ℕ) : Exec ℕ := fun m =>
  if m.CanGrow k then (.ok m.pages, m.grown k) else (.ok usizeMax, m.refused k)

/-- `p.add(k)` on a byte pointer. -/
def ptrAdd (p k : ℕ) : Exec ℕ :=
  if p + k < 2 ^ 32 then pure (p + k) else Prog.fail .overflow

theorem load_ok {k a : ℕ} {m : Instance} (le : a + k ≤ m.size) :
    load k a m = (.ok (m.peek k a), m) :=
  if_pos le

theorem store_ok {k a : ℕ} {m : Instance} (v : ℕ) (le : a + k ≤ m.size) :
    store k a v m = (.ok (), m.poke k a v) :=
  if_pos le

theorem writeZeros_ok {a n : ℕ} {m : Instance} (le : a + n ≤ m.size) :
    writeZeros a n m = (.ok (), m.clear a n) :=
  if_pos le

theorem memorySize_ok (m : Instance) : memorySize m = (.ok m.pages, m) := rfl

theorem ptrAdd_ok {p k : ℕ} (lt : p + k < 2 ^ 32) (m : Instance) :
    ptrAdd p k m = (.ok (p + k), m) := by
  rw [ptrAdd, if_pos lt]
  rfl

/-- What a completed load, store or pointer step did. -/
theorem of_load {k a v : ℕ} {m m' : Instance} (h : load k a m = (.ok v, m')) :
    m' = m ∧ v = m.peek k a ∧ a + k ≤ m.size := by
  unfold load at h
  split at h
  case isTrue le =>
    simp only [Prod.mk.injEq, Except.ok.injEq] at h
    exact ⟨h.2.symm, h.1.symm, le⟩
  case isFalse => simp at h

theorem of_store {k a v : ℕ} {u : Unit} {m m' : Instance} (h : store k a v m = (.ok u, m')) :
    m' = m.poke k a v ∧ a + k ≤ m.size := by
  unfold store at h
  split at h
  case isTrue le =>
    simp only [Prod.mk.injEq, true_and] at h
    exact ⟨h.symm, le⟩
  case isFalse => simp at h

theorem of_ptrAdd {p k q : ℕ} {m m' : Instance} (h : ptrAdd p k m = (.ok q, m')) :
    m' = m ∧ q = p + k := by
  unfold ptrAdd at h
  split at h
  · simp only [Prog.pure_apply, Prod.mk.injEq, Except.ok.injEq] at h
    exact ⟨h.2.symm, h.1.symm⟩
  · simp at h

theorem memoryGrow_ok {k : ℕ} {m : Instance} (can : m.CanGrow k) :
    memoryGrow k m = (.ok m.pages, m.grown k) :=
  if_pos can

theorem memoryGrow_refused {k : ℕ} {m : Instance} (cannot : ¬ m.CanGrow k) :
    memoryGrow k m = (.ok usizeMax, m.refused k) :=
  if_neg cannot

end Extism.Kernel
