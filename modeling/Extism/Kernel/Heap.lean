import Extism.Kernel.Exports
import Extism.Lib.FirstFit

/-!
# The heap a memory represents

The allocator's state, seen from above, is a row of cells in the sense of
`FirstFit`: headers of 12 bytes, excess of 128 bytes or more split off.
`Represents m cs` ties the raw bytes to such a row.  It is the invariant
everything else rests on, and it says where each part of it is needed:

* `headers` — the bytes at every header decode to its cell, so the pointer
  arithmetic of the walks lands on the next header;
* `room` and `fits` — the row, plus the 64 bytes `alloc` subtracts, fits under
  `length`, and `length` under the memory size;
* `zero` — nothing beyond the row has ever been written.

A memory the kernel has not touched yet represents no row.

## Main definitions

* `heap` — the kernel's allocator, as a `FirstFit.Format`.
* `HeaderAt` — the header at an address describes a cell.
* `Represents` — the memory holds the row.
* `Instance.boot` — what `MemoryRoot::new` makes of a memory.

## Main results

* `Represents.congr` — a row is determined by its memory.
* `MemoryRoot.new_eq` — `MemoryRoot::new` completes on every memory of at least a
  page.
* `Instance.Blank.represents` — the first call finds an empty heap.
-/

namespace Extism.Kernel

open FirstFit (Cell Format)

/-- The kernel's allocator: 12-byte headers, 128 bytes are worth a split. -/
abbrev heap : Format := ⟨MemoryBlock.sizeOf, 128, by decide, by decide⟩

/-- The status a cell has in memory. -/
def cellStatus (c : Cell) : MemoryStatus := if c.free then .free else .active

@[simp] theorem cellStatus_vacant (s u : ℕ) : cellStatus (.vacant s u) = .free := rfl

@[simp] theorem cellStatus_held (s u : ℕ) (le : u ≤ s) :
    cellStatus (.held s u le) = .active := rfl

theorem cellStatus_of_free {c : Cell} (free : c.free = true) : cellStatus c = .free := by
  simp [cellStatus, free]

theorem cellStatus_of_held {c : Cell} (taken : c.free = false) : cellStatus c = .active := by
  simp [cellStatus, taken]

/-- The header at `block` describes the cell `c`. -/
structure HeaderAt (m : Instance) (block : ℕ) (c : Cell) : Prop where
  status : m.peek 1 (MemoryBlock.status block) = (cellStatus c).code
  size : m.peek 4 (MemoryBlock.size block) = c.size
  used : m.peek 4 (MemoryBlock.used block) = c.used

/-- A header depends on its own 12 bytes. -/
theorem HeaderAt.congr {m m' : Instance} {block : ℕ} {c : Cell} (h : HeaderAt m block c)
    (eq : ∀ x, block ≤ x → x < block + 12 → m'.bytes x = m.bytes x) :
    HeaderAt m' block c := by
  have word : ∀ k a, block ≤ a → a + k ≤ block + 12 → m'.peek k a = m.peek k a :=
    fun k a lo hi => Instance.peek_congr fun x xlo xhi => eq x (by omega) (by omega)
  exact ⟨(word 1 _ (by simp) (by simp)).trans h.status,
    (word 4 _ (by simp) (by simp)).trans h.size,
    (word 4 _ (by simp) (by simp)).trans h.used⟩

/-- **The heap invariant**: the initialised memory `m` holds the row `cs`. -/
structure Represents (m : Instance) (cs : List Cell) : Prop where
  initialized : m.peek 1 MemoryRoot.initialized = 1
  pages_le : m.pages ≤ MAX_PAGES
  position : m.peek 8 MemoryRoot.position = heap.extent cs
  headers : ∀ p ∈ heap.place MemoryRoot.blocks cs, HeaderAt m p.1 p.2
  room : heap.extent cs + MemoryRoot.sizeOf ≤ m.peek 8 MemoryRoot.length
  fits : m.peek 8 MemoryRoot.length + MemoryRoot.sizeOf ≤ m.size
  zero : ∀ x, MemoryRoot.blocks + heap.extent cs ≤ x → x < m.size → m.bytes x = 0

namespace Represents

variable {m : Instance} {cs : List Cell}

/-- Memory addresses are 32-bit. -/
theorem size_le (R : Represents m cs) : m.size ≤ 2 ^ 32 := by
  have := R.pages_le
  simp only [MAX_PAGES, Instance.size, PAGE_SIZE] at *
  omega

/-- The row ends well inside the memory. -/
theorem extent_le (R : Represents m cs) : heap.extent cs + 128 ≤ m.size := by
  have := R.room
  have := R.fits
  simp only [MemoryRoot.sizeOf] at *
  omega

theorem header (R : Represents m cs) {b : ℕ} {c : Cell}
    (mem : (b, c) ∈ heap.place MemoryRoot.blocks cs) : HeaderAt m b c :=
  R.headers _ mem

/-- A row is determined by its memory: equal bytes where it lives, and enough
room, represent the same row. -/
theorem congr (R : Represents m cs) {m' : Instance}
    (root : ∀ x, 1 ≤ x → x < 25 → m'.bytes x = m.bytes x)
    (row : ∀ x, MemoryRoot.blocks ≤ x → x < m.size →
      m'.bytes x = m.bytes x ∨
        ∃ b n, heap.Held MemoryRoot.blocks cs b n ∧ b + 12 ≤ x ∧ x < b + 12 + n)
    (pages : m'.pages = m.pages) : Represents m' cs := by
  have size : m'.size = m.size := by rw [Instance.size, pages, Instance.size]
  have rootPeek : ∀ k a, 1 ≤ a → a + k ≤ 25 → m'.peek k a = m.peek k a :=
    fun k a lo hi => Instance.peek_congr fun x xlo xhi => root x (by omega) (by omega)
  have extent := R.extent_le
  constructor
  · rw [rootPeek 1 _ (by decide) (by decide), R.initialized]
  · rw [pages]
    exact R.pages_le
  · rw [rootPeek 8 _ (by decide) (by decide), R.position]
  · rintro ⟨b, c⟩ mem
    have inside := Format.place_bounds mem
    refine (R.header mem).congr fun x lo hi => ?_
    simp only [Format.width, MemoryBlock.sizeOf, MemoryRoot.blocks] at inside
    rcases row x (by simp only [MemoryRoot.blocks]; omega) (by omega) with
      eq | ⟨b', n, held, xlo, xhi⟩
    · exact eq
    · -- a header byte is no data byte of a held cell
      have apart := held.disjoint_header mem
      simp only [MemoryBlock.sizeOf] at apart
      omega
  · rw [rootPeek 8 _ (by decide) (by decide)]
    exact R.room
  · rw [rootPeek 8 _ (by decide) (by decide), size]
    exact R.fits
  · intro x lo hi
    rw [size] at hi
    rcases row x (by omega) hi with eq | ⟨b', n, held, xlo, xhi⟩
    · rw [eq]
      exact R.zero x lo hi
    · have := held.bounds
      simp only [MemoryBlock.sizeOf] at this
      omega

end Represents

/-! ## The first call -/

/-- A memory no call has written to. -/
def Instance.Blank (m : Instance) : Prop := m.bytes = fun _ => 0

/-- What `MemoryRoot::new` leaves of an instance: the root set up if it was
not. -/
def Instance.boot (m : Instance) : Instance :=
  if m.peek 1 MemoryRoot.initialized ≠ 0 then m
  else
    (((((((((m.poke 1 MemoryRoot.initialized 1).poke 8 MemoryRoot.inputOffset 0).poke 8
      MemoryRoot.inputLength 0).poke 8 MemoryRoot.outputOffset 0).poke 8
      MemoryRoot.outputLength 0).poke 8 MemoryRoot.error 0).poke 8
      MemoryRoot.length (PAGE_SIZE - MemoryRoot.sizeOf)).poke 8
      MemoryRoot.position 0).clear MemoryRoot.blocks (MemoryBlock.sizeOf * MemoryBlock.sizeOf))

theorem Instance.one_page_le {m : Instance} (pages : 1 ≤ m.pages) : 65536 ≤ m.size := by
  simp only [Instance.size, PAGE_SIZE]
  omega

/-- `MemoryRoot::new` completes on every memory of at least a page. -/
theorem MemoryRoot.new_eq {m : Instance} (pages : 1 ≤ m.pages) :
    MemoryRoot.new m = (.ok (), m.boot) := by
  have size := Instance.one_page_le pages
  rw [new, Prog.bind_ok (load_ok (by simp; omega)), Prog.ite_apply, Instance.boot]
  split
  · rfl
  · rw [Prog.bind_ok (store_ok 1 (by simp; omega)),
      Prog.bind_ok (show _ = (Except.ok false, m.poke 1 initialized 1) from ?_)]
    · simp only [Bool.false_eq_true, if_false]
      rw [setup, Prog.bind_ok (store_ok 0 (by simp; omega)),
        Prog.bind_ok (store_ok 0 (by simp; omega)), Prog.bind_ok (store_ok 0 (by simp; omega)),
        Prog.bind_ok (store_ok 0 (by simp; omega)), Prog.bind_ok (store_ok 0 (by simp; omega)),
        Prog.bind_ok (store_ok _ (by simp; omega)), Prog.bind_ok (store_ok 0 (by simp; omega)),
        writeZeros_ok (by simp; omega)]
    · rw [new.noMemory, Prog.bind_ok (memorySize_ok _), Instance.pages_splice, if_neg (by omega)]
      rfl

theorem Instance.boot_of_initialized {m : Instance}
    (init : m.peek 1 MemoryRoot.initialized = 1) : m.boot = m := by
  rw [Instance.boot, if_pos (by rw [init]; decide)]

theorem Represents.boot_eq {m : Instance} {cs : List Cell} (R : Represents m cs) :
    m.boot = m :=
  Instance.boot_of_initialized R.initialized

@[simp] theorem Instance.pages_boot (m : Instance) : m.boot.pages = m.pages := by
  unfold Instance.boot
  split <;> rfl

@[simp] theorem Instance.grows_boot (m : Instance) : m.boot.grows = m.grows := by
  unfold Instance.boot
  split <;> rfl

/-- The first call finds an empty heap of one page. -/
theorem Instance.Blank.represents {m : Instance} (blank : m.Blank) (lo : 1 ≤ m.pages)
    (hi : m.pages ≤ MAX_PAGES) : Represents m.boot [] := by
  have size := Instance.one_page_le lo
  have off : m.peek 1 MemoryRoot.initialized = 0 :=
    Instance.peek_eq_zero fun x _ _ => by rw [blank]
  rw [Instance.boot, if_neg (by rw [off]; decide)]
  constructor
  case headers => simp
  case pages_le => simpa using hi
  case zero =>
    intro x xlo xhi
    simp only [MemoryRoot.blocks, Format.extent_nil] at xlo
    by_cases cleared : x < 209
    · rw [Instance.bytes_splice_of_mem _ _ (by simpa using xlo) (by simpa using cleared)]
    · simp only [MemoryRoot.initialized, MemoryRoot.inputOffset, MemoryRoot.inputLength,
        MemoryRoot.outputOffset, MemoryRoot.outputLength, MemoryRoot.error, MemoryRoot.length,
        MemoryRoot.position, MemoryRoot.blocks, MemoryBlock.sizeOf]
      simp (disch := omega) only [Instance.bytes_splice_of_notMem]
      rw [blank]
  all_goals
    simp only [MemoryRoot.initialized, MemoryRoot.inputOffset, MemoryRoot.inputLength,
      MemoryRoot.outputOffset, MemoryRoot.outputLength, MemoryRoot.error, MemoryRoot.length,
      MemoryRoot.position, MemoryRoot.blocks, MemoryBlock.sizeOf, MemoryRoot.sizeOf, PAGE_SIZE,
      Instance.size_splice, Format.extent_nil]
    simp (disch := omega) only [Instance.peek_splice_of_disjoint, Instance.peek_poke_of_lt]
    try omega

end Extism.Kernel
