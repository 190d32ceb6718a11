import Extism.Kernel.Published

/-!
# Requests of 4 GiB and more

`alloc` takes a `u64`.  On the way to a block it is reduced three times: the
walk compares its low 32 bits with the sizes of free blocks, the 12 bytes of the
header are added modulo `2 ^ 64`, and the number of pages is cut to a `usize`.
A request no memory can satisfy is refused exactly as long as none of the three
makes it look small.

The memory has to refuse to grow by the pages asked for, too, which is what
`memory.grow` does by the answer -1.  A limiter that stops the call instead is not
meant here.

## Main definitions

* `Refuses` — `alloc(n)` answers 0 and leaves the heap behind.
* `Oversized` — no reduction makes the request look small, in the memory it finds.

## Main results

* `Represents.ne_none_of_not_oversized`, `Represents.alloc_of_oversized` — the two
  directions, on a memory that represents a row.
* `refused_iff_oversized` — when a request of 4 GiB or more is refused.
-/

namespace Extism.Kernel

open FirstFit (Cell Format)

/-- `alloc(n)` answers 0 on `m`, and leaves the heap of `m₀` behind. -/
def Refuses (m₀ m : Instance) (n : ℕ) : Prop :=
  ∃ m', alloc n m = (.ok 0, m') ∧ m'.position = m₀.position ∧ m'.length = m₀.length ∧
    m'.decode = m₀.decode ∧ m'.pages = m₀.pages

/-- The bytes `alloc` takes to be available behind the heap. -/
def Instance.spare (m : Instance) : ℕ :=
  subU64 (subU64 m.length m.position) MemoryRoot.sizeOf

/-- A request is too large for the memory `m`, seen through the three
reductions: no free block fits its low 32 bits, the bytes with the header, modulo
`2 ^ 64`, are not available, and `memory.grow` answers -1 to the pages that are
missing, modulo `2 ^ 32`. -/
def Oversized (m : Instance) (n : ℕ) : Prop :=
  (∀ b ∈ m.decode, ¬ b.Fits (toUsize n)) ∧ m.spare ≤ addU64 n MemoryBlock.sizeOf ∧
    ¬ m.CanGrow (numPages (subU64 (addU64 n MemoryBlock.sizeOf) m.spare))

namespace MemoryRoot

/-- A new block has a header, so its handle is not null. -/
theorem append_ne_none {n pos : ℕ} {r : Option ℕ} {m m' : Instance}
    (run : alloc.append n pos m = (.ok r, m')) : handle r ≠ 0 := by
  obtain ⟨_, _, -, run⟩ := Prog.bind_eq_ok run
  obtain ⟨_, _, -, run⟩ := Prog.bind_eq_ok run
  obtain ⟨_, _, -, run⟩ := Prog.bind_eq_ok run
  obtain ⟨_, _, -, run⟩ := Prog.bind_eq_ok run
  obtain ⟨_, _, -, run⟩ := Prog.bind_eq_ok run
  obtain ⟨-, rfl⟩ := Prog.of_pure run
  simp [handle]

end MemoryRoot

namespace Represents

variable {m m' : Instance} {cs : List Cell} {n : ℕ}

/-- With no free block to take, room is there or made. -/
theorem makeRoom_of_not_oversized (R : Represents m cs) (fits : ¬ Oversized m n)
    (skip : ∀ b ∈ m.decode, ¬ b.Fits (toUsize n)) :
    ∃ m₁, MemoryRoot.alloc.makeRoom n (heap.extent cs) (m.peek 8 MemoryRoot.length) m =
      (.ok true, m₁) := by
  have spare : subU64 (subU64 (m.peek 8 MemoryRoot.length) (heap.extent cs))
      MemoryRoot.sizeOf = m.spare := by
    rw [Instance.spare, R.position_eq, Instance.length]
  rw [MemoryRoot.alloc.makeRoom, spare, Prog.ite_apply]
  split
  case isFalse => exact ⟨m, rfl⟩
  case isTrue short =>
    have can : m.CanGrow (numPages (subU64 (addU64 n MemoryBlock.sizeOf) m.spare)) := by
      by_contra cannot
      exact fits ⟨skip, short, cannot⟩
    have grown := R.root_le (k := 8) (a := MemoryRoot.length) (by decide)
    have pages := can.2
    have old := R.extent_le
    simp only [MAX_PAGES, Instance.size, PAGE_SIZE] at pages old
    rw [Prog.bind_ok (memoryGrow_ok can), if_neg (by simp only [usizeMax]; omega),
      Prog.bind_ok (load_ok (by rw [Instance.size_grown]; omega)),
      Prog.bind_ok (store_ok _ (by rw [Instance.size_grown]; omega))]
    exact ⟨_, rfl⟩

/-- A free block that fits what is left of the request is taken. -/
theorem ne_none_of_fits (R : Represents m cs) (fits : ∃ b ∈ m.decode, b.Fits (toUsize n))
    {r : Option ℕ} (run : MemoryRoot.alloc n m = (.ok r, m')) : handle r ≠ 0 := by
  have small : toUsize n < 2 ^ 32 := Nat.mod_lt _ (by decide)
  rw [R.alloc_of_fits fits] at run
  obtain ⟨r', m₁, cs', ran, A⟩ := R.alloc_spec small
  rw [ran] at run
  obtain ⟨eq, rfl⟩ := Prod.mk.inj run
  obtain rfl := Except.ok.inj eq
  cases A with
  | carved => simp [handle]
  | appended => simp [handle]
  | grown => simp [handle]
  | refused _ none =>
      rw [R.decode] at fits
      obtain ⟨b, listed, fit⟩ := fits
      obtain ⟨d, placed, rfl⟩ := List.mem_map.1 listed
      exact absurd (Block.fits_ofCell.1 fit) (none d placed)

/-- A request that is not oversized is not refused. -/
theorem ne_none_of_not_oversized (R : Represents m cs) (fits : ¬ Oversized m n) {r : Option ℕ}
    (run : MemoryRoot.alloc n m = (.ok r, m')) : handle r ≠ 0 := by
  by_cases skip : ∀ b ∈ m.decode, ¬ b.Fits (toUsize n)
  · obtain ⟨m₁, made⟩ := R.makeRoom_of_not_oversized fits skip
    rw [R.alloc_of_skip skip made, if_pos rfl] at run
    exact MemoryRoot.append_ne_none run
  · have fits' : ∃ b ∈ m.decode, b.Fits (toUsize n) := by simpa using skip
    exact R.ne_none_of_fits fits' run

/-- An oversized request changes nothing. -/
theorem alloc_of_oversized (R : Represents m cs) (large : Oversized m n) :
    ∃ k, MemoryRoot.alloc n m = (.ok none, m.refused k) :=
  R.alloc_of_refused large.1 large.2.1 large.2.2

end Represents

/-- **When a request of 4 GiB or more is refused**, and nothing changes: exactly
if it is oversized.  The memory a request finds is the one `MemoryRoot::new`
leaves. -/
theorem refused_iff_oversized {c : Config} (reach : confinedRuns.Reachable c) {n : ℕ}
    (large : 2 ^ 32 ≤ n) :
    Refuses (MemoryRoot.new c.kernel).2 c.kernel n ↔
      Oversized (MemoryRoot.new c.kernel).2 n := by
  obtain ⟨cs, S⟩ := sound_of_reachable reach
  have R := S.heap
  rw [MemoryRoot.new_eq S.pages]
  constructor
  · rintro ⟨m', run, -⟩
    rw [alloc, if_neg (by omega), Prog.bind_ok (MemoryRoot.new_eq S.pages)] at run
    obtain ⟨r, m₁, ran, run⟩ := Prog.bind_eq_ok run
    obtain ⟨-, null⟩ := Prog.of_pure run
    by_contra fits
    exact R.ne_none_of_not_oversized fits ran null.symm
  · intro oversized
    obtain ⟨k, eq⟩ := R.alloc_of_oversized oversized
    exact ⟨c.kernel.boot.refused k, alloc_run (by omega) S.pages eq, rfl, rfl,
      (R.refused k).decode.trans R.decode.symm, rfl⟩

/-- A used heap of one page, and a request for 4 GiB exactly. -/
theorem refused_iff_oversized_after_alloc :
    let c := (Config.fresh 1 fun _ => false).after (.alloc 10) 77
    Refuses (MemoryRoot.new c.kernel).2 c.kernel (2 ^ 32) ↔
      Oversized (MemoryRoot.new c.kernel).2 (2 ^ 32) := by
  have reach := (reachable_fresh (Nat.le_refl 1) (by decide) fun _ => false).step
    (confined_of_run (.alloc 10) 77 (by decide) (by decide +kernel))
  exact refused_iff_oversized reach (Nat.le_refl _)

/-- A block of 10 bytes, freed: it is handed out for `2 ^ 32 + 5` bytes. -/
theorem not_every_oversize_request_refused :
    ¬ ∀ c, confinedRuns.Reachable c → ∀ n, 2 ^ 32 ≤ n → n < 2 ^ 64 →
      Refuses (MemoryRoot.new c.kernel).2 c.kernel n := by
  intro always
  have reach := ((reachable_fresh (Nat.le_refl 1) (by decide) fun _ => false).step
    (confined_of_run (.alloc 10) 77 (by decide) (by decide +kernel))).step
    (confined_of_run (.free 77) 0 (by decide) (by decide +kernel))
  obtain ⟨m', run, -⟩ := always _ reach (2 ^ 32 + 5) (by decide) (by decide)
  have handed : (alloc (2 ^ 32 + 5) (((Config.fresh 1 fun _ => false).after (.alloc 10) 77).after
      (.free 77) 0).kernel).1 = .ok 77 := by decide +kernel
  rw [run] at handed
  simp at handed

end Extism.Kernel
