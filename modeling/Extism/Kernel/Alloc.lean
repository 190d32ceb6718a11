import Extism.Kernel.Heap

/-!
# `MemoryRoot::alloc` on a represented heap

What `alloc` does, said once.  On a memory that represents a row of cells it
does one of four things, and each has a name for the instance it leaves:

* a free cell fits, and the first such cell is handed out, split or whole;
* no cell fits and there is room behind the row;
* the memory had to grow, and did;
* it had to grow, and did not.

Each of the four represents the row `Format.grant` yields, and each comes with
the bytes it leaves alone.  The walk is followed cell by cell: it passes those
that do not fit and touches nothing (`walk_skip`), and stops at the first that
does (`walk_found`).

## Main definitions

* `Instance.carved`, `Instance.appended`, `Instance.lengthened` — the instances
  left behind; the fourth is `Instance.refused`.
* `Instance.memLeft`, `Instance.pagesNeeded` — what `alloc` computes on the way.
* `Allocated` — the outcomes.

## Main results

* `numPages_spec` — `num_pages` rounds up.
* `Represents.memLeft_eq` — `mem_left` never underflows.
* `Represents.alloc_spec` — `alloc` completes, with one of the outcomes.
* `Allocated.represents` — `alloc` keeps the heap invariant.
* `Allocated.grant`, `Allocated.held_iff` — `alloc` is first fit, and what is held
  afterwards.
* `Allocated.bytes_eq` — the bytes `alloc` may write.
-/

namespace Extism.Kernel

open FirstFit (Cell Format)

/-! ## The four outcomes -/

namespace Instance

/-- The free cell `c` at `b`, handed out for `n` bytes. -/
def carved (m : Instance) (n b : ℕ) (c : Cell) : Instance :=
  if 128 ≤ c.size - n then
    ((((((m.poke 4 (b + 4) (c.size - n - 12)).poke 4 (b + 8) 0).poke 4
      (b + (c.size - n) + 4) n).poke 4 (b + (c.size - n) + 8) 0).poke 1
      (b + (c.size - n)) 2).poke 4 (b + (c.size - n) + 8) n).poke 1 (b + (c.size - n)) 1
  else (m.poke 4 (b + 8) n).poke 1 b 1

/-- A new block of `n` bytes behind a row of `pos` bytes. -/
def appended (m : Instance) (n pos : ℕ) : Instance :=
  (((m.poke 8 9 (pos + (n + 12))).poke 1 (65 + pos) 1).poke 4 (65 + pos + 4) n).poke 4
    (65 + pos + 8) n

/-- The memory grown by `k` pages, all of them added to `length`. -/
def lengthened (m : Instance) (k : ℕ) : Instance :=
  (m.grown k).poke 8 17 (m.peek 8 17 + k * 65536)

/-- The bytes `alloc` counts as available behind the row. -/
def memLeft (m : Instance) (cs : List Cell) : ℕ :=
  m.peek 8 MemoryRoot.length - heap.extent cs - MemoryRoot.sizeOf

/-- The pages `alloc` asks for to fit a block of `n` bytes. -/
def pagesNeeded (m : Instance) (cs : List Cell) (n : ℕ) : ℕ :=
  numPages (n + 12 - m.memLeft cs)

end Instance

/-- **The outcomes of `alloc`** on a memory with row `cs`: the block handed out,
the instance left behind and its row. -/
inductive Allocated (m : Instance) (n : ℕ) :
    List Cell → Option ℕ → Instance → List Cell → Prop
  /-- The first fitting cell is handed out. -/
  | carved (pre post : List Cell) (c : Cell) (skip : ∀ d ∈ pre, ¬ d.Fits n)
      (fit : c.Fits n) :
      Allocated m n (pre ++ c :: post) (some (65 + heap.extent pre + heap.carveAt n c))
        (m.carved n (65 + heap.extent pre) c) (pre ++ (heap.carve n c fit ++ post))
  /-- Nothing fits; the new block goes behind the row. -/
  | appended (cs : List Cell) (skip : ∀ d ∈ cs, ¬ d.Fits n) (enough : n + 12 < m.memLeft cs) :
      Allocated m n cs (some (65 + heap.extent cs)) (m.appended n (heap.extent cs))
        (cs ++ [.held n n (Nat.le_refl n)])
  /-- Nothing fits, and the memory grows to make room. -/
  | grown (cs : List Cell) (skip : ∀ d ∈ cs, ¬ d.Fits n) (short : m.memLeft cs ≤ n + 12)
      (can : m.CanGrow (m.pagesNeeded cs n)) :
      Allocated m n cs (some (65 + heap.extent cs))
        ((m.lengthened (m.pagesNeeded cs n)).appended n (heap.extent cs))
        (cs ++ [.held n n (Nat.le_refl n)])
  /-- Nothing fits, and the memory does not grow. -/
  | refused (cs : List Cell) (skip : ∀ d ∈ cs, ¬ d.Fits n) (short : m.memLeft cs ≤ n + 12)
      (cannot : ¬ m.CanGrow (m.pagesNeeded cs n)) :
      Allocated m n cs none (m.refused (m.pagesNeeded cs n)) cs

/-! ## Page counts -/

/-- `num_pages` rounds up, as long as the count fits a `usize`. -/
theorem numPages_spec {nbytes : ℕ} (small : nbytes ≤ 65536 * 2 ^ 31) :
    nbytes ≤ numPages nbytes * 65536 ∧ numPages nbytes * 65536 < nbytes + 65536 := by
  simp only [numPages, toUsize, PAGE_SIZE]
  by_cases exact : nbytes % 65536 = 0
  · rw [if_neg (by simpa using exact)]
    omega
  · rw [if_pos exact]
    omega

/-! ## Walking the row -/

namespace MemoryRoot.findFreeBlock

variable {m : Instance} {b : ℕ} {c : Cell}

theorem largeEnough_eq (h : HeaderAt m b c) (inside : b + 12 ≤ m.size) {n : ℕ}
    (small : n < 2 ^ 32) :
    largeEnough n (cellStatus c).code b m = (.ok (decide (c.Fits n)), m) := by
  unfold largeEnough
  by_cases free : c.free = true
  · rw [cellStatus_of_free free, if_pos rfl,
      Prog.bind_ok (load_ok (by simp only [MemoryBlock.size]; omega)), h.size]
    simp [Cell.Fits, free, toUsize_of_lt small]
  · have taken : c.free = false := by simpa using free
    rw [cellStatus_of_held taken, if_neg (by decide)]
    simp [Cell.Fits, free]

theorem nextPtr_eq (h : HeaderAt m b c) (inside : b + 12 ≤ m.size)
    (lt : b + heap.width c < 2 ^ 32) :
    MemoryBlock.nextPtr b m = (.ok (b + heap.width c), m) := by
  simp only [Format.width, MemoryBlock.sizeOf] at *
  rw [MemoryBlock.nextPtr, Prog.bind_ok (load_ok (by simp only [MemoryBlock.size]; omega)),
    h.size, ptrAdd_ok (by simp only [MemoryBlock.data]; omega), MemoryBlock.data, Nat.add_assoc]

/-- The loop passes a run of cells that do not fit, and touches nothing. -/
theorem walk_skip {n limit : ℕ} (small : n < 2 ^ 32) (inside : limit ≤ m.size)
    (addr : limit < 2 ^ 32) (fuel : ℕ) :
    ∀ (pre : List Cell) (a : ℕ), (∀ d ∈ pre, ¬ d.Fits n) →
      (∀ p ∈ heap.place a pre, HeaderAt m p.1 p.2) → a + heap.extent pre ≤ limit →
      walk n limit (fuel + pre.length) a m = walk n limit fuel (a + heap.extent pre) m := by
  intro pre
  induction pre with
  | nil => intro a _ _ _; simp
  | cons d pre ih =>
      intro a skip headers le
      simp only [Format.place_cons, List.mem_cons, forall_eq_or_imp] at headers
      simp only [Format.extent_cons] at le
      have widthPos : 12 ≤ heap.width d := by simp [Format.width]
      have header := headers.1
      have noFit : ¬ d.Fits n := skip d List.mem_cons_self
      rw [List.length_cons, ← Nat.add_assoc, walk, if_pos (by omega),
        Prog.bind_ok (load_ok (by simp only [MemoryBlock.status]; omega)), header.status,
        if_neg (by unfold cellStatus; split <;> simp),
        Prog.bind_ok (largeEnough_eq header (by omega) small), if_neg (by simpa using noFit),
        Prog.bind_ok (nextPtr_eq header (by omega) (by omega)),
        ih _ (fun e mem => skip e (List.mem_cons_of_mem _ mem)) headers.2 (by omega)]
      rw [Format.extent_cons, Nat.add_assoc]

theorem walk_done {n limit fuel : ℕ} : walk n limit fuel limit m = (.ok none, m) := by
  cases fuel <;> simp [walk]

/-- The loop stops at the first cell that fits and takes it. -/
theorem walk_found {n limit fuel : ℕ} (small : n < 2 ^ 32) (h : HeaderAt m b c)
    (inside : b + 12 ≤ m.size) (lt : b < limit) (fit : c.Fits n) :
    walk n limit (fuel + 1) b m = take n b m := by
  rw [walk, if_pos lt, Prog.bind_ok (load_ok (by simp only [MemoryBlock.status]; omega)),
    h.status, if_neg (by unfold cellStatus; split <;> simp),
    Prog.bind_ok (largeEnough_eq h inside small), if_pos (by simpa using fit)]

theorem take_whole {n : ℕ} (small : n < 2 ^ 32) (h : HeaderAt m b c)
    (inside : b + 12 ≤ m.size) (fit : c.Fits n) (tight : ¬ 128 ≤ c.size - n) :
    take n b m = (.ok (some b), m) := by
  have le := fit.2
  have bound := m.peek_lt 4 (MemoryBlock.size b)
  rw [h.size] at bound
  rw [take, Prog.bind_ok (load_ok (by simp only [MemoryBlock.size]; omega)), h.size, if_neg]
  · rfl
  · rw [toUsize_of_lt small, subUsize]
    omega

/-- The instance `take` leaves when it splits: both headers free. -/
theorem take_split {n : ℕ} (small : n < 2 ^ 32) (h : HeaderAt m b c)
    (inside : b + heap.width c ≤ m.size) (lt : b + heap.width c < 2 ^ 32) (fit : c.Fits n)
    (loose : 128 ≤ c.size - n) :
    take n b m = (.ok (some (b + (c.size - n))),
      ((((m.poke 4 (b + 4) (c.size - n - 12)).poke 4 (b + 8) 0).poke 4
        (b + (c.size - n) + 4) n).poke 4 (b + (c.size - n) + 8) 0).poke 1
        (b + (c.size - n)) 2) := by
  have le := fit.2
  have bound := m.peek_lt 4 (MemoryBlock.size b)
  rw [h.size] at bound
  simp only [Format.width, MemoryBlock.sizeOf] at inside lt
  have cut : subUsize c.size n = c.size - n := by
    simp only [subUsize]
    omega
  have rest : subUsize c.size (addUsize n MemoryBlock.sizeOf) = c.size - n - 12 := by
    simp only [subUsize, addUsize, MemoryBlock.sizeOf]
    omega
  rw [take, toUsize_of_lt small, Prog.bind_ok (load_ok (by simp only [MemoryBlock.size]; omega)),
    h.size, cut, if_pos loose, rest]
  simp only [MemoryBlock.size, MemoryBlock.used, MemoryBlock.data, MemoryBlock.status,
    MemoryStatus.code]
  rw [Prog.bind_ok (store_ok _ (by omega)), Prog.bind_ok (store_ok _ (by simp; omega)),
    Prog.bind_ok (load_ok (by simp; omega)),
    Instance.peek_splice_of_disjoint _ _ (.inl (by omega)),
    Instance.peek_poke_of_lt _ (by omega),
    Prog.bind_ok (ptrAdd_ok (by omega) _),
    show b + 12 + (c.size - n - 12) = b + (c.size - n) by omega,
    Prog.bind_ok (store_ok _ (by simp; omega)), Prog.bind_ok (store_ok _ (by simp; omega)),
    Prog.bind_ok (store_ok _ (by simp; omega))]
  rfl

end MemoryRoot.findFreeBlock

/-- The pages asked for are enough. -/
theorem Instance.pagesNeeded_spec {m : Instance} {cs : List Cell} {n : ℕ}
    (small : n < 2 ^ 32) : n + 12 ≤ m.memLeft cs + m.pagesNeeded cs n * 65536 := by
  have := (numPages_spec (show n + 12 - m.memLeft cs ≤ 65536 * 2 ^ 31 by omega)).1
  simp only [Instance.pagesNeeded]
  omega

/-! ### The instance a hand-out leaves -/

namespace Instance

variable {m : Instance} {n b : ℕ} {c : Cell}

@[simp] theorem pages_carved : (m.carved n b c).pages = m.pages := by
  unfold carved
  split <;> rfl

@[simp] theorem grows_carved : (m.carved n b c).grows = m.grows := by
  unfold carved
  split <;> rfl

/-- A hand-out writes inside the cell it hands out. -/
theorem bytes_carved_of_notMem (fit : c.Fits n) {x : ℕ} (out : x < b ∨ b + 12 + c.size ≤ x) :
    (m.carved n b c).bytes x = m.bytes x := by
  have le := fit.2
  unfold carved
  split
  all_goals simp (disch := omega) only [bytes_splice_of_notMem]

/-- The headers of the cells `Format.carve` describes. -/
theorem headerAt_carved (header : HeaderAt m b c) (small : n < 2 ^ 32) (fit : c.Fits n)
    {a : ℕ} {d : Cell} (mem : (a, d) ∈ heap.place b (heap.carve n c fit)) :
    HeaderAt (m.carved n b c) a d := by
  have le := fit.2
  have bound := m.peek_lt 4 (MemoryBlock.size b)
  rw [header.size] at bound
  unfold Format.carve at mem
  unfold carved
  split at mem
  case isTrue loose =>
    rw [if_pos loose]
    have loose : 128 ≤ c.size - n := loose
    simp only [Format.place_cons, Format.place_nil, List.mem_cons, Prod.mk.injEq,
      List.not_mem_nil, or_false, Format.width, Cell.vacant_size, MemoryBlock.sizeOf] at mem
    rcases mem with ⟨rfl, rfl⟩ | ⟨rfl, rfl⟩
    · constructor
      · simp only [MemoryBlock.status, cellStatus_vacant, MemoryStatus.code]
        simp (disch := omega) only [peek_splice_of_disjoint]
        have status := header.status
        rw [cellStatus_of_free fit.1] at status
        exact status
      all_goals
        simp only [MemoryBlock.size, MemoryBlock.used, Cell.vacant_size, Cell.vacant_used]
        simp (disch := omega) only [peek_splice_of_disjoint, peek_poke_of_lt]
    · rw [show b + (12 + (c.size - n - 12)) = b + (c.size - n) by omega]
      constructor
      all_goals
        simp only [MemoryBlock.status, MemoryBlock.size, MemoryBlock.used, cellStatus_held,
          MemoryStatus.code, Cell.held_size, Cell.held_used]
        simp (disch := omega) only [peek_splice_of_disjoint, peek_poke_of_lt]
  case isFalse tight =>
    rw [if_neg tight]
    simp only [Format.place_cons, Format.place_nil, List.mem_singleton, Prod.mk.injEq] at mem
    obtain ⟨rfl, rfl⟩ := mem
    constructor
    · simp only [MemoryBlock.status, cellStatus_held, MemoryStatus.code]
      exact peek_poke_of_lt _ (by decide)
    · simp only [MemoryBlock.size, Cell.held_size]
      simp (disch := omega) only [peek_splice_of_disjoint]
      exact header.size
    · simp only [MemoryBlock.used, Cell.held_used]
      simp (disch := omega) only [peek_splice_of_disjoint, peek_poke_of_lt]

/-! ### The instance an append leaves -/

variable {pos : ℕ}

@[simp] theorem pages_appended : (m.appended n pos).pages = m.pages := rfl

@[simp] theorem size_appended : (m.appended n pos).size = m.size := rfl

@[simp] theorem grows_appended : (m.appended n pos).grows = m.grows := rfl

/-- An append writes `position` and the header of the new block. -/
theorem bytes_appended_of_notMem {x : ℕ}
    (out : x < 9 ∨ (17 ≤ x ∧ x < 65 + pos) ∨ 65 + pos + 12 ≤ x) :
    (m.appended n pos).bytes x = m.bytes x := by
  unfold appended
  simp (disch := omega) only [bytes_splice_of_notMem]

theorem peek_appended_of_disjoint {k a : ℕ}
    (out : a + k ≤ 9 ∨ (17 ≤ a ∧ a + k ≤ 65 + pos) ∨ 65 + pos + 12 ≤ a) :
    (m.appended n pos).peek k a = m.peek k a :=
  peek_congr fun _ _ _ => bytes_appended_of_notMem (by omega)

theorem peek_position_appended (lt : pos + (n + 12) < 2 ^ 64) :
    (m.appended n pos).peek 8 MemoryRoot.position = pos + (n + 12) := by
  rw [appended, MemoryRoot.position]
  simp (disch := omega) only [peek_splice_of_disjoint]
  exact peek_poke_of_lt _ (by omega)

/-- The header of the new block. -/
theorem headerAt_appended (small : n < 2 ^ 32) :
    HeaderAt (m.appended n pos) (65 + pos) (.held n n (Nat.le_refl n)) := by
  unfold appended
  constructor
  all_goals
    simp only [MemoryBlock.status, MemoryBlock.size, MemoryBlock.used, cellStatus_held,
      MemoryStatus.code, Cell.held_size, Cell.held_used]
    simp (disch := omega) only [peek_splice_of_disjoint, peek_poke_of_lt]

/-! ### The instance a grow leaves -/

@[simp] theorem pages_lengthened (k : ℕ) : (m.lengthened k).pages = m.pages + k := rfl

@[simp] theorem grows_lengthened (k : ℕ) :
    (m.lengthened k).grows = m.grows ++ [(k, true)] := rfl

@[simp] theorem size_lengthened (k : ℕ) : (m.lengthened k).size = m.size + 65536 * k := by
  rw [lengthened, size_splice, size_grown]

/-- Growing through `alloc` keeps the old bytes other than `length`. -/
theorem bytes_lengthened_of_lt {k x : ℕ} (lt : x < m.size) (out : x < 17 ∨ 25 ≤ x) :
    (m.lengthened k).bytes x = m.bytes x := by
  rw [lengthened, bytes_splice_of_notMem _ _ out, bytes_grown_of_lt _ _ lt]

/-- The new bytes are zero. -/
theorem bytes_lengthened_of_ge {k x : ℕ} (ge : m.size ≤ x) (lt : x < m.size + 65536 * k)
    (out : 25 ≤ x) : (m.lengthened k).bytes x = 0 := by
  rw [lengthened, bytes_splice_of_notMem _ _ (.inr out), bytes_grown_of_ge _ ge lt]

theorem peek_lengthened_of_le {k j a : ℕ} (inside : a + j ≤ m.size)
    (out : a + j ≤ 17 ∨ 25 ≤ a) : (m.lengthened k).peek j a = m.peek j a :=
  peek_congr fun _ _ _ => bytes_lengthened_of_lt (by omega) (by omega)

theorem peek_length_lengthened {k : ℕ}
    (lt : m.peek 8 MemoryRoot.length + k * 65536 < 2 ^ 64) :
    (m.lengthened k).peek 8 MemoryRoot.length = m.peek 8 MemoryRoot.length + k * 65536 := by
  rw [lengthened, MemoryRoot.length] at *
  exact peek_poke_of_lt _ (by omega)

end Instance

/-! ## `alloc` -/

namespace Represents

variable {m : Instance} {cs : List Cell} {n : ℕ}

/-- The root fields are inside the memory. -/
theorem root_le (R : Represents m cs) {k a : ℕ} (le : a + k ≤ 65) : a + k ≤ m.size := by
  have := R.extent_le
  omega

/-- A row in which nothing fits is walked to its end. -/
theorem findFreeBlock_none (R : Represents m cs) (small : n < 2 ^ 32)
    (skip : ∀ d ∈ cs, ¬ d.Fits n) :
    MemoryRoot.findFreeBlock n (heap.extent cs) m = (.ok none, m) := by
  have extent := R.extent_le
  have size := R.size_le
  have len := Format.length_le_extent (F := heap) cs
  have limit : addU64 MemoryRoot.blocks (heap.extent cs) = 65 + heap.extent cs := by
    simp only [addU64, MemoryRoot.blocks]
    omega
  rw [MemoryRoot.findFreeBlock, limit,
    show heap.extent cs = (heap.extent cs - cs.length) + cs.length by omega,
    MemoryRoot.findFreeBlock.walk_skip small (by omega) (by omega) _ cs _ skip R.headers
      (by simp only [MemoryRoot.blocks]; omega),
    show 65 + (heap.extent cs - cs.length + cs.length) = 65 + heap.extent cs by omega]
  exact MemoryRoot.findFreeBlock.walk_done

/-- A row with a fitting cell is walked up to the first one. -/
theorem findFreeBlock_found {pre post : List Cell} {c : Cell}
    (R : Represents m (pre ++ c :: post)) (small : n < 2 ^ 32)
    (skip : ∀ d ∈ pre, ¬ d.Fits n) (fit : c.Fits n) :
    MemoryRoot.findFreeBlock n (heap.extent (pre ++ c :: post)) m =
      MemoryRoot.findFreeBlock.take n (65 + heap.extent pre) m := by
  have extent := R.extent_le
  have size := R.size_le
  have len := Format.length_le_extent (F := heap) pre
  have headers := R.headers
  simp only [Format.place_append, List.mem_append, Format.place_cons, List.mem_cons] at headers
  simp only [Format.extent_append, Format.extent_cons, Format.width, MemoryBlock.sizeOf] at *
  have limit : addU64 MemoryRoot.blocks (heap.extent pre + (12 + c.size + heap.extent post)) =
      65 + (heap.extent pre + (12 + c.size + heap.extent post)) := by
    simp only [addU64, MemoryRoot.blocks]
    omega
  rw [MemoryRoot.findFreeBlock, limit]
  obtain ⟨fuel, enough⟩ : ∃ fuel, heap.extent pre + (12 + c.size + heap.extent post) =
      fuel + 1 + pre.length :=
    ⟨heap.extent pre + (12 + c.size + heap.extent post) - 1 - pre.length, by omega⟩
  rw [show MemoryRoot.findFreeBlock.walk n
      (65 + (heap.extent pre + (12 + c.size + heap.extent post)))
      (heap.extent pre + (12 + c.size + heap.extent post)) MemoryRoot.blocks =
    MemoryRoot.findFreeBlock.walk n
      (65 + (heap.extent pre + (12 + c.size + heap.extent post))) (fuel + 1 + pre.length)
      MemoryRoot.blocks by rw [← enough],
    MemoryRoot.findFreeBlock.walk_skip small (by omega) (by omega) _ pre _ skip
      (fun p mem => headers p (.inl mem)) (by simp only [MemoryRoot.blocks]; omega)]
  exact MemoryRoot.findFreeBlock.walk_found small (headers _ (.inr (.inl rfl)))
    (by simp only [MemoryRoot.blocks]; omega) (by simp only [MemoryRoot.blocks]; omega) fit

/-- The walk hands out the cell's header, split off or in place, and leaves the
hand-out itself to its caller. -/
theorem findFreeBlock_carved {pre post : List Cell} {c : Cell}
    (R : Represents m (pre ++ c :: post)) (small : n < 2 ^ 32)
    (skip : ∀ d ∈ pre, ¬ d.Fits n) (fit : c.Fits n) :
    ∃ m₁, MemoryRoot.findFreeBlock n (heap.extent (pre ++ c :: post)) m =
        (.ok (some (65 + heap.extent pre + heap.carveAt n c)), m₁) ∧ m₁.size = m.size ∧
      m.carved n (65 + heap.extent pre) c =
        (m₁.poke 4 (65 + heap.extent pre + heap.carveAt n c + 8) n).poke 1
          (65 + heap.extent pre + heap.carveAt n c) 1 := by
  have extent := R.extent_le
  have size := R.size_le
  have header : HeaderAt m (65 + heap.extent pre) c :=
    R.header (by simp [Format.place_append])
  simp only [Format.extent_append, Format.extent_cons, Format.width, MemoryBlock.sizeOf]
    at extent
  rw [R.findFreeBlock_found small skip fit, Format.carveAt, Instance.carved]
  split
  case isTrue loose =>
    exact ⟨_, MemoryRoot.findFreeBlock.take_split small header
      (by simp only [Format.width, MemoryBlock.sizeOf]; omega)
      (by simp only [Format.width, MemoryBlock.sizeOf]; omega) fit loose, rfl, rfl⟩
  case isFalse tight =>
    exact ⟨m, MemoryRoot.findFreeBlock.take_whole small header (by omega) fit tight, rfl, rfl⟩

/-- A fitting cell is handed out, split or whole. -/
theorem alloc_carved {pre post : List Cell} {c : Cell}
    (R : Represents m (pre ++ c :: post)) (small : n < 2 ^ 32)
    (skip : ∀ d ∈ pre, ¬ d.Fits n) (fit : c.Fits n) :
    MemoryRoot.alloc n m =
      (.ok (some (65 + heap.extent pre + heap.carveAt n c)),
        m.carved n (65 + heap.extent pre) c) := by
  have extent := R.extent_le
  have le := fit.2
  obtain ⟨m₁, walk, size₁, eq⟩ := R.findFreeBlock_carved small skip fit
  simp only [Format.extent_append, Format.extent_cons, Format.width, MemoryBlock.sizeOf]
    at extent
  have room : heap.carveAt n c + 12 ≤ 12 + c.size := by
    unfold Format.carveAt
    split <;> omega
  rw [eq, MemoryRoot.alloc, Prog.bind_ok (load_ok (R.root_le (by decide))),
    Prog.bind_ok (load_ok (R.root_le (by decide))), R.position, Prog.bind_ok walk,
    MemoryRoot.alloc.place, MemoryRoot.alloc.reuse, toUsize_of_lt small,
    Prog.bind_ok (store_ok _ (by simp only [MemoryBlock.used]; omega)),
    Prog.bind_ok (store_ok _ (by simp only [MemoryBlock.status, Instance.size_splice]; omega))]
  rfl

theorem length_lt (R : Represents m cs) : m.peek 8 MemoryRoot.length < 2 ^ 32 := by
  have := R.fits
  have := R.size_le
  simp only [MemoryRoot.sizeOf] at *
  omega

/-- `mem_left` never underflows. -/
theorem memLeft_eq (R : Represents m cs) :
    subU64 (subU64 (m.peek 8 MemoryRoot.length) (heap.extent cs)) MemoryRoot.sizeOf =
      m.memLeft cs := by
  have room := R.room
  have lt := R.length_lt
  simp only [Instance.memLeft, subU64, MemoryRoot.sizeOf] at *
  omega

/-- A memory grown through `alloc` still represents its row. -/
theorem lengthened (R : Represents m cs) {k : ℕ} (can : m.CanGrow k) :
    Represents (m.lengthened k) cs := by
  have extent := R.extent_le
  have lt := R.length_lt
  have root := R.fits
  have pages := can.2
  have grown : (m.lengthened k).peek 8 MemoryRoot.length =
      m.peek 8 MemoryRoot.length + k * 65536 := by
    refine Instance.peek_length_lengthened ?_
    simp only [MAX_PAGES] at pages
    omega
  constructor
  · rw [Instance.peek_lengthened_of_le (R.root_le (by decide)) (.inl (by decide))]
    exact R.initialized
  · rwa [Instance.pages_lengthened]
  · rw [Instance.peek_lengthened_of_le (R.root_le (by decide)) (.inl (by decide))]
    exact R.position
  · rintro ⟨b, c⟩ mem
    have inside := Format.place_bounds mem
    simp only [Format.width, MemoryBlock.sizeOf, MemoryRoot.blocks] at inside
    exact (R.header mem).congr fun x lo hi =>
      Instance.bytes_lengthened_of_lt (by omega) (.inr (by omega))
  · rw [grown]
    exact Nat.le_add_right_of_le R.room
  · rw [grown, Instance.size_lengthened]
    omega
  · intro x lo hi
    rw [Instance.size_lengthened] at hi
    have beyond : 25 ≤ x := by
      simp only [MemoryRoot.blocks] at lo
      omega
    by_cases old : x < m.size
    · rw [Instance.bytes_lengthened_of_lt old (.inr beyond)]
      exact R.zero x lo old
    · exact Instance.bytes_lengthened_of_ge (Nat.le_of_not_lt old) hi beyond

/-- Making room: nothing to do, a grow, or a refusal. -/
theorem makeRoom_eq (R : Represents m cs) (small : n < 2 ^ 32) :
    MemoryRoot.alloc.makeRoom n (heap.extent cs) (m.peek 8 MemoryRoot.length) m =
      if m.memLeft cs ≤ n + 12 then
        if m.CanGrow (m.pagesNeeded cs n) then
          (.ok true, m.lengthened (m.pagesNeeded cs n))
        else (.ok false, m.refused (m.pagesNeeded cs n))
      else (.ok true, m) := by
  have extent := R.extent_le
  have lt := R.length_lt
  have withBlock : addU64 n MemoryBlock.sizeOf = n + 12 := by
    simp only [addU64, MemoryBlock.sizeOf]
    omega
  rw [MemoryRoot.alloc.makeRoom, R.memLeft_eq, withBlock, Prog.ite_apply]
  split
  case isFalse => rfl
  case isTrue short =>
    have needed : numPages (subU64 (n + 12) (m.memLeft cs)) = m.pagesNeeded cs n := by
      rw [Instance.pagesNeeded, show subU64 (n + 12) (m.memLeft cs) = n + 12 - m.memLeft cs by
        simp only [subU64]
        omega]
    rw [needed]
    split
    case isFalse cannot =>
      rw [Prog.bind_ok (memoryGrow_refused cannot), if_pos rfl]
      rfl
    case isTrue can =>
      have pages := can.2
      have old := R.fits
      simp only [MAX_PAGES, MemoryRoot.length] at pages old lt
      rw [Prog.bind_ok (memoryGrow_ok can), if_neg (by simp only [usizeMax]; omega),
        Prog.bind_ok (load_ok (by simp; omega)),
        Instance.peek_grown_of_le _ _ (by simp; omega),
        Prog.bind_ok (store_ok _ (by simp; omega)),
        show addU64 (m.peek 8 MemoryRoot.length) (m.pagesNeeded cs n * PAGE_SIZE) =
          m.peek 8 17 + m.pagesNeeded cs n * 65536 by
            simp only [addU64, PAGE_SIZE, MemoryRoot.length]
            omega]
      rfl

/-- Writing the new block. -/
theorem append_eq (R : Represents m cs) (small : n < 2 ^ 32)
    (room : heap.extent cs + 12 + n + 64 ≤ m.peek 8 MemoryRoot.length) :
    MemoryRoot.alloc.append n (heap.extent cs) m =
      (.ok (some (65 + heap.extent cs)), m.appended n (heap.extent cs)) := by
  have fits := R.fits
  have size := R.size_le
  simp only [MemoryRoot.sizeOf, MemoryRoot.length] at fits room
  have bump : addU64 (heap.extent cs) (addU64 n MemoryBlock.sizeOf) =
      heap.extent cs + (n + 12) := by
    simp only [addU64, MemoryBlock.sizeOf]
    omega
  have block : toUsize (addU64 MemoryRoot.blocks (heap.extent cs)) = 65 + heap.extent cs := by
    simp only [toUsize, addU64, MemoryRoot.blocks]
    omega
  rw [MemoryRoot.alloc.append, block, Prog.bind_ok (load_ok (R.root_le (by decide))), R.position,
    bump, toUsize_of_lt small, Prog.bind_ok (store_ok _ (R.root_le (by decide))),
    Prog.bind_ok (store_ok _ (by simp; omega)), Prog.bind_ok (store_ok _ (by simp; omega)),
    Prog.bind_ok (store_ok _ (by simp; omega))]
  rfl

/-- There is room behind the row, on either way to it. -/
theorem room_of_enough (R : Represents m cs) (enough : n + 12 < m.memLeft cs) :
    heap.extent cs + 12 + n + 64 ≤ m.peek 8 MemoryRoot.length := by
  have := R.room
  simp only [Instance.memLeft, MemoryRoot.sizeOf] at *
  omega

theorem room_of_grown (R : Represents m cs) (small : n < 2 ^ 32)
    (can : m.CanGrow (m.pagesNeeded cs n)) :
    heap.extent cs + 12 + n + 64 ≤
      (m.lengthened (m.pagesNeeded cs n)).peek 8 MemoryRoot.length := by
  have enough := @Instance.pagesNeeded_spec m cs n small
  have room := R.room
  have lt := R.length_lt
  have pages := can.2
  rw [Instance.lengthened, Instance.peek_poke_of_lt _ (by
    simp only [MAX_PAGES, MemoryRoot.length] at *
    omega)]
  simp only [Instance.memLeft, MemoryRoot.sizeOf, MemoryRoot.length] at *
  omega

/-- `alloc` on a row where nothing fits, once the room is there or is not. -/
theorem alloc_of_makeRoom (R : Represents m cs) (small : n < 2 ^ 32)
    (skip : ∀ d ∈ cs, ¬ d.Fits n) {room : Bool} {m' : Instance}
    (made : MemoryRoot.alloc.makeRoom n (heap.extent cs) (m.peek 8 MemoryRoot.length) m =
      (.ok room, m')) :
    MemoryRoot.alloc n m =
      (if room then MemoryRoot.alloc.append n (heap.extent cs) else pure none) m' := by
  rw [MemoryRoot.alloc, Prog.bind_ok (load_ok (R.root_le (by decide))),
    Prog.bind_ok (load_ok (R.root_le (by decide))), R.position,
    Prog.bind_ok (R.findFreeBlock_none small skip), MemoryRoot.alloc.place, Prog.bind_ok made]

/-- `alloc` completes, with one of the four outcomes. -/
theorem alloc_spec (R : Represents m cs) (small : n < 2 ^ 32) :
    ∃ (r : Option ℕ) (m' : Instance) (cs' : List Cell),
      MemoryRoot.alloc n m = (.ok r, m') ∧ Allocated m n cs r m' cs' := by
  rcases Format.fits_cases n cs with skip | ⟨pre, post, c, rfl, skip, fit⟩
  · have made := R.makeRoom_eq small
    by_cases short : m.memLeft cs ≤ n + 12
    · rw [if_pos short] at made
      by_cases can : m.CanGrow (m.pagesNeeded cs n)
      · rw [if_pos can] at made
        exact ⟨_, _, _, (R.alloc_of_makeRoom small skip made).trans
          ((R.lengthened can).append_eq small (R.room_of_grown small can)),
          .grown cs skip short can⟩
      · rw [if_neg can] at made
        exact ⟨_, _, _, R.alloc_of_makeRoom small skip made, .refused cs skip short can⟩
    · rw [if_neg short] at made
      exact ⟨_, _, _, (R.alloc_of_makeRoom small skip made).trans
        (R.append_eq small (R.room_of_enough (by omega))), .appended cs skip (by omega)⟩
  · exact ⟨_, _, _, R.alloc_carved small skip fit, .carved pre post c skip fit⟩

/-! ### The row after an allocation -/

/-- A split or whole hand-out leaves the row `Format.carve` describes. -/
theorem carved {pre post : List Cell} {c : Cell} (R : Represents m (pre ++ c :: post))
    (small : n < 2 ^ 32) (fit : c.Fits n) :
    Represents (m.carved n (65 + heap.extent pre) c)
      (pre ++ (heap.carve n c fit ++ post)) := by
  have extent := R.extent_le
  have size := R.size_le
  have le := fit.2
  simp only [Format.extent_append, Format.extent_cons, Format.width, MemoryBlock.sizeOf]
    at extent
  have same : heap.extent (pre ++ (heap.carve n c fit ++ post)) =
      heap.extent (pre ++ c :: post) := by
    simp only [Format.extent_append, Format.extent_cons, Format.extent_carve]
  -- nothing outside the cell changes
  have outside : ∀ x, x < 65 + heap.extent pre ∨ 65 + heap.extent pre + 12 + c.size ≤ x →
      (m.carved n (65 + heap.extent pre) c).bytes x = m.bytes x :=
    fun x out => Instance.bytes_carved_of_notMem fit out
  have word : ∀ k a, a + k ≤ 65 →
      (m.carved n (65 + heap.extent pre) c).peek k a = m.peek k a :=
    fun k a le => Instance.peek_congr fun x _ hi => outside x (.inl (by omega))
  have pages : (m.carved n (65 + heap.extent pre) c).pages = m.pages := Instance.pages_carved
  have sizeEq : (m.carved n (65 + heap.extent pre) c).size = m.size := by
    rw [Instance.size, pages, Instance.size]
  constructor
  · rw [word 1 _ (by decide), R.initialized]
  · rw [pages]
    exact R.pages_le
  · rw [word 8 _ (by decide), same, R.position]
  · rintro ⟨b, d⟩ mem
    simp only [Format.place_append, List.mem_append, Format.extent_carve] at mem
    rcases mem with mem | mem | mem
    · have inside := Format.place_bounds mem
      simp only [Format.width, MemoryBlock.sizeOf, MemoryRoot.blocks] at inside
      refine (R.header (by simp [Format.place_append, mem])).congr fun x lo hi => ?_
      exact outside x (.inl (by omega))
    · exact Instance.headerAt_carved (R.header (by simp [Format.place_append])) small fit mem
    · have inside := Format.place_bounds mem
      simp only [Format.width, MemoryBlock.sizeOf, MemoryRoot.blocks] at inside
      refine (R.header (by
        simp only [Format.place_append, Format.place_cons, List.mem_append, List.mem_cons]
        exact .inr (.inr mem))).congr fun x lo hi => ?_
      exact outside x (.inr (by omega))
  · rw [word 8 _ (by decide), same]
    exact R.room
  · rw [word 8 _ (by decide), sizeEq]
    exact R.fits
  · intro x lo hi
    rw [same] at lo
    rw [sizeEq] at hi
    rw [outside x (.inr (by
      simp only [Format.extent_append, Format.extent_cons, Format.width, MemoryBlock.sizeOf,
        MemoryRoot.blocks] at lo
      omega))]
    exact R.zero x lo hi

/-- A refused grow changes nothing. -/
theorem refused (R : Represents m cs) (k : ℕ) : Represents (m.refused k) cs :=
  R.congr (fun _ _ _ => rfl) (fun _ _ _ => .inl rfl) rfl

/-- A row with a block appended. -/
theorem appended (R : Represents m cs) (small : n < 2 ^ 32)
    (room : heap.extent cs + 12 + n + 64 ≤ m.peek 8 MemoryRoot.length) :
    Represents (m.appended n (heap.extent cs)) (cs ++ [.held n n (Nat.le_refl n)]) := by
  have fits := R.fits
  have size := R.size_le
  simp only [MemoryRoot.sizeOf, MemoryRoot.length] at fits room
  have extent : heap.extent (cs ++ [.held n n (Nat.le_refl n)]) = heap.extent cs + (n + 12) := by
    simp only [Format.extent_append, Format.extent_cons, Format.extent_nil, Format.width,
      Cell.held_size, MemoryBlock.sizeOf]
    omega
  constructor
  · rw [MemoryRoot.initialized, Instance.peek_appended_of_disjoint (.inl (by decide))]
    exact R.initialized
  · exact R.pages_le
  · rw [extent]
    exact Instance.peek_position_appended (by omega)
  · rintro ⟨b, c⟩ mem
    rw [Format.place_append, List.mem_append] at mem
    rcases mem with mem | mem
    · have inside := Format.place_bounds mem
      simp only [Format.width, MemoryBlock.sizeOf, MemoryRoot.blocks] at inside
      exact (R.header mem).congr fun x lo hi => Instance.bytes_appended_of_notMem (by omega)
    · simp only [Format.place_cons, Format.place_nil, List.mem_singleton, Prod.mk.injEq,
        MemoryRoot.blocks] at mem
      obtain ⟨rfl, rfl⟩ := mem
      exact Instance.headerAt_appended small
  · rw [extent, MemoryRoot.length, MemoryRoot.sizeOf,
      Instance.peek_appended_of_disjoint (by omega)]
    omega
  · rw [MemoryRoot.length, Instance.peek_appended_of_disjoint (by omega)]
    exact R.fits
  · intro x lo hi
    rw [extent] at lo
    simp only [MemoryRoot.blocks] at lo
    rw [Instance.bytes_appended_of_notMem (by omega)]
    exact R.zero x (by simp only [MemoryRoot.blocks]; omega) hi

end Represents

/-! ## What follows from an outcome -/

namespace Allocated

variable {m m' : Instance} {n b : ℕ} {r : Option ℕ} {cs cs' : List Cell}

/-- **`alloc` keeps the heap invariant.** -/
theorem represents (A : Allocated m n cs r m' cs') (R : Represents m cs) (small : n < 2 ^ 32) :
    Represents m' cs' := by
  cases A with
  | carved pre post c skip fit => exact R.carved small fit
  | appended _ skip enough => exact R.appended small (R.room_of_enough enough)
  | grown _ skip short can =>
      exact (R.lengthened can).appended small (R.room_of_grown small can)
  | refused _ skip short cannot => exact R.refused _

/-- **`alloc` is first fit.** -/
theorem grant (A : Allocated m n cs (some b) m' cs') :
    heap.grant n MemoryRoot.blocks cs = (b, cs') := by
  cases A with
  | carved pre post c skip fit => exact Format.grant_of_fits skip fit
  | appended _ skip _ => exact Format.grant_of_none skip
  | grown _ skip _ _ => exact Format.grant_of_none skip

/-- What is held afterwards: the new block, at an address where none was. -/
theorem held_iff (A : Allocated m n cs (some b) m' cs') {b' k : ℕ} :
    heap.Held MemoryRoot.blocks cs' b' k ↔
      heap.Held MemoryRoot.blocks cs b' k ∨ (b' = b ∧ n = k) := by
  have iff := @Format.held_grant heap n MemoryRoot.blocks b' k cs
  rwa [A.grant] at iff

theorem not_held (A : Allocated m n cs (some b) m' cs') (k : ℕ) :
    ¬ heap.Held MemoryRoot.blocks cs b k := by
  have none := @Format.not_held_grant heap n MemoryRoot.blocks k cs
  rwa [A.grant] at none

theorem refused_row (A : Allocated m n cs none m' cs') : cs' = cs := by
  cases A
  rfl

theorem pages_le (A : Allocated m n cs r m' cs') : m.pages ≤ m'.pages := by
  cases A with
  | carved => simp
  | appended => simp
  | grown => simp
  | refused => simp

theorem size_le (A : Allocated m n cs r m' cs') : m.size ≤ m'.size := by
  have := A.pages_le
  simp only [Instance.size, PAGE_SIZE]
  omega

/-- The bytes `alloc` may write: `position`, `length`, and beyond the root only
what is no data of a held block. -/
theorem bytes_eq (A : Allocated m n cs r m' cs') (R : Represents m cs) {x : ℕ}
    (lt : x < MemoryRoot.blocks + heap.extent cs)
    (out : x < 9 ∨ (25 ≤ x ∧ x < 65) ∨
      ∃ b k, heap.Held MemoryRoot.blocks cs b k ∧ b + 12 ≤ x ∧ x < b + 12 + k) :
    m'.bytes x = m.bytes x := by
  have extent := R.extent_le
  -- data of a held block is inside the row
  have cases : x < 9 ∨ (25 ≤ x ∧ x < 65 + heap.extent cs) := by
    rcases out with lo | mid | ⟨b, k, held, lo, hi⟩
    · exact .inl lo
    · exact .inr (by omega)
    · have := held.bounds
      simp only [MemoryBlock.sizeOf, MemoryRoot.blocks] at this
      exact .inr (by omega)
  simp only [MemoryRoot.blocks] at lt
  cases A with
  | carved pre post c skip fit =>
      refine Instance.bytes_carved_of_notMem fit ?_
      rcases out with lo | mid | ⟨b, k, held, lo, hi⟩
      · exact .inl (by omega)
      · exact .inl (by omega)
      · -- the cell handed out is free, so the held block is another one
        obtain ⟨d, mem, taken, rfl⟩ := held
        have le := d.used_le taken
        have here : (65 + heap.extent pre, c) ∈ heap.place 65 (pre ++ c :: post) := by
          simp [Format.place_append]
        rcases Format.place_apart mem here with ⟨-, rfl⟩ | before | after
        · exact absurd fit.1 (by simp [taken])
        · simp only [Format.width, MemoryBlock.sizeOf] at before
          exact .inl (by omega)
        · simp only [Format.width, MemoryBlock.sizeOf] at after
          exact .inr (by omega)
  | appended _ skip enough => exact Instance.bytes_appended_of_notMem (by omega)
  | grown _ skip short can =>
      rw [Instance.bytes_appended_of_notMem (by omega)]
      exact Instance.bytes_lengthened_of_lt (by omega) (by omega)
  | refused => rfl

end Allocated

end Extism.Kernel
