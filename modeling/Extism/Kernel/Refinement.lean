import Extism.Kernel.Run

/-!
# The kernel refines a first-fit allocator on a list of blocks

`Instance.decode` reads the heap as the kernel does, following `next_ptr` from
the first block up to `position`, and gives the list of (status, size, used) it
meets.  What `alloc`, `free` and `reset` should do to such a list is stated in
terms of nothing else, and they do it in every configuration reached.

The memory "before" a call is the one `MemoryRoot::new` leaves.  On every call
but the first that is the memory itself.  The first `alloc` sets the root up,
and does so even when it then fails to grow the memory
(`first_alloc_changes_memory`).

## Main definitions

* `Block`, `Instance.decode` — a header's contents, and the list of them.
* `LeastPages` — the least number of pages that makes room.
* `FirstFitAlloc`, `MarksFree`, `Empties` — what `alloc`, `free` and `reset` do.

## Main results

* `FirstFitAlloc.capacity` — a block handed out has room for what was asked, and
  less than 128 bytes to spare.
* `Represents.decode` — the decoded heap is the row.
* `Allocated.firstFit`, `free_marks`, `Represents.empties` — the three calls.
* `refines_first_fit` — the kernel refines first fit.
-/

namespace Extism.Kernel

open FirstFit (Cell Format)

/-! ## The abstract allocator -/

/-- A block as its header describes it. -/
structure Block where
  status : ℕ
  size : ℕ
  used : ℕ
  deriving DecidableEq

namespace Block

/-- A free block with room for `n` bytes. -/
def Fits (n : ℕ) (b : Block) : Prop := b.status = MemoryStatus.free.code ∧ n ≤ b.size

/-- A block handed out. -/
def active (size used : ℕ) : Block := ⟨MemoryStatus.active.code, size, used⟩

/-- A block free again. -/
def freed (size used : ℕ) : Block := ⟨MemoryStatus.free.code, size, used⟩

/-- The bytes a list of blocks covers. -/
def extent : List Block → ℕ
  | [] => 0
  | b :: bs => MemoryBlock.sizeOf + b.size + extent bs

end Block

namespace Instance

/-- The header at `a`. -/
def blockAt (m : Instance) (a : ℕ) : Block :=
  ⟨m.peek 1 (MemoryBlock.status a), m.peek 4 (MemoryBlock.size a), m.peek 4 (MemoryBlock.used a)⟩

/-- The blocks from `a` to `limit`, at most `fuel` of them. -/
def decodeFrom (m : Instance) : ℕ → ℕ → ℕ → List Block
  | 0, _, _ => []
  | fuel + 1, a, limit =>
      if a < limit then
        m.blockAt a :: m.decodeFrom fuel (MemoryBlock.data a + (m.blockAt a).size) limit
      else []

/-- The allocator position. -/
def position (m : Instance) : ℕ := m.peek 8 MemoryRoot.position

/-- The bytes the allocator accounts for. -/
def length (m : Instance) : ℕ := m.peek 8 MemoryRoot.length

/-- **The heap, decoded** by following `next_ptr`.  A block covers at least its
header, so `position` rounds are enough. -/
def decode (m : Instance) : List Block :=
  m.decodeFrom m.position MemoryRoot.blocks (MemoryRoot.blocks + m.position)

end Instance

/-- `k` is the least number of pages with which a heap of `pos` bytes fits under
`length`. -/
def LeastPages (length pos k : ℕ) : Prop :=
  pos + MemoryRoot.sizeOf ≤ length + PAGE_SIZE * k ∧
    ∀ j, pos + MemoryRoot.sizeOf ≤ length + PAGE_SIZE * j → k ≤ j

/-- `position`, `length` and the memory size are the same, and no grow was
called. -/
def SameRoom (m m' : Instance) : Prop :=
  m'.position = m.position ∧ m'.length = m.length ∧ m'.pages = m.pages ∧ m'.grows = m.grows

/-- **First fit**: what an allocation of `n` bytes answers, and does to the
decoded heap. -/
inductive FirstFitAlloc (m : Instance) (n : ℕ) : ℕ → Instance → Prop
  /-- The lowest fitting block, whole. -/
  | whole {m' : Instance} {pre post : List Block} {b : Block}
      (before : m.decode = pre ++ b :: post) (lowest : ∀ d ∈ pre, ¬ d.Fits n) (fit : b.Fits n)
      (tight : b.size - n < 128) (after : m'.decode = pre ++ .active b.size n :: post)
      (same : SameRoom m m') : FirstFitAlloc m n (65 + Block.extent pre + 12) m'
  /-- The topmost bytes of the lowest fitting block, behind a new header. -/
  | split {m' : Instance} {pre post : List Block} {b : Block}
      (before : m.decode = pre ++ b :: post) (lowest : ∀ d ∈ pre, ¬ d.Fits n) (fit : b.Fits n)
      (loose : 128 ≤ b.size - n)
      (after : m'.decode = pre ++ .freed (b.size - n - 12) 0 :: .active n n :: post)
      (same : SameRoom m m') :
      FirstFitAlloc m n (65 + Block.extent pre + (b.size - n) + 12) m'
  /-- A new block at the end, the memory grown by as little as that takes. -/
  | appended {m' : Instance} {k : ℕ} (skip : ∀ d ∈ m.decode, ¬ d.Fits n)
      (least : LeastPages m.length (m.position + (n + 12)) k)
      (after : m'.decode = m.decode ++ [.active n n])
      (position : m'.position = m.position + (n + 12))
      (length : m'.length = m.length + PAGE_SIZE * k) (pages : m'.pages = m.pages + k)
      (grows : (k = 0 ∧ m'.grows = m.grows) ∨ m'.grows = m.grows ++ [(k, true)]) :
      FirstFitAlloc m n (65 + m.position + 12) m'
  /-- The grow that would have been needed failed. -/
  | refused {m' : Instance} {k : ℕ} (skip : ∀ d ∈ m.decode, ¬ d.Fits n)
      (least : LeastPages m.length (m.position + (n + 12)) k) (cannot : ¬ m.CanGrow k)
      (bytes : m'.bytes = m.bytes) (pages : m'.pages = m.pages)
      (grows : m'.grows = m.grows ++ [(k, false)]) : FirstFitAlloc m n 0 m'

/-- `free(p)` marks the active block with handle `p` free, if there is one. -/
inductive MarksFree (m : Instance) (p : ℕ) : Instance → Prop
  | found {m' : Instance} {pre post : List Block} {size used : ℕ}
      (before : m.decode = pre ++ .active size used :: post)
      (here : p = 65 + Block.extent pre + 12)
      (after : m'.decode = pre ++ .freed size used :: post) (same : SameRoom m m') :
      MarksFree m p m'
  | absent {m' : Instance} (none : ∀ (pre post : List Block) (size used : ℕ),
      m.decode = pre ++ .active size used :: post → p ≠ 65 + Block.extent pre + 12)
      (after : m'.decode = m.decode) (position : m'.position = m.position) : MarksFree m p m'

/-- `reset` leaves no block. -/
structure Empties (m m' : Instance) : Prop where
  decode : m'.decode = []
  position : m'.position = 0
  length : m'.length = m.length
  pages : m'.pages = m.pages

theorem Block.extent_append (bs ds : List Block) :
    Block.extent (bs ++ ds) = Block.extent bs + Block.extent ds := by
  induction bs with
  | nil => simp [extent]
  | cons b bs ih => simp [extent, ih, Nat.add_assoc]

/-- A block handed out has room for what was asked, and less than 128 bytes to
spare. -/
theorem FirstFitAlloc.capacity {m m' : Instance} {n h : ℕ} (A : FirstFitAlloc m n h m')
    (extent : m.position = Block.extent m.decode) (found : h ≠ 0) :
    ∃ (pre post : List Block) (size : ℕ), m'.decode = pre ++ .active size n :: post ∧
      h = 65 + Block.extent pre + 12 ∧ n ≤ size ∧ size < n + 128 := by
  cases A with
  | @whole _ pre post b _ _ fit tight after _ =>
      have le := fit.2
      exact ⟨pre, post, b.size, after, rfl, le, by omega⟩
  | @split _ pre post b _ _ fit loose after _ =>
      have le := fit.2
      refine ⟨pre ++ [.freed (b.size - n - 12) 0], post, n, by simpa using after, ?_,
        Nat.le_refl n, by omega⟩
      simp only [Block.extent_append, Block.extent, Block.freed, MemoryBlock.sizeOf]
      omega
  | appended _ _ after _ _ _ _ =>
      exact ⟨m.decode, [], n, after, by rw [← extent], Nat.le_refl n, by omega⟩
  | refused => exact absurd rfl found

/-! ## Decoding a represented heap -/

/-- A cell's header, as a block. -/
def Block.ofCell (c : Cell) : Block := ⟨(cellStatus c).code, c.size, c.used⟩

@[simp] theorem Block.ofCell_vacant (s u : ℕ) : ofCell (.vacant s u) = .freed s u := rfl

@[simp] theorem Block.ofCell_held (s u : ℕ) (le : u ≤ s) :
    ofCell (.held s u le) = .active s u := rfl

@[simp] theorem Block.size_ofCell (c : Cell) : (ofCell c).size = c.size := rfl

theorem Block.fits_ofCell {n : ℕ} {c : Cell} : (ofCell c).Fits n ↔ c.Fits n := by
  unfold Fits ofCell Cell.Fits
  cases free : c.free with
  | true => simp [cellStatus_of_free free]
  | false => simp [cellStatus_of_held free]

@[simp] theorem Block.extent_ofCell (cs : List Cell) :
    Block.extent (cs.map Block.ofCell) = heap.extent cs := by
  induction cs with
  | nil => rfl
  | cons c cs ih => simp [Block.extent, Block.ofCell, Format.width, ih]

theorem HeaderAt.blockAt {m : Instance} {a : ℕ} {c : Cell} (h : HeaderAt m a c) :
    m.blockAt a = .ofCell c := by
  rw [Instance.blockAt, h.status, h.size, h.used, Block.ofCell]

theorem decodeFrom_place {m : Instance} :
    ∀ (cs : List Cell) (fuel a : ℕ), (∀ p ∈ heap.place a cs, HeaderAt m p.1 p.2) →
      heap.extent cs ≤ fuel →
      m.decodeFrom fuel a (a + heap.extent cs) = cs.map Block.ofCell := by
  intro cs
  induction cs with
  | nil =>
      intro fuel a _ _
      cases fuel <;> simp [Instance.decodeFrom]
  | cons c cs ih =>
      intro fuel a headers enough
      simp only [Format.place_cons, List.mem_cons, forall_eq_or_imp] at headers
      simp only [Format.extent_cons, Format.width, MemoryBlock.sizeOf] at enough ih ⊢
      obtain ⟨fuel, rfl⟩ : ∃ k, fuel = k + 1 := ⟨fuel - 1, by omega⟩
      rw [Instance.decodeFrom, if_pos (by omega), headers.1.blockAt, List.map_cons,
        ← ih fuel (a + (12 + c.size)) headers.2 (by omega)]
      simp only [Block.ofCell, MemoryBlock.data, Nat.add_assoc]

namespace Represents

variable {m m' : Instance} {cs cs' : List Cell} {n b k : ℕ}

theorem position_eq (R : Represents m cs) : m.position = heap.extent cs := R.position

/-- The decoded heap is the row. -/
theorem decode (R : Represents m cs) : m.decode = cs.map Block.ofCell := by
  rw [Instance.decode, R.position_eq]
  exact decodeFrom_place cs _ _ R.headers (Nat.le_refl _)

theorem decode_skip (R : Represents m cs) (skip : ∀ d ∈ cs, ¬ d.Fits n) :
    ∀ d ∈ m.decode, ¬ d.Fits n := by
  rw [R.decode]
  intro d mem
  obtain ⟨c, placed, rfl⟩ := List.mem_map.1 mem
  rw [Block.fits_ofCell]
  exact skip c placed

/-! ## Each call against its abstract counterpart -/

/-- The pages `alloc` asks for are the least that do. -/
theorem leastPages (R : Represents m cs) (small : n < 2 ^ 32) (short : m.memLeft cs ≤ n + 12) :
    LeastPages m.length (m.position + (n + 12)) (m.pagesNeeded cs n) := by
  have room := R.room
  have spec := numPages_spec (show n + 12 - m.memLeft cs ≤ 65536 * 2 ^ 31 by omega)
  rw [← Instance.pagesNeeded] at spec
  have left : m.memLeft cs + heap.extent cs + 64 = m.length := by
    simp only [Instance.memLeft, Instance.length, MemoryRoot.sizeOf] at *
    omega
  rw [LeastPages, R.position_eq]
  simp only [MemoryRoot.sizeOf, PAGE_SIZE]
  refine ⟨by omega, fun j enough => ?_⟩
  by_contra less
  have : j + 1 ≤ m.pagesNeeded cs n := by omega
  omega

theorem sameRoom_of_bytes (R : Represents m cs) (R' : Represents m' cs')
    (extent : heap.extent cs' = heap.extent cs)
    (length : ∀ x, 17 ≤ x → x < 25 → m'.bytes x = m.bytes x) (pages : m'.pages = m.pages)
    (grows : m'.grows = m.grows) : SameRoom m m' :=
  ⟨by rw [R.position_eq, R'.position_eq, extent], Instance.peek_congr fun x lo hi =>
    length x lo (by simpa using hi), pages, grows⟩

end Represents

/-- An allocation is first fit on the decoded heap. -/
theorem Allocated.firstFit {m m' : Instance} {cs cs' : List Cell} {n : ℕ} {r : Option ℕ}
    (A : Allocated m n cs r m' cs') (R : Represents m cs) (small : n < 2 ^ 32) :
    FirstFitAlloc m n (handle r) m' := by
  have R' := A.represents R small
  cases A with
  | carved pre post c skip fit =>
      have same := R.sameRoom_of_bytes R' (by simp)
        (fun x _ hi => Instance.bytes_carved_of_notMem fit (.inl (by omega)))
        Instance.pages_carved Instance.grows_carved
      have before := R.decode
      have after := R'.decode
      rw [List.map_append, List.map_cons] at before
      have lowest : ∀ d ∈ pre.map Block.ofCell, ¬ d.Fits n := by
        intro d mem
        obtain ⟨e, placed, rfl⟩ := List.mem_map.1 mem
        rw [Block.fits_ofCell]
        exact skip e placed
      have fits : (Block.ofCell c).Fits n := Block.fits_ofCell.2 fit
      unfold Format.carve at after
      unfold Format.carveAt
      split
      case isTrue loose =>
        rw [if_pos loose] at after
        have split := FirstFitAlloc.split before lowest fits loose (by simpa using after) same
        simpa [handle] using split
      case isFalse tight =>
        rw [if_neg tight] at after
        have whole := FirstFitAlloc.whole before lowest fits (Nat.lt_of_not_le tight)
          (by simpa using after) same
        simpa [handle] using whole
  | appended _ skip enough =>
      have room := R.room_of_enough enough
      have append : FirstFitAlloc m n (65 + m.position + 12) (m.appended n (heap.extent cs)) := by
        refine .appended (k := 0) (R.decode_skip skip) ⟨?_, fun j _ => Nat.zero_le j⟩ ?_ ?_ ?_
          (by simp) (.inl ⟨rfl, by simp⟩)
        · rw [R.position_eq]
          simp only [Instance.length, MemoryRoot.sizeOf]
          omega
        · rw [R'.decode, R.decode]
          simp
        · rw [R'.position_eq, R.position_eq]
          simp [Format.width, Nat.add_comm]
        · rw [Instance.length, MemoryRoot.length, Instance.peek_appended_of_disjoint (by omega)]
          simp [Instance.length]
      rwa [R.position_eq] at append
  | grown _ skip short can =>
      have lt := R.length_lt
      have pages := can.2
      have append : FirstFitAlloc m n (65 + m.position + 12)
          ((m.lengthened (m.pagesNeeded cs n)).appended n (heap.extent cs)) := by
        refine .appended (R.decode_skip skip) (R.leastPages small short) ?_ ?_ ?_
          (by simp) (.inr (by simp))
        · rw [R'.decode, R.decode]
          simp
        · rw [R'.position_eq, R.position_eq]
          simp [Format.width, Nat.add_comm]
        · rw [Instance.length, MemoryRoot.length, Instance.peek_appended_of_disjoint (by omega)]
          simp only [MAX_PAGES] at pages
          rw [← MemoryRoot.length, Instance.peek_length_lengthened (by omega), Instance.length,
            Nat.mul_comm]
      rwa [R.position_eq] at append
  | refused _ skip short cannot =>
      exact .refused (R.decode_skip skip) (R.leastPages small short) cannot rfl rfl rfl

namespace Represents

variable {m m' : Instance} {cs : List Cell} {b k p : ℕ}

/-- An active block of the decoded heap is a held cell of the row. -/
theorem held_of_decode (R : Represents m cs) {pre post : List Block} {size used : ℕ}
    (before : m.decode = pre ++ .active size used :: post) :
    heap.Held MemoryRoot.blocks cs (65 + Block.extent pre) used := by
  rw [R.decode, List.map_eq_append_iff] at before
  obtain ⟨front, back, rfl, rfl, eq⟩ := before
  obtain ⟨c, back, rfl, eq, rfl⟩ := List.map_eq_cons_iff.1 eq
  obtain ⟨status, -, rfl⟩ : (cellStatus c).code = 1 ∧ c.size = size ∧ c.used = used := by
    simpa [Block.ofCell, Block.active] using eq
  refine ⟨c, by simp [Format.place_append], ?_, rfl⟩
  by_contra free
  rw [cellStatus_of_free (by simpa using free)] at status
  simp at status

/-- Marking a held block free. -/
theorem marksFree_of_held (R : Represents m cs) (held : heap.Held MemoryRoot.blocks cs b k) :
    MarksFree m (b + 12) (m.freed b) := by
  have R' := R.freed held
  have bounds := held_bounds held
  have same := R.sameRoom_of_bytes R' (by simp)
    (fun x _ hi => Instance.bytes_freed_of_ne m (by omega) (.inl (by omega)))
    (Instance.pages_freed m b) (Instance.grows_freed m b)
  obtain ⟨c, placed, taken, rfl⟩ := held
  obtain ⟨pre, post, rfl, rfl⟩ := Format.place_split placed
  have before := R.decode
  have after := R'.decode
  rw [Format.release_eq taken] at after
  have ofCell : Block.ofCell c = .active c.size c.used := by
    rw [Block.ofCell, cellStatus_of_held taken]
    rfl
  have was : m.decode = pre.map Block.ofCell ++ .active c.size c.used :: post.map Block.ofCell := by
    rw [before, List.map_append, List.map_cons, ofCell]
  refine .found was (by simp) ?_ same
  rw [after, List.map_append, List.map_cons]
  rfl

end Represents

/-- A memory decodes the same before and after the root is set up. -/
theorem Instance.Settled.decode_boot {m : Instance} {cs : List Cell} (settled : m.Settled)
    (R : Represents m.boot cs) (pages : 1 ≤ m.pages) :
    m.decode = m.boot.decode ∧ m.position = m.boot.position := by
  rcases settled with blank | eq
  · obtain rfl := R.row_nil_of_blank blank pages
    have position : m.position = 0 := Instance.peek_eq_zero fun x _ _ => by rw [blank]
    rw [R.decode, R.position_eq, Instance.decode, position]
    exact ⟨rfl, rfl⟩
  · rw [eq]
    exact ⟨rfl, rfl⟩

/-- A completed `free` marks the block it was given, and no other. -/
theorem free_marks {m m' : Instance} {cs : List Cell} {p : ℕ} {u : Unit}
    (R : Represents m.boot cs) (pages : 1 ≤ m.pages) (settled : m.Settled)
    (run : free p m = (.ok u, m')) : MarksFree m.boot p m' := by
  by_cases held : ∃ b k, b + 12 = p ∧ heap.Held MemoryRoot.blocks cs b k
  · obtain ⟨b, k, rfl, held⟩ := held
    rw [R.free_held pages held] at run
    obtain ⟨-, rfl⟩ := Prod.mk.inj run
    exact R.marksFree_of_held held
  · have none : ∀ (pre post : List Block) (size used : ℕ),
        m.boot.decode = pre ++ .active size used :: post → p ≠ 65 + Block.extent pre + 12 :=
      fun pre post size used before eq => held ⟨_, _, eq.symm, R.held_of_decode before⟩
    have same : m' = m ∨ m' = m.boot := by
      rw [free, Prog.ite_apply] at run
      split at run
      · exact .inl (Prog.of_pure run).1
      · rw [Prog.bind_ok (MemoryRoot.new_eq pages)] at run
        obtain ⟨r, m₁, found, rest⟩ := Prog.bind_eq_ok run
        obtain ⟨rfl, rfl⟩ := R.findBlock_not_held (fun b k eq h => held ⟨b, k, eq, h⟩) found
        exact .inr (Prog.of_pure rest).1
    rcases same with rfl | rfl
    · obtain ⟨decode, position⟩ := settled.decode_boot R pages
      exact .absent none decode position
    · exact .absent none rfl rfl

/-- `reset` leaves the empty list. -/
theorem Represents.empties {m : Instance} {cs : List Cell} (R : Represents m cs) :
    Empties m (m.wiped (heap.extent cs)) := by
  have R' := R.wiped
  refine ⟨by rw [R'.decode]; rfl, R'.position_eq, ?_, rfl⟩
  rw [Instance.length, Instance.wiped, MemoryRoot.length]
  simp (disch := omega) only [Instance.peek_splice_of_disjoint]
  rfl

/-- **The kernel refines first fit**, in every configuration reached: allocation
is first fit on the decoded heap and hands out a block with less than 128 bytes
to spare, `free` marks its one block, `reset` empties the list. -/
theorem refines_first_fit {c : Config} (reach : confinedRuns.Reachable c) :
    (∀ n, 1 ≤ n → n < 2 ^ 32 → ∃ h m', alloc n c.kernel = (.ok h, m') ∧
      FirstFitAlloc (MemoryRoot.new c.kernel).2 n h m' ∧
      (h ≠ 0 → ∃ (pre post : List Block) (size : ℕ), m'.decode = pre ++ .active size n :: post ∧
        h = 65 + Block.extent pre + 12 ∧ n ≤ size ∧ size < n + 128)) ∧
    (∀ p m', free p c.kernel = (.ok (), m') → MarksFree (MemoryRoot.new c.kernel).2 p m') ∧
    (∀ (pre post : List Block) (size used : ℕ),
      (MemoryRoot.new c.kernel).2.decode = pre ++ .active size used :: post →
        ∃ m', free (65 + Block.extent pre + 12) c.kernel = (.ok (), m')) ∧
    ∃ m', reset c.kernel = (.ok (), m') ∧ Empties (MemoryRoot.new c.kernel).2 m' := by
  obtain ⟨cs, S⟩ := sound_of_reachable reach
  have R := S.heap
  rw [MemoryRoot.new_eq S.pages]
  refine ⟨fun n pos small => ?_, fun p m' run => free_marks R S.pages S.settled run,
    fun pre post size used before => ?_, ?_⟩
  · obtain ⟨r, m', cs', eq, A⟩ := R.alloc_spec small
    refine ⟨handle r, m', alloc_run (by omega) S.pages eq, A.firstFit R small,
      (A.firstFit R small).capacity ?_⟩
    rw [R.decode, R.position_eq, Block.extent_ofCell]
  · exact ⟨_, R.free_held S.pages (R.held_of_decode before)⟩
  · exact ⟨_, R.reset_run S.pages, R.empties⟩

/-- A free block of 300 bytes, asked for 100: its top is handed out. -/
theorem refines_first_fit_after_free :
    let c := ((Config.fresh 1 fun _ => false).after (.alloc 300) 77).after (.free 77) 0
    ∃ h m', alloc 100 c.kernel = (.ok h, m') ∧
      FirstFitAlloc (MemoryRoot.new c.kernel).2 100 h m' := by
  have reach := ((reachable_fresh (Nat.le_refl 1) (by decide) fun _ => false).step
    (confined_of_run (.alloc 300) 77 (by decide) (by decide +kernel))).step
    (confined_of_run (.free 77) 0 (by decide) (by decide +kernel))
  obtain ⟨h, m', run, spec, -⟩ := (refines_first_fit reach).1 100 (by decide) (by decide)
  exact ⟨h, m', run, spec⟩

/-- The first allocation changes the memory even when it answers 0 because the
memory did not grow: it sets up the root. -/
theorem first_alloc_changes_memory :
    ¬ ∀ c, confinedRuns.Reachable c → ∀ n, 1 ≤ n → n < 2 ^ 32 → ∀ m',
      alloc n c.kernel = (.ok 0, m') → m'.bytes = c.kernel.bytes := by
  intro same
  have start := reachable_fresh (Nat.le_refl 1) (by decide) fun _ => false
  have eq := congrFun (same _ start 70000 (by decide) (by decide) _
    (Prod.ext (by decide +kernel : (alloc 70000 (.fresh 1 fun _ => false)).1 = .ok 0) rfl)) 1
  revert eq
  decide +kernel

end Extism.Kernel
