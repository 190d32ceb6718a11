import Extism.Kernel.Refinement
import Extism.Kernel.Reset

/-!
# What a guest publishes

`input_set` and `output_set` record a range after checking that its first and
its last byte are in bounds; the host later reads that range without checking
again.  The check has two gaps.  `p + len - 1` wraps, so a length near `2 ^ 64`
passes with a last byte in front of the first; and the bound is `length` counted
from the first block, which on a memory that is accounted for to its end lies
one byte behind it.

A run in which no set call falls into a gap never publishes anything that is not
inside memory.  Stores play no part: the runs here are those of the allocator, the
setters and the getters.  They allocate any length, so that a length of 4 GiB or
more, which is cut on its way to a block, has to be looked at as well.

## Main definitions

* `Accepted`, `InGap`, `InMemory` — the test passes, the range falls into a gap,
  the range is inside the block area.
* `Orderly` — allocations that leave the heap in order.
* `publishingRuns`, `carefulRuns` — the runs, and those that keep out of the gaps.
* `RangesInside`, `Publishes` — the ranges recorded are inside memory, and the
  invariant of careful runs.

## Main results

* `Represents.inMemory_iff` — exactly the accepted ranges that fall into a gap are
  not inside memory.
* `Represents.alloc_orderly` — orderly allocations keep the heap invariant.
* `Publishes.step` — one careful step.
* `published_inside` — what careful runs publish.
-/

namespace Extism.Kernel

open FirstFit (Cell Format)

/-! ## The two gaps -/

/-- The test of `input_set` and `output_set` passes on the memory `m`. -/
def Accepted (m : Instance) (p len : ℕ) : Prop :=
  (MemoryRoot.pointerInBounds p m).1 = .ok true ∧
    (MemoryRoot.pointerInBounds (subU64 (addU64 p len) 1) m).1 = .ok true

/-- The range `p`, `len` falls into a gap of the test: its end wraps, or it is
the byte behind a memory accounted for to its end. -/
def InGap (m : Instance) (p len : ℕ) : Prop :=
  2 ^ 64 < p + len ∨ (p + len = MemoryRoot.blocks + m.length ∧
    m.length + MemoryRoot.sizeOf = PAGE_SIZE * m.pages)

instance (m : Instance) (p len : ℕ) : Decidable (InGap m p len) :=
  inferInstanceAs (Decidable (_ ∨ _))

/-- The range is inside the block area of the memory. -/
def InMemory (m : Instance) (p len : ℕ) : Prop :=
  MemoryRoot.blocks ≤ p ∧ p + len ≤ PAGE_SIZE * m.pages

theorem Represents.accepted_iff {m : Instance} {cs : List Cell} (R : Represents m cs)
    {p len : ℕ} : Accepted m p len ↔ m.Accepts p len := by
  rw [Accepted, R.pointerInBounds_eq, R.pointerInBounds_eq, Instance.Accepts]
  simp

/-- **Exactly the accepted ranges that fall into a gap are not inside memory.** -/
theorem Represents.inMemory_iff {m : Instance} {cs : List Cell} (R : Represents m cs)
    {p len : ℕ} (accepted : m.Accepts p len) : InMemory m p len ↔ ¬ InGap m p len := by
  have fits := R.fits
  have size := R.size_le
  obtain ⟨⟨lo, hi⟩, last, hi'⟩ := accepted
  simp only [MemoryRoot.length, MemoryRoot.sizeOf, Instance.size, PAGE_SIZE] at fits size
  simp only [InMemory, InGap, Instance.length, MemoryRoot.length, MemoryRoot.sizeOf,
    MemoryRoot.blocks, PAGE_SIZE]
  simp only [subU64, addU64] at last hi'
  omega

/-! ## Allocations of any size -/

namespace MemoryRoot

theorem toUsize_toUsize (n : ℕ) : toUsize (toUsize n) = toUsize n :=
  Nat.mod_mod n _

theorem findFreeBlock.largeEnough_toUsize (n : ℕ) :
    largeEnough (toUsize n) = largeEnough n := by
  funext status block
  rw [largeEnough, largeEnough, toUsize_toUsize]

theorem findFreeBlock.take_toUsize (n : ℕ) : take (toUsize n) = take n := by
  funext block
  rw [take, take, toUsize_toUsize]

/-- The walk looks at the low 32 bits of the length only. -/
theorem findFreeBlock.walk_toUsize (n limit : ℕ) :
    ∀ fuel : ℕ, walk (toUsize n) limit fuel = walk n limit fuel := by
  intro fuel
  induction fuel with
  | zero => rfl
  | succ fuel ih =>
      funext block
      simp only [walk, largeEnough_toUsize, take_toUsize, ih]

theorem alloc.reuse_toUsize (n : ℕ) : alloc.reuse (toUsize n) = alloc.reuse n := by
  funext b
  rw [alloc.reuse, alloc.reuse, toUsize_toUsize]

end MemoryRoot

/-- **Allocations that leave the heap in order.**  Below 4 GiB all do; a longer
one is cut to 32 bits when a free block fits what is left, and does no harm when
the memory it asks for is refused. -/
def Orderly (m : Instance) (n : ℕ) : Prop :=
  n < 2 ^ 32 ∨ (∃ b ∈ m.decode, b.Fits (toUsize n)) ∨
    (subU64 (subU64 m.length m.position) MemoryRoot.sizeOf ≤ addU64 n MemoryBlock.sizeOf ∧
      ¬ m.CanGrow (numPages (subU64 (addU64 n MemoryBlock.sizeOf)
        (subU64 (subU64 m.length m.position) MemoryRoot.sizeOf))))

namespace Represents

variable {m m' : Instance} {cs : List Cell} {n : ℕ}

/-- An allocation of any length, when a free block fits its low 32 bits. -/
theorem alloc_of_fits (R : Represents m cs) (fits : ∃ b ∈ m.decode, b.Fits (toUsize n)) :
    MemoryRoot.alloc n m = MemoryRoot.alloc (toUsize n) m := by
  have small : toUsize n < 2 ^ 32 := Nat.mod_lt _ (by decide)
  rw [R.decode] at fits
  obtain ⟨b, listed, fit⟩ := fits
  obtain ⟨d, placed, rfl⟩ := List.mem_map.1 listed
  rcases Format.fits_cases (toUsize n) cs with skip | ⟨pre, post, c, rfl, skip, fit'⟩
  · exact absurd (Block.fits_ofCell.1 fit) (skip d placed)
  · -- both walks take the same block
    obtain ⟨m₁, walk, -⟩ := R.findFreeBlock_carved small skip fit'
    have walk' := walk
    rw [MemoryRoot.findFreeBlock, MemoryRoot.findFreeBlock.walk_toUsize,
      ← MemoryRoot.findFreeBlock] at walk'
    rw [MemoryRoot.alloc, MemoryRoot.alloc, Prog.bind_ok (load_ok (R.root_le (by decide))),
      Prog.bind_ok (load_ok (R.root_le (by decide))), R.position, Prog.bind_ok walk',
      Prog.bind_ok (load_ok (R.root_le (by decide))),
      Prog.bind_ok (load_ok (R.root_le (by decide))), R.position, Prog.bind_ok walk,
      MemoryRoot.alloc.place, MemoryRoot.alloc.place, MemoryRoot.alloc.reuse_toUsize]

/-- The walk for any length, when no free block fits its low 32 bits. -/
theorem findFreeBlock_skip (R : Represents m cs) (skip : ∀ b ∈ m.decode, ¬ b.Fits (toUsize n)) :
    MemoryRoot.findFreeBlock n (heap.extent cs) m = (.ok none, m) := by
  have small : toUsize n < 2 ^ 32 := Nat.mod_lt _ (by decide)
  have none : ∀ d ∈ cs, ¬ d.Fits (toUsize n) := by
    intro d placed fit
    refine skip (Block.ofCell d) ?_ (Block.fits_ofCell.2 fit)
    rw [R.decode]
    exact List.mem_map_of_mem placed
  rw [MemoryRoot.findFreeBlock, ← MemoryRoot.findFreeBlock.walk_toUsize,
    ← MemoryRoot.findFreeBlock]
  exact R.findFreeBlock_none small none

/-- An allocation of any length, when no free block fits its low 32 bits, once
the room is there or is not. -/
theorem alloc_of_skip (R : Represents m cs) (skip : ∀ b ∈ m.decode, ¬ b.Fits (toUsize n))
    {room : Bool} (made : MemoryRoot.alloc.makeRoom n (heap.extent cs)
      (m.peek 8 MemoryRoot.length) m = (.ok room, m')) :
    MemoryRoot.alloc n m =
      (if room then MemoryRoot.alloc.append n (heap.extent cs) else pure none) m' := by
  rw [MemoryRoot.alloc, Prog.bind_ok (load_ok (R.root_le (by decide))),
    Prog.bind_ok (load_ok (R.root_le (by decide))), R.position,
    Prog.bind_ok (R.findFreeBlock_skip skip), MemoryRoot.alloc.place, Prog.bind_ok made]

/-- An allocation of any length, when it has to grow the memory and cannot. -/
theorem alloc_of_refused (R : Represents m cs) (skip : ∀ b ∈ m.decode, ¬ b.Fits (toUsize n))
    (short : subU64 (subU64 m.length m.position) MemoryRoot.sizeOf ≤ addU64 n MemoryBlock.sizeOf)
    (cannot : ¬ m.CanGrow (numPages (subU64 (addU64 n MemoryBlock.sizeOf)
      (subU64 (subU64 m.length m.position) MemoryRoot.sizeOf)))) :
    ∃ k, MemoryRoot.alloc n m = (.ok none, m.refused k) := by
  rw [R.position_eq] at short cannot
  have made : MemoryRoot.alloc.makeRoom n (heap.extent cs) (m.peek 8 MemoryRoot.length) m =
      (.ok false, m.refused (numPages (subU64 (addU64 n MemoryBlock.sizeOf)
        (subU64 (subU64 m.length (heap.extent cs)) MemoryRoot.sizeOf)))) := by
    rw [MemoryRoot.alloc.makeRoom, ← Instance.length, if_pos short,
      Prog.bind_ok (memoryGrow_refused cannot), if_pos rfl]
    rfl
  exact ⟨_, R.alloc_of_skip skip made⟩

/-- **Orderly allocations keep the heap invariant**, whatever their length, and
leave the metadata of the root alone. -/
theorem alloc_orderly (R : Represents m cs) (orderly : Orderly m n) :
    ∃ r m' cs', MemoryRoot.alloc n m = (.ok r, m') ∧ Represents m' cs' ∧ m.size ≤ m'.size ∧
      ∀ x, 25 ≤ x → x < 65 → m'.bytes x = m.bytes x := by
  have small : toUsize n < 2 ^ 32 := Nat.mod_lt _ (by decide)
  have of_small : ∀ {k : ℕ}, k < 2 ^ 32 → ∃ r m' cs', MemoryRoot.alloc k m = (.ok r, m') ∧
      Represents m' cs' ∧ m.size ≤ m'.size ∧ ∀ x, 25 ≤ x → x < 65 → m'.bytes x = m.bytes x := by
    intro k small
    obtain ⟨r, m', cs', eq, A⟩ := R.alloc_spec small
    exact ⟨r, m', cs', eq, A.represents R small, A.size_le, fun x lo hi =>
      A.bytes_eq R (by simp only [MemoryRoot.blocks]; omega) (.inr (.inl ⟨lo, hi⟩))⟩
  by_cases fits : ∃ b ∈ m.decode, b.Fits (toUsize n)
  · rw [R.alloc_of_fits fits]
    exact of_small small
  · rcases orderly with lt | fits' | ⟨short, cannot⟩
    · exact of_small lt
    · exact absurd fits' fits
    · obtain ⟨k, eq⟩ := R.alloc_of_refused (fun b mem fit => fits ⟨b, mem, fit⟩) short cannot
      exact ⟨none, _, cs, eq, R.refused k, Nat.le_refl _, fun _ _ _ => rfl⟩

end Represents

/-! ## Runs -/

/-- The runs of the allocator, the setters and the getters: every export that
stores nothing through a pointer, in any order, with any arguments. -/
def publishingRuns : TransitionSystem Instance Call where
  init m := ∃ pages host, 1 ≤ pages ∧ pages ≤ MAX_PAGES ∧ m = .fresh pages host
  step m call m' := call.span = none ∧ ∃ v, call.run m = (.ok v, m')

/-- A step that keeps out of the gaps: allocations are orderly, and a range
accepted by a setter is in none.  The memory the call finds is the one
`MemoryRoot::new` leaves. -/
def Careful (m : Instance) : Call → Prop
  | .alloc n => Orderly (MemoryRoot.new m).2 n
  | .inputSet p len => Accepted (MemoryRoot.new m).2 p len → ¬ InGap (MemoryRoot.new m).2 p len
  | .outputSet p len => Accepted (MemoryRoot.new m).2 p len → ¬ InGap (MemoryRoot.new m).2 p len
  | _ => True

/-- The ranges the root records are inside memory. -/
structure RangesInside (m : Instance) : Prop where
  input : m.peek 8 33 + m.peek 8 41 ≤ m.size
  output : m.peek 8 49 + m.peek 8 57 ≤ m.size

/-- The invariant of careful runs. -/
structure Publishes (m : Instance) : Prop where
  pages : 1 ≤ m.pages
  settled : m.Settled
  heap : ∃ cs, Represents m.boot cs
  ranges : RangesInside m.boot

namespace RangesInside

variable {m m' : Instance}

theorem congr (I : RangesInside m) (eq : ∀ x, 33 ≤ x → x < 65 → m'.bytes x = m.bytes x)
    (le : m.size ≤ m'.size) : RangesInside m' := by
  have word : ∀ a, 33 ≤ a → a + 8 ≤ 65 → m'.peek 8 a = m.peek 8 a :=
    fun a lo hi => Instance.peek_congr fun x xlo xhi => eq x (by omega) (by omega)
  constructor
  · rw [word 33 (by decide) (by decide), word 41 (by decide) (by decide)]
    exact I.input.trans le
  · rw [word 49 (by decide) (by decide), word 57 (by decide) (by decide)]
    exact I.output.trans le

theorem of_zero (zero : ∀ x, 33 ≤ x → x < 65 → m.bytes x = 0) : RangesInside m := by
  have word : ∀ a, 33 ≤ a → a + 8 ≤ 65 → m.peek 8 a = 0 :=
    fun a lo hi => Instance.peek_eq_zero fun x xlo xhi => zero x (by omega) (by omega)
  constructor
  · rw [word 33 (by decide) (by decide), word 41 (by decide) (by decide)]
    exact Nat.zero_le _
  · rw [word 49 (by decide) (by decide), word 57 (by decide) (by decide)]
    exact Nat.zero_le _

/-- Shortening the input to nothing. -/
theorem inputCleared (I : RangesInside m) : RangesInside (m.poke 8 41 0) := by
  constructor
  · rw [Instance.peek_splice_of_disjoint _ _ (.inl (by decide)),
      Instance.peek_poke_of_lt _ (by decide), Instance.size_splice]
    have := I.input
    omega
  · rw [Instance.peek_splice_of_disjoint _ _ (.inr (by decide)),
      Instance.peek_splice_of_disjoint _ _ (.inr (by decide))]
    exact I.output

theorem freed (I : RangesInside m) {b : ℕ} (lo : 65 ≤ b) : RangesInside (m.freed b) := by
  have marked : RangesInside (m.poke 1 b 2) :=
    I.congr (fun x _ _ => Instance.bytes_splice_of_notMem _ _ (by omega)) (Nat.le_refl _)
  unfold Instance.freed
  split
  · exact marked.inputCleared
  · exact marked

theorem inputRanged (I : RangesInside m) {p len : ℕ} (inside : p + len ≤ m.size)
    (small : m.size ≤ 2 ^ 32) : RangesInside (m.ranged 33 41 p len) := by
  constructor
  · rw [Instance.ranged, Instance.peek_splice_of_disjoint _ _ (.inl (by decide)),
      Instance.peek_poke_of_lt _ (by omega), Instance.peek_poke_of_lt _ (by omega)]
    exact inside
  · rw [Instance.ranged]
    simp (disch := omega) only [Instance.peek_splice_of_disjoint]
    exact I.output

theorem outputRanged (I : RangesInside m) {p len : ℕ} (inside : p + len ≤ m.size)
    (small : m.size ≤ 2 ^ 32) : RangesInside (m.ranged 49 57 p len) := by
  constructor
  · rw [Instance.ranged]
    simp (disch := omega) only [Instance.peek_splice_of_disjoint]
    exact I.input
  · rw [Instance.ranged, Instance.peek_splice_of_disjoint _ _ (.inl (by decide)),
      Instance.peek_poke_of_lt _ (by omega), Instance.peek_poke_of_lt _ (by omega)]
    exact inside

end RangesInside

namespace Publishes

variable {m m' : Instance}

/-- The invariant from an initialised memory. -/
theorem of_represents {cs : List Cell} (R : Represents m cs) (pages : 1 ≤ m.pages)
    (ranges : RangesInside m) : Publishes m :=
  ⟨pages, .inr R.boot_eq, ⟨cs, by rwa [R.boot_eq]⟩, by rwa [R.boot_eq]⟩

theorem fresh {pages : ℕ} (lo : 1 ≤ pages) (hi : pages ≤ MAX_PAGES) (host : ℕ → Bool) :
    Publishes (.fresh pages host) := by
  have blank : (Instance.fresh pages host).Blank := rfl
  exact ⟨lo, .inl blank, ⟨[], blank.represents lo hi⟩,
    .of_zero fun x xlo xhi => blank.bytes_boot (by omega) xhi⟩

/-- A range accepted outside the gaps is inside memory. -/
theorem inside_of_careful {cs : List Cell} (R : Represents m.boot cs) (pages : 1 ≤ m.pages)
    {p len : ℕ} (accepted : m.boot.Accepts p len)
    (careful : Accepted (MemoryRoot.new m).2 p len → ¬ InGap (MemoryRoot.new m).2 p len) :
    p + len ≤ m.boot.size := by
  rw [MemoryRoot.new_eq pages] at careful
  exact ((R.inMemory_iff accepted).2 (careful (R.accepted_iff.2 accepted))).2

/-- What any call but an allocation or a store preserves. -/
theorem of_outcome (P : Publishes m) {cs cs' : List Cell} {call : Call} {v : ℕ}
    (R : Represents m.boot cs) (O : Outcome m cs call v m' cs') (careful : Careful m call)
    (noAlloc : ∀ n, call ≠ .alloc n) (noStore : call.span = none) : Publishes m' := by
  have pages : 1 ≤ m.boot.pages := by simpa using P.pages
  have size := R.size_le
  cases O with
  | pass same _ =>
      rcases same with ⟨rfl, -⟩ | rfl
      · exact P
      · exact of_represents R pages P.ranges
  | allocated => exact absurd rfl (noAlloc _)
  | freed held =>
      exact of_represents (R.freed held) (by simpa using pages)
        (P.ranges.freed (Represents.held_bounds held).1)
  | stored span => simp [span] at noStore
  | inputRanged accepted =>
      exact of_represents (R.ranged (by decide) (by decide) (by decide) (by decide)) pages
        (P.ranges.inputRanged (inside_of_careful R P.pages accepted careful) size)
  | outputRanged accepted =>
      exact of_represents (R.ranged (by decide) (by decide) (by decide) (by decide)) pages
        (P.ranges.outputRanged (inside_of_careful R P.pages accepted careful) size)
  | erred =>
      exact of_represents (R.splice _ (.inl ⟨by decide, by decide⟩)) pages
        (P.ranges.congr (fun x _ _ => Instance.bytes_splice_of_notMem _ _ (by omega))
          (Nat.le_refl _))
  | wiped =>
      exact of_represents R.wiped pages
        (.of_zero fun x lo hi => Instance.bytes_wiped _ _ (by omega) hi)

/-- **One careful step** keeps the published ranges inside memory. -/
theorem step (P : Publishes m) {call : Call} (careful : Careful m call)
    (step : publishingRuns.step m call m') : Publishes m' := by
  obtain ⟨noStore, v, run⟩ := step
  obtain ⟨cs, R⟩ := P.heap
  by_cases isAlloc : ∃ n, call = .alloc n
  · obtain ⟨n, rfl⟩ := isAlloc
    have orderly : Orderly (MemoryRoot.new m).2 n := careful
    rw [MemoryRoot.new_eq P.pages] at orderly
    have ran : alloc n m = (.ok v, m') := run
    rw [alloc, Prog.ite_apply] at ran
    split at ran
    · rw [(Prog.of_pure ran).1]
      exact P
    · obtain ⟨r, m₁, cs₁, eq, R₁, grown, same⟩ := R.alloc_orderly orderly
      rw [Prog.bind_ok (MemoryRoot.new_eq P.pages), Prog.bind_ok eq] at ran
      obtain ⟨rfl, -⟩ := Prog.of_pure ran
      have pages := P.pages
      refine of_represents R₁ ?_ (P.ranges.congr (fun x lo hi => same x (by omega) hi) grown)
      simp only [Instance.size, PAGE_SIZE, Instance.pages_boot] at grown
      omega
  · have requested : call.requested < 2 ^ 32 := by
      cases call <;> simp [Call.requested] at isAlloc ⊢
    obtain ⟨cs', O⟩ := outcome_of_run R P.pages P.settled requested
      (by simp [noStore]) run
    exact P.of_outcome R O careful (fun n eq => isAlloc ⟨n, eq⟩) noStore

end Publishes

/-- The runs all of whose steps are careful. -/
def carefulRuns : TransitionSystem Instance Call := publishingRuns.restrict Careful

/-- **What careful runs publish.**  In every state reached, an accepted range is
inside memory if and only if it is in no gap, and what `output_offset` and
`output_length` (`input_offset` and `input_length`) give the host is inside
memory. -/
theorem published_inside {m : Instance} (reach : carefulRuns.Reachable m) :
    (∀ p len, Accepted (MemoryRoot.new m).2 p len →
      (InMemory (MemoryRoot.new m).2 p len ↔ ¬ InGap (MemoryRoot.new m).2 p len)) ∧
    (∀ off len, (outputOffset m).1 = .ok off → (outputLength m).1 = .ok len →
      off + len ≤ PAGE_SIZE * m.pages) ∧
    ∀ off len, (inputOffset m).1 = .ok off → (inputLength m).1 = .ok len →
      off + len ≤ PAGE_SIZE * m.pages := by
  have P : Publishes m := by
    refine reach.invariant (I := Publishes) ?_ ?_
    · rintro _ ⟨pages, host, lo, hi, rfl⟩
      exact .fresh lo hi host
    · rintro m m' call P step
      exact P.step step.1 step.2
  obtain ⟨cs, R⟩ := P.heap
  have size : m.boot.size = PAGE_SIZE * m.pages := by rw [Instance.size, Instance.pages_boot]
  have field : ∀ {f v : ℕ}, f + 8 ≤ 65 → (getField f m).1 = .ok v → v = m.boot.peek 8 f := by
    intro f v hf eq
    rw [getField_eq P.pages hf] at eq
    exact (Except.ok.inj eq).symm
  refine ⟨fun p len accepted => ?_, fun off len at' length => ?_, fun off len at' length => ?_⟩
  · rw [MemoryRoot.new_eq P.pages] at accepted ⊢
    exact R.inMemory_iff (R.accepted_iff.1 accepted)
  · rw [field (by decide) at', field (by decide) length, ← size]
    exact P.ranges.output
  · rw [field (by decide) at', field (by decide) length, ← size]
    exact P.ranges.input

/-- An empty range right behind the only block is published and inside. -/
theorem published_inside_of_one_block :
    (InMemory (MemoryRoot.new ((Call.alloc 10).run (.fresh 1 fun _ => false)).2).2 77 10 ↔
      ¬ InGap (MemoryRoot.new ((Call.alloc 10).run (.fresh 1 fun _ => false)).2).2 77 10) := by
  have reach : carefulRuns.Reachable ((Call.alloc 10).run (.fresh 1 fun _ => false)).2 :=
    TransitionSystem.Reachable.step (l := .alloc 10)
      (.of_init ⟨1, fun _ => false, by decide, by decide, rfl⟩)
      ⟨.inl (by decide), rfl, 77, Prod.ext (by decide +kernel) rfl⟩
  exact (published_inside reach).1 77 10 ⟨by decide +kernel, by decide +kernel⟩

/-- A length near `2 ^ 64` is accepted: the range is not inside memory. -/
theorem not_every_accepted_range_inside :
    ¬ ∀ m, publishingRuns.Reachable m → ∀ p len, p < 2 ^ 64 → len < 2 ^ 64 →
      Accepted (MemoryRoot.new m).2 p len → InMemory (MemoryRoot.new m).2 p len := by
  intro all
  have reach : publishingRuns.Reachable (.fresh 1 fun _ => false) :=
    .of_init ⟨1, _, by decide, by decide, rfl⟩
  have inside := (all _ reach 67 (2 ^ 64 - 1) (by decide) (by decide)
    ⟨by decide +kernel, by decide +kernel⟩).2
  revert inside
  decide +kernel

end Extism.Kernel
