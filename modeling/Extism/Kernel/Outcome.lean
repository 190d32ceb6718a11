import Extism.Kernel.Find

/-!
# What one call can do

`Outcome` lists the ways a completed call can end, with the instance and the row
it leaves.  Everything proved about runs is a case analysis on it:

* `pass` — nothing but, possibly, the first initialisation of the root;
* `allocated` — `alloc`, in one of the four ways of `Allocated`;
* `freed` — `free` on a held block;
* `stored` — bytes written into a held block;
* `ranged`, `erred` — a range or an error recorded in the root;
* `wiped` — `reset`.

The one assumption on the caller is that an allocation is below 4 GiB and a store
stays inside one live block.  Everything else a caller may do, with handles that
are not live, ranges that are nowhere and errors that are no handles, is among
the outcomes.

## Main definitions

* `Call.Confined` — the caller's side of the contract.
* `Call.Rootless` — the calls that return before `MemoryRoot::new`.
* `Outcome` — the ways a call can end.
* `Instance.Settled` — a memory as the kernel keeps it between calls.

## Main results

* `outcome_of_run` — there is no other outcome.
* `Represents.freed`, `Represents.splice`, `Represents.ranged`,
  `Represents.wiped` — each outcome leaves a row.
* `Represents.storeU8_eq`, `Represents.loadU8_eq` and their like — the accessors
  inside a held block.
-/

namespace Extism.Kernel

open FirstFit (Cell Format)

/-! ## The instances calls leave behind -/

namespace Instance

/-- The block at `b` freed; with it goes the input it may have held. -/
def freed (m : Instance) (b : ℕ) : Instance :=
  if b + 12 = m.peek 8 33 then (m.poke 1 b 2).poke 8 41 0 else m.poke 1 b 2

/-- The heap of `pos` bytes and the metadata wiped; `length` stays. -/
def wiped (m : Instance) (pos : ℕ) : Instance :=
  ((((((m.poke 8 9 0).clear 65 pos).poke 8 25 0).poke 8 33 0).poke 8 41 0).poke 8 49 0).poke
    8 57 0

/-- A range recorded in two fields of the root. -/
def ranged (m : Instance) (offsetField lengthField p len : ℕ) : Instance :=
  (m.poke 8 offsetField p).poke 8 lengthField len

/-- The test `input_set` and `output_set` make: both ends of the range are below
`length`, counted from the first block. -/
def Accepts (m : Instance) (p len : ℕ) : Prop :=
  (65 ≤ p ∧ p < 65 + m.peek 8 17) ∧
    65 ≤ subU64 (addU64 p len) 1 ∧ subU64 (addU64 p len) 1 < 65 + m.peek 8 17

instance (m : Instance) (p len : ℕ) : Decidable (m.Accepts p len) :=
  inferInstanceAs (Decidable (_ ∧ _))

@[simp] theorem pages_freed (m : Instance) (b : ℕ) : (m.freed b).pages = m.pages := by
  unfold freed
  split <;> rfl

@[simp] theorem grows_freed (m : Instance) (b : ℕ) : (m.freed b).grows = m.grows := by
  unfold freed
  split <;> rfl

/-- `free` writes one status byte, and the input length if that. -/
theorem bytes_freed_of_ne (m : Instance) {b x : ℕ} (status : x ≠ b)
    (input : x < 41 ∨ 49 ≤ x) : (m.freed b).bytes x = m.bytes x := by
  unfold freed
  split <;> simp (disch := omega) only [bytes_splice_of_notMem]

end Instance

/-! ## Calls and what they may touch -/

/-- The `k` bytes from `p` on are inside one of the blocks `live`, given by handle
and length. -/
def Within (live : List (ℕ × ℕ)) (p k : ℕ) : Prop :=
  ∃ block ∈ live, block.1 ≤ p ∧ p + k ≤ block.1 + block.2

instance (live : List (ℕ × ℕ)) (p k : ℕ) : Decidable (Within live p k) :=
  inferInstanceAs (Decidable (∃ block ∈ live, _))

namespace Call

/-- The bytes a call allocates. -/
def requested : Call → ℕ
  | .alloc n => n
  | _ => 0

/-- The bytes a call stores to. -/
def span : Call → Option (ℕ × ℕ)
  | .storeU8 p _ => some (p, 1)
  | .storeU64 p _ => some (p, 8)
  | .hostWrite p bs => some (p, bs.length)
  | _ => none

/-- The call stores to the byte at `x`. -/
def Touches (c : Call) (x : ℕ) : Prop :=
  ∃ s, c.span = some s ∧ s.1 ≤ x ∧ x < s.1 + s.2

/-- **The caller's side of the contract**, for blocks `live`: allocations are
below 4 GiB, stores stay inside one block. -/
def Confined (live : List (ℕ × ℕ)) (c : Call) : Prop :=
  c.requested < 2 ^ 32 ∧ ∀ s ∈ c.span, Within live s.1 s.2

instance (live : List (ℕ × ℕ)) (c : Call) : Decidable (c.Confined live) :=
  inferInstanceAs (Decidable (_ ∧ _))

/-- The calls that return, or touch memory, before `MemoryRoot::new`. -/
def Rootless : Call → Prop
  | .alloc n => n = 0
  | .free p => p = 0
  | .length p => p = 0
  | .lengthUnsafe _ => True
  | .loadU8 _ => True
  | .loadU64 _ => True
  | _ => False

/-- The calls that leave row and blocks alone, given the row and the answer. -/
def Idle (cs : List Cell) (v : ℕ) : Call → Prop
  | .alloc _ => v = 0
  | .free p => v = 0 ∧ ∀ b k, b + 12 = p → ¬ heap.Held MemoryRoot.blocks cs b k
  | .reset => False
  | _ => True

end Call

/-- **The outcomes of a call** on an instance `m` whose row is `cs`: the value
returned, the instance left behind, and its row. -/
inductive Outcome (m : Instance) (cs : List Cell) :
    Call → ℕ → Instance → List Cell → Prop
  | pass {call : Call} {v : ℕ} {m' : Instance}
      (same : (m' = m ∧ call.Rootless) ∨ m' = m.boot) (idle : call.Idle cs v) :
      Outcome m cs call v m' cs
  | allocated {n : ℕ} {r : Option ℕ} {m' : Instance} {cs' : List Cell} (pos : n ≠ 0)
      (small : n < 2 ^ 32) (A : Allocated m.boot n cs r m' cs') :
      Outcome m cs (.alloc n) (handle r) m' cs'
  | freed {b k : ℕ} (held : heap.Held MemoryRoot.blocks cs b k) :
      Outcome m cs (.free (b + 12)) 0 (m.boot.freed b)
        (heap.release b MemoryRoot.blocks cs)
  | stored {call : Call} {a k b n : ℕ} {f : ℕ → UInt8} (span : call.span = some (a, k))
      (held : heap.Held MemoryRoot.blocks cs b n) (lo : b + 12 ≤ a) (hi : a + k ≤ b + 12 + n) :
      Outcome m cs call 0 (m.splice a k f) cs
  | inputRanged {h len : ℕ} (accepted : m.boot.Accepts h len) :
      Outcome m cs (.inputSet h len) 0 (m.boot.ranged 33 41 h len) cs
  | outputRanged {p len : ℕ} (accepted : m.boot.Accepts p len) :
      Outcome m cs (.outputSet p len) 0 (m.boot.ranged 49 57 p len) cs
  | erred {h : ℕ} : Outcome m cs (.errorSet h) 0 (m.boot.poke 8 25 h) cs
  | wiped : Outcome m cs .reset 0 (m.boot.wiped (heap.extent cs)) []

/-! ## Each call, evaluated -/

/-- A getter, on every memory of at least a page. -/
theorem getField_eq {m : Instance} (pages : 1 ≤ m.pages) {f : ℕ} (hf : f + 8 ≤ 65) :
    getField f m = (.ok (m.boot.peek 8 f), m.boot) := by
  have size := Instance.one_page_le (m := m.boot) (by rwa [Instance.pages_boot])
  rw [getField, Prog.bind_ok (MemoryRoot.new_eq pages), load_ok (by omega)]

namespace Represents

variable {m m' : Instance} {cs : List Cell} {b k v : ℕ}

/-- `free` once its block is found. -/
theorem free_found (R : Represents m cs) (held : heap.Held MemoryRoot.blocks cs b k) :
    free.found (b + 12) (some b) m = (.ok (), m.freed b) := by
  have bounds := held_bounds held
  have extent := R.extent_le
  rw [free.found, MemoryBlock.free, Prog.bind_ok (store_ok _ (by simp; omega)),
    Prog.bind_ok (load_ok (by simp; omega)),
    Instance.peek_splice_of_disjoint _ _ (by simp; omega), Prog.ite_apply, Instance.freed]
  split
  · rw [store_ok _ (by simp; omega)]
    rfl
  · rfl

/-- `free` on a held block completes. -/
theorem free_held (R : Represents m.boot cs) (pages : 1 ≤ m.pages)
    (held : heap.Held MemoryRoot.blocks cs b k) : free (b + 12) m = (.ok (), m.boot.freed b) := by
  rw [free, if_neg (by omega), Prog.bind_ok (MemoryRoot.new_eq pages),
    Prog.bind_ok (R.findBlock_held held), R.free_found held]

/-- `MemoryRoot::reset`. -/
theorem reset_eq (R : Represents m cs) :
    MemoryRoot.reset m = (.ok (), m.wiped (heap.extent cs)) := by
  have extent := R.extent_le
  have size := R.size_le
  rw [MemoryRoot.reset, Prog.bind_ok (load_ok (R.root_le (by decide))), R.position,
    Prog.bind_ok (store_ok _ (R.root_le (by decide))),
    toUsize_of_lt (show heap.extent cs < 2 ^ 32 by omega),
    Prog.bind_ok (writeZeros_ok (by simp; omega)),
    Prog.bind_ok (store_ok _ (by simp; omega)), Prog.bind_ok (store_ok _ (by simp; omega)),
    Prog.bind_ok (store_ok _ (by simp; omega)), Prog.bind_ok (store_ok _ (by simp; omega)),
    store_ok _ (by simp; omega)]
  rfl

/-- `reset`, executed. -/
theorem reset_run (R : Represents m.boot cs) (pages : 1 ≤ m.pages) :
    reset m = (.ok (), m.boot.wiped (heap.extent cs)) := by
  rw [reset, Prog.bind_ok (MemoryRoot.new_eq pages), R.reset_eq]

/-- `input_load_u8`, with its test and the load it guards. -/
theorem inputLoadU8_ite (R : Represents m.boot cs) (pages : 1 ≤ m.pages) (offset : ℕ) :
    inputLoadU8 offset m = if m.boot.peek 8 41 ≤ offset then (.ok 0, m.boot)
      else load 1 (toUsize (addU64 (m.boot.peek 8 33) offset)) m.boot := by
  rw [inputLoadU8, Prog.bind_ok (MemoryRoot.new_eq pages),
    Prog.bind_ok (load_ok (R.root_le (by decide))), Prog.ite_apply, MemoryRoot.inputLength]
  split
  · rfl
  · rw [Prog.bind_ok (load_ok (R.root_le (by decide))), MemoryRoot.inputOffset]

/-- `input_load_u64`, likewise. -/
theorem inputLoadU64_ite (R : Represents m.boot cs) (pages : 1 ≤ m.pages) (offset : ℕ) :
    inputLoadU64 offset m = if m.boot.peek 8 41 < addU64 offset 8 then (.ok 0, m.boot)
      else load 8 (toUsize (addU64 (m.boot.peek 8 33) offset)) m.boot := by
  rw [inputLoadU64, Prog.bind_ok (MemoryRoot.new_eq pages),
    Prog.bind_ok (load_ok (R.root_le (by decide))), Prog.ite_apply, MemoryRoot.inputLength]
  split
  · rfl
  · rw [Prog.bind_ok (load_ok (R.root_le (by decide))), MemoryRoot.inputOffset]

/-- The body of `input_set` and `output_set`, for two fields of the root. -/
theorem setRange_eq (R : Represents m.boot cs) (pages : 1 ≤ m.pages) {f g : ℕ} (p len : ℕ)
    (hf : f + 8 ≤ 65) (hg : g + 8 ≤ 65) :
    setRange f g p len m =
      (.ok (), if m.boot.Accepts p len then m.boot.ranged f g p len else m.boot) := by
  rw [setRange, Prog.bind_ok (MemoryRoot.new_eq pages), Prog.bind_ok (R.pointerInBounds_eq _),
    Prog.bind_ok (R.pointerInBounds_eq _)]
  have test : (decide (65 ≤ p ∧ p < 65 + m.boot.peek 8 MemoryRoot.length) &&
      decide (65 ≤ subU64 (addU64 p len) 1 ∧
        subU64 (addU64 p len) 1 < 65 + m.boot.peek 8 MemoryRoot.length)) =
      decide (m.boot.Accepts p len) := by
    rw [← Bool.decide_and]
    rfl
  rw [test, Prog.ite_apply]
  by_cases accepted : m.boot.Accepts p len
  · rw [if_pos accepted, if_pos (by simpa using accepted), Prog.bind_ok (store_ok _ (R.root_le hf)),
      store_ok _ (by rw [Instance.size_splice]; exact R.root_le hg)]
    rfl
  · rw [if_neg accepted, if_neg (by simpa using accepted)]
    rfl

theorem errorSet_eq (R : Represents m.boot cs) (pages : 1 ≤ m.pages) (h : ℕ) :
    errorSet h m = (.ok (), if h = 0 ∨ (65 ≤ h ∧ h < 65 + m.boot.peek 8 17) then
      m.boot.poke 8 25 h else m.boot) := by
  rw [errorSet, Prog.bind_ok (MemoryRoot.new_eq pages), Prog.ite_apply]
  by_cases null : h = 0
  · rw [if_pos null, if_pos (.inl null), store_ok _ (R.root_le (by decide))]
  · rw [if_neg null, Prog.bind_ok (R.pointerInBounds_eq _), Prog.ite_apply]
    simp only [decide_eq_true_eq, null, false_or, MemoryRoot.length]
    split
    · rw [store_ok _ (R.root_le (by decide))]
    · rfl

/-- The guard of the raw accessors accepts a span inside a held block. -/
theorem guard_held (R : Represents m cs) {n : ℕ} (held : heap.Held MemoryRoot.blocks cs b n)
    {p : ℕ} (lo : b + 12 ≤ p) (hi : p + k ≤ b + 12 + n) (pos : 1 ≤ k) :
    MemoryRoot.pointerInBoundsFast (subU64 (addU64 p k) 1) m = (.ok true, m) ∧
      toUsize p = p ∧ p + k ≤ m.size := by
  have bounds := held_bounds held
  have extent := R.extent_le
  have size := R.size_le
  refine ⟨?_, toUsize_of_lt (by omega), by omega⟩
  rw [pointerInBoundsFast_eq, show subU64 (addU64 p k) 1 = p + k - 1 by
    simp only [subU64, addU64]
    omega]
  have pages : m.pages * 65536 = m.size := by
    simp only [Instance.size, PAGE_SIZE]
    omega
  rw [pages, decide_eq_true (by omega)]

/-- `store_u8` into a held block. -/
theorem storeU8_eq (R : Represents m cs) {n : ℕ} (held : heap.Held MemoryRoot.blocks cs b n)
    {p : ℕ} (x : ℕ) (lo : b + 12 ≤ p) (hi : p + 1 ≤ b + 12 + n) :
    storeU8 p x m = (.ok (), m.poke 1 p x) := by
  obtain ⟨guard, eq, inside⟩ := R.guard_held held lo hi (Nat.le_refl 1)
  have bounds := R.length_lt
  rw [show subU64 (addU64 p 1) 1 = p by
    have := R.size_le
    simp only [subU64, addU64]
    omega] at guard
  rw [storeU8, Prog.bind_ok guard, if_pos rfl, eq, store_ok _ inside]

/-- `store_u64` into a held block. -/
theorem storeU64_eq (R : Represents m cs) {n : ℕ} (held : heap.Held MemoryRoot.blocks cs b n)
    {p : ℕ} (x : ℕ) (lo : b + 12 ≤ p) (hi : p + 8 ≤ b + 12 + n) :
    storeU64 p x m = (.ok (), m.poke 8 p x) := by
  obtain ⟨guard, eq, inside⟩ := R.guard_held held lo hi (by decide)
  rw [storeU64, Prog.bind_ok guard, if_pos rfl, eq, store_ok _ inside]

/-- `load_u8` inside a held block. -/
theorem loadU8_eq (R : Represents m cs) {n : ℕ} (held : heap.Held MemoryRoot.blocks cs b n)
    {p : ℕ} (lo : b + 12 ≤ p) (hi : p + 1 ≤ b + 12 + n) :
    loadU8 p m = (.ok (m.peek 1 p), m) := by
  obtain ⟨guard, eq, inside⟩ := R.guard_held held lo hi (Nat.le_refl 1)
  rw [show subU64 (addU64 p 1) 1 = p by
    have := R.size_le
    simp only [subU64, addU64]
    omega] at guard
  rw [loadU8, Prog.bind_ok guard, if_pos rfl, eq, load_ok inside]

/-- `load_u64` inside a held block. -/
theorem loadU64_eq (R : Represents m cs) {n : ℕ} (held : heap.Held MemoryRoot.blocks cs b n)
    {p : ℕ} (lo : b + 12 ≤ p) (hi : p + 8 ≤ b + 12 + n) :
    loadU64 p m = (.ok (m.peek 8 p), m) := by
  obtain ⟨guard, eq, inside⟩ := R.guard_held held lo hi (by decide)
  rw [loadU64, Prog.bind_ok guard, if_pos rfl, eq, load_ok inside]

/-- The host's write into a held block. -/
theorem hostWrite_eq (R : Represents m cs) {n : ℕ} (held : heap.Held MemoryRoot.blocks cs b n)
    {p : ℕ} {bs : List UInt8} (hi : p + bs.length ≤ b + 12 + n) :
    hostWrite p bs m = (.ok (), m.copy p bs) := by
  have bounds := held_bounds held
  have extent := R.extent_le
  rw [hostWrite, if_pos (by omega)]

/-- Nothing is held before the first call. -/
theorem row_nil_of_blank (R : Represents m.boot cs) (blank : m.Blank) (pages : 1 ≤ m.pages) :
    cs = [] := by
  have le : m.pages ≤ MAX_PAGES := by simpa using R.pages_le
  have none := (blank.represents pages le).position
  rw [R.position] at none
  have length := Format.length_le_extent (F := heap) cs
  rw [none] at length
  simpa using length

end Represents

/-! ## There is no other outcome -/

theorem Exec.of_discard {x : Exec Unit} {v : ℕ} {m m' : Instance}
    (h : x.discard m = (.ok v, m')) : v = 0 ∧ x m = (.ok (), m') := by
  obtain ⟨u, m₁, run, h⟩ := Prog.bind_eq_ok h
  obtain ⟨rfl, rfl⟩ := Prog.of_pure h
  exact ⟨rfl, run⟩

/-- A memory as the kernel keeps it between calls: untouched, or set up. -/
def Instance.Settled (m : Instance) : Prop := m.Blank ∨ m.boot = m

section Outcomes

variable {m m' : Instance} {cs : List Cell} {v : ℕ}

theorem getField_outcome (pages : 1 ≤ m.pages) {f : ℕ}
    (hf : f + 8 ≤ 65) (run : getField f m = (.ok v, m')) : m' = m.boot := by
  rw [getField_eq pages hf] at run
  exact (Prod.mk.inj run).2.symm

/-- A memory with a block in it has been set up. -/
theorem Instance.Settled.boot_of_place (settled : m.Settled) (pages : 1 ≤ m.pages)
    (R : Represents m.boot cs) {b : ℕ} {c : Cell}
    (placed : (b, c) ∈ heap.place MemoryRoot.blocks cs) : m.boot = m := by
  rcases settled with blank | eq
  · rw [R.row_nil_of_blank blank pages] at placed
    simp at placed
  · exact eq

theorem Instance.Settled.boot_eq (settled : m.Settled) (pages : 1 ≤ m.pages)
    (R : Represents m.boot cs) {b k : ℕ} (held : heap.Held MemoryRoot.blocks cs b k) :
    m.boot = m := by
  obtain ⟨c, placed, -⟩ := held
  exact settled.boot_of_place pages R placed

/-- `alloc` of some bytes is `MemoryRoot::alloc` on the memory set up. -/
theorem alloc_run {n : ℕ} {r : Option ℕ} (some : n ≠ 0) (pages : 1 ≤ m.pages)
    (eq : MemoryRoot.alloc n m.boot = (.ok r, m')) : alloc n m = (.ok (handle r), m') := by
  rw [alloc, if_neg some, Prog.bind_ok (MemoryRoot.new_eq pages), Prog.bind_ok eq]
  rfl

theorem alloc_outcome (R : Represents m.boot cs) (pages : 1 ≤ m.pages) {n : ℕ}
    (small : n < 2 ^ 32) (run : alloc n m = (.ok v, m')) :
    ∃ cs', Outcome m cs (.alloc n) v m' cs' := by
  by_cases null : n = 0
  · rw [alloc, if_pos null] at run
    obtain ⟨rfl, rfl⟩ := Prog.of_pure run
    exact ⟨cs, .pass (.inl ⟨rfl, null⟩) rfl⟩
  · obtain ⟨r, m₁, cs', eq, A⟩ := R.alloc_spec small
    rw [alloc_run null pages eq] at run
    obtain ⟨rfl, rfl⟩ := Prog.of_pure run
    exact ⟨cs', .allocated null small A⟩

theorem free_outcome (R : Represents m.boot cs) (pages : 1 ≤ m.pages) {p : ℕ} {u : Unit}
    (run : free p m = (.ok u, m')) : ∃ cs', Outcome m cs (.free p) 0 m' cs' := by
  rw [free, Prog.ite_apply] at run
  split at run
  case isTrue null =>
    obtain ⟨rfl, -⟩ := Prog.of_pure run
    exact ⟨cs, .pass (.inl ⟨rfl, null⟩) ⟨rfl, fun b k eq => by omega⟩⟩
  case isFalse =>
    rw [Prog.bind_ok (MemoryRoot.new_eq pages)] at run
    obtain ⟨r, m₁, found, run⟩ := Prog.bind_eq_ok run
    by_cases held : ∃ b k, b + 12 = p ∧ heap.Held MemoryRoot.blocks cs b k
    · obtain ⟨b, k, rfl, held⟩ := held
      rw [R.findBlock_held held] at found
      simp only [Prod.mk.injEq, Except.ok.injEq] at found
      obtain ⟨rfl, rfl⟩ := found
      rw [R.free_found held] at run
      obtain ⟨-, rfl⟩ := Prod.mk.inj run
      exact ⟨_, .freed held⟩
    · have none : ∀ b k, b + 12 = p → ¬ heap.Held MemoryRoot.blocks cs b k :=
        fun b k eq h => held ⟨b, k, eq, h⟩
      obtain ⟨rfl, rfl⟩ := R.findBlock_not_held none found
      obtain ⟨rfl, -⟩ := Prog.of_pure run
      exact ⟨cs, .pass (.inr rfl) ⟨rfl, none⟩⟩

theorem length_outcome (R : Represents m.boot cs) (pages : 1 ≤ m.pages) {p : ℕ}
    (run : length p m = (.ok v, m')) : (m' = m ∧ p = 0) ∨ m' = m.boot := by
  rw [length, Prog.ite_apply] at run
  split at run
  case isTrue null => exact .inl ⟨(Prog.of_pure run).1, null⟩
  case isFalse =>
    rw [Prog.bind_ok (MemoryRoot.new_eq pages)] at run
    obtain ⟨r, m₁, found, rest⟩ := Prog.bind_eq_ok run
    obtain ⟨rfl, -⟩ := R.findBlock_result found
    cases r with
    | none => exact .inr (Prog.of_pure rest).1
    | some b => exact .inr (of_load rest).1

theorem lengthUnsafe_outcome {p : ℕ} (run : lengthUnsafe p m = (.ok v, m')) : m' = m := by
  rw [lengthUnsafe, Prog.ite_apply] at run
  split at run
  · exact (Prog.of_pure run).1
  · rw [Prog.bind_ok (Represents.pointerInBoundsFast_eq m p), Prog.ite_apply] at run
    split at run
    · obtain ⟨status, m₁, loaded, rest⟩ := Prog.bind_eq_ok run
      obtain ⟨rfl, -, -⟩ := of_load loaded
      rw [Prog.ite_apply] at rest
      split at rest
      · exact (Prog.of_pure rest).1
      · exact (of_load rest).1
    · exact (Prog.of_pure run).1

/-- A guarded load writes nothing. -/
theorem guarded_load {p k a : ℕ} (run : (do
      let inBounds ← MemoryRoot.pointerInBoundsFast p
      if inBounds then load k a else pure 0 : Exec ℕ) m = (.ok v, m')) : m' = m := by
  rw [Prog.bind_ok (Represents.pointerInBoundsFast_eq m p), Prog.ite_apply] at run
  split at run
  · exact (of_load run).1
  · exact (Prog.of_pure run).1

theorem inputLoadU8_outcome (R : Represents m.boot cs) (pages : 1 ≤ m.pages) {offset : ℕ}
    (run : inputLoadU8 offset m = (.ok v, m')) : m' = m.boot := by
  rw [R.inputLoadU8_ite pages] at run
  split at run
  · exact (Prod.mk.inj run).2.symm
  · exact (of_load run).1

theorem inputLoadU64_outcome (R : Represents m.boot cs) (pages : 1 ≤ m.pages) {offset : ℕ}
    (run : inputLoadU64 offset m = (.ok v, m')) : m' = m.boot := by
  rw [R.inputLoadU64_ite pages] at run
  split at run
  · exact (Prod.mk.inj run).2.symm
  · exact (of_load run).1

/-- **No other outcome**: a completed call that keeps to the contract ends in one
of the ways of `Outcome`. -/
theorem outcome_of_run (R : Represents m.boot cs) (pages : 1 ≤ m.pages) (settled : m.Settled)
    {call : Call}
    (small : call.requested < 2 ^ 32)
    (confined : ∀ s, call.span = some s → ∃ b n, heap.Held MemoryRoot.blocks cs b n ∧
      b + 12 ≤ s.1 ∧ s.1 + s.2 ≤ b + 12 + n)
    (run : call.run m = (.ok v, m')) : ∃ cs', Outcome m cs call v m' cs' := by
  cases call with
  | alloc n => exact alloc_outcome R pages small run
  | free p =>
      obtain ⟨rfl, ran⟩ := Exec.of_discard run
      exact free_outcome R pages ran
  | lengthUnsafe p => exact ⟨cs, .pass (.inl ⟨lengthUnsafe_outcome run, trivial⟩) trivial⟩
  | length p => exact ⟨cs, .pass (length_outcome R pages run) trivial⟩
  | loadU8 p => exact ⟨cs, .pass (.inl ⟨guarded_load run, trivial⟩) trivial⟩
  | loadU64 p => exact ⟨cs, .pass (.inl ⟨guarded_load run, trivial⟩) trivial⟩
  | inputLoadU8 offset => exact ⟨cs, .pass (.inr (inputLoadU8_outcome R pages run)) trivial⟩
  | inputLoadU64 offset => exact ⟨cs, .pass (.inr (inputLoadU64_outcome R pages run)) trivial⟩
  | storeU8 p x =>
      obtain ⟨rfl, ran⟩ := Exec.of_discard run
      obtain ⟨b, n, held, lo, hi⟩ := confined _ rfl
      have R' := R
      rw [settled.boot_eq pages R held] at R'
      rw [R'.storeU8_eq held x lo hi] at ran
      obtain ⟨-, rfl⟩ := Prod.mk.inj ran
      exact ⟨cs, .stored rfl held lo hi⟩
  | storeU64 p x =>
      obtain ⟨rfl, ran⟩ := Exec.of_discard run
      obtain ⟨b, n, held, lo, hi⟩ := confined _ rfl
      have R' := R
      rw [settled.boot_eq pages R held] at R'
      rw [R'.storeU64_eq held x lo hi] at ran
      obtain ⟨-, rfl⟩ := Prod.mk.inj ran
      exact ⟨cs, .stored rfl held lo hi⟩
  | inputSet h len =>
      obtain ⟨rfl, ran⟩ := Exec.of_discard run
      rw [inputSet, R.setRange_eq pages h len (by decide) (by decide)] at ran
      obtain ⟨-, rfl⟩ := Prod.mk.inj ran
      split
      · exact ⟨cs, .inputRanged ‹_›⟩
      · exact ⟨cs, .pass (.inr rfl) trivial⟩
  | outputSet p len =>
      obtain ⟨rfl, ran⟩ := Exec.of_discard run
      rw [outputSet, R.setRange_eq pages p len (by decide) (by decide)] at ran
      obtain ⟨-, rfl⟩ := Prod.mk.inj ran
      split
      · exact ⟨cs, .outputRanged ‹_›⟩
      · exact ⟨cs, .pass (.inr rfl) trivial⟩
  | inputLength => exact ⟨cs, .pass (.inr (getField_outcome pages (by decide) run)) trivial⟩
  | inputOffset => exact ⟨cs, .pass (.inr (getField_outcome pages (by decide) run)) trivial⟩
  | outputLength => exact ⟨cs, .pass (.inr (getField_outcome pages (by decide) run)) trivial⟩
  | outputOffset => exact ⟨cs, .pass (.inr (getField_outcome pages (by decide) run)) trivial⟩
  | reset =>
      obtain ⟨rfl, ran⟩ := Exec.of_discard run
      rw [R.reset_run pages] at ran
      obtain ⟨-, rfl⟩ := Prod.mk.inj ran
      exact ⟨[], .wiped⟩
  | errorSet h =>
      obtain ⟨rfl, ran⟩ := Exec.of_discard run
      rw [R.errorSet_eq pages] at ran
      obtain ⟨-, rfl⟩ := Prod.mk.inj ran
      split
      · exact ⟨cs, .erred⟩
      · exact ⟨cs, .pass (.inr rfl) trivial⟩
  | errorGet => exact ⟨cs, .pass (.inr (getField_outcome pages (by decide) run)) trivial⟩
  | memoryBytes => exact ⟨cs, .pass (.inr (getField_outcome pages (by decide) run)) trivial⟩
  | hostWrite p bs =>
      obtain ⟨rfl, ran⟩ := Exec.of_discard run
      obtain ⟨b, n, held, lo, hi⟩ := confined _ rfl
      have R' := R
      rw [settled.boot_eq pages R held] at R'
      rw [R'.hostWrite_eq held hi] at ran
      obtain ⟨-, rfl⟩ := Prod.mk.inj ran
      exact ⟨cs, .stored rfl held lo hi⟩

end Outcomes

/-! ## What an outcome preserves -/

namespace Represents

variable {m : Instance} {cs : List Cell} {b k : ℕ}

/-- Writing into a held block, or into the root behind `length`. -/
theorem splice (R : Represents m cs) {a j : ℕ} (f : ℕ → UInt8)
    (where_ : (25 ≤ a ∧ a + j ≤ 65) ∨
      ∃ b n, heap.Held MemoryRoot.blocks cs b n ∧ b + 12 ≤ a ∧ a + j ≤ b + 12 + n) :
    Represents (m.splice a j f) cs := by
  refine R.congr (fun x lo hi => ?_) (fun x lo hi => ?_) rfl
  · refine Instance.bytes_splice_of_notMem _ _ ?_
    rcases where_ with root | ⟨b, n, held, out, -⟩
    · omega
    · have := held_bounds held
      omega
  · simp only [MemoryRoot.blocks] at lo
    by_cases inside : a ≤ x ∧ x < a + j
    · rcases where_ with root | ⟨b, n, held, blo, bhi⟩
      · omega
      · exact .inr ⟨b, n, held, by omega, by omega⟩
    · exact .inl (Instance.bytes_splice_of_notMem _ _ (by omega))

/-- Recording a range in the root. -/
theorem ranged (R : Represents m cs) {f g p len : ℕ} (flo : 25 ≤ f) (fhi : f + 8 ≤ 65)
    (glo : 25 ≤ g) (ghi : g + 8 ≤ 65) : Represents (m.ranged f g p len) cs :=
  (R.splice _ (.inl ⟨flo, fhi⟩)).splice _ (.inl ⟨glo, ghi⟩)

/-- The headers once the status of a held block is set to free. -/
theorem headerAt_released (R : Represents m cs) (held : heap.Held MemoryRoot.blocks cs b k)
    {x : ℕ} {d : Cell} (mem : (x, d) ∈
      heap.place MemoryRoot.blocks (heap.release b MemoryRoot.blocks cs)) :
    HeaderAt (m.poke 1 b 2) x d := by
  obtain ⟨c, mem', eq⟩ := Format.mem_place_release _ mem
  obtain ⟨c', mem'', taken, -⟩ := held
  have header := R.header mem'
  by_cases here : x = b
  · subst here
    rw [if_pos ⟨rfl, by rwa [Format.place_inj mem' mem'']⟩] at eq
    subst eq
    constructor
    · simp only [MemoryBlock.status, Cell.vacate, cellStatus_vacant, MemoryStatus.code]
      exact Instance.peek_poke_of_lt _ (by decide)
    · simp only [MemoryBlock.size, Cell.vacate_size]
      rw [Instance.peek_splice_of_disjoint _ _ (by omega)]
      exact header.size
    · simp only [MemoryBlock.used, Cell.vacate_used]
      rw [Instance.peek_splice_of_disjoint _ _ (by omega)]
      exact header.used
  · rw [if_neg (by simp [here])] at eq
    subst eq
    -- another cell's header does not contain the byte at `b`
    refine header.congr fun y lo hi => Instance.bytes_splice_of_notMem _ _ ?_
    rcases Format.place_apart mem' mem'' with ⟨eq, -⟩ | before | after
    · exact absurd eq here
    all_goals
      simp only [Format.width, MemoryBlock.sizeOf] at *
      omega

/-- Freeing the block at `b`. -/
theorem freed (R : Represents m cs) (held : heap.Held MemoryRoot.blocks cs b k) :
    Represents (m.freed b) (heap.release b MemoryRoot.blocks cs) := by
  have bounds := held_bounds held
  have extent := R.extent_le
  -- the status byte, before the input length is looked at
  have marked : Represents (m.poke 1 b 2) (heap.release b MemoryRoot.blocks cs) := by
    constructor
    · rw [Instance.peek_splice_of_disjoint _ _ (by simp; omega), R.initialized]
    · exact R.pages_le
    · rw [Instance.peek_splice_of_disjoint _ _ (by simp; omega), R.position,
        Format.extent_release]
    · exact fun _ mem => R.headerAt_released held mem
    · rw [Instance.peek_splice_of_disjoint _ _ (by simp; omega), Format.extent_release]
      exact R.room
    · rw [Instance.peek_splice_of_disjoint _ _ (by simp; omega)]
      exact R.fits
    · intro x lo hi
      rw [Format.extent_release, MemoryRoot.blocks] at lo
      rw [Instance.bytes_splice_of_notMem _ _ (by omega)]
      exact R.zero x lo hi
  rw [Instance.freed]
  split
  · exact marked.splice _ (.inl ⟨by omega, by omega⟩)
  · exact marked

/-- Wiping the heap. -/
theorem wiped (R : Represents m cs) : Represents (m.wiped (heap.extent cs)) [] := by
  have extent := R.extent_le
  rw [Instance.wiped]
  iterate 5 refine splice ?_ _ (.inl ⟨by omega, by omega⟩)
  constructor
  · rw [MemoryRoot.initialized]
    simp (disch := omega) only [Instance.peek_splice_of_disjoint]
    exact R.initialized
  · exact R.pages_le
  · rw [MemoryRoot.position]
    simp (disch := omega) only [Instance.peek_splice_of_disjoint]
    exact Instance.peek_poke_of_lt _ (by decide)
  · simp
  · rw [MemoryRoot.length]
    simp (disch := omega) only [Instance.peek_splice_of_disjoint]
    have := R.room
    simp only [Format.extent_nil, MemoryRoot.length] at *
    omega
  · rw [MemoryRoot.length]
    simp (disch := omega) only [Instance.peek_splice_of_disjoint]
    exact R.fits
  · intro x lo hi
    simp only [MemoryRoot.blocks, Format.extent_nil] at lo
    by_cases cleared : x < 65 + heap.extent cs
    · rw [Instance.bytes_splice_of_mem _ _ lo cleared]
    · rw [Instance.bytes_splice_of_notMem _ _ (by omega),
        Instance.bytes_splice_of_notMem _ _ (by omega)]
      exact R.zero x (by simp only [MemoryRoot.blocks]; omega) hi

end Represents

end Extism.Kernel
