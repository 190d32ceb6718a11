import Extism.Kernel.Alloc

/-!
# `MemoryRoot::find_block` on a represented heap

`find_block` looks for the active block whose data starts at a handle.  Its loop
is bounded by the handle, not by `position`, so for a handle of no block it runs
on past the last block, through bytes that are still zero: there it sees headers
with status `Unused` and size 0, twelve bytes apart, until it reaches its bound
or leaves the memory.  This is the only place where `Represents.zero` is needed to
exclude a wrong answer.

So the answer is right for every handle for which there is one; whether there is
one for an address behind the heap is another question, and is not settled here.

## Main results

* `MemoryRoot.findBlock.walk_behind`, `MemoryRoot.findBlock.walk_row` — the loop
  behind the row, and from the first block on.
* `Represents.held_bounds` — a held block is inside memory, below `length`.
* `Represents.findBlock_held` — a held block is found under its handle.
* `Represents.findBlock_result`, `Represents.findBlock_not_held` — what is found
  is held, and nothing is written on the way.
-/

namespace Extism.Kernel

open FirstFit (Cell Format)

namespace MemoryRoot.findBlock

variable {m m' : Instance} {offs limit : ℕ}

/-- On zero bytes the next block is a header further. -/
theorem nextPtr_of_zero {block next : ℕ} (zero : ∀ x, block ≤ x → x < m.size → m.bytes x = 0)
    (h : MemoryBlock.nextPtr block m = (.ok next, m')) : m' = m ∧ next = block + 12 := by
  obtain ⟨size, m₁, loaded, h⟩ := Prog.bind_eq_ok h
  obtain ⟨rfl, rfl, inside⟩ := of_load loaded
  obtain ⟨rfl, rfl⟩ := of_ptrAdd h
  simp only [MemoryBlock.size] at inside
  rw [Instance.peek_eq_zero fun x lo hi => zero x (by simp at lo; omega) (by simp at hi; omega)]
  exact ⟨rfl, rfl⟩

/-- Behind the row every header is blank: the loop finds nothing there. -/
theorem walk_behind (addr : m.size ≤ 2 ^ 32) {r : Option ℕ} :
    ∀ (fuel a : ℕ), (∀ x, a ≤ x → x < m.size → m.bytes x = 0) →
      walk offs limit fuel a m = (.ok r, m') → m' = m ∧ r = none := by
  intro fuel
  induction fuel with
  | zero =>
      intro a _ h
      rw [walk, Prog.ite_apply] at h
      split at h
      · simp at h
      · exact Prog.of_pure h
  | succ fuel ih =>
      intro a zero h
      rw [walk, Prog.ite_apply] at h
      split at h
      case isFalse => exact Prog.of_pure h
      obtain ⟨status, m₁, loaded, h⟩ := Prog.bind_eq_ok h
      obtain ⟨rfl, rfl, inside⟩ := of_load loaded
      simp only [MemoryBlock.status] at inside h
      rw [Instance.peek_eq_zero fun x lo hi => zero x lo (by omega), if_neg (by simp)] at h
      obtain ⟨next, m₂, moved, h⟩ := Prog.bind_eq_ok h
      obtain ⟨rfl, rfl⟩ := nextPtr_of_zero zero moved
      exact ih (a + 12) (fun x lo hi => zero x (by omega) hi) h

/-- **The loop, wherever it ends**: it writes nothing, and the block it returns
is a held cell of the row.  The induction is on the rounds; a round passes a cell
until the row is over. -/
theorem walk_row (addr : m.size ≤ 2 ^ 32) {r : Option ℕ} :
    ∀ (fuel : ℕ) (cs : List Cell) (a : ℕ), (∀ p ∈ heap.place a cs, HeaderAt m p.1 p.2) →
      a + heap.extent cs + 12 ≤ m.size ∨ cs = [] →
      (∀ x, a + heap.extent cs ≤ x → x < m.size → m.bytes x = 0) →
      walk offs limit fuel a m = (.ok r, m') →
      m' = m ∧ ∀ b, r = some b → b + 12 = offs ∧ ∃ k, heap.Held a cs b k := by
  intro fuel
  induction fuel with
  | zero =>
      intro cs a _ _ _ h
      rw [walk, Prog.ite_apply] at h
      split at h
      · simp at h
      · obtain ⟨rfl, rfl⟩ := Prog.of_pure h
        exact ⟨rfl, by simp⟩
  | succ fuel ih =>
      intro cs a headers room zero h
      cases cs with
      | nil =>
          obtain ⟨rfl, rfl⟩ := walk_behind addr (fuel + 1) a (by simpa using zero) h
          exact ⟨rfl, by simp⟩
      | cons c cs =>
          rw [walk, Prog.ite_apply] at h
          split at h
          case isFalse =>
            obtain ⟨rfl, rfl⟩ := Prog.of_pure h
            exact ⟨rfl, by simp⟩
          simp only [Format.place_cons, List.mem_cons, forall_eq_or_imp] at headers
          simp only [Format.extent_cons, reduceCtorEq, or_false] at room zero
          have header := headers.1
          have widthPos : 12 ≤ heap.width c := by simp [Format.width]
          rw [Prog.bind_ok (load_ok (by simp only [MemoryBlock.status]; omega)), header.status,
            Prog.ite_apply] at h
          split at h
          case isTrue found =>
            obtain ⟨rfl, rfl⟩ := Prog.of_pure h
            refine ⟨rfl, ?_⟩
            rintro b ⟨⟩
            refine ⟨found.2, c.used, Format.held_cons.2 (.inl ⟨rfl, ?_, rfl⟩)⟩
            by_contra free
            rw [cellStatus_of_free (by simpa using free)] at found
            simp at found
          case isFalse =>
            rw [Prog.bind_ok (findFreeBlock.nextPtr_eq header (by omega) (by omega))] at h
            obtain ⟨eq, found⟩ := ih cs _ headers.2 (.inl (by omega))
              (fun x lo hi => zero x (by omega) hi) h
            refine ⟨eq, fun b some => ?_⟩
            obtain ⟨at', k, held⟩ := found b some
            exact ⟨at', k, Format.held_cons.2 (.inr held)⟩

/-- The loop finds a held cell. -/
theorem walk_held {c : Cell} (addr : m.size ≤ 2 ^ 32)
    (taken : c.free = false) :
    ∀ (fuel : ℕ) (cs : List Cell) (a : ℕ), (∀ p ∈ heap.place a cs, HeaderAt m p.1 p.2) →
      a + heap.extent cs + 12 ≤ m.size → (offs, c) ∈ heap.place (a + 12) cs → offs < limit →
      limit ≤ a + fuel →
      ∃ b, b + 12 = offs ∧ walk offs limit fuel a m = (.ok (some b), m) := by
  intro fuel
  induction fuel with
  | zero =>
      intro cs a _ _ mem lt enough
      have := Format.place_bounds mem
      omega
  | succ fuel ih =>
      intro cs a headers room mem lt enough
      cases cs with
      | nil => simp at mem
      | cons d cs =>
          have after := Format.place_bounds mem
          simp only [Format.place_cons, List.mem_cons, forall_eq_or_imp, Prod.mk.injEq]
            at headers mem
          simp only [Format.extent_cons] at room
          have header := headers.1
          have widthPos : 12 ≤ heap.width d := by simp [Format.width]
          rw [walk, if_pos (by omega),
            Prog.bind_ok (load_ok (by simp only [MemoryBlock.status]; omega)), header.status]
          rcases mem with ⟨here, rfl⟩ | mem
          · refine ⟨a, here.symm, ?_⟩
            rw [cellStatus_of_held taken, if_pos ⟨rfl, here.symm⟩]
            rfl
          · -- an earlier cell has an earlier handle
            have later := Format.place_bounds mem
            rw [if_neg (by simp only [MemoryBlock.data]; omega),
              Prog.bind_ok (findFreeBlock.nextPtr_eq header (by omega) (by omega))]
            exact ih cs _ headers.2 (by omega)
              (by rwa [show a + heap.width d + 12 = a + 12 + heap.width d by omega]) lt (by omega)

end MemoryRoot.findBlock

namespace Represents

variable {m m' : Instance} {cs : List Cell} {b k p : ℕ}

/-- A held block is inside memory, below `length`. -/
theorem held_bounds (held : heap.Held MemoryRoot.blocks cs b k) :
    65 ≤ b ∧ b + 12 + k ≤ 65 + heap.extent cs := by
  simpa only [MemoryBlock.sizeOf, MemoryRoot.blocks] using held.bounds

theorem pointerInBoundsFast_eq (m : Instance) (p : ℕ) :
    MemoryRoot.pointerInBoundsFast p m = (.ok (decide (64 ≤ p ∧ p ≤ m.pages * 65536)), m) := rfl

theorem pointerInBounds_eq (R : Represents m cs) (p : ℕ) :
    MemoryRoot.pointerInBounds p m =
      (.ok (decide (65 ≤ p ∧ p < 65 + m.peek 8 MemoryRoot.length)), m) := by
  have lt := R.length_lt
  rw [MemoryRoot.pointerInBounds, Prog.bind_ok (load_ok (R.root_le (by decide))),
    show addU64 MemoryRoot.blocks (m.peek 8 MemoryRoot.length) =
      65 + m.peek 8 MemoryRoot.length by
        simp only [addU64, MemoryRoot.blocks, MemoryRoot.length] at *
        omega]
  rfl

/-- A held block is found under its handle. -/
theorem findBlock_held (R : Represents m cs) (held : heap.Held MemoryRoot.blocks cs b k) :
    MemoryRoot.findBlock (b + 12) m = (.ok (some b), m) := by
  have bounds := held_bounds held
  have extent := R.extent_le
  have size := R.size_le
  obtain ⟨c, mem, taken, -⟩ := held
  have shifted : (b + 12, c) ∈ heap.place (MemoryRoot.blocks + 12) cs := by
    rw [Nat.add_comm b, Nat.add_comm MemoryRoot.blocks]
    exact Format.place_shift mem
  have limit : addU64 MemoryRoot.blocks (b + 12) = 65 + (b + 12) := by
    simp only [addU64, MemoryRoot.blocks]
    omega
  rw [MemoryRoot.findBlock, Prog.bind_ok (pointerInBoundsFast_eq m _), if_pos (by
    simp only [Instance.size, PAGE_SIZE, decide_eq_true_eq] at *
    omega), limit]
  obtain ⟨b', eq, found⟩ := MemoryRoot.findBlock.walk_held size taken (b + 12) cs
    MemoryRoot.blocks R.headers (by simp only [MemoryRoot.blocks]; omega) shifted
    (show _ < 65 + (b + 12) by omega) (by simp only [MemoryRoot.blocks]; omega)
  rw [found, show b' = b by omega]

/-- Whatever `find_block` answers, it answers with a held block, and writes
nothing. -/
theorem findBlock_result (R : Represents m cs) {r : Option ℕ}
    (h : MemoryRoot.findBlock p m = (.ok r, m')) :
    m' = m ∧ ∀ b, r = some b → b + 12 = p ∧ ∃ k, heap.Held MemoryRoot.blocks cs b k := by
  have extent := R.extent_le
  rw [MemoryRoot.findBlock, Prog.bind_ok (pointerInBoundsFast_eq m _), Prog.ite_apply] at h
  split at h
  · exact MemoryRoot.findBlock.walk_row R.size_le _ cs _ R.headers
      (.inl (by simp only [MemoryRoot.blocks]; omega)) R.zero h
  · obtain ⟨rfl, rfl⟩ := Prog.of_pure h
    exact ⟨rfl, by simp⟩

/-- A handle of no held block is not found. -/
theorem findBlock_not_held (R : Represents m cs) {r : Option ℕ}
    (none : ∀ b k, b + 12 = p → ¬ heap.Held MemoryRoot.blocks cs b k)
    (h : MemoryRoot.findBlock p m = (.ok r, m')) : r = .none ∧ m' = m := by
  obtain ⟨same, found⟩ := R.findBlock_result h
  refine ⟨?_, same⟩
  cases r with
  | none => rfl
  | some b =>
      obtain ⟨eq, k, held⟩ := found b rfl
      exact absurd held (none b k eq)

end Represents

end Extism.Kernel
