import Extism.Kernel.Mirror

/-!
# Reading the input

`input_load_u8` compares the offset with the length of the input, which is right
for every `u64`.  `input_load_u64` compares the end of the word, `offset + 8`,
and that sum wraps for the last eight offsets: it becomes small, and the word
read lies before the input.

## Main definitions

* `Instance.inputWord` — the bytes of the input at an offset, 0 if they are not
  inside.
* `Instance.EndFits` — the end of the word does not wrap, or it makes no
  difference that it does.

## Main results

* `Represents.inputLoadU8_run` — the byte reader, on every offset.
* `Represents.inputLoadU64_iff` — the word reader.
* `inputReads_iff` — when both stay in the input, in every configuration reached.
-/

namespace Extism.Kernel

open FirstFit (Cell Format)

/-- The `k` bytes of the input at `offset`, for an input of `len` bytes at `h`;
0 if they are not inside. -/
def Instance.inputWord (m : Instance) (k h len offset : ℕ) : ℕ :=
  if offset + k ≤ len then m.peek k (h + offset) else 0

/-- The end of the word at `offset` does not wrap; or it does, and the input is
shorter all the same, or the word the wrapped address names is inside memory and
0. -/
def Instance.EndFits (m : Instance) (h len offset : ℕ) : Prop :=
  offset + 8 < 2 ^ 64 ∨ len < addU64 offset 8 ∨
    (toUsize (addU64 h offset) + 8 ≤ m.size ∧ m.peek 8 (toUsize (addU64 h offset)) = 0)

instance (m : Instance) (h len offset : ℕ) : Decidable (m.EndFits h len offset) :=
  inferInstanceAs (Decidable (_ ∨ _ ∨ _))

/-- A live input is inside the row. -/
theorem InputHeld.of_live {m : Instance} {cs : List Cell} {L : Ledger} (A : L.Agrees cs)
    (live : m.peek 8 41 = 0 ∨ (m.peek 8 33, m.peek 8 41) ∈ L.live) : InputHeld m cs := by
  rcases live with zero | live
  · exact .inl zero
  · obtain ⟨b, eq, held⟩ := A.held live
    have bounds := Represents.held_bounds held
    exact .inr (by omega)

namespace Represents

variable {m : Instance} {cs : List Cell} {offset : ℕ}

/-- The byte reader, on every offset. -/
theorem inputLoadU8_run (R : Represents m.boot cs) (pages : 1 ≤ m.pages)
    (I : InputHeld m.boot cs) : inputLoadU8 offset m =
      (.ok (m.boot.inputWord 1 (m.boot.peek 8 33) (m.boot.peek 8 41) offset), m.boot) := by
  rw [Instance.inputWord]
  by_cases le : offset + 1 ≤ m.boot.peek 8 41
  · rw [if_pos le, R.inputLoadU8_eq pages I le]
  · rw [if_neg le, R.inputLoadU8_ite pages, if_pos (by omega)]

/-- The word reader gives a word of the input, or 0. -/
theorem inputLoadU64_iff (R : Represents m.boot cs) (pages : 1 ≤ m.pages)
    (I : InputHeld m.boot cs) (lt : offset < 2 ^ 64) :
    (inputLoadU64 offset m).1 =
        .ok (m.boot.inputWord 8 (m.boot.peek 8 33) (m.boot.peek 8 41) offset) ↔
      m.boot.EndFits (m.boot.peek 8 33) (m.boot.peek 8 41) offset := by
  have size := R.size_le
  have extent := R.extent_le
  by_cases noWrap : offset + 8 < 2 ^ 64
  · -- the test the code makes is the one on naturals
    refine iff_of_true ?_ (.inl noWrap)
    have sum : addU64 offset 8 = offset + 8 := Nat.mod_eq_of_lt noWrap
    rw [Instance.inputWord]
    by_cases le : offset + 8 ≤ m.boot.peek 8 41
    · rw [if_pos le, R.inputLoadU64_eq pages I le]
    · rw [if_neg le, R.inputLoadU64_ite pages, sum, if_pos (by omega)]
  · have outside : ¬ offset + 8 ≤ m.boot.peek 8 41 := by
      rcases I with zero | inside <;> omega
    rw [Instance.inputWord, if_neg outside, R.inputLoadU64_ite pages, Instance.EndFits]
    by_cases short : m.boot.peek 8 41 < addU64 offset 8
    · rw [if_pos short]
      exact iff_of_true rfl (.inr (.inl short))
    · rw [if_neg short, load]
      by_cases inside : toUsize (addU64 (m.boot.peek 8 33) offset) + 8 ≤ m.boot.size
      · rw [if_pos inside]
        simp only [Except.ok.injEq, noWrap, short, inside, false_or, true_and]
      · rw [if_neg inside]
        refine iff_of_false (by simp) ?_
        rintro (fits | short' | ⟨inside', -⟩)
        · exact noWrap fits
        · exact short short'
        · exact inside inside'

end Represents

/-- **When input reads stay in the input.**  For an input in a live block, or of
no bytes, the byte reader gives the byte at every offset inside and 0 at every
other; the word reader gives the word at every offset where it is inside and 0
at every other, exactly if the end of the word fits. -/
theorem inputReads_iff {c : Config} (reach : confinedRuns.Reachable c) {h len : ℕ}
    (inputAt : (inputOffset c.kernel).1 = .ok h) (inputOf : (inputLength c.kernel).1 = .ok len)
    (live : len = 0 ∨ (h, len) ∈ c.ledger.live) {offset : ℕ} (lt : offset < 2 ^ 64) :
    let m := (MemoryRoot.new c.kernel).2
    (inputLoadU8 offset c.kernel).1 = .ok (m.inputWord 1 h len offset) ∧
      ((inputLoadU64 offset c.kernel).1 = .ok (m.inputWord 8 h len offset) ↔
        m.EndFits h len offset) := by
  obtain ⟨cs, S⟩ := sound_of_reachable reach
  rw [inputOffset, getField_eq S.pages (by decide), MemoryRoot.inputOffset] at inputAt
  rw [inputLength, getField_eq S.pages (by decide), MemoryRoot.inputLength] at inputOf
  obtain rfl := Except.ok.inj inputAt
  obtain rfl := Except.ok.inj inputOf
  have I := InputHeld.of_live S.account live
  rw [MemoryRoot.new_eq S.pages]
  exact ⟨by rw [S.heap.inputLoadU8_run S.pages I], S.heap.inputLoadU64_iff S.pages I lt⟩

/-- Three bytes of input in a block of three. -/
def threeBytes : Config :=
  ((Config.fresh 1 fun _ => false).after (.alloc 3) 77).after (.inputSet 77 3) 0

theorem reachable_threeBytes : confinedRuns.Reachable threeBytes :=
  ((reachable_fresh (Nat.le_refl 1) (by decide) fun _ => false).step
    (confined_of_run (.alloc 3) 77 (by decide) (by decide +kernel))).step
    (confined_of_run (.inputSet 77 3) 0 (by decide) (by decide +kernel))

theorem inputOffset_threeBytes : (inputOffset threeBytes.kernel).1 = .ok 77 := by decide +kernel

theorem inputLength_threeBytes : (inputLength threeBytes.kernel).1 = .ok 3 := by decide +kernel

/-- No word fits into three bytes, and the code says so at offset 0. -/
theorem inputReads_iff_of_threeBytes :
    let m := (MemoryRoot.new threeBytes.kernel).2
    (inputLoadU8 0 threeBytes.kernel).1 = .ok (m.inputWord 1 77 3 0) ∧
      ((inputLoadU64 0 threeBytes.kernel).1 = .ok (m.inputWord 8 77 3 0) ↔
        m.EndFits 77 3 0) :=
  inputReads_iff reachable_threeBytes inputOffset_threeBytes inputLength_threeBytes
    (.inr (by decide +kernel)) (by decide)

/-- The last offset but seven wraps to the header of the input's block. -/
theorem not_inputReads_always :
    ¬ ∀ c, confinedRuns.Reachable c → ∀ h len, (inputOffset c.kernel).1 = .ok h →
      (inputLength c.kernel).1 = .ok len → (len = 0 ∨ (h, len) ∈ c.ledger.live) →
        ∀ offset, offset < 2 ^ 64 → (inputLoadU64 offset c.kernel).1 =
          .ok ((MemoryRoot.new c.kernel).2.inputWord 8 h len offset) := by
  intro always
  have word := always threeBytes reachable_threeBytes 77 3 inputOffset_threeBytes
    inputLength_threeBytes (.inr (by decide +kernel)) (2 ^ 64 - 8) (by decide)
  rw [Instance.inputWord, if_neg (by decide)] at word
  have read : (inputLoadU64 (2 ^ 64 - 8) threeBytes.kernel).1 = .ok (3 + 3 * 2 ^ 32) := by
    decide +kernel
  rw [read] at word
  revert word
  decide

end Extism.Kernel
