import Mathlib.Data.Nat.Notation
import Mathlib.Tactic.Ring

/-!
# Byte-addressed memory

A memory is a function from addresses to bytes.  Everything a program does to
one goes through `splice`, which overwrites a span of bytes: a store of a
little-endian word, a `memset`, a copied buffer are all splices, so the two
facts a proof ever needs about a write, what it leaves alone and what a read of
the same word returns, are stated once.

Words are unbounded naturals with an explicit width `k` in bytes, read and
written in little-endian order.  A memory has no end: where an access has to be
inside something is for the program that makes it to say.

## Main definitions

* `ByteMem` — a byte at every address.
* `ByteMem.splice` — a span of bytes, overwritten.
* `ByteMem.readWord`, `ByteMem.wordBytes` — a word, from its bytes and to them.

## Main results

* `ByteMem.splice_of_mem`, `ByteMem.splice_of_notMem` — a splice, byte by byte.
* `ByteMem.readWord_congr`, `ByteMem.readWord_splice_of_disjoint` — a word
  depends on its own bytes only.
* `ByteMem.readWord_splice_wordBytes` — a word read where it was written.
* `ByteMem.splice_wordBytes_eq_self_iff` — the writes that change nothing.
-/

/-- A byte at every address. -/
abbrev ByteMem := ℕ → UInt8

namespace ByteMem

/-- Overwrite the `k` bytes from `a` on with `f 0, f 1, …`. -/
def splice (m : ByteMem) (a k : ℕ) (f : ℕ → UInt8) : ByteMem :=
  fun x => if a ≤ x ∧ x < a + k then f (x - a) else m x

/-- The little-endian word of `k` bytes at `a`. -/
def readWord (m : ByteMem) : ℕ → ℕ → ℕ
  | 0, _ => 0
  | k + 1, a => (m a).toNat + 256 * readWord m k (a + 1)

/-- The bytes of `v`, least significant first. -/
def wordBytes (v : ℕ) : ℕ → UInt8 := fun i => UInt8.ofNat (v / 256 ^ i)

/-! ## What a write leaves alone -/

theorem splice_of_mem (m : ByteMem) {a k x : ℕ} (f : ℕ → UInt8) (lo : a ≤ x)
    (hi : x < a + k) : m.splice a k f x = f (x - a) :=
  if_pos ⟨lo, hi⟩

theorem splice_of_notMem (m : ByteMem) {a k x : ℕ} (f : ℕ → UInt8)
    (out : x < a ∨ a + k ≤ x) : m.splice a k f x = m x :=
  if_neg (by omega)

/-- Splicing the same bytes into two memories keeps them equal wherever they
were. -/
theorem splice_congr {m m' : ByteMem} {x : ℕ} (a k : ℕ) (f : ℕ → UInt8)
    (eq : m x = m' x) : m.splice a k f x = m'.splice a k f x := by
  simp only [splice, eq]

/-! ## Reading words -/

/-- A word depends on its own bytes only. -/
theorem readWord_congr {m m' : ByteMem} :
    ∀ {k a : ℕ}, (∀ x, a ≤ x → x < a + k → m x = m' x) →
      m.readWord k a = m'.readWord k a := by
  intro k
  induction k with
  | zero => intro a _; rfl
  | succ k ih =>
      intro a eq
      simp only [readWord]
      rw [eq a (le_refl a) (by omega),
        ih fun x lo hi => eq x (by omega) (by omega)]

theorem readWord_lt (m : ByteMem) : ∀ k a : ℕ, m.readWord k a < 256 ^ k := by
  intro k
  induction k with
  | zero => intro a; simp [readWord]
  | succ k ih =>
      intro a
      have low := (m a).toNat_lt
      have high := ih (a + 1)
      simp only [readWord, pow_succ]
      omega

/-- A word of zero bytes is zero. -/
theorem readWord_eq_zero {m : ByteMem} {k a : ℕ}
    (zero : ∀ x, a ≤ x → x < a + k → m x = 0) : m.readWord k a = 0 := by
  have blank : ∀ k a : ℕ, readWord (fun _ => 0) k a = 0 := by
    intro k
    induction k with
    | zero => intro a; rfl
    | succ k ih => intro a; simp [readWord, ih]
  rw [@readWord_congr m (fun _ => 0) k a zero, blank]

/-- A word whose bytes are disjoint from the spliced span is unchanged. -/
theorem readWord_splice_of_disjoint (m : ByteMem) {a k b j : ℕ} (f : ℕ → UInt8)
    (out : b + j ≤ a ∨ a + k ≤ b) :
    (m.splice a k f).readWord j b = m.readWord j b :=
  readWord_congr fun _ lo hi => splice_of_notMem m f (by omega)

/-- The bytes of `v`, read back as a word, are `v` cut to the width. -/
theorem readWord_bytes :
    ∀ k a v : ℕ, readWord (fun x => wordBytes v (x - a)) k a = v % 256 ^ k := by
  intro k
  induction k with
  | zero => intro a v; simp [readWord, Nat.mod_one]
  | succ k ih =>
      intro a v
      have shift : readWord (fun x => wordBytes v (x - a)) k (a + 1) =
          readWord (fun x => wordBytes (v / 256) (x - (a + 1))) k (a + 1) := by
        refine readWord_congr fun x lo _ => ?_
        rw [wordBytes, wordBytes, Nat.div_div_eq_div_mul, ← pow_succ',
          show x - (a + 1) + 1 = x - a by omega]
      simp only [readWord, shift, ih]
      rw [pow_succ', Nat.mod_mul]
      simp [wordBytes]

/-- **A word read where it was written** is the value stored, cut to the
width. -/
theorem readWord_splice_wordBytes (m : ByteMem) (k a v : ℕ) :
    (m.splice a k (wordBytes v)).readWord k a = v % 256 ^ k := by
  rw [← readWord_bytes k a v]
  exact readWord_congr fun x lo hi => splice_of_mem m _ lo hi

/-- The bytes of a word that was read, as they are in memory. -/
theorem wordBytes_readWord (m : ByteMem) :
    ∀ {k a i : ℕ}, i < k → wordBytes (m.readWord k a) i = m (a + i) := by
  intro k
  induction k with
  | zero => intro a i lt; omega
  | succ k ih =>
      intro a i lt
      have low := (m a).toNat_lt
      cases i with
      | zero =>
          rw [wordBytes, pow_zero, Nat.div_one, readWord, Nat.add_zero, UInt8.ofNat_add,
            UInt8.ofNat_mul]
          simp
      | succ i =>
          have rest : m.readWord (k + 1) a / 256 = m.readWord k (a + 1) := by
            rw [readWord]
            omega
          rw [wordBytes, pow_succ', ← Nat.div_div_eq_div_mul, rest, ← wordBytes,
            ih (by omega), show a + 1 + i = a + (i + 1) by omega]

/-- A write that changes nothing: the word is there already. -/
theorem splice_wordBytes_eq_self_iff (m : ByteMem) (k a v : ℕ) :
    m.splice a k (wordBytes v) = m ↔ m.readWord k a = v % 256 ^ k := by
  rw [← readWord_splice_wordBytes m k a v]
  constructor
  · intro same
    rw [same]
  · intro read
    funext x
    by_cases inside : a ≤ x ∧ x < a + k
    · have eq := m.wordBytes_readWord (a := a) (k := k) (i := x - a) (by omega)
      have eq' := (m.splice a k (wordBytes v)).wordBytes_readWord (a := a) (k := k)
        (i := x - a) (by omega)
      rw [show a + (x - a) = x by omega] at eq eq'
      rw [← eq, ← eq', read]
    · exact splice_of_notMem m _ (by omega)

end ByteMem
