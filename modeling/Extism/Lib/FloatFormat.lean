import Mathlib.Data.Nat.Notation
import Mathlib.Tactic.Linarith
import Mathlib.Tactic.Ring
import Mathlib.Tactic.SplitIfs

/-!
# Floats as integers

Binary floats by their bits, in any format with a sign, an exponent and a
fraction, and the conversion to unsigned integers of the same width that rounds
towards zero and saturates.  `toUnsigned_eq_self_iff` compares the number with
the bits it is stored in: they agree for positive zero alone, in every format
whose bias does not divide the one number that the only other candidate asks for.

The two formats in use meet that condition, which is decided on their numbers.
The argument is about sizes: below `2 ^ (fracBits + 1)` a number with digits
before the point is smaller than its own bits, and from there on it is its
significand shifted up by `exponent - bias - fracBits`, which would have to equal
bits that differ from the significand by a multiple of `2 ^ fracBits`.

## Main definitions

* `FloatFormat` — a format, by the widths of its fields; `FloatFormat.binary32`
  and `FloatFormat.binary64` are the two in use.
* `FloatFormat.exponent`, `FloatFormat.fraction`, `FloatFormat.significand` — the
  fields of a float.
* `FloatFormat.floor` — the magnitude of a finite number, without what is behind
  the point.
* `FloatFormat.toUnsigned` — the conversion.

## Main results

* `FloatFormat.floor_eq_mul`, `FloatFormat.floor_eq_div`,
  `FloatFormat.floor_eq_zero` — the magnitude, by the size of the exponent.
* `FloatFormat.floor_ne` — no finite number is stored in itself, zero apart.
* `FloatFormat.toUnsigned_eq_self_iff` — when a float converts to its own bits.
-/

/-- A binary format, by the widths of its exponent and its fraction. -/
structure FloatFormat where
  expBits : ℕ
  fracBits : ℕ
  two_le : 2 ≤ expBits

namespace FloatFormat

/-- The formats of 32 and of 64 bits. -/
def binary32 : FloatFormat := ⟨8, 23, by decide⟩

def binary64 : FloatFormat := ⟨11, 52, by decide⟩

variable (F : FloatFormat)

/-- The bits of a float. -/
def width : ℕ := 1 + F.expBits + F.fracBits

def bias : ℕ := 2 ^ (F.expBits - 1) - 1

/-! ## Fields -/

def Negative (bits : ℕ) : Prop := bits / 2 ^ (F.expBits + F.fracBits) % 2 = 1

instance : DecidablePred F.Negative := fun _ => Nat.decEq _ _

def exponent (bits : ℕ) : ℕ := bits / 2 ^ F.fracBits % 2 ^ F.expBits

def fraction (bits : ℕ) : ℕ := bits % 2 ^ F.fracBits

/-- The fraction with its leading bit, which is 0 for a subnormal number. -/
def significand (bits : ℕ) : ℕ :=
  if F.exponent bits = 0 then F.fraction bits else 2 ^ F.fracBits + F.fraction bits

/-- The magnitude of a finite number, without what is behind the point. -/
def floor (bits : ℕ) : ℕ :=
  F.significand bits * 2 ^ max 1 (F.exponent bits) / 2 ^ (F.bias + F.fracBits)

/-- The number as an unsigned integer of the same width: towards zero, and the
nearest integer there is for what is out of range.  What is no number is 0. -/
def toUnsigned (bits : ℕ) : ℕ :=
  if F.Negative bits then 0
  else if F.exponent bits = 2 ^ F.expBits - 1 then
    if F.fraction bits = 0 then 2 ^ F.width - 1 else 0
  else min (2 ^ F.width - 1) (F.floor bits)

example : binary32.toUnsigned 0x3f800000 = 1 ∧ binary32.toUnsigned 0xc0000000 = 0 ∧
    binary32.toUnsigned 0x7f800000 = 0xffffffff ∧ binary32.toUnsigned 0x7fc00000 = 0 ∧
    binary32.toUnsigned 0x42f6e979 = 123 ∧ binary64.toUnsigned 0x4059000000000000 = 100 := by
  decide +kernel

variable {F}

theorem fraction_lt (bits : ℕ) : F.fraction bits < 2 ^ F.fracBits :=
  Nat.mod_lt _ (Nat.two_pow_pos _)

theorem one_le_bias : 1 ≤ F.bias := by
  have large := F.two_le
  have two : 2 ^ 1 ≤ 2 ^ (F.expBits - 1) := Nat.pow_le_pow_right (by omega) (by omega)
  rw [bias]
  omega

/-- A float that is not negative, put together from its fields. -/
theorem eq_exponent_add_fraction {bits : ℕ} (lt : bits < 2 ^ F.width) (sign : ¬ F.Negative bits) :
    bits = F.exponent bits * 2 ^ F.fracBits + F.fraction bits ∧
      F.exponent bits < 2 ^ F.expBits ∧ bits < 2 ^ (F.expBits + F.fracBits) := by
  have digit : bits / 2 ^ (F.expBits + F.fracBits) < 2 := by
    rw [Nat.div_lt_iff_lt_mul (Nat.two_pow_pos _), ← Nat.pow_succ']
    rwa [width, Nat.add_assoc, Nat.add_comm] at lt
  have lt' : bits < 2 ^ (F.expBits + F.fracBits) := by
    rw [Negative] at sign
    by_contra ge
    have one : 1 ≤ bits / 2 ^ (F.expBits + F.fracBits) :=
      (Nat.one_le_div_iff (Nat.two_pow_pos _)).2 (Nat.not_lt.1 ge)
    omega
  have exponent_lt : bits / 2 ^ F.fracBits < 2 ^ F.expBits := by
    rwa [Nat.div_lt_iff_lt_mul (Nat.two_pow_pos _), ← Nat.pow_add]
  rw [exponent, fraction, Nat.mod_eq_of_lt exponent_lt]
  exact ⟨(Nat.div_add_mod' bits _).symm, exponent_lt, lt'⟩

theorem toUnsigned_lt (bits : ℕ) : F.toUnsigned bits < 2 ^ F.width := by
  have positive := Nat.two_pow_pos F.width
  rw [toUnsigned]
  split_ifs <;> omega

theorem toUnsigned_zero (F : FloatFormat) : F.toUnsigned 0 = 0 := by
  have sign : ¬ F.Negative 0 := by simp [Negative]
  have exponent : F.exponent 0 = 0 := by simp [FloatFormat.exponent]
  have four : 2 ^ 2 ≤ 2 ^ F.expBits := Nat.pow_le_pow_right Nat.two_pos F.two_le
  have floor : F.floor 0 = 0 := by simp [FloatFormat.floor, significand, fraction, exponent]
  rw [toUnsigned, if_neg sign, exponent, if_neg (by omega), floor, Nat.min_zero]

/-- A number without digits behind the point is its significand, shifted up. -/
theorem floor_eq_mul {bits s : ℕ} (normal : F.exponent bits ≠ 0)
    (large : F.exponent bits = F.bias + F.fracBits + s) :
    F.floor bits = (2 ^ F.fracBits + F.fraction bits) * 2 ^ s := by
  rw [floor, significand, if_neg normal, Nat.max_eq_right (by omega), large, Nat.pow_add,
    Nat.mul_left_comm, Nat.mul_div_cancel_left _ (Nat.two_pow_pos _)]

/-- Any other loses digits. -/
theorem floor_eq_div {bits k : ℕ} (normal : F.exponent bits ≠ 0)
    (small : F.bias + F.fracBits = F.exponent bits + k) :
    F.floor bits = (2 ^ F.fracBits + F.fraction bits) / 2 ^ k := by
  rw [floor, significand, if_neg normal, Nat.max_eq_right (by omega), small,
    Nat.add_comm (F.exponent bits), Nat.pow_add, Nat.mul_div_mul_right _ _ (Nat.two_pow_pos _)]

/-! ## Numbers and their bits -/

section Stored

variable (indivisible : ¬ F.bias ∣ (F.expBits + F.fracBits - 2) * 2 ^ F.fracBits)

include indivisible

theorem two_le_bias : 2 ≤ F.bias := by
  have one := F.one_le_bias
  have other : F.bias ≠ 1 := fun eq => indivisible (eq ▸ Nat.one_dvd _)
  omega

/-- A number of at least `2 ^ (fracBits + 1)` is not stored in itself: its
significand would be `exponent - 1` over `2 ^ s - 1`, which is between 1 and 2
for one exponent only, and is no integer there. -/
theorem mul_two_pow_ne {m s : ℕ} (ge : 2 ^ F.fracBits ≤ m) (lt : m < 2 * 2 ^ F.fracBits)
    (positive : 1 ≤ s) (finite : F.bias + F.fracBits + s < 2 ^ F.expBits - 1) :
    m * 2 ^ s ≠ m + (F.bias + F.fracBits + s - 1) * 2 ^ F.fracBits := by
  intro same
  have two := F.two_le
  have bias_eq : F.bias + 1 = 2 ^ (F.expBits - 1) :=
    Nat.sub_add_cancel Nat.one_le_two_pow
  have double : 2 * 2 ^ (F.expBits - 1) = 2 ^ F.expBits := by
    rw [← Nat.pow_succ', Nat.succ_eq_add_one, Nat.sub_add_cancel (by omega)]
  obtain ⟨t, step⟩ : ∃ t, 2 ^ s = t + 2 := ⟨2 ^ s - 2, by
    have := Nat.pow_le_pow_right (Nat.two_pos) positive
    omega⟩
  have product : m * (t + 1) = (F.bias + F.fracBits + s - 1) * 2 ^ F.fracBits := by
    rw [step] at same
    linarith
  generalize 2 ^ F.fracBits = w at *
  rcases Nat.lt_trichotomy s (F.expBits - 1) with less | rfl | more
  · -- too small: twice the significand falls short of the exponent
    have small : 2 * 2 ^ s ≤ 2 ^ (F.expBits - 1) := by
      rw [← Nat.pow_succ']
      exact Nat.pow_le_pow_right Nat.two_pos less
    have short : m * (t + 1) < 2 * w * (t + 1) := Nat.mul_lt_mul_of_pos_right lt (Nat.succ_pos t)
    have enough : 2 * w * (t + 1) ≤ (F.bias + F.fracBits + s - 1) * w := by
      rw [Nat.mul_comm 2 w, Nat.mul_assoc, Nat.mul_comm w]
      exact Nat.mul_le_mul_right w (by omega)
    omega
  · -- the exponent that is left has the bias as a factor
    have factor : t + 1 = F.bias := by omega
    rw [factor] at product
    refine indivisible ((Nat.dvd_add_right (Dvd.intro w rfl)).1
      (Dvd.intro_left m (product.trans ?_) : F.bias ∣ F.bias * w + _))
    rw [← Nat.add_mul]
    congr 1
    omega
  · have large : 2 ^ F.expBits ≤ 2 ^ s := Nat.pow_le_pow_right Nat.two_pos (by omega)
    have big : w * (t + 1) ≤ m * (t + 1) := Nat.mul_le_mul_right _ ge
    have wpos : 0 < w := by omega
    have short : (F.bias + F.fracBits + s - 1) * w < (t + 1) * w :=
      Nat.mul_lt_mul_of_pos_right (by omega) wpos
    rw [Nat.mul_comm (t + 1)] at short
    omega

/-- A subnormal number is less than 1. -/
theorem floor_eq_zero {bits : ℕ} (subnormal : F.exponent bits = 0) : F.floor bits = 0 := by
  have four : 2 ^ 2 ≤ 2 ^ F.bias := Nat.pow_le_pow_right Nat.two_pos (two_le_bias indivisible)
  have fraction_lt := F.fraction_lt bits
  rw [floor, significand, if_pos subnormal, subnormal]
  refine Nat.div_eq_of_lt ?_
  calc F.fraction bits * 2 ^ max 1 0 = F.fraction bits * 2 := rfl
    _ < 2 ^ F.fracBits * 2 ^ 2 := by omega
    _ ≤ 2 ^ F.fracBits * 2 ^ F.bias := Nat.mul_le_mul_left _ four
    _ = 2 ^ (F.bias + F.fracBits) := by rw [Nat.pow_add, Nat.mul_comm]

/-- **No finite number is stored in itself**, zero apart. -/
theorem floor_ne {bits : ℕ}
    (fields : bits = F.exponent bits * 2 ^ F.fracBits + F.fraction bits)
    (finite : F.exponent bits < 2 ^ F.expBits - 1) (nonzero : bits ≠ 0) : F.floor bits ≠ bits := by
  by_cases subnormal : F.exponent bits = 0
  · rw [floor_eq_zero indivisible subnormal]
    exact nonzero.symm
  have bias := two_le_bias indivisible
  have fraction_lt := F.fraction_lt bits
  obtain ⟨e, eq⟩ := Nat.exists_eq_succ_of_ne_zero subnormal
  have stored : bits = (2 ^ F.fracBits + F.fraction bits) + e * 2 ^ F.fracBits := by
    rw [eq, Nat.succ_mul] at fields
    omega
  rcases Nat.lt_or_ge (F.bias + F.fracBits) (F.exponent bits) with large | small
  · obtain ⟨s, large⟩ := Nat.exists_eq_add_of_lt large
    rw [Nat.add_assoc] at large
    have ne := mul_two_pow_ne indivisible (m := 2 ^ F.fracBits + F.fraction bits) (s := s + 1)
      (by omega) (by omega) (by omega) (by omega)
    have same : F.bias + F.fracBits + (s + 1) - 1 = e := by omega
    rw [same, ← stored] at ne
    rwa [floor_eq_mul subnormal large]
  · -- the significand is the larger, unless the exponent is 1
    obtain ⟨k, small⟩ := Nat.exists_eq_add_of_le small
    rw [floor_eq_div subnormal small]
    cases k with
    | zero =>
        have further : 1 * 2 ^ F.fracBits ≤ e * 2 ^ F.fracBits := Nat.mul_le_mul_right _ (by omega)
        have wpos := Nat.two_pow_pos F.fracBits
        rw [Nat.pow_zero, Nat.div_one]
        omega
    | succ k =>
        have less : (2 ^ F.fracBits + F.fraction bits) / 2 ^ (k + 1) <
            2 ^ F.fracBits + F.fraction bits :=
          Nat.div_lt_self (by omega) (Nat.one_lt_two_pow (by omega))
        omega

/-- **A float is stored in the integer it converts to** only if it is positive
zero. -/
theorem toUnsigned_eq_self_iff {bits : ℕ} (lt : bits < 2 ^ F.width) :
    F.toUnsigned bits = bits ↔ bits = 0 := by
  constructor
  · intro same
    by_contra nonzero
    rw [toUnsigned] at same
    split at same
    case isTrue => exact nonzero same.symm
    case isFalse sign =>
      obtain ⟨fields, exponent_lt, lt'⟩ := eq_exponent_add_fraction lt sign
      -- the largest integer is negative as a float
      have half : 2 ^ (F.expBits + F.fracBits) < 2 ^ F.width - 1 := by
        have two : 2 ^ 2 ≤ 2 ^ (F.expBits + F.fracBits) :=
          Nat.pow_le_pow_right Nat.two_pos (Nat.le_add_right_of_le F.two_le)
        rw [width, Nat.add_assoc, Nat.add_comm 1, Nat.pow_succ]
        omega
      split at same
      case isTrue => split at same <;> omega
      case isFalse finite =>
        have ne := floor_ne indivisible fields (by omega) nonzero
        omega
  · rintro rfl
    exact F.toUnsigned_zero

end Stored

end FloatFormat
