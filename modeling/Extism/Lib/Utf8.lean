import Mathlib.Data.Nat.Notation
import Mathlib.Tactic.SplitIfs

/-!
# Strings and their bytes

A string as the list of its bytes, in both directions, and the first byte of a
string: one below 128 is its first character.  The library has the encoding and
the decoding of byte arrays; programs are about lists of bytes.

## Main results

* `Utf8.toUTF8_eq_flatMap` — the bytes of a string are those of its characters.
* `Utf8.fromUTF8?_toUTF8`, `Utf8.toUTF8_of_fromUTF8?` — decoding undoes encoding,
  and the other way round where it succeeds.
* `Utf8.head?_utf8EncodeChar`, `Utf8.head?_toUTF8` — the first byte of a
  character and of a string.
-/

namespace Utf8

/-- A byte array, as the list it is made of. -/
theorem toList_eq (bs : ByteArray) : bs.toList = bs.data.toList := by
  have loop : ∀ (k i : ℕ) (r : List UInt8), bs.size ≤ i + k →
      ByteArray.toList.loop bs i r = r.reverse ++ bs.data.toList.drop i := by
    intro k
    induction k with
    | zero =>
        intro i r le
        rw [ByteArray.toList.loop, if_neg (by omega), List.drop_eq_nil_of_le (by simpa using le)]
        simp
    | succ k ih =>
        intro i r le
        rw [ByteArray.toList.loop]
        split
        case isTrue lt =>
          have lt' : i < bs.data.toList.length := by simpa using lt
          rw [ih _ _ (by omega), List.drop_eq_getElem_cons lt']
          simp [ByteArray.get!, lt, getElem!_pos]
        case isFalse ge =>
          rw [List.drop_eq_nil_of_le (by simpa using ge)]
          simp
  exact loop bs.size 0 [] (by omega)

theorem toUTF8_ne_nil {s : String} (nonempty : s ≠ "") : s.toUTF8.toList ≠ [] := by
  intro nil
  rw [toList_eq] at nil
  refine nonempty (String.utf8ByteSize_eq_zero_iff.1 ?_)
  simpa using congrArg List.length nil

/-- The bytes of a string are those of its characters. -/
theorem toUTF8_eq_flatMap (s : String) :
    s.toUTF8.toList = s.toList.flatMap String.utf8EncodeChar := by
  have bytes : s.toUTF8 = s.toList.utf8Encode := by
    rw [← String.toByteArray_ofList, String.ofList_toList]
    rfl
  rw [toList_eq, bytes, List.utf8Encode]
  simp

/-- The bytes of a string decode to it. -/
theorem fromUTF8?_toUTF8 (s : String) : String.fromUTF8? ⟨s.toUTF8.toList.toArray⟩ = some s := by
  have bytes : (⟨s.toUTF8.toList.toArray⟩ : ByteArray) = s.toUTF8 := by
    rw [toList_eq]
  rw [bytes, String.fromUTF8?, String.toUTF8_eq_toByteArray, dif_pos s.isValidUTF8]
  rfl

/-- What decodes to a string is its bytes. -/
theorem toUTF8_of_fromUTF8? {bytes : List UInt8} {s : String}
    (decoded : String.fromUTF8? ⟨bytes.toArray⟩ = some s) : s.toUTF8.toList = bytes := by
  rw [String.fromUTF8?] at decoded
  split at decoded
  · obtain rfl := Option.some.inj decoded
    rw [toList_eq]
    rfl
  · simp at decoded

/-- The first byte of a character, if it is below 128, is the character. -/
theorem head?_utf8EncodeChar {b : UInt8} (ascii : b.toNat < 128) (c : Char) :
    (String.utf8EncodeChar c).head? = some b ↔ c.toNat = b.toNat := by
  have small : c.toNat < 2 ^ 32 := c.val.toNat_lt
  have byte : ∀ n : ℕ, UInt8.ofNat n = b ↔ n % 256 = b.toNat := by
    intro n
    rw [← UInt8.toNat_inj]
    rfl
  rw [String.utf8EncodeChar]
  simp only [Char.toNat] at *
  -- only the encoding in one byte begins below 128
  split_ifs <;> simp only [List.head?_cons, Option.some.injEq, byte] <;> omega

/-- The first byte of a string, if it is below 128, is its first character. -/
theorem head?_toUTF8 {b : UInt8} (ascii : b.toNat < 128) (s : String) :
    s.toUTF8.toList.head? = some b ↔ ∃ c, s.toList.head? = some c ∧ c.toNat = b.toNat := by
  rw [toUTF8_eq_flatMap]
  cases s.toList with
  | nil => simp
  | cons c cs =>
      have first : (String.utf8EncodeChar c ++ cs.flatMap String.utf8EncodeChar).head? =
          (String.utf8EncodeChar c).head? := by
        rw [List.head?_append, Option.or_of_isSome]
        exact List.isSome_head?.2 String.utf8EncodeChar_ne_nil
      rw [List.flatMap_cons, first, head?_utf8EncodeChar ascii]
      simp

end Utf8
