import Extism.Lib.ByteMemory
import Extism.Lib.Utf8

/-!
# Values and their bytes

`ToBytes` and `FromBytes` for the types that need no encoding of their own.  The
format has no tags: an `Option` is the bytes of what is inside, and no bytes are
`None`.  So a `Some` of a value that has no bytes itself is read back as `None`,
and that is all that is lost.

The types are those that a nesting of `Option` builds from the ones with an
encoding, as data (`ValueType`), so that a theorem speaks of all of them by
induction on how a type is built.

## Main definitions

* `ToBytes`, `FromBytes` — the two traits, with an instance for each type.
* `ValueType`, `ValueType.Value` — the types, and their values.
* `ValueType.Lost` — a `Some` of a value without bytes.
* `roundTrip` — encode a value and decode the bytes.

## Main results

* `fromBytes_toBytes` — decoding undoes encoding where nothing is lost, and the
  encoding never fails.
* `roundTrip_eq` — every value is decoded from its bytes, except a lost one,
  which is decoded as `None`.
-/

namespace Extism.Convert

/-- How a decoding fails. -/
inductive Error
  /-- The data does not have the length of the type. -/
  | tryFromSlice
  /-- The data is not UTF-8. -/
  | utf8
  deriving DecidableEq

/-- `ToBytes`. -/
class ToBytes (α : Type) where
  toBytes : α → Except Error (List UInt8)

/-- `FromBytes`; where it is `FromBytesOwned`, that. -/
class FromBytes (α : Type) where
  fromBytes : List UInt8 → Except Error α

export ToBytes (toBytes)
export FromBytes (fromBytes)

/-! ## Little-endian integers -/

/-- `to_le_bytes`, of `k` bytes. -/
def toLeBytes (k n : ℕ) : List UInt8 := (List.range k).map (ByteMem.wordBytes n)

/-- `from_le_bytes`, behind the `try_into` that checks the length. -/
def fromLeBytes (k : ℕ) (data : List UInt8) : Except Error ℕ :=
  if data.length = k then .ok (ByteMem.readWord (fun i => data.getD i 0) k 0)
  else .error .tryFromSlice

theorem fromLeBytes_toLeBytes {k n : ℕ} (lt : n < 256 ^ k) :
    fromLeBytes k (toLeBytes k n) = .ok n := by
  have read : ByteMem.readWord (fun i => (toLeBytes k n).getD i 0) k 0 = n := by
    have word := ByteMem.readWord_bytes k 0 n
    rw [Nat.mod_eq_of_lt lt] at word
    refine (ByteMem.readWord_congr fun i _ small => ?_).trans word
    have inside : i < k := by omega
    simp [toLeBytes, List.getD_eq_getElem?_getD, inside]
  rw [fromLeBytes, if_pos (by simp [toLeBytes]), read]

/-! ## The types -/

instance : ToBytes Unit := ⟨fun _ => .ok []⟩

instance : FromBytes Unit := ⟨fun _ => .ok ()⟩

/-- `Vec<u8>`. -/
instance : ToBytes (List UInt8) := ⟨.ok⟩

instance : FromBytes (List UInt8) := ⟨.ok⟩

instance : ToBytes String := ⟨fun s => .ok s.toUTF8.toList⟩

instance : FromBytes String :=
  ⟨fun data => match String.fromUTF8? ⟨data.toArray⟩ with
    | some s => .ok s
    | none => .error .utf8⟩

instance : ToBytes UInt32 := ⟨fun x => .ok (toLeBytes 4 x.toNat)⟩

instance : FromBytes UInt32 := ⟨fun data => (fromLeBytes 4 data).map .ofNat⟩

instance : ToBytes UInt64 := ⟨fun x => .ok (toLeBytes 8 x.toNat)⟩

instance : FromBytes UInt64 := ⟨fun data => (fromLeBytes 8 data).map .ofNat⟩

instance : ToBytes Int32 := ⟨fun x => toBytes x.toUInt32⟩

instance : FromBytes Int32 := ⟨fun data => (fromBytes data).map UInt32.toInt32⟩

instance : ToBytes Int64 := ⟨fun x => toBytes x.toUInt64⟩

instance : FromBytes Int64 := ⟨fun data => (fromBytes data).map UInt64.toInt64⟩

instance {α : Type} [ToBytes α] : ToBytes (Option α) :=
  ⟨fun
    | some x => toBytes x
    | none => .ok []⟩

instance {α : Type} [FromBytes α] : FromBytes (Option α) :=
  ⟨fun data => if data = [] then .ok none else (fromBytes data).map some⟩

/-- The types built from these by nesting `Option`. -/
inductive ValueType
  | unit
  | bytes
  | string
  | i32
  | i64
  | u32
  | u64
  | option (t : ValueType)

namespace ValueType

def Value : ValueType → Type
  | unit => Unit
  | bytes => List UInt8
  | string => String
  | i32 => Int32
  | i64 => Int64
  | u32 => UInt32
  | u64 => UInt64
  | option t => Option t.Value

instance instToBytes : ∀ t : ValueType, ToBytes t.Value
  | unit => inferInstanceAs (ToBytes Unit)
  | bytes => inferInstanceAs (ToBytes (List UInt8))
  | string => inferInstanceAs (ToBytes String)
  | i32 => inferInstanceAs (ToBytes Int32)
  | i64 => inferInstanceAs (ToBytes Int64)
  | u32 => inferInstanceAs (ToBytes UInt32)
  | u64 => inferInstanceAs (ToBytes UInt64)
  | option t =>
      have := instToBytes t
      inferInstanceAs (ToBytes (Option t.Value))

instance instFromBytes : ∀ t : ValueType, FromBytes t.Value
  | unit => inferInstanceAs (FromBytes Unit)
  | bytes => inferInstanceAs (FromBytes (List UInt8))
  | string => inferInstanceAs (FromBytes String)
  | i32 => inferInstanceAs (FromBytes Int32)
  | i64 => inferInstanceAs (FromBytes Int64)
  | u32 => inferInstanceAs (FromBytes UInt32)
  | u64 => inferInstanceAs (FromBytes UInt64)
  | option t =>
      have := instFromBytes t
      inferInstanceAs (FromBytes (Option t.Value))

end ValueType

/-- Encode a value and decode the bytes. -/
def roundTrip {α : Type} [ToBytes α] [FromBytes α] (v : α) : Except Error α := do
  let data ← toBytes v
  fromBytes data

/-- A `Some` of a value without bytes. -/
def ValueType.Lost : (t : ValueType) → t.Value → Prop
  | option t, v => ∃ x : t.Value, v = some x ∧ toBytes x = .ok []
  | _, _ => False

/-! ## There and back -/

theorem fromBytes_toBytes_string (s : String) :
    (fromBytes s.toUTF8.toList : Except Error String) = .ok s := by
  simp only [fromBytes, Utf8.fromUTF8?_toUTF8]

theorem fromBytes_toBytes_u32 (x : UInt32) :
    (fromBytes (toLeBytes 4 x.toNat) : Except Error UInt32) = .ok x := by
  simp only [fromBytes]
  rw [fromLeBytes_toLeBytes x.toNat_lt, Except.map, UInt32.ofNat_toNat]

theorem fromBytes_toBytes_u64 (x : UInt64) :
    (fromBytes (toLeBytes 8 x.toNat) : Except Error UInt64) = .ok x := by
  simp only [fromBytes]
  rw [fromLeBytes_toLeBytes x.toNat_lt, Except.map, UInt64.ofNat_toNat]

theorem fromBytes_toBytes_i32 (x : Int32) :
    (fromBytes (toLeBytes 4 x.toUInt32.toNat) : Except Error Int32) = .ok x := by
  have word := fromBytes_toBytes_u32 x.toUInt32
  simp only [fromBytes] at word ⊢
  rw [word]
  rfl

theorem fromBytes_toBytes_i64 (x : Int64) :
    (fromBytes (toLeBytes 8 x.toUInt64.toNat) : Except Error Int64) = .ok x := by
  have word := fromBytes_toBytes_u64 x.toUInt64
  simp only [fromBytes] at word ⊢
  rw [word]
  rfl

/-- **Decoding undoes encoding** where nothing is lost; the encoding never
fails. -/
theorem fromBytes_toBytes (t : ValueType) (v : t.Value) :
    ∃ data, toBytes v = .ok data ∧ (¬ t.Lost v → fromBytes data = .ok v) := by
  induction t with
  | unit => exact ⟨[], rfl, fun _ => rfl⟩
  | bytes => exact ⟨v, rfl, fun _ => rfl⟩
  | string => exact ⟨_, rfl, fun _ => fromBytes_toBytes_string v⟩
  | i32 => exact ⟨_, rfl, fun _ => fromBytes_toBytes_i32 v⟩
  | i64 => exact ⟨_, rfl, fun _ => fromBytes_toBytes_i64 v⟩
  | u32 => exact ⟨_, rfl, fun _ => fromBytes_toBytes_u32 v⟩
  | u64 => exact ⟨_, rfl, fun _ => fromBytes_toBytes_u64 v⟩
  | option t ih =>
      cases v with
      | none => exact ⟨[], rfl, fun _ => rfl⟩
      | some x =>
          obtain ⟨data, encoded, decoded⟩ := ih x
          refine ⟨data, encoded, fun kept => ?_⟩
          have some_data : data ≠ [] := by
            rintro rfl
            exact kept ⟨x, rfl, encoded⟩
          -- a value inside that is lost has no bytes either
          have inner : ¬ t.Lost x := by
            intro lost
            cases t with
            | option t =>
                obtain ⟨y, rfl, none⟩ := lost
                exact some_data (Except.ok.inj (encoded.symm.trans none))
            | _ => exact lost
          have whole : (fromBytes data : Except Error (Option t.Value)) = .ok (some x) := by
            simp only [fromBytes] at decoded ⊢
            rw [if_neg some_data, decoded inner, Except.map]
          exact whole

/-- **What is lost.**  Every value is decoded from its bytes, except a `Some` of
a value without bytes, which is decoded as `None`. -/
theorem roundTrip_eq :
    (∀ (t : ValueType) (v : t.Value), ¬ t.Lost v → roundTrip v = .ok v) ∧
      ∀ (t : ValueType) (x : t.Value), toBytes x = .ok [] →
        roundTrip (some x : Option t.Value) = .ok none := by
  constructor
  · intro t v kept
    obtain ⟨data, encoded, decoded⟩ := fromBytes_toBytes t v
    rw [roundTrip, encoded]
    exact decoded kept
  · intro t x empty
    have encoded : toBytes (some x : Option t.Value) = .ok [] := empty
    rw [roundTrip, encoded]
    rfl

/-- A number, and an empty vector. -/
theorem roundTrip_eq_of_some :
    roundTrip (some 5 : Option UInt32) = .ok (some 5) ∧
      roundTrip (some [] : Option (List UInt8)) = .ok none := by
  refine ⟨roundTrip_eq.1 (.option .u32) (some (5 : UInt32)) ?_, roundTrip_eq.2 .bytes [] rfl⟩
  rintro ⟨x, -, empty⟩
  have four : (toLeBytes 4 x.toNat).length = 0 := congrArg List.length (Except.ok.inj empty)
  simp [toLeBytes] at four

/-- `Some(())` is decoded as `None`. -/
theorem not_roundTrip_always : ¬ ∀ (t : ValueType) (v : t.Value), roundTrip v = .ok v := by
  intro always
  have same : roundTrip (some () : Option Unit) = .ok (some ()) := always (.option .unit) (some ())
  have lost : roundTrip (some () : Option Unit) = .ok none := rfl
  rw [lost] at same
  simp at same

end Extism.Convert
