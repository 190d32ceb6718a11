import Extism.Lib.FloatFormat
import Extism.Runtime.Value

/-!
# Values across the C boundary

An `ExtismVal` is a tag and a union of eight bytes, here two words.  Values are
put into it by `From<&Val>`, and taken out in two places, `ptr_as_val` and the
loop over the outputs of a host function.  Both read a float and convert it to
an integer with `as`, where `From` makes it of the bits.  So a value that is put
in and taken out again is not the same if it is a float: the only float that comes
out as it went in is positive zero.

Assigning a field of the union leaves the bytes behind it as they were, which is
why every statement is about any memory the records were in before.

## Main definitions

* `ValUnion`, `ExtismVal` — the union and the record.
* `ExtismVal.ofVal`, `ExtismVal.read` — a value put in, and taken out.
* `valAsPtr`, `ptrAsVal`, `extismFunction` — arrays of records, and the host function
  that passes them to the host's C function.
* `Unchanged` — values cross the boundary unchanged.

## Main results

* `ExtismVal.read_ofVal` — a value put into a record and read from it.
* `ptrAsVal_valAsPtr`, `outputs_valAsPtr` — the same for arrays, in both places.
* `unchanged_iff` — when values cross unchanged.
-/

namespace Extism.Runtime

/-- `ValUnion`, by its words, the low one first. -/
structure ValUnion where
  low : UInt32
  high : UInt32
  deriving DecidableEq

namespace ValUnion

/-- The eight bytes as one word. -/
def word (v : ValUnion) : UInt64 := UInt64.ofNat (v.low.toNat + 2 ^ 32 * v.high.toNat)

def ofWord (x : UInt64) : ValUnion := ⟨x.toUInt32, (x >>> 32).toUInt32⟩

def i32 (v : ValUnion) : Int32 := v.low.toInt32

def i64 (v : ValUnion) : Int64 := v.word.toInt64

/-- The bits of the float. -/
def f32 (v : ValUnion) : UInt32 := v.low

def f64 (v : ValUnion) : UInt64 := v.word

/-- A union with the field `i32`; the high word is whatever was there. -/
def ofI32 (old : UInt32) (x : Int32) : ValUnion := ⟨x.toUInt32, old⟩

def ofI64 (x : Int64) : ValUnion := ofWord x.toUInt64

def ofF32 (old : UInt32) (bits : UInt32) : ValUnion := ⟨bits, old⟩

def ofF64 (bits : UInt64) : ValUnion := ofWord bits

@[simp] theorem word_ofWord (x : UInt64) : (ofWord x).word = x := by
  rw [← UInt64.toNat_inj]
  have lt := x.toNat_lt
  simp only [word, ofWord, UInt64.toNat_ofNat', UInt64.toNat_toUInt32, UInt64.toNat_shiftRight,
    Nat.shiftRight_eq_div_pow]
  simp
  omega

end ValUnion

/-- `ExtismVal`. -/
structure ExtismVal where
  t : ValType
  v : ValUnion
  deriving DecidableEq

/-- `f32 as u32`, of the bits of the float. -/
def asU32 (bits : UInt32) : UInt32 := UInt32.ofNat (FloatFormat.binary32.toUnsigned bits.toNat)

/-- `f64 as u64`. -/
def asU64 (bits : UInt64) : UInt64 := UInt64.ofNat (FloatFormat.binary64.toUnsigned bits.toNat)

namespace ExtismVal

/-- `From<&Val>`. -/
def ofVal (old : UInt32) : Val → ExtismVal
  | .i32 x => ⟨.i32, .ofI32 old x⟩
  | .i64 x => ⟨.i64, .ofI64 x⟩
  | .f32 bits => ⟨.f32, .ofF32 old bits⟩
  | .f64 bits => ⟨.f64, .ofF64 bits⟩
  | _ => ⟨.i32, .ofI32 old (-1)⟩

/-- What `ptr_as_val` and the output loop do with the four numeric types. -/
def read (x : ExtismVal) : Option Val :=
  match x.t with
  | .i32 => some (.i32 x.v.i32)
  | .i64 => some (.i64 x.v.i64)
  | .f32 => some (.f32 (asU32 x.v.f32))
  | .f64 => some (.f64 (asU64 x.v.f64))
  | _ => none

end ExtismVal

/-- `val_as_ptr`; `old i` is what the high word of record `i` was before. -/
def valAsPtr (old : ℕ → UInt32) (values : List Val) : List ExtismVal :=
  values.mapIdx fun i => ExtismVal.ofVal (old i)

/-- A record, as `ptr_as_val` reads it. -/
def ptrAsVal.value (x : ExtismVal) : Val := x.read.getD (.i32 (-1))

/-- `ptr_as_val`; none for the null pointer. -/
def ptrAsVal (params : Option (List ExtismVal)) : Option (List Val) :=
  match params with
  | none | some [] => none
  | some params => some (params.map ptrAsVal.value)

/-- The output loop of `extism_function_new`: the outputs afterwards, none for a
panic. -/
def extismFunction.outputs : List ExtismVal → List Val → Option (List Val)
  | tmp :: tmps, _ :: outs => do
      let out ← tmp.read
      let outs ← extismFunction.outputs tmps outs
      pure (out :: outs)
  | [], outs => some outs
  | _, [] => some []

/-- The host function made by `extism_function_new`: `func` is given the inputs
and fills the buffer for the outputs. -/
def extismFunction (func : List ExtismVal → List ExtismVal → List ExtismVal)
    (outputTypes : List ValType) (old : ℕ → UInt32) (inputs outputs : List Val) :
    Option (List Val) :=
  let inputs := inputs.mapIdx fun i => ExtismVal.ofVal (old i)
  let outputTmp : List ExtismVal := outputTypes.map fun t => ⟨t, .ofI64 0⟩
  extismFunction.outputs (func inputs outputTmp) outputs

/-! ## There and back -/

namespace Val

/-- One of the four types with a field in the union. -/
def Numeric : Val → Prop
  | .i32 _ | .i64 _ | .f32 _ | .f64 _ => True
  | _ => False

/-- A float is positive zero. -/
def PositiveZero : Val → Prop
  | .f32 bits => bits = 0
  | .f64 bits => bits = 0
  | _ => True

/-- What comes out for a value that went in. -/
def crossed : Val → Val
  | .f32 bits => .f32 (asU32 bits)
  | .f64 bits => .f64 (asU64 bits)
  | v => v

end Val

theorem asU32_eq_self_iff (bits : UInt32) : asU32 bits = bits ↔ bits = 0 := by
  have fits : FloatFormat.binary32.toUnsigned bits.toNat < 2 ^ 32 := FloatFormat.toUnsigned_lt _
  rw [← UInt32.toNat_inj, ← UInt32.toNat_inj, asU32, UInt32.toNat_ofNat_of_lt' fits]
  exact FloatFormat.toUnsigned_eq_self_iff (by decide) bits.toNat_lt

theorem asU64_eq_self_iff (bits : UInt64) : asU64 bits = bits ↔ bits = 0 := by
  have fits : FloatFormat.binary64.toUnsigned bits.toNat < 2 ^ 64 := FloatFormat.toUnsigned_lt _
  rw [← UInt64.toNat_inj, ← UInt64.toNat_inj, asU64, UInt64.toNat_ofNat_of_lt' fits]
  exact FloatFormat.toUnsigned_eq_self_iff (by decide +kernel) bits.toNat_lt

theorem Val.crossed_eq_self_iff (v : Val) : v.crossed = v ↔ v.PositiveZero := by
  cases v with
  | f32 bits => simp [crossed, PositiveZero, asU32_eq_self_iff]
  | f64 bits => simp [crossed, PositiveZero, asU64_eq_self_iff]
  | _ => exact iff_of_true rfl trivial

/-- **A value** of one of the four types, put into a record and read from it. -/
theorem ExtismVal.read_ofVal {v : Val} (numeric : v.Numeric) (old : UInt32) :
    (ExtismVal.ofVal old v).read = some v.crossed := by
  cases v with
  | i32 x => simp [ofVal, read, Val.crossed, ValUnion.ofI32, ValUnion.i32]
  | i64 x => simp [ofVal, read, Val.crossed, ValUnion.ofI64, ValUnion.i64]
  | f32 bits => rfl
  | f64 bits => simp [ofVal, read, Val.crossed, ValUnion.ofF64, ValUnion.f64]
  | _ => exact numeric.elim

variable {vs : List Val}

/-- **What `ptr_as_val` makes of the records.** -/
theorem ptrAsVal_valAsPtr (nonempty : vs ≠ []) (numeric : ∀ v ∈ vs, v.Numeric)
    (old : ℕ → UInt32) : ptrAsVal (some (valAsPtr old vs)) = some (vs.map Val.crossed) := by
  have values : (valAsPtr old vs).map ptrAsVal.value = vs.map Val.crossed := by
    refine List.ext_getElem (by simp [valAsPtr]) fun i _ lt => ?_
    have lt' : i < vs.length := by simpa using lt
    simp only [valAsPtr, List.getElem_map, List.getElem_mapIdx, ptrAsVal.value,
      ExtismVal.read_ofVal (numeric _ (List.getElem_mem lt'))]
    rfl
  have some_records : valAsPtr old vs ≠ [] := by simpa [valAsPtr] using nonempty
  obtain ⟨x, xs, records⟩ := List.exists_cons_of_ne_nil some_records
  rw [← values, records]
  rfl

/-- **What the output loop makes of them.** -/
theorem outputs_valAsPtr (numeric : ∀ v ∈ vs, v.Numeric) (old : ℕ → UInt32) {outs : List Val}
    (length : outs.length = vs.length) :
    extismFunction.outputs (valAsPtr old vs) outs = some (vs.map Val.crossed) := by
  induction vs generalizing outs old with
  | nil =>
      obtain rfl := List.length_eq_zero_iff.1 length
      rfl
  | cons v vs ih =>
      obtain ⟨here, rest⟩ := List.forall_mem_cons.1 numeric
      cases outs with
      | nil => simp at length
      | cons out outs =>
          have tail := ih rest (fun i => old (i + 1)) (Nat.succ.inj length)
          rw [valAsPtr] at tail
          rw [valAsPtr, List.mapIdx_cons, extismFunction.outputs, ExtismVal.read_ofVal here, tail]
          rfl

/-! ## What is unchanged -/

/-- A host function that copies its inputs to its outputs. -/
def identity (inputs outputs : List ExtismVal) : List ExtismVal :=
  inputs.take outputs.length ++ outputs.drop inputs.length

/-- **The values cross the boundary unchanged**, whatever was in memory before:
as parameters, through a host function and through a guest function that return
what they are given. -/
structure Unchanged (vs : List Val) : Prop where
  params : ∀ old, ptrAsVal (some (valAsPtr old vs)) = some vs
  host : ∀ old outs, outs.length = vs.length →
    extismFunction identity (vs.map Val.type) old vs outs = some vs
  guest : ∀ old old', (ptrAsVal (some (valAsPtr old vs))).map (valAsPtr old') =
    some (valAsPtr old' vs)

theorem map_crossed_eq_iff : vs.map Val.crossed = vs ↔ ∀ v ∈ vs, v.PositiveZero := by
  have same : vs.map Val.crossed = vs.map id ↔ ∀ v ∈ vs, v.crossed = id v := List.map_inj_left
  rw [List.map_id] at same
  simp only [same, id_eq, Val.crossed_eq_self_iff]

/-- **When values cross unchanged.**  Values of the four numeric types do exactly
if every float among them is positive zero. -/
theorem unchanged_iff (nonempty : vs ≠ []) (numeric : ∀ v ∈ vs, v.Numeric) :
    Unchanged vs ↔ ∀ v ∈ vs, v.PositiveZero := by
  rw [← map_crossed_eq_iff]
  constructor
  · intro unchanged
    have same := unchanged.params fun _ => 0
    rwa [ptrAsVal_valAsPtr nonempty numeric, Option.some.injEq] at same
  · intro same
    have params : ∀ old, ptrAsVal (some (valAsPtr old vs)) = some vs := fun old => by
      rw [ptrAsVal_valAsPtr nonempty numeric, same]
    refine ⟨params, fun old outs length => ?_, fun old old' => by rw [params, Option.map_some]⟩
    have copied : identity (valAsPtr old vs) ((vs.map Val.type).map fun t => ⟨t, .ofI64 0⟩) =
        valAsPtr old vs := by
      rw [identity, List.take_of_length_le (by simp [valAsPtr]),
        List.drop_eq_nil_of_le (by simp [valAsPtr]), List.append_nil]
    have written := outputs_valAsPtr numeric old length
    rw [same] at written
    rw [extismFunction, ← written, ← copied]
    rfl

/-- An integer and the float 1. -/
theorem unchanged_iff_of_one :
    Unchanged [.i64 (-1), .f32 0x3f800000] ↔
      ∀ v ∈ [Val.i64 (-1), .f32 0x3f800000], v.PositiveZero :=
  unchanged_iff (by simp) (by simp [Val.Numeric])

/-- The float 1 comes out as the number whose bits are 1. -/
theorem not_unchanged_of_one : ¬ Unchanged [.f32 0x3f800000] := by
  intro unchanged
  have read := unchanged.params fun _ => 0
  have bits : ptrAsVal (some (valAsPtr (fun _ => 0) [.f32 0x3f800000])) = some [.f32 1] := by
    decide +kernel
  rw [bits] at read
  exact absurd read (by decide)

end Extism.Runtime
