import Extism.Runtime.ExtismVal

/-!
# Parameters pushed from Java

A `Parameters` object is an array of records that the `push` methods fill one
after the other.  A record has a tag, set by hand in every method, and a union
of which one field is active; when the array is passed on, the tag and the
active field are written to memory and `ptr_as_val` reads them.  Every method
sets the tag to 0, which is the tag of `I32`, so what arrives is the low word of
what was pushed.

The methods differ in the field they assign, so each is `Parameters.put` applied
to its own.

## Main definitions

* `UnionField`, `JavaVal` — the active field of a union, and a record.
* `Parameters`, `Parameters.put` — the object, and a record filled.
* `Parameters.received` — the values `ptr_as_val` makes of the object.
* `Push`, `Arrives` — a call of one of the methods, and that what is pushed
  arrives.

## Main results

* `Parameters.run_eq`, `Parameters.runs_eq` — a sequence of calls puts one field
  after the other.
* `Parameters.values_of_filled` — a filled object holds what was pushed.
* `Parameters.received_of_filled` — what is received are the low words.
* `arrives_iff` — when parameters arrive.
-/

namespace Extism.Runtime

/-- The active field of an `ExtismValUnion`, with what was assigned to it. -/
inductive UnionField
  | i32 (x : Int32)
  | i64 (x : Int64)
  | f32 (bits : UInt32)
  | f64 (bits : UInt64)

namespace UnionField

/-- The field in memory, where `old` was before. -/
def write (old : ValUnion) : UnionField → ValUnion
  | .i32 x => .ofI32 old.high x
  | .i64 x => .ofI64 x
  | .f32 bits => .ofF32 old.high bits
  | .f64 bits => .ofF64 bits

/-- The value the field stands for. -/
def val : UnionField → Val
  | .i32 x => .i32 x
  | .i64 x => .i64 x
  | .f32 bits => .f32 bits
  | .f64 bits => .f64 bits

/-- The low word of the field. -/
def low : UnionField → UInt32
  | .i32 x => x.toUInt32
  | .i64 x => x.toUInt64.toUInt32
  | .f32 bits => bits
  | .f64 bits => bits.toUInt32

@[simp] theorem low_write (old : ValUnion) (field : UnionField) :
    (field.write old).low = field.low := by
  cases field <;> rfl

end UnionField

/-- The type a tag stands for; none for no type at all. -/
def ValType.ofTag (t : Int32) : Option ValType :=
  if t = 0 then some .i32
  else if t = 1 then some .i64
  else if t = 2 then some .f32
  else if t = 3 then some .f64
  else if t = 4 then some .v128
  else if t = 5 then some .funcRef
  else if t = 6 then some .externRef
  else none

/-- `LibExtism.ExtismVal`; a union never given a type has no active field. -/
structure JavaVal where
  t : Int32
  v : Option UnionField

/-- The record in memory, where `old` was before. -/
def JavaVal.write (old : ValUnion) (x : JavaVal) : Option ExtismVal :=
  (ValType.ofTag x.t).map fun t => ⟨t, x.v.elim old (UnionField.write old)⟩

/-- An array of records in memory; record `i` is where `old i` was. -/
def JavaVal.writeAll (old : ℕ → ValUnion) : List JavaVal → Option (List ExtismVal)
  | [] => some []
  | x :: xs => do
      let x ← x.write (old 0)
      let xs ← JavaVal.writeAll (fun i => old (i + 1)) xs
      pure (x :: xs)

/-- `Parameters`. -/
structure Parameters where
  values : List JavaVal
  next : ℕ

namespace Parameters

/-- A new object, on records that hold anything. -/
def new (values : List JavaVal) : Parameters := ⟨values, 0⟩

/-- `getNext`, and the assignments to the record; none for an exception. -/
def put (t : Int32) (field : UnionField) (p : Parameters) : Option Parameters :=
  if p.next < p.values.length then some ⟨p.values.set p.next ⟨t, some field⟩, p.next + 1⟩
  else none

def pushInt (value : Int32) (p : Parameters) : Option Parameters := p.put 0 (.i32 value)

def pushInts (values : List Int32) (p : Parameters) : Option Parameters :=
  values.foldlM (fun p value => p.put 0 (.i32 value)) p

def pushLong (value : Int64) (p : Parameters) : Option Parameters := p.put 0 (.i64 value)

def pushLongs (values : List Int64) (p : Parameters) : Option Parameters :=
  values.foldlM (fun p value => p.put 0 (.i64 value)) p

def pushFloat (value : UInt32) (p : Parameters) : Option Parameters := p.put 0 (.f32 value)

def pushFloats (values : List UInt32) (p : Parameters) : Option Parameters :=
  values.foldlM (fun p value => p.put 0 (.f32 value)) p

def pushDouble (value : UInt64) (p : Parameters) : Option Parameters := p.put 0 (.f64 value)

/-- `pushDouble` of any number of values. -/
def pushDoubles (values : List UInt64) (p : Parameters) : Option Parameters :=
  values.foldlM (fun p value => p.put 0 (.f64 value)) p

/-- The values `ptr_as_val` makes of the object; none if a record has no type. -/
def received (old : ℕ → ValUnion) (p : Parameters) : Option (List Val) :=
  (JavaVal.writeAll old p.values).map fun records => (ptrAsVal (some records)).getD []

end Parameters

/-- A call of one of the methods. -/
inductive Push
  | int (value : Int32)
  | ints (values : List Int32)
  | long (value : Int64)
  | longs (values : List Int64)
  | float (value : UInt32)
  | floats (values : List UInt32)
  | double (value : UInt64)
  | doubles (values : List UInt64)

namespace Push

def run : Push → Parameters → Option Parameters
  | int value => Parameters.pushInt value
  | ints values => Parameters.pushInts values
  | long value => Parameters.pushLong value
  | longs values => Parameters.pushLongs values
  | float value => Parameters.pushFloat value
  | floats values => Parameters.pushFloats values
  | double value => Parameters.pushDouble value
  | doubles values => Parameters.pushDoubles values

/-- What is pushed, in order. -/
def fields : Push → List UnionField
  | int value => [.i32 value]
  | ints values => values.map .i32
  | long value => [.i64 value]
  | longs values => values.map .i64
  | float value => [.f32 value]
  | floats values => values.map .f32
  | double value => [.f64 value]
  | doubles values => values.map .f64

end Push

/-- The values pushed by a sequence of calls. -/
def pushed (pushes : List Push) : List Val := (pushes.flatMap Push.fields).map UnionField.val

/-- **The values arrive as pushed**, whatever was in memory before: in number and
order, with the types they were pushed with, and integers with their values. -/
def Arrives (values : List Val) (p : Parameters) : Prop :=
  ∀ old, ∃ decoded, p.received old = some decoded ∧
    decoded.map Val.type = values.map Val.type ∧
    ∀ {i : ℕ} {v : Val}, values[i]? = some v → v.type = .i32 ∨ v.type = .i64 →
      decoded[i]? = some v

/-! ## What the pushes do -/

namespace Parameters

/-- Every method sets the tag to 0. -/
theorem run_eq (push : Push) (p : Parameters) :
    push.run p = push.fields.foldlM (fun p field => p.put 0 field) p := by
  have one : ∀ field : UnionField,
      p.put 0 field = [field].foldlM (fun p field => p.put 0 field) p := by
    intro field
    simp
  cases push with
  | int value => exact one _
  | long value => exact one _
  | float value => exact one _
  | double value => exact one _
  | ints values => simp only [Push.run, Push.fields, pushInts, List.foldlM_map]
  | longs values => simp only [Push.run, Push.fields, pushLongs, List.foldlM_map]
  | floats values => simp only [Push.run, Push.fields, pushFloats, List.foldlM_map]
  | doubles values => simp only [Push.run, Push.fields, pushDoubles, List.foldlM_map]

/-- A sequence of calls puts one field after the other. -/
theorem runs_eq (pushes : List Push) (p : Parameters) :
    pushes.foldlM (fun p push => push.run p) p =
      (pushes.flatMap Push.fields).foldlM (fun p field => p.put 0 field) p := by
  induction pushes generalizing p with
  | nil => rfl
  | cons push pushes ih =>
      rw [List.flatMap_cons, List.foldlM_append, List.foldlM_cons, run_eq]
      simp only [ih]

/-- **What a run of `put` leaves**: the records from `next` on, in order. -/
theorem values_of_puts {fields : List UnionField} {p p' : Parameters}
    (ran : fields.foldlM (fun p field => p.put 0 field) p = some p') :
    p'.next = p.next + fields.length ∧
      p'.values = p.values.take p.next ++ fields.map (fun field => ⟨0, some field⟩) ++
        p.values.drop (p.next + fields.length) := by
  induction fields generalizing p with
  | nil =>
      obtain rfl := Option.some.inj ran
      simp
  | cons field fields ih =>
      obtain ⟨q, first, rest⟩ := Option.bind_eq_some_iff.1 (by simpa using ran)
      rw [put] at first
      split at first
      case isTrue lt =>
        obtain rfl := Option.some.inj first
        obtain ⟨next, values⟩ := ih rest
        have next' : p'.next = p.next + 1 + fields.length := next
        simp only at values
        refine ⟨by rw [next', List.length_cons]; omega, ?_⟩
        have before : (p.values.set p.next ⟨0, some field⟩).take (p.next + 1) =
            p.values.take p.next ++ [⟨0, some field⟩] := by
          rw [List.take_add_one, List.take_set_of_le (Nat.le_refl _), List.getElem?_set_self lt]
          rfl
        have behind : (p.values.set p.next ⟨0, some field⟩).drop (p.next + 1 + fields.length) =
            p.values.drop (p.next + (fields.length + 1)) := by
          rw [List.drop_set_of_lt (by omega), Nat.add_assoc, Nat.add_comm 1]
        rw [values, before, behind, List.map_cons, List.length_cons]
        simp
      case isFalse => simp at first

/-- A filled object holds what was pushed. -/
theorem values_of_filled {pushes : List Push} {initial : List JavaVal} {p : Parameters}
    (ran : pushes.foldlM (fun p push => push.run p) (new initial) = some p)
    (filled : p.next = p.values.length) :
    p.values = (pushes.flatMap Push.fields).map fun field => ⟨0, some field⟩ := by
  rw [runs_eq] at ran
  obtain ⟨next, values⟩ := values_of_puts ran
  simp only [new, Nat.zero_add, List.take_zero, List.nil_append] at next values
  have none_left : (initial.drop (pushes.flatMap Push.fields).length) = [] := by
    have length := congrArg List.length values
    rw [List.length_append, List.length_map] at length
    exact List.length_eq_zero_iff.1 (by omega)
  rw [values, none_left, List.append_nil]

theorem writeAll_eq (fields : List UnionField) (old : ℕ → ValUnion) :
    ∃ records, JavaVal.writeAll old (fields.map fun field => ⟨0, some field⟩) = some records ∧
      records.map ptrAsVal.value = fields.map fun field => .i32 field.low.toInt32 := by
  induction fields generalizing old with
  | nil => exact ⟨[], rfl, rfl⟩
  | cons field fields ih =>
      obtain ⟨records, written, values⟩ := ih fun i => old (i + 1)
      refine ⟨⟨.i32, field.write (old 0)⟩ :: records, ?_, ?_⟩
      · rw [List.map_cons, JavaVal.writeAll, written]
        rfl
      · rw [List.map_cons, List.map_cons, values, ptrAsVal.value, ExtismVal.read]
        simp [ValUnion.i32]

/-- **What is received**: the low words. -/
theorem received_of_filled {fields : List UnionField} {p : Parameters}
    (values : p.values = fields.map fun field => ⟨0, some field⟩) (old : ℕ → ValUnion) :
    p.received old = some (fields.map fun field => .i32 field.low.toInt32) := by
  obtain ⟨records, written, decoded⟩ := writeAll_eq fields old
  rw [received, values, written, Option.map_some, ← decoded]
  cases records <;> rfl

end Parameters

/-! ## What arrives -/

theorem UnionField.val_of_i32 {field : UnionField} (int : field.val.type = .i32) :
    field.val = .i32 field.low.toInt32 := by
  cases field with
  | i32 x => simp [val, low]
  | _ => simp [val, Val.type] at int

/-- **When parameters arrive.**  What fills a `Parameters` object arrives as it was
pushed exactly if every value pushed is an `int`. -/
theorem arrives_iff {pushes : List Push} {initial : List JavaVal} {p : Parameters}
    (ran : pushes.foldlM (fun p push => push.run p) (.new initial) = some p)
    (filled : p.next = p.values.length) :
    Arrives (pushed pushes) p ↔ ∀ v ∈ pushed pushes, v.type = .i32 := by
  have values := Parameters.values_of_filled ran filled
  rw [pushed]
  generalize pushes.flatMap Push.fields = fields at values
  have received := Parameters.received_of_filled values
  constructor
  · intro arrives v mem
    obtain ⟨decoded, same, types, -⟩ := arrives fun _ => ⟨0, 0⟩
    obtain rfl := Option.some.inj (same.symm.trans (received _))
    have all : ∀ t ∈ (fields.map UnionField.val).map Val.type, t = .i32 := by
      rw [← types]
      simp [Val.type]
    exact all _ (List.mem_map_of_mem mem)
  · intro ints old
    have same : (fields.map fun field => .i32 field.low.toInt32) = fields.map UnionField.val :=
      List.map_congr_left fun field mem =>
        (UnionField.val_of_i32 (ints _ (List.mem_map_of_mem mem))).symm
    exact ⟨_, received old, by rw [same], fun here _ => by rw [same, here]⟩

/-- An object of two records, filled with two integers at once. -/
theorem arrives_iff_of_ints :
    let p : Parameters := ⟨[⟨0, some (.i32 2)⟩, ⟨0, some (.i32 3)⟩], 2⟩
    Arrives [.i32 2, .i32 3] p ↔ ∀ v ∈ [Val.i32 2, .i32 3], v.type = .i32 := by
  intro p
  have ran : [Push.ints [2, 3]].foldlM (fun p push => push.run p) (.new [⟨0, none⟩, ⟨0, none⟩]) =
      some p := rfl
  exact arrives_iff ran rfl

/-- A long with a bit in its high word arrives as the integer 0. -/
theorem not_arrives_of_long :
    [Push.long 4294967296].foldlM (fun p push => push.run p) (.new [⟨0, none⟩]) =
        some ⟨[⟨0, some (.i64 4294967296)⟩], 1⟩ ∧
      ¬ Arrives (pushed [.long 4294967296]) ⟨[⟨0, some (.i64 4294967296)⟩], 1⟩ := by
  refine ⟨rfl, fun arrives => ?_⟩
  obtain ⟨decoded, received, types, -⟩ := arrives fun _ => ⟨0, 0⟩
  have zero : Parameters.received (fun _ => ⟨0, 0⟩) ⟨[⟨0, some (.i64 4294967296)⟩], 1⟩ =
      some [.i32 0] := by
    decide +kernel
  obtain rfl := Option.some.inj (received.symm.trans zero)
  exact absurd types (by decide)

end Extism.Runtime
