import Extism.Kernel.Instance

/-!
# Values and errors at the boundary to the guest

WebAssembly values and function types as the embedder sees them, and errors as
the host code sees them.  An `anyhow::Error` is opaque; all the host ever does
with one is print it, look for its root cause, and ask whether a WASI exit or a
trap is found inside.  `Error` is what these four questions answer.

A function belongs to the instance it was looked up in, and its results have the
types it declares, so `Results` carries that as a field.

## Main definitions

* `ValType`, `Val`, `FuncType` — values, by their bits, and their types.
* `Results` — the results of a call that returned.
* `Func` — an export of the guest's, as `Instance::get_func` gives it.
* `Trap`, `Error` — how a call can end otherwise.
* `Error.msg`, `Error.context`, `Error.ofFault` — errors made from a text, from
  another error, and from a call into the kernel that did not complete.
-/

namespace Extism.Runtime

/-- A WebAssembly value type. -/
inductive ValType
  | i32
  | i64
  | f32
  | f64
  | v128
  | funcRef
  | externRef
  deriving DecidableEq, Repr

/-- A WebAssembly value.  Floats are held by their bits. -/
inductive Val
  | i32 (x : Int32)
  | i64 (x : Int64)
  | f32 (bits : UInt32)
  | f64 (bits : UInt64)
  | v128 (bits : BitVec 128)
  | funcRef (func : Option ℕ)
  | externRef (object : Option ℕ)
  deriving DecidableEq

namespace Val

/-- `Val::null()`, the null external reference. -/
def null : Val := .externRef none

/-- `Val::i32`: the value, if it is an `i32`. -/
def asI32 : Val → Option Int32
  | .i32 x => some x
  | _ => none

/-- The type of a value. -/
def type : Val → ValType
  | .i32 _ => .i32
  | .i64 _ => .i64
  | .f32 _ => .f32
  | .f64 _ => .f64
  | .v128 _ => .v128
  | .funcRef _ => .funcRef
  | .externRef _ => .externRef

theorem asI32_eq_some {v : Val} {x : Int32} : v.asI32 = some x ↔ v = .i32 x := by
  cases v <;> simp [asI32]

end Val

/-- The type of a function. -/
structure FuncType where
  params : List ValType
  results : List ValType
  deriving DecidableEq, Repr

/-- `typed::<(), ()>`: whether a function takes and returns nothing. -/
def FuncType.isUnit (t : FuncType) : Bool := t.params.isEmpty && t.results.isEmpty

/-- The results of a call that returned: values of the declared types. -/
def Results (types : List ValType) : Type := { vs : List Val // vs.map Val.type = types }

/-- The zero, or the null, of a type. -/
def ValType.zero : ValType → Val
  | .i32 => .i32 0
  | .i64 => .i64 0
  | .f32 => .f32 0
  | .f64 => .f64 0
  | .v128 => .v128 0
  | .funcRef => .funcRef none
  | .externRef => .externRef none

@[simp] theorem ValType.type_zero (t : ValType) : t.zero.type = t := by
  cases t <;> rfl

/-- Zeros of the declared types. -/
def Results.zero (types : List ValType) : Results types :=
  ⟨types.map ValType.zero, by simp [Function.comp_def]⟩

/-- A function exported by the guest, as `Instance::get_func` gives it: it
belongs to the instance it was looked up in. -/
structure Func where
  inst : ℕ
  name : String
  type : FuncType

/-- A wasm trap; the host tells only one of them from the others. -/
inductive Trap
  | interrupt
  | other
  deriving DecidableEq, Repr

/-- What the host can tell about an `anyhow::Error`. -/
structure Error where
  /-- The error as printed. -/
  text : String
  /-- `root_cause().to_string()`. -/
  rootCause : String
  /-- What downcasting to `I32Exit` finds. -/
  i32Exit : Option Int32
  /-- What downcasting to `Trap` finds. -/
  trap : Option Trap
  deriving DecidableEq, Repr

namespace Error

/-- `Error::msg`. -/
def msg (text : String) : Error := ⟨text, text, none, none⟩

/-- `Error::context`: the context is printed, everything else is looked for in
the error it was added to. -/
def context (e : Error) (text : String) : Error := { e with text := text }

/-- The error of a call into the kernel that did not complete. -/
def ofFault (_ : Kernel.Fault) : Error := ⟨"wasm trap", "wasm trap", none, some .other⟩

end Error

end Extism.Runtime
