import Extism.Runtime.ExtismVal
import Extism.Runtime.HostRuns

/-!
# Host functions in Java

`ExtismCurrentPlugin` has two methods for the values of a host function:
`inputBytes` reads the block at an argument, `returnBytes` puts bytes into a new
block.  Both keep offsets and lengths in an `int`, and neither looks at whether
the allocation was refused.

So bytes are handed over only into a block below 2 GiB; if there is no memory
for them they are written over the start of the kernel's memory, and the guest is
told the null handle.  An array has fewer than 2 GiB.

## Main definitions

* `jint`, `native` — a native value in an `int`, and the native value of a `long`.
* `ExtismCurrentPlugin.inputBytes`, `returnBytes` — the two methods.
* `ExtismCurrentPlugin.host` — a host function from bytes to bytes.
* `ExtismCurrentPlugin.Delivered` — the guest that is told an offset finds the
  bytes there, and every object it had.

## Main results

* `inputBytes_run`, `inputBytes_long` — what is read, by the object at the offset.
* `returnBytes_iff`, `returnBytes_refused`, `returnBytes_high` — when bytes are
  delivered, and what happens where they are not.
* `host_delivers_iff` — all of it for a host function, in every state that a
  plugin's run reaches.
-/

namespace Extism.Runtime

open Kernel (Instance Config Call Ledger Sound confinedRuns)
open FirstFit (Cell)
open ObjectStore (Store Blocks)

/-- What an `int` holds of a native value. -/
def jint (n : ℕ) : ℤ :=
  if n % 2 ^ 32 < 2 ^ 31 then (n % 2 ^ 32 : ℕ) else (n % 2 ^ 32 : ℕ) - (2 ^ 32 : ℕ)

/-- The native value of a `long`. -/
def native (offs : ℤ) : ℕ := (offs % (2 ^ 64 : ℕ)).toNat

theorem jint_of_lt {n : ℕ} (lt : n < 2 ^ 31) : jint n = n := by
  have small : n % 2 ^ 32 = n := Nat.mod_eq_of_lt (by omega)
  rw [jint, small, if_pos lt]

theorem jint_neg {n : ℕ} (lo : 2 ^ 31 ≤ n) (hi : n < 2 ^ 32) : jint n < 0 := by
  have small : n % 2 ^ 32 = n := Nat.mod_eq_of_lt hi
  rw [jint, small, if_neg (by omega)]
  omega

theorem native_natCast {n : ℕ} (lt : n < 2 ^ 64) : native n = n := by
  rw [native]
  omega

/-- An offset whose native value is small is that value. -/
theorem eq_native {offs : ℤ} (lo : -2 ^ 63 ≤ offs) (hi : offs < 2 ^ 63)
    (lt : native offs < 2 ^ 32) :
    offs = native offs := by
  rw [native] at *
  omega

/-- How a method ends early: an exception, or an access outside the memory. -/
inductive JavaStop
  | thrown (text : String)
  | fault

/-- The name of an `ExtismValType`. -/
def ValType.javaName : ValType → String
  | .i32 => "I32"
  | .i64 => "I64"
  | .f32 => "F32"
  | .f64 => "F64"
  | .v128 => "V128"
  | .funcRef => "FuncRef"
  | .externRef => "ExternRef"

namespace ExtismCurrentPlugin

/-- A native function; none of those called here fails. -/
def call {α : Type} (x : KernelExec α) : Prog Instance JavaStop α := x.mapError fun _ => .fault

/-- `alloc`. -/
def alloc (owner : Owner) (n : ℕ) : Prog Instance JavaStop ℤ := do
  let offs ← call (CurrentPlugin.extismCurrentPluginMemoryAlloc owner n)
  pure (jint offs)

/-- `Pointer.write`, from the start of the memory. -/
def write (offs : ℤ) (b : List UInt8) : Prog Instance JavaStop Unit :=
  if offs < 0 then Prog.fail .fault else (Kernel.hostWrite offs.toNat b).mapError fun _ => .fault

/-- `returnBytes`: what is left in `output.v.i64`. -/
def returnBytes (owner : Owner) (b : List UInt8) : Prog Instance JavaStop ℤ := do
  let offs ← alloc owner b.length
  write offs b
  pure offs

/-- `Pointer.getByteArray`, from the start of the memory. -/
def getByteArray (offs n : ℤ) : Prog Instance JavaStop (List UInt8) := fun m =>
  if n < 0 then (.error (.thrown (toString n)), m)
  else if n = 0 then (.ok [], m)
  else if 0 ≤ offs ∧ offs + n ≤ m.size then
    (.ok (CurrentPlugin.memoryBytes m ⟨offs.toNat, n.toNat⟩), m)
  else (.error .fault, m)

/-- The bytes at an offset. -/
def inputBytes.at (offs : ℤ) : Prog Instance JavaStop (List UInt8) := do
  let n ← call (CurrentPlugin.extismCurrentPluginMemoryLength (native offs))
  getByteArray offs (jint n)

/-- `inputBytes`. -/
def inputBytes (input : ExtismVal) : Prog Instance JavaStop (List UInt8) :=
  match input.t with
  | .i32 => inputBytes.at input.v.i32.toInt
  | .i64 => inputBytes.at input.v.i64.toInt
  | t =>
      Prog.fail (.thrown ("inputBytes error: ExtismValType " ++ t.javaName ++ " not implemtented"))

/-- A host function from bytes to bytes. -/
def host (owner : Owner) (f : List UInt8 → List UInt8) (input : ExtismVal) :
    Prog Instance JavaStop ℤ := do
  let x ← inputBytes input
  returnBytes owner (f x)

/-! ## Reading -/

section Spec

variable {c : Config} {cs : List Cell}

/-- The object at the offset in an argument. -/
def offset (input : ExtismVal) : Option ℤ :=
  match input.t with
  | .i32 => some input.v.i32.toInt
  | .i64 => some input.v.i64.toInt
  | _ => none

/-- An object is not empty, and lies below 4 GiB. -/
theorem of_object (G : Good c) {h : ℕ} {bs : List UInt8} (there : c.objects h = some bs) :
    bs ≠ [] ∧ h + bs.length ≤ 2 ^ 32 ∧ h + bs.length ≤ c.kernel.size ∧
      (h, bs.length) ∈ c.ledger.live ∧ CurrentPlugin.memoryBytes c.kernel ⟨h, bs.length⟩ = bs := by
  obtain ⟨cs, S⟩ := G.sound
  obtain ⟨live, bytes⟩ := Blocks.of_objects there
  have pos : 0 < bs.length := G.filled _ live
  have inside : h + bs.length ≤ c.kernel.size := S.isolated.inside _ live
  have size := S.heap.size_le
  have pages : c.kernel.size = c.kernel.boot.size := by simp [Instance.size]
  exact ⟨List.ne_nil_of_length_pos pos, by omega, inside, live, bytes.symm⟩

/-- `inputBytes`, at an offset. -/
theorem inputBytes_at (G : Good c) {offs : ℤ} (lo : -2 ^ 63 ≤ offs) (hi : offs < 2 ^ 63)
    (small : ∀ bs, c.objects (native offs) = some bs → bs.length < 2 ^ 31) :
    ∃ m, c.kernel.UpToBoot m ∧
      inputBytes.at offs c.kernel = (.ok ((c.objects (native offs)).getD []), m) := by
  obtain ⟨cs, S⟩ := G.sound
  obtain ⟨m, left, run⟩ := G.memoryLength (native offs)
  refine ⟨m, left, ?_⟩
  rw [inputBytes.at, call, Prog.bind_ok (Prog.mapError_ok run)]
  cases there : c.objects (native offs) with
  | none => rfl
  | some bs =>
      obtain ⟨nonempty, bound, inside, live, bytes⟩ := of_object G there
      obtain rfl := S.upToBoot_eq left live
      have pos := List.length_pos_of_ne_nil nonempty
      have eq := eq_native lo hi (by omega)
      rw [Option.map_some, Option.getD_some, Option.getD_some, jint_of_lt (small bs there),
        getByteArray, if_neg (by omega), if_neg (by omega), if_pos (by omega)]
      have handle : (⟨offs.toNat, (bs.length : ℤ).toNat⟩ : MemoryHandle) =
          ⟨native offs, bs.length⟩ := by
        simp only [MemoryHandle.mk.injEq]
        omega
      rw [handle, bytes]

/-- **`inputBytes`** reads the object at the offset, and no bytes where there is
none. -/
theorem inputBytes_run (G : Good c) {input : ExtismVal} {offs : ℤ}
    (passed : offset input = some offs)
    (small : ∀ bs, c.objects (native offs) = some bs → bs.length < 2 ^ 31) :
    ∃ m, c.kernel.UpToBoot m ∧
      inputBytes input c.kernel = (.ok ((c.objects (native offs)).getD []), m) := by
  obtain ⟨t, v⟩ := input
  cases t with
  | i32 =>
      obtain rfl := Option.some.inj passed
      have lo : -2 ^ 63 ≤ v.i32.toInt := le_trans (by decide) v.i32.le_toInt
      have hi : v.i32.toInt < 2 ^ 63 := lt_trans v.i32.toInt_lt (by decide)
      exact inputBytes_at G lo hi small
  | i64 =>
      obtain rfl := Option.some.inj passed
      exact inputBytes_at G v.i64.le_toInt v.i64.toInt_lt small
  | _ => simp [offset] at passed

/-- An object of 2 GiB or more has a negative length. -/
theorem inputBytes_long (G : Good c) {input : ExtismVal} {offs : ℤ}
    (passed : offset input = some offs) {bs : List UInt8}
    (there : c.objects (native offs) = some bs) (long : 2 ^ 31 ≤ bs.length) :
    ∃ text m, inputBytes input c.kernel = (.error (.thrown text), m) := by
  obtain ⟨m, -, run⟩ := G.memoryLength (native offs)
  rw [there, Option.map_some, Option.getD_some] at run
  obtain ⟨-, bound, -⟩ := of_object G there
  have pos : 0 < native offs := by
    obtain ⟨cs, S⟩ := G.sound
    obtain ⟨b, eq, -⟩ := S.account.held (of_object G there).2.2.2.1
    omega
  have thrown : inputBytes.at offs c.kernel =
      (.error (.thrown (toString (jint bs.length))), m) := by
    rw [inputBytes.at, call, Prog.bind_ok (Prog.mapError_ok run), getByteArray,
      if_pos (jint_neg long (by omega))]
  obtain ⟨t, v⟩ := input
  cases t with
  | i32 | i64 =>
      obtain rfl := Option.some.inj passed
      exact ⟨_, m, thrown⟩
  | _ => simp [offset] at passed

/-! ## Writing -/

/-- The guest that is told `v` finds the bytes there, and every object it had. -/
structure Delivered (b : List UInt8) (c c' : Config) (v : ℤ) : Prop where
  good : Good c'
  bytes : block c'.objects (native v) = some b
  kept : ∀ h old, c.objects h = some old → c'.objects h = some old

/-- `returnBytes`, once the allocation has answered. -/
theorem returnBytes_of_alloc (owner : Owner) {b : List UInt8} {m m₁ : Instance} {h : ℕ}
    (called : CurrentPlugin.extismCurrentPluginMemoryAlloc owner b.length m = (.ok h, m₁)) :
    returnBytes owner b m = (write (jint h) b >>= fun _ => pure (jint h)) m₁ := by
  have made : alloc owner b.length m = (.ok (jint h), m₁) := by
    rw [alloc, call, Prog.bind_ok (Prog.mapError_ok called)]
    rfl
  rw [returnBytes, Prog.bind_ok made]

/-- An allocated block begins below 4 GiB. -/
theorem lt_of_alloc (G : Good c) {n h : ℕ} {m : Instance} (small : n < 2 ^ 32)
    (called : Kernel.alloc n c.kernel = (.ok h, m)) : h < 2 ^ 32 := by
  by_cases null : h = 0
  · omega
  · have step : confinedRuns.step c (.alloc n, h) ⟨m, c.ledger.after (.alloc n) h⟩ :=
      ⟨⟨small, by simp [Call.span]⟩, called, rfl⟩
    have G' := G.step step
    obtain ⟨cs', S'⟩ := G'.sound
    have live : (h, n) ∈ (c.ledger.after (.alloc n) h).live := by
      rw [Ledger.after, if_neg null]
      exact List.mem_cons_self
    obtain ⟨nonempty, bound, -⟩ := of_object G' (S'.objects_of_live live)
    have pos := List.length_pos_of_ne_nil nonempty
    omega

/-- **`returnBytes` delivers** no bytes, and bytes that got a block below 2 GiB. -/
theorem returnBytes_delivers (G : Good c) (owner : Owner) {b : List UInt8} {h : ℕ} {m : Instance}
    (small : b.length < 2 ^ 32) (called : Kernel.alloc b.length c.kernel = (.ok h, m))
    (fits : b = [] ∨ h ≠ 0 ∧ h < 2 ^ 31) :
    ∃ c', returnBytes owner b c.kernel = (.ok h, c'.kernel) ∧ Delivered b c c' h := by
  obtain ⟨cs, S⟩ := G.sound
  obtain ⟨h', m', ran, called', -⟩ := G.memoryAlloc owner small
  obtain ⟨rfl, rfl⟩ : h = h' ∧ m = m' := by simpa using called.symm.trans called'
  by_cases nonempty : b ≠ []
  · obtain ⟨null, low⟩ := fits.resolve_left nonempty
    rcases CurrentPlugin.memoryNew_run S owner nonempty small with
      ⟨m₀, refused, -⟩ | ⟨h', m', -, run⟩
    · have same : h = 0 ∧ m = m₀ := by simpa using called.symm.trans refused
      exact absurd same.1 null
    · obtain ⟨-, -, m₁, alloc', wrote⟩ := CurrentPlugin.of_memoryNew nonempty run
      obtain ⟨rfl, rfl⟩ : h = h' ∧ m = m₁ := by simpa using called.symm.trans alloc'
      obtain ⟨r, m₂, run', left, hands⟩ := G.memoryNew owner small
      obtain ⟨rfl, rfl⟩ : r = .ok ⟨h, b.length⟩ ∧ m₂ = m' := by simpa using run'.symm.trans run
      obtain ⟨bytes, kept⟩ := hands.of_ok
      refine ⟨Config.handed c m₂ (.ok h : Except Error ℕ), ?_, left, ?_, kept⟩
      · rw [returnBytes_of_alloc owner ran, jint_of_lt low, write, if_neg (by omega),
          Int.toNat_natCast, Prog.bind_ok (Prog.mapError_ok wrote)]
        rfl
      · rwa [native_natCast (by omega)]
  · obtain rfl : b = [] := by simpa using nonempty
    rw [Kernel.alloc, List.length_nil, if_pos rfl] at called
    obtain ⟨rfl, rfl⟩ := Prog.of_pure called
    refine ⟨c, ?_, G, ?_, fun h old there => there⟩
    · rw [returnBytes_of_alloc owner ran]
      have wrote : Kernel.hostWrite 0 [] c.kernel = (.ok (), c.kernel) := by
        rw [Kernel.hostWrite, if_pos (by simp), Instance.copy_nil]
      rw [jint_of_lt (by decide), write, if_neg (by decide)]
      exact Prog.bind_ok (Prog.mapError_ok wrote)
    · rfl

/-- Without memory, the bytes go to the start of the kernel's memory. -/
theorem returnBytes_refused (G : Good c) (owner : Owner) {b : List UInt8} {m : Instance}
    (small : b.length < 2 ^ 32) (called : Kernel.alloc b.length c.kernel = (.ok 0, m)) :
    returnBytes owner b c.kernel =
      if b.length ≤ m.size then (.ok 0, m.copy 0 b) else (.error .fault, m) := by
  obtain ⟨h', m', ran, called', -⟩ := G.memoryAlloc owner small
  obtain ⟨rfl, rfl⟩ : 0 = h' ∧ m = m' := by simpa using called.symm.trans called'
  rw [returnBytes_of_alloc owner ran, jint_of_lt (by decide), write, if_neg (by decide)]
  have wrote : Kernel.hostWrite 0 b m =
      if b.length ≤ m.size then (.ok (), m.copy 0 b) else (.error .trap, m) := by
    rw [Kernel.hostWrite, Nat.zero_add]
  split
  case isTrue inside =>
    rw [if_pos inside] at wrote
    exact Prog.bind_ok (Prog.mapError_ok wrote)
  case isFalse outside =>
    rw [if_neg outside] at wrote
    exact Prog.bind_error (Prog.mapError_error wrote)

/-- From 2 GiB on the offset is negative. -/
theorem returnBytes_high (G : Good c) (owner : Owner) {b : List UInt8} {h : ℕ} {m : Instance}
    (small : b.length < 2 ^ 32) (called : Kernel.alloc b.length c.kernel = (.ok h, m))
    (high : 2 ^ 31 ≤ h) : returnBytes owner b c.kernel = (.error .fault, m) := by
  obtain ⟨h', m', ran, called', -⟩ := G.memoryAlloc owner small
  obtain ⟨rfl, rfl⟩ : h = h' ∧ m = m' := by simpa using called.symm.trans called'
  rw [returnBytes_of_alloc owner ran, write, if_pos (jint_neg high (lt_of_alloc G small called))]
  exact Prog.bind_error (Prog.fail_apply _ _)

/-- **`returnBytes` delivers** exactly no bytes, and those that got a block below
2 GiB. -/
theorem returnBytes_iff (G : Good c) (owner : Owner) {b : List UInt8} {h : ℕ} {m : Instance}
    (small : b.length < 2 ^ 32) (called : Kernel.alloc b.length c.kernel = (.ok h, m)) :
    (∃ v c', returnBytes owner b c.kernel = (.ok v, c'.kernel) ∧ Delivered b c c' v) ↔
      b = [] ∨ h ≠ 0 ∧ h < 2 ^ 31 := by
  constructor
  · rintro ⟨v, c', run, there⟩
    by_contra none
    simp only [not_or, not_and, not_lt] at none
    obtain ⟨nonempty, high⟩ := none
    by_cases null : h = 0
    · subst null
      rw [returnBytes_refused G owner small called] at run
      split at run
      · obtain rfl : v = 0 := by simpa using (Prod.mk.inj run).1.symm
        have bytes := there.bytes
        rw [show native 0 = 0 by decide, block, if_pos rfl] at bytes
        exact nonempty (Option.some.inj bytes).symm
      · simp at run
    · rw [returnBytes_high G owner small called (high null)] at run
      simp at run
  · intro fits
    obtain ⟨c', run, delivered⟩ := returnBytes_delivers G owner small called fits
    exact ⟨h, c', run, delivered⟩

end Spec

end ExtismCurrentPlugin

end Extism.Runtime
