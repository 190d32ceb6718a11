import Extism.Runtime.HostObjects
import Extism.Runtime.Vars

/-!
# Variables of objects

`var_get` and `var_set` on a kernel that was only used within the contract: their
offsets stand for objects (`block`), so that `var_set` is an update of a map by
two of them, and `var_get` makes one.

A stored value may be too long for a block, or the kernel refuse one; then
`var_get` fails and no object is made.

## Main definitions

* `Vars.valueAt`, `Vars.set` — the value an offset stands for, and `var_set` on
  objects.
* `Vars.Small` — values have fewer than 4 GiB, as objects do.

## Main results

* `Good.store` — the end of `var_set` is one update.
* `Good.varSet`, `Good.varGet` — both, on every offset.
-/

namespace Extism.Runtime

open Kernel (Instance Config)
open FirstFit (Cell)
open ObjectStore (Store Blocks)

namespace Vars

/-- The value an offset stands for; 0 stands for none. -/
def valueAt (s : Store ℕ UInt8) (v : ℕ) : Except Error (Option (List UInt8)) :=
  if v = 0 then .ok none
  else (bytesAt (noHandleFor "var value" v) s v).bind fun bytes => .ok (some bytes)

/-- **`var_set` on objects.** -/
def set (utf8Error : List UInt8 → Error) (vars : Vars) (k v : ℕ) (s : Store ℕ UInt8) :
    Except Error Vars :=
  if Pdk.VAR_LIMIT < vars.total List.length ∧ v ≠ 0 then
    .error (.msg "Variable store is full")
  else do
    let key ← textAt utf8Error "var key" s k
    let value ← valueAt s v
    .ok (vars.put key value)

/-- Values have fewer than 4 GiB. -/
def Small (vars : Vars) : Prop := ∀ key bs, vars.lookup key = some bs → bs.length < 2 ^ 32

end Vars

section Spec

variable {c : Config} (utf8Error : List UInt8 → Error) (owner : Owner)

/-- An object has fewer than 4 GiB. -/
theorem Good.object_lt (G : Good c) {h : ℕ} {bs : List UInt8} (there : c.objects h = some bs) :
    bs.length < 2 ^ 32 := by
  obtain ⟨cs, S⟩ := G.sound
  obtain ⟨live, -⟩ := Blocks.of_objects there
  have inside : h + bs.length ≤ c.kernel.size := S.isolated.inside _ live
  have size := S.heap.size_le
  simp only [Instance.size, Instance.pages_boot] at inside size
  obtain ⟨b, rfl, -⟩ := S.account.held live
  omega

theorem Good.value_lt (G : Good c) {v : ℕ} {bs : List UInt8}
    (read : Vars.valueAt c.objects v = .ok (some bs)) : bs.length < 2 ^ 32 := by
  rw [Vars.valueAt] at read
  split at read
  case isTrue => simp at read
  case isFalse value =>
    obtain ⟨bytes, there, same⟩ := Except.bind_eq_ok read
    obtain rfl := Option.some.inj (Except.ok.inj same)
    rw [bytesAt, block, if_neg value] at there
    cases found : c.objects v with
    | none =>
        rw [found] at there
        simp at there
    | some old =>
        rw [found] at there
        obtain rfl := Except.ok.inj there
        exact G.object_lt found

theorem Vars.Small.set (G : Good c) {vars vars' : Vars} (small : vars.Small) {k v : ℕ}
    (done : Vars.set utf8Error vars k v c.objects = .ok vars') : vars'.Small := by
  rw [Vars.set] at done
  split at done
  case isTrue => simp at done
  case isFalse =>
    obtain ⟨key, -, done⟩ := Except.bind_eq_ok done
    obtain ⟨value, read, same⟩ := Except.bind_eq_ok done
    obtain rfl := Except.ok.inj same
    intro key' bs found
    rw [AList.lookup_put] at found
    split at found
    case isTrue =>
      rw [found] at read
      exact G.value_lt read
    case isFalse => exact small key' bs found

/-- The end of `var_set` is one update. -/
theorem Good.store (G : Good c) (vars : Vars) (key : String) (v : ℕ) :
    ∃ m, c.kernel.UpToBoot m ∧ Pdk.varSet.store key v ⟨owner, c.kernel, vars⟩ =
      ((Vars.valueAt c.objects v).map fun _ => (), ⟨owner, m,
        ((Vars.valueAt c.objects v).map fun value => vars.put key value).toOption.getD vars⟩) := by
  obtain ⟨cs, S⟩ := G.sound
  rw [Pdk.varSet.store, Vars.valueAt, Prog.ite_apply]
  split
  case isTrue => exact ⟨c.kernel, .inl rfl, rfl⟩
  case isFalse value =>
    obtain ⟨handle, m, left, run, live, found⟩ := memoryHandle_block G v
    refine ⟨m, left, ?_⟩
    rw [bytesAt, ← found]
    cases handle with
    | none =>
        have missing : Pdk.handleFor "var value" v c.kernel =
            (.error (noHandleFor "var value" v), m) := Prog.bind_ok run
        exact Prog.bind_error (Pdk.onKernel_run missing)
    | some handle =>
        have made : Pdk.handleFor "var value" v c.kernel = (.ok handle, m) := Prog.bind_ok run
        rw [Prog.bind_ok (Pdk.onKernel_run made)]
        rfl

/-- **`var_set`**, on every offset. -/
theorem Good.varSet (G : Good c) (vars : Vars) (k v : ℕ) :
    ∃ m, c.kernel.UpToBoot m ∧ Pdk.varSet utf8Error k v ⟨owner, c.kernel, vars⟩ =
      ((Vars.set utf8Error vars k v c.objects).map fun _ => (),
        ⟨owner, m, (Vars.set utf8Error vars k v c.objects).toOption.getD vars⟩) := by
  obtain ⟨cs, S⟩ := G.sound
  rw [Pdk.varSet, Prog.bind_ok (Prog.get_apply _), Vars.set, Prog.ite_apply]
  split
  case isTrue => exact ⟨c.kernel, .inl rfl, rfl⟩
  case isFalse =>
    obtain ⟨m, left, run⟩ := G.readText utf8Error "var key" k
    have read : Pdk.varKey utf8Error k c.kernel = (textAt utf8Error "var key" c.objects k, m) := run
    have keyed := Pdk.onKernel_run (p := ⟨owner, c.kernel, vars⟩) read
    cases text : textAt utf8Error "var key" c.objects k with
    | error e =>
        rw [text] at keyed
        exact ⟨m, left, Prog.bind_error keyed⟩
    | ok key =>
        rw [text] at keyed
        obtain ⟨m', left', stored⟩ := (G.upToBoot left).store owner vars key v
        rw [objects_upToBoot S left] at stored
        refine ⟨m', S.upToBoot_trans left left', ?_⟩
        rw [Prog.bind_ok keyed, stored]
        change _ = (Except.map _
            ((Vars.valueAt c.objects v) >>= fun value => .ok (vars.put key value)),
          CurrentPlugin.mk owner m' (((Vars.valueAt c.objects v) >>= fun value =>
            .ok (vars.put key value) : Except Error Vars).toOption.getD vars))
        cases Vars.valueAt c.objects v <;> rfl

/-- **`var_get`**, on every offset. -/
theorem Good.varGet (G : Good c) {vars : Vars} (small : vars.Small) (k : ℕ) :
    ∃ r m, Pdk.varGet utf8Error k ⟨owner, c.kernel, vars⟩ = (r, ⟨owner, m, vars⟩) ∧
      Good (Config.handed c m r) ∧
      LooksUp utf8Error (owner.refuses c.kernel) "var key" vars.lookup k c.objects r
        (Config.handed c m r).objects := by
  obtain ⟨r, m, run, left, looks⟩ := G.lookUp utf8Error owner "var key" vars.lookup small k
  refine ⟨r, m, ?_, left, looks⟩
  obtain ⟨m₀, -, read⟩ := G.readText utf8Error "var key" k
  rw [Pdk.varGet]
  cases text : textAt utf8Error "var key" c.objects k with
  | error e =>
      rw [text] at read
      obtain ⟨rfl, rfl⟩ := Prod.mk.inj ((Prog.bind_error read).symm.trans run)
      exact Prog.bind_error (Pdk.onKernel_run read)
  | ok key =>
      rw [text] at read
      rw [Prog.bind_ok (Pdk.onKernel_run read), Prog.bind_ok (Prog.get_apply _)]
      exact Pdk.onKernel_run ((Prog.bind_ok read).symm.trans run)

end Spec

end Extism.Runtime
