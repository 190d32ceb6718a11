import Extism.Lib.Journal
import Extism.Runtime.CurrentPlugin

/-!
# The guest's variables

`var_get` and `var_set` of the development kit.  Keys and values come as offsets
into kernel memory.  The linker has checked that the arguments are `i64`s; the
code reads them as `u64`s, and here they are these.

A key is a slice of kernel memory, not a copy.  Nothing is written between
making the slice and the lookup, so it is read once.  The sum of the lengths is
a `usize`, which it fits (`Good.total_lt`).

`memory_alloc` may fail on the way to an answer: with the text "out of memory" if
the kernel answered 0, with the trap of the limiter if that refused the memory.

## Main definitions

* `Vars`, `CurrentPlugin` — the variables, and what the functions here use of a
  plugin.
* `Pdk.varKey` — the key at an offset.
* `Pdk.varGet` — `var_get`: a stored value in a new block, offset 0 if there is
  none.
* `Pdk.varSet`, `Pdk.VAR_LIMIT` — `var_set`: the store is measured before the write.
-/

namespace Extism.Runtime

open Kernel (Instance)

/-- The variables of a plugin. -/
abbrev Vars : Type := AList fun _ : String => List UInt8

/-- What the functions of the guest's variables use of a `CurrentPlugin`. -/
structure CurrentPlugin where
  owner : Owner
  kernel : Instance
  vars : Vars

namespace Pdk

/-- A computation on the kernel. -/
def onKernel {α : Type} (x : KernelExec α) : Prog CurrentPlugin Error α :=
  x.zoom (fun p => p.kernel) fun p m => { p with kernel := m }

/-- The handle at an offset, or an error that says what was looked for. -/
def handleFor (what : String) (offset : ℕ) : KernelExec MemoryHandle := do
  let handle ← CurrentPlugin.memoryHandle offset
  Prog.ofExcept (handle.elim
    (.error (.msg ("invalid handle offset for " ++ what ++ ": " ++ toString offset))) .ok)

-- the error of `from_utf8`, by the bytes it was given
variable (utf8Error : List UInt8 → Error)

/-- `memory_str` of a key's handle. -/
def varKey.text (handle : MemoryHandle) : KernelExec String := do
  let m ← Prog.get
  Prog.ofExcept ((CurrentPlugin.memoryStr m handle).elim
    (.error (utf8Error (CurrentPlugin.memoryBytes m handle))) .ok)

/-- The key at an offset. -/
def varKey (offset : ℕ) : KernelExec String := do
  let handle ← handleFor "var key" offset
  varKey.text utf8Error handle

/-- A value in a new block, offset 0 if there is none. -/
def varGet.answer (owner : Owner) : Option (List UInt8) → KernelExec ℕ
  | none => pure 0
  | some bytes => do
      let mem ← CurrentPlugin.memoryNew owner bytes
      pure mem.offset

/-- `var_get`. -/
def varGet (offset : ℕ) : Prog CurrentPlugin Error ℕ := do
  let key ← onKernel (varKey utf8Error offset)
  let data ← Prog.get
  onKernel (varGet.answer data.owner (data.vars.lookup key))

/-- 100 MiB. -/
def VAR_LIMIT : ℕ := 1024 * 1024 * 100

/-- The end of `var_set`: offset 0 removes the variable. -/
def varSet.store (key : String) (voffset : ℕ) : Prog CurrentPlugin Error Unit :=
  if voffset = 0 then Prog.modify fun p => { p with vars := p.vars.erase key }
  else do
    let handle ← onKernel (handleFor "var value" voffset)
    Prog.modify fun p =>
      { p with vars := p.vars.insert key (CurrentPlugin.memoryBytes p.kernel handle) }

/-- `var_set`.  The store is measured before the write. -/
def varSet (keyOffs voffset : ℕ) : Prog CurrentPlugin Error Unit := do
  let data ← Prog.get
  if VAR_LIMIT < data.vars.total List.length ∧ voffset ≠ 0 then
    Prog.fail (.msg "Variable store is full")
  else do
    let key ← onKernel (varKey utf8Error keyOffs)
    varSet.store key voffset

end Pdk

end Extism.Runtime
