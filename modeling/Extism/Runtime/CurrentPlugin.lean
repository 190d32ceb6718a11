import Extism.Kernel.Exports
import Extism.Runtime.Value

/-!
# The host's calls into the kernel

The methods of `CurrentPlugin` that only go through the kernel's exports, as
programs on the kernel instance.  A fault of the kernel is an error of the
host's; the kernel module is linked into every plugin, so the lookups of its
exports succeed.

The host reads and writes kernel memory through slices made from a handle
without a check against the memory size; `memoryBytes` reads whatever is there.

## Memory that is refused

A `memory.grow` can be refused in two ways.  The wasm limits answer −1, and the
kernel's `alloc` makes a 0 of that, which `memory_alloc` reports as "out of
memory".  The plugin's own `MemoryLimiter` returns an error instead, and the
instruction traps: `memory_alloc` fails with the trap, whose root cause is
"oom".  The memory is the same either way, since `alloc` stores nothing once the
grow has failed.  So the kernel's model answers −1 throughout, and `Owner` tells
the host which of the two it was.

## Main definitions

* `KernelExec` — a computation of the host's on the kernel instance.
* `Owner`, `Owner.refusal`, `Owner.refuses` — whose memory it is, the error of a
  refused allocation, and which allocations are refused.
* `CurrentPlugin.memoryNew`, `memoryHandle`, `memoryBytes` — data into a new
  block, the handle at an offset, and the bytes of a handle.
* `CurrentPlugin.setError`, `getErrorPosition`, `outputMemoryPosition` — what a
  call of the plugin records and fetches.

## Main results

* `Owner.alloc_eq_zero_iff` — `alloc` answers 0 for no bytes, and where it
  refuses.
* `Owner.refuses_ne_oom` — without a limiter nothing is refused by one.
-/

namespace Extism.Runtime

open Kernel (Instance)

/-- A range of kernel memory. -/
structure MemoryHandle where
  offset : ℕ
  length : ℕ
  deriving DecidableEq, Repr

/-- `MemoryHandle::null`. -/
def MemoryHandle.null : MemoryHandle := ⟨0, 0⟩

/-- A computation of the host's on the kernel instance. -/
abbrev KernelExec (α : Type) : Type := Prog Instance Error α

/-- A call of a kernel export by the host. -/
def callKernel {α : Type} (x : Kernel.Exec α) : KernelExec α := x.mapError Error.ofFault

/-- The error of a `memory.grow` that `MemoryLimiter` refuses. -/
def Error.oom : Error := ⟨"error while executing at wasm backtrace", "oom", none, none⟩

/-- Whose memory it is: what `memory_alloc` goes by besides the kernel. -/
structure Owner where
  /-- The plugin's id, as printed. -/
  id : String
  /-- Whether the `n`-th `memory.grow` is refused by `MemoryLimiter`, if it is
  refused. -/
  limits : ℕ → Bool

namespace Owner

/-- The error of an allocation, by the kernel that refused it: the `memory.grow`
it asked for is the last one. -/
def refusal (owner : Owner) (m : Instance) : Error :=
  if owner.limits (m.grows.length - 1) then .oom else .msg (owner.id ++ " out of memory")

/-- The error of an allocation of `n` bytes, if the kernel refuses it: `alloc`
answers 0.  It is not asked for no bytes. -/
def refuses (owner : Owner) (m : Instance) (n : ℕ) : Option Error :=
  if n = 0 then none
  else
    match Kernel.alloc n m with
    | (.ok 0, m') => some (owner.refusal m')
    | _ => none

variable (owner : Owner) {m m' : Instance} {n : ℕ}

theorem refuses_of_alloc_zero (some : n ≠ 0) (refused : Kernel.alloc n m = (.ok 0, m')) :
    owner.refuses m n = .some (owner.refusal m') := by
  rw [refuses, if_neg some, refused]
  rfl

theorem refuses_of_alloc {h : ℕ} (made : Kernel.alloc n m = (.ok h, m')) (handle : h ≠ 0) :
    owner.refuses m n = none := by
  obtain ⟨k, rfl⟩ := Nat.exists_eq_succ_of_ne_zero handle
  rw [refuses, made]
  split <;> rfl

/-- What is refused was answered with 0. -/
theorem alloc_of_refuses {e : Error} (refused : owner.refuses m n = some e) :
    n ≠ 0 ∧ ∃ m', Kernel.alloc n m = (.ok 0, m') ∧ e = owner.refusal m' := by
  rw [refuses] at refused
  split at refused
  case isTrue => simp at refused
  case isFalse some =>
    refine ⟨some, ?_⟩
    split at refused
    case h_1 m' called => exact ⟨m', called, (Option.some.inj refused).symm⟩
    case h_2 => simp at refused

/-- `alloc` answers 0 for no bytes, and where it refuses. -/
theorem alloc_eq_zero_iff {h : ℕ} (called : Kernel.alloc n m = (.ok h, m')) :
    h = 0 ↔ n = 0 ∨ (owner.refuses m n).isSome = true := by
  by_cases none : n = 0
  · rw [Kernel.alloc, if_pos none] at called
    simp [none, (Prog.of_pure called).2]
  · by_cases zero : h = 0
    · rw [zero] at called
      simp [zero, owner.refuses_of_alloc_zero none called]
    · simp [zero, none, owner.refuses_of_alloc called zero]

/-- Without a limiter nothing is refused by one. -/
theorem refuses_ne_oom (unlimited : ∀ k, owner.limits k = false) :
    owner.refuses m n ≠ some .oom := by
  intro refused
  obtain ⟨-, m', -, told⟩ := owner.alloc_of_refuses refused
  rw [refusal, unlimited] at told
  have text : Error.oom.text = Error.oom.rootCause := by
    rw [told]
    rfl
  exact absurd text (by decide)

/-- A refusal is told by what `alloc` does. -/
theorem refuses_congr (same : n ≠ 0 → Kernel.alloc n m = Kernel.alloc n m') :
    owner.refuses m n = owner.refuses m' n := by
  rw [refuses, refuses]
  split
  case isTrue => rfl
  case isFalse some => rw [same some]

end Owner

namespace CurrentPlugin

/-- The handle of a new block, an error if there is none. -/
def memoryAlloc.handle (owner : Owner) (n offs : ℕ) : KernelExec MemoryHandle := do
  let m ← Prog.get
  if offs = 0 then Prog.fail (owner.refusal m) else pure ⟨offs, n⟩

/-- `memory_alloc`. -/
def memoryAlloc (owner : Owner) (n : ℕ) : KernelExec MemoryHandle :=
  if n = 0 then pure .null
  else do
    let offs ← callKernel (Kernel.alloc n)
    memoryAlloc.handle owner n offs

/-- `memory_new`: a new block holding `data`; nothing is allocated for no
data. -/
def memoryNew (owner : Owner) (data : List UInt8) : KernelExec MemoryHandle :=
  if data = [] then pure .null
  else do
    let handle ← memoryAlloc owner data.length
    callKernel (Kernel.hostWrite handle.offset data)
    pure handle

/-- `memory_length`. -/
def memoryLength (offs : ℕ) : KernelExec ℕ := callKernel (Kernel.length offs)

/-- The handle of `len` bytes at `offs`; none of no bytes. -/
def memoryHandle.found (offs len : ℕ) : Option MemoryHandle :=
  if len = 0 then none else some ⟨offs, len⟩

/-- `memory_handle`: offset 0 is the null handle, and a length that cannot be
told is 0. -/
def memoryHandle (offs : ℕ) : KernelExec (Option MemoryHandle) :=
  if offs = 0 then pure (some .null)
  else do
    let len ← (memoryLength offs).attempt
    pure (memoryHandle.found offs (len.toOption.getD 0))

/-- `memory_bytes`. -/
def memoryBytes (m : Instance) (handle : MemoryHandle) : List UInt8 :=
  (List.range handle.length).map fun i => m.bytes (handle.offset + i)

/-- `memory_str`, `none` if the bytes are not UTF-8. -/
def memoryStr (m : Instance) (handle : MemoryHandle) : Option String :=
  String.fromUTF8? ⟨(memoryBytes m handle).toArray⟩

/-- `Plugin::clear_error`. -/
def clearError : KernelExec Unit := callKernel (Kernel.errorSet 0)

/-- `Plugin::reset`. -/
def reset : KernelExec Unit := callKernel Kernel.reset

/-- `set_error`: the message goes into a new block; its offset and length. -/
def setError (owner : Owner) (s : String) : KernelExec (ℕ × ℕ) := do
  let handle ← memoryNew owner s.toUTF8.toList
  callKernel (Kernel.errorSet handle.offset)
  pure (handle.offset, s.toUTF8.size)

/-- The length of the message at `offs`, 0 if it cannot be told. -/
def getErrorPosition.length (offs : ℕ) : KernelExec (ℕ × ℕ) := do
  let length ← (memoryLength offs).attempt
  pure (offs, length.toOption.getD 0)

/-- What `get_error_position` makes of the answer of `error_get`. -/
def getErrorPosition.found : Except Error ℕ → KernelExec (ℕ × ℕ)
  | .ok offs => getErrorPosition.length offs
  | .error _ => pure (0, 0)

/-- `get_error_position`: where the current error message is, `(0, 0)` if the
kernel cannot tell. -/
def getErrorPosition : KernelExec (ℕ × ℕ) := do
  let offs ← (callKernel Kernel.errorGet).attempt
  getErrorPosition.found offs

/-- `output_memory_position`. -/
def outputMemoryPosition : KernelExec (ℕ × ℕ) := do
  let offs ← callKernel Kernel.outputOffset
  let length ← callKernel Kernel.outputLength
  pure (offs, length)

section Handle

variable (owner : Owner) (n : ℕ) (m : Instance)

@[simp] theorem memoryAlloc.handle_zero :
    memoryAlloc.handle owner n 0 m = (.error (owner.refusal m), m) :=
  rfl

theorem memoryAlloc.handle_of_ne {offs : ℕ} (handle : offs ≠ 0) :
    memoryAlloc.handle owner n offs m = (.ok ⟨offs, n⟩, m) := by
  rw [memoryAlloc.handle, Prog.bind_ok (Prog.get_apply m), if_neg handle, Prog.pure_apply]

end Handle

end CurrentPlugin

end Extism.Runtime
