import Extism.Kernel.MemoryRoot

/-!
# The kernel's exports

The functions guests and the host call.  Every one of them goes through
`MemoryRoot::new` first, except where it returns or touches memory before that:
a null handle is refused at once, and the raw accessors never look at the root.
`input_set` and `output_set` differ in the fields they write to, as the getters
do in the field they read.

The host has one way to write kernel memory without calling it, through the slice
that `memory_bytes_mut` gives it.  It stands beside the exports in `Call`, so that
a run of the kernel has everything that happens to its memory.

## Main definitions

* `alloc`, `free`, `length`, `lengthUnsafe` — blocks and their lengths.
* `loadU8`, `loadU64`, `storeU8`, `storeU64` — the raw accessors.
* `inputSet`, `inputLoadU8`, `inputLoadU64`, `outputSet`, `errorSet` and the
  getters — what guest and host hand each other.
* `hostWrite` — the host's writes.
* `Call`, `Call.run` — all of these as data, and executed; calls without a result
  return 0.
-/

namespace Extism.Kernel

/-- The handle of a block, 0 for none. -/
def handle : Option ℕ → ℕ
  | some block => MemoryBlock.data block
  | none => 0

/-- Allocate a block of memory and return the offset. -/
def alloc (n : ℕ) : Exec ℕ :=
  if n = 0 then pure 0
  else do
    MemoryRoot.new
    let block ← MemoryRoot.alloc n
    pure (handle block)

/-- Free the block found for `p`. -/
def free.found (p : ℕ) : Option ℕ → Exec Unit
  | some block => do
      MemoryBlock.free block
      -- the original input is gone once its block is freed
      let inputOffset ← load 8 MemoryRoot.inputOffset
      if p = inputOffset then store 8 MemoryRoot.inputLength 0 else pure ()
  | none => pure ()

/-- Free allocated memory. -/
def free (p : ℕ) : Exec Unit :=
  if p = 0 then pure ()
  else do
    MemoryRoot.new
    let block ← MemoryRoot.findBlock p
    free.found p block

/-- The length of a block, read off the header in front of the handle. -/
def lengthUnsafe (p : ℕ) : Exec ℕ :=
  if p = 0 then pure 0
  else do
    let inBounds ← MemoryRoot.pointerInBoundsFast p
    if inBounds then do
      let block := toUsize (subU64 p MemoryBlock.sizeOf)
      let status ← load 1 (MemoryBlock.status block)
      if status ≠ MemoryStatus.active.code then pure 0
      else load 4 (MemoryBlock.used block)
    else pure 0

/-- The bytes in use of the block found, 0 for none. -/
def length.found : Option ℕ → Exec ℕ
  | some block => load 4 (MemoryBlock.used block)
  | none => pure 0

/-- The length of a block, or 0 if the offset is not a valid handle. -/
def length (p : ℕ) : Exec ℕ :=
  if p = 0 then pure 0
  else do
    MemoryRoot.new
    let block ← MemoryRoot.findBlock p
    length.found block

/-- Load a byte from Extism-managed memory. -/
def loadU8 (p : ℕ) : Exec ℕ := do
  let inBounds ← MemoryRoot.pointerInBoundsFast p
  if inBounds then load 1 (toUsize p) else pure 0

/-- Load a `u64` from Extism-managed memory. -/
def loadU64 (p : ℕ) : Exec ℕ := do
  let inBounds ← MemoryRoot.pointerInBoundsFast (subU64 (addU64 p 8) 1)
  if inBounds then load 8 (toUsize p) else pure 0

/-- Load a byte from the input data. -/
def inputLoadU8 (offset : ℕ) : Exec ℕ := do
  MemoryRoot.new
  let inputLength ← load 8 MemoryRoot.inputLength
  if inputLength ≤ offset then pure 0
  else do
    let inputOffset ← load 8 MemoryRoot.inputOffset
    load 1 (toUsize (addU64 inputOffset offset))

/-- Load a `u64` from the input data. -/
def inputLoadU64 (offset : ℕ) : Exec ℕ := do
  MemoryRoot.new
  let inputLength ← load 8 MemoryRoot.inputLength
  if inputLength < addU64 offset 8 then pure 0
  else do
    let inputOffset ← load 8 MemoryRoot.inputOffset
    load 8 (toUsize (addU64 inputOffset offset))

/-- Write a byte in Extism-managed memory. -/
def storeU8 (p x : ℕ) : Exec Unit := do
  let inBounds ← MemoryRoot.pointerInBoundsFast p
  if inBounds then store 1 (toUsize p) x else pure ()

/-- Write a `u64` in Extism-managed memory. -/
def storeU64 (p x : ℕ) : Exec Unit := do
  let inBounds ← MemoryRoot.pointerInBoundsFast (subU64 (addU64 p 8) 1)
  if inBounds then store 8 (toUsize p) x else pure ()

/-- Record a range in two fields of the root, if both its ends are in bounds: the
body `input_set` and `output_set` share. -/
def setRange (offsetField lengthField p len : ℕ) : Exec Unit := do
  MemoryRoot.new
  let first ← MemoryRoot.pointerInBounds p
  let last ← MemoryRoot.pointerInBounds (subU64 (addU64 p len) 1)
  if first && last then do
    store 8 offsetField p
    store 8 lengthField len
  else pure ()

/-- Set the range of the input data in memory. -/
def inputSet (h len : ℕ) : Exec Unit :=
  setRange MemoryRoot.inputOffset MemoryRoot.inputLength h len

/-- Set the range of the output data in memory. -/
def outputSet (p len : ℕ) : Exec Unit :=
  setRange MemoryRoot.outputOffset MemoryRoot.outputLength p len

/-- A getter: initialise, then read a field of the root. -/
def getField (field : ℕ) : Exec ℕ := do
  MemoryRoot.new
  load 8 field

/-- Get the input length. -/
def inputLength : Exec ℕ := getField MemoryRoot.inputLength

/-- Get the input offset. -/
def inputOffset : Exec ℕ := getField MemoryRoot.inputOffset

/-- Get the output length. -/
def outputLength : Exec ℕ := getField MemoryRoot.outputLength

/-- Get the output offset. -/
def outputOffset : Exec ℕ := getField MemoryRoot.outputOffset

/-- Get the error message offset, 0 if no error has been set. -/
def errorGet : Exec ℕ := getField MemoryRoot.error

/-- Get the number of bytes the allocator accounts for. -/
def memoryBytes : Exec ℕ := getField MemoryRoot.length

/-- Reset the allocator. -/
def reset : Exec Unit := do
  MemoryRoot.new
  MemoryRoot.reset

/-- Set the error message offset; 0 clears it. -/
def errorSet (h : ℕ) : Exec Unit := do
  MemoryRoot.new
  if h = 0 then store 8 MemoryRoot.error h
  else do
    let inBounds ← MemoryRoot.pointerInBounds h
    if inBounds then store 8 MemoryRoot.error h else pure ()

/-- The host writing through the slice `memory_bytes_mut` gives it. -/
def hostWrite (p : ℕ) (bs : List UInt8) : Exec Unit := fun m =>
  if p + bs.length ≤ m.size then (.ok (), m.copy p bs) else (.error .trap, m)

/-- One call into the kernel. -/
inductive Call
  | alloc (n : ℕ)
  | free (p : ℕ)
  | lengthUnsafe (p : ℕ)
  | length (p : ℕ)
  | loadU8 (p : ℕ)
  | loadU64 (p : ℕ)
  | inputLoadU8 (offset : ℕ)
  | inputLoadU64 (offset : ℕ)
  | storeU8 (p x : ℕ)
  | storeU64 (p x : ℕ)
  | inputSet (h len : ℕ)
  | outputSet (p len : ℕ)
  | inputLength
  | inputOffset
  | outputLength
  | outputOffset
  | reset
  | errorSet (h : ℕ)
  | errorGet
  | memoryBytes
  | hostWrite (p : ℕ) (bs : List UInt8)
  deriving DecidableEq

/-- A call without a result, as one that returns 0. -/
def Exec.discard (x : Exec Unit) : Exec ℕ := do
  x
  pure 0

/-- Execute a call. -/
def Call.run : Call → Exec ℕ
  | .alloc n => Kernel.alloc n
  | .free p => (Kernel.free p).discard
  | .lengthUnsafe p => Kernel.lengthUnsafe p
  | .length p => Kernel.length p
  | .loadU8 p => Kernel.loadU8 p
  | .loadU64 p => Kernel.loadU64 p
  | .inputLoadU8 offset => Kernel.inputLoadU8 offset
  | .inputLoadU64 offset => Kernel.inputLoadU64 offset
  | .storeU8 p x => (Kernel.storeU8 p x).discard
  | .storeU64 p x => (Kernel.storeU64 p x).discard
  | .inputSet h len => (Kernel.inputSet h len).discard
  | .outputSet p len => (Kernel.outputSet p len).discard
  | .inputLength => Kernel.inputLength
  | .inputOffset => Kernel.inputOffset
  | .outputLength => Kernel.outputLength
  | .outputOffset => Kernel.outputOffset
  | .reset => Kernel.reset.discard
  | .errorSet h => (Kernel.errorSet h).discard
  | .errorGet => Kernel.errorGet
  | .memoryBytes => Kernel.memoryBytes
  | .hostWrite p bs => (Kernel.hostWrite p bs).discard

end Extism.Kernel
