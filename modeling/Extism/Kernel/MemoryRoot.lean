import Extism.Kernel.Instance

/-!
# The allocator: `MemoryRoot` and `MemoryBlock`

`MemoryRoot` is a `#[repr(C)]` record of 64 bytes at address 1, and the blocks
follow it from address 65 on: a 12-byte header, then the data.  Nothing else
describes the heap.  The next block is found by adding the size in the header to
the address behind it, and the last block is the one that ends at `position`.

The definitions below are the methods of the two records.  A block pointer is
the address of its header.  The two `while` loops get a bound on their rounds; a
loop that reached it would stop with a fault of its own, and neither does.

## Main definitions

* `MemoryStatus`, `MemoryBlock` — the header of a block.
* `MemoryRoot.new`, `MemoryRoot.reset` — the root set up, and wiped.
* `MemoryRoot.pointerInBounds`, `MemoryRoot.pointerInBoundsFast` — the two tests
  of an address.
* `MemoryRoot.findFreeBlock`, `MemoryRoot.alloc` — a block used again, or a new
  one at the end.
* `MemoryRoot.findBlock` — the block whose data starts at an address.

## Main results

* `findBlock_ne_spin`, `findFreeBlock_ne_spin` — the bounds on the loops are
  never reached.
-/

namespace Extism.Kernel

/-- The usage status of a `MemoryBlock`. -/
inductive MemoryStatus
  | unused
  | active
  | free
  deriving DecidableEq, Repr

/-- The `#[repr(u8)]` value of a status. -/
@[simp] def MemoryStatus.code : MemoryStatus → ℕ
  | .unused => 0
  | .active => 1
  | .free => 2

namespace MemoryRoot

/-- `size_of::<MemoryRoot>()`. -/
@[simp] abbrev sizeOf : ℕ := 64

/-! The fields, at their addresses: the record starts at address 1. -/

@[simp] abbrev initialized : ℕ := 1
@[simp] abbrev position : ℕ := 9
@[simp] abbrev length : ℕ := 17
@[simp] abbrev error : ℕ := 25
@[simp] abbrev inputOffset : ℕ := 33
@[simp] abbrev inputLength : ℕ := 41
@[simp] abbrev outputOffset : ℕ := 49
@[simp] abbrev outputLength : ℕ := 57
@[simp] abbrev blocks : ℕ := 65

end MemoryRoot

namespace MemoryBlock

/-- `size_of::<MemoryBlock>()`. -/
@[simp] abbrev sizeOf : ℕ := 12

@[simp] abbrev status (block : ℕ) : ℕ := block
@[simp] abbrev size (block : ℕ) : ℕ := block + 4
@[simp] abbrev used (block : ℕ) : ℕ := block + 8
@[simp] abbrev data (block : ℕ) : ℕ := block + 12

/-- A pointer to the next block, wherever the size in this header points. -/
def nextPtr (block : ℕ) : Exec ℕ := do
  let size ← load 4 (MemoryBlock.size block)
  ptrAdd (data block) size

/-- Mark a block as free. -/
def free (block : ℕ) : Exec Unit :=
  store 1 (status block) MemoryStatus.free.code

end MemoryBlock

/-- The number of pages needed for `nbytes` bytes. -/
def numPages (nbytes : ℕ) : ℕ :=
  let npages := nbytes / PAGE_SIZE
  let remainder := nbytes % PAGE_SIZE
  if remainder ≠ 0 then toUsize (npages + 1) else toUsize npages

namespace MemoryRoot

/-- The part of `MemoryRoot::new` that runs once, on a blank memory.  The last
write counts in `MemoryBlock`s, so it clears `12 * 12` bytes. -/
def setup : Exec Unit := do
  store 8 inputOffset 0
  store 8 inputLength 0
  store 8 outputOffset 0
  store 8 outputLength 0
  store 8 error 0
  store 8 length (PAGE_SIZE - sizeOf)
  store 8 position 0
  writeZeros blocks (MemoryBlock.sizeOf * MemoryBlock.sizeOf)

/-- The first page is missing, and cannot be had. -/
def new.noMemory : Exec Bool := do
  let pages ← memorySize
  if pages = 0 then do
    let x ← memoryGrow 1
    pure (decide (x = usizeMax))
  else pure false

/-- `MemoryRoot::new`: initialise the root on the first call, do nothing after
that. -/
def new : Exec Unit := do
  let isInit ← load 1 initialized
  if isInit ≠ 0 then pure ()
  else do
    store 1 initialized 1
    let failed ← new.noMemory
    if failed then Prog.fail .trap else setup

/-- Forget every block, zero their bytes and the metadata; `length` stays. -/
def reset : Exec Unit := do
  let selfPosition ← load 8 position
  store 8 position 0
  writeZeros blocks (toUsize selfPosition)
  store 8 error 0
  store 8 inputOffset 0
  store 8 inputLength 0
  store 8 outputOffset 0
  store 8 outputLength 0

/-- Whether `p` is in the area `length` accounts for. -/
def pointerInBounds (p : ℕ) : Exec Bool := do
  let selfLength ← load 8 length
  pure (decide (blocks ≤ p ∧ p < addU64 blocks selfLength))

/-- The same against the memory size, with an inclusive end. -/
def pointerInBoundsFast (p : ℕ) : Exec Bool := do
  let pages ← memorySize
  pure (decide (sizeOf ≤ p ∧ p ≤ pages * 65536))

namespace findFreeBlock

/-- The test of a block's status and size: the size is read only if it is
free. -/
def largeEnough (length status block : ℕ) : Exec Bool :=
  if status = MemoryStatus.free.code then do
    let size ← load 4 (MemoryBlock.size block)
    pure (decide (toUsize length ≤ size))
  else pure false

/-- Take a free block that is large enough: split off its end when 128 bytes or
more would be left, otherwise take it whole. -/
def take (length block : ℕ) : Exec (Option ℕ) := do
  let size ← load 4 (MemoryBlock.size block)
  if 128 ≤ subUsize size (toUsize length) then do
    store 4 (MemoryBlock.size block)
      (subUsize size (addUsize (toUsize length) MemoryBlock.sizeOf))
    store 4 (MemoryBlock.used block) 0
    let rest ← load 4 (MemoryBlock.size block)
    let block1 ← ptrAdd (MemoryBlock.data block) rest
    store 4 (MemoryBlock.size block1) (toUsize length)
    store 4 (MemoryBlock.used block1) 0
    store 1 (MemoryBlock.status block1) MemoryStatus.free.code
    pure (some block1)
  else pure (some block)

/-- The `while` loop of `find_free_block`, at most `fuel` more times. -/
def walk (length limit : ℕ) : ℕ → ℕ → Exec (Option ℕ)
  | 0, block => if block < limit then Prog.fail .spin else pure none
  | fuel + 1, block =>
      if block < limit then do
        let status ← load 1 (MemoryBlock.status block)
        if status = MemoryStatus.unused.code then pure (some block)
        else do
          let large ← largeEnough length status block
          if large then take length block
          else do
            let next ← MemoryBlock.nextPtr block
            walk length limit fuel next
      else pure none

end findFreeBlock

/-- The first block that can be used again.  A block pointer only ever moves
forward, so `selfPosition` rounds are enough. -/
def findFreeBlock (length selfPosition : ℕ) : Exec (Option ℕ) :=
  findFreeBlock.walk length (addU64 blocks selfPosition) selfPosition blocks

/-- Make room for a new block of `length` bytes at the end of the heap; `false`
when the memory would not grow. -/
def alloc.makeRoom (length selfPosition selfLength : ℕ) : Exec Bool := do
  let memLeft := subU64 (subU64 selfLength selfPosition) sizeOf
  let lengthWithBlock := addU64 length MemoryBlock.sizeOf
  if memLeft ≤ lengthWithBlock then do
    let npages := numPages (subU64 lengthWithBlock memLeft)
    let x ← memoryGrow npages
    if x = usizeMax then pure false
    else do
      let current ← load 8 MemoryRoot.length
      store 8 MemoryRoot.length (addU64 current (npages * PAGE_SIZE))
      pure true
  else pure true

/-- Hand out a block `findFreeBlock` found. -/
def alloc.reuse (length b : ℕ) : Exec (Option ℕ) := do
  store 4 (MemoryBlock.used b) (toUsize length)
  store 1 (MemoryBlock.status b) MemoryStatus.active.code
  pure (some b)

/-- Bump the position and write a new block at the old one. -/
def alloc.append (length selfPosition : ℕ) : Exec (Option ℕ) := do
  let curr := addU64 blocks selfPosition
  let current ← load 8 position
  store 8 position (addU64 current (addU64 length MemoryBlock.sizeOf))
  let block := toUsize curr
  store 1 (MemoryBlock.status block) MemoryStatus.active.code
  store 4 (MemoryBlock.size block) (toUsize length)
  store 4 (MemoryBlock.used block) (toUsize length)
  pure (some block)

/-- What `alloc` does with the block the walk found, or did not find. -/
def alloc.place (length selfPosition selfLength : ℕ) : Option ℕ → Exec (Option ℕ)
  | some b => alloc.reuse length b
  | none => do
      let room ← alloc.makeRoom length selfPosition selfLength
      if room then alloc.append length selfPosition else pure none

/-- `MemoryRoot::alloc`: a used block again, or a new one at the end. -/
def alloc (length : ℕ) : Exec (Option ℕ) := do
  let selfPosition ← load 8 position
  let selfLength ← load 8 MemoryRoot.length
  let b ← findFreeBlock length selfPosition
  alloc.place length selfPosition selfLength b

/-- The `while` loop of `find_block`, at most `fuel` more times. -/
def findBlock.walk (offs limit : ℕ) : ℕ → ℕ → Exec (Option ℕ)
  | 0, block => if block < limit then Prog.fail .spin else pure none
  | fuel + 1, block =>
      if block < limit then do
        let status ← load 1 (MemoryBlock.status block)
        if status = MemoryStatus.active.code ∧ MemoryBlock.data block = offs then
          pure (some block)
        else do
          let next ← MemoryBlock.nextPtr block
          findBlock.walk offs limit fuel next
      else pure none

/-- The block whose data starts at `offs`.  The loop is bounded by `offs`, not
by `position`. -/
def findBlock (offs : ℕ) : Exec (Option ℕ) := do
  let inBounds ← pointerInBoundsFast offs
  if inBounds then findBlock.walk offs (addU64 blocks offs) offs blocks
  else pure none

end MemoryRoot

/-! ## The loops do not spin

Both loops move the block pointer forward by at least a header each round, so
the bound on the number of rounds is never what stops them. -/

/-- A computation whose only faults are traps and overflows. -/
def Exec.NoSpin {α : Type} (x : Exec α) : Prop :=
  ∀ m m' : Instance, x m ≠ (.error .spin, m')

namespace Exec.NoSpin

variable {α β : Type}

theorem pure (a : α) : (Pure.pure a : Exec α).NoSpin := by
  intro m m' h
  simp at h

theorem bind {x : Exec α} {f : α → Exec β} (first : x.NoSpin)
    (second : ∀ (a : α) (m m' : Instance), x m = (.ok a, m') → (f a).NoSpin) :
    (x >>= f).NoSpin := by
  intro m m' h
  rcases hx : x m with ⟨e | a, m₁⟩
  · rw [Prog.bind_error hx] at h
    simp only [Prod.mk.injEq, Except.error.injEq] at h
    exact first m m₁ (h.1 ▸ hx)
  · rw [Prog.bind_ok hx] at h
    exact second a m m₁ hx m₁ m' h

theorem ite {p : Prop} [Decidable p] {x y : Exec α} (left : p → x.NoSpin)
    (right : ¬ p → y.NoSpin) : (if p then x else y).NoSpin := by
  split
  · exact left ‹_›
  · exact right ‹_›

end Exec.NoSpin

theorem load_noSpin (k a : ℕ) : (load k a).NoSpin := by
  intro m m' h
  unfold load at h
  split at h <;> simp at h

theorem store_noSpin (k a v : ℕ) : (store k a v).NoSpin := by
  intro m m' h
  unfold store at h
  split at h <;> simp at h

theorem memorySize_noSpin : memorySize.NoSpin := by
  intro m m' h
  simp [memorySize] at h

theorem ptrAdd_noSpin (p k : ℕ) : (ptrAdd p k).NoSpin := by
  intro m m' h
  unfold ptrAdd at h
  split at h <;> simp at h

theorem MemoryBlock.nextPtr_noSpin (block : ℕ) : (nextPtr block).NoSpin :=
  (load_noSpin _ _).bind fun _ _ _ _ => ptrAdd_noSpin _ _

/-- The next block starts behind this one's header. -/
theorem MemoryBlock.le_of_nextPtr {block next : ℕ} {m m' : Instance}
    (h : nextPtr block m = (.ok next, m')) : block + 12 ≤ next := by
  obtain ⟨size, m₁, -, h⟩ := Prog.bind_eq_ok h
  obtain ⟨-, rfl⟩ := of_ptrAdd h
  simp only [data]
  omega

theorem MemoryRoot.findBlock.walk_noSpin (offs limit : ℕ) :
    ∀ fuel block : ℕ, limit ≤ block + fuel → (walk offs limit fuel block).NoSpin := by
  intro fuel
  induction fuel with
  | zero =>
      intro block enough
      rw [walk, if_neg (by omega)]
      exact .pure none
  | succ fuel ih =>
      intro block enough
      rw [walk]
      refine .ite (fun _ => ?_) (fun _ => .pure none)
      refine (load_noSpin _ _).bind fun status _ _ _ => ?_
      refine .ite (fun _ => .pure _) (fun _ => ?_)
      refine (MemoryBlock.nextPtr_noSpin block).bind fun next _ _ h => ?_
      have := MemoryBlock.le_of_nextPtr h
      exact ih next (by omega)

/-- The loop of `find_block` ends for every offset. -/
theorem findBlock_ne_spin (offs : ℕ) : (MemoryRoot.findBlock offs).NoSpin := by
  refine (memorySize_noSpin.bind fun _ _ _ _ => .pure _).bind fun inBounds _ _ _ => ?_
  refine .ite (fun _ => ?_) (fun _ => .pure none)
  refine MemoryRoot.findBlock.walk_noSpin _ _ _ _ ?_
  simp only [addU64, MemoryRoot.blocks]
  omega

theorem MemoryRoot.findFreeBlock.largeEnough_noSpin (length status block : ℕ) :
    (largeEnough length status block).NoSpin :=
  .ite (fun _ => (load_noSpin _ _).bind fun _ _ _ _ => .pure _) fun _ => .pure false

theorem MemoryRoot.findFreeBlock.take_noSpin (length block : ℕ) :
    (take length block).NoSpin := by
  unfold take
  refine (load_noSpin _ _).bind fun size _ _ _ => ?_
  refine .ite (fun _ => ?_) (fun _ => .pure _)
  refine (store_noSpin _ _ _).bind fun _ _ _ _ => ?_
  refine (store_noSpin _ _ _).bind fun _ _ _ _ => ?_
  refine (load_noSpin _ _).bind fun rest _ _ _ => ?_
  refine (ptrAdd_noSpin _ _).bind fun block1 _ _ _ => ?_
  refine (store_noSpin _ _ _).bind fun _ _ _ _ => ?_
  refine (store_noSpin _ _ _).bind fun _ _ _ _ => ?_
  exact (store_noSpin _ _ _).bind fun _ _ _ _ => .pure _

theorem MemoryRoot.findFreeBlock.walk_noSpin (length limit : ℕ) :
    ∀ fuel block : ℕ, limit ≤ block + fuel → (walk length limit fuel block).NoSpin := by
  intro fuel
  induction fuel with
  | zero =>
      intro block enough
      rw [walk, if_neg (by omega)]
      exact .pure none
  | succ fuel ih =>
      intro block enough
      rw [walk]
      refine .ite (fun _ => ?_) (fun _ => .pure none)
      refine (load_noSpin _ _).bind fun status _ _ _ => ?_
      refine .ite (fun _ => .pure _) (fun _ => ?_)
      refine (largeEnough_noSpin _ _ _).bind fun large _ _ _ => ?_
      refine .ite (fun _ => take_noSpin _ _) (fun _ => ?_)
      refine (MemoryBlock.nextPtr_noSpin block).bind fun next _ _ h => ?_
      have := MemoryBlock.le_of_nextPtr h
      exact ih next (by omega)

/-- The loop of `find_free_block` ends for every length and position. -/
theorem findFreeBlock_ne_spin (length selfPosition : ℕ) :
    (MemoryRoot.findFreeBlock length selfPosition).NoSpin := by
  refine MemoryRoot.findFreeBlock.walk_noSpin _ _ _ _ ?_
  simp only [addU64, MemoryRoot.blocks]
  omega

end Extism.Kernel
