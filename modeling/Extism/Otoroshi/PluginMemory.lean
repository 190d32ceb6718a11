import Extism.Lib.Prog
import Extism.Lib.Transition
import Mathlib.Algebra.BigOperators.Group.List.Basic
import Mathlib.Tactic.Ring

/-!
# The allocator for guest memory

`PluginMemory` hands out blocks of the guest's own linear memory.  Unlike the
kernel it keeps its books outside that memory: a map of the live blocks, a list
of the free ones, and the position up to which memory has been handed out.  The
order of the free list matters, and `swap_remove` and the compaction in `free`
change it.

A `usize` of the host has 64 bits.  `alloc` computes the pages it asks for in
`f64`; that is exact below `2 ^ 53`, and a request beyond asks for more pages
than any memory can have, exactly computed or not.  `free_size` does not wrap:
it adds up lengths of blocks of a 32-bit memory.

## Main definitions

* `MemoryBlock`, `Memory`, `LiveBlocks` — a block, the size of the guest's memory,
  and the map of the live blocks.
* `PluginMemory`, `PluginMemory.new` — the allocator.
* `alloc`, `alloc.reuse`, `alloc.append` — a free block used again, or a new one at
  the position.
* `free`, `free.compact` — a block given back, and the compaction of the free list.
* `Allocated` — how an allocation ends.

## Main results

* `reuse_cases`, `makeRoom_cases` — what the loop over the free list finds, and
  whether there is room.
* `alloc_spec` — an allocation ends in one of the ways of `Allocated`.
-/

namespace Extism.Otoroshi

/-- A block of guest memory. -/
structure MemoryBlock where
  offset : ℕ
  length : ℕ
  deriving DecidableEq, Repr

/-- The guest's linear memory, as far as its size goes. -/
structure Memory where
  pages : ℕ
  /-- It is a 32-bit memory. -/
  inRange : pages ≤ 65536
  /-- The answer to each `grow`, in the order they are made. -/
  host : ℕ → Bool
  /-- How many there were. -/
  asked : ℕ

namespace Memory

/-- `data_size`. -/
def size (memory : Memory) : ℕ := 65536 * memory.pages

/-- Whether the next `grow` succeeds when it asks for `k` pages. -/
def CanGrow (memory : Memory) (k : ℕ) : Prop :=
  memory.host memory.asked = true ∧ memory.pages + k ≤ 65536

instance (memory : Memory) (k : ℕ) : Decidable (memory.CanGrow k) :=
  inferInstanceAs (Decidable (_ ∧ _))

/-- The memory after a `grow`. -/
def grown (memory : Memory) (k : ℕ) (can : memory.CanGrow k) : Memory :=
  ⟨memory.pages + k, can.2, memory.host, memory.asked + 1⟩

/-- The memory after a `grow` that failed. -/
def refused (memory : Memory) : Memory := { memory with asked := memory.asked + 1 }

end Memory

/-- `BTreeMap<usize, usize>`, by the blocks it lists.  No step depends on its
order. -/
abbrev LiveBlocks := List MemoryBlock

namespace LiveBlocks

/-- `BTreeMap::remove`. -/
def remove (blocks : LiveBlocks) (offset : ℕ) : LiveBlocks := blocks.filter (·.offset ≠ offset)

/-- `BTreeMap::insert`: an entry of the same key is replaced. -/
def insert (blocks : LiveBlocks) (block : MemoryBlock) : LiveBlocks :=
  block :: blocks.remove block.offset

/-- `BTreeMap::get`, with the key. -/
def get (blocks : LiveBlocks) (offset : ℕ) : Option MemoryBlock :=
  blocks.find? (·.offset = offset)

end LiveBlocks

/-- The allocator. -/
structure PluginMemory where
  memory : Memory
  liveBlocks : LiveBlocks
  free : List MemoryBlock
  position : ℕ

/-- `grow` failed. -/
inductive AllocError
  | growFailed
  deriving DecidableEq, Repr

/-- Free blocks are not split up any smaller than this. -/
@[simp] abbrev BLOCK_SIZE_THRESHOLD : ℕ := 32

/-- The bytes of a list of blocks. -/
def total (blocks : List MemoryBlock) : ℕ := (blocks.map MemoryBlock.length).sum

/-- `Vec::swap_remove`: the last element takes the place of the one removed. -/
def swapRemove (blocks : List MemoryBlock) (i : ℕ) : List MemoryBlock :=
  match blocks.getLast? with
  | some last => (blocks.set i last).dropLast
  | none => []

/-- `PluginMemory::new`. -/
def PluginMemory.new (memory : Memory) : PluginMemory := ⟨memory, [], [], 1⟩

/-! ## Allocation -/

/-- A computation of the allocator. -/
abbrev Exec (α : Type) : Type := Prog PluginMemory AllocError α

/-- A free block the loop in `alloc` stops at. -/
def alloc.usable (n : ℕ) (block : MemoryBlock) : Bool :=
  decide (block.length = n ∨ BLOCK_SIZE_THRESHOLD ≤ block.length - n)

/-- The loop over the free list: the block handed out, and the list left. -/
def alloc.reuse (n : ℕ) (free : List MemoryBlock) :
    Option (MemoryBlock × List MemoryBlock) := do
  let i ← free.findIdx? (alloc.usable n)
  let block ← free[i]?
  if block.length = n then some (block, swapRemove free i)
  else some (⟨block.offset, n⟩, free.set i ⟨block.offset + n, block.length - n⟩)

/-- The pages to ask for when `newOffset` is beyond `size`. -/
def alloc.pagesNeeded (newOffset size : ℕ) : ℕ := max 1 ((newOffset - size + 65535) / 65536)

/-- `Memory::grow`. -/
def grow (k : ℕ) : Exec Unit := fun m =>
  if can : m.memory.CanGrow k then (.ok (), { m with memory := m.memory.grown k can })
  else (.error .growFailed, { m with memory := m.memory.refused })

/-- Grow the memory if `newOffset` is not inside. -/
def alloc.makeRoom (newOffset : ℕ) : Exec Unit := do
  let m ← Prog.get
  if m.memory.size ≤ newOffset then grow (alloc.pagesNeeded newOffset m.memory.size)
  else pure ()

/-- A new block at the position. -/
def alloc.append (n : ℕ) : Exec MemoryBlock := do
  let m ← Prog.get
  let mem : MemoryBlock := ⟨m.position, n⟩
  Prog.modify fun m =>
    { m with
      liveBlocks := m.liveBlocks.insert mem
      position := (m.position + n) % 2 ^ 64 }
  pure mem

/-- Reserve `n` bytes of memory. -/
def alloc (n : ℕ) : Exec MemoryBlock := do
  let m ← Prog.get
  match alloc.reuse n m.free with
  | some (block, free) => do
      Prog.modify fun m => { m with liveBlocks := m.liveBlocks.insert block, free := free }
      pure block
  | none => do
      alloc.makeRoom (min (m.position + n) (2 ^ 64 - 1))
      alloc.append n

/-! ## Release -/

/-- The loop of the compaction: `last` is the block before. -/
def free.compactFrom : Option MemoryBlock → List MemoryBlock → List MemoryBlock
  | _, [] => []
  | none, block :: rest => block :: compactFrom (some block) rest
  | some last, block :: rest =>
      -- the block before was pushed already, and stays
      if last.offset + last.length = block.offset then
        ⟨last.offset, last.length + block.length⟩ :: compactFrom (some block) rest
      else compactFrom (some block) rest

/-- The free list after a compaction. -/
def free.compact (blocks : List MemoryBlock) : List MemoryBlock := compactFrom none blocks

/-- The free list once a block has come back. -/
def free.collect (blocks : List MemoryBlock) : List MemoryBlock :=
  if 1024 ≤ total blocks then free.compact blocks else blocks

/-- Free the block allocated at `offset`. -/
def free (offset : ℕ) (m : PluginMemory) : PluginMemory :=
  match m.liveBlocks.get offset with
  | some block =>
      { m with
        liveBlocks := m.liveBlocks.remove offset
        free := free.collect (m.free ++ [block]) }
  | none => m

/-- Forget every block. -/
def reset (m : PluginMemory) : PluginMemory :=
  { m with free := [], liveBlocks := [], position := 1 }

/-- The length of the block starting at `offs`. -/
def blockLength (m : PluginMemory) (offs : ℕ) : Option ℕ :=
  (m.liveBlocks.get offs).map MemoryBlock.length

/-! ## What an allocation does -/

theorem split_at {blocks : List MemoryBlock} {i : ℕ} {block : MemoryBlock}
    (here : blocks[i]? = some block) :
    ∃ pre post, blocks = pre ++ block :: post ∧
      ∀ new, blocks.set i new = pre ++ new :: post := by
  obtain ⟨lt, rfl⟩ := List.getElem?_eq_some_iff.1 here
  refine ⟨blocks.take i, blocks.drop (i + 1), ?_, fun new => ?_⟩
  · rw [List.getElem_cons_drop, List.take_append_drop]
  · rw [List.set_eq_take_append_cons_drop, if_pos lt]

theorem swapRemove_perm {blocks : List MemoryBlock} {i : ℕ} {block : MemoryBlock}
    (here : blocks[i]? = some block) : blocks.Perm (block :: swapRemove blocks i) := by
  obtain ⟨pre, post, rfl, set⟩ := split_at here
  rcases List.eq_nil_or_concat post with rfl | ⟨mid, last, rfl⟩
  · rw [swapRemove, List.getLast?_concat]
    simp only [set, List.dropLast_concat]
    exact List.perm_append_comm
  · rw [List.concat_eq_append] at *
    have end' : ∀ new, pre ++ new :: (mid ++ [last]) = (pre ++ new :: mid) ++ [last] := by simp
    rw [swapRemove, end', List.getLast?_concat, ← end']
    simp only [set]
    rw [end' last, List.dropLast_concat]
    -- the last block moves to the place of the one removed
    refine List.perm_middle.trans (.cons _ ?_)
    exact List.Perm.append_left pre List.perm_append_comm

theorem set_perm {blocks : List MemoryBlock} {i : ℕ} {block : MemoryBlock} (new : MemoryBlock)
    (here : blocks[i]? = some block) :
    ∃ rest, blocks.Perm (block :: rest) ∧ (blocks.set i new).Perm (new :: rest) := by
  obtain ⟨pre, post, rfl, set⟩ := split_at here
  rw [set]
  exact ⟨pre ++ post, List.perm_middle, List.perm_middle⟩

/-- **How an allocation ends.**  The free list is described up to its order. -/
inductive Allocated (m : PluginMemory) (n : ℕ) :
    Except AllocError MemoryBlock → PluginMemory → Prop
  /-- A free block of the very length. -/
  | whole {block : MemoryBlock} {rest free' : List MemoryBlock}
      (first : m.free.find? (alloc.usable n) = some block)
      (before : m.free.Perm (block :: rest)) (exact : block.length = n) (after : free'.Perm rest) :
      Allocated m n (.ok block)
        { m with liveBlocks := m.liveBlocks.insert block, free := free' }
  /-- The beginning of a free block, which keeps 32 bytes or more. -/
  | split {block : MemoryBlock} {rest free' : List MemoryBlock}
      (first : m.free.find? (alloc.usable n) = some block)
      (before : m.free.Perm (block :: rest)) (loose : n + 32 ≤ block.length)
      (after : free'.Perm (⟨block.offset + n, block.length - n⟩ :: rest)) :
      Allocated m n (.ok ⟨block.offset, n⟩)
        { m with liveBlocks := m.liveBlocks.insert ⟨block.offset, n⟩, free := free' }
  /-- New bytes at the position. -/
  | appended {memory : Memory} (none : m.free.find? (alloc.usable n) = none)
      (room : m.position + n ≤ memory.size) (grown : m.memory.pages ≤ memory.pages) :
      Allocated m n (.ok ⟨m.position, n⟩)
        { m with
          memory := memory
          liveBlocks := m.liveBlocks.insert ⟨m.position, n⟩
          position := m.position + n }
  /-- The memory does not grow. -/
  | refused (none : m.free.find? (alloc.usable n) = none) :
      Allocated m n (.error .growFailed) { m with memory := m.memory.refused }

/-- What the loop over the free list finds. -/
theorem reuse_cases (n : ℕ) (free : List MemoryBlock) :
    (free.find? (alloc.usable n) = none ∧ alloc.reuse n free = none) ∨
      ∃ block i, free.find? (alloc.usable n) = some block ∧ free[i]? = some block ∧
        alloc.usable n block = true ∧
        alloc.reuse n free =
          if block.length = n then some (block, swapRemove free i)
          else some (⟨block.offset, n⟩, free.set i ⟨block.offset + n, block.length - n⟩) := by
  have find := @List.find?_eq_bind_findIdx?_getElem? _ free (alloc.usable n)
  cases found : free.findIdx? (alloc.usable n) with
  | none =>
      refine .inl ⟨by rw [find, found]; rfl, ?_⟩
      simp [alloc.reuse, found]
  | some i =>
      obtain ⟨lt, usable, -⟩ := List.findIdx?_eq_some_iff_getElem.1 found
      have here : free[i]? = some free[i] := List.getElem?_eq_getElem lt
      refine .inr ⟨free[i], i, by rw [find, found]; exact here, here, usable, ?_⟩
      simp [alloc.reuse, found, here]

/-- Room is there, or made, or not to be had. -/
theorem makeRoom_cases (m : PluginMemory) (n : ℕ) :
    (∃ memory : Memory, alloc.makeRoom (min (m.position + n) (2 ^ 64 - 1)) m =
        (.ok (), { m with memory := memory }) ∧
      m.position + n ≤ memory.size ∧ m.memory.pages ≤ memory.pages) ∨
    alloc.makeRoom (min (m.position + n) (2 ^ 64 - 1)) m =
      (.error .growFailed, { m with memory := m.memory.refused }) := by
  rw [alloc.makeRoom, Prog.bind_ok (Prog.get_apply m), Prog.ite_apply]
  generalize new : min (m.position + n) (2 ^ 64 - 1) = newOffset
  split
  case isFalse inside =>
    refine .inl ⟨m.memory, rfl, ?_, Nat.le_refl _⟩
    have inRange := m.memory.inRange
    simp only [Memory.size] at *
    omega
  case isTrue outside =>
    rw [grow]
    split
    case isFalse => exact .inr rfl
    case isTrue can =>
      have fits := can.2
      refine .inl ⟨_, rfl, ?_, Nat.le_add_right _ _⟩
      simp only [Memory.size, Memory.grown, alloc.pagesNeeded] at *
      omega

theorem alloc_spec (m : PluginMemory) (n : ℕ) :
    Allocated m n (alloc n m).1 (alloc n m).2 := by
  rcases reuse_cases n m.free with ⟨none, reuse⟩ | ⟨block, i, first, here, usable, reuse⟩
  · rcases makeRoom_cases m n with ⟨memory, made, room, grown⟩ | made
    · have run : alloc n m = (.ok ⟨m.position, n⟩, { m with
          memory := memory
          liveBlocks := m.liveBlocks.insert ⟨m.position, n⟩
          position := m.position + n }) := by
        rw [alloc, Prog.bind_ok (Prog.get_apply m), reuse]
        simp only []
        rw [Prog.bind_ok made]
        have small : m.position + n < 2 ^ 64 := by
          have inRange := memory.inRange
          simp only [Memory.size] at room
          omega
        rw [← Nat.mod_eq_of_lt small]
        rfl
      rw [run]
      exact .appended none room grown
    · have run : alloc n m = (.error .growFailed, { m with memory := m.memory.refused }) := by
        rw [alloc, Prog.bind_ok (Prog.get_apply m), reuse]
        simp only []
        rw [Prog.bind_error made]
      rw [run]
      exact .refused none
  · have run : ∀ b free', alloc.reuse n m.free = some (b, free') → alloc n m =
        (.ok b, { m with liveBlocks := m.liveBlocks.insert b, free := free' }) := by
      intro b free' eq
      rw [alloc, Prog.bind_ok (Prog.get_apply m), eq]
      rfl
    by_cases exact : block.length = n
    · rw [if_pos exact] at reuse
      rw [run _ _ reuse]
      exact .whole first (swapRemove_perm here) exact (.refl _)
    · rw [if_neg exact] at reuse
      obtain ⟨rest, before, after⟩ := set_perm ⟨block.offset + n, block.length - n⟩ here
      rw [run _ _ reuse]
      refine .split first before ?_ after
      simp only [alloc.usable, BLOCK_SIZE_THRESHOLD, decide_eq_true_eq] at usable
      omega

end Extism.Otoroshi
