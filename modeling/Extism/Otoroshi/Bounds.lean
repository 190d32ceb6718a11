import Extism.Otoroshi.Run

/-!
# The blocks of the guest allocator are inside the memory

Here the requests are any, empty ones included, and so are the offsets freed.
Compaction may then double a block or lose one, but the union of two blocks that
meet ends where the second does.  So every block begins behind address 0 and
ends at the position at the latest, and the position is inside the memory from
the first block on; what `alloc` computes with `usize` never overflows.

## Main definitions

* `anyRuns` — all runs of the allocator.
* `MemoryBlock.Between`, `Config.Block` — behind address 0 and handed out before;
  a block handed out, listed as live, or free.
* `Placed` — what every run keeps.
* `AnswersInside` — how the allocator answers a request.

## Main results

* `makeRoom_isOk_iff`, `alloc_isOk_iff` — an allocation that no free block serves
  succeeds where there is room.
* `Placed.alloc`, `Placed.next` — one step keeps the blocks inside.
* `between_of_reachable` — no byte beyond the memory, in any run.
-/

namespace Extism.Otoroshi

/-- All runs of the allocator, from `PluginMemory::new`. -/
def anyRuns : TransitionSystem Config Call where
  init c := ∃ memory, c = ⟨.new memory, []⟩
  step c call c' := c.next call = c'

theorem reachable_foldl {c : Config} (reach : anyRuns.Reachable c) (calls : List Call) :
    anyRuns.Reachable (calls.foldl Config.next c) := by
  induction calls generalizing c with
  | nil => exact reach
  | cons call calls ih => exact ih (reach.step rfl)

/-- Behind address 0, and handed out before. -/
def MemoryBlock.Between (block : MemoryBlock) (position : ℕ) : Prop :=
  1 ≤ block.offset ∧ block.offset + block.length ≤ position

/-- A block handed out, listed as live, or free. -/
def Config.Block (c : Config) (block : MemoryBlock) : Prop :=
  block ∈ c.held ∨ block ∈ c.memory.liveBlocks ∨ block ∈ c.memory.free

/-- The position and the size of the memory: no block is beyond either. -/
def PluginMemory.bound (m : PluginMemory) : ℕ := min m.position m.memory.size

/-- **What every run keeps**, whatever is asked for. -/
structure Placed (c : Config) : Prop where
  position : 1 ≤ c.memory.position
  /-- Only an allocation that found room moves the position. -/
  room : c.memory.position ≤ max 1 c.memory.memory.size
  blocks : ∀ block, c.Block block → block.Between c.memory.bound

/-- There is room for `n` bytes behind the position, or it can be made. -/
def PluginMemory.HasRoom (m : PluginMemory) (n : ℕ) : Prop :=
  m.memory.size ≤ min (m.position + n) (2 ^ 64 - 1) →
    m.memory.CanGrow (alloc.pagesNeeded (min (m.position + n) (2 ^ 64 - 1)) m.memory.size)

instance (m : PluginMemory) (n : ℕ) : Decidable (m.HasRoom n) := inferInstanceAs (Decidable (_ → _))

/-- How the allocator answers a request in a memory like `m`. -/
structure AnswersInside (m : PluginMemory) (n : ℕ) : Prop where
  /-- A block is inside the memory, and the position did not overflow. -/
  granted : ∀ {block : MemoryBlock} {m' : PluginMemory}, alloc n m = (.ok block, m') →
    1 ≤ block.offset ∧ block.length = n ∧ block.offset + n ≤ m'.memory.size ∧
      (m'.position = m.position ∨ m'.position = m.position + n)
  /-- An error leaves the books alone. -/
  refused : ∀ {e : AllocError} {m' : PluginMemory}, alloc n m = (.error e, m') →
    m'.liveBlocks = m.liveBlocks ∧ m'.free = m.free ∧ m'.position = m.position
  /-- An allocation that has to grow the memory and cannot ends with an error. -/
  growFailed : alloc.reuse n m.free = none → ¬ m.HasRoom n → (alloc n m).1 = .error .growFailed

theorem MemoryBlock.Between.mono {block : MemoryBlock} {position position' : ℕ}
    (between : block.Between position) (le : position ≤ position') : block.Between position' :=
  ⟨between.1, Nat.le_trans between.2 le⟩

theorem MemoryBlock.Between.union {position : ℕ} {a b : MemoryBlock} (left : a.Between position)
    (right : b.Between position) (meets : a.offset + a.length = b.offset) :
    MemoryBlock.Between ⟨a.offset, a.length + b.length⟩ position := by
  obtain ⟨behind, -⟩ := left
  obtain ⟨-, ends⟩ := right
  exact ⟨behind, by simp only; omega⟩

theorem Memory.size_le (memory : Memory) : memory.size ≤ 2 ^ 32 := by
  have inRange := memory.inRange
  simp only [Memory.size]
  omega

theorem LiveBlocks.of_mem_insert {blocks : LiveBlocks} {block b : MemoryBlock}
    (mem : b ∈ blocks.insert block) : b = block ∨ b ∈ blocks :=
  (List.mem_cons.1 mem).imp_right fun h => (mem_remove.1 h).1

/-- Room is made where it can be. -/
theorem makeRoom_isOk_iff (m : PluginMemory) (n : ℕ) :
    (alloc.makeRoom (min (m.position + n) (2 ^ 64 - 1)) m).1.isOk ↔ m.HasRoom n := by
  rw [alloc.makeRoom, Prog.bind_ok (Prog.get_apply m), Prog.ite_apply, PluginMemory.HasRoom]
  split
  case isTrue outside =>
    rw [grow]
    split
    case isTrue can => exact iff_of_true rfl fun _ => can
    case isFalse full =>
      exact iff_of_false (by simp [Except.isOk, Except.toBool]) (full <| · outside)
  case isFalse inside => exact iff_of_true rfl (absurd · inside)

/-- An allocation that no free block serves succeeds where there is room. -/
theorem alloc_isOk_iff {m : PluginMemory} {n : ℕ} (none : alloc.reuse n m.free = none) :
    (alloc n m).1.isOk ↔ m.HasRoom n := by
  rw [← makeRoom_isOk_iff, alloc, Prog.bind_ok (Prog.get_apply m), none]
  simp only []
  rcases made : alloc.makeRoom (min (m.position + n) (2 ^ 64 - 1)) m with ⟨_ | _, m'⟩
  · rw [Prog.bind_error made]
    exact .rfl
  · rw [Prog.bind_ok made]
    exact iff_of_true rfl rfl

namespace Placed

variable {c : Config}

theorem new (memory : Memory) : Placed ⟨.new memory, []⟩ where
  position := Nat.le_refl 1
  room := Nat.le_max_left 1 _
  blocks := by simp [Config.Block, PluginMemory.new]

theorem position_le (P : Placed c) : c.memory.position ≤ 2 ^ 32 := by
  have size := c.memory.memory.size_le
  have room := P.room
  omega

/-- A reused block is inside, and so is what is left of the list. -/
theorem reused (P : Placed c) {block : MemoryBlock} {free' : List MemoryBlock}
    (between : block.Between c.memory.bound) (rest : ∀ b ∈ free', b.Between c.memory.bound) :
    Placed ⟨{ c.memory with liveBlocks := c.memory.liveBlocks.insert block, free := free' },
      block :: c.held⟩ where
  position := P.position
  room := P.room
  blocks := by
    rintro b (held | live | listed)
    · rcases List.mem_cons.1 held with rfl | held
      · exact between
      · exact P.blocks b (.inl held)
    · rcases LiveBlocks.of_mem_insert live with rfl | live
      · exact between
      · exact P.blocks b (.inr (.inl live))
    · exact rest b listed

/-- A new block at the position is inside the memory that has room for it. -/
theorem appended (P : Placed c) {n : ℕ} {memory : Memory}
    (room : c.memory.position + n ≤ memory.size) (grown : c.memory.memory.size ≤ memory.size) :
    Placed ⟨{ c.memory with
      memory := memory
      liveBlocks := c.memory.liveBlocks.insert ⟨c.memory.position, n⟩
      position := c.memory.position + n }, ⟨c.memory.position, n⟩ :: c.held⟩ := by
  have position := P.position
  have between : MemoryBlock.Between ⟨c.memory.position, n⟩
      (min (c.memory.position + n) memory.size) :=
    ⟨position, Nat.le_min.2 ⟨Nat.le_refl _, room⟩⟩
  have later : c.memory.bound ≤ min (c.memory.position + n) memory.size :=
    Nat.le_min.2 ⟨Nat.le_trans (Nat.min_le_left _ _) (Nat.le_add_right _ _),
      Nat.le_trans (Nat.min_le_right _ _) grown⟩
  have before : ∀ b, c.Block b → b.Between (min (c.memory.position + n) memory.size) :=
    fun b mem => (P.blocks b mem).mono later
  refine ⟨by simp only; omega, Nat.le_trans room (Nat.le_max_right 1 _), ?_⟩
  rintro b (held | live | listed)
  · rcases List.mem_cons.1 held with rfl | held
    · exact between
    · exact before b (.inl held)
  · rcases LiveBlocks.of_mem_insert live with rfl | live
    · exact between
    · exact before b (.inr (.inl live))
  · exact before b (.inr (.inr listed))

/-- **An allocation** keeps the blocks inside. -/
theorem alloc (P : Placed c) (n : ℕ) : Placed (c.next (.alloc n)) := by
  have spec := alloc_spec c.memory n
  rw [Config.next]
  generalize Otoroshi.alloc n c.memory = r at spec
  obtain ⟨r, m'⟩ := r
  cases spec with
  | @whole block rest free' _ before exact after =>
      have mem : ∀ b ∈ block :: rest, b.Between c.memory.bound :=
        fun b h => P.blocks b (.inr (.inr (before.mem_iff.2 h)))
      exact P.reused (mem block List.mem_cons_self)
        fun b h => mem b (List.mem_cons_of_mem _ (after.mem_iff.1 h))
  | @split block rest free' _ before loose after =>
      have mem : ∀ b ∈ block :: rest, b.Between c.memory.bound :=
        fun b h => P.blocks b (.inr (.inr (before.mem_iff.2 h)))
      obtain ⟨behind, ends⟩ := mem block List.mem_cons_self
      refine P.reused ⟨behind, by simp only; omega⟩ fun b h => ?_
      rcases List.mem_cons.1 (after.mem_iff.1 h) with rfl | h
      · exact ⟨by simp only; omega, by simp only; omega⟩
      · exact mem b (List.mem_cons_of_mem _ h)
  | appended _ room grown => exact P.appended room (Nat.mul_le_mul_left 65536 grown)
  | refused _ => exact ⟨P.position, P.room, P.blocks⟩

theorem free (P : Placed c) (offset : ℕ) : Placed (c.next (.free offset)) := by
  rw [Config.next, Otoroshi.free]
  split
  case h_1 block found =>
    have back : ∀ b ∈ c.memory.free ++ [block], b.Between c.memory.bound := by
      simp only [List.mem_append, List.mem_singleton]
      rintro b (listed | rfl)
      · exact P.blocks b (.inr (.inr listed))
      · exact P.blocks b (.inr (.inl (LiveBlocks.of_get found).1))
    refine ⟨P.position, P.room, ?_⟩
    rintro b (held | live | listed)
    · exact P.blocks b (.inl (List.mem_filter.1 held).1)
    · exact P.blocks b (.inr (.inl (LiveBlocks.mem_remove.1 live).1))
    · exact free.collect_forall (fun _ _ => .union) back b listed
  case h_2 =>
    refine ⟨P.position, P.room, ?_⟩
    rintro b (held | others)
    · exact P.blocks b (.inl (List.mem_filter.1 held).1)
    · exact P.blocks b (.inr others)

/-- **A step** keeps the blocks inside. -/
theorem next (P : Placed c) (call : Call) : Placed (c.next call) := by
  cases call with
  | alloc n => exact P.alloc n
  | free offset => exact P.free offset
  | reset => exact ⟨Nat.le_refl 1, Nat.le_max_left 1 _, by simp [Config.next, Config.Block, reset]⟩

/-- **A run** keeps them inside. -/
theorem of_reachable (reach : anyRuns.Reachable c) : Placed c := by
  refine reach.invariant ?_ ?_
  · rintro _ ⟨memory, rfl⟩
    exact .new memory
  · rintro c _ call P rfl
    exact P.next call

/-- What the next request is answered. -/
theorem answersInside (P : Placed c) (n : ℕ) : AnswersInside c.memory n where
  granted := by
    intro block m' run
    have after := P.alloc n
    have spec := alloc_spec c.memory n
    rw [Config.next, run] at after
    rw [run] at spec
    obtain ⟨behind, ends⟩ := after.blocks block (.inl List.mem_cons_self)
    have inside : block.offset + block.length ≤ m'.memory.size :=
      Nat.le_trans ends (Nat.min_le_right _ _)
    cases spec with
    | whole _ _ exact _ => exact ⟨behind, exact, exact ▸ inside, .inl rfl⟩
    | split => exact ⟨behind, rfl, inside, .inl rfl⟩
    | appended => exact ⟨behind, rfl, inside, .inr rfl⟩
  refused := by
    intro e m' run
    have spec := alloc_spec c.memory n
    rw [run] at spec
    cases spec
    exact ⟨rfl, rfl, rfl⟩
  growFailed := by
    intro none full
    rw [← alloc_isOk_iff none] at full
    have spec := alloc_spec c.memory n
    generalize Otoroshi.alloc n c.memory = r at full spec
    obtain ⟨r, m'⟩ := r
    cases spec with
    | refused => rfl
    | _ => exact absurd rfl full

end Placed

/-- **No byte beyond the memory.**  In every run each block handed out, live or
free begins behind address 0 and ends at the position at the latest, the
position is a 32-bit number, and whatever is asked for next is granted inside
the memory or refused with the books as they were. -/
theorem between_of_reachable {c : Config} (reach : anyRuns.Reachable c) :
    (∀ block, c.Block block → block.Between c.memory.position) ∧
      c.memory.position ≤ 2 ^ 32 ∧ ∀ n, AnswersInside c.memory n := by
  have P := Placed.of_reachable reach
  exact ⟨fun block mem => (P.blocks block mem).mono (Nat.min_le_left _ _), P.position_le,
    P.answersInside⟩

/-- An empty block, one of nearly a page at the same offset, and a `free` of that
offset. -/
theorem between_of_reachable_after_free :
    let c := [.alloc 0, .alloc 65535, .free 1].foldl Config.next onePage
    c.memory.free = [⟨1, 65535⟩] ∧ c.memory.position = 65536 ∧
      ∀ block, c.Block block → block.Between c.memory.position := by
  have reach := reachable_foldl (.of_init ⟨_, rfl⟩ : anyRuns.Reachable onePage)
    [.alloc 0, .alloc 65535, .free 1]
  exact ⟨by decide +kernel, by decide +kernel, (between_of_reachable reach).1⟩

end Extism.Otoroshi
