import Extism.Otoroshi.PluginMemory

/-!
# Runs of the guest allocator

A configuration is the allocator with the blocks handed out, which is what its
callers know: the blocks `alloc` returned and nobody has freed or reset since.
The allocator's own map of live blocks is not that list once two of them share
an offset, since the map keeps one entry for a key.

Every run keeps some things, compaction or not: no block is empty, none ends
beyond the position, and the map has one entry for a key.  What a compaction does
to whole lists is a matter of its own, for the modules that build on this one.

## Main definitions

* `Call`, `Config`, `pluginRuns` — the runs.
* `Call.Sized` — an allocation asks for a byte or more.
* `Sane` — what every run keeps.

## Main results

* `LiveBlocks.perm_of_get` — the entry of a key, taken out of the map.
* `free.compactFrom_forall` — what is true of single blocks and passes to the union
  of two that meet is true of the blocks a compaction pushes.
* `Sane.alloc`, `Sane.free`, `Sane.next` — one step keeps it.
-/

namespace Extism.Otoroshi

/-- A call of the allocator. -/
inductive Call
  | alloc (n : ℕ)
  | free (offset : ℕ)
  | reset
  deriving DecidableEq, Repr

/-- An allocation asks for a byte or more. -/
def Call.Sized : Call → Prop
  | .alloc n => 1 ≤ n
  | _ => True

instance : DecidablePred Call.Sized
  | .alloc n => inferInstanceAs (Decidable (1 ≤ n))
  | .free _ => .isTrue trivial
  | .reset => .isTrue trivial

/-- The allocator and the blocks handed out. -/
structure Config where
  memory : PluginMemory
  held : List MemoryBlock

namespace Config

/-- The configuration after a call. -/
def next (c : Config) : Call → Config
  | .alloc n =>
      match alloc n c.memory with
      | (.ok block, memory) => ⟨memory, block :: c.held⟩
      | (.error _, memory) => ⟨memory, c.held⟩
  | .free offset => ⟨free offset c.memory, c.held.filter (·.offset ≠ offset)⟩
  | .reset => ⟨reset c.memory, []⟩

end Config

/-- The runs of the allocator, from `PluginMemory::new`. -/
def pluginRuns : TransitionSystem Config Call where
  init c := ∃ memory, c = ⟨.new memory, []⟩
  step c call c' := call.Sized ∧ c.next call = c'

theorem reachable_next {c : Config} (reach : pluginRuns.Reachable c) (call : Call)
    (sized : call.Sized) : pluginRuns.Reachable (c.next call) :=
  reach.step ⟨sized, rfl⟩

theorem reachable_next_of_ok {ok : Config → Call → Prop} {c : Config}
    (reach : (pluginRuns.restrict ok).Reachable c) (call : Call) (sized : call.Sized)
    (allowed : ok c call) : (pluginRuns.restrict ok).Reachable (c.next call) :=
  reach.step ⟨allowed, sized, rfl⟩

/-! ## The map of live blocks -/

namespace LiveBlocks

variable {blocks : LiveBlocks} {offset : ℕ} {block : MemoryBlock}

theorem mem_remove : block ∈ blocks.remove offset ↔ block ∈ blocks ∧ block.offset ≠ offset := by
  simp [remove]

theorem of_get (found : blocks.get offset = some block) :
    block ∈ blocks ∧ block.offset = offset := by
  have key := List.find?_some found
  exact ⟨List.mem_of_find?_eq_some found, by simpa using key⟩

theorem get_eq_none : blocks.get offset = none ↔ ∀ b ∈ blocks, b.offset ≠ offset := by
  simp [get]

theorem remove_of_get_eq_none (absent : blocks.get offset = none) :
    blocks.remove offset = blocks := by
  rw [get_eq_none] at absent
  simpa [remove] using absent

/-- Taking the entry of a key out. -/
theorem perm_of_get (keys : (blocks.map MemoryBlock.offset).Nodup)
    (found : blocks.get offset = some block) : blocks.Perm (block :: blocks.remove offset) := by
  induction blocks with
  | nil => simp [get] at found
  | cons b rest ih =>
      simp only [List.map_cons, List.nodup_cons, List.mem_map, not_exists, not_and] at keys
      by_cases eq : b.offset = offset
      · have same : b = block := by simpa [get, eq] using found
        have absent : get rest offset = none := get_eq_none.2 (by simpa [eq] using keys.1)
        have tail : remove (b :: rest) offset = rest := by
          simpa [remove, eq] using remove_of_get_eq_none absent
        rw [tail, same]
      · have found' : get rest offset = some block := by simpa [get, eq] using found
        have tail : remove (b :: rest) offset = b :: remove rest offset := by simp [remove, eq]
        rw [tail]
        exact (List.Perm.cons b (ih keys.2 found')).trans (.swap _ _ _)

theorem nodup_remove (keys : (blocks.map MemoryBlock.offset).Nodup) (offset : ℕ) :
    ((blocks.remove offset).map MemoryBlock.offset).Nodup :=
  keys.sublist (List.filter_sublist.map _)

theorem nodup_insert (keys : (blocks.map MemoryBlock.offset).Nodup) (block : MemoryBlock) :
    ((blocks.insert block).map MemoryBlock.offset).Nodup := by
  rw [insert, List.map_cons, List.nodup_cons]
  refine ⟨?_, nodup_remove keys _⟩
  rintro absent
  obtain ⟨b, mem, eq⟩ := List.mem_map.1 absent
  exact (mem_remove.1 mem).2 eq

end LiveBlocks

/-! ## What every run keeps -/

/-- Not empty, and handed out before. -/
def MemoryBlock.Inside (block : MemoryBlock) (position : ℕ) : Prop :=
  1 ≤ block.length ∧ block.offset + block.length ≤ position

/-- **What every run keeps.** -/
structure Sane (m : PluginMemory) : Prop where
  position : 1 ≤ m.position
  live : ∀ block ∈ m.liveBlocks, block.Inside m.position
  listed : ∀ block ∈ m.free, block.Inside m.position
  keys : (m.liveBlocks.map MemoryBlock.offset).Nodup

namespace Sane

theorem new (memory : Memory) : Sane (.new memory) where
  position := Nat.le_refl 1
  live := by simp [PluginMemory.new]
  listed := by simp [PluginMemory.new]
  keys := by simp [PluginMemory.new]

variable {m : PluginMemory}

theorem inside_insert (sane : Sane m) {block : MemoryBlock} {position : ℕ}
    (inside : block.Inside position) (later : m.position ≤ position) :
    ∀ b ∈ m.liveBlocks.insert block, b.Inside position := by
  intro b mem
  rcases List.mem_cons.1 mem with rfl | mem
  · exact inside
  · obtain ⟨positive, ends⟩ := sane.live b (LiveBlocks.mem_remove.1 mem).1
    exact ⟨positive, Nat.le_trans ends later⟩

theorem alloc (sane : Sane m) {n : ℕ} (sized : 1 ≤ n) : Sane (Otoroshi.alloc n m).2 := by
  have spec := alloc_spec m n
  generalize Otoroshi.alloc n m = r at spec
  obtain ⟨r, m'⟩ := r
  cases spec with
  | @whole block rest free' _ before exact after =>
      have mem : ∀ b ∈ block :: rest, b.Inside m.position :=
        fun b h => sane.listed b (before.mem_iff.2 h)
      exact
        { position := sane.position
          live := sane.inside_insert (mem block List.mem_cons_self) (Nat.le_refl _)
          listed := fun b h => mem b (List.mem_cons_of_mem _ (after.mem_iff.1 h))
          keys := LiveBlocks.nodup_insert sane.keys _ }
  | @split block rest free' _ before loose after =>
      have mem : ∀ b ∈ block :: rest, b.Inside m.position :=
        fun b h => sane.listed b (before.mem_iff.2 h)
      obtain ⟨-, ends⟩ := mem block List.mem_cons_self
      refine
        { position := sane.position
          live := sane.inside_insert ⟨sized, by simp only; omega⟩ (Nat.le_refl _)
          listed := fun b h => ?_
          keys := LiveBlocks.nodup_insert sane.keys _ }
      rcases List.mem_cons.1 (after.mem_iff.1 h) with rfl | h
      · exact ⟨by simp only; omega, by simp only; omega⟩
      · exact mem b (List.mem_cons_of_mem _ h)
  | appended _ _ _ =>
      refine
        { position := Nat.le_trans sane.position (Nat.le_add_right _ _)
          live := sane.inside_insert ⟨sized, Nat.le_refl _⟩ (Nat.le_add_right _ _)
          listed := fun b h => ?_
          keys := LiveBlocks.nodup_insert sane.keys _ }
      obtain ⟨positive, ends⟩ := sane.listed b h
      exact ⟨positive, Nat.le_trans ends (Nat.le_add_right _ _)⟩
  | refused _ => exact ⟨sane.position, sane.live, sane.listed, sane.keys⟩

end Sane

/-! ### Compaction -/

/-- What is true of single blocks and passes to the union of two that meet is
true of the blocks a compaction pushes. -/
theorem free.compactFrom_forall {P : MemoryBlock → Prop}
    (union : ∀ a b, P a → P b → a.offset + a.length = b.offset →
      P ⟨a.offset, a.length + b.length⟩)
    {last : MemoryBlock} {blocks : List MemoryBlock} (first : P last)
    (all : ∀ b ∈ blocks, P b) : ∀ b ∈ free.compactFrom (some last) blocks, P b := by
  induction blocks generalizing last with
  | nil => simp [free.compactFrom]
  | cons block rest ih =>
      have here := all block List.mem_cons_self
      have tail := ih here fun b h => all b (List.mem_cons_of_mem _ h)
      rw [free.compactFrom]
      split
      case isTrue meets =>
        rintro b (_ | ⟨_, h⟩)
        · exact union last block first here meets
        · exact tail b h
      case isFalse => exact tail

theorem free.compact_forall {P : MemoryBlock → Prop}
    (union : ∀ a b, P a → P b → a.offset + a.length = b.offset →
      P ⟨a.offset, a.length + b.length⟩)
    {blocks : List MemoryBlock} (all : ∀ b ∈ blocks, P b) : ∀ b ∈ free.compact blocks, P b := by
  cases blocks with
  | nil => simp [free.compact, free.compactFrom]
  | cons block rest =>
      have here := all block List.mem_cons_self
      rintro b (_ | ⟨_, h⟩)
      · exact here
      · exact free.compactFrom_forall union here (fun b h => all b (List.mem_cons_of_mem _ h)) b h

theorem free.collect_forall {P : MemoryBlock → Prop}
    (union : ∀ a b, P a → P b → a.offset + a.length = b.offset →
      P ⟨a.offset, a.length + b.length⟩)
    {blocks : List MemoryBlock} (all : ∀ b ∈ blocks, P b) : ∀ b ∈ free.collect blocks, P b := by
  rw [free.collect]
  split
  · exact free.compact_forall union all
  · exact all

theorem MemoryBlock.Inside.union {position : ℕ} {a b : MemoryBlock} (left : a.Inside position)
    (right : b.Inside position) (meets : a.offset + a.length = b.offset) :
    MemoryBlock.Inside ⟨a.offset, a.length + b.length⟩ position := by
  obtain ⟨positive, -⟩ := left
  obtain ⟨-, ends⟩ := right
  exact ⟨by simp only; omega, by simp only; omega⟩

namespace Sane

variable {m : PluginMemory}

theorem free (sane : Sane m) (offset : ℕ) : Sane (Otoroshi.free offset m) := by
  rw [Otoroshi.free]
  split
  case h_1 block found =>
    refine
      { position := sane.position
        live := fun b h => sane.live b (LiveBlocks.mem_remove.1 h).1
        listed := free.collect_forall (fun _ _ => .union) ?_
        keys := LiveBlocks.nodup_remove sane.keys _ }
    simp only [List.mem_append, List.mem_singleton]
    rintro b (h | rfl)
    · exact sane.listed b h
    · exact sane.live b (LiveBlocks.of_get found).1
  case h_2 => exact sane

theorem next {c : Config} (sane : Sane c.memory) {call : Call} (sized : call.Sized) :
    Sane (c.next call).memory := by
  cases call with
  | alloc n =>
      have kept := sane.alloc (n := n) sized
      rw [Config.next]
      split
      case h_1 run => rwa [run] at kept
      case h_2 run => rwa [run] at kept
  | free offset => exact sane.free offset
  | reset => exact ⟨Nat.le_refl 1, by simp [Config.next, reset], by simp [Config.next, reset],
      by simp [Config.next, reset]⟩

end Sane

/-- One page, and nothing handed out. -/
def onePage : Config := ⟨.new ⟨1, by decide, fun _ => true, 0⟩, []⟩

end Extism.Otoroshi
