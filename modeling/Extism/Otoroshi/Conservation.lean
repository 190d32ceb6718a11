import Extism.Otoroshi.Run

/-!
# What the guest allocator loses

A compaction pushes the first block of the free list, and for every two
neighbours of the list that meet their union.  A block after the first that
meets neither neighbour is not pushed at all, and one that was pushed with the
block before it and meets the next as well is pushed twice.  The total is kept
exactly if the bytes of the two kinds agree.

Bytes are lost to `live_blocks` as well, but only after a compaction doubled
some: `alloc` may then return a block at an offset the map has an entry for, and
the entry is replaced.

## Main definitions

* `Config.Conserved` — every byte below the position is in a live block or a free
  one.
* `doubled`, `dropped` — the bytes a compaction pushes twice, and not at all.
* `Config.Balanced` — a compaction doubles as many bytes as it drops, and no
  allocation replaces an entry.

## Main results

* `total_compactFrom` — the loop of the compaction.
* `total_insert_iff` — an insertion adds the length, unless it replaces an entry.
* `conserved_next_iff` — a step conserves the bytes exactly if it is balanced.
* `conserved_iff_balanced` — when bytes are lost, for lists and for runs.
-/

namespace Extism.Otoroshi

/-- Every byte below the position is in a live block or a free one. -/
def Config.Conserved (c : Config) : Prop :=
  total c.memory.liveBlocks + total c.memory.free = c.memory.position - 1

instance : DecidablePred Config.Conserved := fun _ => Nat.decEq _ _

/-- The bytes of the blocks that were pushed and meet the next.  The flag tells
whether the first one was. -/
def doubled : Bool → List MemoryBlock → ℕ
  | pushed, a :: b :: rest =>
      if a.offset + a.length = b.offset then
        (if pushed then a.length else 0) + doubled true (b :: rest)
      else doubled false (b :: rest)
  | _, _ => 0

/-- The bytes of the blocks that were not pushed and do not meet the next. -/
def dropped : Bool → List MemoryBlock → ℕ
  | pushed, a :: b :: rest =>
      if a.offset + a.length = b.offset then dropped true (b :: rest)
      else (if pushed then 0 else a.length) + dropped false (b :: rest)
  | pushed, [a] => if pushed then 0 else a.length
  | _, [] => 0

/-- A compaction doubles as many bytes as it drops, and no allocation returns a
block whose offset is that of a live one. -/
def Config.Balanced (c : Config) : Call → Prop
  | .alloc n =>
      ∀ block ∈ c.memory.free.find? (alloc.usable n),
        c.memory.liveBlocks.get block.offset = none
  | .free offset =>
      ∀ block ∈ c.memory.liveBlocks.get offset, 1024 ≤ total (c.memory.free ++ [block]) →
        doubled true (c.memory.free ++ [block]) = dropped true (c.memory.free ++ [block])
  | .reset => True

instance (c : Config) : DecidablePred c.Balanced
  | .alloc n => inferInstanceAs (Decidable (∀ block ∈ c.memory.free.find? (alloc.usable n),
      c.memory.liveBlocks.get block.offset = none))
  | .free offset => inferInstanceAs (Decidable (∀ block ∈ c.memory.liveBlocks.get offset,
      1024 ≤ total (c.memory.free ++ [block]) →
        doubled true (c.memory.free ++ [block]) = dropped true (c.memory.free ++ [block])))
  | .reset => .isTrue trivial

/-! ## Totals -/

@[simp] theorem total_nil : total [] = 0 := rfl

@[simp] theorem total_cons (block : MemoryBlock) (rest : List MemoryBlock) :
    total (block :: rest) = block.length + total rest := by
  simp [total]

@[simp] theorem total_append (xs ys : List MemoryBlock) :
    total (xs ++ ys) = total xs + total ys := by
  simp [total]

theorem total_perm {xs ys : List MemoryBlock} (perm : xs.Perm ys) : total xs = total ys :=
  (perm.map _).sum_eq

theorem total_remove {blocks : LiveBlocks} (keys : (blocks.map MemoryBlock.offset).Nodup)
    {offset : ℕ} {block : MemoryBlock} (found : blocks.get offset = some block) :
    block.length + total (blocks.remove offset) = total blocks := by
  rw [← total_cons, total_perm (LiveBlocks.perm_of_get keys found)]

/-- An insertion adds the length, unless it replaces an entry. -/
theorem total_insert_iff {blocks : LiveBlocks} (keys : (blocks.map MemoryBlock.offset).Nodup)
    (positive : ∀ b ∈ blocks, 1 ≤ b.length) (block : MemoryBlock) :
    total (blocks.insert block) = block.length + total blocks ↔
      blocks.get block.offset = none := by
  rw [LiveBlocks.insert, total_cons]
  cases found : blocks.get block.offset with
  | none => simp [LiveBlocks.remove_of_get_eq_none found]
  | some old =>
      have whole := total_remove keys found
      have positive' := positive old (LiveBlocks.of_get found).1
      simp only [reduceCtorEq, iff_false]
      omega

/-- **The loop of the compaction**, where `last` is the block before. -/
theorem total_compactFrom (pushed : Bool) (last : MemoryBlock) (blocks : List MemoryBlock) :
    (if pushed then last.length else 0) + total (free.compactFrom (some last) blocks) +
        dropped pushed (last :: blocks) =
      total (last :: blocks) + doubled pushed (last :: blocks) := by
  induction blocks generalizing pushed last with
  | nil => cases pushed <;> simp [free.compactFrom, dropped, doubled]
  | cons block rest ih =>
      rw [free.compactFrom, dropped, doubled]
      by_cases meets : last.offset + last.length = block.offset
      · have tail := ih true block
        simp only [meets, if_true, total_cons] at tail ⊢
        omega
      · have tail := ih false block
        simp only [meets, if_false, Bool.false_eq_true, total_cons] at tail ⊢
        cases pushed <;> simp only [if_true, if_false, Bool.false_eq_true] <;> omega

theorem total_compact (blocks : List MemoryBlock) :
    total (free.compact blocks) + dropped true blocks = total blocks + doubled true blocks := by
  cases blocks with
  | nil => rfl
  | cons block rest => exact total_compactFrom true block rest

theorem total_compact_iff (blocks : List MemoryBlock) :
    total (free.compact blocks) = total blocks ↔ doubled true blocks = dropped true blocks := by
  have count := total_compact blocks
  omega

theorem total_collect_iff (blocks : List MemoryBlock) :
    total (free.collect blocks) = total blocks ↔
      (1024 ≤ total blocks → doubled true blocks = dropped true blocks) := by
  rw [free.collect]
  split
  case isTrue large => simpa [large] using total_compact_iff blocks
  case isFalse small => simp [small]

/-! ## A step -/

theorem conserved_alloc_iff {c : Config} (sane : Sane c.memory) (conserved : c.Conserved) (n : ℕ) :
    (c.next (.alloc n)).Conserved ↔ c.Balanced (.alloc n) := by
  have insert := total_insert_iff sane.keys fun b mem => (sane.live b mem).1
  have position := sane.position
  have spec := alloc_spec c.memory n
  simp only [Config.Conserved, Config.Balanced] at conserved ⊢
  rw [Config.next]
  generalize alloc n c.memory = r at spec
  obtain ⟨r, m'⟩ := r
  cases spec with
  | @whole block rest free' first before exact after =>
      have left := total_perm before
      rw [total_cons] at left
      simp only [first, Option.mem_some_iff, forall_eq', ← insert, total_perm after]
      omega
  | @split block rest free' first before loose after =>
      have left := total_perm before
      rw [total_cons] at left
      simp only [first, Option.mem_some_iff, forall_eq', ← insert ⟨block.offset, n⟩,
        total_perm after, total_cons]
      omega
  | appended none _ _ =>
      -- every live block ends at the position or before
      have fresh : c.memory.liveBlocks.get c.memory.position = .none := by
        refine LiveBlocks.get_eq_none.2 fun b mem => ?_
        obtain ⟨positive, ends⟩ := sane.live b mem
        omega
      have added := (insert ⟨c.memory.position, n⟩).2 fresh
      simp only [none, Option.not_mem_none, false_implies, implies_true, iff_true, added]
      omega
  | refused none => simpa [none] using conserved

theorem conserved_free_iff {c : Config} (sane : Sane c.memory) (conserved : c.Conserved)
    (offset : ℕ) : (c.next (.free offset)).Conserved ↔ c.Balanced (.free offset) := by
  simp only [Config.Conserved, Config.Balanced] at conserved ⊢
  rw [Config.next, free]
  cases found : c.memory.liveBlocks.get offset with
  | none => simpa using conserved
  | some block =>
      have removed := total_remove sane.keys found
      have collected := total_collect_iff (c.memory.free ++ [block])
      have whole : total (c.memory.free ++ [block]) = total c.memory.free + block.length := by simp
      simp only [Option.mem_some_iff, forall_eq']
      rw [← collected]
      omega

/-- **A step** conserves the bytes exactly if it is balanced. -/
theorem conserved_next_iff {c : Config} (sane : Sane c.memory) (conserved : c.Conserved)
    (call : Call) : (c.next call).Conserved ↔ c.Balanced call := by
  cases call with
  | alloc n => exact conserved_alloc_iff sane conserved n
  | free offset => exact conserved_free_iff sane conserved offset
  | reset => exact iff_of_true rfl trivial

/-! ## Runs -/

theorem conserved_of_balanced {c : Config}
    (reach : (pluginRuns.restrict Config.Balanced).Reachable c) :
    Sane c.memory ∧ c.Conserved := by
  refine reach.invariant (I := fun c => Sane c.memory ∧ c.Conserved) ?_ ?_
  · rintro _ ⟨memory, rfl⟩
    exact ⟨.new memory, rfl⟩
  · rintro c _ call ⟨sane, conserved⟩ ⟨balanced, sized, rfl⟩
    exact ⟨sane.next sized, (conserved_next_iff sane conserved call).2 balanced⟩

/-- **When bytes are lost.**  A compaction keeps the total of a list exactly if
it doubles as many bytes as it drops.  In a run whose calls have all been
balanced nothing is lost, and the next call keeps it so exactly if it is
balanced. -/
theorem conserved_iff_balanced {c : Config}
    (reach : (pluginRuns.restrict Config.Balanced).Reachable c) (blocks : List MemoryBlock) :
    (total (free.compact blocks) = total blocks ↔ doubled true blocks = dropped true blocks) ∧
      c.Conserved ∧ ∀ {call : Call} {c' : Config}, pluginRuns.step c call c' →
        (c'.Conserved ↔ c.Balanced call) := by
  obtain ⟨sane, conserved⟩ := conserved_of_balanced reach
  refine ⟨total_compact_iff blocks, conserved, ?_⟩
  rintro call _ ⟨-, rfl⟩
  exact conserved_next_iff sane conserved call

/-- Three blocks, and the last two freed: 600 bytes, so nothing is compacted. -/
theorem conserved_iff_balanced_after_free :
    let c := [.alloc 600, .alloc 300, .alloc 300, .free 601, .free 901].foldl Config.next onePage
    c.Conserved ∧ ((c.next (.free 1)).Conserved ↔ c.Balanced (.free 1)) := by
  have start : (pluginRuns.restrict Config.Balanced).Reachable onePage := .of_init ⟨_, rfl⟩
  have once := reachable_next_of_ok start (.alloc 600) (by decide) (by decide +kernel)
  have twice := reachable_next_of_ok once (.alloc 300) (by decide) (by decide +kernel)
  have thrice := reachable_next_of_ok twice (.alloc 300) (by decide) (by decide +kernel)
  have freed := reachable_next_of_ok thrice (.free 601) trivial (by decide +kernel)
  have both := reachable_next_of_ok freed (.free 901) trivial (by decide +kernel)
  have result := conserved_iff_balanced both []
  exact ⟨result.2.1, result.2.2 ⟨trivial, rfl⟩⟩

/-- Two neighbours freed from the right: the second is not pushed. -/
theorem not_conserved_always :
    (¬ ∀ c, pluginRuns.Reachable c → c.Conserved) ∧
      ¬ ∀ blocks, total (free.compact blocks) = total blocks := by
  refine ⟨fun always => ?_, fun always => ?_⟩
  · have start : pluginRuns.Reachable onePage := .of_init ⟨_, rfl⟩
    have once := reachable_next start (.alloc 600) (by decide)
    have twice := reachable_next once (.alloc 600) (by decide)
    have right := reachable_next twice (.free 601) trivial
    have both := reachable_next right (.free 1) trivial
    have lost : ¬ ([.alloc 600, .alloc 600, .free 601, .free 1].foldl Config.next
        onePage).Conserved := by decide +kernel
    exact lost (always _ both)
  · exact absurd (always [⟨601, 600⟩, ⟨1, 600⟩]) (by decide +kernel)

end Extism.Otoroshi
