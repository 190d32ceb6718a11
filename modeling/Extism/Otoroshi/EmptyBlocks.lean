import Extism.Otoroshi.Bounds
import Extism.Otoroshi.NoOverlap
import Mathlib.Data.List.Nodup

/-!
# Empty blocks of the guest allocator

`alloc` serves a request for no bytes too.  The empty block takes no room, so
the next request is answered at the same offset, and the map of live blocks has
one entry for the two: the later length.  Below the compaction threshold nothing
else goes wrong.  Blocks stay apart, empty ones included, and an allocation
returns an offset that is held exactly if an empty block is at that offset:
one that is held, or the free block the request is served with.

## Main definitions

* `smallRuns` — the runs below the compaction threshold.
* `Config.Distinct` — every block held has an offset of its own, and the allocator
  knows its length.
* `Config.target`, `Config.Clear` — the offset an allocation returns, and that no
  empty block is in its way.
* `Config.Tidy` — the invariant of clear runs.

## Main results

* `Config.Tidy.clear_iff` — only an empty block shares its offset with a block
  apart from it.
* `Config.Tidy.alloc`, `Config.Tidy.next` — one step keeps the blocks held distinct
  exactly if it is clear.
* `distinct_iff_clear` — when two blocks share an offset.
-/

namespace Extism.Otoroshi

open MemoryBlock

/-- A call on what is held: any allocation, and a `free` of a block held that
leaves fewer free bytes than a compaction takes. -/
def Config.Small (c : Config) : Call → Prop
  | .alloc _ => True
  | .free offset =>
      (∃ block ∈ c.held, block.offset = offset) ∧
        ∀ block ∈ c.memory.liveBlocks.get offset, total (c.memory.free ++ [block]) < 1024
  | .reset => False

instance (c : Config) : DecidablePred c.Small
  | .alloc _ => .isTrue trivial
  | .free offset => inferInstanceAs (Decidable ((∃ block ∈ c.held, block.offset = offset) ∧
      ∀ block ∈ c.memory.liveBlocks.get offset, total (c.memory.free ++ [block]) < 1024))
  | .reset => .isFalse id

/-- The runs below the compaction threshold. -/
def smallRuns : TransitionSystem Config Call where
  init c := ∃ memory, c = ⟨.new memory, []⟩
  step c call c' := c.Small call ∧ c.next call = c'

/-- **Every block held has an offset of its own**, and the allocator knows its
length. -/
structure Config.Distinct (c : Config) : Prop where
  offsets : (c.held.map MemoryBlock.offset).Nodup
  lengths : ∀ block ∈ c.held, blockLength c.memory block.offset = some block.length

/-- **No empty block is in the way** of an allocation: none is held at the offset
it returns, and the free block it is served with is not an empty one at the
offset of a block held. -/
def Config.Clear (c : Config) : Call → Prop
  | .alloc n =>
      match c.memory.free.find? (alloc.usable n) with
      | some block => ∀ b ∈ c.held, b.length = 0 ∨ block.length = 0 → b.offset ≠ block.offset
      | none => c.memory.HasRoom n → ∀ b ∈ c.held, b.length = 0 → b.offset ≠ c.memory.position
  | _ => True

/-- The offset an allocation returns, if it returns one. -/
def Config.target (c : Config) (n : ℕ) : ℕ :=
  match c.memory.free.find? (alloc.usable n) with
  | some block => block.offset
  | none => c.memory.position

/-! ## A step -/

/-- Blocks are apart, have been handed out before, and the map lists those held,
with an offset of its own for each. -/
structure Config.Tidy (c : Config) : Prop where
  live : c.memory.liveBlocks = c.held
  offsets : (c.held.map MemoryBlock.offset).Nodup
  apart : c.NoOverlap
  ends : ∀ block ∈ c.held ++ c.memory.free, block.offset + block.length ≤ c.memory.position

theorem LiveBlocks.get_of_mem {blocks : LiveBlocks} (keys : (blocks.map MemoryBlock.offset).Nodup)
    {block : MemoryBlock} (mem : block ∈ blocks) : blocks.get block.offset = some block := by
  cases found : blocks.get block.offset with
  | none => exact absurd rfl (get_eq_none.1 found block mem)
  | some other =>
      obtain ⟨mem', same⟩ := of_get found
      rw [List.inj_on_of_nodup_map keys mem' mem same]

theorem reuse_eq_none {n : ℕ} {free : List MemoryBlock}
    (none : free.find? (alloc.usable n) = none) : alloc.reuse n free = .none := by
  rcases reuse_cases n free with ⟨-, reuse⟩ | ⟨block, i, first, -⟩
  · exact reuse
  · simp [none] at first

/-- What a successful allocation returns. -/
theorem target_of_alloc {c : Config} {n : ℕ} {block : MemoryBlock} {memory : PluginMemory}
    (run : alloc n c.memory = (.ok block, memory)) : block.offset = c.target n := by
  have spec := alloc_spec c.memory n
  rw [run] at spec
  cases spec with
  | whole first _ _ _ => rw [Config.target, first]
  | split first _ _ _ => rw [Config.target, first]
  | appended none _ _ => rw [Config.target, none]

namespace Config.Tidy

variable {c : Config}

theorem distinct (tidy : c.Tidy) : c.Distinct where
  offsets := tidy.offsets
  lengths := fun block mem => by
    rw [blockLength, tidy.live, LiveBlocks.get_of_mem tidy.offsets mem]
    rfl

theorem apart_of_mem (tidy : c.Tidy) {a b : MemoryBlock} (held : a ∈ c.held)
    (listed : b ∈ c.memory.free) : a.Apart b :=
  (List.pairwise_append.1 tidy.apart).2.2 a held b listed

/-- Only an empty block shares its offset with a block apart from it. -/
theorem clear_iff (tidy : c.Tidy) {n : ℕ} (ok : (alloc n c.memory).1.isOk) :
    c.Clear (.alloc n) ↔ ∀ b ∈ c.held, b.offset ≠ c.target n := by
  rw [Config.Clear, Config.target]
  cases found : c.memory.free.find? (alloc.usable n) with
  | some block =>
      refine ⟨fun clear b mem same => ?_, fun fresh b mem _ => fresh b mem⟩
      have apart := tidy.apart_of_mem mem (List.mem_of_find?_eq_some found)
      have same' : b.offset = block.offset := same
      refine clear b mem ?_ same
      simp only [Apart] at apart
      omega
  | none =>
      have room := (alloc_isOk_iff (reuse_eq_none found)).1 ok
      refine ⟨fun clear b mem same => ?_, fun fresh _ b mem _ => fresh b mem⟩
      have ends := tidy.ends b (List.mem_append_left _ mem)
      have same' : b.offset = c.memory.position := same
      exact clear room b mem (by omega) same

/-- An allocation that fails is clear: no free block served it, and there was no
room. -/
theorem clear_of_error {n : ℕ} {e : AllocError} {memory : PluginMemory}
    (run : alloc n c.memory = (.error e, memory)) : c.Clear (.alloc n) := by
  have spec := alloc_spec c.memory n
  rw [run] at spec
  cases spec with
  | refused none =>
      rw [Config.Clear, none]
      intro room
      have ok := (alloc_isOk_iff (reuse_eq_none none)).2 room
      simp [run, Except.isOk, Except.toBool] at ok

theorem ends_alloc (tidy : c.Tidy) (n : ℕ) :
    ∀ b ∈ (c.next (.alloc n)).held ++ (c.next (.alloc n)).memory.free,
      b.offset + b.length ≤ (c.next (.alloc n)).memory.position := by
  have spec := alloc_spec c.memory n
  rw [Config.next]
  generalize Otoroshi.alloc n c.memory = r at spec
  obtain ⟨r, m'⟩ := r
  have held : ∀ b ∈ c.held, b.offset + b.length ≤ c.memory.position :=
    fun b mem => tidy.ends b (List.mem_append_left _ mem)
  have listed : ∀ b ∈ c.memory.free, b.offset + b.length ≤ c.memory.position :=
    fun b mem => tidy.ends b (List.mem_append_right _ mem)
  cases spec with
  | @whole block rest free' _ before exact after =>
      have mem : ∀ b ∈ block :: rest, b.offset + b.length ≤ c.memory.position :=
        fun b h => listed b (before.mem_iff.2 h)
      simp only [List.cons_append, List.forall_mem_cons, List.forall_mem_append]
      exact ⟨mem block List.mem_cons_self, held,
        fun b h => mem b (List.mem_cons_of_mem _ (after.mem_iff.1 h))⟩
  | @split block rest free' _ before loose after =>
      have mem : ∀ b ∈ block :: rest, b.offset + b.length ≤ c.memory.position :=
        fun b h => listed b (before.mem_iff.2 h)
      have ends := mem block List.mem_cons_self
      simp only [List.cons_append, List.forall_mem_cons, List.forall_mem_append]
      refine ⟨by omega, held, fun b h => ?_⟩
      rcases List.mem_cons.1 (after.mem_iff.1 h) with rfl | h
      · simp only
        omega
      · exact mem b (List.mem_cons_of_mem _ h)
  | appended _ _ _ =>
      simp only [List.cons_append, List.forall_mem_cons, List.forall_mem_append]
      exact ⟨Nat.le_refl _, fun b h => Nat.le_add_right_of_le (held b h),
        fun b h => Nat.le_add_right_of_le (listed b h)⟩
  | refused _ => exact tidy.ends

/-- **An allocation** keeps the blocks held distinct exactly if it is clear. -/
theorem alloc (tidy : c.Tidy) (n : ℕ) :
    ((c.next (.alloc n)).Distinct ↔ c.Clear (.alloc n)) ∧
      (c.Clear (.alloc n) → (c.next (.alloc n)).Tidy) := by
  have apart := tidy.apart.alloc tidy.ends n
  have ends := tidy.ends_alloc n
  rcases run : Otoroshi.alloc n c.memory with ⟨e | block, memory⟩
  · have spec := alloc_spec c.memory n
    rw [run] at spec
    have clear := clear_of_error run
    have next : (c.next (.alloc n)).Tidy := by
      rw [Config.next, run] at apart ends ⊢
      cases spec
      exact ⟨tidy.live, tidy.offsets, apart, ends⟩
    exact ⟨iff_of_true next.distinct clear, fun _ => next⟩
  · have clear_iff := tidy.clear_iff (n := n) (by rw [run]; rfl)
    rw [← target_of_alloc run] at clear_iff
    have next_eq : c.next (.alloc n) = ⟨memory, block :: c.held⟩ := by rw [Config.next, run]
    rw [next_eq] at apart ends ⊢
    have next : c.Clear (.alloc n) → Config.Tidy ⟨memory, block :: c.held⟩ := by
      intro clear
      have fresh := clear_iff.1 clear
      refine ⟨?_, ?_, apart, ends⟩
      · rw [(live_alloc run).1, tidy.live]
        exact LiveBlocks.insert_eq_cons fresh
      · refine List.nodup_cons.2 ⟨?_, tidy.offsets⟩
        rintro taken
        obtain ⟨b, mem, same⟩ := List.mem_map.1 taken
        exact fresh b mem same
    refine ⟨⟨fun distinct => clear_iff.2 fun b mem same => ?_, fun clear => (next clear).distinct⟩,
      next⟩
    -- an offset held already is there twice
    have twice := (List.nodup_cons.1 distinct.offsets).1
    exact twice (List.mem_map.2 ⟨b, mem, same⟩)

theorem free (tidy : c.Tidy) {offset : ℕ} (small : c.Small (.free offset)) :
    (c.next (.free offset)).Tidy := by
  have live := live_free tidy.live offset
  obtain ⟨⟨block, mem, rfl⟩, below⟩ := small
  have found : c.memory.liveBlocks.get block.offset = some block := by
    rw [tidy.live]
    exact LiveBlocks.get_of_mem tidy.offsets mem
  have kept : free.collect (c.memory.free ++ [block]) = c.memory.free ++ [block] :=
    if_neg (Nat.not_le.2 (below block found))
  have moved := perm_of_free tidy.live tidy.offsets found
  have next_eq : c.next (.free block.offset) =
      ⟨{ c.memory with
          liveBlocks := c.memory.liveBlocks.remove block.offset
          free := c.memory.free ++ [block] }, c.held.filter (·.offset ≠ block.offset)⟩ := by
    rw [Config.next, Otoroshi.free, found]
    simp only [kept]
  have same : c.memory.liveBlocks.remove block.offset =
      c.held.filter (·.offset ≠ block.offset) := by
    rw [next_eq] at live
    exact live
  rw [next_eq]
  refine ⟨same, tidy.offsets.sublist (List.filter_sublist.map _), ?_, ?_⟩
  · rw [Config.NoOverlap, ← same]
    exact (pairwise_iff_of_perm moved).1 tidy.apart
  · rw [← same]
    exact fun b mem => tidy.ends b (moved.mem_iff.2 mem)

/-- **A step** keeps the blocks held distinct exactly if it is clear. -/
theorem next (tidy : c.Tidy) {call : Call} (small : c.Small call) :
    ((c.next call).Distinct ↔ c.Clear call) ∧ (c.Clear call → (c.next call).Tidy) := by
  cases call with
  | alloc n => exact tidy.alloc n
  | free offset =>
      have next := tidy.free small
      exact ⟨iff_of_true next.distinct trivial, fun _ => next⟩
  | reset => exact small.elim

end Config.Tidy

/-! ## Runs -/

theorem tidy_of_clear {c : Config} (reach : (smallRuns.restrict Config.Clear).Reachable c) :
    c.Tidy := by
  refine reach.invariant ?_ ?_
  · rintro _ ⟨memory, rfl⟩
    exact ⟨rfl, .nil, .nil, by simp [PluginMemory.new]⟩
  · rintro c _ call tidy ⟨clear, small, rfl⟩
    exact (tidy.next small).2 clear

/-- **When two blocks share an offset.**  In a run below the compaction threshold
whose allocations have all been clear of empty blocks, every block held has an
offset of its own and keeps its length, and the next call keeps it so exactly if
it is clear. -/
theorem distinct_iff_clear {c : Config}
    (reach : (smallRuns.restrict Config.Clear).Reachable c) :
    c.Distinct ∧
      (∀ {n : ℕ} {block : MemoryBlock} {memory : PluginMemory},
        alloc n c.memory = (.ok block, memory) → block.length = n) ∧
      ∀ {call : Call} {c' : Config}, smallRuns.step c call c' →
        (c'.Distinct ↔ c.Clear call) := by
  have tidy := tidy_of_clear reach
  refine ⟨tidy.distinct, fun run => (live_alloc run).2, ?_⟩
  rintro call _ ⟨small, rfl⟩
  exact (tidy.next small).1

/-- An empty block held at the position. -/
theorem distinct_iff_clear_after_empty :
    let c := onePage.next (.alloc 0)
    c.Distinct ∧ ((c.next (.alloc 5)).Distinct ↔ c.Clear (.alloc 5)) := by
  have start : (smallRuns.restrict Config.Clear).Reachable onePage := .of_init ⟨_, rfl⟩
  have clear : onePage.Clear (.alloc 0) := fun _ _ mem => absurd mem List.not_mem_nil
  have result := distinct_iff_clear (start.step (l := .alloc 0) ⟨clear, trivial, rfl⟩)
  exact ⟨result.1, result.2.2 ⟨trivial, rfl⟩⟩

/-- The next allocation returns its offset, and its length is forgotten. -/
theorem not_distinct_always : ¬ ∀ c, smallRuns.Reachable c → c.Distinct := by
  intro always
  have start : smallRuns.Reachable onePage := .of_init ⟨_, rfl⟩
  have empty : smallRuns.Reachable (onePage.next (.alloc 0)) :=
    start.step (l := .alloc 0) ⟨trivial, rfl⟩
  have five : smallRuns.Reachable ((onePage.next (.alloc 0)).next (.alloc 5)) :=
    empty.step (l := .alloc 5) ⟨trivial, rfl⟩
  have twice : ((onePage.next (.alloc 0)).next (.alloc 5)).held = [⟨1, 5⟩, ⟨1, 0⟩] := by
    decide +kernel
  have offsets := (always _ five).offsets
  rw [twice] at offsets
  exact absurd offsets (by decide)

end Extism.Otoroshi
