import Extism.Otoroshi.Run

/-!
# When the guest allocator hands out a byte twice

The compaction in `free` goes through the free list and pushes the union of two
neighbours of the list that meet.  The first of the two stays where it was
pushed: the first block of the list always was, and a block that meets the one
before it was pushed with that.  So a list whose first two blocks meet, or three
of whose blocks meet in a row, leaves bytes in the list twice, and `alloc` hands
them out twice.  On any other list the compaction keeps blocks apart, and so do
all the other calls.

## Main definitions

* `MemoryBlock.Apart`, `Config.NoOverlap` — no byte is in both, and no two of the
  blocks handed out and the free ones overlap.
* `Unchained`, `Config.Careful` — no block that was pushed already meets the next
  one, and a call that compacts the free list finds it so.
* `Config.Orderly` — blocks are apart, and the map lists what was handed out.

## Main results

* `compactFrom_pairwise_iff`, `compact_pairwise_iff` — a compaction keeps blocks
  apart exactly if the list is unchained.
* `Config.NoOverlap.alloc` — an allocation keeps blocks apart.
* `Config.Orderly.noOverlap_next_iff` — a step leaves blocks apart exactly if it is
  careful.
* `noOverlap_iff_careful` — blocks are apart as long as all calls are careful, and
  overlap with the first that is not.
-/

namespace Extism.Otoroshi

namespace MemoryBlock

/-- No byte is in both. -/
def Apart (a b : MemoryBlock) : Prop :=
  a.offset + a.length ≤ b.offset ∨ b.offset + b.length ≤ a.offset

instance (a b : MemoryBlock) : Decidable (a.Apart b) := inferInstanceAs (Decidable (_ ∨ _))

theorem Apart.symm {a b : MemoryBlock} (apart : a.Apart b) : b.Apart a := Or.symm apart

/-- What is apart from two blocks that meet is apart from their union. -/
theorem Apart.union {a b x : MemoryBlock} (left : x.Apart a) (right : x.Apart b)
    (positive : 1 ≤ x.length) (meets : a.offset + a.length = b.offset) :
    x.Apart ⟨a.offset, a.length + b.length⟩ := by
  simp only [Apart] at *
  omega

/-- Neither block is apart from itself, nor from what contains its last byte. -/
theorem not_apart_of_mem {a b : MemoryBlock} (positive : 1 ≤ a.length)
    (starts : b.offset < a.offset + a.length) (ends : a.offset + a.length ≤ b.offset + b.length) :
    ¬ a.Apart b := by
  simp only [Apart]
  omega

end MemoryBlock

open MemoryBlock

/-- No two of the blocks handed out and the free ones overlap. -/
def Config.NoOverlap (c : Config) : Prop := (c.held ++ c.memory.free).Pairwise Apart

instance : DecidablePred Config.NoOverlap := fun c =>
  inferInstanceAs (Decidable ((c.held ++ c.memory.free).Pairwise Apart))

/-- No block that was pushed already meets the next one.  The flag tells whether
the first one was: a later block was if it meets the one before it. -/
def Unchained : Bool → List MemoryBlock → Prop
  | pushed, a :: b :: rest =>
      if a.offset + a.length = b.offset then pushed = false ∧ Unchained true (b :: rest)
      else Unchained false (b :: rest)
  | _, _ => True

instance Unchained.decidable : ∀ pushed blocks, Decidable (Unchained pushed blocks)
  | _, [] => .isTrue trivial
  | _, [_] => .isTrue trivial
  | pushed, a :: b :: rest =>
      have := Unchained.decidable true (b :: rest)
      have := Unchained.decidable false (b :: rest)
      inferInstanceAs (Decidable (if a.offset + a.length = b.offset
        then pushed = false ∧ Unchained true (b :: rest) else Unchained false (b :: rest)))

/-- If the call compacts the free list, no block the compaction pushed already
meets the next one. -/
def Config.Careful (c : Config) : Call → Prop
  | .free offset =>
      ∀ block ∈ c.memory.liveBlocks.get offset,
        1024 ≤ total (c.memory.free ++ [block]) → Unchained true (c.memory.free ++ [block])
  | _ => True

instance (c : Config) : DecidablePred c.Careful
  | .alloc _ => .isTrue trivial
  | .free offset => inferInstanceAs (Decidable (∀ block ∈ c.memory.liveBlocks.get offset,
      1024 ≤ total (c.memory.free ++ [block]) → Unchained true (c.memory.free ++ [block])))
  | .reset => .isTrue trivial

/-! ## Compaction -/

/-- What is apart from every block of a list is apart from what a compaction
makes of it. -/
theorem apart_collect {x : MemoryBlock} (positive : 1 ≤ x.length) {blocks : List MemoryBlock}
    (apart : ∀ b ∈ blocks, x.Apart b) : ∀ b ∈ free.collect blocks, x.Apart b :=
  free.collect_forall (fun _ _ left right meets => left.union right positive meets) apart

/-- **The loop of the compaction.**  `last` is the block before, and `pushed`
what was pushed last, if `last` went into it. -/
theorem compactFrom_pairwise_iff {last : MemoryBlock} {blocks : List MemoryBlock}
    (apart : (last :: blocks).Pairwise Apart) (positive : ∀ b ∈ last :: blocks, 1 ≤ b.length) :
    ((free.compactFrom (some last) blocks).Pairwise Apart ↔ Unchained false (last :: blocks)) ∧
      ∀ {pushed : MemoryBlock}, pushed.offset ≤ last.offset →
        pushed.offset + pushed.length = last.offset + last.length →
        (∀ b ∈ blocks, pushed.Apart b) →
        ((pushed :: free.compactFrom (some last) blocks).Pairwise Apart ↔
          Unchained true (last :: blocks)) := by
  induction blocks generalizing last with
  | nil => simp [free.compactFrom, Unchained]
  | cons block rest ih =>
      obtain ⟨lastApart, restApart⟩ := List.pairwise_cons.1 apart
      obtain ⟨lastPositive, restPositive⟩ := List.forall_mem_cons.1 positive
      obtain ⟨apart', pushed'⟩ := ih restApart restPositive
      rw [free.compactFrom]
      by_cases meets : last.offset + last.length = block.offset
      · -- the union is pushed, and contains `block`
        have union : (⟨last.offset, last.length + block.length⟩ ::
            free.compactFrom (some block) rest).Pairwise Apart ↔
              Unchained true (block :: rest) := by
          refine pushed' (by simp only; omega) (by simp only; omega) fun b mem => ?_
          have here := List.forall_mem_cons.1 lastApart
          have there := (List.pairwise_cons.1 restApart).1 b mem
          have positive' := restPositive b (List.mem_cons_of_mem _ mem)
          exact ((here.2 b mem).symm.union there.symm positive' meets).symm
        refine ⟨by simpa [meets, Unchained] using union, fun {pushed} before ends _ => ?_⟩
        -- so does what was pushed before
        have overlaps : ¬ pushed.Apart ⟨last.offset, last.length + block.length⟩ :=
          not_apart_of_mem (by omega) (by simp only; omega) (by simp only; omega)
        simp [meets, Unchained, overlaps]
      · refine ⟨by simpa [meets, Unchained] using apart', fun {pushed} before ends away => ?_⟩
        have pushedPositive : 1 ≤ pushed.length := by omega
        have away' : ∀ b ∈ free.compactFrom (some block) rest, pushed.Apart b :=
          free.compactFrom_forall
            (fun _ _ left right meets => left.union right pushedPositive meets)
            (away block List.mem_cons_self) fun b mem => away b (List.mem_cons_of_mem _ mem)
        simp only [meets, Unchained, if_false, List.pairwise_cons]
        rwa [and_iff_right away']

/-- **A compaction** keeps blocks apart exactly if the list is unchained. -/
theorem compact_pairwise_iff {blocks : List MemoryBlock} (apart : blocks.Pairwise Apart)
    (positive : ∀ b ∈ blocks, 1 ≤ b.length) :
    (free.compact blocks).Pairwise Apart ↔ Unchained true blocks := by
  cases blocks with
  | nil => simp [free.compact, free.compactFrom, Unchained]
  | cons block rest =>
      exact (compactFrom_pairwise_iff apart positive).2 (Nat.le_refl _) rfl
        (List.pairwise_cons.1 apart).1

theorem collect_pairwise_iff {blocks : List MemoryBlock} (apart : blocks.Pairwise Apart)
    (positive : ∀ b ∈ blocks, 1 ≤ b.length) :
    (free.collect blocks).Pairwise Apart ↔ (1024 ≤ total blocks → Unchained true blocks) := by
  rw [free.collect]
  split
  case isTrue large => simpa [large] using compact_pairwise_iff apart positive
  case isFalse small => simpa [small] using apart

/-! ## A step -/

theorem pairwise_iff_of_perm {xs ys : List MemoryBlock} (perm : xs.Perm ys) :
    xs.Pairwise Apart ↔ ys.Pairwise Apart :=
  perm.pairwise_iff Apart.symm

/-- **An allocation** keeps blocks apart, empty ones too. -/
theorem Config.NoOverlap.alloc {c : Config} (apart : c.NoOverlap)
    (ends : ∀ b ∈ c.held ++ c.memory.free, b.offset + b.length ≤ c.memory.position) (n : ℕ) :
    (c.next (.alloc n)).NoOverlap := by
  have spec := alloc_spec c.memory n
  rw [Config.next]
  generalize Otoroshi.alloc n c.memory = r at spec
  obtain ⟨r, m'⟩ := r
  cases spec with
  | @whole block rest free' _ before exact after =>
      -- the block goes from one list to the other
      have moved : (c.held ++ c.memory.free).Perm (block :: c.held ++ free') :=
        (before.append_left _).trans (List.perm_middle.trans ((after.symm.append_left _).cons _))
      exact (pairwise_iff_of_perm moved).1 apart
  | @split block rest free' _ before loose after =>
      have moved : (c.held ++ c.memory.free).Perm (block :: (c.held ++ rest)) :=
        (before.append_left _).trans List.perm_middle
      obtain ⟨away, others⟩ := List.pairwise_cons.1 ((pairwise_iff_of_perm moved).1 apart)
      have apart' : (⟨block.offset, n⟩ :: ⟨block.offset + n, block.length - n⟩ ::
          (c.held ++ rest)).Pairwise Apart := by
        refine .cons ?_ (.cons ?_ others)
        · rintro b (_ | ⟨_, mem⟩)
          · exact .inl (Nat.le_refl _)
          · have := away b mem
            simp only [Apart] at this ⊢
            omega
        · intro b mem
          have := away b mem
          simp only [Apart] at this ⊢
          omega
      have moved' : (⟨block.offset, n⟩ :: ⟨block.offset + n, block.length - n⟩ ::
          (c.held ++ rest)).Perm (⟨block.offset, n⟩ :: c.held ++ free') :=
        (List.perm_middle.symm.trans (after.symm.append_left _)).cons _
      exact (pairwise_iff_of_perm moved').1 apart'
  | appended _ _ _ => exact .cons (fun b mem => .inr (ends b mem)) apart
  | refused _ => exact apart

/-- A block whose offset no entry has becomes the first entry. -/
theorem LiveBlocks.insert_eq_cons {blocks : LiveBlocks} {block : MemoryBlock}
    (new : ∀ b ∈ blocks, b.offset ≠ block.offset) : blocks.insert block = block :: blocks := by
  rw [LiveBlocks.insert, LiveBlocks.remove_of_get_eq_none (LiveBlocks.get_eq_none.2 new)]

/-- What an allocation does to the map. -/
theorem live_alloc {c : Config} {n : ℕ} {block : MemoryBlock} {memory : PluginMemory}
    (run : alloc n c.memory = (.ok block, memory)) :
    memory.liveBlocks = c.memory.liveBlocks.insert block ∧ block.length = n := by
  have spec := alloc_spec c.memory n
  rw [run] at spec
  cases spec with
  | whole _ _ exact _ => exact ⟨rfl, exact⟩
  | split => exact ⟨rfl, rfl⟩
  | appended => exact ⟨rfl, rfl⟩

/-- A `free` takes the same blocks from the map and from those handed out. -/
theorem live_free {c : Config} (live : c.memory.liveBlocks = c.held) (offset : ℕ) :
    (c.next (.free offset)).memory.liveBlocks = (c.next (.free offset)).held := by
  have same : LiveBlocks.remove c.held offset = c.held.filter (·.offset ≠ offset) := rfl
  rw [Config.next, ← same, ← live, Otoroshi.free]
  split
  case h_1 => rfl
  case h_2 absent => exact (LiveBlocks.remove_of_get_eq_none absent).symm

/-- The block freed goes to the end of the free list. -/
theorem perm_of_free {c : Config} (live : c.memory.liveBlocks = c.held)
    (keys : (c.held.map MemoryBlock.offset).Nodup) {offset : ℕ} {block : MemoryBlock}
    (found : c.memory.liveBlocks.get offset = some block) :
    (c.held ++ c.memory.free).Perm
      (c.memory.liveBlocks.remove offset ++ (c.memory.free ++ [block])) := by
  rw [live] at found ⊢
  have taken := LiveBlocks.perm_of_get keys found
  exact (taken.append_right _).trans (List.perm_middle.symm.trans
    ((List.perm_append_singleton block c.memory.free).symm.append_left _))

/-- Blocks are apart, and the map lists what was handed out. -/
structure Config.Orderly (c : Config) : Prop where
  sane : Sane c.memory
  live : c.memory.liveBlocks = c.held
  apart : c.NoOverlap

namespace Config.Orderly

variable {c : Config}

/-- A block apart from those handed out has an offset of its own. -/
theorem insert_eq_cons (orderly : c.Orderly) {block : MemoryBlock} (positive : 1 ≤ block.length)
    (away : ∀ b ∈ c.held, block.Apart b) :
    c.memory.liveBlocks.insert block = block :: c.held := by
  rw [orderly.live]
  refine LiveBlocks.insert_eq_cons fun b mem => ?_
  have apart := away b mem
  obtain ⟨positive', -⟩ := orderly.sane.live b (orderly.live ▸ mem)
  simp only [Apart] at apart
  omega

theorem alloc (orderly : c.Orderly) {n : ℕ} (sized : 1 ≤ n) : (c.next (.alloc n)).Orderly := by
  have sane : Sane (c.next (.alloc n)).memory := orderly.sane.next sized
  have apart : (c.next (.alloc n)).NoOverlap := orderly.apart.alloc (fun b mem => by
    rcases List.mem_append.1 mem with mem | mem
    · exact (orderly.sane.live b (orderly.live ▸ mem)).2
    · exact (orderly.sane.listed b mem).2) n
  refine ⟨sane, ?_, apart⟩
  rw [Config.next] at apart ⊢
  rcases run : Otoroshi.alloc n c.memory with ⟨_ | block, memory⟩
  · have spec := alloc_spec c.memory n
    rw [run] at spec
    cases spec
    exact orderly.live
  · rw [run] at apart
    obtain ⟨inserted, length⟩ := live_alloc run
    obtain ⟨away, -⟩ := List.pairwise_cons.1 (List.pairwise_append.1 apart).1
    simp only [inserted]
    exact orderly.insert_eq_cons (by omega) away

theorem noOverlap_free_iff (orderly : c.Orderly) (offset : ℕ) :
    (c.next (.free offset)).NoOverlap ↔ c.Careful (.free offset) := by
  rw [Config.NoOverlap, ← live_free orderly.live, Config.Careful, Config.next, Otoroshi.free]
  cases found : c.memory.liveBlocks.get offset with
  | none =>
      have apart : (c.held ++ c.memory.free).Pairwise Apart := orderly.apart
      simpa [orderly.live] using apart
  | some block =>
      obtain ⟨liveApart, freeApart, between⟩ := List.pairwise_append.1
        ((pairwise_iff_of_perm (perm_of_free orderly.live
          (orderly.live ▸ orderly.sane.keys) found)).1 orderly.apart)
      have positive : ∀ b ∈ c.memory.free ++ [block], 1 ≤ b.length := by
        intro b mem
        rcases List.mem_append.1 mem with mem | mem
        · exact (orderly.sane.listed b mem).1
        · rw [List.mem_singleton.1 mem]
          exact (orderly.sane.live block (LiveBlocks.of_get found).1).1
      have away : ∀ b ∈ c.memory.liveBlocks.remove offset,
          ∀ b' ∈ free.collect (c.memory.free ++ [block]), b.Apart b' := fun b mem =>
        apart_collect (orderly.sane.live b (LiveBlocks.mem_remove.1 mem).1).1 (between b mem)
      calc ((c.memory.liveBlocks.remove offset) ++
            free.collect (c.memory.free ++ [block])).Pairwise Apart
          ↔ (free.collect (c.memory.free ++ [block])).Pairwise Apart := by
            rw [List.pairwise_append]
            exact ⟨fun h => h.2.1, fun h => ⟨liveApart, h, away⟩⟩
        _ ↔ _ := by
            rw [collect_pairwise_iff freeApart positive]
            simp

/-- **A step** leaves blocks apart exactly if it is careful. -/
theorem noOverlap_next_iff (orderly : c.Orderly) {call : Call} (sized : call.Sized) :
    (c.next call).NoOverlap ↔ c.Careful call := by
  cases call with
  | alloc n => exact iff_of_true (orderly.alloc sized).apart trivial
  | free offset => exact orderly.noOverlap_free_iff offset
  | reset => exact iff_of_true .nil trivial

theorem next (orderly : c.Orderly) {call : Call} (sized : call.Sized)
    (careful : c.Careful call) : (c.next call).Orderly := by
  have apart := (orderly.noOverlap_next_iff sized).2 careful
  have sane := orderly.sane.next sized
  cases call with
  | alloc n => exact orderly.alloc sized
  | free offset => exact ⟨sane, live_free orderly.live offset, apart⟩
  | reset => exact ⟨sane, rfl, apart⟩

end Config.Orderly

/-! ## Runs -/

theorem orderly_of_careful {c : Config} (reach : (pluginRuns.restrict Config.Careful).Reachable c) :
    c.Orderly := by
  refine reach.invariant ?_ ?_
  · rintro _ ⟨memory, rfl⟩
    exact ⟨.new memory, rfl, .nil⟩
  · rintro c _ call orderly ⟨careful, sized, rfl⟩
    exact orderly.next sized careful

/-- **When a byte is handed out twice.**  In a run whose calls have all been
careful no two blocks overlap, and the next call keeps it so exactly if it is
careful. -/
theorem noOverlap_iff_careful {c : Config}
    (reach : (pluginRuns.restrict Config.Careful).Reachable c) :
    c.NoOverlap ∧ ∀ {call : Call} {c' : Config}, pluginRuns.step c call c' →
      (c'.NoOverlap ↔ c.Careful call) := by
  have orderly := orderly_of_careful reach
  refine ⟨orderly.apart, ?_⟩
  rintro call _ ⟨sized, rfl⟩
  exact orderly.noOverlap_next_iff sized

/-- Two neighbours freed from the right: the first block of the free list begins
where the second ends. -/
theorem noOverlap_iff_careful_after_free :
    let c := [.alloc 600, .alloc 600, .free 601].foldl Config.next onePage
    c.NoOverlap ∧ ((c.next (.free 1)).NoOverlap ↔ c.Careful (.free 1)) := by
  have start : (pluginRuns.restrict Config.Careful).Reachable onePage := .of_init ⟨_, rfl⟩
  have once := reachable_next_of_ok start (.alloc 600) (by decide) trivial
  have twice := reachable_next_of_ok once (.alloc 600) (by decide) trivial
  have freed := reachable_next_of_ok twice (.free 601) trivial (by decide +kernel)
  have result := noOverlap_iff_careful freed
  exact ⟨result.1, result.2 ⟨trivial, rfl⟩⟩

/-- Freed from the left they meet: the first stays in the list beside the union,
and the next two allocations return both. -/
theorem not_noOverlap_always : ¬ ∀ c, pluginRuns.Reachable c → c.NoOverlap := by
  intro always
  have start : pluginRuns.Reachable onePage := .of_init ⟨_, rfl⟩
  have once := reachable_next start (.alloc 512) (by decide)
  have twice := reachable_next once (.alloc 512) (by decide)
  have left := reachable_next twice (.free 1) trivial
  have both := reachable_next left (.free 513) trivial
  have again := reachable_next both (.alloc 512) (by decide)
  have union := reachable_next again (.alloc 1024) (by decide)
  have overlap : ¬ ([.alloc 512, .alloc 512, .free 1, .free 513, .alloc 512,
      .alloc 1024].foldl Config.next onePage).held.Pairwise Apart := by decide +kernel
  exact overlap (List.pairwise_append.1 (always _ union)).1

end Extism.Otoroshi
