import Extism.Kernel.Layout

/-!
# Live blocks are isolated

Two blocks handed out never overlap, no block overlaps the root or a header, and
what a caller keeps in a block stays there.  The second part is a frame
property of runs: while a block is live, a byte of it changes only under a call
that stores into that very block.  It is stated along the runs in which the block
stays live, whatever else is allocated, freed and written in them.

## Main definitions

* `Apart` — two byte ranges do not overlap.
* `Isolated` — the live blocks are apart from each other, the root and all headers.
* `Call.StoresInto` — a call stores to a byte, and to one block only.
* `runsKeeping` — the runs in which a block stays live.

## Main results

* `Sound.bytes_eq_of_step` — one step changes a byte of a block that stays live
  only by storing into that block.
* `isolation` — live blocks are isolated in every configuration reached, and their
  bytes stay along every continuation.
-/

namespace Extism.Kernel

open FirstFit (Cell Format)

/-- Two byte ranges, given by start and length, do not overlap. -/
def Apart (x y : ℕ × ℕ) : Prop := x.1 + x.2 ≤ y.1 ∨ y.1 + y.2 ≤ x.1

/-- **Isolation** of the blocks `live` in the memory `m`. -/
structure Isolated (m : Instance) (live : List (ℕ × ℕ)) : Prop where
  blocks : live.Pairwise Apart
  root : ∀ x ∈ live, Apart (1, MemoryRoot.sizeOf) x
  headers : ∀ bs, Walk m MemoryRoot.blocks bs
      (MemoryRoot.blocks + m.peek 8 MemoryRoot.position) →
    ∀ x ∈ live, ∀ b ∈ bs, Apart (b, MemoryBlock.sizeOf) x
  inside : ∀ x ∈ live, x.1 + x.2 ≤ m.size

/-- The call stores to the byte at `x`, and to the block of `n` bytes at `h`
only. -/
def Call.StoresInto (c : Call) (h n x : ℕ) : Prop :=
  ∃ s, c.span = some s ∧ (s.1 ≤ x ∧ x < s.1 + s.2) ∧ h ≤ s.1 ∧ s.1 + s.2 ≤ h + n

/-- The runs in which the block of `n` bytes at `h` stays live. -/
def runsKeeping (h n : ℕ) : TransitionSystem Config (Call × ℕ) :=
  confinedRuns.restrict fun c l => (h, n) ∈ (c.ledger.after l.1 l.2).live

/-- A call other than `reset` changes a byte of a held block only by storing into
that block. -/
theorem Outcome.bytes_eq {m m' : Instance} {cs cs' : List Cell} {call : Call} {v b n x : ℕ}
    (O : Outcome m cs call v m' cs') (R : Represents m.boot cs) (booted : m.boot = m)
    (held : heap.Held MemoryRoot.blocks cs b n) (lo : b + 12 ≤ x) (hi : x < b + 12 + n)
    (noReset : call ≠ .reset) (quiet : ¬ call.StoresInto (b + 12) n x) :
    m'.bytes x = m.bytes x := by
  have bounds := Represents.held_bounds held
  cases O with
  | pass same _ =>
      rcases same with ⟨rfl, -⟩ | rfl
      · rfl
      · rw [booted]
  | allocated _ _ A =>
      rw [A.bytes_eq R (by simp only [MemoryRoot.blocks]; omega)
        (.inr (.inr ⟨b, n, held, lo, hi⟩)), booted]
  | @freed b' _ held' =>
      -- the status byte of another block is no data of this one
      have apart : x ≠ b' := by
        rintro rfl
        obtain ⟨d, placed, -⟩ := held'
        have := held.disjoint_header placed
        simp only [MemoryBlock.sizeOf] at this
        omega
      rw [Instance.bytes_freed_of_ne _ apart (by omega), booted]
  | @stored _ a k b' n' f span held' lo' hi' =>
      refine Instance.bytes_splice_of_notMem _ _ ?_
      by_contra touched
      -- a store that meets this block is a store into this block
      have same : b = b' := by
        by_contra ne
        have := held.disjoint held' ne
        simp only [MemoryBlock.sizeOf] at this
        omega
      subst same
      obtain rfl := held.unique held'
      exact quiet ⟨(a, k), span, ⟨by simp only; omega, by simp only; omega⟩, lo', hi'⟩
  | inputRanged _ =>
      rw [Instance.ranged, Instance.bytes_splice_of_notMem _ _ (by omega),
        Instance.bytes_splice_of_notMem _ _ (by omega), booted]
  | outputRanged _ =>
      rw [Instance.ranged, Instance.bytes_splice_of_notMem _ _ (by omega),
        Instance.bytes_splice_of_notMem _ _ (by omega), booted]
  | erred => rw [Instance.bytes_splice_of_notMem _ _ (by omega), booted]
  | wiped => exact absurd rfl noReset

namespace Sound

variable {c c' : Config} {cs : List Cell} {h n x : ℕ}

theorem isolated (S : Sound c cs) : Isolated c.kernel c.ledger.live := by
  constructor
  · have nodup := S.account.nodup
    rw [List.nodup_iff_pairwise_ne, List.pairwise_map] at nodup
    refine nodup.imp_of_mem ?_
    rintro ⟨h, n⟩ ⟨h', n'⟩ mem mem' ne
    obtain ⟨b, rfl, held⟩ := S.account.held mem
    obtain ⟨b', rfl, held'⟩ := S.account.held mem'
    have apart := held.disjoint held' (fun eq => ne (by rw [eq]))
    simp only [MemoryBlock.sizeOf] at apart
    simp only [Apart]
    omega
  · rintro ⟨h, n⟩ mem
    obtain ⟨b, rfl, held⟩ := S.account.held mem
    have := Represents.held_bounds held
    simp only [Apart, MemoryRoot.sizeOf]
    omega
  · rintro bs walk ⟨h, n⟩ mem b listed
    obtain ⟨b', rfl, held⟩ := S.account.held mem
    have R := S.heap
    rw [S.settled.boot_eq S.pages R held] at R
    rw [R.position] at walk
    obtain rfl := walk.unique R.walk
    obtain ⟨⟨_, d⟩, placed, rfl⟩ := List.mem_map.1 listed
    have apart := held.disjoint_header placed
    simp only [MemoryBlock.sizeOf] at apart
    simp only [Apart, MemoryBlock.sizeOf]
    omega
  · rintro ⟨h, n⟩ mem
    obtain ⟨b, rfl, held⟩ := S.account.held mem
    have := Represents.held_bounds held
    have := S.heap.extent_le
    simp only [Instance.size, Instance.pages_boot] at *
    omega

/-- **One step** changes a byte of a block that stays live only by storing into
that block. -/
theorem bytes_eq_of_step (S : Sound c cs) {l : Call × ℕ} (live : (h, n) ∈ c.ledger.live)
    (step : (runsKeeping h n).step c l c') (lo : h ≤ x) (hi : x < h + n)
    (quiet : ¬ l.1.StoresInto h n x) : c'.kernel.bytes x = c.kernel.bytes x := by
  obtain ⟨b, rfl, held⟩ := S.account.held live
  obtain ⟨cs', O⟩ := S.outcome step.2
  refine O.bytes_eq S.heap (S.settled.boot_eq S.pages S.heap held) held lo hi ?_ quiet
  intro reset
  have kept : (b + 12, n) ∈ (c.ledger.after l.1 l.2).live := step.1
  rw [reset] at kept
  simp [Ledger.after, Ledger.empty] at kept

end Sound

/-- **Isolation over runs.**  In every configuration reached the live blocks are
isolated; and along every continuation that keeps a block live, its bytes change
only by stores into it. -/
theorem isolation {c : Config} (reach : confinedRuns.Reachable c) :
    Isolated c.kernel c.ledger.live ∧
      ∀ (h n : ℕ), (h, n) ∈ c.ledger.live → ∀ (ls : List (Call × ℕ)) (c' : Config),
        (runsKeeping h n).Steps c ls c' → ∀ x, h ≤ x → x < h + n →
          (∀ l ∈ ls, ¬ l.1.StoresInto h n x) → c'.kernel.bytes x = c.kernel.bytes x := by
  obtain ⟨cs, S⟩ := sound_of_reachable reach
  refine ⟨S.isolated, ?_⟩
  intro h n live ls c' run x lo hi quiet
  -- the run keeps the invariant, the block and the byte
  suffices kept : ((h, n) ∈ c'.ledger.live ∧ ∃ cs, Sound c' cs) ∧
      c'.kernel.bytes x = c.kernel.bytes x from kept.2
  refine run.invariant_of_labels
    (I := fun d => ((h, n) ∈ d.ledger.live ∧ ∃ cs, Sound d cs) ∧
      d.kernel.bytes x = c.kernel.bytes x) ?_ quiet ⟨⟨live, cs, S⟩, rfl⟩
  rintro d d' l quiet ⟨⟨live, ds, S⟩, same⟩ step
  obtain ⟨ds', -, S'⟩ := S.step step.2
  refine ⟨⟨?_, ds', S'⟩, (S.bytes_eq_of_step live step lo hi quiet).trans same⟩
  rw [step.2.2.2]
  exact step.1

/-- A byte stored in a block of ten survives the next allocation. -/
theorem isolation_of_two_blocks :
    let c := ((Config.fresh 1 fun _ => false).after (.alloc 10) 77).after (.storeU8 80 7) 0
    Isolated c.kernel c.ledger.live ∧
      (c.after (.alloc 20) 99).kernel.bytes 80 = c.kernel.bytes 80 := by
  have reach := ((reachable_fresh (Nat.le_refl 1) (by decide) fun _ => false).step
    (confined_of_run (.alloc 10) 77 (by decide) (by decide +kernel))).step
    (confined_of_run (.storeU8 80 7) 0 (by decide) (by decide +kernel))
  obtain ⟨isolated, keeps⟩ := isolation reach
  refine ⟨isolated, keeps 77 10 (by decide) [(.alloc 20, 99)] _
    (.single ⟨by decide, confined_of_run (.alloc 20) 99 (by decide) (by decide +kernel)⟩) 80
    (by decide) (by decide) ?_⟩
  rintro l mem ⟨s, span, -⟩
  obtain rfl := List.mem_singleton.1 mem
  simp [Call.span] at span

end Extism.Kernel
