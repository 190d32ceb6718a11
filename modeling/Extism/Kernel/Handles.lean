import Extism.Kernel.Run

/-!
# Handles are accurate

The kernel has two ways to ask for the length of a block: `length` walks the
headers, `length_unsafe` reads twelve bytes in front of the handle.  On a live
handle both give the length asked for; on a freed one neither gives anything,
because a free header is never overwritten until its block is handed out again.

A block that is split leaves its free part under the old handle, and the part
handed out under a new one; a block that is taken whole keeps its handle, which
is then live again, for the length of the new request.

## Main definitions

* `Accurate` — the lengths of the blocks of an account are what both functions
  give.

## Main results

* `Represents.lengthUnsafe_eq`, `Represents.length_held`,
  `Represents.length_not_held` — the two functions, on a held block and on any
  other handle.
* `Sound.not_live_of_alloc` — `alloc` does not return a live handle.
* `handles_accurate` — both functions tell the truth in every configuration
  reached.
-/

namespace Extism.Kernel

open FirstFit (Cell Format)

namespace Represents

variable {m : Instance} {cs : List Cell} {b n : ℕ}

/-- `length_unsafe` on the handle of a block, held or free. -/
theorem lengthUnsafe_eq (R : Represents m cs) {c : Cell}
    (placed : (b, c) ∈ heap.place MemoryRoot.blocks cs) :
    lengthUnsafe (b + 12) m = (.ok (if c.free then 0 else c.used), m) := by
  have bounds := Format.place_bounds placed
  have extent := R.extent_le
  have size := R.size_le
  have header := R.header placed
  simp only [Format.width, MemoryBlock.sizeOf, MemoryRoot.blocks] at bounds
  have pages : m.pages * 65536 = m.size := by
    simp only [Instance.size, PAGE_SIZE]
    omega
  have block : toUsize (subU64 (b + 12) MemoryBlock.sizeOf) = b := by
    simp only [toUsize, subU64, MemoryBlock.sizeOf]
    omega
  rw [lengthUnsafe, if_neg (by omega), Prog.bind_ok (pointerInBoundsFast_eq m _), pages,
    if_pos (by simp only [decide_eq_true_eq]; omega), block,
    Prog.bind_ok (load_ok (by simp only [MemoryBlock.status]; omega)), header.status]
  cases free : c.free with
  | true =>
      rw [cellStatus_of_free free, if_pos (by decide), if_pos rfl]
      rfl
  | false =>
      rw [cellStatus_of_held free, if_neg (by decide), if_neg (by decide),
        load_ok (by simp only [MemoryBlock.used]; omega), header.used]

/-- `length` on the handle of a held block. -/
theorem length_held (R : Represents m.boot cs) (pages : 1 ≤ m.pages)
    (held : heap.Held MemoryRoot.blocks cs b n) : length (b + 12) m = (.ok n, m.boot) := by
  have bounds := held_bounds held
  have extent := R.extent_le
  rw [length, if_neg (by omega), Prog.bind_ok (MemoryRoot.new_eq pages),
    Prog.bind_ok (R.findBlock_held held), length.found,
    load_ok (by simp only [MemoryBlock.used]; omega)]
  obtain ⟨c, placed, -, rfl⟩ := held
  rw [(R.header placed).used]

/-- `length` on a handle of no held block, if it returns. -/
theorem length_not_held (R : Represents m.boot cs) (pages : 1 ≤ m.pages) {p v : ℕ}
    {m' : Instance} (none : ∀ b k, b + 12 = p → ¬ heap.Held MemoryRoot.blocks cs b k)
    (run : length p m = (.ok v, m')) : v = 0 := by
  rw [length, Prog.ite_apply] at run
  split at run
  · exact (Prog.of_pure run).2
  · rw [Prog.bind_ok (MemoryRoot.new_eq pages)] at run
    obtain ⟨r, m₁, found, rest⟩ := Prog.bind_eq_ok run
    obtain ⟨rfl, rfl⟩ := R.findBlock_not_held none found
    exact (Prog.of_pure rest).2

end Represents

/-- What the lengths of a caller's blocks are, in the memory `m`. -/
structure Accurate (m : Instance) (L : Ledger) : Prop where
  length : ∀ h n, (h, n) ∈ L.live → (Kernel.length h m).1 = .ok n
  lengthUnsafe : ∀ h n, (h, n) ∈ L.live → (Kernel.lengthUnsafe h m).1 = .ok n
  lengthUnsafe_freed : ∀ h ∈ L.freed, (Kernel.lengthUnsafe h m).1 = .ok 0
  length_freed : ∀ h ∈ L.freed, ∀ v, (Kernel.length h m).1 = .ok v → v = 0

namespace Sound

variable {c : Config} {cs : List Cell}

theorem accurate (S : Sound c cs) : Accurate c.kernel c.ledger := by
  have R := S.heap
  constructor
  · intro h n live
    obtain ⟨b, rfl, held⟩ := S.account.held live
    rw [R.length_held S.pages held]
  · intro h n live
    obtain ⟨b, rfl, d, placed, taken, rfl⟩ := S.account.held live
    rw [S.settled.boot_of_place S.pages R placed] at R
    rw [R.lengthUnsafe_eq placed, if_neg (by simp [taken])]
  · intro h mem
    obtain ⟨b, rfl, d, placed, free⟩ := S.account.freed h mem
    rw [S.settled.boot_of_place S.pages R placed] at R
    rw [R.lengthUnsafe_eq placed, if_pos free]
  · intro h mem v eq
    obtain ⟨b, rfl, vacant⟩ := S.account.freed h mem
    refine R.length_not_held S.pages (fun b' k eq held => ?_) (Prod.ext eq rfl)
    obtain rfl : b' = b := by omega
    exact held.not_vacant vacant

/-- `alloc` does not return a live handle. -/
theorem not_live_of_alloc (S : Sound c cs) {n h : ℕ} {c' : Config}
    (step : confinedRuns.step c (.alloc n, h) c') (k : ℕ) : (h, k) ∉ c.ledger.live := by
  intro live
  obtain ⟨b, rfl, held⟩ := S.account.held live
  obtain ⟨cs', -, S'⟩ := S.step step
  -- the new account would list the handle twice
  have nodup := S'.account.nodup
  rw [step.2.2, Ledger.after, if_neg (by omega)] at nodup
  exact (List.nodup_cons.1 nodup).1 (List.mem_map.2 ⟨_, live, rfl⟩)

end Sound

/-- **Handle accuracy over runs.**  In every configuration reached both length
functions tell the truth about live and freed handles, and no allocation returns
a live one. -/
theorem handles_accurate {c : Config} (reach : confinedRuns.Reachable c) :
    Accurate c.kernel c.ledger ∧
      ∀ (n h : ℕ) (c' : Config), confinedRuns.step c (.alloc n, h) c' →
        ∀ k, (h, k) ∉ c.ledger.live := by
  obtain ⟨cs, S⟩ := sound_of_reachable reach
  exact ⟨S.accurate, fun n h c' step k => S.not_live_of_alloc step k⟩

/-- Two blocks, the first freed and handed out again for fewer bytes. -/
theorem handles_accurate_after_reuse :
    let c := ((((Config.fresh 1 fun _ => false).after (.alloc 40) 77).after (.alloc 7) 129).after
      (.free 77) 0).after (.alloc 30) 77
    Accurate c.kernel c.ledger ∧ (77, 30) ∈ c.ledger.live ∧ (99, 3) ∉ c.ledger.live := by
  have reach := ((((reachable_fresh (Nat.le_refl 1) (by decide) fun _ => false).step
    (confined_of_run (.alloc 40) 77 (by decide) (by decide +kernel))).step
    (confined_of_run (.alloc 7) 129 (by decide) (by decide +kernel))).step
    (confined_of_run (.free 77) 0 (by decide) (by decide +kernel))).step
    (confined_of_run (.alloc 30) 77 (by decide) (by decide +kernel))
  exact ⟨(handles_accurate reach).1, by decide, by decide⟩

end Extism.Kernel
