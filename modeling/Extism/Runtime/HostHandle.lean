import Extism.Lib.Blocks
import Extism.Runtime.HostBlock

/-!
# Handles the guest passes to the host

A host function gets offsets from the guest and turns them into handles with
`memory_handle`.  On an instance reached by confined calls the outcome is the
caller's account: the handle of a live block, the null handle for offset 0, and
none for every other offset, also where the walk for it ends in a trap.

`memory_new` is total there: it fails only if `alloc` refuses.

## Main definitions

* `Instance.UpToBoot` — a memory, up to the root being set up.
* `liveHandle` — the handle of the live block at an offset.

## Main results

* `Sound.upToBoot` — setting up the root keeps the invariant of runs.
* `CurrentPlugin.memoryLength_told`, `CurrentPlugin.memoryHandle_run` — the length
  and the handle the host is told, on every offset.
* `CurrentPlugin.memoryNew_run` — `memory_new` of fewer than 4 GiB fails only if
  `alloc` answers 0.
* `CurrentPlugin.memoryNew_found` — the block it returns was not live, and holds the
  data.
-/

namespace Extism.Kernel

open FirstFit (Cell Format)

/-- `m'` is `m`, or `m` with the root set up. -/
def Instance.UpToBoot (m m' : Instance) : Prop := m' = m ∨ m' = m.boot

/-- No live block is empty. -/
def Ledger.Filled (L : Ledger) : Prop := ∀ x ∈ L.live, 0 < x.2

/-- `alloc` of no bytes answers 0, so no block is made. -/
theorem Ledger.Filled.step {c c' : Config} {l : Call × ℕ} (filled : c.ledger.Filled)
    (step : kernelRuns.step c l c') : c'.ledger.Filled := by
  obtain ⟨call, v⟩ := l
  obtain ⟨run, ledger⟩ := step
  rw [ledger]
  cases call with
  | alloc n =>
      rw [Ledger.after]
      split
      case isTrue => exact filled
      case isFalse found =>
        refine List.forall_mem_cons.2 ⟨?_, filled⟩
        refine Nat.pos_of_ne_zero fun none => found ?_
        change alloc n c.kernel = (.ok v, c'.kernel) at run
        rw [alloc, if_pos none] at run
        exact (Prog.of_pure run).2
  | free p => exact fun x mem => filled x (List.mem_of_mem_filter mem)
  | reset => exact fun x mem => absurd mem List.not_mem_nil
  | _ => exact filled

section Length

open Prog (Keeps)

variable {I : Instance → Prop}

theorem findBlock_walk_keeps (offs limit : ℕ) :
    ∀ fuel block : ℕ, Keeps I (MemoryRoot.findBlock.walk offs limit fuel block) := by
  intro fuel
  induction fuel with
  | zero => exact fun block => .ite (.fail _) (.pure _)
  | succ fuel ih =>
      intro block
      refine .ite ?_ (.pure _)
      refine (load_keeps _ _).bind fun _ => .ite (.pure _) ?_
      refine Keeps.bind ?_ fun next => ih next
      exact (load_keeps _ _).bind fun _ => .ite (.pure _) (.fail _)

theorem findBlock_keeps (p : ℕ) : Keeps I (MemoryRoot.findBlock p) := by
  have inBounds : Keeps I (MemoryRoot.pointerInBoundsFast p) :=
    memorySize_keeps.bind fun _ => .pure _
  exact inBounds.bind fun _ => .ite (findBlock_walk_keeps _ _ _ _) (.pure _)

/-- `length` writes nothing but the root. -/
theorem length_keeps (new : Keeps I MemoryRoot.new) (p : ℕ) : Keeps I (length p) := by
  refine .ite (.pure _) (new.bind fun _ => (findBlock_keeps p).bind fun block => ?_)
  cases block with
  | none => exact .pure _
  | some block => exact load_keeps _ _

end Length

namespace Sound

variable {c : Config} {cs : List Cell} {m : Instance}

/-- However `length` ends, the memory is as it was, up to the root. -/
theorem upToBoot_length (S : Sound c cs) (p : ℕ) : c.kernel.UpToBoot (length p c.kernel).2 := by
  refine length_keeps (I := c.kernel.UpToBoot) ?_ p _ (.inl rfl)
  rintro m (rfl | rfl)
  · rw [MemoryRoot.new_eq S.pages]
    exact .inr rfl
  · rw [MemoryRoot.new_eq (by simpa using S.pages), S.heap.boot_eq]
    exact .inr rfl

/-- Setting up the root keeps the invariant. -/
theorem upToBoot (S : Sound c cs) (left : c.kernel.UpToBoot m) : Sound ⟨m, c.ledger⟩ cs := by
  rcases left with rfl | rfl
  · exact S
  · exact S.of_outcome (l := (.memoryBytes, 0)) (.pass (.inr rfl) trivial) rfl

theorem upToBoot_trans (S : Sound c cs) {m' : Instance} (left : c.kernel.UpToBoot m)
    (left' : m.UpToBoot m') : c.kernel.UpToBoot m' := by
  rcases left with rfl | rfl
  · exact left'
  · rcases left' with rfl | rfl
    · exact .inr rfl
    · exact .inr S.heap.boot_eq

/-- With a block live, the root has been set up. -/
theorem upToBoot_eq (S : Sound c cs) (left : c.kernel.UpToBoot m) {h n : ℕ}
    (live : (h, n) ∈ c.ledger.live) : m = c.kernel := by
  obtain ⟨b, -, held⟩ := S.account.held live
  rcases left with rfl | rfl
  · rfl
  · exact S.settled.boot_eq S.pages S.heap held

/-- An allocation does not depend on who sets up the root. -/
theorem alloc_upToBoot (S : Sound c cs) (left : c.kernel.UpToBoot m) {n : ℕ} (some : n ≠ 0) :
    alloc n m = alloc n c.kernel := by
  rcases left with rfl | rfl
  · rfl
  · rw [alloc, if_neg some, Prog.bind_ok (MemoryRoot.new_eq (by simpa using S.pages)),
      S.heap.boot_eq, Prog.bind_ok (MemoryRoot.new_eq S.pages)]

end Sound

end Extism.Kernel

namespace Extism.Runtime

open Kernel (Instance Config Ledger Sound confinedRuns)
open FirstFit (Cell)
open ObjectStore (Blocks)

/-- The handle of the live block at an offset; offset 0 is the null handle. -/
def liveHandle (L : Ledger) (h : ℕ) : Option MemoryHandle :=
  if h = 0 then some .null else (L.live.lookup h).map fun n => ⟨h, n⟩

namespace CurrentPlugin

variable {c : Config} {cs : List Cell} {m : Instance}

/-- The length the host is told for an offset: that of the live block there, or
0, also where the walk for it ends in a trap. -/
theorem memoryLength_told (S : Sound c cs) (h : ℕ) :
    ((memoryLength h c.kernel).1.toOption).getD 0 = (c.ledger.live.lookup h).getD 0 := by
  rw [memoryLength, callKernel, Prog.mapError]
  cases found : c.ledger.live.lookup h with
  | some n =>
      rw [S.accurate.length h n (Blocks.mem_of_lookup found)]
      rfl
  | none =>
      rcases run : Kernel.length h c.kernel with ⟨e | v, m⟩
      · rfl
      · refine S.heap.length_not_held S.pages (fun b k eq held => ?_) run
        rw [← eq, Blocks.lookup_of_mem S.account.nodup (S.account.of_held held)] at found
        simp at found

/-- `memory_handle`, on every offset. -/
theorem memoryHandle_run (S : Sound c cs) (filled : c.ledger.Filled) (h : ℕ) :
    ∃ m, c.kernel.UpToBoot m ∧ memoryHandle h c.kernel = (.ok (liveHandle c.ledger h), m) := by
  by_cases null : h = 0
  · exact ⟨c.kernel, .inl rfl, by rw [memoryHandle, liveHandle, if_pos null, if_pos null]; rfl⟩
  · refine ⟨(Kernel.length h c.kernel).2, S.upToBoot_length h, ?_⟩
    rw [memoryHandle, liveHandle, if_neg null, if_neg null, Prog.bind_ok (Prog.attempt_apply _ _),
      Prog.pure_apply, memoryLength_told S h]
    refine Prod.ext ?_ rfl
    cases found : c.ledger.live.lookup h with
    | none => rfl
    | some n =>
        have pos := filled _ (Blocks.mem_of_lookup found)
        simp [memoryHandle.found, Nat.pos_iff_ne_zero.1 pos]

/-- The bytes of a handle do not depend on who sets up the root. -/
theorem memoryBytes_upToBoot (S : Sound c cs) (left : c.kernel.UpToBoot m) {h : ℕ}
    {handle : MemoryHandle} (live : liveHandle c.ledger h = some handle) :
    memoryBytes m handle = memoryBytes c.kernel handle := by
  rw [liveHandle] at live
  split at live
  · obtain rfl := Option.some.inj live
    rfl
  · obtain ⟨n, found, -⟩ := Option.map_eq_some_iff.1 live
    rw [S.upToBoot_eq left (Blocks.mem_of_lookup found)]

/-- **`memory_new`** of fewer than 4 GiB fails only if `alloc` answers 0. -/
theorem memoryNew_run (S : Sound c cs) (owner : Owner) {data : List UInt8} (some : data ≠ [])
    (small : data.length < 2 ^ 32) :
    (∃ m, Kernel.alloc data.length c.kernel = (.ok 0, m) ∧
        memoryNew owner data c.kernel = (.error (owner.refusal m), m)) ∨
      ∃ h m, h ≠ 0 ∧ memoryNew owner data c.kernel = (.ok ⟨h, data.length⟩, m) := by
  have pos : data.length ≠ 0 := by simpa using some
  obtain ⟨r, m, cs', eq, -⟩ := S.heap.alloc_spec small
  have called := Kernel.alloc_run pos S.pages eq
  have allocated : memoryAlloc owner data.length c.kernel =
      memoryAlloc.handle owner data.length (Kernel.handle r) m := by
    rw [memoryAlloc, if_neg pos, callKernel, Prog.bind_ok (Prog.mapError_ok called)]
  cases r with
  | none =>
      refine .inl ⟨m, called, ?_⟩
      have failed : memoryAlloc owner data.length c.kernel =
          (.error (owner.refusal m), m) := allocated
      rw [memoryNew, if_neg some, Prog.bind_error failed]
  | some b =>
      refine .inr ⟨b + 12, m.copy (b + 12) data, by omega, ?_⟩
      have step : confinedRuns.step c (.alloc data.length, b + 12)
          ⟨m, c.ledger.after (.alloc data.length) (b + 12)⟩ :=
        ⟨⟨small, by simp [Kernel.Call.span]⟩, called, rfl⟩
      obtain ⟨cs₁, -, S₁⟩ := S.step step
      have live : (b + 12, data.length) ∈ (c.ledger.after (.alloc data.length) (b + 12)).live := by
        rw [Ledger.after, if_neg (by omega)]
        exact List.mem_cons_self
      obtain ⟨b', eq', held⟩ := S₁.account.held live
      obtain rfl : b' = b := by omega
      have R := S₁.heap
      rw [S₁.settled.boot_eq S₁.pages R held] at R
      have wrote : Kernel.hostWrite (b' + 12) data m = (.ok (), m.copy (b' + 12) data) :=
        R.hostWrite_eq held (Nat.le_refl _)
      have made : memoryAlloc owner data.length c.kernel = (.ok ⟨b' + 12, data.length⟩, m) :=
        allocated.trans (memoryAlloc.handle_of_ne owner _ m (by simp [Kernel.handle]))
      rw [memoryNew, if_neg some, Prog.bind_ok made, callKernel,
        Prog.bind_ok (Prog.mapError_ok wrote)]
      rfl

/-- The block `memory_new` returns was not live, and holds the data. -/
theorem memoryNew_found (S : Sound c cs) {owner : Owner} {data : List UInt8} {h : ℕ}
    (some : data ≠ []) (run : memoryNew owner data c.kernel = (.ok ⟨h, data.length⟩, m)) :
    (∀ n, (h, n) ∉ c.ledger.live) ∧ memoryBytes m ⟨h, data.length⟩ = data ∧
      (∃ cs', Sound ⟨m, c.ledger.after (.alloc data.length) h⟩ cs') ∧
      (h, data.length) ∈ (c.ledger.after (.alloc data.length) h).live := by
  obtain ⟨-, c₁, c₂, allocated, wrote, account, live, same, rfl, copied⟩ :=
    memoryNew_steps S some run
  obtain ⟨cs₁, -, S₁⟩ := S.step allocated
  obtain ⟨cs₂, -, S₂⟩ := S₁.step wrote
  rw [account] at live same
  refine ⟨fun n => S.not_live_of_alloc allocated n, ?_, ⟨cs₂, by rw [← same]; exact S₂⟩, live⟩
  rw [copied]
  refine List.ext_getElem (by simp [memoryBytes]) fun i lt lt' => ?_
  simp only [memoryBytes, List.getElem_map, List.getElem_range]
  exact Instance.bytes_copy _ _ _ lt'

end CurrentPlugin

end Extism.Runtime
