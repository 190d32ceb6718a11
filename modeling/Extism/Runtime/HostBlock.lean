import Extism.Kernel.Isolation
import Extism.Kernel.Mirror
import Extism.Runtime.Input

/-!
# Blocks the host makes

`memory_new` allocates a block and copies a buffer into it.  Where it succeeds
it is two steps of a confined run: an allocation below 4 GiB, since the copy has
to end inside a memory that is never larger, and a write into the new block.

The allocation may ask for any length, so the argument begins with a memory that
is 32 bits wide and stays so; a length of 4 GiB or more cannot be copied into it.

## Main definitions

* `Instance.Bounded` — the memory is a 32-bit memory.

## Main results

* `MemoryRoot.alloc_bounded` — an allocation of any length leaves one.
* `CurrentPlugin.of_memoryNew`, `CurrentPlugin.length_lt_of_memoryNew` — a completed
  `memory_new`, taken apart: what was copied is shorter than 4 GiB.
* `CurrentPlugin.memoryNew_steps` — `memory_new` is a confined run.
-/

namespace Extism.Kernel

open FirstFit (Cell Format)

/-- The memory is a 32-bit memory. -/
def Instance.Bounded (m : Instance) : Prop := m.pages ≤ MAX_PAGES

/-! ### The memory stays a 32-bit memory -/

section Bounded

open Prog (Keeps)

theorem store_bounded (k a v : ℕ) : Keeps Instance.Bounded (store k a v) := by
  intro m bounded
  unfold store
  split <;> exact bounded

theorem memoryGrow_bounded (k : ℕ) : Keeps Instance.Bounded (memoryGrow k) := by
  intro m bounded
  unfold memoryGrow
  split
  case isTrue can => exact can.2
  case isFalse => exact bounded

theorem ptrAdd_bounded (p k : ℕ) : Keeps Instance.Bounded (ptrAdd p k) :=
  .ite (.pure _) (.fail _)

theorem take_bounded (n block : ℕ) :
    Keeps Instance.Bounded (MemoryRoot.findFreeBlock.take n block) := by
  unfold MemoryRoot.findFreeBlock.take
  refine (load_keeps _ _).bind fun _ => .ite ?_ (.pure _)
  refine (store_bounded _ _ _).bind fun _ => ?_
  refine (store_bounded _ _ _).bind fun _ => ?_
  refine (load_keeps _ _).bind fun _ => ?_
  refine (ptrAdd_bounded _ _).bind fun _ => ?_
  refine (store_bounded _ _ _).bind fun _ => ?_
  refine (store_bounded _ _ _).bind fun _ => ?_
  exact (store_bounded _ _ _).bind fun _ => .pure _

theorem walk_bounded (n limit : ℕ) :
    ∀ fuel block : ℕ,
      Keeps Instance.Bounded (MemoryRoot.findFreeBlock.walk n limit fuel block) := by
  intro fuel
  induction fuel with
  | zero => exact fun block => .ite (.fail _) (.pure _)
  | succ fuel ih =>
      intro block
      refine .ite ?_ (.pure _)
      refine (load_keeps _ _).bind fun _ => .ite (.pure _) ?_
      refine Keeps.bind (.ite ((load_keeps _ _).bind fun _ => .pure _) (.pure _)) fun _ => ?_
      refine .ite (take_bounded _ _) ?_
      exact ((load_keeps _ _).bind fun _ => ptrAdd_bounded _ _).bind fun next => ih next

theorem place_bounded (n position length : ℕ) :
    ∀ b : Option ℕ, Keeps Instance.Bounded (MemoryRoot.alloc.place n position length b)
  | some _ =>
      (store_bounded _ _ _).bind fun _ => (store_bounded _ _ _).bind fun _ => .pure _
  | none => (makeRoom_keeps memoryGrow_bounded (store_bounded _ _) _ _ _).bind fun _ =>
      .ite (append_keeps (store_bounded _ _) (fun _ _ _ _ => store_bounded _ _ _) _) (.pure _)

/-- An allocation of any length leaves a 32-bit memory. -/
theorem MemoryRoot.alloc_bounded (n : ℕ) : Keeps Instance.Bounded (MemoryRoot.alloc n) := by
  unfold MemoryRoot.alloc
  refine (load_keeps _ _).bind fun _ => (load_keeps _ _).bind fun _ => ?_
  exact (walk_bounded _ _ _ _).bind fun b => place_bounded _ _ _ b

end Bounded

/-- What a completed host write did. -/
theorem of_hostWrite {p : ℕ} {bs : List UInt8} {u : Unit} {m m' : Instance}
    (h : hostWrite p bs m = (.ok u, m')) : m' = m.copy p bs ∧ p + bs.length ≤ m.size := by
  unfold hostWrite at h
  split at h
  case isTrue le => exact ⟨(Prod.mk.inj h).2.symm, le⟩
  case isFalse => simp at h

/-- A buffer, read back from where it was copied. -/
theorem Instance.bytes_copy (m : Instance) (a : ℕ) (bs : List UInt8) {i : ℕ} (lt : i < bs.length) :
    (m.copy a bs).bytes (a + i) = bs[i] := by
  rw [bytes_splice_of_mem _ _ (Nat.le_add_right a i) (by omega), Nat.add_sub_cancel_left,
    List.getD_eq_getElem?_getD, List.getElem?_eq_getElem lt, Option.getD_some]

end Extism.Kernel

namespace Extism.Runtime

open Kernel (Instance Config Call Ledger Sound confinedRuns)
open FirstFit (Cell)

namespace CurrentPlugin

/-- `memory_new`, taken apart. -/
theorem of_memoryNew {owner : Owner} {data : List UInt8} {handle : MemoryHandle} {m m' : Instance}
    (some : data ≠ []) (run : memoryNew owner data m = (.ok handle, m')) :
    handle = ⟨handle.offset, data.length⟩ ∧ handle.offset ≠ 0 ∧
      ∃ m₁, Kernel.alloc data.length m = (.ok handle.offset, m₁) ∧
        Kernel.hostWrite handle.offset data m₁ = (.ok (), m') := by
  have pos : data.length ≠ 0 := by simpa using some
  rw [memoryNew, if_neg some] at run
  obtain ⟨h, m₂, allocated, run⟩ := Prog.bind_eq_ok run
  obtain ⟨⟨⟩, m₃, wrote, run⟩ := Prog.bind_eq_ok run
  obtain ⟨rfl, rfl⟩ := Prog.of_pure run
  rw [memoryAlloc, if_neg pos] at allocated
  obtain ⟨offs, m₁, called, allocated⟩ := Prog.bind_eq_ok allocated
  by_cases null : offs = 0
  · subst null
    simp at allocated
  · rw [memoryAlloc.handle_of_ne owner _ m₁ null] at allocated
    obtain ⟨rfl, rfl⟩ : ⟨offs, data.length⟩ = handle ∧ m₁ = m₂ := by simpa using allocated
    exact ⟨rfl, null, m₁, Prog.of_mapError called, Prog.of_mapError wrote⟩

/-- A block that could be filled is shorter than 4 GiB. -/
theorem length_lt_of_memoryNew {c : Config} {cs : List Cell} (S : Sound c cs) {data : List UInt8}
    {offs : ℕ} {m₁ m' : Instance} (null : offs ≠ 0)
    (allocated : Kernel.alloc data.length c.kernel = (.ok offs, m₁))
    (wrote : Kernel.hostWrite offs data m₁ = (.ok (), m')) : data.length < 2 ^ 32 := by
  obtain ⟨-, inside⟩ := Kernel.of_hostWrite wrote
  have bounded : m₁.Bounded := by
    rw [Kernel.alloc, Prog.ite_apply] at allocated
    split at allocated
    · exact absurd (Prog.of_pure allocated).2 null
    · rw [Prog.bind_ok (Kernel.MemoryRoot.new_eq S.pages)] at allocated
      obtain ⟨r, m₂, ran, rest⟩ := Prog.bind_eq_ok allocated
      obtain ⟨rfl, -⟩ := Prog.of_pure rest
      have kept := Kernel.MemoryRoot.alloc_bounded data.length _ S.heap.pages_le
      rwa [ran] at kept
  simp only [Instance.Bounded, Instance.size, Kernel.MAX_PAGES, Kernel.PAGE_SIZE] at bounded inside
  omega

/-- The block `memory_new` made. -/
theorem allocated_of_alloc {c : Config} {cs : List Cell} (S : Sound c cs) {n offs : ℕ}
    {m₁ : Instance} (null : offs ≠ 0) (small : n < 2 ^ 32)
    (run : Kernel.alloc n c.kernel = (.ok offs, m₁)) :
    ∃ b cs₁, offs = b + 12 ∧ Kernel.Allocated c.kernel.boot n cs (some b) m₁ cs₁ := by
  rw [Kernel.alloc, Prog.ite_apply] at run
  split at run
  · exact absurd (Prog.of_pure run).2 null
  · obtain ⟨r, m₂, cs₁, eq, A⟩ := S.heap.alloc_spec small
    rw [Prog.bind_ok (Kernel.MemoryRoot.new_eq S.pages), Prog.bind_ok eq] at run
    obtain ⟨rfl, rfl⟩ := Prog.of_pure run
    cases r with
    | none => exact absurd rfl null
    | some b => exact ⟨b, cs₁, rfl, A⟩

/-- **`memory_new` is a confined run**: an allocation, and a write into the new
block. -/
theorem memoryNew_steps {c : Config} {cs : List Cell} (S : Sound c cs) {owner : Owner}
    {data : List UInt8} {handle : MemoryHandle} {m' : Instance} (some : data ≠ [])
    (run : memoryNew owner data c.kernel = (.ok handle, m')) :
    data.length < 2 ^ 32 ∧ ∃ c₁ c₂ : Config,
      confinedRuns.step c (.alloc data.length, handle.offset) c₁ ∧
      confinedRuns.step c₁ (.hostWrite handle.offset data, 0) c₂ ∧
      c₁.ledger = c.ledger.after (.alloc data.length) handle.offset ∧
      (handle.offset, data.length) ∈ c₁.ledger.live ∧ c₂.ledger = c₁.ledger ∧
      c₂.kernel = m' ∧ m' = c₁.kernel.copy handle.offset data := by
  obtain ⟨-, null, m₁, allocated, wrote⟩ := of_memoryNew some run
  have small := length_lt_of_memoryNew S null allocated wrote
  have live : (handle.offset, data.length) ∈
      (c.ledger.after (.alloc data.length) handle.offset).live := by
    rw [Ledger.after, if_neg null]
    exact List.mem_cons_self
  refine ⟨small, ⟨m₁, c.ledger.after (.alloc data.length) handle.offset⟩,
    ⟨m', c.ledger.after (.alloc data.length) handle.offset⟩, ⟨⟨small, by simp [Call.span]⟩,
      allocated, rfl⟩, ⟨⟨by simp [Call.requested], ?_⟩, ?_, rfl⟩, rfl, live, rfl, rfl,
    (Kernel.of_hostWrite wrote).1⟩
  · rintro s span
    obtain rfl : (handle.offset, data.length) = s := by simpa [Call.span] using span
    exact ⟨_, live, Nat.le_refl _, Nat.le_refl _⟩
  · change (Kernel.hostWrite handle.offset data).discard m₁ = (.ok 0, m')
    exact Kernel.Exec.discard_ok wrote

end CurrentPlugin

end Extism.Runtime
