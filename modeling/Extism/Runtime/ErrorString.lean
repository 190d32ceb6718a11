import Extism.Kernel.Refinement
import Extism.Lib.Utf8
import Extism.Runtime.HostBlock

/-!
# The error as a C string

`extism_plugin_error` returns a pointer to the message in kernel memory, and its
C callers read up to the first zero byte.  `set_error` copies the bytes of the
message only, so what follows them decides where the string ends:

* in a new block behind the heap, a byte never written, which is zero;
* in a block taken whole, the next byte of an earlier content or, when the
  message fills it, the header of the next block;
* in a block split off, always the header of the next block, or zero behind the
  last one.

None of these bytes changes on the way, so the condition can be read off the
memory before the error is set.

## Main definitions

* `Instance.cString` — the C string at an address, none if it does not end inside
  the memory.
* `Block.firstFit`, `Block.behind` — the free block a message goes into, and the
  address behind it there.
* `Instance.Terminated` — a zero byte will follow the message.
* `extismPluginError` — where the message is in the kernel's memory.

## Main results

* `Allocated.terminated_iff` — the byte behind an allocation is the one that was
  there.
* `cString_of_setError` — the string at the offset a completed `set_error` returns.
* `errorString_iff_terminated` — when the C string is the error, on every kernel
  reached.
-/

namespace Extism.Kernel

open FirstFit (Cell Format)

/-! ## C strings -/

/-- The bytes from `a` up to the first zero byte, among the next `fuel`. -/
def Instance.cStringFrom (m : Instance) : ℕ → ℕ → Option (List UInt8)
  | 0, _ => none
  | fuel + 1, a =>
      if m.bytes a = 0 then some []
      else (m.cStringFrom fuel (a + 1)).map (m.bytes a :: ·)

/-- The C string at `a`; none if no zero byte follows inside the memory. -/
def Instance.cString (m : Instance) (a : ℕ) : Option (List UInt8) := m.cStringFrom (m.size - a) a

theorem Instance.cStringFrom_eq_some_iff {m : Instance} {bs : List UInt8} (noNul : 0 ∉ bs) :
    ∀ {fuel a : ℕ}, m.cStringFrom fuel a = some bs ↔ bs.length < fuel ∧
      (∀ (i : ℕ) (lt : i < bs.length), m.bytes (a + i) = bs[i]) ∧ m.bytes (a + bs.length) = 0 := by
  induction bs with
  | nil =>
      intro fuel a
      cases fuel with
      | zero => simp [cStringFrom]
      | succ fuel => by_cases zero : m.bytes a = 0 <;> simp [cStringFrom, zero]
  | cons b bs ih =>
      simp only [List.mem_cons, not_or] at noNul
      intro fuel a
      cases fuel with
      | zero => simp [cStringFrom]
      | succ fuel =>
          have shift : (∀ (i : ℕ) (lt : i < (b :: bs).length), m.bytes (a + i) = (b :: bs)[i]) ↔
              m.bytes a = b ∧ ∀ (i : ℕ) (lt : i < bs.length), m.bytes (a + 1 + i) = bs[i] := by
            constructor
            · intro same
              refine ⟨same 0 (by simp), fun i lt => ?_⟩
              rw [Nat.add_assoc, Nat.add_comm 1]
              exact same (i + 1) (by simpa using lt)
            · rintro ⟨first, rest⟩ i lt
              cases i with
              | zero => exact first
              | succ i =>
                  have later := rest i (by simpa using lt)
                  rwa [show a + 1 + i = a + (i + 1) by omega] at later
          rw [cStringFrom, shift, List.length_cons, Nat.add_lt_add_iff_right,
            show a + (bs.length + 1) = a + 1 + bs.length by omega]
          by_cases zero : m.bytes a = 0
          · have ne : (0 : UInt8) ≠ b := noNul.1
            simp [zero, ne]
          · simp only [zero, if_false, Option.map_eq_some_iff, List.cons.injEq]
            constructor
            · rintro ⟨bs', rest, rfl, rfl⟩
              have := (ih noNul.2).1 rest
              exact ⟨this.1, ⟨rfl, this.2.1⟩, this.2.2⟩
            · rintro ⟨lt, ⟨rfl, rest⟩, last⟩
              exact ⟨bs, (ih noNul.2).2 ⟨lt, rest, last⟩, rfl, rfl⟩

/-! ## What follows the message -/

instance (n : ℕ) : DecidablePred (Block.Fits n) := fun _ => inferInstanceAs (Decidable (_ ∧ _))

/-- The first block of a list from address `a` on that fits, and its address. -/
def Block.firstFit (n : ℕ) : ℕ → List Block → Option (ℕ × Block)
  | _, [] => none
  | a, b :: bs => if b.Fits n then some (a, b) else firstFit n (MemoryBlock.data a + b.size) bs

/-- The address behind a message of `n` bytes that goes into the free block `b`
at `a`: behind the block if it is split, else behind the message. -/
def Block.behind (n a : ℕ) (b : Block) : ℕ :=
  if 128 ≤ b.size - n then MemoryBlock.data a + b.size else MemoryBlock.data a + n

/-- A zero byte will follow a message of `n` bytes if the message goes into a
free block. -/
def Instance.Terminated (m : Instance) (n : ℕ) : Prop :=
  ∀ x ∈ Block.firstFit n MemoryRoot.blocks m.decode, m.bytes (Block.behind n x.1 x.2) = 0

instance (m : Instance) : DecidablePred m.Terminated := fun n =>
  inferInstanceAs (Decidable (∀ x ∈ Block.firstFit n MemoryRoot.blocks m.decode, _))

theorem Block.firstFit_of_fits {n : ℕ} {pre post : List Cell} {c : Cell}
    (skip : ∀ d ∈ pre, ¬ d.Fits n) (fit : c.Fits n) (a : ℕ) :
    firstFit n a ((pre ++ c :: post).map ofCell) = some (a + heap.extent pre, ofCell c) := by
  induction pre generalizing a with
  | nil => simp [firstFit, fits_ofCell.2 fit]
  | cons d pre ih =>
      obtain ⟨noFit, skip⟩ := List.forall_mem_cons.1 skip
      have noFit' : ¬ (ofCell d).Fits n := fun h => noFit (fits_ofCell.1 h)
      simp only [List.cons_append, List.map_cons, firstFit, if_neg noFit', ih skip]
      simp only [Format.extent_cons, Format.width, size_ofCell, MemoryBlock.data,
        MemoryBlock.sizeOf, Nat.add_assoc]

theorem Block.firstFit_of_skip {n : ℕ} {bs : List Block} (skip : ∀ d ∈ bs, ¬ d.Fits n) (a : ℕ) :
    firstFit n a bs = none := by
  induction bs generalizing a with
  | nil => rfl
  | cons d bs ih =>
      obtain ⟨noFit, skip⟩ := List.forall_mem_cons.1 skip
      rw [firstFit, if_neg noFit, ih skip]

/-- **The byte behind an allocation** is the one that was there. -/
theorem Allocated.terminated_iff {m m' : Instance} {n b : ℕ} {cs cs' : List Cell}
    (A : Allocated m n cs (some b) m' cs') (R : Represents m cs) (small : n < 2 ^ 32) :
    (m'.bytes (b + 12 + n) = 0 ↔ m.Terminated n) ∧ b + 12 + n < m'.size := by
  have extent := R.extent_le
  have size := A.size_le
  rw [Instance.Terminated, R.decode]
  cases A with
  | carved pre post c skip fit =>
      have le := fit.2
      simp only [Format.extent_append, Format.extent_cons, Format.width, MemoryBlock.sizeOf]
        at extent
      rw [Block.firstFit_of_fits skip fit]
      simp only [Option.mem_some_iff, forall_eq', MemoryRoot.blocks]
      by_cases loose : 128 ≤ c.size - n
      · have top : heap.carveAt n c = c.size - n := if_pos loose
        have behind : Block.behind n (65 + heap.extent pre) (.ofCell c) =
          65 + heap.extent pre + 12 + c.size := if_pos loose
        rw [top, behind, show 65 + heap.extent pre + (c.size - n) + 12 + n =
          65 + heap.extent pre + 12 + c.size by omega,
          Instance.bytes_carved_of_notMem fit (.inr (Nat.le_refl _))]
        exact ⟨Iff.rfl, by omega⟩
      · have place : heap.carveAt n c = 0 := if_neg loose
        have behind : Block.behind n (65 + heap.extent pre) (.ofCell c) =
          65 + heap.extent pre + 12 + n := if_neg loose
        rw [place, behind, Nat.add_zero, Instance.carved, if_neg loose]
        refine ⟨?_, by simp only [Instance.size_splice]; omega⟩
        simp (disch := omega) only [Instance.bytes_splice_of_notMem]
  | appended _ skip enough =>
      have room := R.room_of_enough enough
      have fits := R.fits
      simp only [MemoryRoot.length, MemoryRoot.sizeOf] at room fits
      rw [← R.decode, Block.firstFit_of_skip (R.decode_skip skip),
        Instance.bytes_appended_of_notMem (by omega)]
      have blank := R.zero (65 + heap.extent cs + 12 + n)
        (by simp only [MemoryRoot.blocks]; omega) (by omega)
      exact ⟨by simp [blank], by omega⟩
  | grown _ skip short can =>
      have R₁ := R.lengthened can
      have room := R.room_of_grown small can
      have fits := R₁.fits
      simp only [MemoryRoot.length, MemoryRoot.sizeOf] at room fits
      rw [← R.decode, Block.firstFit_of_skip (R.decode_skip skip),
        Instance.bytes_appended_of_notMem (by omega)]
      have blank := R₁.zero (65 + heap.extent cs + 12 + n)
        (by simp only [MemoryRoot.blocks]; omega) (by omega)
      exact ⟨by simp [blank], by rw [Instance.size_appended]; omega⟩

end Extism.Kernel

namespace Extism.Runtime

open Kernel (Instance Config Sound confinedRuns)
open FirstFit (Cell)
open Utf8 (toList_eq toUTF8_ne_nil)

/-- `extism_plugin_error`: where the message is in the kernel's memory, none for
a null pointer. -/
def extismPluginError {σ : Type} (p : Plugin σ) : Option ℕ :=
  if p.output.errorOffset = 0 then none else some p.output.errorOffset

/-- A completed `set_error`, and the string at the offset it returns. -/
theorem cString_of_setError {c : Config} {cs : List Cell} (S : Sound c cs) {owner : Owner}
    {s : String} {r : ℕ × ℕ} {m' : Instance} (nonempty : s ≠ "") (noNul : 0 ∉ s.toUTF8.toList)
    (run : CurrentPlugin.setError owner s c.kernel = (.ok r, m')) :
    r.1 ≠ 0 ∧ (m'.cString r.1 = some s.toUTF8.toList ↔
      c.kernel.boot.Terminated s.toUTF8.toList.length) := by
  have some := toUTF8_ne_nil nonempty
  rw [CurrentPlugin.setError] at run
  generalize s.toUTF8.toList = data at *
  obtain ⟨handle, m₂, made, run⟩ := Prog.bind_eq_ok run
  obtain ⟨⟨⟩, m₃, set, run⟩ := Prog.bind_eq_ok run
  obtain ⟨rfl, rfl⟩ := Prog.of_pure run
  obtain ⟨-, null, m₁, called, -⟩ := CurrentPlugin.of_memoryNew some made
  obtain ⟨small, c₁, c₂, alloc, write, -, live, account, rfl, copied⟩ :=
    CurrentPlugin.memoryNew_steps S some made
  obtain ⟨b, cs₁, at', A⟩ := CurrentPlugin.allocated_of_alloc S null small alloc.2.1
  obtain ⟨cs₁, -, S₁⟩ := S.step alloc
  obtain ⟨cs₂, -, S₂⟩ := S₁.step write
  -- the root is set up, and `error_set` writes into it only
  have booted : c₂.kernel.boot = c₂.kernel := by
    obtain ⟨_, -, held⟩ := S₂.account.held (account ▸ live)
    exact S₂.settled.boot_eq S₂.pages S₂.heap held
  have R₂ := S₂.heap
  have eq := Prog.of_mapError set
  rw [R₂.errorSet_eq S₂.pages, booted] at eq
  have same : ∀ x, 65 ≤ x → m'.bytes x = c₂.kernel.bytes x := by
    intro x lo
    rw [← (Prod.mk.inj eq).2]
    split
    · exact Instance.bytes_splice_of_notMem _ _ (by omega)
    · rfl
  have size : m'.size = c₂.kernel.size := by
    rw [← (Prod.mk.inj eq).2]
    split <;> rfl
  obtain ⟨behind, inside⟩ := A.terminated_iff S.heap small
  have lo : 65 ≤ handle.offset := by
    obtain ⟨b', eq', held⟩ := S₁.account.held live
    have := Kernel.Represents.held_bounds held
    omega
  refine ⟨null, ?_⟩
  rw [Instance.cString, Instance.cStringFrom_eq_some_iff noNul, ← behind, ← at',
    same _ (by omega), copied, Instance.bytes_splice_of_notMem _ _ (.inr (Nat.le_refl _))]
  refine ⟨fun h => h.2.2, fun zero => ⟨?_, fun i lt => ?_, zero⟩⟩
  · rw [size, copied, Instance.size_splice]
    omega
  · rw [same _ (by omega), copied, Instance.bytes_copy _ _ _ lt]

/-- The same of a plugin. -/
theorem errorString_of_returnError {σ α : Type} {p : Plugin σ} {c : Config}
    (reach : confinedRuns.Reachable c) (kernel : p.kernel = c.kernel) (inst : p.inst.isSome)
    (linked : p.linked = true) {s : String} (nonempty : s ≠ "") (noNul : 0 ∉ s.toUTF8.toList)
    (recorded : ∃ r m', CurrentPlugin.setError p.owner s p.kernel = (.ok r, m')) (x : α) :
    (∃ q a, p.returnError s x = some (x, q) ∧ extismPluginError q = some a ∧
      q.kernel.cString a = some s.toUTF8.toList) ↔
    p.kernel.boot.Terminated s.toUTF8.toList.length := by
  obtain ⟨⟨a, len⟩, m', run⟩ := recorded
  obtain ⟨cs, S⟩ := Kernel.sound_of_reachable reach
  have returned : p.returnError s x = some (x, { p with
      kernel := m', output := { p.output with errorOffset := a, errorLength := len } }) := by
    have ran : Plugin.onKernel (CurrentPlugin.setError p.owner s) p =
        (.ok (a, len), { p with kernel := m' }) := by
      rw [Plugin.onKernel, Prog.zoom, run]
    rw [Plugin.returnError, if_neg (by simpa [Option.isSome_iff_ne_none] using inst), if_pos linked,
      Plugin.recordError, ran]
  rw [kernel] at run ⊢
  obtain ⟨null, string⟩ := cString_of_setError S nonempty noNul run
  rw [returned, ← string]
  constructor
  · rintro ⟨q, a', same, pointer, read⟩
    obtain ⟨-, rfl⟩ := Prod.mk.inj (Option.some.inj same)
    rw [extismPluginError, if_neg null] at pointer
    obtain rfl := Option.some.inj pointer
    exact read
  · exact fun read => ⟨_, a, rfl, if_neg null, read⟩

/-- **When the C string is the error.**  On every kernel reached, after
`return_error` recorded a message, the string at the pointer is the message
exactly if a zero byte follows the place it goes to. -/
theorem errorString_iff_terminated {σ α : Type} {p : Plugin σ} {c : Config}
    (reach : confinedRuns.Reachable c) (kernel : p.kernel = c.kernel) (inst : p.inst.isSome)
    (linked : p.linked = true) {s : String} (nonempty : s ≠ "") (noNul : 0 ∉ s.toUTF8.toList)
    (recorded : ∃ r m', CurrentPlugin.setError p.owner s p.kernel = (.ok r, m')) (x : α) :
    (∃ q a, p.returnError s x = some (x, q) ∧ extismPluginError q = some a ∧
      q.kernel.cString a = some s.toUTF8.toList) ↔
    (Kernel.MemoryRoot.new p.kernel).2.Terminated s.toUTF8.toList.length := by
  obtain ⟨cs, S⟩ := Kernel.sound_of_reachable reach
  rw [kernel, Kernel.MemoryRoot.new_eq S.pages, ← kernel]
  exact errorString_of_returnError reach kernel inst linked nonempty noNul recorded x

/-- A kernel whose guest got a block of 10 bytes, wrote into it and freed it. -/
def stale : Config :=
  ((((((Config.fresh 1 fun _ => false).after (.errorSet 0) 0).after .reset 0).after
    (.inputSet 0 0) 0).after (.alloc 10) 77).after (.storeU8 80 120) 0).after (.free 77) 0

theorem reachable_stale : confinedRuns.Reachable stale :=
  ((((((Kernel.reachable_fresh (Nat.le_refl 1) (by decide) fun _ => false).step
    (Kernel.confined_of_run (.errorSet 0) 0 (by decide) (by decide +kernel))).step
    (Kernel.confined_of_run .reset 0 (by decide) (by decide +kernel))).step
    (Kernel.confined_of_run (.inputSet 0 0) 0 (by decide) (by decide +kernel))).step
    (Kernel.confined_of_run (.alloc 10) 77 (by decide) (by decide +kernel))).step
    (Kernel.confined_of_run (.storeU8 80 120) 0 (by decide) (by decide +kernel))).step
    (Kernel.confined_of_run (.free 77) 0 (by decide) (by decide +kernel))

/-- A plugin with that kernel, which has had its input set. -/
def stalePlugin : Plugin Unit :=
  { Plugin.fresh () with kernel := stale.kernel, inst := some 0, linked := true }

theorem kernel_stalePlugin : stalePlugin.kernel = stale.kernel := by rw [stalePlugin]

theorem toUTF8_bad : "bad".toUTF8.toList = [98, 97, 100] := by
  rw [toList_eq]
  decide +kernel

theorem setError_stalePlugin :
    ∃ r m', CurrentPlugin.setError stalePlugin.owner "bad" stalePlugin.kernel = (.ok r, m') := by
  have done : (CurrentPlugin.setError stalePlugin.owner "bad" stalePlugin.kernel).1 =
      .ok (77, 3) := by
    rw [CurrentPlugin.setError, toUTF8_bad]
    decide +kernel
  exact ⟨_, _, Prod.ext done rfl⟩

/-- The message `bad` in that block is followed by what the guest wrote. -/
theorem errorString_iff_terminated_of_stale :
    (∃ q a, stalePlugin.returnError "bad" () = some ((), q) ∧ extismPluginError q = some a ∧
      q.kernel.cString a = some "bad".toUTF8.toList) ↔
    (Kernel.MemoryRoot.new stalePlugin.kernel).2.Terminated "bad".toUTF8.toList.length := by
  have noNul : 0 ∉ "bad".toUTF8.toList := by
    rw [toUTF8_bad]
    decide
  exact errorString_iff_terminated reachable_stale kernel_stalePlugin (by decide +kernel)
    rfl (by decide) noNul setError_stalePlugin ()

/-- So the C string is longer than the error. -/
theorem not_errorString_always :
    ¬ ∀ (p : Plugin Unit) (c : Config) (s : String), confinedRuns.Reachable c →
      p.kernel = c.kernel → p.inst.isSome → p.linked = true → s ≠ "" →
      0 ∉ s.toUTF8.toList →
      (∃ r m', CurrentPlugin.setError p.owner s p.kernel = (.ok r, m')) →
      ∃ q a, p.returnError s () = some ((), q) ∧ extismPluginError q = some a ∧
        q.kernel.cString a = some s.toUTF8.toList := by
  intro always
  have noNul : 0 ∉ "bad".toUTF8.toList := by
    rw [toUTF8_bad]
    decide
  have string := always stalePlugin stale "bad" reachable_stale kernel_stalePlugin
    (by decide +kernel) rfl (by decide) noNul setError_stalePlugin
  rw [errorString_of_returnError reachable_stale kernel_stalePlugin (by decide +kernel) rfl
    (by decide) noNul setError_stalePlugin, toUTF8_bad] at string
  revert string
  decide +kernel

end Extism.Runtime
