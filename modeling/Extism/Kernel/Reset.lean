import Extism.Kernel.Mirror

/-!
# `reset` makes the kernel as good as new

After any run and a `reset`, a caller that keeps to its own blocks receives the
same answers as on a fresh instance.  The two instances are not equal: the used
one keeps its `length` and its memory, and grows at other times.  They are
mirror images, and the rest is `Mirror.step`, run in lockstep.

The heap that a `reset` wipes is what the used memory has beyond the fresh one;
everything behind it was zero before, by the heap invariant.

## Main definitions

* `continuations` — local calls, none of whose grows fails.

## Main results

* `Instance.bytes_wiped` — the root fields from the error on are zero after
  `reset`, as they are after the first call on a fresh instance.
* `mirror_of_reset` — a used kernel, reset, mirrors a fresh one.
* `reset_indistinguishable` — `reset` hides the past.
-/

namespace Extism.Kernel

open FirstFit (Cell Format)

/-- Continuations: local calls, none of whose grows fails. -/
def continuations : TransitionSystem Config (Call × ℕ) where
  init := kernelRuns.init
  step c l c' := kernelRuns.step c l c' ∧ l.1.Local c ∧ c.kernel.GrewOk c'.kernel

namespace Instance

/-- Writing zeros does not disturb bytes that are zero. -/
theorem bytes_poke_zero {m : Instance} {k a x : ℕ} (zero : m.bytes x = 0) :
    (m.poke k a 0).bytes x = 0 := by
  by_cases inside : a ≤ x ∧ x < a + k
  · rw [bytes_splice_of_mem _ _ inside.1 inside.2]
    simp [ByteMem.wordBytes]
  · rw [bytes_splice_of_notMem _ _ (by omega), zero]

/-- The root fields from the error on are zero after `reset`. -/
theorem bytes_wiped (m : Instance) (pos : ℕ) {x : ℕ} (lo : 25 ≤ x) (hi : x < 65) :
    (m.wiped pos).bytes x = 0 := by
  have field : ∀ {n : Instance} {a : ℕ}, a ≤ x → x < a + 8 → (n.poke 8 a 0).bytes x = 0 := by
    intro n a alo ahi
    rw [bytes_splice_of_mem _ _ alo ahi]
    simp [ByteMem.wordBytes]
  rw [wiped]
  -- the last field that covers `x` decides
  by_cases h : 57 ≤ x
  · exact field h (by omega)
  refine bytes_poke_zero ?_
  by_cases h : 49 ≤ x
  · exact field h (by omega)
  refine bytes_poke_zero ?_
  by_cases h : 41 ≤ x
  · exact field h (by omega)
  refine bytes_poke_zero ?_
  by_cases h : 33 ≤ x
  · exact field h (by omega)
  refine bytes_poke_zero ?_
  exact field lo (by omega)

/-- So they are after the first call on a fresh instance. -/
theorem Blank.bytes_boot {m : Instance} (blank : m.Blank) {x : ℕ} (lo : 25 ≤ x) (hi : x < 65) :
    m.boot.bytes x = 0 := by
  have off : m.peek 1 MemoryRoot.initialized = 0 := peek_eq_zero fun x _ _ => by rw [blank]
  rw [boot, if_neg (by rw [off]; decide),
    bytes_splice_of_notMem _ _ (by simp only [MemoryRoot.blocks]; omega)]
  refine bytes_poke_zero ?_
  rw [bytes_splice_of_notMem _ _ (by simp only [MemoryRoot.length]; omega)]
  iterate 5 refine bytes_poke_zero ?_
  rw [bytes_splice_of_notMem _ _ (by simp only [MemoryRoot.initialized]; omega), blank]

end Instance

/-- What a `reset` leaves behind. -/
theorem Sound.of_reset {c s : Config} {cs : List Cell} (C : Sound c cs)
    (reset : confinedRuns.step c (.reset, 0) s) :
    s.kernel = c.kernel.boot.wiped (Kernel.heap.extent cs) ∧ Sound s [] := by
  have run : (Kernel.reset).discard c.kernel = (.ok 0, s.kernel) := reset.2.1
  rw [Exec.discard_ok (C.heap.reset_run C.pages)] at run
  have kernel := (Prod.mk.inj run).2
  exact ⟨kernel.symm, C.of_outcome (l := (.reset, 0)) (kernel ▸ .wiped) reset.2.2⟩

/-- **A used kernel, reset, mirrors a fresh one.** -/
theorem mirror_of_reset {c s t : Config} (reach : confinedRuns.Reachable c)
    (reset : confinedRuns.step c (.reset, 0) s) (fresh : kernelRuns.init t) :
    Mirror s t [] := by
  obtain ⟨cs, C⟩ := sound_of_reachable reach
  obtain ⟨pages, host, lo, hi, rfl⟩ := fresh
  obtain ⟨kernel, S⟩ := C.of_reset reset
  have booted : s.kernel.boot = s.kernel := by
    rw [kernel]
    exact C.heap.wiped.boot_eq
  have zero : ∀ x, 25 ≤ x → x < 65 → s.kernel.boot.bytes x = 0 := by
    intro x xlo xhi
    rw [booted, kernel]
    exact Instance.bytes_wiped _ _ xlo xhi
  have blank : (Instance.fresh pages host).Blank := rfl
  refine ⟨S, .fresh lo hi host, reset.2.2, fun x xlo xhi => ?_, .inl ?_⟩
  · rw [zero x xlo xhi]
    exact (blank.bytes_boot xlo xhi).symm
  · exact Instance.peek_eq_zero fun x xlo xhi => zero x (by omega) (by omega)

/-- **`reset` hides the past.**  Whatever came before it, every continuation is
answered as on a fresh instance, and on both sides every further local call
completes. -/
theorem reset_indistinguishable {c s t s' t' : Config} {ls ks : List (Call × ℕ)}
    (reach : confinedRuns.Reachable c) (reset : confinedRuns.step c (.reset, 0) s)
    (fresh : kernelRuns.init t) (left : continuations.Steps s ls s')
    (right : continuations.Steps t ks t') (same : ls.map Prod.fst = ks.map Prod.fst) :
    ls = ks ∧ ∀ call : Call, (call.Local s' ↔ call.Local t') ∧ (call.Local s' →
      (∃ v, (call.run s'.kernel).1 = .ok v) ∧ ∃ v, (call.run t'.kernel).1 = .ok v) := by
  have answer : ∀ {s s' t t' : Config} {l k : Call × ℕ}, (∃ cs, Mirror s t cs) →
      continuations.step s l s' → continuations.step t k t' → l.1 = k.1 →
        l = k ∧ ∃ cs, Mirror s' t' cs := by
    rintro s s' t t' l k ⟨cs, M⟩ first second same
    exact M.step first.1 second.1 same first.2.1 first.2.2 second.2.2
  obtain ⟨answers, cs, M⟩ := left.lockstep Prod.fst answer right
    ⟨[], mirror_of_reset reach reset fresh⟩ same
  refine ⟨answers, fun call => ⟨M.local_iff, fun ok => ?_⟩⟩
  obtain ⟨v, w, m₁, m₂, run₁, run₂, -⟩ := M.echo ok
  exact ⟨⟨v, by rw [run₁]⟩, w, by rw [run₂]⟩

/-- A block of 70000 bytes makes the memory grow before the `reset`; after it, a
block of 66000 bytes fits without, while the fresh instance has to grow. -/
theorem reset_indistinguishable_after_grow :
    let s := ((Config.fresh 1 fun _ => true).after (.alloc 70000) 77).after .reset 0
    let t := Config.fresh 1 fun _ => true
    ∀ call : Call, call.Local (s.after (.alloc 66000) 77) ↔
      call.Local (t.after (.alloc 66000) 77) := by
  have reach := (reachable_fresh (Nat.le_refl 1) (by decide) fun _ => true).step
    (confined_of_run (.alloc 70000) 77 (by decide) (by decide +kernel))
  have reset := confined_of_run (c := (Config.fresh 1 fun _ => true).after (.alloc 70000) 77)
    .reset 0 (by decide) (by decide +kernel)
  have small : (66000 : ℕ) < 2 ^ 32 := by decide
  have indistinguishable := (reset_indistinguishable reach reset
    ⟨1, fun _ => true, by decide, by decide, rfl⟩
    (.single ⟨@step_of_run _ (.alloc 66000) 77 (by decide +kernel), small,
      by decide +kernel⟩)
    (.single ⟨@step_of_run _ (.alloc 66000) 77 (by decide +kernel), small,
      by decide +kernel⟩) rfl).2
  exact fun call => (indistinguishable call).1

end Extism.Kernel
