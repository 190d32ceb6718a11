import Extism.Kernel.Run

/-!
# The heap as its own walks see it

The row of cells is not stored anywhere; the kernel only ever iterates
`next_ptr`.  `Walk` is that iteration, and `WellFormed` says of the raw memory
what the allocator relies on without checking it: the walk ends exactly at
`position`, no header on the way is `Unused`, the subtraction in `alloc` does
not underflow, and the memory behind the row is zero.

The invariant starts with the first call that initialises the root: `alloc(0)`,
`free(0)` and `length(0)` return before `MemoryRoot::new`, and after them the
memory is still untouched.

## Main definitions

* `Walk` — the blocks met from one address to another;
* `WellFormed` — the invariant of the raw memory.

## Main results

* `Represents.wellFormed` — a memory that holds a row of cells is well formed;
* `WellFormed.not_blank` — a blank memory is not;
* `wellFormed_of_run` — after any run the memory is blank or well formed, and
  blank exactly if no call got as far as `MemoryRoot::new`.
-/

namespace Extism.Kernel

open FirstFit (Cell Format)

/-- `next_ptr`, iterated from `a` until `z`: the blocks met, in order. -/
inductive Walk (m : Instance) : ℕ → List ℕ → ℕ → Prop
  | done (a : ℕ) : Walk m a [] a
  | next {a b z : ℕ} {bs : List ℕ} (step : MemoryBlock.nextPtr a m = (.ok b, m))
      (rest : Walk m b bs z) : Walk m a (a :: bs) z

/-- The status in the header at `a` is one a block in use can have, and a block
handed out holds no more than its size. -/
def GoodHeader (m : Instance) (a : ℕ) : Prop :=
  (m.peek 1 (MemoryBlock.status a) = MemoryStatus.active.code ∧
      m.peek 4 (MemoryBlock.used a) ≤ m.peek 4 (MemoryBlock.size a)) ∨
    m.peek 1 (MemoryBlock.status a) = MemoryStatus.free.code

/-- **What the allocator relies on.** -/
structure WellFormed (m : Instance) : Prop where
  walk : ∃ bs, Walk m MemoryRoot.blocks bs
      (MemoryRoot.blocks + m.peek 8 MemoryRoot.position) ∧ ∀ b ∈ bs, GoodHeader m b
  room : m.peek 8 MemoryRoot.position + MemoryRoot.sizeOf ≤ m.peek 8 MemoryRoot.length
  fits : m.peek 8 MemoryRoot.length + 64 ≤ 65536 * m.pages
  zero : ∀ x, MemoryRoot.blocks + m.peek 8 MemoryRoot.position ≤ x → x < 65536 * m.pages →
    m.bytes x = 0

/-- The root of a well-formed memory is initialised: it has room for itself. -/
theorem WellFormed.not_blank {m : Instance} (formed : WellFormed m) : ¬ m.Blank := by
  intro blank
  have room := formed.room
  rw [m.peek_eq_zero fun x _ _ => congrFun blank x, m.peek_eq_zero fun x _ _ => congrFun blank x]
    at room
  exact absurd room (by decide)

namespace HeaderAt

variable {m : Instance} {a : ℕ} {c : Cell}

theorem good (h : HeaderAt m a c) : GoodHeader m a := by
  unfold GoodHeader
  rw [h.status, h.size, h.used]
  cases free : c.free with
  | false =>
      rw [cellStatus_of_held free]
      exact .inl ⟨rfl, c.used_le free⟩
  | true =>
      rw [cellStatus_of_free free]
      exact .inr rfl

end HeaderAt

/-- Rows are walked from end to end. -/
theorem walk_place {m : Instance} (addr : m.size ≤ 2 ^ 32) :
    ∀ (cs : List Cell) (a : ℕ), (∀ p ∈ heap.place a cs, HeaderAt m p.1 p.2) →
      a + heap.extent cs < m.size →
      Walk m a ((heap.place a cs).map Prod.fst) (a + heap.extent cs) := by
  intro cs
  induction cs with
  | nil => intro a _ _; exact .done a
  | cons c cs ih =>
      intro a headers inside
      simp only [Format.place_cons, List.mem_cons, forall_eq_or_imp] at headers
      simp only [Format.extent_cons] at inside
      have width : 12 ≤ heap.width c := by simp [Format.width]
      simp only [Format.place_cons, List.map_cons, Format.extent_cons, ← Nat.add_assoc]
      refine .next (MemoryRoot.findFreeBlock.nextPtr_eq headers.1 ?_ (by omega))
        (ih _ headers.2 (by omega))
      simp only [Format.width, MemoryBlock.sizeOf] at inside width
      omega

theorem Walk.le {m : Instance} {a z : ℕ} {bs : List ℕ} (w : Walk m a bs z) : a ≤ z := by
  induction w with
  | done => exact Nat.le_refl _
  | next step _ ih =>
      have := MemoryBlock.le_of_nextPtr step
      omega

/-- The walk is determined by the memory. -/
theorem Walk.unique {m : Instance} {a z : ℕ} {bs bs' : List ℕ} (w : Walk m a bs z)
    (w' : Walk m a bs' z) : bs = bs' := by
  induction w generalizing bs' with
  | done a =>
      cases w' with
      | done => rfl
      | next step rest =>
          have := MemoryBlock.le_of_nextPtr step
          have := rest.le
          omega
  | next step rest ih =>
      cases w' with
      | done =>
          have := MemoryBlock.le_of_nextPtr step
          have := rest.le
          omega
      | next step' rest' =>
          simp only [step, Prod.mk.injEq, Except.ok.injEq, and_true] at step'
          subst step'
          rw [ih rest']

namespace Represents

variable {m : Instance} {cs : List Cell}

/-- The walk meets the headers of the row. -/
theorem walk (R : Represents m cs) :
    Walk m MemoryRoot.blocks ((heap.place MemoryRoot.blocks cs).map Prod.fst)
      (MemoryRoot.blocks + heap.extent cs) :=
  walk_place R.size_le cs _ R.headers (by
    have := R.extent_le
    simp only [MemoryRoot.blocks]
    omega)

theorem wellFormed (R : Represents m cs) : WellFormed m := by
  constructor
  · refine ⟨_, by rw [R.position]; exact R.walk, fun b mem => ?_⟩
    obtain ⟨⟨_, c⟩, placed, rfl⟩ := List.mem_map.1 mem
    exact (R.header placed).good
  · rw [R.position]
    exact R.room
  · exact R.fits
  · rw [R.position]
    exact R.zero

end Represents

/-! ## Runs -/

/-- A call that returns before `MemoryRoot::new` writes nothing. -/
theorem Call.Rootless.eq_of_run {call : Call} {v : ℕ} {m m' : Instance} (rootless : call.Rootless)
    (run : call.run m = (.ok v, m')) : m' = m := by
  cases call with
  | alloc n =>
      obtain rfl : n = 0 := rootless
      exact (Prog.of_pure run).1
  | free p =>
      obtain rfl : p = 0 := rootless
      exact (Prog.of_pure run).1
  | length p =>
      obtain rfl : p = 0 := rootless
      exact (Prog.of_pure run).1
  | lengthUnsafe p => exact lengthUnsafe_outcome run
  | loadU8 p => exact guarded_load run
  | loadU64 p => exact guarded_load run
  | _ => exact rootless.elim

/-- A memory stays blank while no call gets as far as `MemoryRoot::new`. -/
theorem blank_of_rootless {c c' : Config} {ls : List (Call × ℕ)}
    (run : confinedRuns.Steps c ls c') (rootless : ∀ l ∈ ls, l.1.Rootless)
    (blank : c.kernel.Blank) : c'.kernel.Blank := by
  refine run.invariant_of_labels (I := fun c => c.kernel.Blank)
    (P := fun l => l.1.Rootless) ?_ rootless blank
  intro c c' l rootless blank step
  exact rootless.eq_of_run step.2.1 ▸ blank

/-- It is blank until a call gets there, and well formed from then on. -/
theorem blank_or_wellFormed {c₀ c : Config} {ls : List (Call × ℕ)} (start : confinedRuns.init c₀)
    (run : confinedRuns.Steps c₀ ls c) :
    ((∀ l ∈ ls, l.1.Rootless) ∧ c.kernel.Blank) ∨ WellFormed c.kernel := by
  obtain ⟨pages, host, lo, hi, rfl⟩ := start
  have phases := run.weakUntil (P := fun l => l.1.Rootless)
    (I := fun c => c.kernel.Blank ∧ ∃ cs, Sound c cs)
    (Q := fun c => ∃ cs, Sound c cs ∧ Represents c.kernel cs) ?_ ?_
    ⟨rfl, [], .fresh lo hi host⟩
  · rcases phases with ⟨labels, blank, -⟩ | ⟨cs, -, R⟩
    · exact .inl ⟨labels, blank⟩
    · exact .inr R.wellFormed
  · rintro c c' l ⟨blank, cs, S⟩ step
    obtain ⟨cs', O, S'⟩ := S.step step
    rcases O.initialized S.heap S.pages S.settled with ⟨same, -, rootless⟩ | R
    · exact .inl ⟨rootless, same ▸ blank, cs', S'⟩
    · exact .inr ⟨cs', S', R⟩
  · rintro c c' l ⟨cs, S, R⟩ step
    obtain ⟨cs', O, S'⟩ := S.step step
    rcases O.initialized S.heap S.pages S.settled with ⟨same, rfl, -⟩ | R'
    · exact ⟨cs', S', same ▸ R⟩
    · exact ⟨cs', S', R'⟩

/-- **The heap invariant over runs.**  The memory is untouched exactly as long as
no call got as far as `MemoryRoot::new`, and well formed otherwise. -/
theorem wellFormed_of_run {c₀ c : Config} {ls : List (Call × ℕ)} (start : confinedRuns.init c₀)
    (run : confinedRuns.Steps c₀ ls c) :
    (c.kernel.Blank ↔ ∀ l ∈ ls, l.1.Rootless) ∧ (c.kernel.Blank ∨ WellFormed c.kernel) := by
  have phases := blank_or_wellFormed start run
  have fresh : c₀.kernel.Blank := by
    obtain ⟨pages, host, -, -, rfl⟩ := start
    rfl
  refine ⟨⟨fun blank => ?_, fun rootless => blank_of_rootless run rootless fresh⟩,
    phases.imp_left And.right⟩
  exact (phases.resolve_right fun formed => formed.not_blank blank).1

/-- A run of one allocation: the memory it leaves is well formed. -/
theorem wellFormed_after_alloc :
    WellFormed (Config.after (.fresh 1 fun _ => false) (.alloc 10) 77).kernel := by
  have start : confinedRuns.init (.fresh 1 fun _ => false) :=
    ⟨1, _, by decide, by decide, rfl⟩
  have step := confined_of_run (c := .fresh 1 fun _ => false) (.alloc 10) 77 (by decide)
    (by decide +kernel)
  obtain ⟨blank_iff, phases⟩ := wellFormed_of_run start (.single step)
  refine phases.resolve_left fun blank => ?_
  exact absurd (blank_iff.1 blank _ List.mem_cons_self) (by simp [Call.Rootless])

/-- The memory is not well formed after *every* call: `alloc(0)` returns before
the root is initialised, and leaves `length` at 0. -/
theorem not_wellFormed_after_every_call :
    ¬ ∀ (c c' : Config) (l : Call × ℕ), confinedRuns.Reachable c → confinedRuns.step c l c' →
      WellFormed c'.kernel := by
  intro all
  have start := reachable_fresh (Nat.le_refl 1) (by decide) fun _ => false
  have room := (all _ _ _ start (confined_of_run (.alloc 0) 0 (by decide) rfl)).room
  revert room
  decide +kernel

end Extism.Kernel
