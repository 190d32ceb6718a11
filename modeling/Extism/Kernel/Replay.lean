import Extism.Kernel.Refinement
import Extism.Kernel.Reset
import Mathlib.Data.List.GetD

/-!
# The same requests again

`reset` keeps `length` and the memory.  So a sequence of requests that was
served once is served again without growing the memory, as long as a
`memory.grow` by no pages, which `alloc` makes for a block that exactly fills
the space that is left, does not fail.

Where a sequence puts its blocks is determined by the sequence, unless a
`memory.grow` fails.  So there is a plan, computed without a memory; the first
time `length` ends up above every row the plan goes through, and the second time
it starts there, so the pages needed are none.

## Main definitions

* `Op`, `perform` — a request, and `reset` followed by a sequence of requests.
* `Proper` — a sequence that allocates a byte at least and frees what is live.
* `Plan`, `Plan.after`, `Plan.Below` — the handles and the row a sequence leads
  to, and that every row on the way fits under `length`.
* `Performed`, `Executed` — a request and a sequence, executed on a memory.

## Main results

* `FirstFitAlloc.growth` — what an allocation adds to the memory.
* `executed` — a proper sequence completes and does what the plan says.
* `perform_again` — the same requests again.
-/

namespace Extism.Kernel

open FirstFit (Cell Format)

/-! ## Sequences of requests -/

/-- A request: an allocation, or freeing what the `i`-th allocation of the
sequence returned. -/
inductive Op
  | alloc (n : ℕ)
  | free (i : ℕ)
  deriving DecidableEq

/-- Execute a request, given the handles returned so far. -/
def Op.run : Op → List ℕ → Exec (List ℕ)
  | .alloc n, hs => do
      let h ← Kernel.alloc n
      pure (hs ++ [h])
  | .free i, hs => do
      Kernel.free (hs.getD i 0)
      pure hs

/-- Execute a sequence. -/
def runOps : List Op → List ℕ → Exec (List ℕ)
  | [], hs => pure hs
  | op :: ops, hs => do
      let hs ← op.run hs
      runOps ops hs

/-- `reset`, then a sequence: the handles of its allocations. -/
def perform (ops : List Op) : Exec (List ℕ) := do
  reset
  runOps ops []

/-- The allocations made after a request, `k` of them before it. -/
def Op.made (k : ℕ) : Op → ℕ
  | .alloc _ => k + 1
  | .free _ => k

/-- The allocations live after a request, those in `live` before it. -/
def Op.live (k : ℕ) (live : List ℕ) : Op → List ℕ
  | .alloc _ => k :: live
  | .free i => live.filter (· ≠ i)

/-- An allocation asks for a byte at least and for less than 4 GiB; what is freed
is live. -/
def Op.Proper (live : List ℕ) : Op → Prop
  | .alloc n => 1 ≤ n ∧ n < 2 ^ 32
  | .free i => i ∈ live

/-- Every request of a sequence is proper, from the allocations in `live` on. -/
def Proper : ℕ → List ℕ → List Op → Prop
  | _, _, [] => True
  | k, live, op :: ops => op.Proper live ∧ Proper (op.made k) (op.live k live) ops

/-! ## The plan of a sequence -/

/-- The handles returned, and the row. -/
structure Plan where
  handles : List ℕ
  row : List Cell

namespace Plan

/-- What a request does unless a grow fails. -/
def next (P : Plan) : Op → Plan
  | .alloc n => ⟨P.handles ++ [(heap.grant n MemoryRoot.blocks P.row).1 + 12],
      (heap.grant n MemoryRoot.blocks P.row).2⟩
  | .free i => ⟨P.handles, heap.release (P.handles.getD i 0 - 12) MemoryRoot.blocks P.row⟩

/-- What a sequence does. -/
def after (P : Plan) (ops : List Op) : Plan := ops.foldl next P

/-- Every row from the next on fits under `length`. -/
def Below (length : ℕ) : Plan → List Op → Prop
  | _, [] => True
  | P, op :: ops =>
      heap.extent (P.next op).row + MemoryRoot.sizeOf ≤ length ∧ (P.next op).Below length ops

/-- The handles of the allocations in `live` are those of held blocks, each of
its own, except for those that failed. -/
structure Named (P : Plan) (live : List ℕ) : Prop where
  made : ∀ i ∈ live, i < P.handles.length
  held : ∀ i ∈ live, P.handles.getD i 0 = 0 ∨
    ∃ b n, P.handles.getD i 0 = b + 12 ∧ heap.Held MemoryRoot.blocks P.row b n
  apart : ∀ i ∈ live, ∀ j ∈ live, i ≠ j → P.handles.getD i 0 = P.handles.getD j 0 →
    P.handles.getD i 0 = 0

variable {P : Plan} {live : List ℕ}

/-- A handle that is not among the live ones, or null, added at the end. -/
theorem Named.push (N : P.Named live) {h : ℕ} {row : List Cell}
    (kept : ∀ b n, heap.Held MemoryRoot.blocks P.row b n → heap.Held MemoryRoot.blocks row b n)
    (new : h = 0 ∨ ∃ b n, h = b + 12 ∧ heap.Held MemoryRoot.blocks row b n ∧
      ∀ k, ¬ heap.Held MemoryRoot.blocks P.row b k) :
    Named ⟨P.handles ++ [h], row⟩ (P.handles.length :: live) := by
  have last : (P.handles ++ [h]).getD P.handles.length 0 = h := by simp
  have old : ∀ i ∈ live, (P.handles ++ [h]).getD i 0 = P.handles.getD i 0 := fun i mem =>
    List.getD_append _ _ _ _ (N.made i mem)
  -- the new handle is no old one
  have fresh : ∀ i ∈ live, P.handles.getD i 0 = h → h = 0 := by
    intro i mem eq
    rcases new with null | ⟨b, n, rfl, -, unheld⟩
    · exact null
    · rcases N.held i mem with zero | ⟨b', k, eq', held⟩
      · omega
      · obtain rfl : b' = b := by omega
        exact absurd held (unheld k)
  constructor
  · intro i mem
    rcases List.mem_cons.1 mem with rfl | mem
    · simp
    · have := N.made i mem
      simp only [List.length_append]
      omega
  · intro i mem
    rcases List.mem_cons.1 mem with rfl | mem
    · rw [last]
      exact new.imp_right fun ⟨b, n, eq, held, _⟩ => ⟨b, n, eq, held⟩
    · rw [old i mem]
      exact (N.held i mem).imp_right fun ⟨b, n, eq, held⟩ => ⟨b, n, eq, kept b n held⟩
  · intro i mem j mem' ne eq
    rcases List.mem_cons.1 mem with rfl | mem <;> rcases List.mem_cons.1 mem' with rfl | mem'
    · exact absurd rfl ne
    · rw [last, old j mem'] at eq
      rw [last]
      exact fresh j mem' eq.symm
    · rw [last, old i mem] at eq
      rw [old i mem, eq]
      exact fresh i mem eq
    · rw [old i mem, old j mem'] at eq
      rw [old i mem]
      exact N.apart i mem j mem' ne eq

/-- A live allocation, freed. -/
theorem Named.drop (N : P.Named live) {i : ℕ} (mem : i ∈ live) :
    (P.next (.free i)).Named (live.filter (· ≠ i)) := by
  refine ⟨fun j mem' => N.made j (List.mem_of_mem_filter mem'), fun j mem' => ?_,
    fun j mem' k mem'' => N.apart j (List.mem_of_mem_filter mem') k (List.mem_of_mem_filter mem'')⟩
  obtain ⟨mem', ne⟩ := List.mem_filter.1 mem'
  have ne : i ≠ j := fun eq => by simp [eq] at ne
  rcases N.held j mem' with zero | ⟨b, n, eq, held⟩
  · exact .inl zero
  · refine .inr ⟨b, n, eq, (Format.held_release _).2 ⟨held, fun same => ?_⟩⟩
    -- the block freed is another allocation's
    rcases N.held i mem with zero | ⟨b', k, eq', -⟩
    · have := Represents.held_bounds held
      omega
    · have := N.apart i mem j mem' ne (by omega)
      omega

end Plan

/-! ## One request -/

/-- What an allocation that did not fail adds to the memory: `k` pages, none if
the heap is below `length` anyway. -/
theorem FirstFitAlloc.growth {m m' : Instance} {n h : ℕ} (F : FirstFitAlloc m n h m')
    (found : h ≠ 0) : ∃ k gs, m'.grows = m.grows ++ gs ∧ (∀ g ∈ gs, g.1 = k) ∧
      (m'.position + MemoryRoot.sizeOf ≤ m.length → k = 0) ∧
        m'.length = m.length + PAGE_SIZE * k ∧ m'.pages = m.pages + k := by
  have idle : ∀ {m' : Instance}, SameRoom m m' → ∃ k gs, m'.grows = m.grows ++ gs ∧
      (∀ g ∈ gs, g.1 = k) ∧ (m'.position + MemoryRoot.sizeOf ≤ m.length → k = 0) ∧
        m'.length = m.length + PAGE_SIZE * k ∧ m'.pages = m.pages + k := fun same =>
    ⟨0, [], by rw [same.2.2.2, List.append_nil], by simp, fun _ => rfl,
      by rw [same.2.1, Nat.mul_zero, Nat.add_zero], same.2.2.1⟩
  cases F with
  | whole _ _ _ _ _ same => exact idle same
  | split _ _ _ _ _ same => exact idle same
  | @appended _ k _ least _ position length pages grows =>
      have none : m'.position + MemoryRoot.sizeOf ≤ m.length → k = 0 := fun below =>
        Nat.le_zero.1 (least.2 0 (by rw [← position]; simpa using below))
      rcases grows with ⟨zero, same⟩ | grew
      · exact ⟨k, [], by rw [same, List.append_nil], by simp, none, length, pages⟩
      · exact ⟨k, [(k, true)], grew, by simp, none, length, pages⟩
  | refused => exact absurd rfl found

/-- **A request, executed** on a memory with the plan `P`: the plan `P'` and the
memory it leaves, and the grows it made, each for `k` pages. -/
structure Performed (m : Instance) (P : Plan) (live : List ℕ) (op : Op) (P' : Plan)
    (m' : Instance) (k : ℕ) (gs : List (ℕ × Bool)) : Prop where
  run : op.run P.handles m = (.ok P'.handles, m')
  heap : Represents m' P'.row
  named : P'.Named (op.live P.handles.length live)
  made : P'.handles.length = op.made P.handles.length
  grows : m'.grows = m.grows ++ gs
  asked : ∀ g ∈ gs, g.1 = k
  below : FirstFit.Format.extent Kernel.heap (P.next op).row + MemoryRoot.sizeOf ≤ m.length → k = 0
  granted : (∀ g ∈ gs, g.2 = true) →
    P' = P.next op ∧ m'.length = m.length + PAGE_SIZE * k ∧ m'.pages = m.pages + k

namespace Represents

variable {m : Instance} {P : Plan} {live : List ℕ}

theorem pages_pos {cs : List Cell} (R : Represents m cs) : 1 ≤ m.pages := by
  have extent := R.extent_le
  simp only [Instance.size, PAGE_SIZE] at extent
  omega

/-- The call behind an `alloc` of a plan. -/
theorem alloc_op_run (R : Represents m P.row) {n : ℕ} (pos : 1 ≤ n) {r : Option ℕ} {m' : Instance}
    (eq : MemoryRoot.alloc n m = (.ok r, m')) :
    (Op.alloc n).run P.handles m = (.ok (P.handles ++ [handle r]), m') := by
  have called : alloc n m = (.ok (handle r), m') :=
    Kernel.alloc_run (by omega) R.pages_pos (by rwa [R.boot_eq])
  rw [Op.run, Prog.bind_ok called]
  rfl

/-- A request that is refused. -/
theorem alloc_refused (R : Represents m P.row) (N : P.Named live) {n : ℕ} (pos : 1 ≤ n)
    (small : n < 2 ^ 32) {m' : Instance} {cs' : List Cell}
    (eq : MemoryRoot.alloc n m = (.ok none, m')) (A : Allocated m n P.row none m' cs') :
    ∃ P' k gs, Performed m P live (.alloc n) P' m' k gs := by
  have run := R.alloc_op_run pos eq
  have R' := A.represents R small
  obtain rfl := A.refused_row
  obtain ⟨hs, cs⟩ := P
  have R : Represents m cs := R
  have named : Plan.Named ⟨hs ++ [0], cs⟩ (hs.length :: live) :=
    N.push (fun _ _ held => held) (.inl rfl)
  cases A with
  | refused _ skip short cannot =>
      refine ⟨⟨hs ++ [0], cs⟩, m.pagesNeeded cs n,
        [(m.pagesNeeded cs n, false)], run, R', named, by simp [Op.made], rfl, by simp,
        fun below => ?_, by simp⟩
      refine Nat.le_zero.1 ((R.leastPages small short).2 0 ?_)
      rw [Plan.next, Format.grant_of_none skip] at below
      simp only [Format.extent_append, Format.extent_cons, Format.extent_nil, Format.width,
        Cell.held_size, MemoryBlock.sizeOf] at below
      rw [R.position_eq]
      omega

/-- A request that is granted a block at `b`. -/
theorem alloc_granted (R : Represents m P.row) (N : P.Named live) {n : ℕ} (pos : 1 ≤ n)
    (small : n < 2 ^ 32) {b : ℕ} {m' : Instance} {cs' : List Cell}
    (eq : MemoryRoot.alloc n m = (.ok (some b), m')) (A : Allocated m n P.row (some b) m' cs') :
    ∃ P' k gs, Performed m P live (.alloc n) P' m' k gs := by
  have run := R.alloc_op_run pos eq
  have R' := A.represents R small
  have next : P.next (.alloc n) = ⟨P.handles ++ [b + 12], cs'⟩ := by
    rw [Plan.next, A.grant]
  obtain ⟨k, gs, grows, asked, below, length, pages⟩ :=
    (A.firstFit R small).growth (by simp [handle])
  refine ⟨⟨P.handles ++ [b + 12], cs'⟩, k, gs, run, R', ?_, by simp [Op.made], grows,
    asked, ?_, fun _ => ⟨next.symm, length, pages⟩⟩
  · exact N.push (fun b' k old => A.held_iff.2 (.inl old))
      (.inr ⟨b, n, rfl, A.held_iff.2 (.inr ⟨rfl, rfl⟩), A.not_held⟩)
  · rw [next, ← R'.position_eq]
    exact below

theorem alloc_performed (R : Represents m P.row) (N : P.Named live) {n : ℕ} (pos : 1 ≤ n)
    (small : n < 2 ^ 32) : ∃ P' m' k gs, Performed m P live (.alloc n) P' m' k gs := by
  obtain ⟨r, m', cs', eq, A⟩ := R.alloc_spec small
  cases r with
  | none =>
      obtain ⟨P', k, gs, done⟩ := R.alloc_refused N pos small eq A
      exact ⟨P', m', k, gs, done⟩
  | some b =>
      obtain ⟨P', k, gs, done⟩ := R.alloc_granted N pos small eq A
      exact ⟨P', m', k, gs, done⟩

theorem free_performed (R : Represents m P.row) (N : P.Named live) {i : ℕ} (mem : i ∈ live) :
    ∃ P' m' k gs, Performed m P live (.free i) P' m' k gs := by
  have named := N.drop mem
  rcases N.held i mem with zero | ⟨b, n, eq, held⟩
  · -- a failed allocation has no block to free
    have row : (P.next (.free i)).row = P.row := by
      rw [Plan.next, zero]
      exact Format.release_of_lt (by decide)
    refine ⟨P.next (.free i), m, 0, [], ?_, by rwa [row], named, rfl, (List.append_nil _).symm,
      by simp, fun _ => rfl, fun _ => ⟨rfl, by rw [Nat.mul_zero, Nat.add_zero], rfl⟩⟩
    rw [Op.run, zero]
    rfl
  · have bounds := held_bounds held
    have row : (P.next (.free i)).row = heap.release b MemoryRoot.blocks P.row := by
      rw [Plan.next, eq, Nat.add_sub_cancel]
    have booted := R.boot_eq
    have called : free (b + 12) m = (.ok (), m.boot.freed b) :=
      free_held (by rwa [booted]) R.pages_pos held
    rw [booted] at called
    have length : (m.freed b).length = m.length := by
      rw [Instance.length, Instance.length]
      refine Instance.peek_congr fun x lo hi => Instance.bytes_freed_of_ne _ ?_ ?_ <;>
        simp only [MemoryRoot.length] at hi <;> omega
    refine ⟨P.next (.free i), m.freed b, 0, [], ?_, by rw [row]; exact R.freed held, named, rfl,
      by rw [Instance.grows_freed, List.append_nil], by simp, fun _ => rfl,
      fun _ => ⟨rfl, by rw [length, Nat.mul_zero, Nat.add_zero], by simp⟩⟩
    rw [Op.run, eq, Prog.bind_ok called]
    rfl

theorem performed (R : Represents m P.row) (N : P.Named live) {op : Op}
    (proper : op.Proper live) : ∃ P' m' k gs, Performed m P live op P' m' k gs := by
  cases op with
  | alloc n => exact R.alloc_performed N proper.1 proper.2
  | free i => exact R.free_performed N proper

end Represents

/-! ## A sequence -/

/-- **A sequence, executed** on a memory with the plan `P`: the handles and the
memory it leaves, and the grows it made. -/
structure Executed (m : Instance) (P : Plan) (ops : List Op) (hs : List ℕ) (m' : Instance)
    (gs : List (ℕ × Bool)) : Prop where
  run : runOps ops P.handles m = (.ok hs, m')
  grows : m'.grows = m.grows ++ gs
  granted : (∀ g ∈ gs, g.2 = true) → hs = (P.after ops).handles ∧
    Represents m' (P.after ops).row ∧ m.length ≤ m'.length ∧ P.Below m'.length ops
  covered : P.Below m.length ops → (∀ g ∈ gs, g.1 = 0 → g.2 = true) →
    hs = (P.after ops).handles ∧ m'.length = m.length ∧ m'.pages = m.pages

/-- **A proper sequence completes**, and does what the plan says: if every grow
succeeds, and also, without growing, if the plan is below `length`. -/
theorem executed (ops : List Op) : ∀ {m : Instance} {P : Plan} {live : List ℕ},
    Represents m P.row → P.Named live → Proper P.handles.length live ops →
      ∃ hs m' gs, Executed m P ops hs m' gs := by
  induction ops with
  | nil =>
      intro m P live R _ _
      exact ⟨P.handles, m, [], rfl, (List.append_nil _).symm,
        fun _ => ⟨rfl, R, Nat.le_refl _, trivial⟩, fun _ _ => ⟨rfl, rfl, rfl⟩⟩
  | cons op ops ih =>
      intro m P live R N proper
      obtain ⟨P', m₁, k, gs₁, D⟩ := R.performed N proper.1
      obtain ⟨hs, m', gs₂, E⟩ := ih D.heap D.named (by rw [D.made]; exact proper.2)
      refine ⟨hs, m', gs₁ ++ gs₂, by rw [runOps, Prog.bind_ok D.run, E.run],
        by rw [E.grows, D.grows, List.append_assoc], fun all => ?_, fun below zero => ?_⟩
      · simp only [List.forall_mem_append] at all
        obtain ⟨rfl, length, -⟩ := D.granted all.1
        obtain ⟨eq, rep, le, below⟩ := E.granted all.2
        have room : heap.extent (P.next op).row + MemoryRoot.sizeOf ≤ m₁.length := D.heap.room
        exact ⟨eq, rep, by omega, by omega, below⟩
      · simp only [List.forall_mem_append] at zero
        have none := D.below below.1
        obtain ⟨rfl, length, pages⟩ := D.granted fun g mem => zero.1 g mem (by
          rw [D.asked g mem, none])
        rw [none, Nat.mul_zero, Nat.add_zero] at length
        rw [none, Nat.add_zero] at pages
        obtain ⟨eq, length', pages'⟩ := E.covered (by rw [length]; exact below.2) zero.2
        exact ⟨eq, length'.trans length, pages'.trans pages⟩

/-- No allocation of a plan failed. -/
theorem Plan.zero_notMem_after (ops : List Op) {P : Plan} (null : 0 ∉ P.handles) :
    0 ∉ (P.after ops).handles := by
  induction ops generalizing P with
  | nil => exact null
  | cons op ops ih =>
      refine ih ?_
      cases op with
      | alloc n => simp [next, null]
      | free i => exact null

/-- `reset` does not touch `length`. -/
theorem Instance.length_wiped (m : Instance) {pos : ℕ} : (m.wiped pos).length = m.length := by
  rw [length, length, wiped, MemoryRoot.length]
  simp (disch := omega) only [peek_splice_of_disjoint]

/-- **The same requests again.**  After any run, a `reset` and a proper sequence
in which every grow succeeded, another `reset` and the same sequence, with every
grow by no pages succeeding, return the same handles, none of them null, and
leave `length` and the memory as they were. -/
theorem perform_again {c : Config} (reach : confinedRuns.Reachable c) {ops : List Op}
    (proper : Proper 0 [] ops) {r₁ r₂ : Except Fault (List ℕ)} {m₁ m₂ : Instance}
    (first : perform ops c.kernel = (r₁, m₁)) (grew : c.kernel.GrewOk m₁)
    (again : perform ops m₁ = (r₂, m₂))
    (zero : ∀ g ∈ m₂.grows.drop m₁.grows.length, g.1 = 0 → g.2 = true) :
    (∃ hs, r₁ = .ok hs ∧ r₂ = .ok hs ∧ 0 ∉ hs) ∧ m₂.length = m₁.length ∧
      m₂.pages = m₁.pages := by
  obtain ⟨cs, S⟩ := sound_of_reachable reach
  have named : Plan.Named ⟨[], []⟩ [] := ⟨by simp, by simp, by simp⟩
  -- the first time
  obtain ⟨hs, m', gs, E⟩ := executed ops (P := ⟨[], []⟩) S.heap.wiped named proper
  rw [perform, Prog.bind_ok (S.heap.reset_run S.pages), E.run] at first
  obtain ⟨rfl, rfl⟩ := Prod.mk.inj first
  have grows : m'.grows = c.kernel.grows ++ gs := by
    rw [E.grows, ← Instance.grows_boot c.kernel]
    rfl
  rw [Instance.GrewOk, grows, List.drop_left] at grew
  obtain ⟨eq, R, -, below⟩ := E.granted grew
  -- and again
  obtain ⟨hs', m'', gs', E'⟩ := executed ops (P := ⟨[], []⟩) R.wiped named proper
  have booted := R.boot_eq
  have reset : reset m' = (.ok (), m'.wiped (heap.extent (Plan.after ⟨[], []⟩ ops).row)) := by
    have run := Represents.reset_run (m := m') (by rwa [booted]) R.pages_pos
    rwa [booted] at run
  rw [perform, Prog.bind_ok reset, E'.run] at again
  obtain ⟨rfl, rfl⟩ := Prod.mk.inj again
  have grows' : m''.grows = m'.grows ++ gs' := E'.grows
  rw [grows', List.drop_left] at zero
  obtain ⟨eq', length, pages⟩ := E'.covered (by rwa [Instance.length_wiped]) zero
  exact ⟨⟨hs, rfl, by rw [eq', eq], eq ▸ Plan.zero_notMem_after ops (by simp)⟩,
    by rw [length, Instance.length_wiped], pages⟩

/-- A block that fills two pages exactly, and is freed. -/
def twoPages : List Op := [.alloc 130932, .free 0]

/-- The memory after that sequence, grown by a page. -/
def grownOnce : Instance := (perform twoPages (Config.fresh 1 fun _ => true).kernel).2

/-- The second time the sequence asks for no page. -/
theorem perform_again_of_twoPages :
    (perform twoPages grownOnce).2.length = grownOnce.length ∧
      (perform twoPages grownOnce).2.pages = grownOnce.pages := by
  have reach := reachable_fresh (Nat.le_refl 1) (by decide) fun _ => true
  have proper : Proper 0 [] twoPages :=
    ⟨⟨by decide, by decide⟩, List.mem_cons_self, trivial⟩
  exact (perform_again reach proper Prod.mk.eta.symm (by decide +kernel) Prod.mk.eta.symm
    (by decide +kernel)).2

end Extism.Kernel
