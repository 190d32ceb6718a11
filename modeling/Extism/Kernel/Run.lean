import Extism.Kernel.Outcome
import Extism.Lib.Transition

/-!
# Kernel runs

A run is a sequence of completed calls on one instance, from a fresh one on.
Beside the instance a `Config` carries a `Ledger`, the caller's own account of
its blocks: which handles `alloc` returned for how many bytes and were not freed
since, and which were freed and not handed out again.  The ledger is computed
from calls and answers alone; the kernel never sees it.

`Sound` ties the two together.  It is what every step preserves, so it holds in
every configuration reached, and the theorems about runs follow from it.

## Main definitions

* `Ledger`, `Ledger.after` — the account, and one call entered in it.
* `Ledger.Agrees` — the account matches a row.
* `Config`, `kernelRuns`, `confinedRuns` — runs, and those of callers that keep to
  the contract.
* `Sound` — the invariant.

## Main results

* `Outcome.initialized` — a call that gets as far as `MemoryRoot::new` leaves the
  root initialised.
* `Outcome.represents`, `Outcome.agrees` — the memory represents the new row, and
  the account matches it.
* `Sound.step` — one step keeps the invariant.
* `sound_of_reachable` — it holds in every configuration reached.
-/

namespace Extism.Kernel

open FirstFit (Cell Format)

/-! ## The caller's account -/

/-- What a caller knows of its blocks. -/
structure Ledger where
  /-- Handles in use, with the length asked for. -/
  live : List (ℕ × ℕ)
  /-- Handles freed and not handed out again. -/
  freed : List ℕ

namespace Ledger

/-- No block has been allocated yet. -/
def empty : Ledger := ⟨[], []⟩

/-- The account after a call and its answer. -/
def after (L : Ledger) : Call → ℕ → Ledger
  | .alloc n, h =>
      if h = 0 then L else ⟨(h, n) :: L.live, L.freed.filter (· ≠ h)⟩
  | .free p, _ =>
      ⟨L.live.filter (·.1 ≠ p), if p ∈ L.live.map Prod.fst then p :: L.freed else L.freed⟩
  | .reset, _ => empty
  | _, _ => L

/-- The account matches the row of cells. -/
structure Agrees (L : Ledger) (cs : List Cell) : Prop where
  live : ∀ h n, (h, n) ∈ L.live ↔ ∃ b, h = b + 12 ∧ heap.Held MemoryRoot.blocks cs b n
  freed : ∀ h ∈ L.freed, ∃ b, h = b + 12 ∧ heap.Vacant MemoryRoot.blocks cs b
  nodup : (L.live.map Prod.fst).Nodup

variable {L : Ledger} {cs : List Cell}

theorem empty_agrees : empty.Agrees [] := by
  constructor <;> simp [empty]

theorem Agrees.held (A : L.Agrees cs) {h n : ℕ} (live : (h, n) ∈ L.live) :
    ∃ b, h = b + 12 ∧ heap.Held MemoryRoot.blocks cs b n :=
  (A.live h n).1 live

theorem Agrees.of_held (A : L.Agrees cs) {b n : ℕ}
    (held : heap.Held MemoryRoot.blocks cs b n) : (b + 12, n) ∈ L.live :=
  (A.live _ _).2 ⟨b, rfl, held⟩

/-- A grant, entered in the account. -/
theorem Agrees.grant (A : L.Agrees cs) (n : ℕ) :
    Agrees ⟨((heap.grant n MemoryRoot.blocks cs).1 + 12, n) :: L.live,
        L.freed.filter (· ≠ (heap.grant n MemoryRoot.blocks cs).1 + 12)⟩
      (heap.grant n MemoryRoot.blocks cs).2 := by
  constructor
  · intro h k
    simp only [List.mem_cons, Prod.mk.injEq, A.live, Format.held_grant, and_or_left, exists_or]
    rw [or_comm]
    refine or_congr Iff.rfl ⟨?_, ?_⟩
    · rintro ⟨rfl, rfl⟩
      exact ⟨_, rfl, rfl, rfl⟩
    · rintro ⟨b, rfl, rfl, rfl⟩
      exact ⟨rfl, rfl⟩
  · intro h mem
    simp only [List.mem_filter, decide_eq_true_eq] at mem
    obtain ⟨b, rfl, vacant⟩ := A.freed h mem.1
    exact ⟨b, rfl, Format.vacant_grant.2 ⟨vacant, fun eq => mem.2 (by rw [eq])⟩⟩
  · refine List.nodup_cons.2 ⟨fun mem => ?_, A.nodup⟩
    obtain ⟨⟨h, k⟩, live, eq⟩ := List.mem_map.1 mem
    obtain ⟨b, rfl, held⟩ := A.held live
    obtain rfl : b = (heap.grant n MemoryRoot.blocks cs).1 := by simpa using eq
    exact Format.not_held_grant held

/-- A release, entered in the account. -/
theorem Agrees.release (A : L.Agrees cs) {b k : ℕ}
    (held : heap.Held MemoryRoot.blocks cs b k) (v : ℕ) :
    (L.after (.free (b + 12)) v).Agrees (heap.release b MemoryRoot.blocks cs) := by
  have listed : b + 12 ∈ L.live.map Prod.fst := List.mem_map.2 ⟨_, A.of_held held, rfl⟩
  rw [after, if_pos listed]
  constructor
  · intro h n
    simp only [List.mem_filter, decide_eq_true_eq, A.live, Format.held_release]
    constructor
    · rintro ⟨⟨b', rfl, held'⟩, ne⟩
      exact ⟨b', rfl, held', by omega⟩
    · rintro ⟨b', rfl, held', ne⟩
      exact ⟨⟨b', rfl, held'⟩, by omega⟩
  · intro h mem
    rcases List.mem_cons.1 mem with rfl | mem
    · exact ⟨b, rfl, (Format.vacant_release _).2 (.inr ⟨rfl, k, held⟩)⟩
    · obtain ⟨b', rfl, vacant⟩ := A.freed h mem
      exact ⟨b', rfl, (Format.vacant_release _).2 (.inl vacant)⟩
  · exact A.nodup.sublist (List.filter_sublist.map _)

/-- Freeing what is not held changes nothing in the account. -/
theorem Agrees.free_idle (A : L.Agrees cs) {p : ℕ}
    (none : ∀ b k, b + 12 = p → ¬ heap.Held MemoryRoot.blocks cs b k) (v : ℕ) :
    L.after (.free p) v = L := by
  have absent : ∀ n, (p, n) ∉ L.live := fun n mem => by
    obtain ⟨b, eq, held⟩ := A.held mem
    exact none b n eq.symm held
  have unlisted : p ∉ L.live.map Prod.fst := by
    simpa using absent
  rw [after, if_neg unlisted, List.filter_eq_self.2]
  rintro ⟨h, n⟩ mem
  simp only [decide_eq_true_eq]
  rintro rfl
  exact absent n mem

end Ledger

/-! ## Runs -/

/-- A kernel instance and its caller's account. -/
structure Config where
  kernel : Instance
  ledger : Ledger

/-- A fresh instance, with nothing allocated. -/
def Config.fresh (pages : ℕ) (host : ℕ → Bool) : Config := ⟨.fresh pages host, .empty⟩

/-- Completed calls, from a fresh instance of at least one page; a label is a
call and its answer. -/
def kernelRuns : TransitionSystem Config (Call × ℕ) where
  init c := ∃ pages host, 1 ≤ pages ∧ pages ≤ MAX_PAGES ∧ c = .fresh pages host
  step c l c' :=
    l.1.run c.kernel = (.ok l.2, c'.kernel) ∧ c'.ledger = c.ledger.after l.1 l.2

/-- The configuration a call leaves when it answers `v`. -/
def Config.after (c : Config) (call : Call) (v : ℕ) : Config :=
  ⟨(call.run c.kernel).2, c.ledger.after call v⟩

/-- A call that completes is a step. -/
theorem step_of_run {c : Config} {call : Call} {v : ℕ}
    (done : (call.run c.kernel).1 = .ok v) : kernelRuns.step c (call, v) (c.after call v) :=
  ⟨Prod.ext done rfl, rfl⟩

/-- The runs of callers that keep to the contract. -/
def confinedRuns : TransitionSystem Config (Call × ℕ) :=
  kernelRuns.restrict fun c l => l.1.Confined c.ledger.live

theorem confined_of_run {c : Config} (call : Call) (v : ℕ) (ok : call.Confined c.ledger.live)
    (done : (call.run c.kernel).1 = .ok v) : confinedRuns.step c (call, v) (c.after call v) :=
  ⟨ok, step_of_run done⟩

theorem reachable_fresh {pages : ℕ} (lo : 1 ≤ pages) (hi : pages ≤ MAX_PAGES)
    (host : ℕ → Bool) : confinedRuns.Reachable (.fresh pages host) :=
  .of_init ⟨pages, host, lo, hi, rfl⟩

/-- **The invariant of a run**: the memory holds the row `cs`, and the caller's
account matches it. -/
structure Sound (c : Config) (cs : List Cell) : Prop where
  pages : 1 ≤ c.kernel.pages
  settled : c.kernel.Settled
  heap : Represents c.kernel.boot cs
  account : c.ledger.Agrees cs

namespace Outcome

variable {m m' : Instance} {cs cs' : List Cell} {call : Call} {v : ℕ}

/-- A call that gets as far as `MemoryRoot::new` leaves the root initialised. -/
theorem initialized (O : Outcome m cs call v m' cs') (R : Represents m.boot cs)
    (pages : 1 ≤ m.pages) (settled : m.Settled) :
    (m' = m ∧ cs' = cs ∧ call.Rootless) ∨ Represents m' cs' := by
  cases O with
  | pass same _ =>
      rcases same with ⟨untouched, rootless⟩ | rfl
      · exact .inl ⟨untouched, rfl, rootless⟩
      · exact .inr R
  | allocated _ small A => exact .inr (A.represents R small)
  | freed held => exact .inr (R.freed held)
  | stored _ held lo hi =>
      rw [settled.boot_eq pages R held] at R
      exact .inr (R.splice _ (.inr ⟨_, _, held, lo, hi⟩))
  | inputRanged _ => exact .inr (R.ranged (by decide) (by decide) (by decide) (by decide))
  | outputRanged _ => exact .inr (R.ranged (by decide) (by decide) (by decide) (by decide))
  | erred => exact .inr (R.splice _ (.inl ⟨by decide, by decide⟩))
  | wiped => exact .inr R.wiped

/-- Every outcome leaves a memory that represents the new row. -/
theorem represents (O : Outcome m cs call v m' cs') (R : Represents m.boot cs)
    (pages : 1 ≤ m.pages) (settled : m.Settled) :
    Represents m'.boot cs' ∧ m'.Settled := by
  rcases O.initialized R pages settled with ⟨rfl, rfl, -⟩ | R'
  · exact ⟨R, settled⟩
  · exact ⟨by rwa [R'.boot_eq], .inr R'.boot_eq⟩

/-- The memory never shrinks. -/
theorem pages_le (O : Outcome m cs call v m' cs') : m.pages ≤ m'.pages := by
  cases O with
  | pass same _ => rcases same with ⟨rfl, -⟩ | rfl <;> simp
  | allocated _ _ A => simpa using A.pages_le
  | freed => simp
  | stored => simp
  | inputRanged => simp [Instance.ranged]
  | outputRanged => simp [Instance.ranged]
  | erred => simp
  | wiped => simp [Instance.wiped]

/-- Every outcome is entered correctly in the caller's account. -/
theorem agrees (O : Outcome m cs call v m' cs') {L : Ledger} (A : L.Agrees cs) :
    (L.after call v).Agrees cs' := by
  cases O with
  | pass same idle =>
      cases call with
      | alloc n =>
          obtain rfl : v = 0 := idle
          exact A
      | free p =>
          rw [A.free_idle idle.2]
          exact A
      | reset => exact idle.elim
      | _ => exact A
  | @allocated n r _ _ _ _ B =>
      cases r with
      | none =>
          rw [B.refused_row]
          exact A
      | some b =>
          have eq := B.grant
          have grant := A.grant n
          rw [eq] at grant
          rw [Ledger.after, if_neg (by simp [handle])]
          exact grant
  | freed held => exact A.release held 0
  | stored span _ _ _ => cases call <;> first | exact A | simp [Call.span] at span
  | inputRanged => exact A
  | outputRanged => exact A
  | erred => exact A
  | wiped => exact Ledger.empty_agrees

end Outcome

namespace Sound

variable {c c' : Config} {cs : List Cell} {l : Call × ℕ}

/-- A confined call stays inside held blocks. -/
theorem confined (S : Sound c cs) {call : Call} (ok : call.Confined c.ledger.live) :
    ∀ s, call.span = some s → ∃ b n, FirstFit.Format.Held Kernel.heap MemoryRoot.blocks cs b n ∧
      b + 12 ≤ s.1 ∧ s.1 + s.2 ≤ b + 12 + n := by
  intro s span
  obtain ⟨⟨h, n⟩, mem, lo, hi⟩ := ok.2 s span
  obtain ⟨b, rfl, held⟩ := S.account.held mem
  exact ⟨b, n, held, lo, hi⟩

/-- The outcome of a step. -/
theorem outcome (S : Sound c cs) (step : confinedRuns.step c l c') :
    ∃ cs', Outcome c.kernel cs l.1 l.2 c'.kernel cs' :=
  outcome_of_run S.heap S.pages S.settled step.1.1 (S.confined step.1) step.2.1

theorem of_outcome (S : Sound c cs) {cs' : List Cell}
    (O : Outcome c.kernel cs l.1 l.2 c'.kernel cs')
    (ledger : c'.ledger = c.ledger.after l.1 l.2) : Sound c' cs' := by
  obtain ⟨rep, settled⟩ := O.represents S.heap S.pages S.settled
  refine ⟨S.pages.trans O.pages_le, settled, rep, ?_⟩
  rw [ledger]
  exact O.agrees S.account

/-- **One step** keeps the invariant. -/
theorem step (S : Sound c cs) (step : confinedRuns.step c l c') :
    ∃ cs', Outcome c.kernel cs l.1 l.2 c'.kernel cs' ∧ Sound c' cs' := by
  obtain ⟨cs', O⟩ := S.outcome step
  exact ⟨cs', O, S.of_outcome O step.2.2⟩

theorem fresh {pages : ℕ} (lo : 1 ≤ pages) (hi : pages ≤ MAX_PAGES) (host : ℕ → Bool) :
    Sound (.fresh pages host) [] := by
  have blank : (Instance.fresh pages host).Blank := rfl
  exact ⟨lo, .inl blank, blank.represents lo hi, Ledger.empty_agrees⟩

end Sound

/-- **The invariant holds in every configuration reached.** -/
theorem sound_of_reachable {c : Config} (reach : confinedRuns.Reachable c) :
    ∃ cs, Sound c cs := by
  refine reach.invariant (I := fun c => ∃ cs, Sound c cs) ?_ ?_
  · rintro _ ⟨pages, host, lo, hi, rfl⟩
    exact ⟨[], .fresh lo hi host⟩
  · rintro c c' l ⟨cs, S⟩ step
    obtain ⟨cs', -, S'⟩ := S.step step
    exact ⟨cs', S'⟩

end Extism.Kernel
