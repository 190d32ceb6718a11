import Extism.Runtime.Limiter

/-!
# Which requests the limiter grants

Between two refills the limiter keeps books: what is left is the budget less
what it granted, whoever asked.  So a request is refused for one of two reasons,
the budget or the memory's own maximum.  For the second `memory_growing` turns
down a size that is the maximum, which `table_growing` lets pass.

## Main definitions

* `GrowRequest` — a request by any memory of the store; it does not shrink.
* `MemoryLimiter.budgetRuns` — the requests between two refills, with their answers.
* `MemoryLimiter.spent` — the bytes granted.
* `MemoryLimiter.Decided`, `MemoryLimiter.Clear` — every request was decided by the
  rule, and no memory asked for its very maximum while the budget covered it.

## Main results

* `MemoryLimiter.granted_iff` — when a request is granted.
* `MemoryLimiter.decided_step_iff` — the rule and the code part at the maximum only.
* `MemoryLimiter.books` — a limiter has left what it had less what it granted.
* `MemoryLimiter.decided_iff_clear` — when the limiter goes by the rule.
-/

namespace Extism.Runtime

/-- A request of `memory_growing`, by any memory of the store. -/
structure GrowRequest where
  current : ℕ
  desired : ℕ
  maximum : Option ℕ
  /-- A memory does not shrink. -/
  ordered : current ≤ desired

namespace GrowRequest

/-- The bytes asked for. -/
def delta (r : GrowRequest) : ℕ := r.desired - r.current

/-- The memory may have that size. -/
def WithinMaximum (r : GrowRequest) : Prop := ∀ max ∈ r.maximum, r.desired ≤ max

instance (r : GrowRequest) : Decidable r.WithinMaximum :=
  inferInstanceAs (Decidable (∀ max ∈ r.maximum, r.desired ≤ max))

/-- `memory_growing`, asked. -/
def ask (r : GrowRequest) : Prog MemoryLimiter MemoryLimiter.LimitError Bool :=
  MemoryLimiter.memoryGrowing r.current r.desired r.maximum

end GrowRequest

namespace MemoryLimiter

/-- A request and whether it was granted. -/
abbrev Answered : Type := GrowRequest × Bool

/-- The answer of a limiter that grants, and of one that refuses. -/
def answer : Bool → Except LimitError Bool
  | true => .ok true
  | false => .error .oom

/-- The requests between two refills, one after the other. -/
def budgetRuns : TransitionSystem MemoryLimiter Answered where
  init limiter := ∃ old : MemoryLimiter, limiter = old.reset
  step limiter x limiter' := x.1.ask limiter = (answer x.2, limiter')

/-- The bytes granted. -/
def spent (xs : List Answered) : ℕ := ((xs.filter (·.2)).map (·.1.delta)).sum

@[simp] theorem spent_append (xs ys : List Answered) : spent (xs ++ ys) = spent xs + spent ys := by
  simp [spent]

@[simp] theorem spent_granted (r : GrowRequest) : spent [(r, true)] = r.delta := by
  simp [spent]

@[simp] theorem spent_refused (r : GrowRequest) : spent [(r, false)] = 0 := by
  simp [spent]

/-- Every request was decided by the rule: it is granted if the memory may have
that size and the budget less what was granted before covers it. -/
def Decided (maxBytes : ℕ) (xs : List Answered) : Prop :=
  ∀ (before : List Answered) (x : Answered) (later : List Answered), xs = before ++ x :: later →
    (x.2 = true ↔ x.1.WithinMaximum ∧ x.1.delta ≤ maxBytes - spent before)

/-- No memory asked for its very maximum while the budget covered it. -/
def Clear (maxBytes : ℕ) (xs : List Answered) : Prop :=
  ∀ (before : List Answered) (x : Answered) (later : List Answered), xs = before ++ x :: later →
    x.1.maximum = some x.1.desired → maxBytes - spent before < x.1.delta

/-! ## One request -/

section Step

variable {limiter limiter' : MemoryLimiter} {r : GrowRequest}

/-- Every request is answered. -/
theorem exists_answer (limiter : MemoryLimiter) (r : GrowRequest) :
    ∃ granted limiter', budgetRuns.step limiter (r, granted) limiter' := by
  rcases memoryGrowing_cases r.current r.desired r.maximum limiter with
    ⟨-, run⟩ | run
  · exact ⟨true, _, run⟩
  · exact ⟨false, _, run⟩

/-- What is refused is not charged. -/
theorem eq_of_refused (step : budgetRuns.step limiter (r, false) limiter') :
    limiter' = limiter := by
  have step : memoryGrowing r.current r.desired r.maximum limiter =
    (.error .oom, limiter') := step
  rcases memoryGrowing_cases r.current r.desired r.maximum limiter with
    ⟨-, run⟩ | run
  · rw [run] at step
    simp at step
  · exact (Prod.mk.inj (run.symm.trans step)).2.symm

/-- What is granted was there, and is paid for. -/
theorem paid_of_granted (step : budgetRuns.step limiter (r, true) limiter') :
    r.delta ≤ limiter.bytesLeft ∧
      limiter' = { limiter with bytesLeft := limiter.bytesLeft - r.delta } := by
  have step : memoryGrowing r.current r.desired r.maximum limiter =
    (.ok true, limiter') := step
  rcases memoryGrowing_cases r.current r.desired r.maximum limiter with
    ⟨enough, run⟩ | run
  · exact ⟨enough, (Prod.mk.inj (run.symm.trans step)).2.symm⟩
  · rw [run] at step
    simp at step

/-- When a request is granted: the size has to stay below the maximum. -/
theorem granted_iff {granted : Bool} (step : budgetRuns.step limiter (r, granted) limiter') :
    granted = true ↔ (∀ max ∈ r.maximum, r.desired < max) ∧ r.delta ≤ limiter.bytesLeft := by
  have step : memoryGrowing r.current r.desired r.maximum limiter =
    (answer granted, limiter') := step
  have reaches : r.maximum.any (· ≤ r.desired) = true ↔ ¬ ∀ max ∈ r.maximum, r.desired < max := by
    cases r.maximum <;> simp
  rw [memoryGrowing, Prog.ite_apply] at step
  split at step
  case isTrue reached =>
    cases granted with
    | true => simp [answer] at step
    | false => exact iff_of_false (by decide) fun h => reaches.1 reached h.1
  case isFalse free =>
    have free := not_not.1 (mt reaches.2 free)
    rw [Prog.bind_ok (Prog.get_apply limiter), Prog.ite_apply] at step
    split at step
    case isTrue short =>
      cases granted with
      | true => simp [answer] at step
      | false => exact iff_of_false (by decide) fun h => Nat.not_le_of_lt short h.2
    case isFalse enough =>
      cases granted with
      | true => exact iff_of_true rfl ⟨free, Nat.le_of_not_lt enough⟩
      | false => simp [answer, Prog.bind_ok (Prog.modify_apply _ limiter)] at step

/-- The rule and the code part at the maximum only. -/
theorem decided_step_iff {granted : Bool} (step : budgetRuns.step limiter (r, granted) limiter') :
    (granted = true ↔ r.WithinMaximum ∧ r.delta ≤ limiter.bytesLeft) ↔
      (r.maximum = some r.desired → limiter.bytesLeft < r.delta) := by
  rw [granted_iff step, GrowRequest.WithinMaximum]
  cases r.maximum with
  | none => simp
  | some max =>
      simp only [Option.mem_def, Option.some.injEq, forall_eq']
      omega

end Step

/-! ## All requests since the refill -/

/-- **The books.**  A limiter has left what it had less what it granted. -/
theorem books {limiter limiter' : MemoryLimiter} {xs : List Answered}
    (run : budgetRuns.Steps limiter xs limiter') :
    spent xs ≤ limiter.bytesLeft ∧
      limiter' = { limiter with bytesLeft := limiter.bytesLeft - spent xs } := by
  induction run with
  | nil => exact ⟨Nat.zero_le _, rfl⟩
  | @cons limiter limiter' _ x xs head _ ih =>
      obtain ⟨le, eq⟩ := ih
      rw [← List.singleton_append, spent_append]
      obtain ⟨r, _ | _⟩ := x
      · rw [spent_refused, Nat.zero_add]
        rw [eq_of_refused head] at le eq
        exact ⟨le, eq⟩
      · obtain ⟨paid, rfl⟩ := paid_of_granted head
        rw [spent_granted]
        simp only [Nat.sub_sub] at le eq
        exact ⟨by omega, eq⟩

/-- **The rule, and when the limiter goes by it.**  Whatever was asked since the
refill, the books are right, every next request is answered, a refused one
changes nothing, and all requests were decided by the rule exactly if no memory
asked for its very maximum while the budget covered it. -/
theorem decided_iff_clear {old limiter : MemoryLimiter} {xs : List Answered}
    (run : budgetRuns.Steps old.reset xs limiter) :
    (spent xs ≤ old.maxBytes ∧ limiter = ⟨old.maxBytes - spent xs, old.maxBytes⟩) ∧
      (∀ r, ∃ granted limiter', budgetRuns.step limiter (r, granted) limiter' ∧
        (granted = false → limiter' = limiter)) ∧
      (Decided old.maxBytes xs ↔ Clear old.maxBytes xs) := by
  refine ⟨books run, fun r => ?_, ?_⟩
  · obtain ⟨granted, limiter', step⟩ := exists_answer limiter r
    exact ⟨granted, limiter', step, fun refused => eq_of_refused (refused ▸ step)⟩
  · refine forall_congr' fun before => forall_congr' fun x => forall_congr' fun later =>
      forall_congr' fun eq => ?_
    rw [eq] at run
    obtain ⟨here, next, first, step, -⟩ := run.at_label
    have left : here.bytesLeft = old.maxBytes - spent before := by
      rw [(books first).2]
      rfl
    rw [← left]
    exact decided_step_iff step

/-- A request of one page by a memory whose maximum is `max`. -/
def onePageOf (max : ℕ) : GrowRequest := ⟨0, 65536, some max, Nat.zero_le _⟩

/-- A memory of at most two pages gets its first. -/
theorem decided_iff_clear_of_two_pages :
    Decided 65536 [(onePageOf 131072, true)] ↔ Clear 65536 [(onePageOf 131072, true)] := by
  have granted : budgetRuns.step (new 1).reset (onePageOf 131072, true)
    ⟨0, 65536⟩ := rfl
  exact (decided_iff_clear (.single granted)).2.2

/-- A memory of at most one page does not get it. -/
theorem not_decided_always :
    ¬ ∀ (old limiter : MemoryLimiter) (xs : List Answered),
      budgetRuns.Steps old.reset xs limiter → Decided old.maxBytes xs := by
  intro always
  have refused : budgetRuns.step (new 1).reset (onePageOf 65536, false)
    (new 1) := rfl
  have rule := always _ _ _ (.single refused) [] _ [] rfl
  exact absurd (rule.2 (by decide)) (by decide)

end MemoryLimiter

end Extism.Runtime
