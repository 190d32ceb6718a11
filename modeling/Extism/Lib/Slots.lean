import Mathlib.Data.List.ReduceOption
import Mathlib.Logic.Function.Basic

/-!
# Slots that are emptied when read

A slot holds a value until someone takes it, and nothing from then on.  A list of
slots is visited in turn; it may name a slot that is empty, or one slot twice.
Whatever the list is, each slot gives its value at most once, at the first visit,
and all slots of the list are empty afterwards.

## Main definitions

* `Slots`, `Slots.clear` — slots by their keys, and one of them emptied.
* `Slots.takes`, `Slots.after` — what the visits find, and what they leave.
* `Slots.Ready` — no visit will be in vain.

## Main results

* `Slots.after_apply` — the slots of the list are empty; the others are as they
  were.
* `Slots.none_notMem_takes_iff` — no visit is in vain exactly if the slots are
  full and none is visited twice.
* `Slots.reduceOption_takes` — each slot gives its value once, in the order of
  the first visits.
-/

universe u v

/-- Slots by their keys, full or empty. -/
abbrev Slots (κ : Type u) (α : Type v) : Type (max u v) := κ → Option α

namespace Slots

variable {κ : Type u} {α : Type v} [DecidableEq κ]

/-- Empty a slot. -/
def clear (k : κ) (s : Slots κ α) : Slots κ α := Function.update s k none

/-- What is found in the slots of a list, visited in turn. -/
def takes : List κ → Slots κ α → List (Option α)
  | [], _ => []
  | k :: ks, s => s k :: takes ks (s.clear k)

/-- The slots once those of a list are visited. -/
def after (ks : List κ) (s : Slots κ α) : Slots κ α := ks.foldl (fun s k => s.clear k) s

/-- Every visit will find a value. -/
structure Ready (ks : List κ) (s : Slots κ α) : Prop where
  nodup : ks.Nodup
  full : ∀ k ∈ ks, (s k).isSome

variable {k : κ} {ks : List κ} {s : Slots κ α}

@[simp] theorem clear_self : s.clear k k = none := by
  rw [clear, Function.update_self]

theorem clear_of_ne {a : κ} (ne : a ≠ k) : s.clear k a = s a := by
  rw [clear, Function.update_of_ne ne]

/-- The slots of the list are empty; the others are as they were. -/
theorem after_apply (ks : List κ) (s : Slots κ α) (a : κ) :
    s.after ks a = if a ∈ ks then none else s a := by
  induction ks generalizing s with
  | nil => simp [after]
  | cons k ks ih =>
      rw [after, List.foldl_cons, ← after, ih]
      by_cases same : a = k
      · subst same
        simp
      · simp [same, clear_of_ne]

/-! ## Which visits are in vain -/

/-- A slot that is not visited again makes no difference to the rest. -/
theorem ready_clear_iff (absent : k ∉ ks) : Ready ks (s.clear k) ↔ Ready ks s := by
  have same : ∀ a ∈ ks, s.clear k a = s a := fun a mem =>
    clear_of_ne fun eq => absent (eq ▸ mem)
  constructor
  · rintro ⟨nodup, full⟩
    exact ⟨nodup, fun a mem => by rw [← same a mem]; exact full a mem⟩
  · rintro ⟨nodup, full⟩
    exact ⟨nodup, fun a mem => by rw [same a mem]; exact full a mem⟩

theorem ready_cons_iff : Ready (k :: ks) s ↔ (s k).isSome ∧ Ready ks (s.clear k) := by
  constructor
  · rintro ⟨nodup, full⟩
    obtain ⟨absent, rest⟩ := List.nodup_cons.1 nodup
    obtain ⟨here, there⟩ := List.forall_mem_cons.1 full
    exact ⟨here, (ready_clear_iff absent).2 ⟨rest, there⟩⟩
  · rintro ⟨here, ready⟩
    have absent : k ∉ ks := fun mem => by simpa using ready.full k mem
    have rest := (ready_clear_iff absent).1 ready
    exact ⟨List.nodup_cons.2 ⟨absent, rest.nodup⟩, List.forall_mem_cons.2 ⟨here, rest.full⟩⟩

/-- **No visit is in vain** exactly if the slots are full and none is visited
twice. -/
theorem none_notMem_takes_iff : none ∉ takes ks s ↔ Ready ks s := by
  induction ks generalizing s with
  | nil => exact iff_of_true List.not_mem_nil ⟨List.nodup_nil, fun _ mem => by simp at mem⟩
  | cons k ks ih =>
      rw [takes, List.mem_cons, not_or, ih, ready_cons_iff]
      exact and_congr_left' (by cases s k <;> simp)

/-! ## What is found -/

/-- Dropping what fails a test and dropping duplicates can be done in any
order. -/
theorem eraseDups_filter (p : κ → Bool) (ks : List κ) :
    (ks.filter p).eraseDups = ks.eraseDups.filter p := by
  match ks with
  | [] => rfl
  | k :: ks =>
    have shorter : (ks.filter fun b => !b == k).length < ks.length + 1 :=
      Nat.lt_succ_of_le (List.length_filter_le _ ks)
    have rest := eraseDups_filter p (ks.filter fun b => !b == k)
    rw [List.filter_comm] at rest
    cases keep : p k with
    | true =>
        rw [List.filter_cons_of_pos keep, List.eraseDups_cons, List.eraseDups_cons,
          List.filter_cons_of_pos keep, rest]
    | false =>
        have other : (ks.filter p).filter (fun b => !b == k) = ks.filter p := by
          refine List.filter_eq_self.2 fun b mem => ?_
          have ne : b ≠ k := by
            rintro rfl
            simp [keep] at mem
          simpa using ne
        rw [other] at rest
        rw [List.filter_cons_of_neg (by simp [keep]), List.eraseDups_cons,
          List.filter_cons_of_neg (by simp [keep]), rest]
termination_by ks.length

theorem nodup_eraseDups (ks : List κ) : ks.eraseDups.Nodup := by
  match ks with
  | [] => exact List.nodup_nil
  | k :: ks =>
    have shorter : (ks.filter fun b => !b == k).length < ks.length + 1 :=
      Nat.lt_succ_of_le (List.length_filter_le _ ks)
    rw [List.eraseDups_cons]
    refine List.nodup_cons.2 ⟨?_, nodup_eraseDups (ks.filter fun b => !b == k)⟩
    simp [List.mem_eraseDups]
termination_by ks.length

/-- An empty slot gives nothing. -/
theorem filterMap_clear (ks : List κ) :
    ks.filterMap (s.clear k) = (ks.filter fun b => !b == k).filterMap s := by
  induction ks with
  | nil => rfl
  | cons a ks ih =>
      by_cases same : a = k
      · subst same
        simp [ih]
      · simp [same, ih, clear_of_ne, List.filterMap_cons]

/-- **Each slot gives its value once**, in the order of the first visits. -/
theorem reduceOption_takes (ks : List κ) (s : Slots κ α) :
    (takes ks s).reduceOption = ks.eraseDups.filterMap s := by
  induction ks generalizing s with
  | nil => rfl
  | cons k ks ih =>
      have rest : (takes ks (s.clear k)).reduceOption =
          (ks.filter fun b => !b == k).eraseDups.filterMap s := by
        rw [ih, filterMap_clear, eraseDups_filter]
      rw [takes, List.eraseDups_cons, List.filterMap_cons]
      cases found : s k with
      | none => rw [List.reduceOption_cons_of_none, rest]
      | some v => rw [List.reduceOption_cons_of_some, rest]

end Slots
