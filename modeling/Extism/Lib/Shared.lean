import Mathlib.Data.List.Count
import Mathlib.Logic.Function.Basic

/-!
# Shared values

A value that is shared has a count of its references; the reference that is
released last drops the value.  The counts say nothing by themselves: they have
to be compared with the references that somebody owns.  An owner may clone a
reference or release one, and as long as only owners do, a value is dropped
exactly once, when the last reference to it goes.

## Main definitions

* `Shared` — counts of references, and the values dropped so far.
* `Shared.make`, `Shared.clone`, `Shared.release`, `Shared.releaseAll` — what is
  done to them.
* `Shared.Tracks` — the counts count the owners, given as a list with one entry
  for each reference, of the values made.

## Main results

* `Shared.Tracks.make`, `Shared.Tracks.clone`, `Shared.Tracks.releaseAll` — what
  owners do keeps the counts right.
* `Shared.Tracks.dropped_le_one` — a value is dropped at most once.
-/

universe u

/-- Counts of references, and the values dropped so far. -/
structure Shared (δ : Type u) where
  count : δ → ℕ
  dropped : List δ

namespace Shared

variable {δ : Type u} [DecidableEq δ]

/-- Nothing is shared. -/
def empty : Shared δ := ⟨fun _ => 0, []⟩

/-- A new value, with one reference. -/
def make (d : δ) (s : Shared δ) : Shared δ := { s with count := Function.update s.count d 1 }

/-- One reference more. -/
def clone (d : δ) (s : Shared δ) : Shared δ :=
  { s with count := Function.update s.count d (s.count d + 1) }

/-- One reference less, and no value without one. -/
def release (d : δ) (s : Shared δ) : Shared δ :=
  if s.count d = 1 then ⟨Function.update s.count d 0, s.dropped ++ [d]⟩
  else { s with count := Function.update s.count d (s.count d - 1) }

/-- References released one after another. -/
def releaseAll (ds : List δ) (s : Shared δ) : Shared δ := ds.foldl (fun s d => s.release d) s

@[simp] theorem count_make (d : δ) (s : Shared δ) :
    (s.make d).count = Function.update s.count d 1 := rfl

@[simp] theorem count_clone (d : δ) (s : Shared δ) :
    (s.clone d).count = Function.update s.count d (s.count d + 1) := rfl

@[simp] theorem count_release (d : δ) (s : Shared δ) :
    (s.release d).count = Function.update s.count d (s.count d - 1) := by
  rw [release]
  split
  case isTrue last => rw [last]
  case isFalse => rfl

theorem dropped_release (d : δ) (s : Shared δ) :
    (s.release d).dropped = if s.count d = 1 then s.dropped ++ [d] else s.dropped := by
  rw [release]
  split <;> rfl

/-- **The counts count the owners**, of the values made. -/
structure Tracks (s : Shared δ) (owners : δ → ℕ) (made : δ → Prop) : Prop where
  count : s.count = owners
  known : ∀ d, owners d ≠ 0 → made d
  held : ∀ d, owners d ≠ 0 → d ∉ s.dropped
  gone : ∀ d, made d → owners d = 0 → s.dropped.count d = 1
  unmade : ∀ d, ¬ made d → d ∉ s.dropped

theorem Tracks.empty : Tracks (empty : Shared δ) (fun _ => 0) fun _ => False where
  count := rfl
  known _ owned := absurd rfl owned
  held _ owned := absurd rfl owned
  gone _ := False.elim
  unmade _ _ := List.not_mem_nil

variable {s : Shared δ} {owners : δ → ℕ} {made : δ → Prop} {d : δ}

/-- A value is dropped at most once. -/
theorem Tracks.dropped_le_one (T : s.Tracks owners made) (d : δ) : s.dropped.count d ≤ 1 := by
  by_cases m : made d
  · by_cases owned : owners d = 0
    · exact Nat.le_of_eq (T.gone d m owned)
    · rw [List.count_eq_zero.2 (T.held d owned)]
      exact Nat.zero_le 1
  · rw [List.count_eq_zero.2 (T.unmade d m)]
    exact Nat.zero_le 1

/-- Only the owners matter. -/
theorem Tracks.congr (T : s.Tracks owners made) {owners' : δ → ℕ} {made' : δ → Prop}
    (same : ∀ d, owners' d = owners d) (same' : ∀ d, made' d ↔ made d) :
    s.Tracks owners' made' := by
  obtain rfl : owners' = owners := funext same
  obtain rfl : made' = made := funext fun d => propext (same' d)
  exact T

theorem Tracks.make (T : s.Tracks owners made) (fresh : ¬ made d) :
    (s.make d).Tracks (Function.update owners d 1) fun a => a = d ∨ made a := by
  constructor
  · rw [count_make, T.count]
  · intro a owned
    by_cases same : a = d
    · exact .inl same
    · rw [Function.update_of_ne same] at owned
      exact .inr (T.known a owned)
  · intro a owned
    by_cases same : a = d
    · rw [same]
      exact T.unmade d fresh
    · rw [Function.update_of_ne same] at owned
      exact T.held a owned
  · rintro a (rfl | m) none
    · simp at none
    · have ne : a ≠ d := fun same => fresh (same ▸ m)
      rw [Function.update_of_ne ne] at none
      exact T.gone a m none
  · exact fun a unmade => T.unmade a fun m => unmade (.inr m)

theorem Tracks.clone (T : s.Tracks owners made) (owned : owners d ≠ 0) :
    (s.clone d).Tracks (Function.update owners d (owners d + 1)) made := by
  have positive : ∀ a, Function.update owners d (owners d + 1) a ≠ 0 ↔ owners a ≠ 0 := by
    intro a
    by_cases same : a = d
    · subst same
      simp [owned]
    · rw [Function.update_of_ne same]
  constructor
  · rw [count_clone, T.count]
  · exact fun a own => T.known a ((positive a).1 own)
  · exact fun a own => T.held a ((positive a).1 own)
  · exact fun a m none => T.gone a m (by simpa using mt (positive a).2 (by simpa using none))
  · exact T.unmade

theorem Tracks.release (T : s.Tracks owners made) (owned : owners d ≠ 0) :
    (s.release d).Tracks (Function.update owners d (owners d - 1)) made := by
  have dropped : (s.release d).dropped = if owners d = 1 then s.dropped ++ [d] else s.dropped := by
    rw [dropped_release, T.count]
  constructor
  · rw [count_release, T.count]
  · intro a own
    refine T.known a fun none => own ?_
    by_cases same : a = d
    · exact absurd (same ▸ none) owned
    · rw [Function.update_of_ne same, none]
  · intro a own mem
    rw [dropped] at mem
    by_cases same : a = d
    · subst same
      rw [Function.update_self] at own
      rw [if_neg (by omega)] at mem
      exact T.held a owned mem
    · rw [Function.update_of_ne same] at own
      split at mem
      case isTrue =>
        rcases List.mem_append.1 mem with mem | mem
        · exact T.held a own mem
        · exact same (List.mem_singleton.1 mem)
      case isFalse => exact T.held a own mem
  · intro a m none
    rw [dropped]
    by_cases same : a = d
    · subst same
      rw [Function.update_self] at none
      have before : s.dropped.count a = 0 := List.count_eq_zero.2 (T.held a owned)
      rw [if_pos (by omega), List.count_append, before, List.count_singleton_self]
    · rw [Function.update_of_ne same] at none
      have before := T.gone a m none
      split
      case isTrue =>
        rw [List.count_append, before, List.count_eq_zero.2 (by simpa using same)]
      case isFalse => exact before
  · intro a unmade mem
    rw [dropped] at mem
    split at mem
    case isTrue =>
      rcases List.mem_append.1 mem with mem | mem
      · exact T.unmade a unmade mem
      · rw [List.mem_singleton.1 mem] at unmade
        exact unmade (T.known d owned)
    case isFalse => exact T.unmade a unmade mem

/-- **Owners release what they own**, each reference once. -/
theorem Tracks.releaseAll (ds : List δ) (T : s.Tracks owners made)
    (owned : ∀ d, ds.count d ≤ owners d) :
    (s.releaseAll ds).Tracks (fun d => owners d - ds.count d) made := by
  induction ds generalizing s owners with
  | nil => exact T.congr (fun d => by rw [List.count_nil, Nat.sub_zero]) fun _ => Iff.rfl
  | cons e ds ih =>
      have here : owners e ≠ 0 := by
        have := owned e
        rw [List.count_cons_self] at this
        omega
      have rest := ih (T.release here) fun d => by
        have := owned d
        rw [Function.update_apply]
        split
        case isTrue same =>
          subst same
          rw [List.count_cons_self] at this
          omega
        case isFalse ne => rwa [List.count_cons_of_ne (Ne.symm ne)] at this
      refine rest.congr (fun d => ?_) fun _ => Iff.rfl
      rw [Function.update_apply]
      split
      case isTrue same =>
        subst same
        rw [List.count_cons_self]
        omega
      case isFalse ne => rw [List.count_cons_of_ne (Ne.symm ne)]

/-- What a value stands for alone is met as often as the value. -/
theorem count_filterMap {α β : Type u} [DecidableEq α] [DecidableEq β] {g : α → Option β}
    {a : α} {b : β} (here : g a = some b) (alone : ∀ a', g a' = some b → a' = a) (l : List α) :
    (l.filterMap g).count b = l.count a := by
  induction l with
  | nil => rfl
  | cons a' l ih =>
      by_cases same : a' = a
      · subst same
        rw [List.filterMap_cons_some here, List.count_cons_self, List.count_cons_self, ih]
      · rw [List.count_cons_of_ne same, ← ih]
        cases other : g a' with
        | none => rw [List.filterMap_cons_none other]
        | some b' =>
            have ne : b' ≠ b := fun eq => same (alone a' (eq ▸ other))
            rw [List.filterMap_cons_some other, List.count_cons_of_ne ne]

end Shared
