import Mathlib.Algebra.GroupWithZero.Nat
import Mathlib.Algebra.Order.BigOperators.Group.List
import Mathlib.Algebra.Order.Group.Nat
import Mathlib.Data.List.AList

/-!
# Journals of a map

A finite map that is written one key at a time is determined by the journal of
its writes.  If writes are refused while the sizes of the values add up to more
than a limit, the map exceeds the limit by at most one value: the write that
takes it over the limit is the last that is accepted before something is removed.

The journal is kept beside the map and never read by the program; it is what a
theorem about the map's contents is stated in.

## Main definitions

* `Journal`, `Journal.last` — the writes, and what the latest one to a key left
  there.
* `Journal.largest` — the size of the largest value written.
* `AList.put`, `AList.total` — one write, and the sizes of the values added up.
* `Journal.Describes` — the map is what the journal says, and within its bound.

## Main results

* `Journal.mem_of_last` — what is there was written.
* `Journal.Describes.empty`, `Journal.Describes.put` — a new map is described,
  and one write keeps it so, if it is a removal or finds the map within the
  limit.
-/

universe u v

/-- The writes into a map, the latest first; `none` removes the key. -/
abbrev Journal (α : Type u) (β : Type v) : Type (max u v) := List (α × Option β)

variable {α : Type u} {β : Type v}

namespace Journal

/-- The size of the largest value written. -/
def largest (size : β → ℕ) : Journal α β → ℕ
  | [] => 0
  | (_, v) :: js => max (v.elim 0 size) (largest size js)

/-- The largest value is one of those written. -/
theorem largest_lt {size : β → ℕ} {b : ℕ} (pos : 0 < b) {js : Journal α β}
    (small : ∀ k v, (k, some v) ∈ js → size v < b) : js.largest size < b := by
  induction js with
  | nil => exact pos
  | cons j js ih =>
      obtain ⟨k, v⟩ := j
      refine max_lt ?_ (ih fun k v mem => small k v (List.mem_cons_of_mem _ mem))
      cases v with
      | none => exact pos
      | some v => exact small k v List.mem_cons_self

variable [DecidableEq α]

/-- What the latest write to `a` left there. -/
def last : Journal α β → α → Option β
  | [], _ => none
  | (k, v) :: js, a => if a = k then v else last js a

/-- What is there was written. -/
theorem mem_of_last {js : Journal α β} {a : α} {v : β} (found : js.last a = some v) :
    (a, some v) ∈ js := by
  induction js with
  | nil => simp [last] at found
  | cons j js ih =>
      obtain ⟨k, w⟩ := j
      rw [last] at found
      split at found
      case isTrue same =>
        subst same
        subst found
        exact List.mem_cons_self
      case isFalse => exact List.mem_cons_of_mem _ (ih found)

end Journal

variable [DecidableEq α]

namespace AList

/-- Write a value at `k`, or remove it. -/
def put (k : α) : Option β → (AList fun _ : α => β) → AList fun _ : α => β
  | some v, s => s.insert k v
  | none, s => s.erase k

/-- The sizes of the values, added up. -/
def total (size : β → ℕ) (s : AList fun _ : α => β) : ℕ := (s.entries.map fun e => size e.2).sum

variable {size : β → ℕ} {s : AList fun _ : α => β} {k : α}

theorem lookup_put (a : α) (v : Option β) :
    (s.put k v).lookup a = if a = k then v else s.lookup a := by
  by_cases same : a = k
  · subst same
    cases v <;> simp [put]
  · rw [if_neg same]
    cases v with
    | none => exact lookup_erase_ne same
    | some v => exact lookup_insert_ne same

theorem total_erase_le : (s.erase k).total size ≤ s.total size := by
  have sub := (List.kerase_sublist k s.entries).map fun e => size e.2
  exact sub.sum_le_sum fun _ _ => Nat.zero_le _

theorem total_put_le (v : Option β) : (s.put k v).total size ≤ s.total size + v.elim 0 size := by
  have erased : (s.erase k).total size ≤ s.total size := total_erase_le
  cases v with
  | none => exact erased
  | some v =>
      have added : (s.put k (some v)).total size = size v + (s.erase k).total size := by
        rw [put, total, entries_insert]
        rfl
      simp only [Option.elim_some]
      omega

end AList

namespace Journal

variable {size : β → ℕ} {limit : ℕ} {js : Journal α β} {s : AList fun _ : α => β}

/-- **The map is what the journal says**, and exceeds the limit by one value at
most. -/
structure Describes (size : β → ℕ) (limit : ℕ) (js : Journal α β) (s : AList fun _ : α => β) :
    Prop where
  lookup : ∀ a, s.lookup a = js.last a
  total : s.total size ≤ limit + js.largest size

namespace Describes

theorem empty : Describes size limit ([] : Journal α β) ∅ :=
  ⟨fun a => AList.lookup_empty a, Nat.zero_le _⟩

/-- A write that is a removal, or finds the map within the limit. -/
theorem put (D : Describes size limit js s) (k : α) {v : Option β}
    (guard : v = none ∨ s.total size ≤ limit) :
    Describes size limit ((k, v) :: js) (s.put k v) := by
  constructor
  · intro a
    rw [AList.lookup_put, D.lookup, last]
  · have grown : (s.put k v).total size ≤ s.total size + v.elim 0 size := AList.total_put_le v
    have before := D.total
    rw [largest]
    rcases guard with rfl | within
    · simp only [Option.elim_none] at grown
      omega
    · omega

end Describes

end Journal
