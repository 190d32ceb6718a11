import Extism.Lib.Transition
import Mathlib.Logic.Function.Basic
import Mathlib.Data.Nat.Notation

/-!
# Object stores

What an allocator is for, without addresses: a store maps handles to finite
lists, objects are made under handles that name nothing yet, read and written in
place, and freed.  Nothing is said about which handle is given, nor about the
contents of a new object, nor about when there is room for one.

An operation is taken together with its answer, so that a run of a store is a
list of operations and a concrete memory refines a store if its calls are such
operations on the objects it holds.

## Main definitions

* `Store` — the objects, by their handles.
* `overwrite` — a list, with another laid over a part of it.
* `Op`, `Allows` — an operation with its answer, and what it may do.
* `runs` — the object stores, as a transition system.
* `Op.Touches` — the operation changes the object.

## Main results

* `overwrite_all`, `getElem?_overwrite` — an object after a write into it.
* `Steps.kept` — the frame rule of runs: an object that is neither written nor
  freed stays as it is.
-/

universe u v

namespace ObjectStore

variable {κ : Type u} {β : Type v}

/-- The objects, by their handles. -/
abbrev Store (κ : Type u) (β : Type v) : Type (max u v) := κ → Option (List β)

/-- No object. -/
def Store.empty : Store κ β := fun _ => none

/-- `new` laid over `old` from `i` on. -/
def overwrite (old : List β) (i : ℕ) (new : List β) : List β :=
  old.take i ++ (new ++ old.drop (i + new.length))

@[simp] theorem length_overwrite {old : List β} {i : ℕ} {new : List β}
    (fits : i + new.length ≤ old.length) : (overwrite old i new).length = old.length := by
  simp only [overwrite, List.length_append, List.length_take, List.length_drop]
  omega

/-- A write of the whole object. -/
theorem overwrite_all {old new : List β} (whole : new.length = old.length) :
    overwrite old 0 new = new := by
  simp [overwrite, whole]

/-- An element of an object after a write into it. -/
theorem getElem?_overwrite {old : List β} {i : ℕ} {new : List β}
    (fits : i + new.length ≤ old.length) (j : ℕ) :
    (overwrite old i new)[j]? =
      if i ≤ j ∧ j < i + new.length then new[j - i]? else old[j]? := by
  have before : (old.take i).length = i := by
    rw [List.length_take]
    omega
  rw [overwrite, List.getElem?_append, before]
  split
  case isTrue lt => rw [if_neg (by omega), List.getElem?_take_of_lt lt]
  case isFalse ge =>
    rw [List.getElem?_append]
    split
    case isTrue inside => rw [if_pos (by omega)]
    case isFalse beyond =>
      rw [if_neg (by omega), List.getElem?_drop]
      congr 1
      omega

/-- An operation and its answer. -/
inductive Op (κ : Type u) (β : Type v)
  /-- An object of `n` elements is asked for. -/
  | allocate (n : ℕ) (k : Option κ)
  | free (k : κ)
  /-- What was read from an object, from `i` on. -/
  | read (k : κ) (i : ℕ) (found : List β)
  | write (k : κ) (i : ℕ) (new : List β)
  /-- The length of an object, 0 if there is none. -/
  | measure (k : κ) (n : ℕ)
  | clear
  /-- Nothing to do with objects. -/
  | idle

section Allows

variable [DecidableEq κ]

/-- **What an operation may do** to the objects. -/
def Allows (s : Store κ β) : Op κ β → Store κ β → Prop
  | .allocate _ none, t => t = s
  | .allocate n (some k), t =>
      s k = none ∧ ∃ new : List β, new.length = n ∧ t = Function.update s k (some new)
  | .free k, t => t = Function.update s k none
  | .read k i found, t =>
      t = s ∧ ∃ old, s k = some old ∧ i + found.length ≤ old.length ∧
        found = (old.drop i).take found.length
  | .write k i new, t =>
      ∃ old, s k = some old ∧ i + new.length ≤ old.length ∧
        t = Function.update s k (some (overwrite old i new))
  | .measure k n, t => t = s ∧ n = ((s k).map List.length).getD 0
  | .clear, t => t = .empty
  | .idle, t => t = s

/-- The runs of an object store. -/
def runs : TransitionSystem (Store κ β) (Op κ β) where
  init s := s = .empty
  step := Allows

/-- The operation changes the object. -/
def Op.Touches (k : κ) : Op κ β → Prop
  | .free k' => k' = k
  | .write k' _ _ => k' = k
  | .clear => True
  | _ => False

variable {s t : Store κ β} {op : Op κ β} {k : κ} {old : List β}

theorem Allows.kept (step : Allows s op t) (held : s k = some old) (other : ¬ op.Touches k) :
    t k = some old := by
  cases op with
  | allocate n r =>
      cases r with
      | none => exact (congrFun step k).trans held
      | some k' =>
          obtain ⟨absent, new, -, rfl⟩ := step
          have ne : k ≠ k' := by
            rintro rfl
            simp [absent] at held
          rw [Function.update_of_ne ne, held]
  | free k' =>
      obtain rfl : t = _ := step
      rw [Function.update_of_ne fun eq => other eq.symm, held]
  | read k' i found =>
      obtain ⟨rfl, -⟩ := step
      exact held
  | write k' i new =>
      obtain ⟨old', -, -, rfl⟩ := step
      rw [Function.update_of_ne fun eq => other eq.symm, held]
  | measure k' n =>
      obtain ⟨rfl, -⟩ := step
      exact held
  | clear => exact absurd trivial other
  | idle => exact (congrFun step k).trans held

/-- **The frame rule**: along a run, an object that is neither written nor freed
stays as it is. -/
theorem Steps.kept {ops : List (Op κ β)} (run : (runs (κ := κ) (β := β)).Steps s ops t)
    (held : s k = some old) (others : ∀ op ∈ ops, ¬ op.Touches k) : t k = some old :=
  run.invariant_of_labels (I := fun s => s k = some old)
    (fun {s t op} other held (step : Allows s op t) => step.kept held other) others held

end Allows

end ObjectStore
