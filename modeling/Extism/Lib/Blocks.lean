import Extism.Lib.ObjectStore
import Mathlib.Data.List.Nodup

/-!
# Objects in a memory

A memory with some of its blocks given out holds an object store: the handle of
an object is where its block begins, and the object is what is there.  Blocks
that do not overlap make it one, whoever keeps the list of them.

## Main definitions

* `slice`, `patch` — a part of a memory, and a memory with something written.
* `Blocks`, `Blocks.Apart` — blocks that were given out, and that they do not
  overlap.
* `Blocks.around` — the block around a span.
* `Blocks.objects` — the objects in the blocks.

## Main results

* `Blocks.allows_allocate`, `Blocks.objects_filter` — giving out and taking back
  a block is an allocation and a release.
* `Blocks.allows_read`, `Blocks.Apart.allows_write` — reading and writing inside a
  block is reading and writing an object.
* `Blocks.objects_congr` — nothing changes where no object does.
-/

universe v

namespace ObjectStore

variable {β : Type v}

/-- `n` elements of a memory, from `h` on. -/
def slice (mem : ℕ → β) (h n : ℕ) : List β := (List.range n).map fun i => mem (h + i)

/-- A memory with `new` written at `p`. -/
def patch (mem : ℕ → β) (p : ℕ) (new : List β) : ℕ → β :=
  fun a => if p ≤ a then (new[a - p]?).getD (mem a) else mem a

section Slice

variable {mem mem' : ℕ → β} {h n p : ℕ} {new : List β}

@[simp] theorem length_slice : (slice mem h n).length = n := by simp [slice]

theorem slice_congr (same : ∀ i, i < n → mem' (h + i) = mem (h + i)) :
    slice mem' h n = slice mem h n :=
  List.map_congr_left fun i lt => same i (List.mem_range.1 lt)

theorem getElem?_slice (i : ℕ) :
    (slice mem h n)[i]? = if i < n then some (mem (h + i)) else none := by
  rw [slice, List.getElem?_map]
  split
  case isTrue lt => rw [List.getElem?_range lt, Option.map_some]
  case isFalse ge => rw [List.getElem?_eq_none (by simpa using ge), Option.map_none]

theorem patch_of_notMem {a : ℕ} (away : a < p ∨ p + new.length ≤ a) :
    patch mem p new a = mem a := by
  rw [patch]
  split
  case isTrue => rw [List.getElem?_eq_none (by omega), Option.getD_none]
  case isFalse => rfl

/-- A write inside a block. -/
theorem slice_patch (lo : h ≤ p) (hi : p + new.length ≤ h + n) :
    slice (patch mem p new) h n = overwrite (slice mem h n) (p - h) new := by
  refine List.ext_getElem? fun i => ?_
  rw [getElem?_overwrite (by rw [length_slice]; omega), getElem?_slice, getElem?_slice]
  by_cases inside : p - h ≤ i ∧ i < p - h + new.length
  · rw [if_pos (by omega), if_pos inside, patch, if_pos (by omega),
      show h + i - p = i - (p - h) by omega, List.getElem?_eq_getElem (by omega), Option.getD_some]
  · rw [if_neg inside]
    split
    case isTrue lt => rw [patch_of_notMem (by omega)]
    case isFalse => rfl

/-- A part of a block. -/
theorem slice_eq_take {k : ℕ} (lo : h ≤ p) (hi : p + k ≤ h + n) :
    slice mem p k = ((slice mem h n).drop (p - h)).take k := by
  refine List.ext_getElem? fun i => ?_
  rw [getElem?_slice, List.getElem?_take, List.getElem?_drop, getElem?_slice]
  by_cases inside : i < k
  · rw [if_pos inside, if_pos inside, if_pos (by omega), show h + (p - h + i) = p + i by omega]
  · rw [if_neg inside, if_neg inside]

end Slice

/-! ## Blocks -/

/-- Blocks, each with where it begins and its length. -/
abbrev Blocks : Type := List (ℕ × ℕ)

namespace Blocks

/-- No two blocks overlap, nor begin at the same place. -/
structure Apart (live : Blocks) : Prop where
  keys : (live.map Prod.fst).Nodup
  disjoint : ∀ {a b : ℕ × ℕ}, a ∈ live → b ∈ live → a.1 ≠ b.1 → a.1 + a.2 ≤ b.1 ∨ b.1 + b.2 ≤ a.1

/-- The block around a span. -/
def around (live : Blocks) (p k : ℕ) : Option (ℕ × ℕ) :=
  live.find? fun b => decide (b.1 ≤ p ∧ p + k ≤ b.1 + b.2)

/-- The objects in the blocks. -/
def objects (mem : ℕ → β) (live : Blocks) : Store ℕ β :=
  fun h => (live.lookup h).map (slice mem h)

variable {live : Blocks} {mem mem' : ℕ → β} {h n p k : ℕ} {b : ℕ × ℕ}

theorem of_around (found : live.around p k = some b) : b ∈ live ∧ b.1 ≤ p ∧ p + k ≤ b.1 + b.2 :=
  have inside := List.find?_some found
  ⟨List.mem_of_find?_eq_some found, of_decide_eq_true inside⟩

theorem around_of_mem (mem : b ∈ live) (lo : b.1 ≤ p) (hi : p + k ≤ b.1 + b.2) :
    ∃ b', live.around p k = some b' := by
  refine Option.isSome_iff_exists.1 (List.find?_isSome.2 ⟨b, mem, ?_⟩)
  exact decide_eq_true ⟨lo, hi⟩

theorem mem_of_lookup (found : live.lookup h = some n) : (h, n) ∈ live := by
  obtain ⟨pre, post, eq, -⟩ := List.lookup_eq_some_iff.1 found
  simp [eq]

theorem lookup_of_mem (keys : (live.map Prod.fst).Nodup) (listed : (h, n) ∈ live) :
    live.lookup h = some n := by
  obtain ⟨pre, post, eq⟩ := List.append_of_mem listed
  rw [eq, List.map_append, List.nodup_append] at keys
  refine List.lookup_eq_some_iff.2 ⟨pre, post, eq, fun x mem => ?_⟩
  simpa using (keys.2.2 x.1 (List.mem_map_of_mem mem) h List.mem_cons_self).symm

/-- Blocks do not overlap, so the one around a span is told by it. -/
theorem Apart.around_eq (apart : Apart live) (listed : (h, n) ∈ live) (pos : 0 < k) (lo : h ≤ p)
    (hi : p + k ≤ h + n) : live.around p k = some (h, n) := by
  obtain ⟨b, found⟩ := around_of_mem listed lo hi
  obtain ⟨listed', lo', hi'⟩ := of_around found
  have same : b.1 = h := by
    by_contra ne
    have away := apart.disjoint listed' listed ne
    simp only at away
    omega
  have lengths := lookup_of_mem apart.keys (h := b.1) (n := b.2) listed'
  rw [same, lookup_of_mem apart.keys listed] at lengths
  rw [found]
  exact congrArg some (Prod.ext same (Option.some.inj lengths).symm)

theorem lookup_eq_none (absent : ∀ n, (h, n) ∉ live) : live.lookup h = none := by
  rw [List.lookup_eq_none_iff]
  rintro ⟨k, n⟩ mem
  have ne : h ≠ k := by
    rintro rfl
    exact absent n mem
  simpa using ne

theorem objects_of_mem (keys : (live.map Prod.fst).Nodup) (listed : (h, n) ∈ live) :
    objects mem live h = some (slice mem h n) := by
  rw [objects, lookup_of_mem keys listed, Option.map_some]

theorem objects_of_notMem (absent : ∀ n, (h, n) ∉ live) : objects mem live h = none := by
  rw [objects, lookup_eq_none absent, Option.map_none]

/-- An object is in a block. -/
theorem of_objects {old : List β} (held : objects mem live h = some old) :
    (h, old.length) ∈ live ∧ old = slice mem h old.length := by
  obtain ⟨n, found, rfl⟩ := Option.map_eq_some_iff.1 held
  rw [length_slice]
  exact ⟨mem_of_lookup found, rfl⟩

/-- Nothing changes where no object does. -/
theorem objects_congr (same : ∀ b ∈ live, slice mem' b.1 b.2 = slice mem b.1 b.2) :
    objects mem' live = objects mem live := by
  funext h
  cases found : live.lookup h with
  | none => simp [objects, found]
  | some n =>
      have here := same (h, n) (mem_of_lookup found)
      simp only [objects, found, Option.map_some, here]

/-! ### Operations -/

/-- A block is given out. -/
theorem allows_allocate (fresh : ∀ n, (h, n) ∉ live) :
    Allows (objects mem live) (.allocate n (some h)) (objects mem ((h, n) :: live)) := by
  refine ⟨objects_of_notMem fresh, slice mem h n, length_slice, ?_⟩
  funext h'
  by_cases new : h' = h
  · subst new
    rw [Function.update_self, objects, List.lookup_cons_self, Option.map_some]
  · have other : (h' == h) = false := by simpa using new
    rw [Function.update_of_ne new, objects, List.lookup_cons, other, objects]

/-- A block is taken back. -/
theorem objects_filter (h : ℕ) :
    objects mem (live.filter (·.1 ≠ h)) = Function.update (objects mem live) h none := by
  funext h'
  by_cases gone : h' = h
  · subst gone
    rw [Function.update_self, objects_of_notMem]
    simp
  · rw [Function.update_of_ne gone, objects, objects]
    congr 1
    induction live with
    | nil => rfl
    | cons b rest ih =>
        by_cases here : b.1 = h
        · have other : (h' == b.1) = false := by simpa [here] using gone
          rw [List.filter_cons_of_neg (by simpa using here), List.lookup_cons, other, ih]
        · rw [List.filter_cons_of_pos (by simpa using here), List.lookup_cons, List.lookup_cons, ih]

/-- The length of a block is that of the object in it. -/
theorem allows_measure (h : ℕ) :
    Allows (objects mem live) (.measure h ((live.lookup h).getD 0)) (objects mem live) := by
  refine ⟨rfl, ?_⟩
  rw [objects]
  cases live.lookup h <;> simp

/-- A read inside a block. -/
theorem allows_read (keys : (live.map Prod.fst).Nodup) (found : live.around p k = some b) :
    Allows (objects mem live) (.read b.1 (p - b.1) (slice mem p k)) (objects mem live) := by
  obtain ⟨listed, lo, hi⟩ := of_around found
  refine ⟨rfl, slice mem b.1 b.2, objects_of_mem keys listed, ?_, ?_⟩
  · rw [length_slice, length_slice]
    omega
  · rw [length_slice]
    exact slice_eq_take lo hi

/-- A write inside a block. -/
theorem Apart.allows_write (apart : Apart live) {new : List β}
    (found : live.around p new.length = some b) :
    Allows (objects mem live) (.write b.1 (p - b.1) new) (objects (patch mem p new) live) := by
  obtain ⟨listed, lo, hi⟩ := of_around found
  refine ⟨slice mem b.1 b.2, objects_of_mem apart.keys listed, by rw [length_slice]; omega, ?_⟩
  funext h
  by_cases here : h = b.1
  · subst here
    rw [Function.update_self, objects_of_mem apart.keys listed, slice_patch lo hi]
  · rw [Function.update_of_ne here]
    by_cases held : ∃ n, (h, n) ∈ live
    · obtain ⟨n, other⟩ := held
      -- the span is in another block
      have away := apart.disjoint other listed here
      rw [objects_of_mem apart.keys other, objects_of_mem apart.keys other]
      exact congrArg some (slice_congr fun i lt => patch_of_notMem (by simp only at away; omega))
    · have absent : ∀ n, (h, n) ∉ live := fun n other => held ⟨n, other⟩
      rw [objects_of_notMem absent, objects_of_notMem absent]

end Blocks

end ObjectStore
