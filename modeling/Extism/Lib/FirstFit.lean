import Mathlib.Data.Nat.Notation
import Mathlib.Data.List.Basic

/-!
# First-fit allocation over a row of cells

A region of memory tiled, without gaps, by *cells*: a header of `hdr` bytes
followed by `size` bytes of data.  The allocator keeps no other structure; the
list of cells in address order is its whole state.  `Format` has the two numbers
that differ between allocators, the size of the header and the excess that is
worth splitting off.

What a client sees of a row is which addresses are held and for how many bytes,
and which carry a free header.  The operations are characterised on these two
alone: a grant adds one held address that was not held before and disturbs no
other, a release moves one address from held to vacant.  A proof about clients
does not look at the row.

## Main definitions

* `Cell` — one cell; a held one never holds more than its size.
* `Format.place`, `Format.extent` — a row laid out from an address on, and the
  bytes it covers.
* `Format.firstFit` — hand out the first free cell that is large enough, whole
  when fewer than `slack` bytes would be left over, otherwise its *topmost* bytes
  behind a new header, the rest staying free where it was.
* `Format.grant` — `firstFit`, or a new cell appended at the end of the row.
* `Format.release` — free the held cell at an address.
* `Format.Held`, `Format.Vacant` — what a client sees.

## Main results

* `Format.place_apart`, `Format.place_inj` — headers and data do not overlap.
* `Format.Held.unique`, `Format.Held.disjoint`, `Format.Held.disjoint_header` —
  an address is held for one length, and its data meets nothing else.
* `Format.firstFit_eq` — which cell is handed out, and that no other is touched.
* `Format.held_grant`, `Format.vacant_grant`, `Format.not_held_grant` — a grant,
  as a client sees it.
* `Format.held_release`, `Format.vacant_release` — a release, as a client sees
  it.
-/

namespace FirstFit

/-- One cell of the row.  A held cell never holds more than its size: the field
carries the proof, so a row with an overfull cell cannot be written down. -/
structure Cell where
  /-- Bytes of data behind the header. -/
  size : ℕ
  /-- Bytes of it the holder asked for. -/
  used : ℕ
  /-- Whether the cell may be handed out. -/
  free : Bool
  used_le : free = false → used ≤ size

namespace Cell

/-- A free cell; `used` is left over from an earlier holder. -/
def vacant (size used : ℕ) : Cell := ⟨size, used, true, by simp⟩

/-- A cell handed out for `used` bytes. -/
def held (size used : ℕ) (le : used ≤ size) : Cell := ⟨size, used, false, fun _ => le⟩

/-- Mark a cell free. -/
def vacate (c : Cell) : Cell := vacant c.size c.used

/-- A free cell with room for `n` bytes. -/
def Fits (c : Cell) (n : ℕ) : Prop := c.free = true ∧ n ≤ c.size

instance (c : Cell) (n : ℕ) : Decidable (c.Fits n) :=
  inferInstanceAs (Decidable (_ ∧ _))

@[simp] theorem vacant_size (s u : ℕ) : (vacant s u).size = s := rfl
@[simp] theorem vacant_used (s u : ℕ) : (vacant s u).used = u := rfl
@[simp] theorem vacant_free (s u : ℕ) : (vacant s u).free = true := rfl
@[simp] theorem held_size (s u : ℕ) (le : u ≤ s) : (held s u le).size = s := rfl
@[simp] theorem held_used (s u : ℕ) (le : u ≤ s) : (held s u le).used = u := rfl
@[simp] theorem held_free (s u : ℕ) (le : u ≤ s) : (held s u le).free = false := rfl
@[simp] theorem vacate_size (c : Cell) : c.vacate.size = c.size := rfl
@[simp] theorem vacate_used (c : Cell) : c.vacate.used = c.used := rfl
@[simp] theorem vacate_free (c : Cell) : c.vacate.free = true := rfl

end Cell

/-- The two constants of an allocator: the header's size, and how much excess
is worth splitting off.  A split leaves room for the header it needs. -/
structure Format where
  hdr : ℕ
  slack : ℕ
  hdr_pos : 0 < hdr
  hdr_le_slack : hdr ≤ slack

namespace Format

variable (F : Format)

/-- Header and data together. -/
def width (c : Cell) : ℕ := F.hdr + c.size

/-- The bytes a row covers. -/
def extent : List Cell → ℕ
  | [] => 0
  | c :: cs => F.width c + extent cs

/-- The cells of a row laid out from `a` on, each with its header's address. -/
def place : ℕ → List Cell → List (ℕ × Cell)
  | _, [] => []
  | a, c :: cs => (a, c) :: place (a + F.width c) cs

/-- Where in a cell its first-fit header goes: at the top when the cell is
split, in place when it is handed out whole. -/
def carveAt (n : ℕ) (c : Cell) : ℕ :=
  if F.slack ≤ c.size - n then c.size - n else 0

/-- A fitting cell after `n` of its bytes have been handed out. -/
def carve (n : ℕ) (c : Cell) (fit : c.Fits n) : List Cell :=
  if F.slack ≤ c.size - n then
    [.vacant (c.size - n - F.hdr) 0, .held n n (Nat.le_refl n)]
  else [.held c.size n fit.2]

/-- Hand out the first fitting cell of the row at `a`: the header's address and
the row after it, or nothing. -/
def firstFit (n : ℕ) : ℕ → List Cell → Option (ℕ × List Cell)
  | _, [] => none
  | a, c :: cs =>
      if fit : c.Fits n then some (a + F.carveAt n c, F.carve n c fit ++ cs)
      else (firstFit n (a + F.width c) cs).map fun r => (r.1, c :: r.2)

/-- Hand out the first fitting cell, or append a new one. -/
def grant (n a : ℕ) (cs : List Cell) : ℕ × List Cell :=
  match F.firstFit n a cs with
  | some r => r
  | none => (a + F.extent cs, cs ++ [.held n n (Nat.le_refl n)])

/-- Free the held cell whose header is at `b`. -/
def release (b : ℕ) : ℕ → List Cell → List Cell
  | _, [] => []
  | a, c :: cs =>
      (if a = b ∧ c.free = false then c.vacate else c) :: release b (a + F.width c) cs

/-- Some cell with its header at `b` is held for `n` bytes. -/
def Held (a : ℕ) (cs : List Cell) (b n : ℕ) : Prop :=
  ∃ c, (b, c) ∈ F.place a cs ∧ c.free = false ∧ c.used = n

/-- Some cell with its header at `b` is free. -/
def Vacant (a : ℕ) (cs : List Cell) (b : ℕ) : Prop :=
  ∃ c, (b, c) ∈ F.place a cs ∧ c.free = true

variable {F}

/-! ## The geometry of a row -/

@[simp] theorem extent_nil : F.extent [] = 0 := rfl

@[simp] theorem extent_cons (c : Cell) (cs : List Cell) :
    F.extent (c :: cs) = F.width c + F.extent cs := rfl

@[simp] theorem extent_append (xs ys : List Cell) :
    F.extent (xs ++ ys) = F.extent xs + F.extent ys := by
  induction xs with
  | nil => simp
  | cons x xs ih => simp [ih, Nat.add_assoc]

@[simp] theorem place_nil (a : ℕ) : F.place a [] = [] := rfl

@[simp] theorem place_cons (a : ℕ) (c : Cell) (cs : List Cell) :
    F.place a (c :: cs) = (a, c) :: F.place (a + F.width c) cs := rfl

theorem place_append (a : ℕ) (xs ys : List Cell) :
    F.place a (xs ++ ys) = F.place a xs ++ F.place (a + F.extent xs) ys := by
  induction xs generalizing a with
  | nil => simp
  | cons x xs ih => simp [ih, Nat.add_assoc]

theorem length_le_extent (cs : List Cell) : cs.length ≤ F.extent cs := by
  induction cs with
  | nil => simp
  | cons c cs ih =>
      have pos := F.hdr_pos
      simp only [List.length_cons, extent_cons, width]
      omega

/-- A placed cell lies inside the row. -/
theorem place_bounds {a b : ℕ} {c : Cell} {cs : List Cell}
    (mem : (b, c) ∈ F.place a cs) : a ≤ b ∧ b + F.width c ≤ a + F.extent cs := by
  induction cs generalizing a with
  | nil => simp at mem
  | cons d cs ih =>
      rw [place_cons, List.mem_cons] at mem
      rw [extent_cons]
      rcases mem with eq | mem
      · obtain ⟨rfl, rfl⟩ := Prod.mk.inj eq
        omega
      · have := ih mem
        omega

/-- Two placed cells are the same cell, or one ends before the other begins. -/
theorem place_apart {a b b' : ℕ} {c c' : Cell} {cs : List Cell}
    (mem : (b, c) ∈ F.place a cs) (mem' : (b', c') ∈ F.place a cs) :
    (b = b' ∧ c = c') ∨ b + F.width c ≤ b' ∨ b' + F.width c' ≤ b := by
  induction cs generalizing a with
  | nil => simp at mem
  | cons d cs ih =>
      rw [place_cons, List.mem_cons] at mem mem'
      rcases mem with eq | mem <;> rcases mem' with eq' | mem'
      · obtain ⟨rfl, rfl⟩ := Prod.mk.inj eq
        obtain ⟨rfl, rfl⟩ := Prod.mk.inj eq'
        exact .inl ⟨rfl, rfl⟩
      · obtain ⟨rfl, rfl⟩ := Prod.mk.inj eq
        exact .inr (.inl (place_bounds mem').1)
      · obtain ⟨rfl, rfl⟩ := Prod.mk.inj eq'
        exact .inr (.inr (place_bounds mem).1)
      · exact ih mem mem'

/-- A row laid out further up. -/
theorem place_shift {a b k : ℕ} {c : Cell} {cs : List Cell} (mem : (b, c) ∈ F.place a cs) :
    (k + b, c) ∈ F.place (k + a) cs := by
  induction cs generalizing a with
  | nil => simp at mem
  | cons d cs ih =>
      rw [place_cons, List.mem_cons] at mem ⊢
      rcases mem with eq | mem
      · obtain ⟨rfl, rfl⟩ := Prod.mk.inj eq
        exact .inl rfl
      · rw [Nat.add_assoc]
        exact .inr (ih mem)

/-- An address carries at most one header. -/
theorem place_inj {a b : ℕ} {c c' : Cell} {cs : List Cell}
    (mem : (b, c) ∈ F.place a cs) (mem' : (b, c') ∈ F.place a cs) : c = c' := by
  have pos := F.hdr_pos
  rcases place_apart mem mem' with ⟨-, eq⟩ | before | after
  · exact eq
  · simp only [width] at before
    omega
  · simp only [width] at after
    omega

/-! ## What a client sees of a row -/

@[simp] theorem not_held_nil (a b n : ℕ) : ¬ F.Held a [] b n := by
  simp [Held]

@[simp] theorem not_vacant_nil (a b : ℕ) : ¬ F.Vacant a [] b := by
  simp [Vacant]

theorem held_append {a b n : ℕ} {xs ys : List Cell} :
    F.Held a (xs ++ ys) b n ↔
      F.Held a xs b n ∨ F.Held (a + F.extent xs) ys b n := by
  simp only [Held, place_append, List.mem_append, or_and_right, exists_or]

theorem vacant_append {a b : ℕ} {xs ys : List Cell} :
    F.Vacant a (xs ++ ys) b ↔
      F.Vacant a xs b ∨ F.Vacant (a + F.extent xs) ys b := by
  simp only [Vacant, place_append, List.mem_append, or_and_right, exists_or]

theorem held_singleton {a b n : ℕ} {c : Cell} :
    F.Held a [c] b n ↔ b = a ∧ c.free = false ∧ c.used = n := by
  simp [Held, and_assoc]

theorem vacant_singleton {a b : ℕ} {c : Cell} :
    F.Vacant a [c] b ↔ b = a ∧ c.free = true := by
  simp [Vacant, and_assoc]

theorem held_cons {a b n : ℕ} {c : Cell} {cs : List Cell} :
    F.Held a (c :: cs) b n ↔
      (b = a ∧ c.free = false ∧ c.used = n) ∨ F.Held (a + F.width c) cs b n := by
  rw [← List.singleton_append, held_append, held_singleton]
  simp

theorem vacant_cons {a b : ℕ} {c : Cell} {cs : List Cell} :
    F.Vacant a (c :: cs) b ↔
      (b = a ∧ c.free = true) ∨ F.Vacant (a + F.width c) cs b := by
  rw [← List.singleton_append, vacant_append, vacant_singleton]
  simp

theorem Held.bounds {a b n : ℕ} {cs : List Cell} (h : F.Held a cs b n) :
    a ≤ b ∧ b + F.hdr + n ≤ a + F.extent cs := by
  obtain ⟨c, mem, taken, rfl⟩ := h
  have := place_bounds mem
  have := c.used_le taken
  simp only [width] at *
  omega

theorem Vacant.bounds {a b : ℕ} {cs : List Cell} (h : F.Vacant a cs b) :
    a ≤ b ∧ b + F.hdr ≤ a + F.extent cs := by
  obtain ⟨c, mem, -⟩ := h
  have := place_bounds mem
  simp only [width] at *
  omega

/-- An address is held for one length only. -/
theorem Held.unique {a b n k : ℕ} {cs : List Cell} (h : F.Held a cs b n)
    (h' : F.Held a cs b k) : n = k := by
  obtain ⟨c, mem, -, rfl⟩ := h
  obtain ⟨c', mem', -, rfl⟩ := h'
  rw [place_inj mem mem']

theorem Held.not_vacant {a b n : ℕ} {cs : List Cell} (h : F.Held a cs b n) :
    ¬ F.Vacant a cs b := by
  rintro ⟨c', mem', free⟩
  obtain ⟨c, mem, taken, -⟩ := h
  rw [place_inj mem mem', free] at taken
  exact Bool.noConfusion taken

/-- Distinct held addresses have disjoint data. -/
theorem Held.disjoint {a b n b' n' : ℕ} {cs : List Cell} (h : F.Held a cs b n)
    (h' : F.Held a cs b' n') (ne : b ≠ b') :
    b + F.hdr + n ≤ b' ∨ b' + F.hdr + n' ≤ b := by
  obtain ⟨c, mem, taken, rfl⟩ := h
  obtain ⟨c', mem', taken', rfl⟩ := h'
  have := c.used_le taken
  have := c'.used_le taken'
  rcases place_apart mem mem' with ⟨eq, -⟩ | before | after
  · exact absurd eq ne
  · simp only [width] at before
    omega
  · simp only [width] at after
    omega

/-- The data of a held cell meets no header. -/
theorem Held.disjoint_header {a b n b' : ℕ} {c' : Cell} {cs : List Cell}
    (h : F.Held a cs b n) (mem' : (b', c') ∈ F.place a cs) :
    b + F.hdr + n ≤ b' ∨ b' + F.hdr ≤ b + F.hdr := by
  obtain ⟨c, mem, taken, rfl⟩ := h
  have := c.used_le taken
  rcases place_apart mem mem' with ⟨rfl, -⟩ | before | after
  · exact .inr (Nat.le_refl _)
  · simp only [width] at before
    omega
  · simp only [width] at after
    omega

/-! ## Handing out -/

@[simp] theorem extent_carve {n : ℕ} {c : Cell} (fit : c.Fits n) :
    F.extent (F.carve n c fit) = F.width c := by
  have room := F.hdr_le_slack
  have le := fit.2
  unfold carve
  split
  · simp only [extent_cons, extent_nil, width, Cell.vacant_size, Cell.held_size]
    omega
  · simp [width]

/-- `firstFit` hands out the first cell that fits, and touches no other. -/
theorem firstFit_eq {n a : ℕ} {pre post : List Cell} {c : Cell}
    (skip : ∀ d ∈ pre, ¬ d.Fits n) (fit : c.Fits n) :
    F.firstFit n a (pre ++ c :: post) =
      some (a + F.extent pre + F.carveAt n c, pre ++ (F.carve n c fit ++ post)) := by
  induction pre generalizing a with
  | nil => simp [firstFit, fit]
  | cons d pre ih =>
      have noFit : ¬ d.Fits n := skip d List.mem_cons_self
      rw [List.cons_append, firstFit, dif_neg noFit,
        ih fun e mem => skip e (List.mem_cons_of_mem _ mem)]
      simp [Nat.add_assoc]

theorem firstFit_eq_none {n : ℕ} {cs : List Cell} (skip : ∀ d ∈ cs, ¬ d.Fits n)
    (a : ℕ) : F.firstFit n a cs = none := by
  induction cs generalizing a with
  | nil => rfl
  | cons d cs ih =>
      rw [firstFit, dif_neg (skip d List.mem_cons_self),
        ih (fun e mem => skip e (List.mem_cons_of_mem _ mem))]
      rfl

/-- A row either has a first fitting cell or has none. -/
theorem fits_cases (n : ℕ) (cs : List Cell) :
    (∀ d ∈ cs, ¬ d.Fits n) ∨
      ∃ (pre post : List Cell) (c : Cell), cs = pre ++ c :: post ∧
        (∀ d ∈ pre, ¬ d.Fits n) ∧ c.Fits n := by
  induction cs with
  | nil => exact .inl (by simp)
  | cons d cs ih =>
      by_cases fit : d.Fits n
      · exact .inr ⟨[], cs, d, rfl, by simp, fit⟩
      · rcases ih with none | ⟨pre, post, c, rfl, skip, found⟩
        · exact .inl (by simpa using ⟨fit, none⟩)
        · exact .inr ⟨d :: pre, post, c, rfl, by simpa using ⟨fit, skip⟩, found⟩

theorem grant_of_fits {n a : ℕ} {pre post : List Cell} {c : Cell}
    (skip : ∀ d ∈ pre, ¬ d.Fits n) (fit : c.Fits n) :
    F.grant n a (pre ++ c :: post) =
      (a + F.extent pre + F.carveAt n c, pre ++ (F.carve n c fit ++ post)) := by
  rw [grant, firstFit_eq skip fit]

theorem grant_of_none {n a : ℕ} {cs : List Cell} (skip : ∀ d ∈ cs, ¬ d.Fits n) :
    F.grant n a cs = (a + F.extent cs, cs ++ [.held n n (Nat.le_refl n)]) := by
  rw [grant, firstFit_eq_none skip]

theorem held_carve {n a b k : ℕ} {c : Cell} (fit : c.Fits n) :
    F.Held a (F.carve n c fit) b k ↔ b = a + F.carveAt n c ∧ n = k := by
  have room := F.hdr_le_slack
  unfold carve carveAt
  split
  · rw [held_cons, held_singleton]
    simp only [Cell.vacant_free, Bool.true_eq_false, false_and, and_false, false_or,
      Cell.held_free, Cell.held_used, true_and, width, Cell.vacant_size]
    rw [show a + (F.hdr + (c.size - n - F.hdr)) = a + (c.size - n) by omega]
  · rw [held_singleton]
    simp

/-- A carved cell keeps its header free exactly when the handed-out one is not
in its place. -/
theorem vacant_carve {n a b : ℕ} {c : Cell} (fit : c.Fits n) :
    F.Vacant a (F.carve n c fit) b ↔ b = a ∧ b ≠ a + F.carveAt n c := by
  have room := F.hdr_le_slack
  have pos := F.hdr_pos
  unfold carve carveAt
  split
  · rw [vacant_cons, vacant_singleton]
    simp only [Cell.vacant_free, and_true, Cell.held_free, Bool.false_eq_true, and_false,
      or_false]
    omega
  · rw [vacant_singleton]
    simp

theorem carveAt_lt {n : ℕ} {c : Cell} : F.carveAt n c < F.width c := by
  have pos := F.hdr_pos
  unfold carveAt width
  split <;> omega

/-- **A grant adds one held address** and disturbs no other. -/
theorem held_grant {n a b k : ℕ} {cs : List Cell} :
    F.Held a (F.grant n a cs).2 b k ↔
      F.Held a cs b k ∨ (b = (F.grant n a cs).1 ∧ n = k) := by
  rcases fits_cases n cs with skip | ⟨pre, post, c, rfl, skip, fit⟩
  · rw [grant_of_none skip, held_append, held_singleton]
    simp
  · rw [grant_of_fits skip fit]
    simp only [held_append, held_cons, held_carve, extent_carve, fit.1]
    simp only [Bool.true_eq_false, false_and, and_false, false_or]
    tauto

/-- **A grant takes at most one vacant address**, the one it hands out. -/
theorem vacant_grant {n a b : ℕ} {cs : List Cell} :
    F.Vacant a (F.grant n a cs).2 b ↔ F.Vacant a cs b ∧ b ≠ (F.grant n a cs).1 := by
  have pos := F.hdr_pos
  rcases fits_cases n cs with skip | ⟨pre, post, c, rfl, skip, fit⟩
  · rw [grant_of_none skip, vacant_append, vacant_singleton]
    simp only [Cell.held_free, Bool.false_eq_true, and_false, or_false]
    refine ⟨fun h => ⟨h, ?_⟩, And.left⟩
    have := h.bounds
    omega
  · rw [grant_of_fits skip fit]
    simp only [vacant_append, vacant_cons, vacant_carve, extent_carve, fit.1, and_true]
    have lt := F.carveAt_lt (n := n) (c := c)
    constructor
    · rintro (low | here | high)
      · have := low.bounds
        exact ⟨.inl low, by omega⟩
      · exact ⟨.inr (.inl here.1), here.2⟩
      · have := high.bounds
        exact ⟨.inr (.inr high), by omega⟩
    · rintro ⟨low | here | high, ne⟩
      · exact .inl low
      · exact .inr (.inl ⟨here, ne⟩)
      · exact .inr (.inr high)

/-- The address a grant hands out was not held. -/
theorem not_held_grant {n a k : ℕ} {cs : List Cell} :
    ¬ F.Held a cs (F.grant n a cs).1 k := by
  have pos := F.hdr_pos
  rcases fits_cases n cs with skip | ⟨pre, post, c, rfl, skip, fit⟩
  · rw [grant_of_none skip]
    intro h
    have := h.bounds
    omega
  · rw [grant_of_fits skip fit]
    have lt := F.carveAt_lt (n := n) (c := c)
    simp only [held_append, held_cons, fit.1]
    rintro (low | here | high)
    · have := low.bounds
      omega
    · exact Bool.noConfusion here.2.1
    · have := high.bounds
      omega

/-! ## Freeing -/

@[simp] theorem extent_release (b a : ℕ) (cs : List Cell) :
    F.extent (F.release b a cs) = F.extent cs := by
  induction cs generalizing a with
  | nil => rfl
  | cons c cs ih =>
      simp only [release, extent_cons, ih]
      split <;> simp [width]

/-- Releasing an address below the row changes nothing. -/
theorem release_of_lt {b a : ℕ} {cs : List Cell} (lt : b < a) :
    F.release b a cs = cs := by
  induction cs generalizing a with
  | nil => rfl
  | cons c cs ih =>
      rw [release, if_neg (by omega), ih (by omega)]

/-- Releasing keeps every header where it was. -/
theorem mem_place_release {b x : ℕ} {d : Cell} (a : ℕ) {cs : List Cell}
    (mem : (x, d) ∈ F.place a (F.release b a cs)) :
    ∃ c, (x, c) ∈ F.place a cs ∧ d = if x = b ∧ c.free = false then c.vacate else c := by
  induction cs generalizing a with
  | nil => simp [release] at mem
  | cons c cs ih =>
      rw [release, place_cons, List.mem_cons] at mem
      rcases mem with eq | mem
      · obtain ⟨rfl, rfl⟩ := Prod.mk.inj eq
        exact ⟨c, by simp, rfl⟩
      · have width : F.width (if a = b ∧ c.free = false then c.vacate else c) = F.width c := by
          split <;> rfl
        rw [width] at mem
        obtain ⟨c', mem', eq⟩ := ih _ mem
        exact ⟨c', by rw [place_cons]; exact List.mem_cons_of_mem _ mem', eq⟩

/-- A placed cell, with what is in front of it and behind. -/
theorem place_split {a b : ℕ} {c : Cell} {cs : List Cell} (mem : (b, c) ∈ F.place a cs) :
    ∃ pre post, cs = pre ++ c :: post ∧ b = a + F.extent pre := by
  induction cs generalizing a with
  | nil => simp at mem
  | cons d cs ih =>
      rw [place_cons, List.mem_cons] at mem
      rcases mem with eq | mem
      · obtain ⟨rfl, rfl⟩ := Prod.mk.inj eq
        exact ⟨[], cs, rfl, rfl⟩
      · obtain ⟨pre, post, rfl, rfl⟩ := ih mem
        exact ⟨d :: pre, post, rfl, by rw [extent_cons, Nat.add_assoc]⟩

/-- Releasing a held cell, in place. -/
theorem release_eq {a : ℕ} {pre post : List Cell} {c : Cell} (taken : c.free = false) :
    F.release (a + F.extent pre) a (pre ++ c :: post) = pre ++ c.vacate :: post := by
  have pos := F.hdr_pos
  induction pre generalizing a with
  | nil =>
      rw [extent_nil, List.nil_append, List.nil_append, release, if_pos ⟨rfl, taken⟩,
        release_of_lt (by simp only [width]; omega)]
  | cons d pre ih =>
      rw [List.cons_append, release, if_neg (by simp only [extent_cons, width]; omega), extent_cons,
        ← Nat.add_assoc, ih]
      rfl

theorem held_release {b b' k : ℕ} (a : ℕ) {cs : List Cell} :
    F.Held a (F.release b a cs) b' k ↔ F.Held a cs b' k ∧ b' ≠ b := by
  have pos := F.hdr_pos
  induction cs generalizing a with
  | nil => simp [release]
  | cons c cs ih =>
      rw [release, held_cons, held_cons]
      split
      case isTrue here =>
        obtain ⟨rfl, taken⟩ := here
        rw [show F.width c.vacate = F.width c from rfl]
        simp only [ih]
        constructor
        · rintro (⟨-, free, -⟩ | ⟨h, ne⟩)
          · exact Bool.noConfusion free
          · exact ⟨.inr h, ne⟩
        · rintro ⟨⟨eq, -⟩ | h, ne⟩
          · exact absurd eq ne
          · exact .inr ⟨h, ne⟩
      case isFalse out =>
        simp only [ih]
        constructor
        · rintro (⟨rfl, taken, eq⟩ | ⟨h, ne⟩)
          · exact ⟨.inl ⟨rfl, taken, eq⟩, fun eq => out ⟨eq, taken⟩⟩
          · exact ⟨.inr h, ne⟩
        · rintro ⟨h | h, ne⟩
          · exact .inl h
          · exact .inr ⟨h, ne⟩

theorem vacant_release {b b' : ℕ} (a : ℕ) {cs : List Cell} :
    F.Vacant a (F.release b a cs) b' ↔
      F.Vacant a cs b' ∨ (b' = b ∧ ∃ k, F.Held a cs b k) := by
  have pos := F.hdr_pos
  induction cs generalizing a with
  | nil => simp [release]
  | cons c cs ih =>
      rw [release, vacant_cons, vacant_cons]
      simp only [held_cons, exists_or]
      split
      case isTrue here =>
        obtain ⟨rfl, taken⟩ := here
        rw [show F.width c.vacate = F.width c from rfl, release_of_lt (by simp only [width]; omega)]
        simp only [Cell.vacate_free, and_true, taken, Bool.false_eq_true, and_false, false_or,
          true_and, exists_eq', true_or]
        tauto
      case isFalse out =>
        simp only [ih]
        constructor
        · rintro (h | h | ⟨rfl, h⟩)
          · exact .inl (.inl h)
          · exact .inl (.inr h)
          · exact .inr ⟨rfl, .inr h⟩
        · rintro ((h | h) | ⟨rfl, ⟨k, rfl, taken, -⟩ | h⟩)
          · exact .inl h
          · exact .inr (.inl h)
          · exact absurd ⟨rfl, taken⟩ out
          · exact .inr (.inr ⟨rfl, h⟩)

end Format

end FirstFit
