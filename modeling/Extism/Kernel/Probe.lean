import Extism.Kernel.Refinement

/-!
# Probing with a dead handle

`length` and `free` look a handle up with `find_block`.  For an address that is
no live handle the walk passes the whole heap without a match, and goes on
through the blank memory behind it, a header at a time, since its bound is the
address and not `position`.  It ends harmlessly if its last header is inside
memory, and nothing else can go wrong.

Where the last header is can be computed: the headers of blank memory are twelve
bytes apart, and the first is at the end of the heap.

## Main definitions

* `lastHeader`, `WalkEnds` — the last header a walk looks at, and that it is
  inside memory.
* `Harmless` — `length` answers 0, `free` completes, and both leave everything as
  it was.

## Main results

* `MemoryRoot.findBlock.walk_blank_iff` — the walk through blank memory.
* `MemoryRoot.findBlock.walk_dead` — the walk through the row, for an address that
  is no handle.
* `harmless_iff_walkEnds` — when an address that is no live handle is harmless, in
  every configuration reached.
-/

namespace Extism.Kernel

open FirstFit (Cell Format)

/-- The last header before `limit` that a walk through blank memory looks at,
from `a` on. -/
def lastHeader (a limit : ℕ) : ℕ := a + 12 * ((limit - a - 1) / 12)

/-- The walk of `find_block` for `p` ends: the address is out of bounds, or inside
the heap, or the last header behind the heap is inside memory, and so is the
next address. -/
def WalkEnds (m : Instance) (p : ℕ) : Prop :=
  ¬ (64 ≤ p ∧ p ≤ m.size) ∨ p ≤ m.position ∨
    (lastHeader (65 + m.position) (65 + p) + 8 ≤ m.size ∧
      lastHeader (65 + m.position) (65 + p) + 12 < 2 ^ 32)

instance (m : Instance) (p : ℕ) : Decidable (WalkEnds m p) :=
  inferInstanceAs (Decidable (_ ∨ _ ∨ _))

/-- `m'` is `m`, up to the root being set up. -/
def Same (m m' : Instance) : Prop := m' = m ∨ m' = (MemoryRoot.new m).2

/-- **A harmless address**: `length` answers 0, `free` completes, and both leave
everything as it was. -/
structure Harmless (m : Instance) (p : ℕ) : Prop where
  length : ∃ m', length p m = (.ok 0, m') ∧ Same m m'
  free : ∃ m', free p m = (.ok (), m') ∧ Same m m'

namespace MemoryRoot.findBlock

variable {m : Instance} {offs limit : ℕ}

theorem walk_done {fuel a : ℕ} (done : limit ≤ a) :
    walk offs limit fuel a m = (.ok none, m) := by
  cases fuel <;> rw [walk, if_neg (by omega)] <;> rfl

/-- One round in blank memory: the header is read up to its size, and the next
one is twelve bytes further. -/
theorem walk_round_iff {fuel a : ℕ} (more : a < limit)
    (zero : ∀ x, a ≤ x → x < m.size → m.bytes x = 0) :
    walk offs limit (fuel + 1) a m = (.ok none, m) ↔
      (a + 8 ≤ m.size ∧ a + 12 < 2 ^ 32) ∧ walk offs limit fuel (a + 12) m = (.ok none, m) := by
  have blank : ∀ {k b : ℕ}, a ≤ b → b + k ≤ m.size → m.peek k b = 0 := fun lo hi =>
    Instance.peek_eq_zero fun x xlo xhi => zero x (by omega) (by omega)
  have size := fun le => @blank 4 (a + 4) (by omega) le
  rw [walk, if_pos more]
  constructor
  · intro run
    obtain ⟨status, m₁, loaded, run⟩ := Prog.bind_eq_ok run
    obtain ⟨rfl, rfl, inside⟩ := of_load loaded
    rw [blank (Nat.le_refl a) inside, if_neg (by simp)] at run
    obtain ⟨next, m₂, moved, run⟩ := Prog.bind_eq_ok run
    obtain ⟨rest, m₃, loaded, added⟩ := Prog.bind_eq_ok moved
    obtain ⟨rfl, rfl, inside⟩ := of_load loaded
    rw [MemoryBlock.size, size inside] at added
    by_cases addr : a + 12 < 2 ^ 32
    · rw [ptrAdd_ok (by simpa using addr)] at added
      obtain ⟨eq, rfl⟩ := Prod.mk.inj added
      obtain rfl := Except.ok.inj eq
      exact ⟨⟨inside, addr⟩, run⟩
    · rw [ptrAdd, if_neg (by simpa using addr)] at added
      simp at added
  · rintro ⟨⟨inside, addr⟩, run⟩
    have next : MemoryBlock.nextPtr a m = (.ok (a + 12), m) := by
      have inside' : a + 4 + 4 ≤ m.size := inside
      rw [MemoryBlock.nextPtr, MemoryBlock.size, Prog.bind_ok (load_ok inside'), size inside',
        ptrAdd_ok (by simpa using addr)]
    rw [MemoryBlock.status, Prog.bind_ok (load_ok (by omega)), blank (Nat.le_refl a) (by omega),
      if_neg (by simp), Prog.bind_ok next, run]

/-- **The walk through blank memory**, from `a` on. -/
theorem walk_blank_iff {fuel : ℕ} : ∀ {a : ℕ}, limit ≤ a + fuel →
    (∀ x, a ≤ x → x < m.size → m.bytes x = 0) →
    (walk offs limit fuel a m = (.ok none, m) ↔ limit ≤ a ∨
      (lastHeader a limit + 8 ≤ m.size ∧ lastHeader a limit + 12 < 2 ^ 32)) := by
  induction fuel with
  | zero =>
      intro a enough _
      exact iff_of_true (walk_done enough) (.inl enough)
  | succ fuel ih =>
      intro a enough zero
      by_cases done : limit ≤ a
      · exact iff_of_true (walk_done done) (.inl done)
      · rw [walk_round_iff (by omega) zero, ih (by omega) fun x lo hi => zero x (by omega) hi,
          or_iff_right done]
        -- the last header is this one, or the last one from the next on
        simp only [lastHeader]
        omega

/-- **The walk through the row**, for an address that is no handle: it goes on
behind the row. -/
theorem walk_dead (addr : m.size ≤ 2 ^ 32) :
    ∀ (cs : List Cell) (fuel a : ℕ), (∀ p ∈ heap.place a cs, HeaderAt m p.1 p.2) →
      a + heap.extent cs + 12 ≤ m.size →
      (∀ b k, b + 12 = offs → ¬ heap.Held a cs b k) → limit ≤ a + fuel →
      ∃ fuel', limit ≤ a + heap.extent cs + fuel' ∧
        walk offs limit fuel a m = walk offs limit fuel' (a + heap.extent cs) m := by
  intro cs
  induction cs with
  | nil => exact fun fuel a _ _ _ enough => ⟨fuel, enough, rfl⟩
  | cons c cs ih =>
      intro fuel a headers room dead enough
      by_cases done : limit ≤ a
      · exact ⟨0, by omega, by rw [walk_done done, walk_done (by omega)]⟩
      simp only [Format.place_cons, List.mem_cons, forall_eq_or_imp] at headers
      simp only [Format.extent_cons] at room ⊢
      have header := headers.1
      obtain ⟨fuel, rfl⟩ : ∃ k, fuel = k + 1 := ⟨fuel - 1, by omega⟩
      have widthPos : 12 ≤ heap.width c := by simp [Format.width]
      have other : ¬ ((cellStatus c).code = MemoryStatus.active.code ∧
          MemoryBlock.data a = offs) := by
        rintro ⟨active, here⟩
        refine dead a c.used here (Format.held_cons.2 (.inl ⟨rfl, ?_, rfl⟩))
        by_contra free
        rw [cellStatus_of_free (by simpa using free)] at active
        simp at active
      rw [walk, if_pos (by omega),
        Prog.bind_ok (load_ok (by simp only [MemoryBlock.status]; omega)), header.status,
        if_neg other, Prog.bind_ok (findFreeBlock.nextPtr_eq header (by omega) (by omega)),
        ← Nat.add_assoc]
      exact ih fuel (a + heap.width c) headers.2 (by omega)
        (fun b k eq held => dead b k eq (Format.held_cons.2 (.inr held))) (by omega)

end MemoryRoot.findBlock

namespace Represents

variable {m : Instance} {cs : List Cell} {p : ℕ}

/-- **`find_block` on a dead handle** finds nothing exactly if the walk ends. -/
theorem findBlock_dead_iff (R : Represents m cs)
    (dead : ∀ b k, b + 12 = p → ¬ heap.Held MemoryRoot.blocks cs b k) :
    MemoryRoot.findBlock p m = (.ok none, m) ↔ WalkEnds m p := by
  have extent := R.extent_le
  have size := R.size_le
  have position : m.position = heap.extent cs := R.position
  have bytes : m.pages * 65536 = m.size := Nat.mul_comm _ _
  rw [MemoryRoot.findBlock, Prog.bind_ok (pointerInBoundsFast_eq m p), bytes, Prog.ite_apply]
  simp only [decide_eq_true_eq, WalkEnds, position]
  by_cases inBounds : 64 ≤ p ∧ p ≤ m.size
  · have limit : addU64 MemoryRoot.blocks p = 65 + p := by
      simp only [addU64, MemoryRoot.blocks]
      omega
    obtain ⟨fuel, enough, passed⟩ := @MemoryRoot.findBlock.walk_dead m p (65 + p) size cs p
      MemoryRoot.blocks R.headers (by simp only [MemoryRoot.blocks]; omega) dead
      (by simp only [MemoryRoot.blocks]; omega)
    have inside : 65 + p ≤ 65 + heap.extent cs ↔ p ≤ heap.extent cs := by omega
    rw [if_pos inBounds, limit, passed, MemoryRoot.findBlock.walk_blank_iff enough R.zero,
      inside, or_iff_right (not_not_intro inBounds)]
  · rw [if_neg inBounds]
    exact iff_of_true rfl (.inl inBounds)

/-- **A dead handle is harmless** exactly if the walk ends. -/
theorem harmless_iff (R : Represents m.boot cs) (pages : 1 ≤ m.pages)
    (dead : ∀ b k, b + 12 = p → ¬ heap.Held MemoryRoot.blocks cs b k) :
    Harmless m p ↔ WalkEnds m.boot p := by
  have booted := MemoryRoot.new_eq pages
  by_cases null : p = 0
  · subst null
    exact iff_of_true ⟨⟨m, rfl, .inl rfl⟩, ⟨m, rfl, .inl rfl⟩⟩ (.inl (by omega))
  rw [← R.findBlock_dead_iff dead]
  constructor
  · rintro ⟨⟨m', run, -⟩, -⟩
    rw [Kernel.length, if_neg null, Prog.bind_ok booted] at run
    obtain ⟨r, m₁, found, -⟩ := Prog.bind_eq_ok run
    obtain ⟨rfl, rfl⟩ := R.findBlock_not_held dead found
    exact found
  · intro found
    have same : Same m m.boot := .inr (by rw [booted])
    refine ⟨⟨m.boot, ?_, same⟩, ⟨m.boot, ?_, same⟩⟩
    · rw [Kernel.length, if_neg null, Prog.bind_ok booted, Prog.bind_ok found]
      rfl
    · rw [Kernel.free, if_neg null, Prog.bind_ok booted, Prog.bind_ok found]
      rfl

end Represents

/-- **When an address that is no live handle is harmless**, in every
configuration reached.  The memory the walk sees is the one `MemoryRoot::new`
leaves. -/
theorem harmless_iff_walkEnds {c : Config} (reach : confinedRuns.Reachable c) {p : ℕ}
    (dead : ∀ n, (p, n) ∉ c.ledger.live) :
    Harmless c.kernel p ↔ WalkEnds (MemoryRoot.new c.kernel).2 p := by
  obtain ⟨cs, S⟩ := sound_of_reachable reach
  rw [MemoryRoot.new_eq S.pages]
  refine S.heap.harmless_iff S.pages ?_
  rintro b k rfl held
  exact dead k (S.account.of_held held)

/-- The second byte of a block is no handle, and it is not far. -/
theorem harmless_iff_walkEnds_of_interior :
    Harmless ((Config.fresh 1 fun _ => false).after (.alloc 10) 77).kernel 78 ↔
      WalkEnds (MemoryRoot.new ((Config.fresh 1 fun _ => false).after (.alloc 10) 77).kernel).2
        78 := by
  have reach := (reachable_fresh (Nat.le_refl 1) (by decide) fun _ => false).step
    (confined_of_run (.alloc 10) 77 (by decide) (by decide +kernel))
  have dead : ∀ n,
      (78, n) ∉ ((Config.fresh 1 fun _ => false).after (.alloc 10) 77).ledger.live := by
    intro n mem
    have mem : (78, n) ∈ [(77, 10)] := mem
    simp at mem
  exact harmless_iff_walkEnds reach dead

/-- For the last address of a page the walk runs out of memory. -/
theorem not_always_harmless :
    ¬ ∀ c, confinedRuns.Reachable c → ∀ p, p < 2 ^ 64 → (∀ n, (p, n) ∉ c.ledger.live) →
      Harmless c.kernel p := by
  intro always
  have reach := reachable_fresh (Nat.le_refl 1) (by decide) fun _ => false
  have harmless := always _ reach 65536 (by decide) (by simp [Config.fresh, Ledger.empty])
  have S := Sound.fresh (Nat.le_refl 1) (by decide) fun _ => false
  rw [S.heap.harmless_iff S.pages fun _ _ _ => Format.not_held_nil _ _ _] at harmless
  revert harmless
  decide +kernel

end Extism.Kernel
