import Extism.Kernel.Find

/-!
# The raw accessors

`load_u8`, `load_u64`, `store_u8` and `store_u64` take any address.  Their guard
compares the last byte of the access with the size of the root, although the
root starts at address 1, and with the size of the memory, inclusively.  So it
lets two kinds of access pass that are not inside the data area: those that
start in the root and end at address 64 or later, and those that end right
behind the memory.

Such an access is harmless all the same if the address, cut to 32 bits, is inside
memory and the bytes there are what the access would leave or return.

## Main definitions

* `Instance.Data`, `Instance.Guarded` — an access is in the data area, and the
  guard lets it pass.
* `StoreStays`, `LoadStays` — what is asked of a store and of a load.
* `Instance.Fits` — when it is met.

## Main results

* `guard_eq` — the guard, on every address.
* `storeStays_iff`, `loadStays_iff` — a guarded store and a guarded load.
* `accessors_stay_iff` — the four accessors, on every memory and at every
  address.
-/

namespace Extism.Kernel

namespace Instance

variable (m : Instance) (k p : ℕ)

/-- The `k` bytes at `p` are in the data area: behind the root, inside memory. -/
def Data : Prop := MemoryRoot.blocks ≤ p ∧ p + k ≤ m.size

/-- The guard lets an access to the `k` bytes at `p` pass. -/
def Guarded : Prop := 65 ≤ p + k ∧ p + k ≤ m.size + 1

instance : Decidable (m.Data k p) := inferInstanceAs (Decidable (_ ∧ _))

instance : Decidable (m.Guarded k p) := inferInstanceAs (Decidable (_ ∧ _))

/-- An access to the `k` bytes at `p` is refused, or in the data area, or it does
not matter: the address cut to 32 bits is inside memory, and the word there is
`v`. -/
def Fits (v : ℕ) : Prop :=
  ¬ m.Guarded k p ∨ m.Data k p ∨ (toUsize p + k ≤ m.size ∧ m.peek k (toUsize p) = v)

instance (v : ℕ) : Decidable (m.Fits k p v) := inferInstanceAs (Decidable (_ ∨ _ ∨ _))

end Instance

/-- **A store stays in the data area**: it completes, changes nothing or the `k`
bytes at `p`, and no byte of the root. -/
def StoreStays (x : Exec Unit) (m : Instance) (k p v : ℕ) : Prop :=
  ∃ m', x m = (.ok (), m') ∧ (m' = m ∨ (m.Data k p ∧ m' = m.poke k p v)) ∧
    ∀ a, 1 ≤ a → a ≤ MemoryRoot.sizeOf → m'.bytes a = m.bytes a

/-- **A load stays in the data area**: it completes, changes nothing, and returns
0 or the `k` bytes at `p`. -/
def LoadStays (x : Exec ℕ) (m : Instance) (k p : ℕ) : Prop :=
  ∃ v, x m = (.ok v, m) ∧ (v = 0 ∨ (m.Data k p ∧ v = m.peek k p))

/-- A store that changes nothing. -/
theorem Instance.poke_eq_self_iff (m : Instance) (k a v : ℕ) :
    m.poke k a v = m ↔ m.peek k a = v % 256 ^ k := by
  rw [Instance.peek, ← ByteMem.splice_wordBytes_eq_self_iff]
  cases m
  simp [Instance.splice]

section Accessors

variable {m : Instance} {k p v : ℕ}

/-- An access in the data area is not cut. -/
theorem Instance.Data.toUsize_eq (data : m.Data k p) (pages : m.pages ≤ MAX_PAGES)
    (pos : 1 ≤ k) : toUsize p = p := by
  have hi := data.2
  simp only [Instance.size, MAX_PAGES, PAGE_SIZE] at pages hi
  exact toUsize_of_lt (by omega)

/-- The guard, on every address. -/
theorem guard_eq (pages : m.pages ≤ MAX_PAGES) (pos : 1 ≤ k) (width : k ≤ 8) (lt : p < 2 ^ 64) :
    MemoryRoot.pointerInBoundsFast (subU64 (addU64 p k) 1) m =
      (.ok (decide (m.Guarded k p)), m) := by
  have test : (64 ≤ subU64 (addU64 p k) 1 ∧ subU64 (addU64 p k) 1 ≤ m.pages * 65536) ↔
      m.Guarded k p := by
    simp only [Instance.Guarded, Instance.size, MAX_PAGES, PAGE_SIZE, subU64, addU64] at *
    omega
  rw [Represents.pointerInBoundsFast_eq, decide_eq_decide.2 test]

/-- A guarded store. -/
theorem storeStays_iff {x : Exec Unit} (pages : m.pages ≤ MAX_PAGES) (pos : 1 ≤ k)
    (eq : x m = (if decide (m.Guarded k p) then store k (toUsize p) v else pure ()) m) :
    StoreStays x m k p v ↔ m.Fits k p (v % 256 ^ k) := by
  rw [StoreStays, eq, Prog.ite_apply]
  simp only [decide_eq_true_eq]
  constructor
  · rintro ⟨m', run, changed, -⟩
    split at run
    case isFalse unguarded => exact .inl unguarded
    case isTrue guarded =>
      obtain ⟨rfl, inside⟩ := of_store run
      rcases changed with same | ⟨data, -⟩
      · exact .inr (.inr ⟨inside, (m.poke_eq_self_iff _ _ _).1 same⟩)
      · exact .inr (.inl data)
  · rintro (unguarded | data | ⟨inside, same⟩)
    · exact ⟨m, by rw [if_neg unguarded]; rfl, .inl rfl, fun _ _ _ => rfl⟩
    · have guarded : m.Guarded k p := by
        have lo := data.1
        have hi := data.2
        simp only [MemoryRoot.blocks] at lo
        exact ⟨by omega, by omega⟩
      rw [if_pos guarded, data.toUsize_eq pages pos, store_ok _ data.2]
      refine ⟨_, rfl, .inr ⟨data, rfl⟩, fun a _ hi => ?_⟩
      have lo := data.1
      simp only [MemoryRoot.blocks, MemoryRoot.sizeOf] at lo hi
      exact Instance.bytes_splice_of_notMem _ _ (.inl (by omega))
    · split
      · rw [store_ok _ inside, (m.poke_eq_self_iff _ _ _).2 same]
        exact ⟨m, rfl, .inl rfl, fun _ _ _ => rfl⟩
      · exact ⟨m, rfl, .inl rfl, fun _ _ _ => rfl⟩

/-- A guarded load. -/
theorem loadStays_iff {x : Exec ℕ} (pages : m.pages ≤ MAX_PAGES) (pos : 1 ≤ k)
    (eq : x m = (if decide (m.Guarded k p) then load k (toUsize p) else pure 0) m) :
    LoadStays x m k p ↔ m.Fits k p 0 := by
  rw [LoadStays, eq, Prog.ite_apply]
  simp only [decide_eq_true_eq]
  constructor
  · rintro ⟨v, run, read⟩
    split at run
    case isFalse unguarded => exact .inl unguarded
    case isTrue guarded =>
      obtain ⟨-, rfl, inside⟩ := of_load run
      rcases read with zero | ⟨data, -⟩
      · exact .inr (.inr ⟨inside, zero⟩)
      · exact .inr (.inl data)
  · rintro (unguarded | data | ⟨inside, zero⟩)
    · exact ⟨0, by rw [if_neg unguarded]; rfl, .inl rfl⟩
    · have guarded : m.Guarded k p := by
        have lo := data.1
        have hi := data.2
        simp only [MemoryRoot.blocks] at lo
        exact ⟨by omega, by omega⟩
      rw [if_pos guarded, data.toUsize_eq pages pos, load_ok data.2]
      exact ⟨_, rfl, .inr ⟨data, rfl⟩⟩
    · split
      · rw [load_ok inside, zero]
        exact ⟨0, rfl, .inl rfl⟩
      · exact ⟨0, rfl, .inl rfl⟩

end Accessors

/-- **When the accessors stay in the data area**, on every memory and at every
address. -/
theorem accessors_stay_iff {m : Instance} (pages : m.pages ≤ MAX_PAGES) {p : ℕ} (x : ℕ)
    (lt : p < 2 ^ 64) :
    (StoreStays (storeU8 p x) m 1 p x ↔ m.Fits 1 p (x % 256)) ∧
      (StoreStays (storeU64 p x) m 8 p x ↔ m.Fits 8 p (x % 2 ^ 64)) ∧
      (LoadStays (loadU8 p) m 1 p ↔ m.Fits 1 p 0) ∧
      (LoadStays (loadU64 p) m 8 p ↔ m.Fits 8 p 0) := by
  have byte := guard_eq (k := 1) pages (Nat.le_refl 1) (by decide) lt
  have word := guard_eq (k := 8) pages (by decide) (Nat.le_refl 8) lt
  have same : subU64 (addU64 p 1) 1 = p := by
    simp only [subU64, addU64]
    omega
  rw [same] at byte
  refine ⟨storeStays_iff pages (Nat.le_refl 1) ?_, storeStays_iff pages (by decide) ?_,
    loadStays_iff pages (Nat.le_refl 1) ?_, loadStays_iff pages (by decide) ?_⟩
  · rw [storeU8, Prog.bind_ok byte]
  · rw [storeU64, Prog.bind_ok word]
  · rw [loadU8, Prog.bind_ok byte]
  · rw [loadU64, Prog.bind_ok word]

/-- A word at the first address behind the root of a fresh page. -/
theorem accessors_stay_iff_at_first_block :
    StoreStays (storeU64 65 999) (.fresh 1 fun _ => false) 8 65 999 :=
  (accessors_stay_iff (m := .fresh 1 fun _ => false) (by decide) 999 (by decide)).2.1.2
    (by decide)

/-- A byte stored at 64 is the last one of the root. -/
theorem not_stores_stay :
    ¬ ∀ m : Instance, 1 ≤ m.pages → m.pages ≤ MAX_PAGES → ∀ p x, p < 2 ^ 64 → x < 256 →
      StoreStays (storeU8 p x) m 1 p x := by
  intro always
  have stays := always (.fresh 1 fun _ => false) (by decide) (by decide) 64 1 (by decide)
    (by decide)
  obtain ⟨m', run, -, root⟩ := stays
  have kept := root 64 (by decide) (by decide)
  have stored : ((storeU8 64 1 (.fresh 1 fun _ => false)).2).bytes 64 = 1 := by decide +kernel
  rw [run, kept] at stored
  revert stored
  decide

end Extism.Kernel
