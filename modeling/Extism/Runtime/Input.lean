import Extism.Kernel.Heap
import Extism.Runtime.Plugin

/-!
# What `set_input` leaves behind

However the kernel's memory was left by earlier calls — nothing at all is
assumed of it — a completed `set_input` leaves no error recorded, neither in the
kernel nor in the cached output.  `reset` empties the heap first, so the walk
for a free block meets no header and the input goes into the first block; none
of the later writes is near the root's `error`.

## Main definitions

* `Instance.ErrorFree`, `Instance.Cleared`, `Instance.Started` — no error is
  recorded, the heap is empty besides, and the root is set up with an empty heap.

## Main results

* `reset_ensures` — `reset` empties the heap and clears the error, on any memory.
* `alloc_ensures` — the first allocation leaves the error alone, and hands out a
  block behind the root.
* `CurrentPlugin.memoryNew_ensures` — so does writing the input there.
* `Plugin.setInput_ensures` — a call starts without an error, whatever the calls
  before it did.
-/

namespace Extism.Kernel

/-- No error is recorded: the root's `error` holds zeros. -/
def Instance.ErrorFree (m : Instance) : Prop :=
  ∀ x, MemoryRoot.error ≤ x → x < MemoryRoot.error + 8 → m.bytes x = 0

/-- The root is initialised, no error is recorded, and the heap is empty. -/
structure Instance.Cleared (m : Instance) : Prop where
  initialized : m.peek 1 MemoryRoot.initialized ≠ 0
  position : m.peek 8 MemoryRoot.position = 0
  error : m.ErrorFree

/-- A write next to the field, or of zeros. -/
theorem Instance.ErrorFree.splice {m : Instance} (free : m.ErrorFree) {a k : ℕ}
    {f : ℕ → UInt8} (ok : a + k ≤ MemoryRoot.error ∨ MemoryRoot.error + 8 ≤ a ∨ ∀ i, f i = 0) :
    (m.splice a k f).ErrorFree := by
  intro x lo hi
  by_cases inside : a ≤ x ∧ x < a + k
  · rw [Instance.bytes_splice_of_mem _ _ inside.1 inside.2]
    rcases ok with left | right | zero
    · omega
    · omega
    · exact zero _
  · rw [Instance.bytes_splice_of_notMem _ _ (by omega)]
    exact free x lo hi

section Keeps

open Prog (Keeps)

variable {I : Instance → Prop}

theorem load_keeps (k a : ℕ) : Keeps I (load k a) := by
  intro m inv
  unfold load
  split <;> exact inv

theorem memorySize_keeps : Keeps I memorySize := fun _ inv => inv

theorem pointerInBounds_keeps (p : ℕ) : Keeps I (MemoryRoot.pointerInBounds p) :=
  (load_keeps _ _).bind fun _ => .pure _

theorem store_keeps {k a v : ℕ}
    (ok : a + k ≤ MemoryRoot.error ∨ MemoryRoot.error + 8 ≤ a ∨ v = 0) :
    Keeps Instance.ErrorFree (store k a v) := by
  intro m free
  unfold store
  split
  · refine free.splice (ok.imp_right (Or.imp_right ?_))
    rintro rfl i
    simp [ByteMem.wordBytes]
  · exact free

theorem writeZeros_keeps (a n : ℕ) : Keeps Instance.ErrorFree (writeZeros a n) := by
  intro m free
  unfold writeZeros
  split
  · exact free.splice (.inr (.inr fun _ => rfl))
  · exact free

theorem memoryGrow_keeps (k : ℕ) : Keeps Instance.ErrorFree (memoryGrow k) := by
  intro m free
  unfold memoryGrow
  split
  · exact free.splice (.inr (.inr fun _ => rfl))
  · exact free

theorem setup_keeps : Keeps Instance.ErrorFree MemoryRoot.setup := by
  unfold MemoryRoot.setup
  refine (store_keeps (by decide)).bind fun _ => ?_
  refine (store_keeps (by decide)).bind fun _ => ?_
  refine (store_keeps (by decide)).bind fun _ => ?_
  refine (store_keeps (by decide)).bind fun _ => ?_
  refine (store_keeps (by decide)).bind fun _ => ?_
  refine (store_keeps (by decide)).bind fun _ => ?_
  refine (store_keeps (by decide)).bind fun _ => ?_
  exact writeZeros_keeps _ _

theorem noMemory_keeps : Keeps Instance.ErrorFree MemoryRoot.new.noMemory :=
  memorySize_keeps.bind fun _ =>
    .ite ((memoryGrow_keeps 1).bind fun _ => .pure _) (.pure _)

theorem new_keeps : Keeps Instance.ErrorFree MemoryRoot.new :=
  (load_keeps _ _).bind fun _ => .ite (.pure _) <|
    (store_keeps (by decide)).bind fun _ =>
      noMemory_keeps.bind fun _ => .ite (.fail _) setup_keeps

theorem inputSet_keeps (h len : ℕ) : Keeps Instance.ErrorFree (inputSet h len) := by
  unfold inputSet setRange
  refine new_keeps.bind fun _ => ?_
  refine (pointerInBounds_keeps _).bind fun _ => ?_
  refine (pointerInBounds_keeps _).bind fun _ => ?_
  refine .ite ?_ (.pure _)
  exact (store_keeps (.inr (.inl (by decide)))).bind fun _ =>
    store_keeps (.inr (.inl (by decide)))

theorem hostWrite_keeps {p : ℕ} (beyond : MemoryRoot.error + 8 ≤ p) (bs : List UInt8) :
    Keeps Instance.ErrorFree (hostWrite p bs) := by
  intro m free
  unfold hostWrite
  split
  · exact free.splice (.inr (.inl beyond))
  · exact free

/-- Making room grows the memory and stores its new length. -/
theorem makeRoom_keeps (grow : ∀ k, Keeps I (memoryGrow k))
    (bump : ∀ v, Keeps I (store 8 MemoryRoot.length v)) (n position length : ℕ) :
    Keeps I (MemoryRoot.alloc.makeRoom n position length) := by
  unfold MemoryRoot.alloc.makeRoom
  refine .ite ?_ (.pure _)
  refine (grow _).bind fun _ => .ite (.pure _) ?_
  exact (load_keeps _ _).bind fun _ => (bump _).bind fun _ => .pure _

/-- A new block is written from the address it gets on. -/
theorem append_keeps {position : ℕ} (bump : ∀ v, Keeps I (store 8 MemoryRoot.position v))
    (header : ∀ k a v, toUsize (addU64 MemoryRoot.blocks position) ≤ a → Keeps I (store k a v))
    (n : ℕ) : Keeps I (MemoryRoot.alloc.append n position) := by
  unfold MemoryRoot.alloc.append
  refine (load_keeps _ _).bind fun _ => (bump _).bind fun _ => ?_
  refine (header _ _ _ (Nat.le_refl _)).bind fun _ => ?_
  refine (header _ _ _ (Nat.le_add_right _ _)).bind fun _ => ?_
  exact (header _ _ _ (Nat.le_add_right _ _)).bind fun _ => .pure _

theorem room_keeps (n position length : ℕ) :
    Keeps Instance.ErrorFree (MemoryRoot.alloc.makeRoom n position length) :=
  makeRoom_keeps memoryGrow_keeps (fun _ => store_keeps (.inl (by decide))) _ _ _

/-- The first block is written behind the root. -/
theorem first_keeps (n : ℕ) : Keeps Instance.ErrorFree (MemoryRoot.alloc.append n 0) :=
  append_keeps (fun _ => store_keeps (.inl (by decide)))
    (fun _ _ _ behind => store_keeps (.inr (.inl (Nat.le_trans (by decide) behind)))) n

end Keeps

open Prog (Ensures)

theorem Instance.errorFree_poke (m : Instance) : (m.poke 8 MemoryRoot.error 0).ErrorFree := by
  intro x lo hi
  rw [Instance.bytes_splice_of_mem _ _ lo hi]
  simp [ByteMem.wordBytes]

/-- An initialised root is left alone. -/
theorem of_new {m m' : Instance} {u : Unit} (init : m.peek 1 MemoryRoot.initialized ≠ 0)
    (run : MemoryRoot.new m = (.ok u, m')) : m' = m := by
  obtain ⟨v, m₁, loaded, rest⟩ := Prog.bind_eq_ok run
  obtain ⟨rfl, rfl, -⟩ := of_load loaded
  rw [if_pos init] at rest
  exact (Prog.of_pure rest).1

theorem new_ensures :
    Ensures (fun _ => True) MemoryRoot.new fun _ m => m.peek 1 MemoryRoot.initialized ≠ 0 := by
  intro m u m' _ run
  have pages : 1 ≤ m.pages := by
    obtain ⟨v, m₁, loaded, -⟩ := Prog.bind_eq_ok run
    have fits := (of_load loaded).2.2
    simp only [Instance.size, PAGE_SIZE, MemoryRoot.initialized] at fits
    omega
  rw [MemoryRoot.new_eq pages] at run
  obtain rfl := (Prod.ext_iff.1 run).2
  unfold Instance.boot
  split
  case isTrue init => exact init
  case isFalse =>
    simp only [MemoryRoot.initialized, MemoryRoot.inputOffset, MemoryRoot.inputLength,
      MemoryRoot.outputOffset, MemoryRoot.outputLength, MemoryRoot.error, MemoryRoot.length,
      MemoryRoot.position, MemoryRoot.blocks]
    simp (disch := omega) only [Instance.peek_splice_of_disjoint, Instance.peek_poke_of_lt]
    decide

/-- The root is initialised, and the heap is empty. -/
def Instance.Started (m : Instance) : Prop :=
  m.peek 1 MemoryRoot.initialized ≠ 0 ∧ m.peek 8 MemoryRoot.position = 0

theorem Instance.Started.splice {m : Instance} (started : m.Started) {a : ℕ} (k : ℕ)
    (f : ℕ → UInt8) (beyond : MemoryRoot.error ≤ a) : (m.splice a k f).Started := by
  simp only [MemoryRoot.error] at beyond
  unfold Instance.Started at *
  simp only [MemoryRoot.initialized, MemoryRoot.position] at *
  simp (disch := omega) only [Instance.peek_splice_of_disjoint]
  exact started

theorem startPosition_ensures :
    Ensures (fun m => m.peek 1 MemoryRoot.initialized ≠ 0) (store 8 MemoryRoot.position 0)
      fun _ => Instance.Started := by
  intro m u m' init run
  obtain ⟨rfl, -⟩ := of_store run
  refine ⟨?_, Instance.peek_poke_of_lt _ (by decide)⟩
  rwa [Instance.peek_splice_of_disjoint _ _ (.inl (by decide))]

theorem startZeros_keeps (n : ℕ) :
    Prog.Keeps Instance.Started (writeZeros MemoryRoot.blocks n) := by
  intro m started
  unfold writeZeros
  split
  · exact started.splice n _ (by decide)
  · exact started

theorem clearError_ensures :
    Ensures Instance.Started (store 8 MemoryRoot.error 0) fun _ => Instance.Cleared := by
  intro m u m' started run
  obtain ⟨rfl, -⟩ := of_store run
  have same := started.splice 8 (ByteMem.wordBytes 0) le_rfl
  exact ⟨same.1, same.2, m.errorFree_poke⟩

theorem cleared_keeps {k a v : ℕ} (beyond : MemoryRoot.error + 8 ≤ a) :
    Prog.Keeps Instance.Cleared (store k a v) := by
  intro m cleared
  unfold store
  split
  · have same := Instance.Started.splice ⟨cleared.initialized, cleared.position⟩ k
      (ByteMem.wordBytes v) (le_of_add_le_left beyond)
    exact ⟨same.1, same.2, cleared.error.splice (.inr (.inl beyond))⟩
  · exact cleared

/-- `reset` empties the heap and clears the error, on any memory. -/
theorem reset_ensures : Ensures (fun _ => True) reset fun _ => Instance.Cleared := by
  refine new_ensures.bind fun _ => ?_
  refine (Ensures.of_keeps (load_keeps _ _)).bind fun _ => ?_
  refine startPosition_ensures.bind fun _ => ?_
  refine (Ensures.of_keeps (startZeros_keeps _)).bind fun _ => ?_
  refine clearError_ensures.bind fun _ => .of_keeps ?_
  refine (cleared_keeps (by decide)).bind fun _ => ?_
  refine (cleared_keeps (by decide)).bind fun _ => ?_
  exact (cleared_keeps (by decide)).bind fun _ => cleared_keeps (by decide)

/-- In an empty heap the walk for a free block ends at once. -/
theorem findFreeBlock_zero (n : ℕ) : MemoryRoot.findFreeBlock n 0 = pure none := by
  rw [MemoryRoot.findFreeBlock, MemoryRoot.findFreeBlock.walk]
  rfl

theorem append_ensures (n : ℕ) :
    Ensures Instance.ErrorFree (MemoryRoot.alloc.append n 0) fun b m =>
      m.ErrorFree ∧ MemoryRoot.error + 8 ≤ handle b := by
  intro m b m' free run
  have kept := first_keeps n m free
  rw [run] at kept
  obtain ⟨_, _, -, r₁⟩ := Prog.bind_eq_ok run
  obtain ⟨_, _, -, r₂⟩ := Prog.bind_eq_ok r₁
  obtain ⟨_, _, -, r₃⟩ := Prog.bind_eq_ok r₂
  obtain ⟨_, _, -, r₄⟩ := Prog.bind_eq_ok r₃
  obtain ⟨_, _, -, r₅⟩ := Prog.bind_eq_ok r₄
  obtain ⟨-, rfl⟩ := Prog.of_pure r₅
  exact ⟨kept, by decide⟩

theorem place_ensures (n length : ℕ) :
    Ensures Instance.ErrorFree (MemoryRoot.alloc.place n 0 length none) fun b m =>
      m.ErrorFree ∧ (handle b = 0 ∨ MemoryRoot.error + 8 ≤ handle b) := by
  refine (Ensures.of_keeps (room_keeps n 0 length)).bind fun _ =>
    .ite (fun _ => ?_) fun _ => ?_
  · exact (append_ensures n).mono fun _ _ h => ⟨h.1, .inr h.2⟩
  · exact .pure fun _ free => ⟨free, .inl rfl⟩

theorem rootAlloc_ensures (n : ℕ) :
    Ensures Instance.Cleared (MemoryRoot.alloc n) fun b m =>
      m.ErrorFree ∧ (handle b = 0 ∨ MemoryRoot.error + 8 ≤ handle b) := by
  intro m b m' cleared run
  obtain ⟨p, m₁, loaded, r₁⟩ := Prog.bind_eq_ok run
  obtain ⟨same₁, at₁, -⟩ := of_load loaded
  obtain ⟨length, m₂, loaded, r₂⟩ := Prog.bind_eq_ok r₁
  obtain ⟨same₂, -⟩ := of_load loaded
  rw [same₂, same₁, at₁, cleared.position, findFreeBlock_zero,
    Prog.bind_ok (Prog.pure_apply none m)] at r₂
  exact place_ensures n length m b m' cleared.error r₂

/-- The first allocation leaves the error alone, and hands out a block behind
the root. -/
theorem alloc_ensures (n : ℕ) :
    Ensures Instance.Cleared (alloc n) fun h m =>
      m.ErrorFree ∧ (h = 0 ∨ MemoryRoot.error + 8 ≤ h) := by
  intro m h m' cleared run
  unfold alloc at run
  split at run
  · obtain ⟨rfl, rfl⟩ := Prog.of_pure run
    exact ⟨cleared.error, .inl rfl⟩
  · obtain ⟨_, m₁, ran, called⟩ := Prog.bind_eq_ok run
    obtain rfl := of_new cleared.initialized ran
    obtain ⟨block, m₂, placed, returned⟩ := Prog.bind_eq_ok called
    obtain ⟨rfl, rfl⟩ := Prog.of_pure returned
    exact rootAlloc_ensures n _ block _ cleared placed

end Extism.Kernel

namespace Extism.Runtime

open Prog (Ensures)
open Kernel (Instance)

namespace CurrentPlugin

theorem memoryAlloc_ensures (owner : Owner) {n : ℕ} (pos : n ≠ 0) :
    Ensures Instance.Cleared (memoryAlloc owner n) fun handle m =>
      m.ErrorFree ∧ Kernel.MemoryRoot.error + 8 ≤ handle.offset := by
  refine .ite (fun zero => absurd zero pos) fun _ => ?_
  refine ((Kernel.alloc_ensures n).mapError _).bind fun offs => ?_
  refine Ensures.bind (Ensures.of_keeps .get) fun _ => ?_
  refine .ite (fun _ => .fail _) fun some => .pure fun m h => ?_
  exact ⟨h.1, h.2.resolve_left some⟩

/-- The block for the input is written without touching the error. -/
theorem memoryNew_ensures (owner : Owner) (data : List UInt8) :
    Ensures Instance.Cleared (memoryNew owner data) fun _ => Instance.ErrorFree := by
  refine .ite (fun _ => .pure fun _ cleared => cleared.error) fun some => ?_
  refine (memoryAlloc_ensures owner (by simpa using some)).bind fun handle => ?_
  intro m h m' pre run
  obtain ⟨_, m₁, wrote, returned⟩ := Prog.bind_eq_ok run
  obtain ⟨rfl, rfl⟩ := Prog.of_pure returned
  have kept := Kernel.hostWrite_keeps pre.2 data m pre.1
  rwa [Prog.of_mapError wrote] at kept

end CurrentPlugin

namespace Plugin

theorem setInput.kernel_ensures (owner : Owner) (input : Option (List UInt8)) :
    Ensures (fun _ => True) (setInput.kernel owner input) fun _ => Instance.ErrorFree := by
  refine (Kernel.reset_ensures.mapError _).bind fun _ => ?_
  refine (CurrentPlugin.memoryNew_ensures owner _).bind fun _ => ?_
  exact (Ensures.of_keeps (Kernel.inputSet_keeps _ _)).mapError _

variable {σ : Type}

/-- **A call starts without an error**, whatever the calls before it did: after
a completed `set_input` none is cached, and none is recorded in the kernel. -/
theorem setInput_ensures (input : Option (List UInt8)) :
    Ensures (fun _ => True) (setInput (σ := σ) input) fun _ p =>
      p.output = .default ∧ p.kernel.ErrorFree := by
  intro p u p' _ run
  rw [setInput, Prog.bind_ok (Prog.modify_apply _ p)] at run
  obtain ⟨_, p₁, cleared, r₁⟩ := Prog.bind_eq_ok run
  obtain ⟨m₁, -, rfl⟩ := Prog.of_zoom cleared
  rw [Prog.bind_ok (Prog.modify_apply _ _), Prog.bind_ok (Prog.get_apply _)] at r₁
  obtain ⟨m₂, set, rfl⟩ := Prog.of_zoom r₁
  exact ⟨rfl, setInput.kernel_ensures _ input m₁ u m₂ trivial set⟩

end Plugin

end Extism.Runtime
