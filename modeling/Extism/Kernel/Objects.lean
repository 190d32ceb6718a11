import Extism.Kernel.Handles
import Extism.Kernel.Isolation
import Extism.Lib.Blocks

/-!
# The kernel is an object store

Addresses apart, guests and hosts use the kernel as a store of byte strings:
`alloc` makes one, `free` drops one, the accessors read and write inside one.
The caller's live blocks do not overlap, so the objects and the operations on
them are those of `ObjectStore.Blocks`, with the caller's account as the list of
blocks.  What the kernel does besides, with headers, splits and reuse, is outside
of them.

An access that is in no live block is no operation on an object; the raw loads
are not confined to one, and what they answer elsewhere is not described.

## Main definitions

* `Config.objects` — the byte strings that are there.
* `Call.op`, `ops` — the operation a call with its answer stands for, and those
  of a run, by the account that the run has arrived at.

## Main results

* `Sound.objects_step` — one call is one operation on the objects.
* `refines_objects` — the kernel refines an object store.
-/

namespace Extism.Kernel

open FirstFit (Cell Format)
open ObjectStore (Store Allows Blocks slice patch)

namespace Instance

variable {m : Instance}

/-- A splice is a write of its bytes. -/
theorem bytes_splice (a k : ℕ) (f : ℕ → UInt8) :
    (m.splice a k f).bytes = patch m.bytes a ((List.range k).map f) := by
  funext x
  by_cases inside : a ≤ x ∧ x < a + k
  · rw [bytes_splice_of_mem _ _ inside.1 inside.2, patch, if_pos inside.1, List.getElem?_map,
      List.getElem?_range (by omega), Option.map_some, Option.getD_some]
  · rw [bytes_splice_of_notMem _ _ (by omega), ObjectStore.patch_of_notMem (by simp; omega)]

/-- The bytes of a word that is read. -/
theorem wordBytes_peek (k a : ℕ) :
    (List.range k).map (ByteMem.wordBytes (m.peek k a)) = slice m.bytes a k :=
  List.map_congr_left fun _ mem => ByteMem.wordBytes_readWord _ (List.mem_range.1 mem)

theorem copy_nil (a : ℕ) : m.copy a [] = m := by
  have bytes : (m.copy a []).bytes = m.bytes :=
    funext fun x => bytes_splice_of_notMem _ _ (by simp only [List.length_nil]; omega)
  exact congrArg (fun bytes => { m with bytes := bytes }) bytes

theorem range_map_getD (bs : List UInt8) :
    ((List.range bs.length).map fun i => bs.getD i 0) = bs := by
  refine List.ext_getElem (by simp) fun i lt lt' => ?_
  simp only [List.getElem_map, List.getElem_range, List.getD_eq_getElem?_getD,
    List.getElem?_eq_getElem lt', Option.getD_some]

end Instance

/-! ## Objects and operations -/

/-- The byte strings in the live blocks. -/
def Config.objects (c : Config) : Store ℕ UInt8 := Blocks.objects c.kernel.bytes c.ledger.live

/-- The live block around a span. -/
def Ledger.blockOf (L : Ledger) (p k : ℕ) : Option (ℕ × ℕ) := Blocks.around L.live p k

/-- A read of `k` bytes at `p` that answered `v`. -/
def Ledger.readOp (L : Ledger) (k p v : ℕ) : ObjectStore.Op ℕ UInt8 :=
  match L.blockOf p k with
  | some b => .read b.1 (p - b.1) ((List.range k).map (ByteMem.wordBytes v))
  | none => .idle

/-- A write of `bs` at `p`. -/
def Ledger.writeOp (L : Ledger) (p : ℕ) (bs : List UInt8) : ObjectStore.Op ℕ UInt8 :=
  match L.blockOf p bs.length with
  | some b => .write b.1 (p - b.1) bs
  | none => .idle

/-- The operation a call with its answer stands for. -/
def Call.op (L : Ledger) (v : ℕ) : Call → ObjectStore.Op ℕ UInt8
  | .alloc n => .allocate n (if v = 0 then none else some v)
  | .free p => .free p
  | .length p => .measure p v
  | .lengthUnsafe p => if p ∈ L.live.map Prod.fst then .measure p v else .idle
  | .loadU8 p => L.readOp 1 p v
  | .loadU64 p => L.readOp 8 p v
  | .storeU8 p x => L.writeOp p ((List.range 1).map (ByteMem.wordBytes x))
  | .storeU64 p x => L.writeOp p ((List.range 8).map (ByteMem.wordBytes x))
  | .hostWrite p bs => L.writeOp p bs
  | .reset => .clear
  | _ => .idle

/-! ## The objects across a call -/

namespace Sound

variable {c c' : Config} {cs cs' : List Cell} {h n : ℕ} {l : Call × ℕ}

/-- The live blocks do not overlap. -/
theorem apart (S : Sound c cs) : Blocks.Apart c.ledger.live where
  keys := S.account.nodup
  disjoint := by
    intro a b listed listed' ne
    obtain ⟨d, eq, held⟩ := S.account.held (h := a.1) (n := a.2) listed
    obtain ⟨d', eq', held'⟩ := S.account.held (h := b.1) (n := b.2) listed'
    have disjoint := held.disjoint held' (by omega)
    simp only [MemoryBlock.sizeOf] at disjoint
    omega

theorem objects_of_live (S : Sound c cs) (live : (h, n) ∈ c.ledger.live) :
    c.objects h = some (slice c.kernel.bytes h n) :=
  Blocks.objects_of_mem S.account.nodup live

theorem objects_of_not_live (absent : ∀ n, (h, n) ∉ c.ledger.live) : c.objects h = none :=
  Blocks.objects_of_notMem absent

/-- A block that stays live and is not stored into is as it was. -/
theorem slice_kept (S : Sound c cs) (step : confinedRuns.step c l c')
    (live : (h, n) ∈ c.ledger.live) (live' : (h, n) ∈ c'.ledger.live)
    (quiet : ∀ x, ¬ l.1.StoresInto h n x) :
    slice c'.kernel.bytes h n = slice c.kernel.bytes h n := by
  refine ObjectStore.slice_congr fun i lt => ?_
  rw [step.2.2] at live'
  exact S.bytes_eq_of_step live (l := l) ⟨live', step⟩ (by omega) (by omega) (quiet _)

/-- Blocks that stay live, across a call that stores nothing. -/
theorem objects_kept (S : Sound c cs) (step : confinedRuns.step c l c') {live : Blocks}
    (kept : ∀ b ∈ live, b ∈ c.ledger.live ∧ b ∈ c'.ledger.live) (span : l.1.span = none) :
    Blocks.objects c'.kernel.bytes live = Blocks.objects c.kernel.bytes live := by
  refine Blocks.objects_congr fun b listed => ?_
  refine S.slice_kept step (kept b listed).1 (kept b listed).2 ?_
  rintro x ⟨s, eq, -⟩
  simp [span] at eq

/-- Calls that store nothing and make or free no block. -/
theorem objects_idle (S : Sound c cs) (step : confinedRuns.step c l c')
    (ledger : c'.ledger = c.ledger) (span : l.1.span = none) : c'.objects = c.objects := by
  rw [Config.objects, ledger]
  exact S.objects_kept step (fun b live => ⟨live, by rwa [ledger]⟩) span

/-- `alloc`. -/
theorem objects_alloc (S : Sound c cs) {v : ℕ} (step : confinedRuns.step c (.alloc n, v) c') :
    Allows c.objects (.allocate n (if v = 0 then none else some v)) c'.objects := by
  have ledger := step.2.2
  rw [Ledger.after] at ledger
  split
  case isTrue refused =>
    rw [if_pos refused] at ledger
    exact S.objects_idle step ledger rfl
  case isFalse made =>
    rw [if_neg made] at ledger
    have live : c'.ledger.live = (v, n) :: c.ledger.live := by rw [ledger]
    have kept : Blocks.objects c'.kernel.bytes c.ledger.live = c.objects := by
      refine S.objects_kept step (fun b listed => ⟨listed, ?_⟩) rfl
      rw [live]
      exact List.mem_cons_of_mem _ listed
    rw [← kept, Config.objects, live]
    exact Blocks.allows_allocate (S.not_live_of_alloc step)

/-- `free`. -/
theorem objects_free (S : Sound c cs) {p v : ℕ} (step : confinedRuns.step c (.free p, v) c') :
    c'.objects = Function.update c.objects p none := by
  have live : c'.ledger.live = c.ledger.live.filter (·.1 ≠ p) := by
    rw [step.2.2, Ledger.after]
  rw [Config.objects, Config.objects, ← Blocks.objects_filter, live]
  refine S.objects_kept step (fun b listed => ⟨List.mem_of_mem_filter listed, ?_⟩) rfl
  rwa [live]

/-- Live blocks are disjoint, so the one around a span is told by it. -/
theorem blockOf_of_live (S : Sound c cs) {p k : ℕ} (live : (h, n) ∈ c.ledger.live) (some : 0 < k)
    (lo : h ≤ p) (hi : p + k ≤ h + n) : c.ledger.blockOf p k = .some (h, n) :=
  S.apart.around_eq live some lo hi

/-- A held block around a span that the caller confined. -/
theorem held_of_blockOf (S : Sound c cs) {p k : ℕ} {b : ℕ × ℕ}
    (found : c.ledger.blockOf p k = some b) :
    ∃ d, Format.Held Kernel.heap MemoryRoot.blocks cs d b.2 ∧ d + 12 ≤ p ∧ p + k ≤ d + 12 + b.2 ∧
      Represents c.kernel cs := by
  obtain ⟨mem, lo, hi⟩ := Blocks.of_around found
  obtain ⟨d, eq, held⟩ := S.account.held mem
  have R := S.heap
  rw [S.settled.boot_eq S.pages R held] at R
  exact ⟨d, held, by omega, by omega, R⟩

/-- A store inside a live block, whatever accessor it goes through. -/
theorem objects_stored (S : Sound c cs) (step : confinedRuns.step c l c')
    (ledger : c'.ledger = c.ledger) {p : ℕ} {bs : List UInt8} (f : ℕ → UInt8)
    (bytes : (List.range bs.length).map f = bs) (span : l.1.span = some (p, bs.length))
    (left : ∀ d n, Format.Held Kernel.heap MemoryRoot.blocks cs d n → d + 12 ≤ p →
      p + bs.length ≤ d + 12 + n → Represents c.kernel cs →
        c'.kernel = c.kernel.splice p bs.length f) :
    Allows c.objects (c.ledger.writeOp p bs) c'.objects := by
  obtain ⟨b, mem, lo, hi⟩ := step.1.2 _ span
  obtain ⟨b, found⟩ := Blocks.around_of_mem mem lo hi
  obtain ⟨d, held, lo, hi, R⟩ := S.held_of_blockOf found
  have written : c'.kernel.bytes = patch c.kernel.bytes p bs := by
    rw [left d b.2 held lo hi R, Instance.bytes_splice, bytes]
  rw [Ledger.writeOp, show c.ledger.blockOf p bs.length = some b from found, Config.objects,
    Config.objects, ledger, written]
  exact S.apart.allows_write found

/-- A read inside a live block. -/
theorem objects_read (S : Sound c cs) {k p v : ℕ} (same : c'.objects = c.objects)
    (value : ∀ b, c.ledger.blockOf p k = some b → v = c.kernel.peek k p) :
    Allows c.objects (c.ledger.readOp k p v) c'.objects := by
  rw [Ledger.readOp, same]
  cases found : c.ledger.blockOf p k with
  | none => exact rfl
  | some b =>
      rw [value b found, Instance.wordBytes_peek]
      exact Blocks.allows_read S.account.nodup found

/-- The length of an object, for a handle of a live block or of none. -/
theorem objects_measure (S : Sound c cs) {p v : ℕ} (same : c'.objects = c.objects)
    (told : ∀ n, (p, n) ∈ c.ledger.live → v = n)
    (absent : (∀ n, (p, n) ∉ c.ledger.live) → v = 0) :
    Allows c.objects (.measure p v) c'.objects := by
  have length : v = (c.ledger.live.lookup p).getD 0 := by
    cases found : c.ledger.live.lookup p with
    | some n => exact told n (Blocks.mem_of_lookup found)
    | none =>
        refine absent fun n live => ?_
        rw [Blocks.lookup_of_mem S.account.nodup live] at found
        simp at found
  rw [same, length]
  exact Blocks.allows_measure p

/-- **One call is one operation** on the objects. -/
theorem objects_step (S : Sound c cs) (step : confinedRuns.step c l c') :
    Allows c.objects (l.1.op c.ledger l.2) c'.objects := by
  have accurate := S.accurate
  have run := step.2.1
  obtain ⟨call, v⟩ := l
  cases call with
  | alloc n => exact S.objects_alloc step
  | free p => exact S.objects_free step
  | reset =>
      have ledger : c'.ledger = .empty := step.2.2
      funext h
      exact objects_of_not_live fun n live => by simp [ledger, Ledger.empty] at live
  | length p =>
      have told : (length p c.kernel).1 = .ok v := congrArg Prod.fst run
      refine S.objects_measure (S.objects_idle step step.2.2 rfl) (fun n live => ?_) fun none => ?_
      · rw [accurate.length p n live] at told
        exact (Except.ok.inj told).symm
      · refine S.heap.length_not_held S.pages (fun b k eq held => ?_) run
        exact none k (by rw [← eq]; exact S.account.of_held held)
  | lengthUnsafe p =>
      have told : (lengthUnsafe p c.kernel).1 = .ok v := congrArg Prod.fst run
      have same := S.objects_idle step step.2.2 rfl
      rw [Call.op]
      split
      case isTrue listed =>
        refine S.objects_measure same (fun n live => ?_) fun none => ?_
        · rw [accurate.lengthUnsafe p n live] at told
          exact (Except.ok.inj told).symm
        · obtain ⟨⟨p, n⟩, live, rfl⟩ := List.mem_map.1 listed
          exact absurd live (none n)
      case isFalse => exact same
  | loadU8 p =>
      refine S.objects_read (S.objects_idle step step.2.2 rfl) fun b found => ?_
      obtain ⟨d, held, lo, hi, R⟩ := S.held_of_blockOf found
      have loaded : loadU8 p c.kernel = (.ok v, c'.kernel) := run
      rw [R.loadU8_eq held lo hi] at loaded
      exact (Except.ok.inj (Prod.mk.inj loaded).1).symm
  | loadU64 p =>
      refine S.objects_read (S.objects_idle step step.2.2 rfl) fun b found => ?_
      obtain ⟨d, held, lo, hi, R⟩ := S.held_of_blockOf found
      have loaded : loadU64 p c.kernel = (.ok v, c'.kernel) := run
      rw [R.loadU64_eq held lo hi] at loaded
      exact (Except.ok.inj (Prod.mk.inj loaded).1).symm
  | storeU8 p x =>
      refine S.objects_stored step step.2.2 (ByteMem.wordBytes x) (by simp) (by simp [Call.span]) ?_
      intro d n held lo hi R
      obtain ⟨-, ran⟩ := Exec.of_discard run
      rw [R.storeU8_eq held x lo (by simpa using hi)] at ran
      exact (Prod.mk.inj ran).2.symm
  | storeU64 p x =>
      refine S.objects_stored step step.2.2 (ByteMem.wordBytes x) (by simp) (by simp [Call.span]) ?_
      intro d n held lo hi R
      obtain ⟨-, ran⟩ := Exec.of_discard run
      rw [R.storeU64_eq held x lo (by simpa using hi)] at ran
      exact (Prod.mk.inj ran).2.symm
  | hostWrite p bs =>
      refine S.objects_stored step step.2.2 (fun i => bs.getD i 0) (Instance.range_map_getD bs)
        (by simp [Call.span]) ?_
      intro d n held lo hi R
      obtain ⟨-, ran⟩ := Exec.of_discard run
      rw [R.hostWrite_eq held hi] at ran
      exact (Prod.mk.inj ran).2.symm
  | _ => exact S.objects_idle step step.2.2 rfl

end Sound

/-- The operations a run stands for, `L` being the account before it. -/
def ops : Ledger → List (Call × ℕ) → List (ObjectStore.Op ℕ UInt8)
  | _, [] => []
  | L, l :: ls => l.1.op L l.2 :: ops (L.after l.1 l.2) ls

/-- A run of calls is the run of their operations. -/
theorem Sound.objects_steps {c c' : Config} {cs : List Cell} {ls : List (Call × ℕ)}
    (S : Sound c cs) (run : confinedRuns.Steps c ls c') :
    ObjectStore.runs.Steps c.objects (ops c.ledger ls) c'.objects := by
  induction run generalizing cs with
  | nil => exact .nil _
  | cons head _ ih =>
      obtain ⟨cs', -, S'⟩ := S.step head
      have tail := ih S'
      rw [head.2.2] at tail
      exact .cons (S.objects_step head) tail

theorem objects_of_init {c : Config} (fresh : confinedRuns.init c) : c.objects = .empty := by
  obtain ⟨pages, host, -, -, rfl⟩ := fresh
  funext h
  exact Sound.objects_of_not_live fun n => by simp [Config.fresh, Ledger.empty]

/-- **The kernel refines an object store.**  The objects after a run are those
its operations make of none; and as long as a run goes on without writing to an
object or freeing it, the object stays. -/
theorem refines_objects {c₀ c : Config} {ls : List (Call × ℕ)} (fresh : confinedRuns.init c₀)
    (run : confinedRuns.Steps c₀ ls c) :
    ObjectStore.runs.Steps .empty (ops c₀.ledger ls) c.objects ∧
      ∀ (ks : List (Call × ℕ)) (c' : Config), confinedRuns.Steps c ks c' →
        ∀ (h : ℕ) (bs : List UInt8), c.objects h = some bs →
          (∀ op ∈ ops c.ledger ks, ¬ op.Touches h) → c'.objects h = some bs := by
  obtain ⟨_, S₀⟩ := sound_of_reachable (.of_init fresh)
  obtain ⟨_, S⟩ := sound_of_reachable (TransitionSystem.Reachable.steps (.of_init fresh) run)
  refine ⟨?_, fun ks c' more h bs held others => ?_⟩
  · rw [← objects_of_init fresh]
    exact S₀.objects_steps run
  · exact ObjectStore.Steps.kept (S.objects_steps more) held others

/-- A byte is stored in a block of ten and loaded, and a second block is made. -/
theorem refines_objects_of_two_blocks :
    let c := ((Config.fresh 1 fun _ => false).after (.alloc 10) 77).after (.storeU8 80 7) 0
    ObjectStore.runs.Steps .empty [.allocate 10 (some 77), .write 77 3 [7]] c.objects ∧
      ∀ bs, c.objects 77 = some bs →
        ((c.after (.loadU8 80) 7).after (.alloc 20) 99).objects 77 = some bs := by
  have fresh : confinedRuns.init (.fresh 1 fun _ => false) :=
    ⟨1, _, Nat.le_refl 1, by decide, rfl⟩
  obtain ⟨store, kept⟩ := refines_objects fresh
    (.cons (confined_of_run (.alloc 10) 77 (by decide) (by decide +kernel))
      (.single (confined_of_run (.storeU8 80 7) 0 (by decide) (by decide +kernel))))
  refine ⟨store, fun bs held => kept [(.loadU8 80, 7), (.alloc 20, 99)] _
    (.cons (confined_of_run (.loadU8 80) 7 (by decide) (by decide +kernel))
      (.single (confined_of_run (.alloc 20) 99 (by decide) (by decide +kernel)))) 77 bs held ?_⟩
  intro op mem
  have listed : op ∈ [ObjectStore.Op.read 77 3 [7], .allocate 20 (some 99)] := mem
  rcases List.mem_cons.1 listed with rfl | listed
  · exact id
  · obtain rfl := List.mem_singleton.1 listed
    exact id

end Extism.Kernel
