import Extism.Kernel.Reset
import Extism.Runtime.HostBlock

/-!
# The input stays what the host gave

`set_input` leaves the input in a block of its own, and the block's address and
length in the root.  A guest may then free the input, and get memory back that
was part of it.  `guestRuns` are its calls, with one bit of history: whether it
freed the input.  As long as it did not, the two fields of the root name the
block, which is live and holds the input; once it did, `free` has set the length
to 0, and no later call of the guest changes that.

## Main definitions

* `GuestState`, `guestRuns` — the kernel while a guest runs, and the guest's calls:
  it allocates less than 4 GiB at a time, frees whatever it likes and stores into
  its own blocks other than the input.
* `Faithful` — what the guest reads as its input.
* `Present`, `Gone`, `Tracked` — the input is in its block, or has been freed; the
  invariant of a session.

## Main results

* `Outcome.input_eq` — the input fields after a call that does not set them.
* `setInput_kernel_steps` — the kernel's part of `set_input` is a confined run that
  leaves the input where the guest finds it.
* `Tracked.step` — one call of the guest keeps the invariant.
* `input_faithful` — the input is the guest's until it frees it.
-/

namespace Extism.Kernel

open FirstFit (Cell Format)

/-! ## The input fields across a call -/

/-- The calls that set the input fields whatever they were. -/
def Call.SetsInput : Call → Prop
  | .reset | .inputSet _ _ => True
  | _ => False

namespace Outcome

variable {m m' : Instance} {cs cs' : List Cell} {call : Call} {v : ℕ}

/-- A root that is set up stays so, and most calls set it up. -/
theorem booted (O : Outcome m cs call v m' cs') (R : Represents m.boot cs) (pages : 1 ≤ m.pages)
    (settled : m.Settled) (before : m.boot = m ∨ ¬ call.Rootless) : m'.boot = m' := by
  rcases O.initialized R pages settled with ⟨rfl, -, rootless⟩ | R'
  · exact before.resolve_right (not_not_intro rootless)
  · exact R'.boot_eq

/-- **The input fields** after a call that does not set them: as they were,
unless the call freed the block at the input's offset. -/
theorem input_eq (O : Outcome m cs call v m' cs') (R : Represents m cs) (booted : m.boot = m)
    (quiet : ¬ call.SetsInput) :
    (m'.peek 8 33 = m.peek 8 33 ∧ m'.peek 8 41 = m.peek 8 41 ∧
        ∀ b n, call = .free (b + 12) → heap.Held MemoryRoot.blocks cs b n →
          b + 12 ≠ m.peek 8 33) ∨
      (call = .free (m.peek 8 33) ∧ m'.peek 8 41 = 0) := by
  -- a call other than `free` that writes no byte of the two fields
  have kept : (∀ p, call ≠ .free p) →
      (∀ x, 33 ≤ x → x < 49 → m'.bytes x = m.bytes x) →
      (m'.peek 8 33 = m.peek 8 33 ∧ m'.peek 8 41 = m.peek 8 41 ∧
        ∀ b n, call = .free (b + 12) → heap.Held MemoryRoot.blocks cs b n →
          b + 12 ≠ m.peek 8 33) := fun other same =>
    ⟨Instance.peek_congr fun x lo hi => same x lo (by omega),
      Instance.peek_congr fun x lo hi => same x (by omega) (by omega),
      fun b _ eq => absurd eq (other _)⟩
  cases O with
  | pass same idle =>
      have same : m' = m := by
        rcases same with ⟨rfl, -⟩ | rfl
        · rfl
        · exact booted
      subst same
      refine .inl ⟨rfl, rfl, ?_⟩
      rintro b n rfl held
      exact absurd held (idle.2 b n rfl)
  | allocated _ _ A =>
      refine .inl (kept (by simp) fun x lo hi => ?_)
      rw [booted] at A
      exact A.bytes_eq R (by simp only [MemoryRoot.blocks]; omega)
        (.inr (.inl ⟨by omega, by omega⟩))
  | @freed b k held =>
      have bounds := Represents.held_bounds held
      rw [booted, Instance.freed]
      split
      case isTrue eq => exact .inr ⟨by rw [eq], Instance.peek_poke_of_lt _ (by decide)⟩
      case isFalse ne =>
        refine .inl ⟨Instance.peek_splice_of_disjoint _ _ (by omega),
          Instance.peek_splice_of_disjoint _ _ (by omega), ?_⟩
        rintro b' n eq -
        rw [Call.free.injEq] at eq
        rwa [← eq]
  | stored span held lo hi =>
      have bounds := Represents.held_bounds held
      refine .inl (kept ?_ fun x xlo xhi => Instance.bytes_splice_of_notMem _ _ (by omega))
      rintro p rfl
      simp [Call.span] at span
  | inputRanged => exact absurd trivial quiet
  | outputRanged =>
      refine .inl (kept (by simp) fun x lo hi => ?_)
      rw [booted, Instance.ranged, Instance.bytes_splice_of_notMem _ _ (by omega),
        Instance.bytes_splice_of_notMem _ _ (by omega)]
  | erred =>
      refine .inl (kept (by simp) fun x lo hi => ?_)
      rw [booted, Instance.bytes_splice_of_notMem _ _ (by omega)]
  | wiped => exact absurd trivial quiet

end Outcome

end Extism.Kernel

namespace Extism.Runtime

open Kernel (Instance Call Config Ledger Represents Sound confinedRuns kernelRuns)
open FirstFit (Cell)

/-! ## A guest and its input -/

/-- The kernel while a guest runs, and whether the guest freed its input. -/
structure GuestState where
  config : Config
  freed : Bool

/-- The blocks a guest may store to: all but the input at `h`, while it has
it. -/
def GuestState.writable (h : ℕ) (s : GuestState) : List (ℕ × ℕ) :=
  if s.freed then s.config.ledger.live else s.config.ledger.live.filter (·.1 ≠ h)

/-- The calls of a guest whose input is at `h`: it allocates less than 4 GiB at
a time, frees whatever it likes and stores into blocks other than the input.
`reset` and `input_set` are the host's. -/
def guestRuns (h : ℕ) : TransitionSystem GuestState (Call × ℕ) where
  init s := s.freed = false
  step s l t := l.1.Confined (s.writable h) ∧ ¬ l.1.SetsInput ∧
    kernelRuns.step s.config l t.config ∧ t.freed = (s.freed || l.1 = .free h)

/-- **What the guest reads as its input** `bytes`: the input in a live block, or
nothing, and nothing only if it freed the input. -/
def Faithful (bytes : List UInt8) (s : GuestState) : Prop :=
  ((Kernel.inputLength s.config.kernel).1 = .ok 0 ∧ (bytes ≠ [] → s.freed)) ∨
    ((Kernel.inputLength s.config.kernel).1 = .ok bytes.length ∧
      ∃ a, (Kernel.inputOffset s.config.kernel).1 = .ok a ∧
        (a, bytes.length) ∈ s.config.ledger.live ∧
          ∀ (i : ℕ) (lt : i < bytes.length), s.config.kernel.bytes (a + i) = bytes[i])

/-- The input is in its block. -/
structure Present (h : ℕ) (bytes : List UInt8) (s : GuestState) : Prop where
  kept : s.freed = false
  offset : s.config.kernel.peek 8 33 = h
  length : s.config.kernel.peek 8 41 = bytes.length
  live : (h, bytes.length) ∈ s.config.ledger.live
  bytes : ∀ (i : ℕ) (lt : i < bytes.length), s.config.kernel.bytes (h + i) = bytes[i]

/-- The input has been freed, or there was none. -/
structure Gone (bytes : List UInt8) (s : GuestState) : Prop where
  length : s.config.kernel.peek 8 41 = 0
  freed : bytes ≠ [] → s.freed

/-- The invariant of a session. -/
def Tracked (h : ℕ) (bytes : List UInt8) (s : GuestState) : Prop :=
  ∃ cs, Sound s.config cs ∧ s.config.kernel.boot = s.config.kernel ∧
    (Present h bytes s ∨ Gone bytes s)

namespace Tracked

variable {h : ℕ} {bytes : List UInt8} {s t : GuestState} {l : Call × ℕ}

theorem faithful (T : Tracked h bytes s) : Faithful bytes s := by
  obtain ⟨cs, S, booted, state⟩ := T
  rw [Faithful, Kernel.inputLength, Kernel.getField_eq S.pages (by decide), Kernel.inputOffset,
    Kernel.getField_eq S.pages (by decide), booted, Kernel.MemoryRoot.inputLength,
    Kernel.MemoryRoot.inputOffset]
  rcases state with P | G
  · exact .inr ⟨by rw [P.length], h, by rw [P.offset], P.live, P.bytes⟩
  · exact .inl ⟨by rw [G.length], G.freed⟩

/-- A call of the guest is a confined call. -/
theorem confined (step : (guestRuns h).step s l t) :
    confinedRuns.step s.config l t.config := by
  refine ⟨⟨step.1.1, fun x span => ?_⟩, step.2.2.1⟩
  obtain ⟨block, mem, inside⟩ := step.1.2 x span
  refine ⟨block, ?_, inside⟩
  rw [GuestState.writable] at mem
  split at mem
  · exact mem
  · exact List.mem_of_mem_filter mem

/-- While the guest has its input, no store goes there. -/
theorem quiet (P : Present h bytes s) {cs : List Cell} (S : Sound s.config cs)
    (step : (guestRuns h).step s l t) (x : ℕ) : ¬ l.1.StoresInto h bytes.length x := by
  rintro ⟨span, eq, inside, lo, hi⟩
  obtain ⟨⟨h', n⟩, mem, lo', hi'⟩ := step.1.2 span eq
  rw [GuestState.writable, P.kept, if_neg (by decide)] at mem
  obtain ⟨live', ne⟩ := List.mem_filter.1 mem
  obtain ⟨b, rfl, held⟩ := S.account.held P.live
  obtain ⟨b', rfl, held'⟩ := S.account.held live'
  have apart := held.disjoint held' (fun eq => by simp [eq] at ne)
  simp only [Kernel.MemoryBlock.sizeOf] at apart
  omega

/-- The input stays live under every call but the one that frees it. -/
theorem live_after {L : Ledger} {n : ℕ} (live : (h, n) ∈ L.live) {call : Call} {v : ℕ}
    (other : call ≠ .free h) (quiet : ¬ call.SetsInput) : (h, n) ∈ (L.after call v).live := by
  cases call with
  | alloc k =>
      rw [Ledger.after]
      split
      · exact live
      · exact List.mem_cons_of_mem _ live
  | free p =>
      exact List.mem_filter.2 ⟨live, decide_eq_true fun eq => other (congrArg _ eq.symm)⟩
  | reset => exact absurd trivial quiet
  | _ => exact live

/-- **One call** of the guest keeps the invariant. -/
theorem step (T : Tracked h bytes s) (step : (guestRuns h).step s l t) : Tracked h bytes t := by
  obtain ⟨cs, S, booted, state⟩ := T
  obtain ⟨cs', O, S'⟩ := S.step (confined step)
  have R := S.heap
  rw [booted] at R
  have booted' := O.booted S.heap S.pages S.settled (.inl booted)
  have untouched := fun P : Present h bytes s => quiet P S step
  obtain ⟨-, setter, ⟨-, ledger⟩, history⟩ := step
  refine ⟨cs', S', booted', ?_⟩
  rcases state with P | G
  · rcases O.input_eq R booted setter with ⟨offset, length, other⟩ | ⟨frees, length⟩
    · -- the input is still there
      obtain ⟨b, at', held⟩ := S.account.held P.live
      have ne : l.1 ≠ .free h := fun eq => by
        subst at'
        exact other b _ eq held P.offset.symm
      have noReset : l.1 ≠ .reset := fun eq => setter (by rw [eq]; trivial)
      refine .inl ⟨?_, offset.trans P.offset, length.trans P.length, ?_, fun i lt => ?_⟩
      · rw [history, P.kept, decide_eq_false ne]
        rfl
      · rw [ledger]
        exact live_after P.live ne setter
      · refine Eq.trans ?_ (P.bytes i lt)
        have same := untouched P (h + i)
        subst at'
        exact O.bytes_eq S.heap booted held (by omega) (by omega) noReset same
    · -- the guest freed it
      rw [P.offset] at frees
      exact .inr ⟨length, fun _ => by rw [history, decide_eq_true frees, Bool.or_true]⟩
  · refine .inr ⟨?_, fun some => by rw [history, G.freed some, Bool.true_or]⟩
    rcases O.input_eq R booted setter with ⟨-, length, -⟩ | ⟨-, length⟩
    · exact length.trans G.length
    · exact length

end Tracked

/-! ## What `set_input` does -/

/-- The calls of a completed `set_input`, with their answers; the input is at
`h`.  Nothing is allocated for an empty input. -/
def inputCalls (h : ℕ) (bytes : List UInt8) : List (Call × ℕ) :=
  [(.errorSet 0, 0), (.reset, 0)] ++
    (if bytes = [] then [] else [(.alloc bytes.length, h), (.hostWrite h bytes, 0)]) ++
      [(.inputSet h bytes.length, 0)]

section InputSet

variable {c : Config} {cs : List Cell} {h len : ℕ} {m' : Instance}

/-- A completed `input_set` is a step. -/
theorem inputSet_step (set : Kernel.inputSet h len c.kernel = (.ok (), m')) :
    confinedRuns.step c (.inputSet h len, 0) ⟨m', c.ledger⟩ :=
  ⟨⟨by simp [Call.requested], by simp [Call.span]⟩, Kernel.Exec.discard_ok set, rfl⟩

/-- The null handle is not accepted: the input stays empty. -/
theorem tracked_of_null (S : Sound c cs) (empty : c.kernel.boot.peek 8 41 = 0)
    (set : Kernel.inputSet 0 0 c.kernel = (.ok (), m')) :
    Tracked 0 [] ⟨⟨m', c.ledger⟩, false⟩ := by
  have step := inputSet_step set
  obtain ⟨cs', O, S'⟩ := S.step step
  have booted := O.booted S.heap S.pages S.settled (.inr not_false)
  have refused : ¬ c.kernel.boot.Accepts 0 0 := fun acc => by
    have := acc.1.1
    omega
  rw [Kernel.inputSet, S.heap.setRange_eq S.pages 0 0 (by decide) (by decide),
    if_neg refused] at set
  obtain ⟨-, rfl⟩ := Prod.mk.inj set
  exact ⟨cs', S', booted, .inr ⟨empty, fun some => absurd rfl some⟩⟩

/-- A live block that holds the input is accepted. -/
theorem tracked_of_live (S : Sound c cs) {bytes : List UInt8}
    (live : (h, bytes.length) ∈ c.ledger.live)
    (holds : ∀ (i : ℕ) (lt : i < bytes.length), c.kernel.bytes (h + i) = bytes[i])
    (set : Kernel.inputSet h bytes.length c.kernel = (.ok (), m')) :
    Tracked h bytes ⟨⟨m', c.ledger⟩, false⟩ := by
  have step := inputSet_step set
  obtain ⟨cs', O, S'⟩ := S.step step
  have booted := O.booted S.heap S.pages S.settled (.inr not_false)
  obtain ⟨b, rfl, held⟩ := S.account.held live
  have bounds := Represents.held_bounds held
  have extent := S.heap.extent_le
  have size := S.heap.size_le
  rw [Kernel.inputSet, S.heap.setRange_eq S.pages _ _ (by decide) (by decide),
    if_pos (S.heap.accepts held (Nat.le_refl _) (Nat.le_refl _)),
    S.settled.boot_eq S.pages S.heap held] at set
  obtain ⟨-, rfl⟩ := Prod.mk.inj set
  refine ⟨cs', S', booted, .inl ⟨rfl, ?_, ?_, live, fun i lt => ?_⟩⟩
  · rw [Instance.ranged, Instance.peek_splice_of_disjoint _ _ (.inl (by decide)),
      Kernel.MemoryRoot.inputOffset, Instance.peek_poke_of_lt _ (by omega)]
  · rw [Instance.ranged, Kernel.MemoryRoot.inputLength, Instance.peek_poke_of_lt _ (by omega)]
  · rw [Instance.ranged, Kernel.MemoryRoot.inputOffset, Kernel.MemoryRoot.inputLength,
      Instance.bytes_splice_of_notMem _ _ (by omega),
      Instance.bytes_splice_of_notMem _ _ (by omega)]
    exact holds i lt

end InputSet

/-- **The kernel's part of `set_input`** is a confined run that leaves the input
where the guest finds it. -/
theorem setInput_kernel_steps {c : Config} {cs : List Cell} (S : Sound c cs) {owner : Owner}
    {input : Option (List UInt8)} {m' : Instance}
    (set : Plugin.setInput.kernel owner input c.kernel = (.ok (), m')) :
    ∃ h c', c'.kernel = m' ∧ (h = 0 ↔ input.getD [] = []) ∧
      confinedRuns.Steps c (inputCalls h (input.getD [])).tail c' ∧
        Tracked h (input.getD []) ⟨c', false⟩ := by
  generalize eq : input.getD [] = bytes
  rw [Plugin.setInput.kernel, eq] at set
  obtain ⟨⟨⟩, m₁, reset, set⟩ := Prog.bind_eq_ok set
  obtain ⟨handle, m₂, made, set⟩ := Prog.bind_eq_ok set
  have first : confinedRuns.step c (.reset, 0) ⟨m₁, .empty⟩ :=
    ⟨⟨by simp [Call.requested], by simp [Call.span]⟩, Kernel.Exec.discard_ok
      (Prog.of_mapError reset), rfl⟩
  obtain ⟨wiped, S₁⟩ := S.of_reset first
  by_cases none : bytes = []
  · subst none
    rw [CurrentPlugin.memoryNew, if_pos rfl] at made
    obtain ⟨rfl, rfl⟩ := Prog.of_pure made
    have set := Prog.of_mapError set
    refine ⟨0, _, rfl, by simp, .cons first (.single (inputSet_step set)), ?_⟩
    refine tracked_of_null S₁ ?_ set
    rw [wiped, S.heap.wiped.boot_eq]
    exact Instance.peek_eq_zero fun x lo hi =>
      Instance.bytes_wiped _ _ (by omega) (by omega)
  · obtain ⟨at', null, -⟩ := CurrentPlugin.of_memoryNew none made
    obtain ⟨-, c₁, c₂, alloc, write, -, live, account, rfl, copied⟩ :=
      CurrentPlugin.memoryNew_steps S₁ none made
    obtain ⟨cs₁, -, S₂⟩ := S₁.step alloc
    obtain ⟨cs₂, -, S₃⟩ := S₂.step write
    have set := Prog.of_mapError set
    refine ⟨handle.offset, _, rfl, by simp [null, none], ?_, tracked_of_live S₃ (account ▸ live)
      (fun i lt => ?_) set⟩
    · rw [inputCalls, if_neg none]
      exact .cons first (.cons alloc (.cons write (.single (inputSet_step set))))
    · rw [copied]
      exact Instance.bytes_copy _ _ _ lt

/-- **The input is the guest's until it frees it.**  Whatever the kernel went
through before, a completed `set_input` is a confined run, from the error
cleared to the input set; and at every moment of every session of the guest
that follows, the guest reads the input, or nothing once it freed it. -/
theorem input_faithful {σ : Type} {p p' : Plugin σ} {c : Config}
    (reach : confinedRuns.Reachable c) (kernel : p.kernel = c.kernel)
    {input : Option (List UInt8)} (set : Plugin.setInput input p = (.ok (), p')) :
    ∃ h c', c'.kernel = p'.kernel ∧ (h = 0 ↔ input.getD [] = []) ∧
      confinedRuns.Steps c (inputCalls h (input.getD [])) c' ∧
        ∀ (ls : List (Call × ℕ)) (s : GuestState), (guestRuns h).Steps ⟨c', false⟩ ls s →
          Faithful (input.getD []) s := by
  obtain ⟨cs, S⟩ := Kernel.sound_of_reachable reach
  rw [Plugin.setInput, Prog.bind_ok (Prog.modify_apply _ p)] at set
  obtain ⟨_, p₁, cleared, set⟩ := Prog.bind_eq_ok set
  obtain ⟨m₁, clear, rfl⟩ := Prog.of_zoom cleared
  rw [Prog.bind_ok (Prog.modify_apply _ _), Prog.bind_ok (Prog.get_apply _)] at set
  obtain ⟨m₂, ran, rfl⟩ := Prog.of_zoom set
  have first : confinedRuns.step c (.errorSet 0, 0) ⟨m₁, c.ledger⟩ :=
    ⟨⟨by simp [Call.requested], by simp [Call.span]⟩, Kernel.Exec.discard_ok
      (Prog.of_mapError (kernel ▸ clear)), rfl⟩
  obtain ⟨cs₁, -, S₁⟩ := S.step first
  obtain ⟨h, c', kernel', null, steps, start⟩ := setInput_kernel_steps S₁ ran
  refine ⟨h, c', kernel', null, .cons first steps, fun ls s run => ?_⟩
  exact (run.invariant (I := Tracked h (input.getD [])) Tracked.step start).faithful

/-- Two bytes of input for a plugin that was not called before. -/
theorem input_faithful_of_two_bytes :
    let p' := (Plugin.setInput (some [104, 105]) (Plugin.fresh ())).2
    ∃ h c', c'.kernel = p'.kernel ∧ (h = 0 ↔ [104, 105] = ([] : List UInt8)) ∧
      confinedRuns.Steps (.fresh 1 fun _ => true) (inputCalls h [104, 105]) c' ∧
        ∀ (ls : List (Call × ℕ)) (s : GuestState), (guestRuns h).Steps ⟨c', false⟩ ls s →
          Faithful [104, 105] s := by
  have reach := Kernel.reachable_fresh (Nat.le_refl 1) (by decide) fun _ => true
  have done : (Plugin.setInput (some [104, 105]) (Plugin.fresh ())).1 = .ok () := by
    decide +kernel
  exact input_faithful reach rfl (Prod.ext done rfl)

end Extism.Runtime
