import Extism.Runtime.Fidelity
import Extism.Runtime.HostHandle
import Extism.Runtime.GuestCode

/-!
# What a guest tells the host

A guest answers through the root: `output_set` names a range of kernel memory,
`error_set` a block with a message.  When the function has returned, the host
asks for both and caches what it is told in `Plugin::output`.

`Told` is the account of an observer who sees the calls only: the range of the
last `output_set` that was taken, the offset of the last `error_set` that was.
What the host caches is this account and nothing else.  The length of a message
is that of the live block it is in, so a message whose block was freed is no
message.

## Main definitions

* `Told`, `Told.after`, `Told.cached` — the account, one call entered in it, and what
  the host makes of it.
* `Telling`, `tellingRuns` — confined calls of a guest, with what they tell.
* `Recorded` — the root holds the account.
* `Telling.Good` — the invariant of a telling run.

## Main results

* `Outcome.root_eq` — a call leaves the output and the error alone unless it sets
  them.
* `Recorded.step`, `Telling.Good.steps` — one call keeps the account right, and so
  does a run.
* `Telling.Good.of_reset` — it begins with a `reset`, whatever was in memory before.
* `getOutputAfterCall_run` — the host caches the account, and nothing else is
  changed.
-/

namespace Extism.Kernel

open FirstFit (Cell Format)

/-- The calls that set the output fields whatever they were. -/
def Call.SetsOutput : Call → Prop
  | .reset | .outputSet _ _ => True
  | _ => False

/-- The calls that set the error field whatever it was. -/
def Call.SetsError : Call → Prop
  | .reset | .errorSet _ => True
  | _ => False

/-- A call leaves the output and the error alone unless it sets them. -/
theorem Outcome.root_eq {m m' : Instance} {cs cs' : List Cell} {call : Call} {v x : ℕ}
    (O : Outcome m cs call v m' cs') (R : Represents m cs) (booted : m.boot = m)
    (quiet : (25 ≤ x ∧ x < 33 ∧ ¬ call.SetsError) ∨ (49 ≤ x ∧ x < 65 ∧ ¬ call.SetsOutput)) :
    m'.bytes x = m.bytes x := by
  cases O with
  | pass same _ =>
      rcases same with ⟨rfl, -⟩ | rfl
      · rfl
      · rw [booted]
  | allocated _ _ A =>
      rw [booted] at A
      exact A.bytes_eq R (by simp only [MemoryRoot.blocks]; omega)
        (.inr (.inl ⟨by omega, by omega⟩))
  | freed held =>
      have bounds := Represents.held_bounds held
      rw [Instance.bytes_freed_of_ne _ (by omega) (by omega), booted]
  | stored _ held lo _ =>
      have bounds := Represents.held_bounds held
      exact Instance.bytes_splice_of_notMem _ _ (by omega)
  | inputRanged =>
      rw [Instance.ranged, Instance.bytes_splice_of_notMem _ _ (by omega),
        Instance.bytes_splice_of_notMem _ _ (by omega), booted]
  | outputRanged =>
      rcases quiet with ⟨-, hi, -⟩ | ⟨-, -, setter⟩
      · rw [Instance.ranged, Instance.bytes_splice_of_notMem _ _ (by omega),
          Instance.bytes_splice_of_notMem _ _ (by omega), booted]
      · exact absurd trivial setter
  | erred =>
      rcases quiet with ⟨-, -, setter⟩ | ⟨lo, -, -⟩
      · exact absurd trivial setter
      · rw [Instance.bytes_splice_of_notMem _ _ (by omega), booted]
  | wiped =>
      rcases quiet with ⟨-, -, setter⟩ | ⟨-, -, setter⟩ <;> exact absurd trivial setter

end Extism.Kernel

namespace Extism.Runtime

open Kernel (Instance Call Config Ledger Represents Sound confinedRuns)
open FirstFit (Cell)

/-! ## An account of the answers -/

/-- What the host was told: the range of the output, and where the message of the
error is. -/
structure Told where
  output : ℕ × ℕ
  error : ℕ
  deriving DecidableEq

namespace Told

/-- Nothing yet. -/
def nothing : Told := ⟨(0, 0), 0⟩

/-- The account after a call, on the memory the call finds: what the kernel does
not accept is not told.  A length is a `u64`. -/
def after (d : Told) (m : Instance) : Call → Told
  | .outputSet p len => if m.boot.Accepts p len then { d with output := (p, len % 2 ^ 64) } else d
  | .errorSet h =>
      if h = 0 ∨ (65 ≤ h ∧ h < 65 + m.boot.peek 8 17) then { d with error := h } else d
  | .reset => nothing
  | _ => d

/-- What the host makes of the account, for the blocks in `L`. -/
def cached (d : Told) (L : Ledger) : Output :=
  ⟨d.output.1, d.output.2, d.error, (L.live.lookup d.error).getD 0⟩

end Told

/-- The kernel, and what the host was told. -/
structure Telling where
  config : Config
  told : Told

/-- Confined calls of a guest, with what they tell. -/
def tellingRuns : TransitionSystem Telling (Call × ℕ) where
  init s := s.told = .nothing
  step s l t := confinedRuns.step s.config l t.config ∧ t.told = s.told.after s.config.kernel l.1

/-- The root holds the account. -/
structure Recorded (s : Telling) : Prop where
  outputOffset : s.config.kernel.peek 8 49 = s.told.output.1
  outputLength : s.config.kernel.peek 8 57 = s.told.output.2
  error : s.config.kernel.peek 8 25 = s.told.error

namespace Recorded

variable {s t : Telling} {cs : List Cell} {l : Call × ℕ}

/-- The two ranges of the root that hold the account. -/
theorem of_bytes_eq (R : Recorded s) (told : t.told = s.told)
    (same : ∀ x, (25 ≤ x ∧ x < 33) ∨ (49 ≤ x ∧ x < 65) →
      t.config.kernel.bytes x = s.config.kernel.bytes x) : Recorded t := by
  constructor
  · rw [told, ← R.outputOffset]
    exact Instance.peek_congr fun x lo hi => same x (.inr ⟨lo, by omega⟩)
  · rw [told, ← R.outputLength]
    exact Instance.peek_congr fun x lo hi => same x (.inr ⟨by omega, hi⟩)
  · rw [told, ← R.error]
    exact Instance.peek_congr fun x lo hi => same x (.inl ⟨lo, hi⟩)

/-- A call that sets neither field tells nothing. -/
theorem after_of_quiet {d : Told} {m : Instance} {call : Call} (output : ¬ call.SetsOutput)
    (error : ¬ call.SetsError) : d.after m call = d := by
  cases call with
  | outputSet p len => exact absurd trivial output
  | errorSet h => exact absurd trivial error
  | reset => exact absurd trivial error
  | _ => rfl

/-- After `output_set`. -/
theorem outputSet (R : Recorded s) (S : Sound s.config cs) (booted : s.config.kernel.boot =
    s.config.kernel) {p len : ℕ}
    (run : (Call.outputSet p len).run s.config.kernel = (.ok l.2, t.config.kernel))
    (told : t.told = s.told.after s.config.kernel (.outputSet p len)) :
    Recorded t := by
  obtain ⟨-, ran⟩ := Kernel.Exec.of_discard run
  rw [Kernel.outputSet, S.heap.setRange_eq S.pages p len (by decide) (by decide)] at ran
  have left := (Prod.mk.inj ran).2.symm
  rw [Told.after] at told
  split at told
  case isTrue accepted =>
    have size := S.heap.size_le
    have fits := S.heap.fits
    have small : p < 256 ^ 8 := by
      have := accepted.1.2
      simp only [Kernel.MemoryRoot.length, Kernel.MemoryRoot.sizeOf] at fits
      omega
    rw [if_pos accepted, booted] at left
    constructor
    · rw [left, told, Instance.ranged, Instance.peek_splice_of_disjoint _ _ (.inl (by decide)),
        Kernel.MemoryRoot.outputOffset, Instance.peek_poke_of_lt _ small]
    · have word : (256 : ℕ) ^ 8 = 2 ^ 64 := by decide
      rw [left, told, Instance.ranged, Kernel.MemoryRoot.outputLength, Instance.peek_poke_self,
        word]
    · rw [left, told, Instance.ranged, Kernel.MemoryRoot.outputOffset,
        Kernel.MemoryRoot.outputLength, Instance.peek_splice_of_disjoint _ _ (.inl (by decide)),
        Instance.peek_splice_of_disjoint _ _ (.inl (by decide))]
      exact R.error
  case isFalse refused =>
    rw [if_neg refused, booted] at left
    exact R.of_bytes_eq told fun _ _ => by rw [left]

/-- After `error_set`. -/
theorem errorSet (R : Recorded s) (S : Sound s.config cs) (booted : s.config.kernel.boot =
    s.config.kernel) {h : ℕ} (run : (Call.errorSet h).run s.config.kernel =
      (.ok l.2, t.config.kernel)) (told : t.told = s.told.after s.config.kernel (.errorSet h)) :
    Recorded t := by
  obtain ⟨-, ran⟩ := Kernel.Exec.of_discard run
  rw [S.heap.errorSet_eq S.pages] at ran
  have left := (Prod.mk.inj ran).2.symm
  rw [Told.after] at told
  split at told
  case isTrue accepted =>
    have size := S.heap.size_le
    have fits := S.heap.fits
    have small : h < 256 ^ 8 := by
      simp only [Kernel.MemoryRoot.length, Kernel.MemoryRoot.sizeOf] at fits
      omega
    rw [if_pos accepted, booted] at left
    constructor
    · rw [left, told, Instance.peek_splice_of_disjoint _ _ (by omega)]
      exact R.outputOffset
    · rw [left, told, Instance.peek_splice_of_disjoint _ _ (by omega)]
      exact R.outputLength
    · rw [left, told, Instance.peek_poke_of_lt _ small]
  case isFalse refused =>
    rw [if_neg refused, booted] at left
    exact R.of_bytes_eq told fun _ _ => by rw [left]

/-- After `reset`. -/
theorem of_zero (told : t.told = .nothing)
    (zero : ∀ x, 25 ≤ x → x < 65 → t.config.kernel.bytes x = 0) : Recorded t := by
  constructor <;> rw [told] <;>
    exact Instance.peek_eq_zero fun x lo hi => zero x (by omega) (by omega)

/-- **One call** keeps the account right. -/
theorem step (R : Recorded s) (S : Sound s.config cs)
    (booted : s.config.kernel.boot = s.config.kernel) (step : tellingRuns.step s l t) :
    Recorded t := by
  obtain ⟨⟨confined, run, ledger⟩, told⟩ := step
  by_cases quiet : ¬ l.1.SetsOutput ∧ ¬ l.1.SetsError
  · rw [after_of_quiet quiet.1 quiet.2] at told
    obtain ⟨cs', O⟩ := S.outcome ⟨confined, run, ledger⟩
    have heap := S.heap
    rw [booted] at heap
    refine R.of_bytes_eq told fun x range => O.root_eq heap booted ?_
    exact range.imp (fun r => ⟨r.1, r.2, quiet.2⟩) fun r => ⟨r.1, r.2, quiet.1⟩
  · obtain ⟨call, v⟩ := l
    cases call with
    | outputSet p len => exact R.outputSet S booted run told
    | errorSet h => exact R.errorSet S booted run told
    | reset =>
        obtain ⟨-, ran⟩ := Kernel.Exec.of_discard run
        rw [S.heap.reset_run S.pages] at ran
        rw [Told.after] at told
        refine of_zero told fun x lo hi => ?_
        rw [← (Prod.mk.inj ran).2]
        exact Instance.bytes_wiped _ _ lo hi
    | _ => exact absurd ⟨not_false, not_false⟩ quiet

end Recorded

/-- **The invariant of a telling run.** -/
def Telling.Good (s : Telling) : Prop :=
  ∃ cs, Sound s.config cs ∧ s.config.kernel.boot = s.config.kernel ∧ Recorded s

namespace Telling.Good

variable {s t : Telling} {c c₁ : Config} {cs : List Cell} {l : Call × ℕ} {ls : List (Call × ℕ)}

/-- One call keeps the invariant. -/
theorem step (good : s.Good) (step : tellingRuns.step s l t) : t.Good := by
  obtain ⟨cs, S, booted, R⟩ := good
  obtain ⟨cs', O, S'⟩ := S.step step.1
  exact ⟨cs', S', O.booted S.heap S.pages S.settled (.inl booted), R.step S booted step⟩

/-- It holds after every run from where it held. -/
theorem steps (good : s.Good) (run : tellingRuns.Steps s ls t) : t.Good :=
  run.invariant (I := Telling.Good) Telling.Good.step good

/-- It begins with a `reset`, whatever was in memory before. -/
theorem of_reset (S : Sound c cs) (step : confinedRuns.step c (.reset, 0) c₁) :
    Telling.Good ⟨c₁, .nothing⟩ := by
  obtain ⟨left, S₁⟩ := S.of_reset step
  refine ⟨[], S₁, by rw [left, S.heap.wiped.boot_eq], Recorded.of_zero rfl fun x lo hi => ?_⟩
  rw [left]
  exact Instance.bytes_wiped _ _ lo hi

end Telling.Good

/-- Calls that tell nothing. -/
theorem tellingRuns_of_quiet {c c' : Config} {d : Told} {ls : List (Call × ℕ)}
    (run : confinedRuns.Steps c ls c')
    (quiet : ∀ l ∈ ls, ¬ l.1.SetsOutput ∧ ¬ l.1.SetsError) :
    tellingRuns.Steps ⟨c, d⟩ ls ⟨c', d⟩ := by
  induction run with
  | nil c => exact .nil _
  | @cons c c₁ c' l ls head _ ih =>
      have first := quiet l List.mem_cons_self
      refine .cons (t := ⟨c₁, d⟩) ⟨head, ?_⟩ (ih fun k mem => quiet k (List.mem_cons_of_mem _ mem))
      exact (Recorded.after_of_quiet first.1 first.2).symm

/-- Any confined run, with what it tells. -/
theorem tellingRuns_of_confined {c c' : Config} {ls : List (Call × ℕ)}
    (run : confinedRuns.Steps c ls c') (d : Told) :
    ∃ d', tellingRuns.Steps ⟨c, d⟩ ls ⟨c', d'⟩ := by
  induction run generalizing d with
  | nil c => exact ⟨d, .nil _⟩
  | @cons c c₁ c' l ls head _ ih =>
      obtain ⟨d', tail⟩ := ih (d.after c.kernel l.1)
      exact ⟨d', .cons (t := ⟨c₁, d.after c.kernel l.1⟩) ⟨head, rfl⟩ tail⟩

/-! ## What the host caches -/

namespace CurrentPlugin

variable {c : Config} {cs : List Cell}

/-- Asking for a length leaves a memory alone whose root is set up. -/
theorem memoryLength_left (S : Sound c cs) (booted : c.kernel.boot = c.kernel) (h : ℕ) :
    (memoryLength h c.kernel).2 = c.kernel := by
  have left : (memoryLength h c.kernel).2 = (Kernel.length h c.kernel).2 := rfl
  rw [left]
  rcases S.upToBoot_length h with same | set
  · exact same
  · exact set.trans booted

/-- Where the host finds the output. -/
theorem outputMemoryPosition_run (S : Sound c cs) (booted : c.kernel.boot = c.kernel) :
    outputMemoryPosition c.kernel =
      (.ok (c.kernel.peek 8 49, c.kernel.peek 8 57), c.kernel) := by
  have offset : callKernel Kernel.outputOffset c.kernel = (.ok (c.kernel.peek 8 49), c.kernel) := by
    refine Prog.mapError_ok ?_
    rw [Kernel.outputOffset, Kernel.getField_eq S.pages (by decide), booted]
  have length : callKernel Kernel.outputLength c.kernel = (.ok (c.kernel.peek 8 57), c.kernel) := by
    refine Prog.mapError_ok ?_
    rw [Kernel.outputLength, Kernel.getField_eq S.pages (by decide), booted]
  rw [outputMemoryPosition, Prog.bind_ok offset, Prog.bind_ok length]
  rfl

/-- Where the host finds the message of the error. -/
theorem getErrorPosition_run (S : Sound c cs) (booted : c.kernel.boot = c.kernel) :
    getErrorPosition c.kernel = (.ok (c.kernel.peek 8 25,
      (c.ledger.live.lookup (c.kernel.peek 8 25)).getD 0), c.kernel) := by
  have got : callKernel Kernel.errorGet c.kernel = (.ok (c.kernel.peek 8 25), c.kernel) := by
    refine Prog.mapError_ok ?_
    rw [Kernel.errorGet, Kernel.getField_eq S.pages (by decide), booted]
  rw [getErrorPosition, Prog.bind_ok (Prog.attempt_apply _ _), got, getErrorPosition.found,
    getErrorPosition.length, Prog.bind_ok (Prog.attempt_apply _ _), memoryLength_left S booted,
    memoryLength_told S]
  rfl

end CurrentPlugin

/-- **The host caches the account**, and nothing else is changed. -/
theorem getOutputAfterCall_run {σ : Type} {p : Plugin σ} {s : Telling} (good : s.Good)
    (kernel : p.kernel = s.config.kernel) :
    p.getOutputAfterCall = (.ok (), { p with output := s.told.cached s.config.ledger }) := by
  obtain ⟨cs, S, booted, R⟩ := good
  have output := CurrentPlugin.outputMemoryPosition_run S booted
  have error := CurrentPlugin.getErrorPosition_run S booted
  rw [R.outputOffset, R.outputLength] at output
  rw [R.error] at error
  rw [← kernel] at output error
  have first : Plugin.onKernel CurrentPlugin.outputMemoryPosition p = (.ok s.told.output, p) := by
    rw [Plugin.onKernel, Prog.zoom, output]
  have second : Plugin.onKernel CurrentPlugin.getErrorPosition p =
      (.ok (s.told.error, (s.config.ledger.live.lookup s.told.error).getD 0), p) := by
    rw [Plugin.onKernel, Prog.zoom, error]
  rw [Plugin.getOutputAfterCall, Prog.bind_ok first, Prog.bind_ok second]
  rfl

end Extism.Runtime
