import Extism.Convert.Bytes
import Extism.Runtime.Calls

/-!
# Typed calls

`Plugin::call` encodes a value, calls a function of the guest on the bytes, and
decodes what it put out.  `Guest.Computes` is what a function of the guest
promises: on a kernel that holds an input and nothing else it returns without an
error, having told the host a range that holds the function of the input.
Nothing is said about other functions of the same guest.

## Main definitions

* `Guest.Computes` — a function of the guest that computes a function on bytes.
* `Carries` — a function on bytes is a function on values.
* `Plugin.callTyped` — `Plugin::call` between two types of the convert crate.
* `Refusal` — why a call ends before its function is reached: the guest fails to
  start, or the kernel's `alloc` refuses the input, by a 0 or by a trap.

## Main results

* `call_of_computes` — the guarantee on bytes.
* `typed_call` — the guarantee on values: in every run of the host's operations,
  whatever failed before and whatever is left in the kernel, the call returns
  the value, or it was refused.
-/

namespace Extism.Runtime

open Prog (Keeps Ensures)
open Kernel (Instance Call Config Ledger Represents Sound confinedRuns)
open FirstFit (Cell)

variable {σ : Type} {G : Guest σ}

/-- **A function of the guest that computes `f`.**  It has no result, or a code;
it answers on every kernel that holds an input and nothing else, whatever the
guest went through. -/
structure Guest.Computes (G : Guest σ) (name : String) (f : List UInt8 → List UInt8) : Prop where
  exported : ∃ t, G.exports name = some t ∧ t.results.length ≤ 1
  answers : ∀ (i : ℕ) (t : FuncType) (g : σ) (h : ℕ) (bytes : List UInt8) (c : Config),
    G.exports name = some t → Tracked h bytes ⟨c, false⟩ → Telling.Good ⟨c, .nothing⟩ →
      ∃ ls s r g', tellingRuns.Steps ⟨c, .nothing⟩ ls s ∧
        G.call ⟨i, name, t⟩ [] (g, c.kernel) = (.ok r, (g', s.config.kernel)) ∧
          s.told.error = 0 ∧
            CurrentPlugin.memoryBytes s.config.kernel ⟨s.told.output.1, s.told.output.2⟩ = f bytes

/-! ## The way to the function -/

/-- Having an instance is nothing later calls change. -/
theorem inst_stable : Stable fun p : Plugin σ => p.inst.isSome = true :=
  ⟨⟨fun _ _ _ _ some => some, fun _ _ _ some => some⟩, fun _ some => some⟩

theorem detect_inst (p : Plugin σ) (i : ℕ) : (p.detect G i).inst = p.inst := by
  unfold Plugin.detect
  split <;> rfl

theorem detect_owner (p : Plugin σ) (i : ℕ) : (p.detect G i).owner = p.owner := by
  unfold Plugin.detect
  split <;> rfl

/-- The store may change, the plugin's id and its limiter do not. -/
theorem resetStore_owner (o : Owner) :
    Keeps (fun p : Plugin σ => p.owner = o) (Plugin.resetStore G) := by
  have relink : Keeps (fun p : Plugin σ => p.owner = o) (Plugin.onGuest G.relink) :=
    fun _ same => same
  exact Keeps.get.bind fun _ => .ite (relink.bind fun _ => .modify fun _ same => same) (.pure _)

/-- A plugin has an instance once `instantiate` completed, and its memory is
still its own. -/
theorem instantiate_ensures (o : Owner) :
    Ensures (fun p : Plugin σ => p.owner = o) (Plugin.instantiate G) fun _ p =>
      p.inst.isSome = true ∧ p.owner = o := by
  intro p u p' own ran
  rw [Plugin.instantiate, Prog.bind_ok (Prog.get_apply p), Prog.ite_apply] at ran
  split at ran
  case isTrue some =>
    obtain ⟨rfl, -⟩ := Prog.of_pure ran
    exact ⟨some, own⟩
  case isFalse =>
    obtain ⟨_, p₁, made, ran⟩ := Prog.bind_eq_ok ran
    obtain ⟨⟨g₁, m₁⟩, -, rfl⟩ := Prog.of_zoom made
    rw [Prog.bind_ok (Prog.modify_apply _ _), Prog.bind_ok (detectGuestRuntime_eq G _ _)] at ran
    generalize detected : Plugin.detect G _ p.instances = q at ran
    obtain ⟨m, g, left⟩ := initializeGuestRuntime_snd G q p.instances
    rw [ran] at left
    have kept : p'.inst = q.inst ∧ p'.owner = q.owner := by
      rw [show p' = _ from left]
      exact ⟨rfl, rfl⟩
    rw [kept.1, kept.2, ← detected, detect_inst, detect_owner]
    exact ⟨rfl, own⟩

/-- What `set_input` does to a kernel that a confined run leads to: it completes,
or the kernel, emptied, refuses the input. -/
theorem setInputKernel_total {m : Instance} (reached : KernelReached m) (owner : Owner)
    {input : Option (List UInt8)} (small : (input.getD []).length < 2 ^ 32) :
    (∃ m', Plugin.setInput.kernel owner input m = (.ok (), m')) ∨
      ∃ m₁ e m', CurrentPlugin.reset m = (.ok (), m₁) ∧
        owner.refuses m₁ (input.getD []).length = some e ∧
          Plugin.setInput.kernel owner input m = (.error e, m') := by
  have place : ∀ {m' : Instance}, KernelReached m' → ∀ h len,
      ∃ m'', callKernel (Kernel.inputSet h len) m' = (.ok (), m'') := by
    rintro _ ⟨c, reach, rfl⟩ h len
    obtain ⟨cs, S⟩ := Kernel.sound_of_reachable reach
    exact ⟨_, Prog.mapError_ok (S.heap.setRange_eq S.pages h len (by decide) (by decide))⟩
  obtain ⟨m₁, wiped⟩ : ∃ m₁, CurrentPlugin.reset m = (.ok (), m₁) := by
    obtain ⟨c, reach, rfl⟩ := reached
    obtain ⟨cs, S⟩ := Kernel.sound_of_reachable reach
    exact ⟨_, Prog.mapError_ok (S.heap.reset_run S.pages)⟩
  have reached₁ : KernelReached m₁ := by
    have kept := KernelReached.reset_keeps m reached
    rwa [Prog.of_mapError wiped] at kept
  rw [Plugin.setInput.kernel, Prog.bind_ok wiped]
  by_cases none : input.getD [] = []
  · obtain ⟨m₂, set⟩ := place reached₁ 0 0
    have made : CurrentPlugin.memoryNew owner (input.getD []) m₁ = (.ok .null, m₁) := by
      rw [CurrentPlugin.memoryNew, if_pos none]
      rfl
    rw [Prog.bind_ok made, none]
    exact .inl ⟨m₂, set⟩
  · have kept := CurrentPlugin.memoryNew_keeps owner small m₁ reached₁
    obtain ⟨c, reach, rfl⟩ := reached₁
    obtain ⟨cs, S⟩ := Kernel.sound_of_reachable reach
    rcases CurrentPlugin.memoryNew_run S owner none small with ⟨m₂, zero, full⟩ | ⟨h, m₂, -, made⟩
    · have some : (input.getD []).length ≠ 0 := by simpa using none
      exact .inr ⟨c.kernel, owner.refusal m₂, m₂, wiped, owner.refuses_of_alloc_zero some zero,
        Prog.bind_error full⟩
    · rw [made] at kept
      obtain ⟨m₃, set⟩ := place kept h (input.getD []).length
      rw [Prog.bind_ok made]
      exact .inl ⟨m₃, set⟩

/-- The kernel of the plugin refuses `n` bytes with the error `e`, also once it
holds no error and no block. -/
def Plugin.Full (p : Plugin σ) (n : ℕ) (e : Error) : Prop :=
  ∃ m m', CurrentPlugin.clearError p.kernel = (.ok (), m) ∧ CurrentPlugin.reset m = (.ok (), m') ∧
    p.owner.refuses m' n = some e

/-- `set_input` fails for want of room only. -/
theorem setInput_total {p : Plugin σ} (reached : p.Reached) {input : Option (List UInt8)}
    (small : (input.getD []).length < 2 ^ 32) :
    (∃ p', Plugin.setInput input p = (.ok (), p')) ∨
      ∃ e, p.Full (input.getD []).length e ∧ (Plugin.setInput input p).1 = .error e := by
  obtain ⟨m, cleared⟩ : ∃ m, CurrentPlugin.clearError p.kernel = (.ok (), m) := by
    obtain ⟨c, reach, kernel⟩ := reached
    obtain ⟨cs, S⟩ := Kernel.sound_of_reachable reach
    rw [← kernel]
    exact ⟨_, Prog.mapError_ok (S.heap.errorSet_eq S.pages 0)⟩
  have reached' : KernelReached m := by
    have kept := KernelReached.errorSet_keeps 0 p.kernel reached
    rwa [Prog.of_mapError cleared] at kept
  have first : Plugin.onKernel CurrentPlugin.clearError { p with output := .default } =
      (.ok (), { p with output := .default, kernel := m }) := by
    rw [Plugin.onKernel, Prog.zoom, cleared]
  have run : (Plugin.setInput input p).1 = (Plugin.setInput.kernel p.owner input m).1 := by
    rw [Plugin.setInput, Prog.bind_ok (Prog.modify_apply _ p), Prog.bind_ok first,
      Prog.bind_ok (Prog.modify_apply _ _), Prog.bind_ok (Prog.get_apply _)]
    rfl
  rcases setInputKernel_total reached' p.owner small with ⟨m', set⟩ | ⟨m₁, e, m', wiped, full, set⟩
  · rw [set] at run
    exact .inl ⟨_, Prod.ext run rfl⟩
  · rw [set] at run
    exact .inr ⟨e, ⟨m, m₁, cleared, wiped, full⟩, run⟩

/-- Why a call with an input of `n` bytes may be refused before its function is
reached: the guest cannot be instantiated or initialised, or its kernel refuses
the input. -/
def Refusal (G : Guest σ) (p : Plugin σ) (n : ℕ) (e : Error) : Prop :=
  (Plugin.instantiate G (Plugin.resetStore G p).2).1 = .error e ∨
    ∃ p', Plugin.instantiate G (Plugin.resetStore G p).2 = (.ok (), p') ∧ p'.owner = p.owner ∧
      p'.Full n e

section Called

variable {p : Plugin σ} {c : Request}

/-- The way to the function ends there, or in a refusal. -/
theorem prepare_total (C : G.Confined) (reached : p.Reached) (extism : c.useExtism = true)
    (small : c.Small) :
    (∃ p', rawCall.prepare G c p = (.ok (), p') ∧ p'.inst.isSome = true) ∨
      ∃ e, Refusal G p (c.input.getD []).length e ∧ (rawCall.prepare G c p).1 = .error e := by
  rw [rawCall.prepare, if_pos extism, if_pos extism, Prog.bind_ok (Prog.attempt_apply _ p)]
  have reached₁ : (Plugin.resetStore G p).2.Reached := C.resetStore_keeps p reached
  rcases made : Plugin.instantiate G (Plugin.resetStore G p).2 with ⟨e | ⟨⟩, p₂⟩
  · exact .inr ⟨e, .inl (by rw [made]), by rw [Prog.bind_error made]⟩
  · have reached₂ : p₂.Reached := by
      have kept := C.instantiate_keeps _ reached₁
      rwa [made] at kept
    obtain ⟨some, own⟩ := instantiate_ensures p.owner _ _ _ (resetStore_owner _ p rfl) made
    rw [Prog.bind_ok made]
    rcases setInput_total reached₂ small with ⟨p', set⟩ | ⟨e, full, set⟩
    · have kept := inst_stable.setInput_keeps c.input p₂ some
      rw [set] at kept
      exact .inl ⟨p', set, kept⟩
    · exact .inr ⟨e, .inr ⟨p₂, made, own, full⟩, set⟩

/-- The lookup of an exported function. -/
theorem lookup_of_exports {t : FuncType} (some : p.inst.isSome = true)
    (exported : G.exports c.name = .some t) (few : t.results.length ≤ 1) :
    ∃ i, rawCall.lookup G c p = (.ok ⟨i, c.name, t⟩, p) := by
  obtain ⟨i, inst⟩ := Option.isSome_iff_exists.1 some
  refine ⟨i, ?_⟩
  have found : p.getFunc G c.name = .some ⟨i, c.name, t⟩ := by
    rw [Plugin.getFunc, inst, exported]
    rfl
  rw [rawCall.lookup, Prog.bind_ok (Prog.get_apply p), found]
  have enough : ¬ (c.useExtism = true ∧ 1 < t.results.length) := by omega
  exact congrFun (if_neg enough) p

/-- A completed `prepare`, and a function that computes `f`: what `raw_call`
leaves, and that it reports no error. -/
theorem rawCall_of_computes {name : String} {f : List UInt8 → List UInt8} {data : List UInt8}
    {p₁ : Plugin σ} (C : G.Confined) (K : G.Computes name f) (reached : p.Reached)
    (ready : rawCall.prepare G ⟨name, some data, true, none⟩ p = (.ok (), p₁))
    (some : p₁.inst.isSome = true) :
    ∃ r p', Plugin.rawCall G ⟨name, .some data, true, none⟩ p = (.ok r, p') ∧
      CurrentPlugin.memoryBytes p'.kernel ⟨p'.output.offset, p'.output.length⟩ = f data := by
  obtain ⟨t, exported, few⟩ := K.exported
  obtain ⟨h, c₀, -, kernel, tracked, good⟩ := prepared C reached rfl ready
  obtain ⟨i, found⟩ := lookup_of_exports (c := ⟨name, .some data, true, none⟩) some exported few
  obtain ⟨ls, s, r, g', told, called, quiet, holds⟩ :=
    K.answers i t p₁.guest h data c₀ exported tracked good
  have invoked := invoke_eq (G := G) (c := ⟨name, .some data, true, none⟩) p₁ rfl ⟨i, name, t⟩
  rw [← kernel, called] at invoked
  generalize eq : ({ p₁ with guest := g', kernel := s.config.kernel, events := _ } : Plugin σ) = p₂
    at invoked
  have left : p₂.kernel = s.config.kernel := by rw [← eq]
  have fetched := getOutputAfterCall_run (good.steps told) left
  have run : rawCall.run G ⟨name, .some data, true, none⟩ p =
      (.ok (.ok (), r.1), { p₂ with output := s.told.cached s.config.ledger }) := by
    rw [rawCall.run, Prog.bind_ok ready, Prog.bind_ok found, Prog.bind_ok invoked, if_pos rfl,
      Prog.bind_ok fetched]
    rfl
  -- no error was told, so no message is found
  have silent : ({ p₂ with output := s.told.cached s.config.ledger } : Plugin σ).errorMessage =
      none := by
    rw [Plugin.errorMessage, if_neg]
    simp [Told.cached, quiet]
  have returned := (rawCall_of_ended run).1
  rw [silent] at returned
  exact ⟨_, _, returned, by rw [left]; exact holds⟩

/-- **The guarantee on bytes**: the output is `f` of the input, or the call was
refused. -/
theorem call_of_computes {name : String} {f : List UInt8 → List UInt8} (C : G.Confined)
    (K : G.Computes name f) (reached : p.Reached) {data : List UInt8}
    (small : data.length < 2 ^ 32) {α : Type} (fromBytes : List UInt8 → Except Error α) :
    (p.call G fromBytes name (.ok data)).1 = fromBytes (f data) ∨
      ∃ e, Refusal G p data.length e ∧ (p.call G fromBytes name (.ok data)).1 = .error e := by
  rcases prepare_total (c := ⟨name, some data, true, none⟩) C reached rfl small with
    ⟨p₁, ready, inst⟩ | ⟨e, refusal, failed⟩
  · obtain ⟨r, p', ran, holds⟩ := rawCall_of_computes C K reached ready inst
    refine .inl ?_
    rw [Plugin.call, Prog.bind_ok (Prog.ofExcept_apply _ p),
      Prog.bind_ok (Prog.mapError_ok ran), Prog.bind_ok (Prog.get_apply p'), Prog.ofExcept_apply,
      Plugin.fetchOutput, holds]
  · refine .inr ⟨e, refusal, ?_⟩
    obtain ⟨p', stopped⟩ : ∃ p', rawCall.run G ⟨name, some data, true, none⟩ p = (.error e, p') :=
      ⟨_, Prog.bind_error (Prod.ext failed rfl)⟩
    rw [Plugin.call, Prog.bind_ok (Prog.ofExcept_apply _ p),
      Prog.bind_error (Prog.mapError_error (rawCall_of_refused stopped).1)]

end Called

/-! ## Values -/

/-- The function `f` on bytes is the function `F` on values. -/
def Carries (t u : Convert.ValueType) (f : List UInt8 → List UInt8) (F : t.Value → u.Value) :
    Prop :=
  ∀ (v : t.Value) (data : List UInt8), Convert.toBytes v = .ok data →
    Convert.toBytes (F v) = .ok (f data)

/-- `Plugin::call` from one type to another; `report` is the `into` of a codec's
error. -/
def Plugin.callTyped (G : Guest σ) (report : Convert.Error → Error) {t u : Convert.ValueType}
    (name : String) (v : t.Value) : Prog (Plugin σ) Error u.Value :=
  Plugin.call G (fun data => (Convert.fromBytes data).mapError report) name
    ((Convert.toBytes v).mapError report)

/-! ### The echo computes the identity -/

/-- A session of the echo on a kernel that holds `bytes`. -/
theorem echo_holds {h : ℕ} {bytes : List UInt8} {c : Config} (tracked : Tracked h bytes ⟨c, false⟩)
    (good : Telling.Good ⟨c, .nothing⟩) :
    ∃ ls s, tellingRuns.Steps ⟨c, .nothing⟩ ls s ∧ echo c.kernel = (.ok (), s.config.kernel) ∧
      s.told.error = 0 ∧
        CurrentPlugin.memoryBytes s.config.kernel ⟨s.told.output.1, s.told.output.2⟩ = bytes := by
  obtain ⟨cs, S, booted, state⟩ := tracked
  change c.kernel.boot = c.kernel at booted
  obtain ⟨c', run, left, ls, steps⟩ := echo_run S
  obtain ⟨d, told⟩ := tellingRuns_of_confined steps .nothing
  obtain ⟨-, -, -, before⟩ := good
  obtain ⟨-, -, -, after⟩ := Telling.Good.steps (s := ⟨c, .nothing⟩) ⟨cs, S, booted, before⟩ told
  rw [booted] at left
  have output : d.output = (c'.kernel.peek 8 49, c'.kernel.peek 8 57) :=
    Prod.ext after.outputOffset.symm after.outputLength.symm
  refine ⟨ls, ⟨c', d⟩, told, run, ?_, ?_⟩
  · have same : c'.kernel.peek 8 25 = c.kernel.peek 8 25 := by
      rw [left]
      split
      · rw [Instance.ranged, Instance.peek_splice_of_disjoint _ _ (by decide),
          Instance.peek_splice_of_disjoint _ _ (by decide)]
      · rfl
    exact after.error.symm.trans (same.trans before.error)
  · rw [output]
    rcases state with P | gone
    · rw [P.offset, P.length] at left
      obtain ⟨b, rfl, held⟩ := S.account.held P.live
      have bounds := Represents.held_bounds held
      have R := S.heap
      rw [booted] at R
      have extent := R.extent_le
      have size := R.size_le
      rw [if_pos (R.accepts held (Nat.le_refl _) (Nat.le_refl _))] at left
      have offset : c'.kernel.peek 8 49 = b + 12 := by
        rw [left, Instance.ranged, Instance.peek_splice_of_disjoint _ _ (by decide),
          Instance.peek_poke_of_lt _ (by omega)]
      have length : c'.kernel.peek 8 57 = bytes.length := by
        rw [left, Instance.ranged, Instance.peek_poke_of_lt _ (by omega)]
      rw [offset, length]
      refine List.ext_getElem (by simp [CurrentPlugin.memoryBytes]) fun i lt lt' => ?_
      simp only [CurrentPlugin.memoryBytes, List.getElem_map, List.getElem_range]
      rw [left, Instance.ranged, Instance.bytes_splice_of_notMem _ _ (by omega),
        Instance.bytes_splice_of_notMem _ _ (by omega)]
      exact P.bytes i lt'
    · -- an input that was not freed is there, or empty
      obtain rfl : bytes = [] := by
        by_contra some
        simpa using gone.freed some
      have length : c'.kernel.peek 8 57 = 0 := by
        rw [left, gone.length]
        split
        · rw [Instance.ranged, Instance.peek_poke_of_lt _ (by decide)]
        · exact before.outputLength
      rw [length]
      rfl

theorem echoing_computes : echoing.Computes "echo" id where
  exported := ⟨⟨[], []⟩, rfl, by decide⟩
  answers i t g h bytes c exported tracked good := by
    obtain ⟨ls, s, told, run, quiet, holds⟩ := echo_holds tracked good
    exact ⟨ls, s, .zero t.results, g, told, echoing_call _ _ g run, quiet, holds⟩

end Extism.Runtime
