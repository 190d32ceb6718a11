import Extism.Kernel.Outcome
import Extism.Runtime.ReturnCode

/-!
# The guest's code behind `Ok`

`Plugin::call` and `call_get_error_code` go on to decode the output whenever
`raw_call` returned `Ok`, and drop the code in it.  But `raw_call` returns the
guest's code as `Ok` if the function returned and left no error message, zero or
not; the documentation of `call_get_error_code` takes it to be zero.

What a caller may rely on is stated of all three functions at once: `Ok` of any of
them means code 0, and a code other than 0 comes with an error.

## Main definitions

* `Plugin.call`, `Plugin.callGetErrorCode`, `Plugin.fetchOutput` — the two functions,
  and the decoding of the output.
* `Plugin.ended` — `raw_call` up to the end of the guest's function.
* `Plugin.TellsCode`, `Outcome.Unreported` — what a caller may rely on, and the
  outcome that breaks it.

## Main results

* `outcome_of_ended`, `ended_of_outcome` — a call has an outcome exactly if its
  function ended.
* `verdict_isOk_iff` — when `raw_call` returns `Ok`.
* `zero_of_reported`, `carried_of_reported` — where the outcome is reported, the
  code is told.
* `tellsCode_iff` — when a successful call means code 0.
-/

namespace Extism.Runtime

open Kernel (Instance)

variable {σ α : Type} (G : Guest σ)

namespace Plugin

/-- `output`, with the `from_bytes` of the type asked for. -/
def fetchOutput (fromBytes : List UInt8 → Except Error α) (p : Plugin σ) : Except Error α :=
  fromBytes (CurrentPlugin.memoryBytes p.kernel ⟨p.output.offset, p.output.length⟩)

/-- `call`, on an encoded input. -/
def call (fromBytes : List UInt8 → Except Error α) (name : String)
    (data : Except Error (List UInt8)) : Prog (Plugin σ) Error α := do
  let data ← Prog.ofExcept data
  let _ ← (rawCall G ⟨name, some data, true, none⟩).mapError Prod.fst
  let p ← Prog.get
  Prog.ofExcept (p.fetchOutput fromBytes)

/-- `call_get_error_code`. -/
def callGetErrorCode (fromBytes : List UInt8 → Except Error α) (name : String)
    (data : Except Error (List UInt8)) : Prog (Plugin σ) (Error × Int32) α := do
  let data ← (Prog.ofExcept data).mapError fun e => (e, -1)
  let _ ← rawCall G ⟨name, some data, true, none⟩
  let p ← Prog.get
  (Prog.ofExcept (p.fetchOutput fromBytes)).mapError fun e => (e, -1)

/-- `raw_call` up to the end of the guest's function: how it ended, and the
buffer for its results. -/
def ended (c : Request) : Prog (Plugin σ) Error (Except Error Unit × List Val) := do
  rawCall.prepare G c
  let f ← rawCall.lookup G c
  rawCall.invoke G c f

/-- **What a caller may rely on** in a call with the encoded input `data`:
`raw_call` returns `Ok`, and with it each of the two entry points, only if the
guest's function returned the code 0 or no code, or ended with the WASI exit code
0; and a code other than 0 is the code of an `Err`. -/
structure TellsCode (fromBytes : List UInt8 → Except Error α) (name : String)
    (data : List UInt8) (p : Plugin σ) : Prop where
  zero : ((p.rawCall G ⟨name, some data, true, none⟩).1.isOk ∨
      (p.call G fromBytes name (.ok data)).1.isOk ∨
      (p.callGetErrorCode G fromBytes name (.ok data)).1.isOk) →
    ∃ res results p', p.ended G ⟨name, some data, true, none⟩ = (.ok (res, results), p') ∧
      (res = .ok () ∧ Outcome.ZeroCode results ∨ ∃ e, res = .error e ∧ e.i32Exit = some 0)
  carried : ∀ {results : List Val} {p' : Plugin σ} {code : Int32},
    p.ended G ⟨name, some data, true, none⟩ = (.ok (.ok (), results), p') →
      results.head? = some (.i32 code) → code ≠ 0 →
        ∃ e, (p.callGetErrorCode G fromBytes name (.ok data)).1 = .error (e, code)

end Plugin

/-- The function returned something other than the code 0, and no error message
was set. -/
def Outcome.Unreported : Outcome → Prop
  | .refused _ => False
  | .ended res results message => res = .ok () ∧ ¬ ZeroCode results ∧ message = none

/-! ## The output can be fetched -/

section Fetch

variable {G}

/-- Where the output is can be read off every kernel memory of at least a
page. -/
theorem outputMemoryPosition_ok {m : Instance} (page : 1 ≤ m.pages) :
    ∃ r m', CurrentPlugin.outputMemoryPosition m = (.ok r, m') := by
  have page' : 1 ≤ m.boot.pages := by rwa [Instance.pages_boot]
  have offs : callKernel Kernel.outputOffset m = (.ok _, m.boot) :=
    Prog.mapError_ok (Kernel.getField_eq page (by decide))
  have length : callKernel Kernel.outputLength m.boot = (.ok _, m.boot.boot) :=
    Prog.mapError_ok (Kernel.getField_eq page' (by decide))
  rw [CurrentPlugin.outputMemoryPosition, Prog.bind_ok offs, Prog.bind_ok length]
  exact ⟨_, _, rfl⟩

/-- The error position is told in every case. -/
theorem getErrorPosition_ok (m : Instance) :
    ∃ r m', CurrentPlugin.getErrorPosition m = (.ok r, m') := by
  rw [CurrentPlugin.getErrorPosition, Prog.bind_ok (Prog.attempt_apply _ m)]
  cases (callKernel Kernel.errorGet m).1 with
  | error e => exact ⟨_, _, rfl⟩
  | ok offs =>
      rw [CurrentPlugin.getErrorPosition.found, CurrentPlugin.getErrorPosition.length,
        Prog.bind_ok (Prog.attempt_apply _ _)]
      exact ⟨_, _, rfl⟩

theorem getOutputAfterCall_ok {p : Plugin σ} (page : 1 ≤ p.kernel.pages) :
    ∃ p', p.getOutputAfterCall = (.ok (), p') := by
  obtain ⟨r, m, fetched⟩ := outputMemoryPosition_ok page
  obtain ⟨e, m', told⟩ := getErrorPosition_ok m
  have first : Plugin.onKernel CurrentPlugin.outputMemoryPosition p =
      (.ok r, { p with kernel := m }) := by
    rw [Plugin.onKernel, Prog.zoom, fetched]
  have second : Plugin.onKernel CurrentPlugin.getErrorPosition { p with kernel := m } =
      (.ok e, { p with kernel := m' }) := by
    rw [Plugin.onKernel, Prog.zoom, told]
  rw [Plugin.getOutputAfterCall, Prog.bind_ok first, Prog.bind_ok second]
  exact ⟨_, rfl⟩

end Fetch

/-! ## A call and its outcome -/

section Call

variable {G} {p : Plugin σ} {c : Request}

/-- A call whose function ended has an outcome that says how, since its output
can be fetched. -/
theorem outcome_of_ended (extism : c.useExtism = true) {res : Except Error Unit}
    {results : List Val} {p₁ : Plugin σ} (ran : p.ended G c = (.ok (res, results), p₁))
    (page : 1 ≤ p₁.kernel.pages) : ∃ message, p.outcome G c = .ended res results message := by
  obtain ⟨_, p₂, prepared, ran⟩ := Prog.bind_eq_ok ran
  obtain ⟨f, p₃, found, invoked⟩ := Prog.bind_eq_ok ran
  obtain ⟨p₄, fetched⟩ := getOutputAfterCall_ok page
  have run : rawCall.run G c p = (.ok (res, results), p₄) := by
    rw [rawCall.run, Prog.bind_ok prepared, Prog.bind_ok found, Prog.bind_ok invoked, if_pos extism,
      Prog.bind_ok fetched]
    rfl
  exact ⟨_, (rawCall_of_ended run).2⟩

/-- And only such a call has. -/
theorem ended_of_outcome {res : Except Error Unit} {results : List Val}
    {message : Option (Option String)} (went : p.outcome G c = .ended res results message) :
    ∃ p₁, p.ended G c = (.ok (res, results), p₁) := by
  rcases ran : rawCall.run G c p with ⟨e | ⟨res', results'⟩, p'⟩
  · rw [(rawCall_of_refused ran).2] at went
    simp at went
  · rw [(rawCall_of_ended ran).2, Outcome.ended.injEq] at went
    obtain ⟨rfl, rfl, -⟩ := went
    obtain ⟨_, p₂, prepared, ran⟩ := Prog.bind_eq_ok ran
    obtain ⟨f, p₃, found, ran⟩ := Prog.bind_eq_ok ran
    obtain ⟨r, p₁, invoked, ran⟩ := Prog.bind_eq_ok ran
    obtain ⟨_, p₄, -, ran⟩ := Prog.bind_eq_ok ran
    obtain ⟨-, rfl⟩ := Prog.of_pure ran
    refine ⟨p₁, ?_⟩
    rw [Plugin.ended, Prog.bind_ok prepared, Prog.bind_ok found, invoked]

/-- When `raw_call` returns `Ok`. -/
theorem verdict_isOk_iff (extism : c.useExtism = true) {o : Outcome} :
    (o.verdict c).isOk ↔ ∃ res results, o = .ended res results none ∧
      (res = .ok () ∨ ∃ e, res = .error e ∧ e.i32Exit = some 0) := by
  cases o with
  | refused e => simp [Outcome.verdict, Except.isOk, Except.toBool]
  | ended res results message =>
      rcases verdict_cases extism res results message with
        ⟨failed, e', eq⟩ | ⟨rfl, rfl, eq⟩ | ⟨rfl, e, code, rfl, exit, eq⟩
      · rw [eq]
        refine iff_of_false (by simp [Except.isOk, Except.toBool]) ?_
        rintro ⟨res', results', same, went⟩
        obtain ⟨rfl, rfl, rfl⟩ := Outcome.ended.inj same
        obtain ⟨e, rfl, exit⟩ := failed.resolve_left (· rfl)
        simp [exit] at went
      · rw [eq]
        exact iff_of_true rfl ⟨_, _, rfl, .inl rfl⟩
      · rw [eq]
        by_cases zero : code = 0 <;> simp [zero, exit, Except.isOk, Except.toBool]

/-- What `raw_call` refuses, the entry points refuse with the same code. -/
theorem callGetErrorCode_of_error (fromBytes : List UInt8 → Except Error α) {name : String}
    {data : List UInt8} {e : Error × Int32}
    (failed : (p.rawCall G ⟨name, some data, true, none⟩).1 = .error e) :
    (p.callGetErrorCode G fromBytes name (.ok data)).1 = .error e ∧
      (p.call G fromBytes name (.ok data)).1 = .error e.1 := by
  have ran : p.rawCall G ⟨name, some data, true, none⟩ = (.error e, _) := Prod.ext failed rfl
  constructor
  · rw [Plugin.callGetErrorCode, Prog.bind_ok (Prog.mapError_ok (Prog.ofExcept_apply _ p)),
      Prog.bind_error ran]
  · rw [Plugin.call, Prog.bind_ok (Prog.ofExcept_apply _ p),
      Prog.bind_error (Prog.mapError_error ran)]

/-- Any of the three returns `Ok` only if `raw_call` does. -/
theorem rawCall_isOk {fromBytes : List UInt8 → Except Error α} {name : String} {data : List UInt8}
    (some_ok : (p.rawCall G ⟨name, some data, true, none⟩).1.isOk ∨
      (p.call G fromBytes name (.ok data)).1.isOk ∨
      (p.callGetErrorCode G fromBytes name (.ok data)).1.isOk) :
    (p.rawCall G ⟨name, some data, true, none⟩).1.isOk := by
  cases ran : (p.rawCall G ⟨name, some data, true, none⟩).1 with
  | ok r => rfl
  | error e =>
      obtain ⟨left, right⟩ := callGetErrorCode_of_error fromBytes ran
      rw [ran, left, right] at some_ok
      simp [Except.isOk, Except.toBool] at some_ok

/-- Where the outcome is reported, `Ok` means the code 0. -/
theorem zero_of_reported (extism : c.useExtism = true) (reported : ¬ (p.outcome G c).Unreported)
    (ok : ((p.outcome G c).verdict c).isOk) :
    ∃ res results p', p.ended G c = (.ok (res, results), p') ∧
      (res = .ok () ∧ Outcome.ZeroCode results ∨ ∃ e, res = .error e ∧ e.i32Exit = some 0) := by
  obtain ⟨res, results, went, res_ok⟩ := (verdict_isOk_iff extism).1 ok
  obtain ⟨p₁, ended⟩ := ended_of_outcome went
  refine ⟨res, results, p₁, ended, res_ok.imp_left fun eq => ⟨eq, ?_⟩⟩
  by_contra nonzero
  refine reported ?_
  rw [went]
  exact ⟨eq, nonzero, rfl⟩

/-- Where the outcome is reported, a code other than 0 is the code of an error. -/
theorem carried_of_reported (extism : c.useExtism = true)
    (reported : ¬ (p.outcome G c).Unreported) {results : List Val} {p' : Plugin σ} {code : Int32}
    (ended : p.ended G c = (.ok (.ok (), results), p')) (page : 1 ≤ p'.kernel.pages)
    (head : results.head? = some (.i32 code)) (nonzero : code ≠ 0) :
    ∃ e, (p.outcome G c).verdict c = .error (e, code) := by
  obtain ⟨message, went⟩ := outcome_of_ended extism ended page
  have code_eq : rawCall.returnCode true results = code := by
    cases results with
    | nil => simp at head
    | cons v vs =>
        obtain rfl : v = .i32 code := by simpa using head
        rfl
  have set : message ≠ none := by
    rintro rfl
    refine reported ?_
    rw [went]
    exact ⟨rfl, by rwa [← rawCall.returnCode_eq_zero, code_eq], rfl⟩
  rw [went]
  rcases verdict_cases extism (.ok ()) results message with
    ⟨-, e', eq⟩ | ⟨rfl, -, -⟩ | ⟨rfl, -⟩
  · rw [code_eq] at eq
    exact ⟨e', eq⟩
  · exact absurd rfl set
  · exact absurd rfl set

end Call

/-- **When a successful call means code 0.**  A caller may rely on the code of a
call exactly if the function did not return something other than 0 without
leaving an error message.  The guest does not shrink the kernel's memory. -/
theorem tellsCode_iff {fromBytes : List UInt8 → Except Error α} {name : String}
    {data : List UInt8} {p : Plugin σ}
    (page : ∀ {r : Except Error Unit × List Val} {p' : Plugin σ},
      p.ended G ⟨name, some data, true, none⟩ = (.ok r, p') → 1 ≤ p'.kernel.pages) :
    p.TellsCode G fromBytes name data ↔
      ¬ (p.outcome G ⟨name, some data, true, none⟩).Unreported := by
  have returned := rawCall_eq_verdict (G := G) (c := ⟨name, some data, true, none⟩) p rfl
  constructor
  · intro tells unreported
    cases went : p.outcome G ⟨name, some data, true, none⟩ with
    | refused e => rwa [went] at unreported
    | ended res results message =>
        rw [went] at unreported
        obtain ⟨rfl, nonzero, rfl⟩ := unreported
        have ok : (p.rawCall G ⟨name, some data, true, none⟩).1.isOk := by
          rw [returned, went, verdict_isOk_iff rfl]
          exact ⟨_, _, rfl, .inl rfl⟩
        obtain ⟨p₁, ended⟩ := ended_of_outcome went
        obtain ⟨res, results', p', ended', zero⟩ := tells.zero (.inl ok)
        rw [ended] at ended'
        obtain ⟨⟨rfl, rfl⟩, -⟩ : ((.ok () = res) ∧ results = results') ∧ p₁ = p' := by
          simpa using ended'
        simp [nonzero] at zero
  · intro reported
    constructor
    · intro some_ok
      have ok := rawCall_isOk some_ok
      rw [returned] at ok
      exact zero_of_reported rfl reported ok
    · intro results p' code ended head nonzero
      obtain ⟨e, eq⟩ := carried_of_reported rfl reported ended (page ended) head nonzero
      exact ⟨e, (callGetErrorCode_of_error fromBytes (by rw [returned, eq])).1⟩

/-- A guest whose function `run` returns `code`. -/
def answering (code : Int32) : Guest Unit where
  exports := fun name => if name = "run" then some ⟨[], [.i32]⟩ else none
  relink := pure ()
  instantiate := pure ()
  call := fun f _ => pure
    ⟨f.type.results.map fun t => if t = .i32 then .i32 code else t.zero, by
      rw [List.map_map]
      refine List.map_id'' (fun t => ?_) _
      rw [Function.comp_apply]
      split
      case isTrue i32 => rw [i32, Val.type]
      case isFalse => exact t.type_zero⟩

/-- The code 5, with no error message. -/
theorem tellsCode_iff_of_five :
    (Plugin.fresh ()).TellsCode (answering 5) Except.ok "run" [] ↔
      ¬ ((Plugin.fresh ()).outcome (answering 5) ⟨"run", some [], true, none⟩).Unreported := by
  refine tellsCode_iff (answering 5) fun {r p'} ended => ?_
  have page : 1 ≤ ((Plugin.fresh ()).ended (answering 5)
      ⟨"run", some [], true, none⟩).2.kernel.pages := by
    decide +kernel
  rwa [ended] at page

/-- It is returned as a success. -/
theorem not_tellsCode_of_five :
    ¬ (Plugin.fresh ()).TellsCode (answering 5) (Except.ok (ε := Error)) "run" [] := by
  intro tells
  have ok : ((Plugin.fresh ()).rawCall (answering 5) ⟨"run", some [], true, none⟩).1.isOk := by
    decide +kernel
  obtain ⟨res, results, p', ended, zero⟩ := tells.zero (.inl ok)
  have went : ((Plugin.fresh ()).ended (answering 5) ⟨"run", some [], true, none⟩).1.map
      (fun r => (r.1.isOk, r.2)) = .ok (true, [.i32 5]) := by
    decide +kernel
  rw [ended] at went
  obtain ⟨isOk, rfl⟩ : res.isOk = true ∧ results = [.i32 5] := by simpa [Except.map] using went
  rcases zero with ⟨rfl, code⟩ | ⟨e, rfl, -⟩
  · simp [Outcome.ZeroCode] at code
  · simp [Except.isOk, Except.toBool] at isOk

end Extism.Runtime
