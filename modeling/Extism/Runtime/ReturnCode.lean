import Extism.Runtime.Initialized
import Extism.Runtime.Sdk

/-!
# The return code of `extism_plugin_call`

`EXTISM_SUCCESS` is 0, and C callers test the number only.  `raw_call` computes
a code from the results before it knows whether the call failed, and pairs the
two: a function without results has the code 0 however it ends.  `Silent` is
exactly when a failure is reported as 0 this way.

A call that fails before the input is set may not come back at all: where an
initialiser of a new plugin fails, `return_error` follows the pointers that
`build_new` left dangling, and the process crashes instead of answering −1.  Once
a function has been called the input is set, so that no failure that could be
reported as 0 is lost that way (`connected_of_ended`).

## Main definitions

* `Outcome.Succeeded` — the calls that should be reported as 0.
* `Outcome.Silent` — the calls that fail with the code 0.

## Main results

* `verdict_cases` — how the return code of a call comes about.
* `statusOf_eq_zero` — the code 0 stands for success or for a silent failure.
* `zero_means_success_iff` — 0 means success exactly where no failure is silent.
-/

namespace Extism.Runtime

namespace Outcome

/-- The function returned nothing, or the number 0. -/
def ZeroCode (results : List Val) : Prop := results = [] ∨ results.head? = some (.i32 0)

/-- The call succeeded: the function returned the code 0 or no code, or ended by
a WASI exit with code 0, and no error message was set. -/
def Succeeded : Outcome → Prop
  | .refused _ => False
  | .ended res results message =>
      message = none ∧
        (res = .ok () ∧ ZeroCode results ∨ ∃ e, res = .error e ∧ e.i32Exit = some 0)

/-- The function left the code 0 — it has no results, or returned the number 0 —
and either an error message was set or it ended with an error that is no WASI
exit. -/
def Silent : Outcome → Prop
  | .refused _ => False
  | .ended res results message =>
      ZeroCode results ∧ (message ≠ none ∨ ∃ e, res = .error e ∧ e.i32Exit = none)

end Outcome

open Outcome

variable {σ : Type} (G : Guest σ)

theorem rawCall.returnCode_eq_zero {results : List Val} :
    rawCall.returnCode true results = 0 ↔ ZeroCode results := by
  cases results with
  | nil => simp [rawCall.returnCode, ZeroCode]
  | cons v vs =>
      simp only [rawCall.returnCode, ZeroCode, List.head?_cons, Option.some.injEq, reduceCtorEq,
        false_or, ← Val.asI32_eq_some]
      cases v.asI32 with
      | none => simp
      | some x => simp

section Extism

variable {c : Request}

/-- A failure that is no WASI exit is reported under the code of the guest. -/
theorem verdict_of_failure (extism : c.useExtism = true) {res : Except Error Unit}
    {results : List Val} {message : Option (Option String)} {e : Error}
    (failed : rawCall.withMessage c.name message res = .error e) (exit : e.i32Exit = none) :
    ∃ e', (Outcome.ended res results message).verdict c =
      .error (e', rawCall.returnCode true results) := by
  obtain ⟨e', classified⟩ := rawCall.classify_of_noExit exit (rawCall.returnCode true results)
  refine ⟨e', ?_⟩
  simp only [Outcome.verdict, rawCall.conclude, extism, failed, classified]
  rfl

/-- How the return code of a call comes about. -/
theorem verdict_cases (extism : c.useExtism = true) (res : Except Error Unit)
    (results : List Val) (message : Option (Option String)) :
    ((message ≠ none ∨ ∃ e, res = .error e ∧ e.i32Exit = none) ∧
        ∃ e', (Outcome.ended res results message).verdict c =
          .error (e', rawCall.returnCode true results)) ∨
      (message = none ∧ res = .ok () ∧ (Outcome.ended res results message).verdict c =
        .ok (rawCall.returnCode true results, [])) ∨
      (message = none ∧ ∃ e code, res = .error e ∧ e.i32Exit = some code ∧
        (Outcome.ended res results message).verdict c =
          if code = 0 then .ok (0, []) else .error (e.context "WASI exit code", code)) := by
  by_cases set : message = none
  · subst set
    have plain := rawCall.withMessage_none c.name res
    cases res with
    | ok u =>
        refine .inr (.inl ⟨rfl, rfl, ?_⟩)
        simp only [Outcome.verdict, rawCall.conclude, extism, plain, if_true]
    | error e =>
        cases exit : e.i32Exit with
        | none =>
            exact .inl ⟨.inr ⟨e, rfl, exit⟩, verdict_of_failure extism plain exit⟩
        | some code =>
            refine .inr (.inr ⟨rfl, e, code, rfl, exit, ?_⟩)
            simp only [Outcome.verdict, rawCall.conclude, extism, plain, rawCall.classify, exit,
              if_true]
            split <;> rfl
  · obtain ⟨e, failed, exit⟩ := rawCall.withMessage_of_some set c.name res
    exact .inl ⟨.inl set, verdict_of_failure extism failed exit⟩

/-- `raw_call` returns `Ok(0)` exactly when the call succeeded. -/
theorem verdict_eq_ok_zero (extism : c.useExtism = true) (o : Outcome) :
    o.verdict c = .ok (0, []) ↔ o.Succeeded := by
  cases o with
  | refused e => simp [Outcome.verdict, Succeeded]
  | ended res results message =>
      rcases verdict_cases extism res results message with
        ⟨failed, e', eq⟩ | ⟨rfl, rfl, eq⟩ | ⟨rfl, e, code, rfl, exit, eq⟩
      · simp only [eq, Succeeded, reduceCtorEq, false_iff]
        rintro ⟨rfl, h⟩
        obtain ⟨e, rfl, exit⟩ := failed.resolve_left (· rfl)
        simp [exit] at h
      · rw [eq]
        simp [Succeeded, rawCall.returnCode_eq_zero]
      · rw [eq]
        by_cases zero : code = 0 <;> simp [Succeeded, exit, zero]

/-- The code 0 stands for a call that did not succeed exactly when it went
silently wrong. -/
theorem statusOf_eq_zero (extism : c.useExtism = true) (o : Outcome) :
    statusOf (o.verdict c) = 0 ↔ o.Succeeded ∨ o.Silent := by
  cases o with
  | refused e => simp [Outcome.verdict, Succeeded, Silent, statusOf]
  | ended res results message =>
      rcases verdict_cases extism res results message with
        ⟨failed, e', eq⟩ | ⟨rfl, rfl, eq⟩ | ⟨rfl, e, code, rfl, exit, eq⟩
      · rw [eq, ← verdict_eq_ok_zero extism, eq]
        simp [statusOf, Silent, rawCall.returnCode_eq_zero, failed]
      · rw [eq]
        simp [statusOf, Succeeded, Silent, rawCall.returnCode_eq_zero]
      · rw [eq]
        by_cases zero : code = 0 <;> simp [Succeeded, Silent, statusOf, exit, zero]

/-- No call both succeeds and goes silently wrong. -/
theorem Outcome.Silent.not_succeeded {o : Outcome} (silent : o.Silent) : ¬ o.Succeeded := by
  cases o with
  | refused e => exact fun h => h
  | ended res results message =>
      rintro ⟨rfl, h⟩
      obtain ⟨e, rfl, exit⟩ := silent.2.resolve_left (· rfl)
      simp [exit] at h

/-- Once a function was called, `return_error` comes back. -/
theorem connected_of_ended (extism : c.useExtism = true) {p : Plugin σ} {res : Except Error Unit}
    {results : List Val} {message : Option (Option String)}
    (went : p.outcome G c = .ended res results message) : (p.rawCall G c).2.Connected := by
  rw [Plugin.outcome] at went
  split at went
  case h_1 => simp at went
  case h_2 ran =>
    obtain ⟨_, p₁, prepared, -⟩ := Prog.bind_eq_ok ran
    rw [Plugin.connected_rawCall, prepared]
    exact .inr (prepare_linked extism p () p₁ trivial prepared)

end Extism

/-- **When 0 means success.**  `extism_plugin_call` returns 0 only if `raw_call`
returned `Ok(0)` — which is to say, only if the call succeeded — exactly when
the call did not go silently wrong. -/
theorem zero_means_success_iff (p : Plugin σ) (name : Except Error String)
    (data : Option (List UInt8)) :
    (((extismPluginCall G name data p).map Prod.fst = some 0 →
          ∃ n, name = .ok n ∧ (p.rawCall G ⟨n, data, true, none⟩).1 = .ok (0, [])) ↔
        ¬ ((Entry.extismPluginCall name data).outcome G p).Silent) ∧
      ∀ n, name = .ok n → ((p.rawCall G ⟨n, data, true, none⟩).1 = .ok (0, []) ↔
        ((Entry.extismPluginCall name data).outcome G p).Succeeded) := by
  cases name with
  | error e =>
      have returned : (extismPluginCall G (.error e) data p).map Prod.fst ≠ some 0 := by
        rw [extismPluginCall, Plugin.returnError_fst]
        split <;> simp
      simp [returned, Entry.outcome, Entry.request, Except.map, Silent]
  | ok n =>
      have went : (Entry.extismPluginCall (.ok n) data).outcome G p =
          p.outcome G ⟨n, data, true, none⟩ := rfl
      have returned := rawCall_eq_verdict (G := G) (c := ⟨n, data, true, none⟩) p rfl
      have succeeded : (p.rawCall G ⟨n, data, true, none⟩).1 = .ok (0, []) ↔
          (p.outcome G ⟨n, data, true, none⟩).Succeeded := by
        rw [returned, verdict_eq_ok_zero rfl]
      refine ⟨?_, fun m eq => ?_⟩
      · simp only [Except.ok.injEq, exists_eq_left', succeeded, went]
        rw [extismPluginCall_fst, returned_eq_some, returned, statusOf_eq_zero rfl]
        refine ⟨fun sound silent => ?_, fun loud zero => zero.2.resolve_right loud⟩
        have back : (p.rawCall G ⟨n, data, true, none⟩).2.Connected := by
          cases ended : p.outcome G ⟨n, data, true, none⟩ with
          | refused e =>
              rw [ended] at silent
              exact silent.elim
          | ended res results message => exact connected_of_ended G rfl ended
        exact silent.not_succeeded (sound ⟨.inr back, .inr silent⟩)
      · obtain rfl := Except.ok.inj eq
        rw [went, succeeded]

/-- A function without results, and it traps. -/
def trapping : Guest Unit := .scripted [("run", ⟨[], []⟩)] ["run"]

/-- A trap is reported as 0, `EXTISM_SUCCESS`. -/
theorem trap_reported_as_success :
    ¬ ∀ name : String,
      (extismPluginCall trapping (.ok name) (some []) (.fresh ())).map Prod.fst = some 0 →
      ((Plugin.fresh ()).rawCall trapping ⟨name, some [], true, none⟩).1 = .ok (0, []) := by
  intro sound
  have zero : (extismPluginCall trapping (.ok "run") (some []) (.fresh ())).map Prod.fst =
      some 0 := by
    rw [extismPluginCall_fst]
    decide +kernel
  have failed : ((Plugin.fresh ()).rawCall trapping ⟨"run", some [], true, none⟩).1.isOk =
      false := by
    decide +kernel
  rw [sound "run" zero] at failed
  simp [Except.isOk, Except.toBool] at failed

end Extism.Runtime
