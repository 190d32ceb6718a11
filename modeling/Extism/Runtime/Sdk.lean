import Extism.Runtime.Plugin
import Extism.Lib.Transition

/-!
# The entry points of the C libraries

`extism_plugin_call` and the entry points for Otoroshi, which call a function
with explicit parameters and without input.  All of them take the plugin's lock
first, so the calls on a plugin are a sequence; a null plugin pointer is
answered at once and touches no plugin.

A function name is what `CStr::to_str` makes of it: a string, or an error to
report.  Parameters and results are WebAssembly values; their conversion to C
records is not part of a call.

Every entry point ends like the others: it passes an error to `return_error` and
returns its own value for failure.  So an entry point is an answer to what
`raw_call` returned, up to the crash that `return_error` may be.

## Main definitions

* `extismPluginCall`, `wasmOtoroshiCall`, `wasmPluginCallWithoutParams`,
  `wasmPluginCallWithoutResults` — the entry points.
* `Entry`, `Entry.call`, `Report` — a call through one of them, and what its caller
  gets to see.
* `Plugin.outcome`, `Outcome.verdict` — how a call went, and what `raw_call` should
  return for it.
* `Entry.report` — the report a call should get for how it went.

## Main results

* `rawCall_eq_verdict` — with the kernel asked for the error message, `raw_call`
  returns the verdict of its own outcome.
* `Entry.call_fst` — what an entry point returns.
-/

namespace Extism.Runtime

variable {σ : Type} (G : Guest σ)

/-- `extism_plugin_call`. -/
def extismPluginCall (name : Except Error String) (data : Option (List UInt8))
    (p : Plugin σ) : Option (Int32 × Plugin σ) :=
  match name with
  | .error e => p.returnError e.text (-1)
  | .ok name =>
    match Plugin.rawCall G ⟨name, data, true, none⟩ p with
    | (.error (e, rc), p) => p.returnError e.text rc
    | (.ok (x, _), p) => some (x, p)

/-- `wasm_otoroshi_plugin_call_native`; the inner `none` is `None`. -/
def wasmOtoroshiPluginCallNative (name : Except Error String) (params : Option (List Val))
    (p : Plugin σ) : Option (Option (List Val) × Plugin σ) :=
  match name with
  | .error e => p.returnError e.text none
  | .ok name =>
    match Plugin.rawCall G ⟨name, some [], false, params⟩ p with
    | (.error (e, _), p) => p.returnError e.text none
    | (.ok (_, results), p) => some (some results, p)

/-- `wasm_otoroshi_call`; the inner `none` is the null pointer. -/
def wasmOtoroshiCall (name : Except Error String) (params : Option (List Val)) (p : Plugin σ) :
    Option (Option (List Val) × Plugin σ) :=
  wasmOtoroshiPluginCallNative G name params p

/-- `wasm_plugin_call_without_params`; the inner `none` is the null pointer. -/
def wasmPluginCallWithoutParams (name : Except Error String) (p : Plugin σ) :
    Option (Option (List Val) × Plugin σ) :=
  wasmOtoroshiPluginCallNative G name none p

/-- `wasm_plugin_call_without_results`, which does not tell how the call
ended. -/
def wasmPluginCallWithoutResults (name : Except Error String) (params : Option (List Val))
    (p : Plugin σ) : Option (Unit × Plugin σ) :=
  (wasmOtoroshiPluginCallNative G name params p).map fun r => ((), r.2)

/-- A call through one of the entry points. -/
inductive Entry
  | extismPluginCall (name : Except Error String) (data : Option (List UInt8))
  | wasmOtoroshiCall (name : Except Error String) (params : Option (List Val))
  | wasmPluginCallWithoutParams (name : Except Error String)
  | wasmPluginCallWithoutResults (name : Except Error String) (params : Option (List Val))

/-- What the caller of an entry point gets to see. -/
inductive Report
  | status (rc : Int32)
  | values (results : Option (List Val))
  | nothing
  deriving DecidableEq

/-- Make a call; `none` is a crash. -/
def Entry.call (p : Plugin σ) : Entry → Option (Report × Plugin σ)
  | .extismPluginCall name data =>
      (Runtime.extismPluginCall G name data p).map fun r => (.status r.1, r.2)
  | .wasmOtoroshiCall name params =>
      (Runtime.wasmOtoroshiCall G name params p).map fun r => (.values r.1, r.2)
  | .wasmPluginCallWithoutParams name =>
      (Runtime.wasmPluginCallWithoutParams G name p).map fun r => (.values r.1, r.2)
  | .wasmPluginCallWithoutResults name params =>
      (Runtime.wasmPluginCallWithoutResults G name params p).map fun r => (.nothing, r.2)

/-- The arguments an entry point hands to `raw_call`, unless the name is no
string. -/
def Entry.request : Entry → Except Error Request
  | .extismPluginCall name data => name.map fun name => ⟨name, data, true, none⟩
  | .wasmOtoroshiCall name params => name.map fun name => ⟨name, some [], false, params⟩
  | .wasmPluginCallWithoutParams name => name.map fun name => ⟨name, some [], false, none⟩
  | .wasmPluginCallWithoutResults name params =>
      name.map fun name => ⟨name, some [], false, params⟩

/-! ## How a call went

`Plugin.outcome` is what happened in a call: it was refused before its function
was called (or its output could not be fetched), or the function ended, with an
error message set or not.  Only `extism_plugin_call` asks for the message.  The
return value of every entry point is a function of the outcome, up to one slip
in `raw_call`. -/

/-- How a call went. -/
inductive Outcome
  | refused (e : Error)
  | ended (res : Except Error Unit) (results : List Val) (message : Option (Option String))

/-- How a call of `raw_call` goes. -/
def Plugin.outcome (p : Plugin σ) (c : Request) : Outcome :=
  match rawCall.run G c p with
  | (.error e, _) => .refused e
  | (.ok (res, results), p) =>
      .ended res results (if c.useExtism then p.errorMessage else none)

/-- How a call through an entry point goes. -/
def Entry.outcome (p : Plugin σ) (x : Entry) : Outcome :=
  match x.request with
  | .error e => .refused e
  | .ok c => p.outcome G c

/-- What `raw_call` returns for a call that went like this. -/
def Outcome.verdict (c : Request) : Outcome → Except (Error × Int32) (Int32 × List Val)
  | .refused e => .error (e, -1)
  | .ended res results message => rawCall.conclude c message (res, results)

/-- The verdict on a call through an entry point. -/
def Entry.verdict (x : Entry) (o : Outcome) : Except (Error × Int32) (Int32 × List Val) :=
  match x.request with
  | .error e => .error (e, -1)
  | .ok c => o.verdict c

/-- The code `extism_plugin_call` makes of a verdict. -/
def statusOf : Except (Error × Int32) (Int32 × List Val) → Int32
  | .ok (x, _) => x
  | .error (_, rc) => rc

/-- The values the entry points for Otoroshi make of a verdict. -/
def valuesOf : Except (Error × Int32) (Int32 × List Val) → Option (List Val)
  | .ok (_, results) => some results
  | .error _ => none

/-- What an entry point returns, by what `raw_call` returned. -/
def Entry.answer : Entry → Except (Error × Int32) (Int32 × List Val) → Report
  | .extismPluginCall _ _, r => .status (statusOf r)
  | .wasmOtoroshiCall _ _, r => .values (valuesOf r)
  | .wasmPluginCallWithoutParams _, r => .values (valuesOf r)
  | .wasmPluginCallWithoutResults _ _, _ => .nothing

/-- The report a call should get for how it went. -/
def Entry.report (x : Entry) (o : Outcome) : Report := x.answer (x.verdict o)

section Verdict

variable {G} {p p' : Plugin σ} {c : Request}

theorem rawCall_of_refused {e : Error} (ran : rawCall.run G c p = (.error e, p')) :
    p.rawCall G c = (.error (e, -1), p') ∧ p.outcome G c = .refused e := by
  constructor
  · rw [Plugin.rawCall, Prog.bind_error (Prog.mapError_error ran)]
  · rw [Plugin.outcome, ran]

theorem rawCall_of_ended {res : Except Error Unit} {results : List Val}
    (ran : rawCall.run G c p = (.ok (res, results), p')) :
    p.rawCall G c = (rawCall.conclude c p'.errorMessage (res, results), p') ∧
      p.outcome G c =
        .ended res results (if c.useExtism then p'.errorMessage else none) := by
  constructor
  · rw [Plugin.rawCall, Prog.bind_ok (Prog.mapError_ok ran), Prog.bind_ok (Prog.get_apply _),
      Prog.ofExcept_apply]
  · rw [Plugin.outcome, ran]

/-- With the kernel asked for the error message, `raw_call` returns the verdict
of its own outcome. -/
theorem rawCall_eq_verdict (p : Plugin σ) (extism : c.useExtism = true) :
    (p.rawCall G c).1 = (p.outcome G c).verdict c := by
  rcases ran : rawCall.run G c p with ⟨e | ⟨res, results⟩, p'⟩
  · obtain ⟨returned, went⟩ := rawCall_of_refused ran
    rw [returned, went]
    rfl
  · obtain ⟨returned, went⟩ := rawCall_of_ended ran
    rw [returned, went, if_pos extism]
    rfl

end Verdict

/-- What is returned behind a call of `raw_call`, or a crash. -/
def returned {α : Type} (answer : Except (Error × Int32) (Int32 × List Val) → α)
    (r : Except (Error × Int32) (Int32 × List Val) × Plugin σ) : Option α :=
  if r.1.isOk ∨ r.2.Connected then some (answer r.1) else none

theorem returned_eq_some {α : Type} {answer : Except (Error × Int32) (Int32 × List Val) → α}
    {r : Except (Error × Int32) (Int32 × List Val) × Plugin σ} {a : α} :
    returned answer r = some a ↔ (r.1.isOk ∨ r.2.Connected) ∧ answer r.1 = a := by
  rw [returned]
  split
  case isTrue holds => simp [holds]
  case isFalse fails => simp [fails]

theorem returned_map {α β : Type} (f : α → β)
    (answer : Except (Error × Int32) (Int32 × List Val) → α)
    (r : Except (Error × Int32) (Int32 × List Val) × Plugin σ) :
    (returned answer r).map f = returned (fun r => f (answer r)) r := by
  rw [returned, returned]
  split <;> rfl

section Returned

variable (p : Plugin σ)

/-- What `extism_plugin_call` returns. -/
theorem extismPluginCall_fst (name : String) (data : Option (List UInt8)) :
    (extismPluginCall G (.ok name) data p).map Prod.fst =
      returned statusOf (p.rawCall G ⟨name, data, true, none⟩) := by
  rcases ran : p.rawCall G ⟨name, data, true, none⟩ with ⟨⟨e, rc⟩ | ⟨x, results⟩, p'⟩
  · rw [extismPluginCall, ran]
    simpa [returned, statusOf, Except.isOk, Except.toBool] using
      Plugin.returnError_fst p' e.text rc
  · rw [extismPluginCall, ran]
    rfl

/-- What the entry points for Otoroshi return. -/
theorem wasmOtoroshiPluginCallNative_fst (name : String) (params : Option (List Val)) :
    (wasmOtoroshiPluginCallNative G (.ok name) params p).map Prod.fst =
      returned valuesOf (p.rawCall G ⟨name, some [], false, params⟩) := by
  rcases ran : p.rawCall G ⟨name, some [], false, params⟩ with ⟨⟨e, rc⟩ | ⟨x, results⟩, p'⟩
  · rw [wasmOtoroshiPluginCallNative, ran]
    simpa [returned, valuesOf, Except.isOk, Except.toBool] using
      Plugin.returnError_fst p' e.text (none : Option (List Val))
  · rw [wasmOtoroshiPluginCallNative, ran]
    rfl

/-- A call whose name is no string. -/
theorem Plugin.returnError_map {α β : Type} (e : String) (x : α) (f : α → β) :
    (p.returnError e x).map (fun r => f r.1) = if p.Connected then some (f x) else none := by
  have fst := congrArg (Option.map f) (p.returnError_fst e x)
  rw [Option.map_map] at fst
  refine fst.trans ?_
  split <;> rfl

/-- A native call, whatever is made of its values. -/
theorem wasmOtoroshiPluginCallNative_map (name : Except Error String) (params : Option (List Val))
    (f : Option (List Val) → Report) :
    (wasmOtoroshiPluginCallNative G name params p).map (fun r => f r.1) =
      match name with
      | .error _ => if p.Connected then some (f none) else none
      | .ok name =>
          returned (fun r => f (valuesOf r)) (p.rawCall G ⟨name, some [], false, params⟩) := by
  cases name with
  | error e => exact p.returnError_map e.text none f
  | ok name =>
      have fst := congrArg (Option.map f) (wasmOtoroshiPluginCallNative_fst G p name params)
      rw [Option.map_map, returned_map] at fst
      exact fst

/-- **What an entry point returns**: its answer to what `raw_call` returned, or it
crashes on the way through `return_error`. -/
theorem Entry.call_fst (x : Entry) :
    (x.call G p).map Prod.fst =
      match x.request with
      | .error e => if p.Connected then some (x.answer (.error (e, -1))) else none
      | .ok c => returned x.answer (p.rawCall G c) := by
  cases x with
  | extismPluginCall name data =>
      rw [Entry.call, Option.map_map]
      cases name with
      | error e => exact p.returnError_map e.text (-1) Report.status
      | ok name =>
          have fst := congrArg (Option.map Report.status) (extismPluginCall_fst G p name data)
          rw [Option.map_map, returned_map] at fst
          exact fst
  | wasmOtoroshiCall name params =>
      rw [Entry.call, Option.map_map]
      refine (wasmOtoroshiPluginCallNative_map G p name params .values).trans ?_
      cases name <;> rfl
  | wasmPluginCallWithoutParams name =>
      rw [Entry.call, Option.map_map]
      refine (wasmOtoroshiPluginCallNative_map G p name none .values).trans ?_
      cases name <;> rfl
  | wasmPluginCallWithoutResults name params =>
      rw [Entry.call, Runtime.wasmPluginCallWithoutResults, Option.map_map, Option.map_map]
      refine (wasmOtoroshiPluginCallNative_map G p name params fun _ => .nothing).trans ?_
      cases name <;> rfl

end Returned

end Extism.Runtime
