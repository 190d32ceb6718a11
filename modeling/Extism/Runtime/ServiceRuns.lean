import Extism.Lib.Utf8
import Extism.Runtime.Calls
import Extism.Runtime.Reports
import Extism.Runtime.Service

/-!
# Calls on a plugin are calls on its object

A guest implements an object if its functions do what the object's calls do, and a
desk shows a plugin if what it tells of it is so.  Every entry point, however its
call ends, takes a plugin that a desk shows to one that the desk after the call
shows; the rest is the induction over runs.

The proof follows `raw_call`: instantiation makes the object and initialises it,
the lookup finds the function or does not, the function changes the object as its
call does, and what is reported is decided without looking at the object.

## Main definitions

* `Guest.Implements` — a guest whose functions implement a service.
* `Desk.Shows` — a desk tells of a plugin what is so.
* `Follows` — a program does what the service does.
* `extismPluginReset`, `useRuns` — the operation beside the calls, and the runs of a
  new plugin through operations that return.

## Main results

* `initialize_shows`, `run_shows` — the initialisation of a new instance, and
  `raw_call`.
* `otoroshi_shows`, `extism_shows`, `answers_shows` — a call through any entry
  point.
* `use_shows` — a step of the plugin is one of its desk.
* `plugin_serves` — a plugin is one object for life.
-/

namespace Extism.Runtime

open Prog (Keeps)
open Kernel (Instance)

variable {σ α : Type}

/-- A guest whose functions implement a service; `rep` tells which state of the
guest stands for which object. -/
structure Guest.Implements (G : Guest σ) (S : Service α) (rep : α → σ → Prop) : Prop where
  exports : G.exports = S.exports
  instantiate : ∀ {g : σ} {m : Instance} {s : σ × Instance},
    G.instantiate (g, m) = (.ok (), s) → rep S.start s.1
  call : ∀ {f : Func} {args : List Val} {a : α} {g : σ} {m : Instance},
    S.exports f.name = some f.type → rep a g →
      (G.call f args (g, m)).1.map Subtype.val = (S.call f.name args a).1 ∧
        rep (S.call f.name args a).2 (G.call f args (g, m)).2.1

/-- A desk tells of a plugin what is so. -/
structure Desk.Shows (rep : α → σ → Prop) (d : Desk α) (p : Plugin σ) : Prop where
  storeNeedsReset : p.storeNeedsReset = false
  blank : d.object = none → p.inst = none ∧ p.runtime = none
  object : ∀ a, d.object = some a → p.inst.isSome = true ∧ rep a p.guest
  stale : d.stale = false ↔ p.NoCachedError

/-! ## The way to the function -/

section Opening

variable {G : Guest σ} {S : Service α} {rep : α → σ → Prop} {p q : Plugin σ} {d : Desk α} {a : α}

/-- What `callInit` does. -/
theorem callInit_eq (init : Func) (params : List Val) (p : Plugin σ) :
    Plugin.callInit G init params p =
      ((G.call init params (p.guest, p.kernel)).1.map fun _ => (),
        { p with
          guest := (G.call init params (p.guest, p.kernel)).2.1
          kernel := (G.call init params (p.guest, p.kernel)).2.2 }) := by
  rcases ran : G.call init params (p.guest, p.kernel) with ⟨e | r, s⟩
  · have zoomed : Plugin.onGuest (G.call init params) p =
        (.error e, { p with guest := s.1, kernel := s.2 }) := by
      rw [Plugin.onGuest, Prog.zoom, ran]
    exact Prog.bind_error zoomed
  · have zoomed : Plugin.onGuest (G.call init params) p =
        (.ok r, { p with guest := s.1, kernel := s.2 }) := by
      rw [Plugin.onGuest, Prog.zoom, ran]
    exact Prog.bind_ok zoomed

/-- A program does what the service does. -/
def Follows (rep : α → σ → Prop) (ended : Except Error Unit × α)
    (ran : Except Error Unit × Plugin σ) : Prop :=
  ran.1 = ended.1 ∧ rep ended.2 ran.2.guest

/-- An initialiser. -/
theorem callInit_follows (I : G.Implements S rep) {f : Func}
    (exported : S.exports f.name = some f.type) (params : List Val) (shown : rep a p.guest) :
    Follows rep (S.calls [(f.name, params)] a) (Plugin.callInit G f params p) := by
  obtain ⟨answer, left⟩ := I.call exported shown
  rw [callInit_eq, S.calls_singleton, ← answer]
  refine ⟨?_, left⟩
  cases (G.call f params (p.guest, p.kernel)).1 <;> rfl

/-- The functions of an instance. -/
theorem getFunc_eq (I : G.Implements S rep) {i : ℕ} (inst : p.inst = some i) (name : String) :
    p.getFunc G name = (S.exports name).map fun t => ⟨i, name, t⟩ := by
  rw [Plugin.getFunc, inst, ← I.exports]
  rfl

theorem reactorInit_cases (I : G.Implements S rep) {i : ℕ} (inst : p.inst = some i) :
    (p.reactorInit G = none ∧ S.reactorInit = []) ∨
      ∃ t, S.exports "_initialize" = some t ∧ p.reactorInit G = some ⟨i, "_initialize", t⟩ ∧
        S.reactorInit = [("_initialize", [])] := by
  rw [Plugin.reactorInit, getFunc_eq I inst, Service.reactorInit]
  cases S.exports "_initialize" with
  | none => exact .inl ⟨rfl, rfl⟩
  | some t => cases unit : t.isUnit <;> simp [unit]

/-- The initialisers of the runtime found are those of the service. -/
theorem runInit_follows (I : G.Implements S rep) {i : ℕ} (inst : p.inst = some i)
    (shown : rep a p.guest) :
    Follows rep (S.calls S.initialisers a)
      (Plugin.GuestRuntime.runInit G (p.guestRuntime G) p) := by
  have quiet : Follows rep (S.calls [] a) (Plugin.GuestRuntime.runInit G none p) := ⟨rfl, shown⟩
  rw [Plugin.guestRuntime, getFunc_eq I inst, getFunc_eq I inst, Service.initialisers]
  cases hs : S.exports "hs_init" with
  | some t =>
      have init : ∀ {q : Plugin σ} {a : α}, rep a q.guest →
          Follows rep (S.calls [("hs_init", [.i32 0, .i32 0])] a)
            (Plugin.callInit G ⟨i, "hs_init", t⟩ [.i32 0, .i32 0] q) :=
        fun shown => callInit_follows I hs _ shown
      rcases reactorInit_cases I inst with ⟨absent, empty⟩ | ⟨t', exported, present, one⟩
      · simp only [Option.map_some, absent, empty, List.nil_append]
        exact init shown
      · simp only [Option.map_some, present, one, List.singleton_append]
        obtain ⟨answer, left⟩ := callInit_follows I (f := ⟨i, "_initialize", t'⟩) exported []
          shown
        rw [Service.calls_pair]
        rcases ran : Plugin.callInit G ⟨i, "_initialize", t'⟩ [] p with ⟨e | u, q⟩ <;>
          rcases same : S.calls [("_initialize", [])] a with ⟨e' | u', a'⟩ <;>
          rw [ran, same] at answer left <;> cases answer
        · exact ⟨congrArg Prod.fst (Prog.bind_error ran),
            by rw [Plugin.GuestRuntime.runInit, Prog.bind_error ran]; exact left⟩
        · have next := init left
          rw [Plugin.GuestRuntime.runInit, Prog.bind_ok ran]
          exact next
  | none =>
      cases ctors : S.exports "__wasm_call_ctors" with
      | some t =>
          cases unit : t.isUnit with
          | true =>
              simp only [Option.map_none, Option.map_some, unit, if_true]
              exact callInit_follows I (f := ⟨i, "__wasm_call_ctors", t⟩) ctors [] shown
          | false =>
              simp only [Option.map_none, Option.map_some, unit, Bool.false_eq_true, if_false]
              exact quiet
      | none =>
          rcases reactorInit_cases I inst with ⟨absent, empty⟩ | ⟨t', exported, present, one⟩
          · simp only [Option.map_none, absent, empty]
            exact quiet
          · simp only [Option.map_none, present, one, Option.map_some]
            exact callInit_follows I (f := ⟨i, "_initialize", t'⟩) exported [] shown

/-- The initialisation of a new instance. -/
theorem initialize_shows (I : G.Implements S rep) {i : ℕ} (inst : p.inst = some i)
    (reset : p.storeNeedsReset = false) (runtime : p.runtime = none) (shown : rep a p.guest)
    {stale : Bool} (cached : stale = false ↔ p.NoCachedError) :
    (Plugin.initializeGuestRuntime G i (p.detect G i)).1 = (S.calls S.initialisers a).1 ∧
      Desk.Shows rep ⟨some (S.calls S.initialisers a).2, stale⟩
        (Plugin.initializeGuestRuntime G i (p.detect G i)).2 := by
  obtain ⟨events, detected⟩ :
      ∃ events, p.detect G i = { p with runtime := p.guestRuntime G, events := events } := by
    rw [Plugin.detect]
    split
    case h_1 found => exact ⟨_, by rw [found]⟩
    case h_2 absent => exact ⟨p.events, by rw [absent, ← runtime]⟩
  generalize eq : ({ p with runtime := p.guestRuntime G, events := events } : Plugin σ) = q
    at detected
  have same : q.runtime = q.guestRuntime G := by
    rw [← eq]
    rfl
  obtain ⟨answer, left⟩ := runInit_follows I (p := q) (i := i) (by rw [← eq]; exact inst)
    (by rw [← eq]; exact shown)
  obtain ⟨m, g, life⟩ := runInit_sameLife (G := G) q (q.guestRuntime G) q ⟨q.kernel, q.guest, rfl⟩
  rw [life] at left
  rw [detected, Plugin.initializeGuestRuntime, Prog.bind_ok (Prog.get_apply q), same,
    Prog.bind_ok (Prog.attempt_apply _ q), Plugin.log, Prog.bind_ok (Prog.modify_apply _ _), life]
  refine ⟨answer, ?_⟩
  rw [← eq]
  refine ⟨reset, by simp, ?_, cached⟩
  rintro _ ⟨⟩
  exact ⟨Option.isSome_iff_exists.2 ⟨i, inst⟩, left⟩

theorem instantiate_shows (I : G.Implements S rep) (shown : d.Shows rep p) :
    (d.object = none ∧ (∃ e, (Plugin.instantiate G p).1 = .error e) ∧
        d.Shows rep (Plugin.instantiate G p).2) ∨
      (Plugin.instantiate G p).1 = (d.opened S).1 ∧
        Desk.Shows rep ⟨some (d.opened S).2, d.stale⟩ (Plugin.instantiate G p).2 := by
  rw [Plugin.instantiate, Prog.bind_ok (Prog.get_apply p), Prog.ite_apply]
  cases object : d.object with
  | some a =>
      obtain ⟨inst, held⟩ := shown.object a object
      rw [if_pos inst, Desk.opened, object]
      refine .inr ⟨rfl, shown.storeNeedsReset, by simp, ?_, shown.stale⟩
      rintro _ ⟨⟩
      exact ⟨inst, held⟩
  | none =>
      obtain ⟨inst, runtime⟩ := shown.blank object
      rw [inst, Option.isSome_none, if_neg (by decide), Plugin.instantiate.fresh, Desk.opened,
        object]
      rcases made : G.instantiate (p.guest, p.kernel) with ⟨e | u, s⟩
      · have failed : Plugin.onGuest G.instantiate p =
            (.error e, { p with guest := s.1, kernel := s.2 }) := by
          rw [Plugin.onGuest, Prog.zoom, made]
        rw [Prog.bind_error failed]
        exact .inl ⟨rfl, ⟨e, rfl⟩, shown.storeNeedsReset, fun _ => ⟨inst, runtime⟩,
          by simp [object], shown.stale⟩
      · have done : Plugin.onGuest G.instantiate p =
            (.ok (), { p with guest := s.1, kernel := s.2 }) := by
          rw [Plugin.onGuest, Prog.zoom, made]
        rw [Prog.bind_ok done, Prog.bind_ok (Prog.modify_apply _ _),
          Prog.bind_ok (detectGuestRuntime_eq G _ _)]
        exact .inr (initialize_shows I (p := { p with
          guest := s.1, kernel := s.2, inst := some p.instances, instances := p.instances + 1 })
          (i := p.instances) rfl shown.storeNeedsReset runtime (I.instantiate made) shown.stale)

/-! ## Errors reported -/

/-- A recorded message has a place and a length, unless it is empty. -/
theorem setError_ok {owner : Owner} {text : String} {m m' : Instance} {r : ℕ × ℕ}
    (ran : CurrentPlugin.setError owner text m = (.ok r, m')) :
    r.1 = 0 ∨ r.2 = 0 ↔ text = "" := by
  obtain ⟨handle, m₁, made, ran⟩ := Prog.bind_eq_ok ran
  obtain ⟨_, m₂, -, ran⟩ := Prog.bind_eq_ok ran
  obtain ⟨-, rfl⟩ := Prog.of_pure ran
  have length : text.toUTF8.size = 0 ↔ text = "" := String.utf8ByteSize_eq_zero_iff
  have place : handle.offset = 0 → text = "" := by
    intro zero
    by_contra nonempty
    obtain ⟨-, nonzero, -⟩ := CurrentPlugin.of_memoryNew (Utf8.toUTF8_ne_nil nonempty) made
    exact nonzero zero
  rw [← length] at place ⊢
  exact ⟨fun h => h.elim place fun zero => zero, .inr⟩

/-- An error is recorded: the object is the same. -/
theorem recordError_shows (shown : d.Shows rep p) (text : String) :
    ∃ stale, d.Marked text stale ∧ Desk.Shows rep ⟨d.object, stale⟩ (p.recordError text) := by
  rw [Plugin.recordError]
  rcases set : CurrentPlugin.setError p.owner text p.kernel with ⟨e | r, m⟩
  · have failed : Plugin.onKernel (CurrentPlugin.setError p.owner text) p =
        (.error e, { p with kernel := m }) := by
      rw [Plugin.onKernel, Prog.zoom, set]
    rw [failed]
    exact ⟨d.stale, .rfl d text, shown.storeNeedsReset, shown.blank, shown.object, shown.stale⟩
  · have done : Plugin.onKernel (CurrentPlugin.setError p.owner text) p =
        (.ok r, { p with kernel := m }) := by
      rw [Plugin.onKernel, Prog.zoom, set]
    rw [done]
    refine ⟨text != "", .inr rfl, shown.storeNeedsReset, shown.blank, shown.object, ?_⟩
    rw [bne_eq_false_iff_eq]
    exact (setError_ok set).symm

/-- `return_error`, where it returns: nothing is cached without an instance. -/
theorem returnError_shows (shown : d.Shows rep p) {text : String} {β : Type} {x : β}
    {r : β × Plugin σ} (returned : p.returnError text x = some r) :
    r.1 = x ∧ ∃ stale, d.Marked text stale ∧ (d.object = none → stale = d.stale) ∧
      Desk.Shows rep ⟨d.object, stale⟩ r.2 := by
  rw [Plugin.returnError] at returned
  cases object : d.object with
  | none =>
      obtain ⟨inst, -⟩ := shown.blank object
      rw [if_pos (by simp [inst])] at returned
      obtain rfl := Option.some.inj returned
      exact ⟨rfl, d.stale, .rfl d text, fun _ => rfl, object ▸ shown⟩
  | some a =>
      obtain ⟨inst, -⟩ := shown.object a object
      rw [if_neg (by simp [Option.isSome_iff_ne_none.1 inst])] at returned
      split at returned
      case isTrue =>
        obtain rfl := Option.some.inj returned
        obtain ⟨stale, marked, left⟩ := recordError_shows shown text
        exact ⟨rfl, stale, marked, by simp, object ▸ left⟩
      case isFalse => simp at returned

/-! ## Calls -/

/-- How `raw_call` gets on with a native call, and what it leaves. -/
inductive Desk.Ran (S : Service α) (d : Desk α) (name : String) (args : List Val) :
    Except Error (Except Error Unit × List Val) → Desk α → Prop
  | unavailable {e : Error} (blank : d.object = none) : Ran S d name args (.error e) d
  | uninitialised {e : Error} {a : α} (failed : d.opened S = (.error e, a)) :
      Ran S d name args (.error e) ⟨some a, d.stale⟩
  | missing {a : α} (opened : d.opened S = (.ok (), a)) (absent : S.exports name = none) :
      Ran S d name args (.error (.msg ("Function not found: " ++ name))) ⟨some a, d.stale⟩
  | failed {a : α} {t : FuncType} {e : Error} (opened : d.opened S = (.ok (), a))
      (found : S.exports name = some t) (ends : (S.call name args a).1 = .error e) :
      Ran S d name args (.ok (.error e, List.replicate t.results.length .null))
        ⟨some (S.call name args a).2, d.stale⟩
  | returned {a : α} {t : FuncType} {vs : List Val} (opened : d.opened S = (.ok (), a))
      (found : S.exports name = some t) (ends : (S.call name args a).1 = .ok vs) :
      Ran S d name args (.ok (.ok (), vs)) ⟨some (S.call name args a).2, d.stale⟩

/-- A function of the guest, called by `raw_call`. -/
theorem invoke_shows (I : G.Implements S rep) {c : Request} {f : Func} {stale : Bool}
    (shown : Desk.Shows rep ⟨some a, stale⟩ p) (found : S.exports f.name = some f.type) :
    let args := if c.useExtism then [] else c.params.getD []
    ∃ r p', rawCall.invoke G c f p = (.ok (rawCall.results f r), p') ∧
      r.map Subtype.val = (S.call f.name args a).1 ∧
        Desk.Shows rep ⟨some (S.call f.name args a).2, stale⟩ p' := by
  intro args
  obtain ⟨inst, held⟩ := shown.object a rfl
  obtain ⟨answer, left⟩ : (G.call f args (p.guest, p.kernel)).1.map Subtype.val =
      (S.call f.name args a).1 ∧ rep _ _ := I.call found held
  refine ⟨_, _, rfl, answer, shown.storeNeedsReset, by simp, ?_, shown.stale⟩
  rintro _ ⟨⟩
  exact ⟨inst, left⟩

/-- The function is there, or it is not. -/
theorem lookup_shows (I : G.Implements S rep) {c : Request} (native : c.useExtism = false)
    {stale : Bool} (shown : Desk.Shows rep ⟨some a, stale⟩ p) :
    (S.exports c.name = none ∧
        rawCall.lookup G c p = (.error (.msg ("Function not found: " ++ c.name)), p)) ∨
      ∃ f, f.name = c.name ∧ S.exports c.name = some f.type ∧
        rawCall.lookup G c p = (.ok f, p) := by
  obtain ⟨inst, -⟩ := shown.object a rfl
  obtain ⟨i, inst⟩ := Option.isSome_iff_exists.1 inst
  rw [rawCall.lookup, Prog.bind_ok (Prog.get_apply p), getFunc_eq I inst]
  cases S.exports c.name with
  | none => exact .inl ⟨rfl, rfl⟩
  | some t => exact .inr ⟨⟨i, c.name, t⟩, rfl, rfl, by simp [native]⟩

/-- **`raw_call`, natively.** -/
theorem run_shows (I : G.Implements S rep) (shown : d.Shows rep p) {c : Request}
    (native : c.useExtism = false) :
    ∃ d', Desk.Ran S d c.name (c.params.getD []) (rawCall.run G c p).1 d' ∧
      d'.Shows rep (rawCall.run G c p).2 := by
  have prepare : rawCall.prepare G c p = ((Plugin.instantiate G p).1.map fun _ => (),
      (Plugin.instantiate G p).2) := by
    rw [rawCall.prepare, if_neg (by simp [native]), if_neg (by simp [native]),
      Prog.bind_ok (Prog.attempt_apply _ p)]
    rcases made : Plugin.instantiate G p with ⟨e | u, q⟩
    · exact Prog.bind_error made
    · exact Prog.bind_ok made
  rcases instantiate_shows I shown with ⟨blank, ⟨e, failed⟩, left⟩ | ⟨opened, left⟩
  · rw [failed] at prepare
    rw [rawCall.run, Prog.bind_error prepare]
    exact ⟨d, .unavailable blank, left⟩
  · rcases made : d.opened S with ⟨e | u, a⟩ <;> rw [made] at opened left <;> rw [opened] at prepare
    · rw [rawCall.run, Prog.bind_error prepare]
      exact ⟨_, .uninitialised made, left⟩
    · rw [rawCall.run, Prog.bind_ok prepare]
      rcases lookup_shows I native left with ⟨absent, lost⟩ | ⟨f, named, found, looked⟩
      · rw [Prog.bind_error lost]
        exact ⟨_, .missing made absent, left⟩
      · rw [← named] at found
        obtain ⟨r, q, invoked, answer, shown⟩ := invoke_shows I (c := c) left found
        rw [Prog.bind_ok looked, Prog.bind_ok invoked, if_neg (by simp [native])]
        simp only [native, Bool.false_eq_true, if_false, named] at answer shown found
        cases r with
        | ok vs => exact ⟨_, .returned made found answer.symm, shown⟩
        | error e => exact ⟨_, .failed made found answer.symm, shown⟩

/-- What an entry point for Otoroshi does once its call was refused. -/
theorem native_of_error {name : String} {params : Option (List Val)} {e : Error} {rc : Int32}
    {q : Plugin σ} (ran : p.rawCall G ⟨name, some [], false, params⟩ = (.error (e, rc), q)) :
    wasmOtoroshiPluginCallNative G (.ok name) params p = q.returnError e.text none := by
  rw [wasmOtoroshiPluginCallNative, ran]

theorem native_of_ok {name : String} {params : Option (List Val)} {x : Int32}
    {results : List Val} {q : Plugin σ}
    (ran : p.rawCall G ⟨name, some [], false, params⟩ = (.ok (x, results), q)) :
    wasmOtoroshiPluginCallNative G (.ok name) params p = some (some results, q) := by
  rw [wasmOtoroshiPluginCallNative, ran]

/-- Only a WASI exit with code 0 is no error. -/
theorem exit_of_classify {rc rc' : Int32} {e : Error} (sorted : rawCall.classify rc e = .ok rc') :
    e.i32Exit = some 0 := by
  cases exit : e.i32Exit with
  | none =>
      obtain ⟨e', error⟩ := rawCall.classify_of_noExit exit rc
      simp [error] at sorted
  | some code =>
      by_cases zero : code = 0
      · rw [zero]
      · simp [rawCall.classify, exit, zero] at sorted

/-- A message that is found is not empty. -/
theorem message_ne_empty {x : String} (found : p.errorMessage = some (some x)) : x ≠ "" := by
  rintro rfl
  rw [Plugin.errorMessage] at found
  split at found
  case isTrue cached =>
    have bytes := Utf8.toUTF8_of_fromUTF8? (Option.some.inj found)
    have length := congrArg List.length bytes
    simp only [CurrentPlugin.memoryBytes, List.length_map, List.length_range] at length
    rw [Utf8.toList_eq] at length
    exact cached.2 length.symm
  case isFalse => simp at found

/-- What an error is reported as has a text, if the error has one. -/
theorem classify_text {e : Error} (exit : e.i32Exit = none) (rc : Int32) :
    ∃ e', rawCall.classify rc e = .error (e', rc) ∧ (e'.text = "" → e.text = "") := by
  simp only [rawCall.classify, exit]
  split
  · exact ⟨_, rfl, by simp [Error.msg]⟩
  · split
    case isTrue oom => exact ⟨_, rfl, by simp [Error.msg, oom]⟩
    case isFalse => exact ⟨_, rfl, id⟩

/-- What a message makes of the end of a call: an error, with a text unless the
call ended with one that has none. -/
theorem withMessage_text {message : Option String} (nonempty : message ≠ some "") (name : String)
    (res : Except Error Unit) :
    ∃ e, rawCall.withMessage name (some message) res = .error e ∧ e.i32Exit = none ∧
      (e.text = "" → ∃ e', res = .error e' ∧ e'.text = "") := by
  match message, res with
  | none, _ => exact ⟨_, rfl, rfl, fun none => by simp [Error.msg] at none⟩
  | some x, .error e => exact ⟨_, rfl, rfl, fun none => ⟨e, rfl, none⟩⟩
  | some x, .ok () => exact ⟨_, rfl, rfl, fun none => absurd (congrArg some none) nonempty⟩

/-- An error that is cached is reported for every function that ran. -/
theorem conclude_of_stale {c : Request} (shown : d.Shows rep p) (cached : d.stale = true)
    (ended : Except Error Unit × List Val) :
    ∃ e rc, rawCall.conclude c p.errorMessage ended = .error (e, rc) ∧
      (e.text = "" → ∃ e', ended.1 = .error e' ∧ e'.text = "") := by
  have message : p.errorMessage ≠ none := by
    rw [Ne, Plugin.errorMessage_eq_none, ← shown.stale, cached]
    decide
  obtain ⟨m, found⟩ := Option.ne_none_iff_exists'.1 message
  obtain ⟨e, failed, exit, text⟩ :=
    withMessage_text (fun empty => message_ne_empty (found.trans (congrArg some empty)) rfl)
      c.name ended.1
  obtain ⟨e', classified, text'⟩ := classify_text exit (rawCall.returnCode c.useExtism ended.2)
  refine ⟨e', rawCall.returnCode c.useExtism ended.2, ?_, fun none => text (text' none)⟩
  rw [rawCall.conclude, found]
  simp only [failed, classified]
  rfl

/-- An error of `raw_call` is reported, and left behind. -/
theorem refused_shows (shown : d.Shows rep q) {name : String} {params : Option (List Val)}
    {e : Error} {rc : Int32}
    (ran : p.rawCall G ⟨name, some [], false, params⟩ = (.error (e, rc), q))
    {r : Option (List Val) × Plugin σ}
    (called : wasmOtoroshiPluginCallNative G (.ok name) params p = some r) :
    r.1 = none ∧ ∃ stale, d.Marked e.text stale ∧ (d.object = none → stale = d.stale) ∧
      Desk.Shows rep ⟨d.object, stale⟩ r.2 := by
  rw [native_of_error ran] at called
  exact returnError_shows shown called

/-- A function that ran while an error was cached. -/
theorem withheld_shows {name : String} {params : Option (List Val)}
    (opened : d.opened S = (.ok (), a)) (found : (S.exports name).isSome)
    (cached : d.stale = true) {res : Except Error Unit} {results : List Val}
    (ends : ∀ e, res = .error e → (S.call name (params.getD []) a).1 = .error e)
    (shown : Desk.Shows rep ⟨some (S.call name (params.getD []) a).2, d.stale⟩ q)
    (ran : p.rawCall G ⟨name, some [], false, params⟩ =
      (rawCall.conclude ⟨name, some [], false, params⟩ q.errorMessage (res, results), q))
    {r : Option (List Val) × Plugin σ}
    (called : wasmOtoroshiPluginCallNative G (.ok name) params p = some r) :
    ∃ d', d.NativeCall S name (params.getD []) r.1 d' ∧ d'.Shows rep r.2 := by
  obtain ⟨e, rc, withheld, text⟩ := conclude_of_stale (c := ⟨name, some [], false, params⟩) shown
    cached (res, results)
  rw [withheld] at ran
  obtain ⟨answer, stale, marked, -, left⟩ := refused_shows shown ran called
  rw [answer]
  refine ⟨_, .withheld opened found cached fun none => ?_, left⟩
  -- what is cached now is the older error, or one without a text
  rcases marked with rfl | rfl
  · simp [cached] at none
  · obtain ⟨e', failed, empty⟩ := text (by simpa using none)
    exact ⟨e', ends e' failed, empty⟩

/-- **A native call.** -/
theorem native_shows (I : G.Implements S rep) (shown : d.Shows rep p) {name : String}
    {params : Option (List Val)} {r : Option (List Val) × Plugin σ}
    (called : wasmOtoroshiPluginCallNative G (.ok name) params p = some r) :
    ∃ d', d.NativeCall S name (params.getD []) r.1 d' ∧ d'.Shows rep r.2 := by
  obtain ⟨d', ran, left⟩ : ∃ d', Desk.Ran S d name (params.getD [])
      (rawCall.run G ⟨name, some [], false, params⟩ p).1 d' ∧
        d'.Shows rep (rawCall.run G ⟨name, some [], false, params⟩ p).2 :=
    run_shows I shown (c := ⟨name, some [], false, params⟩) rfl
  rcases run : rawCall.run G ⟨name, some [], false, params⟩ p with ⟨ended, q⟩
  rw [run] at ran left
  cases ran with
  | unavailable blank =>
      obtain ⟨answer, stale, -, quiet, left⟩ :=
        refused_shows left (rawCall_of_refused run).1 called
      rw [quiet blank] at left
      rw [answer]
      exact ⟨d, .unavailable blank, left⟩
  | uninitialised failed =>
      obtain ⟨answer, stale, marked, -, left⟩ :=
        refused_shows left (rawCall_of_refused run).1 called
      rw [answer]
      exact ⟨_, .uninitialised failed marked, left⟩
  | missing opened absent =>
      obtain ⟨answer, stale, marked, -, left⟩ :=
        refused_shows left (rawCall_of_refused run).1 called
      rw [answer]
      exact ⟨_, .missing opened absent marked, left⟩
  | @failed a t e opened found ends =>
      have some := Option.isSome_of_eq_some found
      have concluded := (rawCall_of_ended run).1
      cases cached : d.stale with
      | true =>
          refine withheld_shows opened some cached (fun e' eq => ?_) left concluded called
          rw [ends, Except.error.inj eq]
      | false =>
          rw [Plugin.errorMessage_eq_none.2 (left.stale.1 cached), rawCall.conclude,
            rawCall.withMessage_none] at concluded
          simp only [rawCall.returnCode] at concluded
          rw [cached] at left
          rcases sorted : rawCall.classify 0 e with ⟨e', rc⟩ | rc <;> rw [sorted] at concluded
          · obtain ⟨answer, stale, marked, -, left⟩ := refused_shows left concluded called
            rw [answer]
            exact ⟨_, .failed opened some cached ends sorted (by rwa [← cached] at marked), left⟩
          · rw [native_of_ok concluded] at called
            obtain rfl := Option.some.inj called
            exact ⟨_, .exited opened found cached ends (exit_of_classify sorted), left⟩
  | @returned a t vs opened found ends =>
      have some := Option.isSome_of_eq_some found
      have concluded := (rawCall_of_ended run).1
      cases cached : d.stale with
      | true =>
          refine withheld_shows opened some cached (fun e' eq => ?_) left concluded called
          simp at eq
      | false =>
          rw [Plugin.errorMessage_eq_none.2 (left.stale.1 cached), rawCall.conclude,
            rawCall.withMessage_none] at concluded
          rw [native_of_ok concluded] at called
          obtain rfl := Option.some.inj called
          rw [cached] at left
          exact ⟨_, .returned opened some cached ends, left⟩

/-- A name that is no string. -/
theorem unnamed_shows (shown : d.Shows rep p) {e : Error} {β : Type} {x : β} {r : β × Plugin σ}
    (returned : p.returnError e.text x = some r) :
    r.1 = x ∧ ∃ d', d.Unnamed e d' ∧ d'.Shows rep r.2 := by
  obtain ⟨answer, stale, marked, quiet, left⟩ := returnError_shows shown returned
  refine ⟨answer, _, ?_, left⟩
  cases object : d.object with
  | none =>
      rw [quiet object, ← object]
      exact .unavailable object
  | some a => exact .reported object marked

/-- **A call through an entry point for Otoroshi.** -/
theorem otoroshi_shows (I : G.Implements S rep) (shown : d.Shows rep p)
    {name : Except Error String} {params : Option (List Val)} {r : Option (List Val) × Plugin σ}
    (called : wasmOtoroshiPluginCallNative G name params p = some r) :
    ∃ d', d.Otoroshi S name params r.1 d' ∧ d'.Shows rep r.2 := by
  cases name with
  | error e =>
      obtain ⟨answer, d', unnamed, left⟩ := unnamed_shows shown called
      exact ⟨d', ⟨answer, unnamed⟩, left⟩
  | ok name => exact native_shows I shown called

/-! ### With `use_extism` -/

/-- The plugin has the object `a`, whatever is cached. -/
def Has (rep : α → σ → Prop) (a : α) (p : Plugin σ) : Prop :=
  ∃ stale, Desk.Shows rep ⟨some a, stale⟩ p

/-- Neither the kernel nor the cached output is part of the object. -/
theorem Has.touched (has : Has rep a p) (m : Instance) (o : Output) :
    Has rep a { p with kernel := m, output := o } := by
  obtain ⟨stale, shown⟩ := has
  refine ⟨!decide (o.errorOffset = 0 ∨ o.errorLength = 0), shown.storeNeedsReset, by simp,
    shown.object, ?_⟩
  rw [Bool.not_eq_false', decide_eq_true_eq]
  rfl

theorem Has.onKernel_keeps {β : Type} (x : KernelExec β) : Keeps (Has rep a) (Plugin.onKernel x) :=
  .zoom (fun p m has => has.touched m p.output) x

theorem Has.setInput_keeps (input : Option (List UInt8)) :
    Keeps (Has rep a) (Plugin.setInput input) := by
  refine Keeps.bind (.modify fun p has => has.touched p.kernel _) fun _ => ?_
  refine (onKernel_keeps _).bind fun _ => Keeps.bind (.modify fun p has => ?_) fun _ => ?_
  · obtain ⟨stale, shown⟩ := has
    exact ⟨stale, shown.storeNeedsReset, shown.blank, shown.object, shown.stale⟩
  · exact .bind .get fun _ => onKernel_keeps _

theorem Has.getOutputAfterCall_keeps : Keeps (Has rep a) Plugin.getOutputAfterCall :=
  (onKernel_keeps _).bind fun _ => (onKernel_keeps _).bind fun _ =>
    .modify fun p has => has.touched p.kernel _

theorem Has.returnError {β : Type} (has : Has rep a p) {text : String} {x : β}
    {r : β × Plugin σ} (returned : p.returnError text x = some r) : Has rep a r.2 := by
  obtain ⟨stale, shown⟩ := has
  obtain ⟨-, stale', -, -, left⟩ := returnError_shows shown returned
  exact ⟨stale', left⟩

/-- **`raw_call`, with `use_extism`**: refused without an object, refused with one,
or the function is called. -/
theorem extism_run (I : G.Implements S rep) (shown : d.Shows rep p) {c : Request}
    (extism : c.useExtism = true) :
    (d.object = none ∧ (∃ e, (rawCall.run G c p).1 = .error e) ∧
        d.Shows rep (rawCall.run G c p).2) ∨
      ((∃ e, (rawCall.run G c p).1 = .error e) ∧
        Has rep (d.opened S).2 (rawCall.run G c p).2) ∨
      ∃ a, d.opened S = (.ok (), a) ∧ (S.exports c.name).isSome ∧
        Has rep (S.call c.name [] a).2 (rawCall.run G c p).2 := by
  have unreset : Plugin.resetStore G p = (.ok (), p) := by
    rw [Plugin.resetStore, Prog.bind_ok (Prog.get_apply p), shown.storeNeedsReset]
    rfl
  rw [rawCall.run, rawCall.prepare, if_pos extism, if_pos extism, Prog.bind_bind,
    Prog.bind_ok (Prog.attempt_apply _ p), unreset, Prog.bind_bind]
  rcases made : Plugin.instantiate G p with ⟨e | u, q⟩
  · have failed := instantiate_shows I shown
    rw [made] at failed
    rw [Prog.bind_error made]
    rcases failed with ⟨blank, -, left⟩ | ⟨-, left⟩
    · exact .inl ⟨blank, ⟨e, rfl⟩, left⟩
    · exact .inr (.inl ⟨⟨e, rfl⟩, _, left⟩)
  · rcases instantiate_shows I shown with ⟨-, ⟨e, failed⟩, -⟩ | ⟨opened, left⟩
    · simp [made] at failed
    rw [made] at opened left
    have has : Has rep (d.opened S).2 q := ⟨_, left⟩
    have opened' : d.opened S = (.ok (), (d.opened S).2) := Prod.ext opened.symm rfl
    rw [Prog.bind_ok made]
    have kept := Has.setInput_keeps c.input q has
    rcases set : Plugin.setInput c.input q with ⟨e | u, q₁⟩ <;> rw [set] at kept
    · rw [Prog.bind_error set]
      exact .inr (.inl ⟨⟨e, rfl⟩, kept⟩)
    rw [Prog.bind_ok set]
    rcases looked : rawCall.lookup G c q₁ with ⟨e | f, q₂⟩
    · have kept' := lookup_keeps (I := Has rep (d.opened S).2) (G := G) c q₁ kept
      rw [looked] at kept'
      rw [Prog.bind_error looked]
      exact .inr (.inl ⟨⟨e, rfl⟩, kept'⟩)
    obtain ⟨rfl, named, found, -⟩ := of_lookup extism looked
    rw [I.exports, ← named] at found
    obtain ⟨stale, shown'⟩ := kept
    obtain ⟨r, q₃, invoked, -, left'⟩ := invoke_shows I (c := c) shown' found
    rw [if_pos extism, named] at left'
    rw [Prog.bind_ok looked, Prog.bind_ok invoked, if_pos extism]
    refine .inr (.inr ⟨_, opened', ?_, ?_⟩)
    · rw [← named, found]
      rfl
    · exact (Has.getOutputAfterCall_keeps.bind fun _ => .pure _) q₃ ⟨stale, left'⟩

/-- **A call through `extism_plugin_call`.** -/
theorem extism_shows (I : G.Implements S rep) (shown : d.Shows rep p) {name : String}
    {data : Option (List UInt8)} {r : Int32 × Plugin σ}
    (called : extismPluginCall G (.ok name) data p = some r) :
    ∃ d', d.ExtismCall S name r.1 d' ∧ d'.Shows rep r.2 := by
  have ran := extism_run I shown (c := ⟨name, data, true, none⟩) rfl
  rcases run : rawCall.run G ⟨name, data, true, none⟩ p with ⟨e | ⟨res, results⟩, q⟩ <;>
    rw [run] at ran
  · rw [extismPluginCall, (rawCall_of_refused run).1] at called
    have answer := (Plugin.of_returnError called).2.1
    rcases ran with ⟨blank, -, left⟩ | ⟨-, has⟩ | ⟨a, opened, found, has⟩
    · obtain ⟨-, stale, -, quiet, left⟩ := returnError_shows left called
      rw [quiet blank] at left
      exact ⟨d, answer ▸ .unavailable blank, left⟩
    · obtain ⟨stale, left⟩ := has.returnError called
      exact ⟨_, answer ▸ .refused rfl, left⟩
    · obtain ⟨stale, left⟩ := has.returnError called
      exact ⟨_, .ran opened found, left⟩
  · obtain ⟨a, opened, found, has⟩ : ∃ a, d.opened S = (.ok (), a) ∧ (S.exports name).isSome ∧
        Has rep (S.call name [] a).2 q := by
      rcases ran with ⟨-, ⟨e, bad⟩, -⟩ | ⟨⟨e, bad⟩, -⟩ | ran
      · simp at bad
      · simp at bad
      · exact ran
    rw [extismPluginCall, (rawCall_of_ended run).1] at called
    rcases verdict : rawCall.conclude ⟨name, data, true, none⟩ q.errorMessage (res, results)
      with ⟨e, rc⟩ | ⟨x, rest⟩ <;> rw [verdict] at called
    · obtain ⟨stale, left⟩ := has.returnError called
      exact ⟨_, .ran opened found, left⟩
    · obtain rfl := Option.some.inj called
      obtain ⟨stale, left⟩ := has
      exact ⟨_, .ran opened found, left⟩

/-- **A call through any entry point.** -/
theorem answers_shows (I : G.Implements S rep) (shown : d.Shows rep p) {x : Entry}
    {r : Report × Plugin σ} (called : x.call G p = some r) :
    ∃ d', d.Answers S x r.1 d' ∧ d'.Shows rep r.2 := by
  cases x with
  | extismPluginCall name data =>
      obtain ⟨⟨rc, q⟩, ran, rfl⟩ := Option.map_eq_some_iff.1 called
      cases name with
      | error e =>
          obtain ⟨answer, d', unnamed, left⟩ := unnamed_shows shown ran
          exact ⟨d', ⟨congrArg _ answer, unnamed⟩, left⟩
      | ok name =>
          obtain ⟨d', answers, left⟩ := extism_shows I shown ran
          exact ⟨d', ⟨_, rfl, answers⟩, left⟩
  | wasmOtoroshiCall name params =>
      obtain ⟨⟨vs, q⟩, ran, rfl⟩ := Option.map_eq_some_iff.1 called
      obtain ⟨d', answers, left⟩ := otoroshi_shows I shown ran
      exact ⟨d', ⟨_, rfl, answers⟩, left⟩
  | wasmPluginCallWithoutParams name =>
      obtain ⟨⟨vs, q⟩, ran, rfl⟩ := Option.map_eq_some_iff.1 called
      obtain ⟨d', answers, left⟩ := otoroshi_shows I shown ran
      exact ⟨d', ⟨_, rfl, answers⟩, left⟩
  | wasmPluginCallWithoutResults name params =>
      obtain ⟨_, back, rfl⟩ := Option.map_eq_some_iff.1 called
      obtain ⟨⟨vs, q⟩, ran, rfl⟩ := Option.map_eq_some_iff.1 back
      obtain ⟨d', answers, left⟩ := otoroshi_shows I shown ran
      exact ⟨d', ⟨rfl, _, answers⟩, left⟩

end Opening

/-! ## Runs -/

/-- `extism_plugin_reset`; `none` is a crash, since a failure goes into the
kernel's memory through the pointers of `CurrentPlugin`. -/
def extismPluginReset (p : Plugin σ) : Option (Bool × Plugin σ) :=
  match Plugin.onKernel CurrentPlugin.reset p with
  | (.ok (), p) => some (true, p)
  | (.error e, p) =>
      if p.linked then some (false, (Plugin.onKernel (CurrentPlugin.setError p.owner e.text) p).2)
      else none

/-- The runs of a new plugin, through operations that return. -/
def useRuns (G : Guest σ) : TransitionSystem (Plugin σ) Use where
  init := Plugin.New
  step p u q :=
    match u with
    | .call x r => x.call G p = some (r, q)
    | .reset done => extismPluginReset p = some (done, q)

section Runs

variable {G : Guest σ} {S : Service α} {rep : α → σ → Prop} {p q : Plugin σ} {d d' : Desk α}

theorem shows_of_new (new : p.New) : Desk.Shows rep ⟨none, false⟩ p where
  storeNeedsReset := new.storeNeedsReset
  blank _ := ⟨new.inst, new.runtime⟩
  object := by simp
  stale := by simp [Plugin.NoCachedError, new.output, Output.default]

theorem onKernel_shows {β : Type} (shown : d.Shows rep p) (x : KernelExec β) :
    d.Shows rep (Plugin.onKernel x p).2 :=
  ⟨shown.storeNeedsReset, shown.blank, shown.object, shown.stale⟩

theorem reset_shows (shown : d.Shows rep p) {done : Bool}
    (reset : extismPluginReset p = some (done, q)) : d.Shows rep q := by
  have left := onKernel_shows shown CurrentPlugin.reset
  rw [extismPluginReset] at reset
  rcases ran : Plugin.onKernel CurrentPlugin.reset p with ⟨e | u, p₁⟩ <;> rw [ran] at left reset
  · simp only at reset
    split at reset
    case isTrue =>
      obtain ⟨-, rfl⟩ := Prod.mk.inj (Option.some.inj reset)
      exact onKernel_shows left _
    case isFalse => simp at reset
  · obtain ⟨-, rfl⟩ := Prod.mk.inj (Option.some.inj reset)
    exact left

/-- **A step** of the plugin is one of its desk. -/
theorem use_shows (I : G.Implements S rep) {u : Use} (shown : d.Shows rep p)
    (step : (useRuns G).step p u q) : ∃ d', S.runs.step d u d' ∧ d'.Shows rep q := by
  cases u with
  | call x r =>
      obtain ⟨d', answers, left⟩ := answers_shows I shown step
      exact ⟨d', answers, left⟩
  | reset done => exact ⟨d, rfl, reset_shows shown step⟩

end Runs

/-- The number a function is given. -/
def counter.addend : List Val → Int32
  | [.i32 x] => x
  | _ => 0

/-- A number that can be asked for, and added to. -/
def counter : Service Int32 where
  exports := fun name =>
    if name = "get" then some ⟨[], [.i32]⟩
    else if name = "add" then some ⟨[.i32], [.i32]⟩
    else none
  start := 0
  call := fun _ args a => (.ok [.i32 (a + counter.addend args)], a + counter.addend args)

/-- A guest that keeps the number. -/
def counting : Guest Int32 where
  exports := counter.exports
  relink := pure ()
  instantiate := Prog.modify fun s => (0, s.2)
  call := fun f args => do
    Prog.modify fun s => (s.1 + counter.addend args, s.2)
    let s ← Prog.get
    if one : f.type.results = [.i32] then pure ⟨[.i32 s.1], by rw [one]; rfl⟩
    else Prog.fail (.ofFault .trap)

theorem counter.results_of_exports {name : String} {t : FuncType}
    (exported : counter.exports name = some t) : t.results = [.i32] := by
  simp only [counter] at exported
  split at exported
  case isTrue => exact Option.some.inj exported ▸ rfl
  case isFalse =>
    split at exported
    case isTrue => exact Option.some.inj exported ▸ rfl
    case isFalse => simp at exported

theorem counting_implements : counting.Implements counter fun a g => g = a where
  exports := rfl
  instantiate := by
    rintro g m s ⟨⟩
    rfl
  call := by
    rintro f args a g m exported rfl
    have one := counter.results_of_exports exported
    have run : counting.call f args (g, m) =
        (.ok ⟨[.i32 (g + counter.addend args)], by rw [one]; rfl⟩,
          (g + counter.addend args, m)) := by
      simp only [counting]
      rw [Prog.bind_ok (Prog.modify_apply _ _), Prog.bind_ok (Prog.get_apply _), dif_pos one]
      rfl
    rw [run]
    exact ⟨rfl, rfl⟩

/-- The counter's plugin after a call that returns. -/
def Plugin.afterCall (p : Plugin Int32) (x : Entry) : Plugin Int32 :=
  ((x.call counting p).map Prod.snd).getD p

theorem Plugin.step_afterCall {p : Plugin Int32} {x : Entry} {r : Report}
    (seen : (x.call counting p).map Prod.fst = some r) :
    (useRuns counting).step p (.call x r) (p.afterCall x) := by
  obtain ⟨r', called, rfl⟩ := Option.map_eq_some_iff.1 seen
  change x.call counting p = some (r'.1, p.afterCall x)
  rw [afterCall, called]
  rfl

end Extism.Runtime
