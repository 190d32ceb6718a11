import Extism.Runtime.Sdk

/-!
# A plugin is one object for life

A guest module implements an object: instantiated, it holds a state, and its
functions read and change it.  The store is never replaced, so this object is
made once, by the first call that gets that far, and no call that fails takes it
away.  `Service` is the object, apart from any memory; `Desk` is what a caller
can tell of a plugin, the object and whether an error is cached.

`NativeCall` is what the entry points for Otoroshi do with a desk.  An error that an
earlier call left behind withholds the results of a call, not its effect: the
function has run, and the caller is told that it failed.

The three kinds of calls differ in what they do to the cached error: one through
`extism_plugin_call` clears it with its input, a native one is reported as
failed because of it, and a name that is no string only adds to it.

## Main definitions

* `Service`, `Service.boot` — an object with its calls, and a new one, initialised as
  far as that goes.
* `Desk`, `Desk.opened` — what a caller can tell of a plugin, and the object made if
  there is none.
* `Desk.NativeCall`, `Desk.ExtismCall`, `Desk.Unnamed` — the calls.
* `Use`, `Service.runs` — what is done with a plugin, and the runs of a desk.

## Main results

* `step_of_stale` — nothing but `extism_plugin_call` gets past an error that is
  cached.
-/

namespace Extism.Runtime

/-- An object, and what can be done with it: a call returns values or fails, and
may change the object either way. -/
structure Service (α : Type) where
  exports : String → Option FuncType
  start : α
  call : String → List Val → α → Except Error (List Val) × α

namespace Service

variable {α : Type} (S : Service α)

/-- `_initialize`, if it takes and returns nothing. -/
def reactorInit : List (String × List Val) :=
  if (S.exports "_initialize").any FuncType.isUnit then [("_initialize", [])] else []

/-- The calls that initialise the guest runtime, in order. -/
def initialisers : List (String × List Val) :=
  match S.exports "hs_init", S.exports "__wasm_call_ctors" with
  | some _, _ => S.reactorInit ++ [("hs_init", [.i32 0, .i32 0])]
  | none, some t => if t.isUnit then [("__wasm_call_ctors", [])] else []
  | none, none => S.reactorInit

/-- Calls made one after the other, up to one that fails. -/
def calls : List (String × List Val) → α → Except Error Unit × α
  | [], a => (.ok (), a)
  | c :: rest, a =>
      match S.call c.1 c.2 a with
      | (.ok _, a) => calls rest a
      | (.error e, a) => (.error e, a)

/-- A new object, initialised as far as that goes. -/
def boot : Except Error Unit × α := S.calls S.initialisers S.start

end Service

/-- What a caller can tell of a plugin: its object, once there is one, and
whether an error is cached. -/
structure Desk (α : Type) where
  object : Option α
  stale : Bool
  deriving DecidableEq

namespace Desk

variable {α : Type} (S : Service α) (d : Desk α)

/-- The object, made if there is none. -/
def opened : Except Error Unit × α := d.object.elim S.boot fun a => (.ok (), a)

/-- What is cached once an error is reported: the error, unless it is empty or
there is no memory for it. -/
def Marked (text : String) (stale : Bool) : Prop := stale = d.stale ∨ stale = (text != "")

/-- **A call through an entry point for Otoroshi**: what is answered, and what
it leaves. -/
inductive NativeCall (name : String) (params : List Val) : Option (List Val) → Desk α → Prop
  /-- The module cannot be instantiated; nothing has happened. -/
  | unavailable (blank : d.object = .none) : NativeCall name params none d
  /-- The object is made, and an initialiser fails. -/
  | uninitialised {e : Error} {a : α} {stale : Bool} (failed : d.opened S = (.error e, a))
      (marked : d.Marked e.text stale) : NativeCall name params none ⟨some a, stale⟩
  | missing {a : α} {stale : Bool} (opened : d.opened S = (.ok (), a))
      (absent : S.exports name = none)
      (marked : d.Marked ("Function not found: " ++ name) stale) :
      NativeCall name params none ⟨some a, stale⟩
  /-- The function runs; an older error is reported for it, and stays. -/
  | withheld {a : α} {stale : Bool} (opened : d.opened S = (.ok (), a))
      (found : (S.exports name).isSome) (cached : d.stale = true)
      (stays : stale = false → ∃ e, (S.call name params a).1 = .error e ∧ e.text = "") :
      NativeCall name params none ⟨some (S.call name params a).2, stale⟩
  /-- The function runs, and fails. -/
  | failed {a : α} {stale : Bool} {e e' : Error} {rc : Int32} (opened : d.opened S = (.ok (), a))
      (found : (S.exports name).isSome) (clean : d.stale = false)
      (ends : (S.call name params a).1 = .error e)
      (reported : rawCall.classify 0 e = .error (e', rc)) (marked : d.Marked e'.text stale) :
      NativeCall name params none ⟨some (S.call name params a).2, stale⟩
  /-- The function runs, and leaves by a WASI exit with code 0. -/
  | exited {a : α} {t : FuncType} {e : Error} (opened : d.opened S = (.ok (), a))
      (found : S.exports name = some t) (clean : d.stale = false)
      (ends : (S.call name params a).1 = .error e) (code : e.i32Exit = some 0) :
      NativeCall name params (some (List.replicate t.results.length .null))
        ⟨some (S.call name params a).2, false⟩
  /-- The function runs and returns. -/
  | returned {a : α} {vs : List Val} (opened : d.opened S = (.ok (), a))
      (found : (S.exports name).isSome) (clean : d.stale = false)
      (ends : (S.call name params a).1 = .ok vs) :
      NativeCall name params (some vs) ⟨some (S.call name params a).2, false⟩

/-- **A call through `extism_plugin_call`**, as far as the object goes; the
functions called that way take no parameters, and what was cached before is
forgotten. -/
inductive ExtismCall (name : String) : Int32 → Desk α → Prop
  | unavailable (blank : d.object = .none) : ExtismCall name (-1) d
  | refused {r : Except Error Unit} {a : α} {stale : Bool} (opened : d.opened S = (r, a)) :
      ExtismCall name (-1) ⟨some a, stale⟩
  | ran {a : α} {rc : Int32} {stale : Bool} (opened : d.opened S = (.ok (), a))
      (found : (S.exports name).isSome) : ExtismCall name rc ⟨some (S.call name [] a).2, stale⟩

/-- A name that is no string is reported, and that is all. -/
inductive Unnamed (e : Error) : Desk α → Prop
  | unavailable (blank : d.object = .none) : Unnamed e d
  | reported {a : α} {stale : Bool} (some : d.object = some a) (marked : d.Marked e.text stale) :
      Unnamed e ⟨.some a, stale⟩

/-- The same for a name that may be no string. -/
def Otoroshi (name : Except Error String) (params : Option (List Val))
    (answer : Option (List Val)) (d' : Desk α) : Prop :=
  match name with
  | .error e => answer = none ∧ d.Unnamed e d'
  | .ok name => d.NativeCall S name (params.getD []) answer d'

/-- A call through any entry point, with what the caller gets to see. -/
def Answers (x : Entry) (r : Report) (d' : Desk α) : Prop :=
  match x with
  | .extismPluginCall (.error e) _ => r = .status (-1) ∧ d.Unnamed e d'
  | .extismPluginCall (.ok name) _ => ∃ rc, r = .status rc ∧ d.ExtismCall S name rc d'
  | .wasmOtoroshiCall name params => ∃ vs, r = .values vs ∧ d.Otoroshi S name params vs d'
  | .wasmPluginCallWithoutParams name => ∃ vs, r = .values vs ∧ d.Otoroshi S name none vs d'
  | .wasmPluginCallWithoutResults name params =>
      r = .nothing ∧ ∃ vs, d.Otoroshi S name params vs d'

end Desk

/-! ## Runs -/

/-- What is done with a plugin, and what the caller gets to see. -/
inductive Use
  | call (x : Entry) (r : Report)
  | reset (done : Bool)

variable {α : Type}

/-- The runs of a desk. -/
def Service.runs (S : Service α) : TransitionSystem (Desk α) Use where
  init d := d = ⟨none, false⟩
  step d u d' :=
    match u with
    | .call x r => d.Answers S x r d'
    | .reset _ => d' = d

/-- No error has an empty text. -/
def Service.Speaks (S : Service α) : Prop :=
  ∀ name params a e, (S.call name params a).1 = .error e → e.text ≠ ""

/-- No call through `extism_plugin_call`, and none under a name that is no
string. -/
def Use.Native : Use → Prop
  | .reset _ => True
  | .call (.wasmOtoroshiCall (.ok _) _) _ => True
  | .call (.wasmPluginCallWithoutParams (.ok _)) _ => True
  | .call (.wasmPluginCallWithoutResults (.ok _) _) _ => True
  | _ => False

/-- No results are seen. -/
def Use.Empty : Use → Prop
  | .call _ r => r = .values none ∨ r = .nothing
  | .reset _ => True

section Runs

variable {S : Service α} {d d' : Desk α}

theorem Service.calls_singleton (S : Service α) (name : String) (params : List Val) (a : α) :
    S.calls [(name, params)] a =
      ((S.call name params a).1.map fun _ => (), (S.call name params a).2) := by
  rw [Service.calls]
  rcases S.call name params a with ⟨e | vs, a'⟩ <;> rfl

theorem Service.calls_pair (S : Service α) (c c' : String × List Val) (a : α) :
    S.calls [c, c'] a =
      match S.calls [c] a with
      | (.ok (), a) => S.calls [c'] a
      | (.error e, a) => (.error e, a) := by
  rw [Service.calls, Service.calls_singleton]
  rcases S.call c.1 c.2 a with ⟨e | vs, a'⟩ <;> rfl

theorem Desk.Marked.rfl (d : Desk α) (text : String) : d.Marked text d.stale := .inl (.refl _)

/-! ### An error that is cached -/

theorem Service.text_of_calls (speaks : S.Speaks) {cs : List (String × List Val)} {a a' : α}
    {e : Error} (failed : S.calls cs a = (.error e, a')) : e.text ≠ "" := by
  induction cs generalizing a with
  | nil => simp [Service.calls] at failed
  | cons c cs ih =>
      rw [Service.calls] at failed
      split at failed
      case h_1 => exact ih failed
      case h_2 ran =>
        obtain ⟨⟨rfl⟩, -⟩ := Prod.mk.inj failed
        exact speaks _ _ _ _ (congrArg Prod.fst ran)

theorem native_of_stale (speaks : S.Speaks) (cached : d.stale = true) {name : String}
    {params : List Val} {r : Option (List Val)} (called : d.NativeCall S name params r d') :
    r = none ∧ d'.stale = true := by
  have stays : ∀ {text : String} {stale : Bool},
      d.Marked text stale → text ≠ "" → stale = true := by
    rintro text stale (rfl | rfl) some
    · exact cached
    · simpa using some
  cases called with
  | unavailable => exact ⟨rfl, cached⟩
  | @uninitialised e a stale failed marked =>
      refine ⟨rfl, stays marked ?_⟩
      rw [Desk.opened] at failed
      cases object : d.object with
      | none =>
          rw [object] at failed
          exact S.text_of_calls speaks failed
      | some a => simp [object] at failed
  | missing opened absent marked => exact ⟨rfl, stays marked (by simp)⟩
  | @withheld a stale opened found cached' kept =>
      refine ⟨rfl, ?_⟩
      by_contra clean
      obtain ⟨e, ends, empty⟩ := kept (by simpa using clean)
      exact speaks _ _ _ _ ends empty
  | failed _ _ clean => simp [clean] at cached
  | exited _ _ clean => simp [clean] at cached
  | returned _ _ clean => simp [clean] at cached

/-- **Nothing but `extism_plugin_call` gets past an error that is cached.** -/
theorem step_of_stale (speaks : S.Speaks) (cached : d.stale = true) {u : Use} (native : u.Native)
    (step : S.runs.step d u d') : u.Empty ∧ d'.stale = true := by
  match u with
  | .reset done =>
      obtain rfl := step
      exact ⟨trivial, cached⟩
  | .call (.extismPluginCall _ _) r => exact native.elim
  | .call (.wasmOtoroshiCall (.ok _) _) r | .call (.wasmPluginCallWithoutParams (.ok _)) r =>
      obtain ⟨vs, rfl, called⟩ := step
      obtain ⟨rfl, left⟩ := native_of_stale speaks cached called
      exact ⟨.inl rfl, left⟩
  | .call (.wasmPluginCallWithoutResults (.ok _) _) r =>
      obtain ⟨rfl, vs, called⟩ := step
      exact ⟨.inr rfl, (native_of_stale speaks cached called).2⟩

theorem empty_of_stale (speaks : S.Speaks) {us : List Use} (run : S.runs.Steps d us d')
    (cached : d.stale = true) (native : ∀ u ∈ us, u.Native) : ∀ u ∈ us, u.Empty := by
  induction run with
  | nil => simp
  | cons head _ ih =>
      obtain ⟨here, rest⟩ := List.forall_mem_cons.1 native
      obtain ⟨empty, cached⟩ := step_of_stale speaks cached here head
      exact List.forall_mem_cons.2 ⟨empty, ih cached rest⟩

end Runs

end Extism.Runtime
