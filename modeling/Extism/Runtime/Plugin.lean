import Extism.Runtime.CurrentPlugin
import Extism.Runtime.Timer

/-!
# Plugins

A plugin owns a kernel instance and at most one instance of its guest module.
The guest is a parameter: a `Guest σ` says what instantiating the module and
calling its exports does to the guest's own state `σ` and to the kernel's
memory.  Nothing is assumed about it, so a statement for all guests covers
every way a call can end.

Two components of a plugin are not in the source.  `instances` counts the
instances made, so that an instance has a name; `events` lists what was done
with the guest, the latest first, and no code reads it.

## The pointers of `CurrentPlugin`

`CurrentPlugin` has pointers to the store and the linker of its plugin, and goes
through them to the kernel.  `build_new` points them at a plugin that it then
moves to the caller, so that they dangle; `set_input` and `reset_store` point
them at the right place.  `linked` tells whether one of them has.  Until then
`return_error` on a plugin with an instance is a crash of the process, the
`none` of `returnError`.  A function of the development kit that the guest calls
before is one too; this is the guest's call not coming back, and no outcome of
`Guest.call`.

## Main definitions

* `Guest` — a guest module, by what the host can do with it.
* `Plugin`, `Plugin.New`, `Plugin.Connected` — a plugin, one as `Plugin::new`
  leaves it, and one whose pointers may be followed.
* `Plugin.instantiate`, `Plugin.setInput`, `Plugin.getOutputAfterCall` — the
  steps of a call.
* `rawCall.prepare`, `rawCall.run`, `rawCall.conclude` — `raw_call` in three
  parts: reset, instantiate and set the input; find the function, call it between
  the two messages to the timer and fetch the output; decide what is reported.
* `Plugin.returnError` — what an entry point does with an error.

## Main results

* `rawCall.classify_of_noExit`, `rawCall.withMessage_of_some` — what an error and a
  message make of the end of a call.
* `Plugin.of_returnError` — the plugin `return_error` leaves behind.
-/

namespace Extism.Runtime

open Kernel (Instance)

/-- A guest module, by what the host can do with it. -/
structure Guest (σ : Type) where
  /-- The exported functions. -/
  exports : String → Option FuncType
  /-- A new store with every module linked anew, for `reset_store`. -/
  relink : Prog (σ × Instance) Error Unit
  /-- `InstancePre::instantiate`, which runs a start function. -/
  instantiate : Prog (σ × Instance) Error Unit
  /-- `Func::call`. -/
  call : (f : Func) → List Val → Prog (σ × Instance) Error (Results f.type.results)

/-- A guest whose exports return zeros, except those that trap. -/
def Guest.scripted (exports : List (String × FuncType)) (traps : List String) : Guest Unit where
  exports := fun name => exports.lookup name
  relink := pure ()
  instantiate := pure ()
  call := fun f _ =>
    if f.name ∈ traps then Prog.fail (.ofFault .trap) else pure (.zero f.type.results)

/-- Runtimes that need initialisation before the guest is called. -/
inductive GuestRuntime
  | haskell (init : Func) (reactorInit : Option Func)
  | wasi (init : Func)

/-- Where the output and the error of the last call are. -/
structure Output where
  offset : ℕ
  length : ℕ
  errorOffset : ℕ
  errorLength : ℕ
  deriving DecidableEq, Repr

/-- `Output::default`. -/
def Output.default : Output := ⟨0, 0, 0, 0⟩

/-- What was done with the guest. -/
inductive Event
  /-- A guest runtime was detected for an instance. -/
  | detected (inst : ℕ)
  /-- `initialize_guest_runtime` ended on an instance: did it succeed? -/
  | initialized (inst : ℕ) (ok : Bool)
  /-- `raw_call` called a function of an instance. -/
  | invoked (inst : ℕ) (name : String)
  /-- A message was sent to the timer thread. -/
  | sent (x : TimerAction ℕ ℕ)
  deriving DecidableEq

/-- A plugin. -/
structure Plugin (σ : Type) where
  id : ℕ
  engine : ℕ
  timeoutMs : Option ℕ
  kernel : Instance
  guest : σ
  /-- The current instance, under its name. -/
  inst : Option ℕ
  runtime : Option GuestRuntime
  output : Output
  storeNeedsReset : Bool
  /-- `CurrentPlugin` points to the store and the linker of this plugin. -/
  linked : Bool
  /-- Whether the kernel's `n`-th `memory.grow` is refused by `MemoryLimiter`, if
  it is refused. -/
  limits : ℕ → Bool
  instances : ℕ
  events : List Event

namespace Plugin

variable {σ : Type}

/-- A plugin as `Plugin::new` leaves it. -/
structure New (p : Plugin σ) : Prop where
  inst : p.inst = none
  runtime : p.runtime = none
  output : p.output = .default
  storeNeedsReset : p.storeNeedsReset = false
  linked : p.linked = false
  events : p.events = []

/-- A plugin that has not been called: its kernel has a page of memory. -/
def fresh (guest : σ) : Plugin σ where
  id := 0
  engine := 0
  timeoutMs := none
  kernel := .fresh 1 fun _ => true
  guest := guest
  inst := none
  runtime := none
  output := .default
  storeNeedsReset := false
  linked := false
  limits := fun _ => false
  instances := 0
  events := []

theorem new_fresh (guest : σ) : (fresh guest).New := ⟨rfl, rfl, rfl, rfl, rfl, rfl⟩

/-- Whose memory the kernel's is. -/
def owner (p : Plugin σ) : Owner := ⟨toString p.id, p.limits⟩

/-- A computation on the kernel of a plugin. -/
def onKernel {α : Type} (x : KernelExec α) : Prog (Plugin σ) Error α :=
  x.zoom (fun p => p.kernel) fun p m => { p with kernel := m }

/-- A computation on the guest's state and the kernel. -/
def onGuest {α : Type} (x : Prog (σ × Instance) Error α) : Prog (Plugin σ) Error α :=
  x.zoom (fun p => (p.guest, p.kernel)) fun p s => { p with guest := s.1, kernel := s.2 }

/-- Note what was done. -/
def log {ε : Type} (e : Event) : Prog (Plugin σ) ε Unit :=
  Prog.modify fun p => { p with events := e :: p.events }

variable (G : Guest σ)

/-- `get_func`: an export of the current instance. -/
def getFunc (p : Plugin σ) (name : String) : Option Func :=
  p.inst.bind fun i => (G.exports name).map fun t => ⟨i, name, t⟩

/-- The store is replaced, and with it the instance. -/
def resetStore : Prog (Plugin σ) Error Unit := do
  let p ← Prog.get
  if p.storeNeedsReset then do
    onGuest G.relink
    Prog.modify fun p => { p with inst := none, storeNeedsReset := false, linked := true }
  else pure ()

/-! ### The guest runtime -/

/-- `_initialize`, if it takes and returns nothing. -/
def reactorInit (p : Plugin σ) : Option Func :=
  (p.getFunc G "_initialize").filter fun init => init.type.isUnit

/-- The runtime `detect_guest_runtime` finds.  A `__wasm_call_ctors` of another
type keeps `_initialize` from being tried. -/
def guestRuntime (p : Plugin σ) : Option GuestRuntime :=
  match p.getFunc G "hs_init" with
  | some init => some (.haskell init (p.reactorInit G))
  | none =>
    match p.getFunc G "__wasm_call_ctors" with
    | some init => if init.type.isUnit then some (.wasi init) else none
    | none => (p.reactorInit G).map .wasi

/-- `detect_guest_runtime`: a runtime that is not found leaves the old one. -/
def detectGuestRuntime (i : ℕ) : Prog (Plugin σ) Error Unit := do
  let p ← Prog.get
  match p.guestRuntime G with
  | some runtime => do
      Prog.modify fun p => { p with runtime := some runtime }
      log (.detected i)
  | none => pure ()

/-- Call an initialiser; its results are dropped. -/
def callInit (init : Func) (params : List Val) : Prog (Plugin σ) Error Unit := do
  let _ ← onGuest (G.call init params)
  pure ()

/-- The calls `initialize_guest_runtime` makes. -/
def GuestRuntime.runInit : Option GuestRuntime → Prog (Plugin σ) Error Unit
  | none => pure ()
  | some (.haskell init none) => callInit G init [.i32 0, .i32 0]
  | some (.haskell init (some reactorInit)) => do
      callInit G reactorInit []
      callInit G init [.i32 0, .i32 0]
  | some (.wasi init) => callInit G init []

/-- `initialize_guest_runtime`. -/
def initializeGuestRuntime (i : ℕ) : Prog (Plugin σ) Error Unit := do
  let p ← Prog.get
  let r ← (GuestRuntime.runInit G p.runtime).attempt
  log (.initialized i r.isOk)
  Prog.ofExcept r

/-- The part of `instantiate` that runs when there is no instance.  The instance
is stored before its runtime is initialised. -/
def instantiate.fresh (i : ℕ) : Prog (Plugin σ) Error Unit := do
  onGuest G.instantiate
  Prog.modify fun p => { p with inst := some i, instances := i + 1 }
  detectGuestRuntime G i
  initializeGuestRuntime G i

/-- `instantiate`. -/
def instantiate : Prog (Plugin σ) Error Unit := do
  let p ← Prog.get
  if p.inst.isSome then pure () else instantiate.fresh G p.instances

/-! ### Input and output -/

/-- What `set_input` does to the kernel: no error, no blocks, then the input in
a block of its own.  A null pointer is an empty input. -/
def setInput.kernel (owner : Owner) (input : Option (List UInt8)) : KernelExec Unit := do
  CurrentPlugin.reset
  let bytes := input.getD []
  let handle ← CurrentPlugin.memoryNew owner bytes
  callKernel (Kernel.inputSet handle.offset bytes.length)

/-- `set_input`.  The error is cleared through the plugin's own linker, and then
the pointers of `CurrentPlugin` are set. -/
def setInput (input : Option (List UInt8)) : Prog (Plugin σ) Error Unit := do
  Prog.modify fun p => { p with output := .default }
  onKernel CurrentPlugin.clearError
  Prog.modify fun p => { p with linked := true }
  let p ← Prog.get
  onKernel (setInput.kernel p.owner input)

/-- `get_output_after_call`. -/
def getOutputAfterCall : Prog (Plugin σ) Error Unit := do
  let out ← onKernel CurrentPlugin.outputMemoryPosition
  let error ← onKernel CurrentPlugin.getErrorPosition
  Prog.modify fun p => { p with output := ⟨out.1, out.2, error.1, error.2⟩ }

/-- The message `raw_call` finds through the cached output, and whether its
bytes could be read as a string. -/
def errorMessage (p : Plugin σ) : Option (Option String) :=
  if p.output.errorOffset ≠ 0 ∧ p.output.errorLength ≠ 0 then
    some (CurrentPlugin.memoryStr p.kernel ⟨p.output.errorOffset, p.output.errorLength⟩)
  else none

/-! ### `raw_call` -/

end Plugin

/-- The arguments of `raw_call`. -/
structure Request where
  name : String
  input : Option (List UInt8)
  useExtism : Bool
  params : Option (List Val)

namespace rawCall

open Plugin

variable {σ : Type} (G : Guest σ)

/-- Up to the lookup of the function.  A failing reset of the store is only
logged. -/
def prepare (c : Request) : Prog (Plugin σ) Error Unit := do
  let _ ← (if c.useExtism then resetStore G else pure ()).attempt
  instantiate G
  if c.useExtism then setInput c.input else pure ()

/-- The function to call. -/
def lookup (c : Request) : Prog (Plugin σ) Error Func := do
  let p ← Prog.get
  match p.getFunc G c.name with
  | none => Prog.fail (.msg ("Function not found: " ++ c.name))
  | some f =>
    if c.useExtism ∧ 1 < f.type.results.length then
      Prog.fail (.msg ("Function " ++ c.name ++ " has " ++ toString f.type.results.length ++
        " results, expected 0 or 1"))
    else pure f

/-- How a call ended, and the buffer for its results, which an error leaves as
it was. -/
def results (f : Func) :
    Except Error (Results f.type.results) → Except Error Unit × List Val
  | .ok vs => (.ok (), vs.1)
  | .error e => (.error e, List.replicate f.type.results.length .null)

/-- Call the function between the two messages to the timer. -/
def invoke (c : Request) (f : Func) :
    Prog (Plugin σ) Error (Except Error Unit × List Val) := do
  let p ← Prog.get
  log (.sent (.start p.id p.engine p.timeoutMs))
  log (.invoked f.inst f.name)
  let r ← (onGuest (G.call f (if c.useExtism then [] else c.params.getD []))).attempt
  log (.sent (.stop p.id))
  pure (results f r)

/-- Everything but the decision what to report.  Whatever fails here is reported
under the code −1. -/
def run (c : Request) : Prog (Plugin σ) Error (Except Error Unit × List Val) := do
  prepare G c
  let f ← lookup G c
  let ended ← invoke G c f
  (if c.useExtism then getOutputAfterCall else pure ())
  pure ended

/-- The code the guest returned. -/
def returnCode (useExtism : Bool) (results : List Val) : Int32 :=
  match useExtism, results with
  | true, v :: _ => v.asI32.getD (-1)
  | _, _ => 0

/-- How the call ended once an error message is taken into account. -/
def withMessage (name : String) (message : Option (Option String)) (res : Except Error Unit) :
    Except Error Unit :=
  match message, res with
  | none, res => res
  | some (some x), .error e => .error ((Error.msg x).context e.text)
  | some (some x), .ok () => .error (.msg x)
  | some none, _ =>
      .error (.msg ("Call to Extism plugin function " ++ name ++ " encountered an error"))

/-- An error the call ended with, and the code it is reported under. -/
def classify (rc : Int32) (e : Error) : Except (Error × Int32) Int32 :=
  match e.i32Exit with
  | some code => if code = 0 then .ok 0 else .error (e.context "WASI exit code", code)
  | none =>
    if e.trap = some .interrupt then .error (.msg "timeout", rc)
    else if e.rootCause = "oom" then .error (.msg e.rootCause, rc)
    else .error (e, rc)

/-- What `raw_call` returns; the list is what it leaves in `raw_results`. -/
def conclude (c : Request) (message : Option (Option String))
    (ended : Except Error Unit × List Val) : Except (Error × Int32) (Int32 × List Val) :=
  let rc := returnCode c.useExtism ended.2
  let rawResults := if c.useExtism then [] else ended.2
  match withMessage c.name message ended.1 with
  | .ok () => .ok (rc, rawResults)
  | .error e => (classify rc e).map fun rc => (rc, rawResults)

/-- An error that is no WASI exit is reported under the code of the guest. -/
theorem classify_of_noExit {e : Error} (exit : e.i32Exit = none) (rc : Int32) :
    ∃ e', classify rc e = .error (e', rc) := by
  simp only [classify, exit]
  split
  · exact ⟨_, rfl⟩
  · split <;> exact ⟨_, rfl⟩

/-- A message makes every call fail, and hides a WASI exit. -/
theorem withMessage_of_some {message : Option (Option String)} (set : message ≠ none)
    (name : String) (res : Except Error Unit) :
    ∃ e, withMessage name message res = .error e ∧ e.i32Exit = none := by
  match message, res with
  | none, _ => exact absurd rfl set
  | some (some x), .error e => exact ⟨_, rfl, rfl⟩
  | some (some x), .ok () => exact ⟨_, rfl, rfl⟩
  | some none, _ => exact ⟨_, rfl, rfl⟩

theorem withMessage_none (name : String) (res : Except Error Unit) :
    withMessage name none res = res := by
  cases res <;> rfl

end rawCall

namespace Plugin

variable {σ : Type} (G : Guest σ)

/-- `raw_call`. -/
def rawCall (c : Request) : Prog (Plugin σ) (Error × Int32) (Int32 × List Val) := do
  let ended ← (rawCall.run G c).mapError fun e => (e, -1)
  let p ← Prog.get
  Prog.ofExcept (rawCall.conclude c p.errorMessage ended)

/-- `return_error` does not go through the pointers of `CurrentPlugin`, or they
point to this plugin. -/
def Connected (p : Plugin σ) : Prop := p.inst = none ∨ p.linked = true

instance (p : Plugin σ) : Decidable p.Connected :=
  inferInstanceAs (Decidable (_ ∨ _))

/-- The error goes into the kernel's memory, and its position is cached. -/
def recordError (e : String) (p : Plugin σ) : Plugin σ :=
  match onKernel (CurrentPlugin.setError p.owner e) p with
  | (.ok (a, b), p) => { p with output := { p.output with errorOffset := a, errorLength := b } }
  | (.error _, p) => p

/-- `return_error`: record the error, if there is an instance, and return `x`;
`none` is a crash. -/
def returnError {α : Type} (e : String) (x : α) (p : Plugin σ) : Option (α × Plugin σ) :=
  if p.inst.isNone then some (x, p)
  else if p.linked then some (x, p.recordError e)
  else none

section ReturnError

variable {α : Type} {p : Plugin σ} {e : String} {x : α}

/-- What is returned, and the plugin left behind: as it was, or with the error
recorded. -/
theorem of_returnError {r : α × Plugin σ} (returned : p.returnError e x = some r) :
    p.Connected ∧ r.1 = x ∧ (r.2 = p ∨ r.2 = p.recordError e) := by
  rw [returnError] at returned
  split at returned
  case isTrue none =>
    obtain rfl := Option.some.inj returned
    exact ⟨.inl (Option.isNone_iff_eq_none.1 none), rfl, .inl rfl⟩
  case isFalse =>
    split at returned
    case isTrue linked =>
      obtain rfl := Option.some.inj returned
      exact ⟨.inr linked, rfl, .inr rfl⟩
    case isFalse => simp at returned

/-- `return_error` returns its argument, or the process crashes. -/
theorem returnError_fst (p : Plugin σ) (e : String) (x : α) :
    (p.returnError e x).map Prod.fst = if p.Connected then some x else none := by
  by_cases none : p.inst = .none
  · rw [returnError, if_pos (by simp [none]), if_pos (.inl none)]
    rfl
  · rw [returnError, if_neg (by simpa using none)]
    by_cases linked : p.linked = true
    · rw [if_pos linked, if_pos (.inr linked)]
      rfl
    · have dangling : ¬ p.Connected := not_or.2 ⟨none, linked⟩
      rw [if_neg linked, if_neg dangling]
      rfl

end ReturnError

end Plugin

end Extism.Runtime
