import Extism.Runtime.Manifest
import Extism.Runtime.Plugin
import Mathlib.Data.List.Sort
import Mathlib.Data.String.Basic

/-!
# Making a plugin

`build_new` loads the modules, links all but the main one into a new store, and
defines the functions and memories the guest may import, each name shadowing
what was defined under it before.  The main module is prepared for
instantiation; it is not instantiated before the first call.

The process's environment and wasmtime are parameters, in an `Embedder`.  It
answers for the options of a manifest too, which a `Manifest` leaves out.

## Main definitions

* `Function`, `WasmMemory` — what the host provides.
* `Extern`, `Linker` — what a linker has under a name, and the linker.
* `Embedder` — what `build_new` rests on.
* `Built` — a plugin, with what it was made of.
* `Plugin.buildNew`, `Plugin.new`, `Plugin.newWithMemories` — making a plugin.

## Main results

* `Linker.lookup_define` — a name has what it was given last.
* `Plugin.of_buildNew` — a plugin that is made is one nobody has called, with the
  functions it was given.
* `Plugin.lookup_of_buildNew` — what an import of the guest resolves to.
-/

namespace Extism.Runtime

open Kernel (Instance)

/-- `EXTISM_USER_MODULE`, where functions go that have no namespace. -/
def EXTISM_USER_MODULE : String := "extism:host/user"

/-- A host function; what it does is a value of `F`. -/
structure Function (F : Type) where
  name : String
  ns : Option String
  ty : FuncType
  f : F
  deriving DecidableEq

/-- The size of a memory in pages. -/
structure MemoryType where
  minimum : UInt32
  maximum : Option UInt32
  deriving DecidableEq

/-- A memory the host provides. -/
structure WasmMemory where
  name : String
  ns : String
  ty : MemoryType
  deriving DecidableEq

/-! ## The linker -/

/-- What a linker has under a name. -/
inductive Extern (F : Type)
  /-- A function of WASI. -/
  | wasi
  /-- An export of a linked module. -/
  | exported
  /-- A function of the development kit. -/
  | pdk (ty : FuncType)
  | func (f : Function F)
  | memory (ty : MemoryType)
  deriving DecidableEq

/-- A linker that allows shadowing, by module and name. -/
abbrev Linker (F : Type) : Type := AList fun _ : String × String => Extern F

/-- Definitions for a linker, the first one first. -/
abbrev Definitions (F : Type) : Type := List ((String × String) × Extern F)

namespace Linker

variable {F : Type}

/-- Make definitions one after the other. -/
def define (ds : Definitions F) (linker : Linker F) : Linker F :=
  ds.foldl (fun linker d => linker.insert d.1 d.2) linker

/-- What the last of some definitions of a name gives it. -/
def latest (ds : Definitions F) (name : String × String) : Option (Extern F) :=
  (ds.reverse.find? fun d => d.1 = name).map Prod.snd

/-- **Shadowing.**  A name has what it was given last. -/
theorem lookup_define (ds : Definitions F) (linker : Linker F) (name : String × String) :
    (linker.define ds).lookup name = (latest ds name).or (linker.lookup name) := by
  induction ds generalizing linker with
  | nil => rfl
  | cons d ds ih =>
      have step : linker.define (d :: ds) = define ds (linker.insert d.1 d.2) := rfl
      rw [step, ih, latest, latest, List.reverse_cons, List.find?_append]
      cases later : ds.reverse.find? fun d => d.1 = name with
      | some d' => rfl
      | none =>
          by_cases same : d.1 = name
          · subst same
            simp [AList.lookup_insert]
          · simp [same, AList.lookup_insert_ne (Ne.symm same)]

end Linker

/-- The name a function is defined under. -/
def Function.key {F : Type} (f : Function F) : String × String :=
  (f.ns.getD EXTISM_USER_MODULE, f.name)

/-- The name a memory is defined under. -/
def WasmMemory.key (f : WasmMemory) : String × String := (f.ns, f.name)

/-! ## The steps of `build_new` -/

/-- What `build_new` rests on. -/
structure Embedder (M σ F : Type) where
  loader : Loader M
  /-- `EXTISM_CACHE_CONFIG`, if it is set. -/
  cacheConfig : Option String
  /-- `Config::cache_config_load`. -/
  cacheConfigLoad : String → Except Error Unit
  /-- `Config::cache_config_load_default`. -/
  cacheConfigLoadDefault : Except Error Unit
  /-- `Engine::new`. -/
  engine : Except Error ℕ
  /-- `Uuid::new_v4`. -/
  id : ℕ
  /-- The timeout in the manifest that `load` makes of an input. -/
  timeoutMs : WasmInput → Option ℕ
  /-- The `memory.grow`s of the kernel that the limiter of its `max_pages` refuses
  if they are refused, by their number. -/
  limits : WasmInput → ℕ → Bool
  /-- A store with a `CurrentPlugin` for that manifest, with or without WASI. -/
  store : WasmInput → Bool → Except Error (σ × Instance)
  /-- The names that `wasmtime_wasi::add_to_linker` defines. -/
  wasi : Except Error (List (String × String))
  /-- `Linker::module`: the names of the module's exports. -/
  linkModule : Linker F → String → M → Prog (σ × Instance) Error (List String)
  /-- `Memory::new`. -/
  memory : MemoryType → Prog (σ × Instance) Error Unit
  /-- `Linker::instantiate_pre`. -/
  instantiatePre : Linker F → M → Except Error (Guest σ)

/-- How `build_new` stops without a plugin. -/
inductive Stop
  | failed (e : Error)
  | panic

/-- A plugin, with what it was made of. -/
structure Built (M σ F : Type) where
  plugin : Plugin σ
  modules : Modules M
  linker : Linker F
  /-- `instance_pre`. -/
  guest : Guest σ
  /-- `_functions`. -/
  functions : List (Function F)

namespace Plugin

variable {M σ F : Type} (E : Embedder M σ F)

/-- Configure wasmtime's cache. -/
def buildNew.cache : Option (Option String) → Except Error Unit
  | some none => .ok ()
  | some (some path) => E.cacheConfigLoad path
  | none =>
      match E.cacheConfig with
      | some env => if env ≠ "" then E.cacheConfigLoad env else .ok ()
      | none => E.cacheConfigLoadDefault

/-- The names of WASI, if it is enabled. -/
def buildNew.wasi (withWasi : Bool) : Except Error (List (String × String)) :=
  if withWasi then E.wasi else .ok []

/-- Link every module but the main one. -/
def buildNew.link : List (String × M) → Linker F → Prog (σ × Instance) Error (Linker F)
  | [], linker => pure linker
  | (name, m) :: rest, linker =>
      if name ≠ MAIN_KEY then do
        let exports ← E.linkModule linker name m
        buildNew.link rest (linker.define (exports.map fun x => ((name, x), .exported)))
      else buildNew.link rest linker

/-- The functions of the development kit, `add_funcs!`. -/
def buildNew.pdk : List (String × FuncType) :=
  [ ("config_get", ⟨[.i64], [.i64]⟩),
    ("var_get", ⟨[.i64], [.i64]⟩),
    ("var_set", ⟨[.i64, .i64], []⟩),
    ("http_request", ⟨[.i64, .i64], [.i64]⟩),
    ("http_status_code", ⟨[], [.i32]⟩),
    ("log_warn", ⟨[.i64], []⟩),
    ("log_info", ⟨[.i64], []⟩),
    ("log_debug", ⟨[.i64], []⟩),
    ("log_error", ⟨[.i64], []⟩) ]

/-- Define the host's memories; one that cannot be made is a panic. -/
def buildNew.define : List WasmMemory → Linker F → Prog (σ × Instance) Stop (Linker F)
  | [], linker => pure linker
  | f :: rest, linker => do
      (E.memory f.ty).mapError fun _ => Stop.panic
      buildNew.define rest (linker.define [(f.key, .memory f.ty)])

/-- Fill the linker. -/
def buildNew.linker (modules : Modules M) (wasi : List (String × String))
    (imports : List (Function F)) (memories : List WasmMemory) :
    Prog (σ × Instance) Stop (Linker F) := do
  let sorted := (modules.entries.map fun e => (e.1, e.2)).insertionSort fun x y => x.1 ≤ y.1
  let linker ← (buildNew.link E sorted
    (Linker.define (wasi.map fun name => (name, .wasi)) ∅)).mapError .failed
  let linker := linker.define (buildNew.pdk.map fun x => ((EXTISM_ENV_MODULE, x.1), .pdk x.2))
  let linker := linker.define (imports.map fun f => (f.key, .func f))
  buildNew.define E memories linker

/-- `build_new`. -/
def buildNew (input : WasmInput) (imports : List (Function F)) (memories : List WasmMemory)
    (withWasi : Bool) (cacheDir : Option (Option String)) : Except Stop (Built M σ F) := do
  (buildNew.cache E cacheDir).mapError .failed
  let engine ← E.engine.mapError .failed
  let loaded ← (E.loader.load input).elim (.error .panic) .ok
  let (_, modules) ← loaded.mapError .failed
  (buildNew.check modules).mapError .failed
  let store ← (E.store input withWasi).mapError .failed
  let wasi ← (buildNew.wasi E withWasi).mapError .failed
  let main ← (modules.lookup MAIN_KEY).elim (.error .panic) .ok
  let (linked, store) := buildNew.linker E modules wasi imports memories store
  let linker ← linked
  let guest ← (E.instantiatePre linker main).mapError .failed
  .ok
    { plugin :=
        { id := E.id
          engine := engine
          timeoutMs := E.timeoutMs input
          kernel := store.2
          guest := store.1
          inst := none
          runtime := none
          output := .default
          storeNeedsReset := false
          -- the pointers are set, and then the plugin is moved
          linked := false
          limits := E.limits input
          instances := 0
          events := [] }
      modules := modules
      linker := linker
      guest := guest
      functions := imports }

/-- `Plugin::new`. -/
def new (wasm : WasmInput) (imports : List (Function F)) (withWasi : Bool) :
    Except Stop (Built M σ F) :=
  buildNew E wasm imports [] withWasi none

/-- `Plugin::new_with_memories`. -/
def newWithMemories (wasm : WasmInput) (imports : List (Function F)) (memories : List WasmMemory)
    (withWasi : Bool) : Except Stop (Built M σ F) :=
  buildNew E wasm imports memories withWasi none

/-! ## The plugin made -/

variable {E}

theorem buildNew.define_run {memories : List WasmMemory} {linker linker' : Linker F}
    {store store' : σ × Instance}
    (done : buildNew.define E memories linker store = (.ok linker', store')) :
    linker' = linker.define (memories.map fun f => (f.key, .memory f.ty)) := by
  induction memories generalizing linker store with
  | nil => exact (Prog.of_pure done).2
  | cons f rest ih =>
      obtain ⟨_, store, -, done⟩ := Prog.bind_eq_ok done
      exact ih done

/-- What the host provides shadows everything else. -/
theorem buildNew.linker_run {modules : Modules M} {wasi : List (String × String)}
    {imports : List (Function F)} {memories : List WasmMemory} {linker : Linker F}
    {store store' : σ × Instance}
    (done : buildNew.linker E modules wasi imports memories store = (.ok linker, store')) :
    ∃ linked : Linker F, linker = (linked.define (imports.map fun f => (f.key, .func f))).define
      (memories.map fun f => (f.key, .memory f.ty)) := by
  obtain ⟨linked, store, -, done⟩ := Prog.bind_eq_ok done
  exact ⟨_, buildNew.define_run done⟩

section Built

variable {input : WasmInput} {imports : List (Function F)} {memories : List WasmMemory}
  {withWasi : Bool} {cacheDir : Option (Option String)} {b : Built M σ F}

/-- **What is made**: a plugin nobody has called, that keeps the functions it
was given, with a linker that has them and the memories. -/
theorem of_buildNew (done : buildNew E input imports memories withWasi cacheDir = .ok b) :
    b.plugin.New ∧ b.functions = imports ∧ ∃ linked : Linker F,
      b.linker = (linked.define (imports.map fun f => (f.key, .func f))).define
        (memories.map fun f => (f.key, .memory f.ty)) := by
  obtain ⟨_, -, done⟩ := Except.bind_eq_ok done
  obtain ⟨engine, -, done⟩ := Except.bind_eq_ok done
  obtain ⟨loaded, -, done⟩ := Except.bind_eq_ok done
  obtain ⟨⟨_, modules⟩, -, done⟩ := Except.bind_eq_ok done
  obtain ⟨_, -, done⟩ := Except.bind_eq_ok done
  obtain ⟨store, -, done⟩ := Except.bind_eq_ok done
  obtain ⟨wasi, -, done⟩ := Except.bind_eq_ok done
  obtain ⟨main, -, done⟩ := Except.bind_eq_ok done
  rcases ran : buildNew.linker E modules wasi imports memories store with ⟨linked, store'⟩
  simp only [ran] at done
  obtain ⟨linker, rfl, finish⟩ := Except.bind_eq_ok done
  obtain ⟨guest, -, finish⟩ := Except.bind_eq_ok finish
  obtain rfl := Except.ok.inj finish
  exact ⟨⟨rfl, rfl, rfl, rfl, rfl, rfl⟩, rfl, buildNew.linker_run ran⟩

/-- **What an import resolves to.**  A function is found under its name, unless
a later function or a memory has that name. -/
theorem lookup_of_buildNew (done : buildNew E input imports memories withWasi cacheDir = .ok b)
    {pre post : List (Function F)} {f : Function F} (split : imports = pre ++ f :: post)
    (functions : ∀ g ∈ post, g.key ≠ f.key) (others : ∀ m ∈ memories, m.key ≠ f.key) :
    b.linker.lookup f.key = some (.func f) := by
  obtain ⟨-, -, linked, linker⟩ := of_buildNew done
  have unshadowed : Linker.latest (memories.map fun m => (m.key, Extern.memory m.ty)) f.key =
      (none : Option (Extern F)) := by
    simpa [Linker.latest] using fun m mem => others m mem
  have last : Linker.latest (imports.map fun g => (g.key, Extern.func g)) f.key =
      some (.func f) := by
    have later : ((post.map fun g => (g.key, Extern.func g)).reverse.find? fun d => d.1 = f.key) =
        none := by
      simpa using fun g mem => functions g mem
    simp only [split, Linker.latest, List.map_append, List.map_cons, List.reverse_append,
      List.reverse_cons, List.append_assoc, List.find?_append, later]
    simp
  rw [linker, Linker.lookup_define, unshadowed, Option.none_or, Linker.lookup_define, last]
  rfl

end Built

end Plugin

end Extism.Runtime
