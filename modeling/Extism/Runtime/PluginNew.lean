import Extism.Lib.Slots
import Extism.Runtime.BuildNew
import Extism.Runtime.ModuleNames

/-!
# A plugin or an error

`extism_plugin_new` and `extism_plugin_new_with_memories` take the functions of
an array out of their cells and make a plugin of them.  A cell that is empty
already is reported through `errmsg`; the loop goes on all the same, and so does
the construction.

The cells are slots under the addresses of their functions, so an array of
pointers, some of them null, is a list of optional addresses.  A panic does not
get out of an `extern "C"` function: it ends the process.

## Main definitions

* `CString`, `HostMemory`, `Abort` — a C string the host gets, what a construction
  touches of the host's memory, and how it can end the process.
* `makePlugin`, `extismPluginNew`, `extismPluginNewWithMemories` — what the two
  entry points have in common, and the entry points.
* `held` — the functions an array still has, each once.
* `NewCall.PluginOrError`, `NewCall.Clean` — a plugin or an error, and what it takes.

## Main results

* `makePlugin.register_run` — the loop goes through the whole array, and leaves a
  message exactly if a function was gone.
* `makePlugin_run` — a plugin is made of the functions still there.
* `NewCall.pluginOrError_iff` — when a plugin or an error is reported.
* `NewCall.plugin_of_run` — what a construction hands out.
-/

namespace Extism.Runtime

/-- The character that ends a C string. -/
def nul : Char := Char.ofNat 0

/-- A C string the host gets. -/
structure CString where
  text : String
  noNul : nul ∉ text.toList

/-- `CString::new`. -/
def CString.new (text : String) : Option CString :=
  if noNul : nul ∉ text.toList then some ⟨text, noNul⟩ else none

theorem CString.new_text (c : CString) : CString.new c.text = some c := dif_pos c.noNul

/-- What a construction touches of the host's memory. -/
structure HostMemory (κ F : Type) where
  /-- The cells of the functions; one that was taken from is empty. -/
  functions : Slots κ (Function F)
  /-- What `errmsg` points to; none if it is null itself. -/
  errmsg : Option (Option CString)

/-- How a construction can end the process. -/
inductive Abort
  | panic
  /-- A write through a null `errmsg`. -/
  | nullWrite

variable {κ M σ F : Type}

namespace makePlugin

/-- Put a new C string where `errmsg` points to. -/
def writeError (text : String) : Prog (HostMemory κ F) Abort Unit :=
  match CString.new text with
  | none => Prog.fail .panic
  | some e => do
      let s ← Prog.get
      if s.errmsg.isNone then Prog.fail .nullWrite
      else Prog.modify fun s => { s with errmsg := some (some e) }

theorem writeError_run (c : CString) (cells : Slots κ (Function F)) (old : Option CString) :
    writeError c.text ⟨cells, some old⟩ = (.ok (), ⟨cells, some (some c)⟩) := by
  rw [writeError, CString.new_text]
  rfl

theorem writeError_panic {text : String} (has : nul ∈ text.toList) (s : HostMemory κ F) :
    writeError text s = (.error .panic, s) := by
  rw [writeError, CString.new, dif_neg (not_not.2 has)]
  rfl

/-- What is said of an error. -/
def unable (e : Error) : String := "Unable to create Extism plugin: " ++ e.text

theorem nul_mem_unable_iff {e : Error} : nul ∈ (unable e).toList ↔ nul ∈ e.text.toList := by
  have parts : (unable e).toList = "Unable to create Extism plugin: ".toList ++ e.text.toList :=
    String.toList_append
  have absent : nul ∉ "Unable to create Extism plugin: ".toList := by decide
  constructor
  · intro mem
    rw [parts] at mem
    exact (List.mem_append.1 mem).resolve_left absent
  · intro mem
    rw [parts]
    exact List.mem_append_right _ mem

/-- The end: the pointer to return, null for an error. -/
def report : Except Stop (Built M σ F) → Prog (HostMemory κ F) Abort (Option (Built M σ F))
  | .ok p => pure (some p)
  | .error (.failed e) => do
      let s ← Prog.get
      (if s.errmsg.isSome then writeError (unable e) else pure ())
      pure none
  | .error .panic => Prog.fail .panic

/-- A plugin that is returned is one that was made. -/
theorem of_report {r : Except Stop (Built M σ F)} {s s' : HostMemory κ F} {b : Built M σ F}
    (returned : report r s = (.ok (some b), s')) : r = .ok b := by
  cases r with
  | ok p =>
      obtain rfl : b = p := Option.some.inj (Prog.of_pure returned).2
      rfl
  | error stop =>
      cases stop with
      | failed e =>
          obtain ⟨here, s₁, -, rest⟩ := Prog.bind_eq_ok returned
          obtain ⟨_, s₂, -, last⟩ := Prog.bind_eq_ok rest
          exact absurd (Prog.of_pure last).2 (by simp)
      | panic => exact absurd (congrArg Prod.fst returned) (by simp [report])

/-- An error that can be told is told, instead of what was said before. -/
theorem report_failed {e : Error} (tellable : nul ∉ e.text.toList)
    (cells : Slots κ (Function F)) (old : Option CString) :
    ∃ c : CString, report (M := M) (σ := σ) (.error (.failed e)) ⟨cells, some old⟩ =
      (.ok none, ⟨cells, some (some c)⟩) := by
  have noNul : nul ∉ (unable e).toList := mt nul_mem_unable_iff.1 tellable
  refine ⟨⟨unable e, noNul⟩, ?_⟩
  rw [report, Prog.bind_ok (Prog.get_apply _)]
  exact Prog.bind_ok (writeError_run ⟨unable e, noNul⟩ cells old)

theorem report_untellable {e : Error} (has : nul ∈ e.text.toList)
    (cells : Slots κ (Function F)) (old : Option CString) :
    (report (M := M) (σ := σ) (.error (.failed e)) ⟨cells, some old⟩).1 = .error .panic := by
  rw [report, Prog.bind_ok (Prog.get_apply _)]
  exact congrArg Prod.fst (Prog.bind_error (writeError_panic (nul_mem_unable_iff.2 has) _))

/-- What is said of a function that was taken before. -/
def refusal : CString :=
  ⟨"Function cannot be registered with multiple different Plugins", by decide⟩

/-- Say it. -/
def refuse : Prog (HostMemory κ F) Abort Unit := writeError refusal.text

theorem refuse_run (cells : Slots κ (Function F)) (old : Option CString) :
    refuse ⟨cells, some old⟩ = (.ok (), ⟨cells, some (some refusal)⟩) :=
  writeError_run refusal cells old

variable [DecidableEq κ]

/-- `take` of the cell of a function. -/
def take (k : κ) : Prog (HostMemory κ F) Abort (Option (Function F)) := do
  let s ← Prog.get
  Prog.modify fun s => { s with functions := s.functions.clear k }
  pure (s.functions k)

/-- One round of the loop over the array; `funcs` are the functions taken so
far. -/
def round (funcs : List (Function F)) :
    Option κ → Prog (HostMemory κ F) Abort (List (Function F))
  | none => pure funcs
  | some k => do
      let taken ← take k
      match taken with
      | some f => pure (funcs ++ [f])
      | none => do
          refuse
          pure funcs

/-- The loop. -/
def register (funcs : List (Function F)) :
    List (Option κ) → Prog (HostMemory κ F) Abort (List (Function F))
  | [] => pure funcs
  | entry :: rest => do
      let funcs ← round funcs entry
      register funcs rest

end makePlugin

variable [DecidableEq κ]

/-- What the two entry points have in common: `new` makes the plugin. -/
def makePlugin (new : List (Function F) → Except Stop (Built M σ F)) (functions : List (Option κ)) :
    Prog (HostMemory κ F) Abort (Option (Built M σ F)) := do
  let funcs ← makePlugin.register [] functions
  makePlugin.report (new funcs)

variable (E : Embedder M σ F)

/-- `extism_plugin_new`; a null array is an empty one. -/
def extismPluginNew (wasm : List UInt8) (functions : Option (List (Option κ))) (withWasi : Bool) :
    Prog (HostMemory κ F) Abort (Option (Built M σ F)) :=
  makePlugin (fun funcs => Plugin.new E (.data wasm) funcs withWasi) (functions.getD [])

/-- `extism_plugin_new_with_memories`, which counts the memories with an `i8`. -/
def extismPluginNewWithMemories (wasm : List UInt8) (functions : Option (List (Option κ)))
    (memories : Option (List (Option WasmMemory))) (nMemories : Int8) (withWasi : Bool) :
    Prog (HostMemory κ F) Abort (Option (Built M σ F)) :=
  let mems := ((memories.getD []).take nMemories.toInt.toNat).reduceOption
  makePlugin (fun funcs => Plugin.newWithMemories E (.data wasm) funcs mems withWasi)
    (functions.getD [])

/-! ## What a construction does -/

namespace makePlugin

theorem take_run {k : κ} {cells : Slots κ (Function F)} {found : Option (Function F)}
    (here : cells k = found) (errmsg : Option (Option CString)) :
    take k ⟨cells, errmsg⟩ = (.ok found, ⟨cells.clear k, errmsg⟩) := by
  rw [← here]
  rfl

/-- A round that finds a function. -/
theorem round_some {k : κ} {cells : Slots κ (Function F)} {f : Function F}
    (here : cells k = some f) (funcs : List (Function F)) (old : Option CString) :
    round funcs (some k) ⟨cells, some old⟩ = (.ok (funcs ++ [f]), ⟨cells.clear k, some old⟩) :=
  Prog.bind_ok (take_run here (some old))

/-- A round that finds an empty cell leaves a message. -/
theorem round_none {k : κ} {cells : Slots κ (Function F)} (gone : cells k = none)
    (funcs : List (Function F)) (old : Option CString) :
    round funcs (some k) ⟨cells, some old⟩ =
      (.ok funcs, ⟨cells.clear k, some (some refusal)⟩) := by
  rw [round, Prog.bind_ok (take_run gone (some old))]
  exact Prog.bind_ok (refuse_run _ old)

/-- The loop goes through the whole array, whatever it finds; it leaves a message
exactly if a function was gone. -/
theorem register_run (funcs : List (Function F)) (array : List (Option κ))
    (cells : Slots κ (Function F)) (old : Option CString) :
    ∃ e, register funcs array ⟨cells, some old⟩ =
        (.ok (funcs ++ (cells.takes array.reduceOption).reduceOption),
          ⟨cells.after array.reduceOption, some e⟩) ∧
      (Slots.Ready array.reduceOption cells → e = old) ∧
      (¬ Slots.Ready array.reduceOption cells → e = some refusal) := by
  induction array generalizing funcs cells old with
  | nil =>
      refine ⟨old, ?_, fun _ => rfl, fun vain => absurd ?_ vain⟩
      · rw [register, List.reduceOption_nil, Slots.takes, List.reduceOption_nil, List.append_nil]
        rfl
      · exact Slots.none_notMem_takes_iff.1 List.not_mem_nil
  | cons entry rest ih =>
      cases entry with
      | none =>
          have skipped : round funcs none ⟨cells, some old⟩ = (.ok funcs, ⟨cells, some old⟩) := rfl
          rw [register, Prog.bind_ok skipped, List.reduceOption_cons_of_none]
          exact ih funcs cells old
      | some k =>
          rw [List.reduceOption_cons_of_some, Slots.ready_cons_iff, Slots.takes]
          cases here : cells k with
          | some f =>
              obtain ⟨e, run, ready, vain⟩ := ih (funcs ++ [f]) (cells.clear k) old
              refine ⟨e, ?_, fun all => ready all.2,
                fun notAll => vain fun more => notAll ⟨rfl, more⟩⟩
              rw [register, Prog.bind_ok (round_some here funcs old), run,
                List.reduceOption_cons_of_some, List.append_assoc]
              rfl
          | none =>
              -- whatever the rest is like, its message or this one stays
              obtain ⟨e, run, ready, vain⟩ := ih funcs (cells.clear k) (some refusal)
              refine ⟨e, ?_, fun all => absurd all.1 (by simp), fun _ => ?_⟩
              · rw [register, Prog.bind_ok (round_none here funcs old), run,
                  List.reduceOption_cons_of_none]
                rfl
              · by_cases more : Slots.Ready rest.reduceOption (cells.clear k)
                · exact ready more
                · exact vain more

end makePlugin

/-- The functions an array still has, each once. -/
def held (array : List (Option κ)) (cells : Slots κ (Function F)) : List (Function F) :=
  array.reduceOption.eraseDups.filterMap cells

/-- A plugin is made of the functions still there, and a message is there already
if some are gone. -/
theorem makePlugin_run (new : List (Function F) → Except Stop (Built M σ F))
    (array : List (Option κ)) (cells : Slots κ (Function F)) :
    ∃ e : Option CString, (e = none ↔ Slots.Ready array.reduceOption cells) ∧
      makePlugin new array ⟨cells, some none⟩ =
        makePlugin.report (new (held array cells)) ⟨cells.after array.reduceOption, some e⟩ := by
  obtain ⟨e, run, ready, vain⟩ := makePlugin.register_run [] array cells none
  refine ⟨e, ⟨fun silent => ?_, ready⟩, ?_⟩
  · by_contra notReady
    rw [vain notReady] at silent
    exact absurd silent (by simp)
  · rw [List.nil_append, Slots.reduceOption_takes] at run
    rw [makePlugin, Prog.bind_ok run]
    rfl

/-! ## The two entry points -/

/-- A construction through one of the entry points. -/
inductive NewCall (κ : Type)
  | extismPluginNew (wasm : List UInt8) (functions : Option (List (Option κ))) (withWasi : Bool)
  | extismPluginNewWithMemories (wasm : List UInt8) (functions : Option (List (Option κ)))
      (memories : Option (List (Option WasmMemory))) (nMemories : Int8) (withWasi : Bool)

namespace NewCall

/-- Make the call. -/
def run (c : NewCall κ) : Prog (HostMemory κ F) Abort (Option (Built M σ F)) :=
  match c with
  | extismPluginNew wasm functions withWasi => Runtime.extismPluginNew E wasm functions withWasi
  | extismPluginNewWithMemories wasm functions memories nMemories withWasi =>
      Runtime.extismPluginNewWithMemories E wasm functions memories nMemories withWasi

/-- The array of functions. -/
def array : NewCall κ → List (Option κ)
  | extismPluginNew _ functions _ => functions.getD []
  | extismPluginNewWithMemories _ functions _ _ _ => functions.getD []

/-- The memories of the call, null pointers skipped. -/
def memories : NewCall κ → List WasmMemory
  | extismPluginNew _ _ _ => []
  | extismPluginNewWithMemories _ _ memories nMemories _ =>
      ((memories.getD []).take nMemories.toInt.toNat).reduceOption

/-- The function of `Plugin` that is called, on the arguments other than the
functions. -/
def new (c : NewCall κ) (funcs : List (Function F)) : Except Stop (Built M σ F) :=
  match c with
  | extismPluginNew wasm _ withWasi => Plugin.new E (.data wasm) funcs withWasi
  | extismPluginNewWithMemories wasm _ memories nMemories withWasi =>
      Plugin.newWithMemories E (.data wasm) funcs
        ((memories.getD []).take nMemories.toInt.toNat).reduceOption withWasi

/-- **A plugin or an error.**  The call returns; with `errmsg` pointing to null
before, it points to null still exactly if a plugin is returned; and a plugin
has every function of the array. -/
def PluginOrError (c : NewCall κ) (cells : Slots κ (Function F)) : Prop :=
  match c.run E ⟨cells, some none⟩ with
  | (.ok plugin, memory) =>
      (plugin.isSome ↔ memory.errmsg = some none) ∧
        ∀ b ∈ plugin, ∀ k, some k ∈ c.array → ∃ f ∈ b.functions, cells k = some f
  | (.error _, _) => False

/-- What it takes: an error has a text that fits a C string, or every function of
the array is there to be taken. -/
def Clean (c : NewCall κ) (cells : Slots κ (Function F)) : Prop :=
  match c.new E (held c.array cells) with
  | .ok _ => Slots.Ready c.array.reduceOption cells
  | .error (.failed e) => nul ∉ e.text.toList
  | .error .panic => False

variable {E} {c : NewCall κ} {cells : Slots κ (Function F)}

theorem run_eq (c : NewCall κ) :
    (c.run E : Prog (HostMemory κ F) _ _) = makePlugin (c.new E) c.array := by
  cases c <;> rfl

/-- What a call leaves before it reports. -/
theorem run_reports (E : Embedder M σ F) (c : NewCall κ) (cells : Slots κ (Function F)) :
    ∃ e : Option CString, (e = none ↔ Slots.Ready c.array.reduceOption cells) ∧
      c.run E ⟨cells, some none⟩ = makePlugin.report (c.new E (held c.array cells))
        ⟨cells.after c.array.reduceOption, some e⟩ := by
  rw [run_eq]
  exact makePlugin_run (c.new E) c.array cells

omit [DecidableEq κ] in
/-- Both entry points end in `build_new`. -/
theorem buildNew_of_new {funcs : List (Function F)} {b : Built M σ F}
    (made : c.new E funcs = .ok b) :
    ∃ input withWasi, Plugin.buildNew E input funcs c.memories withWasi none = .ok b := by
  cases c <;> exact ⟨_, _, made⟩

omit [DecidableEq κ] in
theorem functions_of_new {funcs : List (Function F)} {b : Built M σ F}
    (made : c.new E funcs = .ok b) : b.functions = funcs := by
  obtain ⟨input, withWasi, made⟩ := buildNew_of_new made
  exact (Plugin.of_buildNew made).2.1

/-- A plugin made is returned without a message exactly if no function was
gone. -/
theorem pluginOrError_of_made {b : Built M σ F} (made : c.new E (held c.array cells) = .ok b) :
    c.PluginOrError E cells ↔ Slots.Ready c.array.reduceOption cells := by
  obtain ⟨e, silent_iff, run⟩ := run_reports E c cells
  have returned : c.run E ⟨cells, some none⟩ =
      (.ok (some b), ⟨cells.after c.array.reduceOption, some e⟩) := by
    rw [run, made]
    rfl
  simp only [PluginOrError, returned, Option.isSome_some, true_iff, Option.some_inj, silent_iff,
    Option.mem_def, forall_eq']
  refine and_iff_left_of_imp fun ready k mem => ?_
  have mem' : k ∈ c.array.reduceOption := List.reduceOption_mem_iff.2 mem
  obtain ⟨f, full⟩ := Option.isSome_iff_exists.1 (ready.full k mem')
  rw [functions_of_new made]
  exact ⟨f, List.mem_filterMap.2 ⟨k, List.mem_eraseDups.2 mem', full⟩, full⟩

theorem not_pluginOrError_of_vain (made : (c.new E (held c.array cells)).isOk)
    (vain : ¬ Slots.Ready c.array.reduceOption cells) : ¬ c.PluginOrError E cells := by
  cases result : c.new E (held c.array cells) with
  | ok b => rwa [pluginOrError_of_made result]
  | error stop =>
      rw [result] at made
      exact absurd made (by simp [Except.isOk, Except.toBool])

/-- The error of a construction that failed is reported if it can be told. -/
theorem pluginOrError_of_failed {err : Error}
    (failed : c.new E (held c.array cells) = .error (.failed err)) :
    c.PluginOrError E cells ↔ nul ∉ err.text.toList := by
  obtain ⟨e, -, run⟩ := run_reports E c cells
  rw [failed] at run
  by_cases tellable : nul ∉ err.text.toList
  · obtain ⟨msg, told⟩ := makePlugin.report_failed (M := M) (σ := σ) tellable
      (cells.after c.array.reduceOption) e
    rw [told] at run
    simp [PluginOrError, run, tellable]
  · have untold := makePlugin.report_untellable (M := M) (σ := σ) (not_not.1 tellable)
      (cells.after c.array.reduceOption) e
    rw [← run] at untold
    refine iff_of_false ?_ tellable
    rw [PluginOrError]
    split
    case h_1 plugin memory returned =>
      rw [returned] at untold
      simp at untold
    case h_2 => exact not_false

theorem not_pluginOrError_of_panic (made : c.new E (held c.array cells) = .error .panic) :
    ¬ c.PluginOrError E cells := by
  obtain ⟨e, -, run⟩ := run_reports E c cells
  rw [PluginOrError, run, made]
  exact not_false

/-- **When a plugin or an error is reported.** -/
theorem pluginOrError_iff (E : Embedder M σ F) (c : NewCall κ) (cells : Slots κ (Function F)) :
    c.PluginOrError E cells ↔ c.Clean E cells := by
  rw [Clean]
  split
  case h_1 b made => exact pluginOrError_of_made made
  case h_2 err failed => exact pluginOrError_of_failed failed
  case h_3 panic => exact iff_of_false (not_pluginOrError_of_panic panic) not_false

end NewCall

/-- An embedder of guests without exports, where nothing fails. -/
def Embedder.plain : Embedder (List UInt8) Unit Unit where
  loader := .inMemory
  cacheConfig := none
  cacheConfigLoad := fun _ => .ok ()
  cacheConfigLoadDefault := .ok ()
  engine := .ok 0
  id := 0
  timeoutMs := fun _ => none
  limits := fun _ _ => false
  store := fun _ _ => .ok ((), .fresh 1 fun _ => true)
  wasi := .ok []
  linkModule := fun _ _ _ => pure []
  memory := fun _ => pure ()
  instantiatePre := fun _ _ => .ok (.scripted [] [])

/-- A module without contents. -/
def emptyModule : List UInt8 := WASM_MAGIC ++ [1, 0, 0, 0]

/-- A function of the host's. -/
def hello : Function Unit := ⟨"hello_world", none, ⟨[.i64], [.i64]⟩, ()⟩

/-- With a function listed twice, or one that another plugin has, a plugin and a
message are reported. -/
theorem not_pluginOrError_always :
    ¬ (NewCall.extismPluginNew emptyModule (some [some 0, some 0]) false).PluginOrError .plain
      (fun _ : ℕ => some hello) ∧
    ¬ (NewCall.extismPluginNewWithMemories emptyModule (some [some 0]) none 0 false).PluginOrError
      .plain (fun _ : ℕ => (none : Option (Function Unit))) := by
  constructor
  · refine NewCall.not_pluginOrError_of_vain (by decide +kernel) fun ready => ?_
    have nodup : ([0, 0] : List ℕ).Nodup := ready.nodup
    exact absurd nodup (by decide)
  · refine NewCall.not_pluginOrError_of_vain (by decide +kernel) fun ready => ?_
    exact absurd (ready.full 0 (List.mem_singleton.2 rfl)) (by decide)

end Extism.Runtime
