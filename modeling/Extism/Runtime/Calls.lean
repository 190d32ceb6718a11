import Extism.Runtime.Initialized
import Extism.Runtime.Told

/-!
# Calls on a plugin

The guest is code of someone else's; what can be asked of it is that it goes
through the kernel's exports and keeps to its own blocks.  Then every operation
of the host's interface, however it ends, leaves a kernel that a confined run
leads to, and the next call starts from it.

What a completed call is follows for any such run: the guest's function runs on a
kernel that holds the input of this very call and no error, and what the host
caches afterwards is what this run of the function told it.

An operation may also end the process, on its way through `return_error` on a
plugin whose pointers were never set.  Nothing comes after that, so the runs are
those of operations that return.

## Main definitions

* `KernelReached`, `Plugin.Reached` — a kernel that a confined run leads to.
* `Guest.Confined` — a guest that keeps to its blocks.
* `Operation`, `apiRuns` — the host's operations, and the runs of a plugin.
* `Answered` — what a completed call was.

## Main results

* `rawCall_reached` — a call, however it ends, leaves a kernel that a confined run
  leads to.
* `reached_of_reachable` — so does every operation, in every run.
* `prepared` — what the guest's function finds.
* `call_protocol` — the protocol of a call.
-/

namespace Extism.Runtime

open Prog (Keeps)
open Kernel (Instance Call Config Ledger Represents Sound confinedRuns)
open FirstFit (Cell)

/-- A kernel that a confined run leads to. -/
def KernelReached (m : Instance) : Prop := ∃ c, confinedRuns.Reachable c ∧ c.kernel = m

variable {σ : Type} (G : Guest σ)

/-- **A guest that keeps to its blocks.**  What it does to the kernel is a run of
confined calls; a store linked anew comes with a kernel of its own. -/
structure Guest.Confined : Prop where
  relink : ∀ (g : σ) (m : Instance), KernelReached m → KernelReached (G.relink (g, m)).2.2
  instantiate : ∀ (g : σ) (m : Instance), KernelReached m →
    KernelReached (G.instantiate (g, m)).2.2
  call : ∀ (f : Func) (args : List Val) (g : σ) (c : Config), confinedRuns.Reachable c →
    ∃ ls c', confinedRuns.Steps c ls c' ∧ (G.call f args (g, c.kernel)).2.2 = c'.kernel

/-! ## The host's calls into the kernel -/

namespace KernelReached

theorem fresh (host : ℕ → Bool) : KernelReached (.fresh 1 host) :=
  ⟨_, Kernel.reachable_fresh (Nat.le_refl 1) (by decide) host, rfl⟩

/-- A completed confined call. -/
theorem step {c : Config} (reach : confinedRuns.Reachable c) (call : Call) {v : ℕ} {m : Instance}
    (confined : call.Confined c.ledger.live) (run : call.run c.kernel = (.ok v, m)) :
    KernelReached m :=
  ⟨⟨m, c.ledger.after call v⟩, reach.step (l := (call, v)) ⟨confined, run, rfl⟩, rfl⟩

/-- A call that stores nothing, and completes on every kernel reached. -/
theorem call_keeps (call : Call) (span : call.span = none) (small : call.requested < 2 ^ 32)
    (total : ∀ {c : Config} {cs : List Cell}, Sound c cs → ∃ v m, call.run c.kernel = (.ok v, m)) :
    Keeps KernelReached call.run := by
  rintro _ ⟨c, reach, rfl⟩
  obtain ⟨cs, S⟩ := Kernel.sound_of_reachable reach
  obtain ⟨v, m, run⟩ := total S
  rw [run]
  exact step reach call ⟨small, by simp [span]⟩ run

/-- A call without a result, and the same with one. -/
theorem of_discard {x : Kernel.Exec Unit} (h : Keeps KernelReached x.discard) :
    Keeps KernelReached x := by
  intro m reach
  have kept := h m reach
  rcases run : x m with ⟨e | u, m'⟩
  · have failed : x.discard m = (.error e, m') := Prog.bind_error run
    rwa [failed] at kept
  · have done : x.discard m = (.ok 0, m') := Kernel.Exec.discard_ok run
    rwa [done] at kept

theorem reset_keeps : Keeps KernelReached Kernel.reset :=
  of_discard <| call_keeps .reset rfl (by decide) fun S =>
    ⟨_, _, Kernel.Exec.discard_ok (S.heap.reset_run S.pages)⟩

theorem errorSet_keeps (h : ℕ) : Keeps KernelReached (Kernel.errorSet h) :=
  of_discard <| call_keeps (.errorSet h) rfl (by simp [Call.requested]) fun S =>
    ⟨_, _, Kernel.Exec.discard_ok (S.heap.errorSet_eq S.pages h)⟩

theorem inputSet_keeps (h len : ℕ) : Keeps KernelReached (Kernel.inputSet h len) :=
  of_discard <| call_keeps (.inputSet h len) rfl (by simp [Call.requested]) fun S =>
    ⟨_, _, Kernel.Exec.discard_ok (S.heap.setRange_eq S.pages h len (by decide) (by decide))⟩

theorem outputOffset_keeps : Keeps KernelReached Kernel.outputOffset :=
  call_keeps .outputOffset rfl (by decide) fun S =>
    ⟨_, _, Kernel.getField_eq S.pages (by decide)⟩

theorem outputLength_keeps : Keeps KernelReached Kernel.outputLength :=
  call_keeps .outputLength rfl (by decide) fun S =>
    ⟨_, _, Kernel.getField_eq S.pages (by decide)⟩

theorem errorGet_keeps : Keeps KernelReached Kernel.errorGet :=
  call_keeps .errorGet rfl (by decide) fun S =>
    ⟨_, _, Kernel.getField_eq S.pages (by decide)⟩

/-- `length` may end in a trap, and leaves the memory alone then. -/
theorem length_keeps (h : ℕ) : Keeps KernelReached (Kernel.length h) := by
  rintro _ ⟨c, reach, rfl⟩
  obtain ⟨cs, S⟩ := Kernel.sound_of_reachable reach
  rcases S.upToBoot_length h with same | set
  · exact ⟨c, reach, same.symm⟩
  · rw [set]
    exact step reach .memoryBytes ⟨by decide, by simp [Call.span]⟩
      (Kernel.getField_eq S.pages (by decide))

end KernelReached

namespace CurrentPlugin

/-- `memory_new`, however it ends. -/
theorem memoryNew_keeps (owner : Owner) {data : List UInt8} (small : data.length < 2 ^ 32) :
    Keeps KernelReached (memoryNew owner data) := by
  rintro _ ⟨c, reach, rfl⟩
  by_cases some : data = []
  · rw [memoryNew, if_pos some]
    exact ⟨c, reach, rfl⟩
  · obtain ⟨cs, S⟩ := Kernel.sound_of_reachable reach
    rcases memoryNew_run S owner some small with ⟨m, alloc, run⟩ | ⟨h, m, -, run⟩
    · rw [run]
      exact .step reach (.alloc data.length) ⟨small, by simp [Call.span]⟩ alloc
    · obtain ⟨-, c₁, c₂, alloc, write, -, -, -, same, -⟩ := memoryNew_steps S some run
      rw [run]
      exact ⟨c₂, (reach.step alloc).step write, same⟩

theorem getErrorPosition_keeps : Keeps KernelReached getErrorPosition := by
  refine Keeps.bind (x := (callKernel Kernel.errorGet).attempt) KernelReached.errorGet_keeps
    fun r => ?_
  cases r with
  | error e => exact .pure _
  | ok offs =>
      refine Keeps.bind (x := (memoryLength offs).attempt) (KernelReached.length_keeps offs)
        fun _ => .pure _

theorem outputMemoryPosition_keeps : Keeps KernelReached outputMemoryPosition :=
  Keeps.bind (x := callKernel Kernel.outputOffset) KernelReached.outputOffset_keeps fun _ =>
    Keeps.bind (x := callKernel Kernel.outputLength) KernelReached.outputLength_keeps fun _ =>
      .pure _

end CurrentPlugin

/-! ## One call -/

/-- The kernel of a plugin is one that a confined run leads to. -/
def Plugin.Reached (p : Plugin σ) : Prop := KernelReached p.kernel

section Call

variable {G}

theorem onKernel_reached {α : Type} {x : KernelExec α} (h : Keeps KernelReached x) :
    Keeps Plugin.Reached (Plugin.onKernel (σ := σ) x) :=
  Keeps.zoom_view (J := KernelReached) (fun _ _ => rfl) h

theorem onGuest_reached {α : Type} {x : Prog (σ × Instance) Error α}
    (h : ∀ (g : σ) (m : Instance), KernelReached m → KernelReached (x (g, m)).2.2) :
    Keeps Plugin.Reached (Plugin.onGuest x) := by
  intro p reach
  exact h p.guest p.kernel reach

theorem log_reached {ε : Type} (e : Event) :
    Keeps Plugin.Reached (Plugin.log (σ := σ) (ε := ε) e) := fun _ reach => reach

theorem detectGuestRuntime_reached (i : ℕ) :
    Keeps Plugin.Reached (Plugin.detectGuestRuntime G i) := by
  refine Keeps.get.bind fun p => ?_
  split
  · exact Keeps.bind (.modify fun _ reach => reach) fun _ => log_reached _
  · exact .pure _

namespace Guest.Confined

variable (C : G.Confined)
include C

/-- A function of the guest, called anywhere. -/
theorem call_reached (f : Func) (args : List Val) (g : σ) (m : Instance)
    (reach : KernelReached m) : KernelReached (G.call f args (g, m)).2.2 := by
  obtain ⟨c, reach, rfl⟩ := reach
  obtain ⟨ls, c', steps, left⟩ := C.call f args g c reach
  rw [left]
  exact ⟨c', reach.steps steps, rfl⟩

theorem resetStore_keeps : Keeps Plugin.Reached (Plugin.resetStore G) :=
  Keeps.get.bind fun _ =>
    .ite ((onGuest_reached C.relink).bind fun _ => .modify fun _ reach => reach) (.pure _)

theorem callInit_keeps (init : Func) (params : List Val) :
    Keeps Plugin.Reached (Plugin.callInit G init params) :=
  (onGuest_reached (C.call_reached init params)).bind fun _ => .pure _

theorem runInit_keeps (runtime : Option GuestRuntime) :
    Keeps Plugin.Reached (Plugin.GuestRuntime.runInit G runtime) := by
  match runtime with
  | none => exact .pure _
  | some (.haskell init none) => exact C.callInit_keeps _ _
  | some (.haskell init (some reactorInit)) =>
      exact (C.callInit_keeps _ _).bind fun _ => C.callInit_keeps _ _
  | some (.wasi init) => exact C.callInit_keeps _ _

theorem initializeGuestRuntime_keeps (i : ℕ) :
    Keeps Plugin.Reached (Plugin.initializeGuestRuntime G i) :=
  Keeps.get.bind fun p => (C.runInit_keeps p.runtime).attempt.bind fun _ =>
    (log_reached _).bind fun _ => .ofExcept _

theorem instantiate_keeps : Keeps Plugin.Reached (Plugin.instantiate G) := by
  refine Keeps.get.bind fun p => .ite (.pure _) ?_
  refine (onGuest_reached C.instantiate).bind fun _ => ?_
  refine Keeps.bind (.modify fun _ reach => reach) fun _ => ?_
  exact (detectGuestRuntime_reached _).bind fun _ => C.initializeGuestRuntime_keeps _

end Guest.Confined

/-- `set_input`, with an input below 4 GiB. -/
theorem setInput_reached {input : Option (List UInt8)} (small : (input.getD []).length < 2 ^ 32) :
    Keeps Plugin.Reached (Plugin.setInput (σ := σ) input) := by
  refine Keeps.bind (.modify fun _ reach => reach) fun _ => ?_
  refine (onKernel_reached (x := CurrentPlugin.clearError) (KernelReached.errorSet_keeps 0)).bind
    fun _ => ?_
  refine Keeps.bind (.modify fun _ reach => reach) fun _ => ?_
  refine Keeps.get.bind fun p => onKernel_reached ?_
  refine Keeps.bind (x := CurrentPlugin.reset) KernelReached.reset_keeps fun _ => ?_
  refine (CurrentPlugin.memoryNew_keeps _ small).bind fun handle => ?_
  exact KernelReached.inputSet_keeps handle.offset _

theorem getOutputAfterCall_reached :
    Keeps Plugin.Reached (Plugin.getOutputAfterCall (σ := σ)) :=
  (onKernel_reached CurrentPlugin.outputMemoryPosition_keeps).bind fun _ =>
    (onKernel_reached CurrentPlugin.getErrorPosition_keeps).bind fun _ =>
      .modify fun _ reach => reach

variable {c : Request}

/-- An input below 4 GiB. -/
def Request.Small (c : Request) : Prop := (c.input.getD []).length < 2 ^ 32

theorem prepare_reached (C : G.Confined) (small : c.Small) :
    Keeps Plugin.Reached (rawCall.prepare G c) := by
  refine Keeps.bind (Keeps.attempt (.ite C.resetStore_keeps (.pure _))) fun _ => ?_
  exact C.instantiate_keeps.bind fun _ => .ite (setInput_reached small) (.pure _)

theorem invoke_reached (C : G.Confined) (f : Func) :
    Keeps Plugin.Reached (rawCall.invoke G c f) :=
  Keeps.get.bind fun _ => (log_reached _).bind fun _ => (log_reached _).bind fun _ =>
    Keeps.bind (onGuest_reached (C.call_reached f _)).attempt fun _ =>
      (log_reached _).bind fun _ => .pure _

theorem run_reached (C : G.Confined) (small : c.Small) : Keeps Plugin.Reached (rawCall.run G c) :=
  (prepare_reached C small).bind fun _ => (lookup_keeps c).bind fun f =>
    (invoke_reached C f).bind fun _ =>
      Keeps.bind (.ite getOutputAfterCall_reached (.pure _)) fun _ => .pure _

/-- **A call, however it ends**, leaves a kernel that a confined run leads to. -/
theorem rawCall_reached (C : G.Confined) (small : c.Small) :
    Keeps Plugin.Reached (Plugin.rawCall G c) :=
  Keeps.bind (x := (rawCall.run G c).mapError _) (run_reached C small) fun _ =>
    Keeps.get.bind fun _ => .ofExcept _

end Call

/-! ## Runs -/

/-- The host's operations on a plugin. -/
inductive Operation
  /-- `call`, `call_get_error_code`, and what the C libraries make of it. -/
  | rawCall (c : Request)
  | reset
  | clearError
  | returnError (e : String)

/-- Carry an operation out; `none` is a crash. -/
def Operation.run (p : Plugin σ) : Operation → Option (Plugin σ)
  | .rawCall c => some (p.rawCall G c).2
  | .reset => some (Plugin.onKernel CurrentPlugin.reset p).2
  | .clearError => some (Plugin.onKernel CurrentPlugin.clearError p).2
  | .returnError e => (p.returnError e ()).map Prod.snd

/-- What the operation puts into the kernel's memory is below 4 GiB. -/
def Operation.Small : Operation → Prop
  | .rawCall c => c.Small
  | .returnError e => e.toUTF8.toList.length < 2 ^ 32
  | _ => True

/-- The runs of a plugin, from a new one on: any operations that return, however
they end. -/
def apiRuns : TransitionSystem (Plugin σ) Operation where
  init p := p.New ∧ p.Reached
  step p op q := op.Small ∧ op.run G p = some q

section Runs

variable {G} {p p' : Plugin σ} {c : Request}

theorem recordError_reached (reached : p.Reached) {e : String}
    (small : e.toUTF8.toList.length < 2 ^ 32) : (p.recordError e).Reached := by
  have kept : Keeps KernelReached (CurrentPlugin.setError p.owner e) := by
    refine (CurrentPlugin.memoryNew_keeps _ small).bind fun handle => ?_
    exact Keeps.bind (x := callKernel (Kernel.errorSet handle.offset))
      (KernelReached.errorSet_keeps _) fun _ => .pure _
  have left := onKernel_reached (σ := σ) kept p reached
  rw [Plugin.recordError]
  split
  case h_1 ran => rwa [ran] at left
  case h_2 ran => rwa [ran] at left

/-- **Every operation leaves a kernel that a confined run leads to.** -/
theorem reached_of_reachable (C : G.Confined) (reach : (apiRuns G).Reachable p) : p.Reached := by
  refine reach.invariant (I := Plugin.Reached) (fun {p} (init : p.New ∧ p.Reached) => init.2) ?_
  rintro p q op reached ⟨small, ran⟩
  cases op with
  | rawCall c =>
      obtain rfl := Option.some.inj ran
      exact rawCall_reached C small p reached
  | reset =>
      obtain rfl := Option.some.inj ran
      exact onKernel_reached (x := CurrentPlugin.reset) KernelReached.reset_keeps p reached
  | clearError =>
      obtain rfl := Option.some.inj ran
      exact onKernel_reached (x := CurrentPlugin.clearError) (KernelReached.errorSet_keeps 0) p
        reached
  | returnError e =>
      obtain ⟨r, returned, rfl⟩ := Option.map_eq_some_iff.1 ran
      rcases (Plugin.of_returnError returned).2.2 with same | recorded
      · exact same ▸ reached
      · exact recorded ▸ recordError_reached reached small

/-- **What the guest's function finds** when `raw_call` calls it: the input in
the kernel, no error and no output. -/
theorem prepared (C : G.Confined) (reached : p.Reached) (extism : c.useExtism = true)
    (ran : rawCall.prepare G c p = (.ok (), p')) :
    ∃ h c₀, confinedRuns.Reachable c₀ ∧ c₀.kernel = p'.kernel ∧
      Tracked h (c.input.getD []) ⟨c₀, false⟩ ∧ Telling.Good ⟨c₀, .nothing⟩ := by
  rw [rawCall.prepare, if_pos extism, if_pos extism] at ran
  obtain ⟨_, p₁, reset, ran⟩ := Prog.bind_eq_ok ran
  obtain ⟨_, p₂, made, set⟩ := Prog.bind_eq_ok ran
  have reached₁ : p₁.Reached := by
    have kept : (((Plugin.resetStore G).attempt : Prog _ Error _) p).2.Reached :=
      C.resetStore_keeps p reached
    rwa [reset] at kept
  have reached₂ : p₂.Reached := by
    have kept := C.instantiate_keeps p₁ reached₁
    rwa [made] at kept
  obtain ⟨d, reach, kernel⟩ := reached₂
  obtain ⟨cs, S⟩ := Kernel.sound_of_reachable reach
  rw [Plugin.setInput, Prog.bind_ok (Prog.modify_apply _ p₂)] at set
  obtain ⟨_, p₃, cleared, set⟩ := Prog.bind_eq_ok set
  obtain ⟨m, clear, rfl⟩ := Prog.of_zoom cleared
  rw [Prog.bind_ok (Prog.modify_apply _ _), Prog.bind_ok (Prog.get_apply _)] at set
  obtain ⟨m', placed, rfl⟩ := Prog.of_zoom set
  have first : confinedRuns.step d (.errorSet 0, 0) ⟨m, d.ledger⟩ :=
    ⟨⟨by simp [Call.requested], by simp [Call.span]⟩, Kernel.Exec.discard_ok
      (Prog.of_mapError (kernel ▸ clear)), rfl⟩
  obtain ⟨cs₁, -, S₁⟩ := S.step first
  obtain ⟨h, c₀, kernel', -, steps, tracked⟩ := setInput_kernel_steps S₁ placed
  refine ⟨h, c₀, (reach.step first).steps steps, kernel', tracked, ?_⟩
  -- the run of `set_input` is a `reset`, and calls that tell nothing
  cases steps with
  | @cons _ d₁ _ _ _ wipe rest =>
      refine (Telling.Good.of_reset S₁ wipe).steps (tellingRuns_of_quiet rest fun l mem => ?_)
      change l ∈ (if c.input.getD [] = [] then [] else
        [(.alloc (c.input.getD []).length, h), (.hostWrite h (c.input.getD []), 0)]) ++
          [(.inputSet h (c.input.getD []).length, 0)] at mem
      split at mem <;> simp at mem
      · obtain rfl := mem
        exact ⟨not_false, not_false⟩
      · rcases mem with rfl | rfl | rfl <;> exact ⟨not_false, not_false⟩

/-- The lookup of the function leaves the plugin alone. -/
theorem of_lookup {f : Func} (extism : c.useExtism = true)
    (found : rawCall.lookup G c p = (.ok f, p')) :
    p' = p ∧ f.name = c.name ∧ G.exports c.name = some f.type ∧ f.type.results.length ≤ 1 := by
  rw [rawCall.lookup, Prog.bind_ok (Prog.get_apply p)] at found
  cases exported : p.getFunc G c.name with
  | none =>
      rw [exported] at found
      simp at found
  | some f' =>
      simp only [exported, extism, true_and, Prog.ite_apply] at found
      split at found
      case isTrue => simp at found
      case isFalse few =>
        obtain ⟨rfl, rfl⟩ := Prog.of_pure found
        obtain ⟨i, -, made⟩ := Option.bind_eq_some_iff.1 exported
        obtain ⟨t, listed, rfl⟩ := Option.map_eq_some_iff.1 made
        exact ⟨rfl, rfl, listed, Nat.le_of_not_lt few⟩

/-- The call of the function, between its two messages to the timer. -/
theorem invoke_eq (p : Plugin σ) (extism : c.useExtism = true) (f : Func) :
    rawCall.invoke G c f p =
      (.ok (rawCall.results f (G.call f [] (p.guest, p.kernel)).1), { p with
        guest := (G.call f [] (p.guest, p.kernel)).2.1
        kernel := (G.call f [] (p.guest, p.kernel)).2.2
        events := .sent (.stop p.id) :: .invoked f.inst f.name ::
          .sent (.start p.id p.engine p.timeoutMs) :: p.events }) := by
  have args : (if c.useExtism = true then [] else c.params.getD []) = ([] : List Val) :=
    if_pos extism
  unfold rawCall.invoke
  rw [args]
  rfl

/-- **What a completed call was**: the function `f` of the guest, run on the
kernel of `c₀` by the guest in the state `g`. -/
structure Answered (G : Guest σ) (c : Request) (ended : Except Error Unit × List Val)
    (p' : Plugin σ) (f : Func) (g : σ) (c₀ : Config) : Prop where
  /-- It is the function asked for. -/
  exported : f.name = c.name ∧ G.exports c.name = some f.type ∧ f.type.results.length ≤ 1
  /-- It finds the input of this call, and neither output nor error. -/
  input : ∃ h, Tracked h (c.input.getD []) ⟨c₀, false⟩
  clean : Telling.Good ⟨c₀, .nothing⟩
  ended : ended = rawCall.results f (G.call f [] (g, c₀.kernel)).1
  kernel : p'.kernel = (G.call f [] (g, c₀.kernel)).2.2
  /-- It is a run of confined calls. -/
  told : ∃ ls t, tellingRuns.Steps ⟨c₀, .nothing⟩ ls t ∧ t.config.kernel = p'.kernel
  /-- What the host caches is what the run told, by any account of it. -/
  cached : ∀ ls t, tellingRuns.Steps ⟨c₀, .nothing⟩ ls t → t.config.kernel = p'.kernel →
    p'.output = t.told.cached t.config.ledger

/-- A completed call of a plugin whose kernel a confined run leads to. -/
theorem answered_of_run (C : G.Confined) (reached : p.Reached) (extism : c.useExtism = true)
    {ended : Except Error Unit × List Val} (ran : rawCall.run G c p = (.ok ended, p')) :
    ∃ f g c₀, Answered G c ended p' f g c₀ := by
  obtain ⟨_, p₁, prepare, ran⟩ := Prog.bind_eq_ok ran
  obtain ⟨f, p₂, found, ran⟩ := Prog.bind_eq_ok ran
  obtain ⟨r, p₃, invoked, ran⟩ := Prog.bind_eq_ok ran
  obtain ⟨_, p₄, fetched, ran⟩ := Prog.bind_eq_ok ran
  obtain ⟨rfl, rfl⟩ := Prog.of_pure ran
  rw [if_pos extism] at fetched
  obtain ⟨h, c₀, reach, kernel, tracked, good⟩ := prepared C reached extism prepare
  obtain ⟨rfl, exported⟩ := of_lookup extism found
  rw [invoke_eq _ extism, ← kernel] at invoked
  obtain ⟨ended, left⟩ := Prod.mk.inj invoked
  have kernel₃ : p₃.kernel = (G.call f [] (p₂.guest, c₀.kernel)).2.2 := by
    rw [← left]
  -- whatever account of the function's run is given, the host caches that
  have cached : ∀ ls t, tellingRuns.Steps ⟨c₀, .nothing⟩ ls t → t.config.kernel = p₃.kernel →
      p' = { p₃ with output := t.told.cached t.config.ledger } := by
    intro ls t run same
    rw [getOutputAfterCall_run (good.steps run) same.symm] at fetched
    exact (Prod.mk.inj fetched).2.symm
  obtain ⟨ls, c₁, steps, left⟩ := C.call f [] p₂.guest c₀ reach
  obtain ⟨d, run⟩ := tellingRuns_of_confined steps .nothing
  have same : p'.kernel = p₃.kernel := by
    rw [cached ls _ run (left.symm.trans kernel₃.symm)]
  refine ⟨f, p₂.guest, c₀, exported, ⟨h, tracked⟩, good, (Except.ok.inj ended).symm,
    same.trans kernel₃, ⟨ls, _, run, left.symm.trans (same.trans kernel₃).symm⟩, ?_⟩
  intro ls t run' eq
  rw [cached ls t run' (eq.trans same)]

end Runs

/-! ### A guest that answers with its input -/

/-- Publish the input as the output. -/
def echo : KernelExec Unit := do
  let offset ← callKernel Kernel.inputOffset
  let length ← callKernel Kernel.inputLength
  callKernel (Kernel.outputSet offset length)

/-- A guest whose function `echo` does that. -/
def echoing : Guest Unit where
  exports := fun name => if name = "echo" then some ⟨[], []⟩ else none
  relink := pure ()
  instantiate := pure ()
  call := fun f _ => do
    echo.zoom Prod.snd fun s m => (s.1, m)
    pure (.zero f.type.results)

/-- Its calls into the kernel. -/
theorem echo_run {c : Config} {cs : List Cell} (S : Sound c cs) :
    ∃ c', echo c.kernel = (.ok (), c'.kernel) ∧
      (c'.kernel = if c.kernel.boot.Accepts (c.kernel.boot.peek 8 33) (c.kernel.boot.peek 8 41) then
        c.kernel.boot.ranged 49 57 (c.kernel.boot.peek 8 33) (c.kernel.boot.peek 8 41)
      else c.kernel.boot) ∧ ∃ ls, confinedRuns.Steps c ls c' := by
  have R := S.heap
  have page : 1 ≤ c.kernel.boot.pages := by simpa using S.pages
  have twice := R.boot_eq
  generalize a_eq : c.kernel.boot.peek 8 33 = a
  generalize n_eq : c.kernel.boot.peek 8 41 = n
  have offset : Kernel.inputOffset c.kernel = (.ok a, c.kernel.boot) := by
    rw [← a_eq]
    exact Kernel.getField_eq S.pages (by decide)
  have length : Kernel.inputLength c.kernel.boot = (.ok n, c.kernel.boot) := by
    rw [Kernel.inputLength, Kernel.getField_eq page (by decide), twice, ← n_eq]
  have set := (show Represents c.kernel.boot.boot cs by rwa [twice]).setRange_eq page (f := 49)
    (g := 57) a n (by decide) (by decide)
  rw [twice] at set
  generalize (if c.kernel.boot.Accepts a n then _ else _ : Instance) = m at set
  have first : confinedRuns.step c (.inputOffset, a) ⟨c.kernel.boot, c.ledger⟩ :=
    ⟨⟨by simp [Call.requested], by simp [Call.span]⟩, offset, rfl⟩
  have second : confinedRuns.step ⟨c.kernel.boot, c.ledger⟩ (.inputLength, n)
      ⟨c.kernel.boot, c.ledger⟩ :=
    ⟨⟨by simp [Call.requested], by simp [Call.span]⟩, length, rfl⟩
  have third : confinedRuns.step ⟨c.kernel.boot, c.ledger⟩ (.outputSet a n, 0) ⟨m, c.ledger⟩ :=
    ⟨⟨by simp [Call.requested], by simp [Call.span]⟩, Kernel.Exec.discard_ok set, rfl⟩
  refine ⟨⟨m, c.ledger⟩, ?_, rfl, _, .cons first (.cons second (.single third))⟩
  have offset' : callKernel Kernel.inputOffset c.kernel = _ := Prog.mapError_ok offset
  have length' : callKernel Kernel.inputLength c.kernel.boot = _ := Prog.mapError_ok length
  rw [echo, Prog.bind_ok offset', Prog.bind_ok length']
  exact Prog.mapError_ok set

theorem echoing_call (f : Func) (args : List Val) (u : Unit) {c c' : Config}
    (run : echo c.kernel = (.ok (), c'.kernel)) :
    echoing.call f args (u, c.kernel) = (.ok (.zero f.type.results), (u, c'.kernel)) := by
  have zoomed : echo.zoom Prod.snd (fun (s : Unit × Instance) m => (s.1, m)) (u, c.kernel) =
      (.ok (), (u, c'.kernel)) := by
    rw [Prog.zoom, run]
  exact Prog.bind_ok zoomed

theorem echoing_confined : echoing.Confined where
  relink _ _ reach := reach
  instantiate _ _ reach := reach
  call f args u c reach := by
    obtain ⟨cs, S⟩ := Kernel.sound_of_reachable reach
    obtain ⟨c', run, -, ls, steps⟩ := echo_run S
    exact ⟨ls, c', steps, by rw [echoing_call f args u run]⟩

/-! ### The protocol -/

/-- **The protocol of a call.**  In every run of the host's operations on a guest
that keeps to its blocks, a completed call ran the function asked for on a kernel
that holds the input of this call and neither output nor error, and caches what
that run told; nothing of it comes from an earlier call. -/
theorem call_protocol {G : Guest σ} (C : G.Confined) {p p' : Plugin σ}
    (reach : (apiRuns G).Reachable p) {c : Request} (extism : c.useExtism = true)
    {ended : Except Error Unit × List Val}
    (ran : rawCall.run G c p = (.ok ended, p')) : ∃ f g c₀, Answered G c ended p' f g c₀ :=
  answered_of_run C (reached_of_reachable C reach) extism ran

/-- Two bytes, echoed by a new plugin. -/
theorem call_protocol_of_echo :
    ∃ ended p', rawCall.run echoing ⟨"echo", some [104, 105], true, none⟩ (.fresh ()) =
        (.ok ended, p') ∧
      ∃ f g c₀, Answered echoing ⟨"echo", some [104, 105], true, none⟩ ended p' f g c₀ := by
  have done : (rawCall.run echoing ⟨"echo", some [104, 105], true, none⟩ (.fresh ())).1.isOk =
      true := by
    decide +kernel
  rcases ran : rawCall.run echoing ⟨"echo", some [104, 105], true, none⟩ (.fresh ()) with
    ⟨e | ended, p'⟩
  · rw [ran] at done
    simp [Except.isOk, Except.toBool] at done
  · exact ⟨ended, p', rfl, call_protocol echoing_confined
      (.of_init ⟨Plugin.new_fresh (), KernelReached.fresh _⟩) rfl ran⟩

end Extism.Runtime
