import Extism.Runtime.Plugin
import Extism.Lib.Transition

/-!
# Whether the guest runtime is initialised

`instantiate` stores the new instance and only then runs the initialisers
`detect_guest_runtime` found.  If one fails, the call fails, but the instance
stays; the next call finds it, skips instantiation and with it initialisation,
and runs the guest on a runtime that was never set up.

The statements are about `Plugin::events`.  `Sound` is what every call
preserves: on an instance with a runtime, initialisation has either succeeded or
failed, never both and never neither.

## Main definitions

* `Initialized`, `NoneFailed` — functions are called on initialised runtimes only,
  and on none whose initialisation failed.
* `Plugin.Sound` — the invariant of the calls on a plugin.
* `Framed`, `Stable` — properties that no function of the guest can break, and
  those that only instantiation can.
* `rawCalls`, `initializingCalls` — the runs of `raw_call`, and those in which no
  initialiser fails.

## Main results

* `Framed.rawCall`, `Stable.rawCall` — what the first steps of a call leave in such
  a property, the whole call does.
* `Plugin.Sound.booted`, `Plugin.Sound.rawCall` — a new instance is initialised one
  way or the other, and every call keeps the invariant.
* `initialized_iff_noneFailed` — when the guest runtime is initialised.
-/

namespace Extism.Runtime

open Prog (Keeps Ensures)
open Kernel (Instance)

/-! ## Events -/

/-- Every event meets `Q` with the events before it. -/
def Each (Q : Event → List Event → Prop) : List Event → Prop
  | [] => True
  | e :: before => Q e before ∧ Each Q before

theorem Each.imp {Q R : Event → List Event → Prop} (weaker : ∀ e before, Q e before → R e before) :
    ∀ {events : List Event}, Each Q events → Each R events
  | [], _ => trivial
  | _ :: _, h => ⟨weaker _ _ h.1, h.2.imp weaker⟩

theorem Each.mp {Q R : Event → List Event → Prop} :
    ∀ {events : List Event}, Each (fun e before => Q e before → R e before) events →
      Each Q events → Each R events
  | [], _, _ => trivial
  | _ :: _, h, q => ⟨h.1 q.1, h.2.mp q.2⟩

/-- A function of an instance with a guest runtime is called only after the
runtime was initialised. -/
def Initialized : List Event → Prop :=
  Each fun e before => ∀ i name, e = .invoked i name →
    .detected i ∈ before → .initialized i true ∈ before

/-- No function of an instance is called after its initialisation failed. -/
def NoneFailed : List Event → Prop :=
  Each fun e before => ∀ i name, e = .invoked i name → .initialized i false ∉ before

variable {σ : Type} (G : Guest σ)

/-- The invariant of the calls on a plugin. -/
structure Plugin.Sound (p : Plugin σ) : Prop where
  /-- The store is never replaced. -/
  storeNeedsReset : p.storeNeedsReset = false
  /-- Without an instance nothing was detected or initialised yet. -/
  blank : p.inst = none → p.runtime = none ∧
    ∀ i, .detected i ∉ p.events ∧ ∀ ok, .initialized i ok ∉ p.events
  /-- Where a runtime was detected, its initialisation ended one way. -/
  ended : ∀ i, .detected i ∈ p.events →
    (.initialized i true ∈ p.events ↔ .initialized i false ∉ p.events)
  /-- Nothing fails where nothing was detected. -/
  failed : ∀ i, .initialized i false ∈ p.events → .detected i ∈ p.events
  /-- For every call made so far the two ways to say it agree. -/
  calls : Each (fun e before => ∀ i name, e = .invoked i name →
    ((.detected i ∈ before → .initialized i true ∈ before) ↔
      .initialized i false ∉ before)) p.events

namespace Plugin.Sound

variable {G} {p : Plugin σ}

theorem of_new (new : p.New) : p.Sound := by
  constructor
  · exact new.storeNeedsReset
  · exact fun _ => ⟨new.runtime, by simp [new.events]⟩
  all_goals simp [new.events, Each]

/-- In a sound state the two properties of the events are one. -/
theorem initialized_iff (sound : p.Sound) : Initialized p.events ↔ NoneFailed p.events := by
  constructor
  · refine Each.mp (sound.calls.imp fun e before both h i name eq => ?_)
    exact (both i name eq).1 (h i name eq)
  · refine Each.mp (sound.calls.imp fun e before both h i name eq => ?_)
    exact (both i name eq).2 (h i name eq)

end Plugin.Sound

/-! ## What a call preserves -/

/-- An event that is not about a guest runtime. -/
def Event.Other (e : Event) : Prop := ∀ i, e ≠ .detected i ∧ ∀ ok, e ≠ .initialized i ok

/-- A property that no function of the guest can break. -/
structure Framed (I : Plugin σ → Prop) : Prop where
  /-- It does not speak of memory, nor of the cached output. -/
  memory : ∀ p m g o, I p → I { p with kernel := m, guest := g, output := o }
  /-- Calls and messages do not touch it. -/
  other : ∀ p e, Event.Other e → I p → I { p with events := e :: p.events }

/-- A property that only instantiation can break. -/
structure Stable (I : Plugin σ → Prop) : Prop extends Framed I where
  /-- It is not lost when the pointers of `CurrentPlugin` are set. -/
  linked : ∀ p, I p → I { p with linked := true }

section Framed

variable {G} {I : Plugin σ → Prop}

theorem lookup_keeps (c : Request) : Keeps I (rawCall.lookup G c) := by
  refine .bind .get fun p => ?_
  split
  · exact .fail _
  · exact .ite (.fail _) (.pure _)

section

variable (framed : Framed I)
include framed

theorem Framed.onKernel_keeps {α : Type} (x : KernelExec α) : Keeps I (Plugin.onKernel x) :=
  .zoom (fun p _ inv => framed.memory p _ p.guest p.output inv) x

theorem Framed.onGuest_keeps {α : Type} (x : Prog (σ × Instance) Error α) :
    Keeps I (Plugin.onGuest x) :=
  .zoom (fun p _ inv => framed.memory p _ _ p.output inv) x

theorem Framed.log_keeps {ε : Type} {e : Event} (other : e.Other) :
    Keeps I (Plugin.log e : Prog (Plugin σ) ε Unit) :=
  .modify fun p inv => framed.other p e other inv

theorem Framed.getOutputAfterCall_keeps : Keeps I Plugin.getOutputAfterCall :=
  (framed.onKernel_keeps _).bind fun _ => (framed.onKernel_keeps _).bind fun _ =>
    .modify fun p inv => framed.memory p p.kernel p.guest _ inv

theorem Framed.invoke_keeps (c : Request) (f : Func) : Keeps I (rawCall.invoke G c f) := by
  refine .bind .get fun _ => ?_
  refine (framed.log_keeps (by simp [Event.Other])).bind fun _ => ?_
  refine (framed.log_keeps (by simp [Event.Other])).bind fun _ => ?_
  refine (framed.onGuest_keeps _).attempt.bind fun _ => ?_
  exact (framed.log_keeps (by simp [Event.Other])).bind fun _ => .pure _

/-- What `prepare` leaves in `I`, the whole call does. -/
theorem Framed.rawCall {p : Plugin σ} {c : Request} (prepared : I (rawCall.prepare G c p).2) :
    I (Plugin.rawCall G c p).2 := by
  have ran : I (rawCall.run G c p).2 := by
    refine Keeps.after prepared fun _ => (lookup_keeps c).bind fun f => ?_
    refine (framed.invoke_keeps c f).bind fun _ => Keeps.bind ?_ fun _ => .pure _
    exact .ite framed.getOutputAfterCall_keeps (.pure ())
  exact Keeps.after ran fun _ => .bind .get fun _ => .ofExcept _

end

/-- Neither the function nor what follows it makes an instance or sets the
pointers of `CurrentPlugin`. -/
theorem Plugin.connected_rawCall (c : Request) (p : Plugin σ) :
    (p.rawCall G c).2.Connected ↔ (rawCall.prepare G c p).2.Connected := by
  have framed : ∀ (i : Option ℕ) (l : Bool),
      Framed fun q : Plugin σ => q.inst = i ∧ q.linked = l :=
    fun i l => ⟨fun _ _ _ _ same => same, fun _ _ _ same => same⟩
  obtain ⟨inst, linked⟩ := (framed _ _).rawCall (G := G) (c := c) (p := p) ⟨rfl, rfl⟩
  rw [Plugin.Connected, Plugin.Connected, inst, linked]

/-- After a completed `set_input` the pointers are set. -/
theorem Plugin.setInput_linked (input : Option (List UInt8)) :
    Ensures (fun _ => True) (Plugin.setInput (σ := σ) input) fun _ p => p.linked = true := by
  intro p u p' _ run
  rw [Plugin.setInput, Prog.bind_ok (Prog.modify_apply _ p)] at run
  obtain ⟨_, p₁, -, run⟩ := Prog.bind_eq_ok run
  rw [Prog.bind_ok (Prog.modify_apply _ p₁), Prog.bind_ok (Prog.get_apply _)] at run
  obtain ⟨m, -, rfl⟩ := Prog.of_zoom run
  rfl

theorem prepare_linked {c : Request} (extism : c.useExtism = true) :
    Ensures (fun _ => True) (rawCall.prepare G c) fun _ p => p.linked = true := by
  unfold rawCall.prepare
  rw [if_pos extism, if_pos extism]
  refine (Ensures.trivial _).bind fun _ => (Ensures.trivial _).bind fun _ => ?_
  exact Plugin.setInput_linked c.input

end Framed

section Stable

variable {G} {I : Plugin σ → Prop} (stable : Stable I)
include stable

theorem Stable.setInput_keeps (input : Option (List UInt8)) :
    Keeps I (Plugin.setInput input) := by
  refine Keeps.bind (.modify fun p inv => stable.memory p p.kernel p.guest _ inv) fun _ => ?_
  refine (stable.onKernel_keeps _).bind fun _ => Keeps.bind (.modify stable.linked) fun _ => ?_
  exact .bind .get fun _ => stable.onKernel_keeps _

/-- What instantiation leaves in `I`, the whole call does. -/
theorem Stable.rawCall {p : Plugin σ} (unreset : p.storeNeedsReset = false) (c : Request)
    (start : I (Plugin.instantiate G p).2) : I (Plugin.rawCall G c p).2 := by
  have reset : (if c.useExtism then Plugin.resetStore G else pure ()) p = (.ok (), p) := by
    rw [Prog.ite_apply, Plugin.resetStore, Prog.bind_ok (Prog.get_apply p), unreset]
    split <;> rfl
  have prepared : I (rawCall.prepare G c p).2 := by
    rw [rawCall.prepare, Prog.bind_ok (Prog.attempt_apply _ p), reset]
    exact Keeps.after start fun _ => .ite (stable.setInput_keeps _) (.pure ())
  exact stable.toFramed.rawCall prepared

end Stable

/-- Other events change nothing, whether they are calls or not. -/
theorem Plugin.Sound.stable : Stable (Plugin.Sound (σ := σ)) := by
  refine ⟨⟨fun p m g o h => ⟨h.storeNeedsReset, h.blank, h.ended, h.failed, h.calls⟩, ?_⟩,
    fun p h => ⟨h.storeNeedsReset, h.blank, h.ended, h.failed, h.calls⟩⟩
  intro p e other sound
  have detected : ∀ i, .detected i ∈ e :: p.events ↔ .detected i ∈ p.events := by
    intro i
    simp [(other i).1.symm]
  have initialized : ∀ i ok, .initialized i ok ∈ e :: p.events ↔ .initialized i ok ∈ p.events := by
    intro i ok
    simp [((other i).2 ok).symm]
  constructor
  case storeNeedsReset => exact sound.storeNeedsReset
  case blank =>
    intro none
    obtain ⟨runtime, blank⟩ := sound.blank none
    exact ⟨runtime, fun i => ⟨by simpa only [detected] using (blank i).1,
      fun ok => by simpa only [initialized] using (blank i).2 ok⟩⟩
  case ended =>
    intro i mem
    simp only [detected, initialized] at mem ⊢
    exact sound.ended i mem
  case failed =>
    intro i mem
    simp only [detected, initialized] at mem ⊢
    exact sound.failed i mem
  case calls =>
    refine ⟨fun i name _ => ?_, sound.calls⟩
    by_cases mem : .detected i ∈ p.events
    · simp only [mem, true_implies]
      exact sound.ended i mem
    · simp only [mem, false_implies, true_iff]
      exact fun bad => mem (sound.failed i bad)

section SameLife

variable {G}

/-! ### Instantiation -/

/-- The same plugin, but for what the guest and the kernel hold. -/
def Plugin.SameLife (p q : Plugin σ) : Prop := ∃ m g, q = { p with kernel := m, guest := g }

theorem onGuest_sameLife {α : Type} (p : Plugin σ) (x : Prog (σ × Instance) Error α) :
    Keeps p.SameLife (Plugin.onGuest x) := by
  rintro q ⟨m, g, rfl⟩
  exact ⟨_, _, rfl⟩

theorem callInit_sameLife (p : Plugin σ) (init : Func) (params : List Val) :
    Keeps p.SameLife (Plugin.callInit G init params) :=
  (onGuest_sameLife p _).bind fun _ => .pure ()

theorem runInit_sameLife (p : Plugin σ) (runtime : Option GuestRuntime) :
    Keeps p.SameLife (Plugin.GuestRuntime.runInit G runtime) := by
  match runtime with
  | none => exact .pure ()
  | some (.haskell init none) => exact callInit_sameLife p _ _
  | some (.haskell init (some reactorInit)) =>
      exact (callInit_sameLife p _ _).bind fun _ => callInit_sameLife p _ _
  | some (.wasi init) => exact callInit_sameLife p _ _

end SameLife

/-- What `detect_guest_runtime` makes of a plugin. -/
def Plugin.detect (p : Plugin σ) (i : ℕ) : Plugin σ :=
  match p.guestRuntime G with
  | some runtime => { p with runtime := some runtime, events := .detected i :: p.events }
  | none => p

theorem detectGuestRuntime_eq (p : Plugin σ) (i : ℕ) :
    Plugin.detectGuestRuntime G i p = (.ok (), p.detect G i) := by
  rw [Plugin.detectGuestRuntime, Prog.bind_ok (Prog.get_apply p), Plugin.detect]
  cases p.guestRuntime G <;> rfl

/-- Whether the initialisers of a plugin succeed. -/
def Plugin.runsInit (p : Plugin σ) : Bool :=
  (Plugin.GuestRuntime.runInit G p.runtime p).1.isOk

/-- `initialize_guest_runtime` is noted with how it ended. -/
theorem initializeGuestRuntime_snd (p : Plugin σ) (i : ℕ) :
    ∃ m g, (Plugin.initializeGuestRuntime G i p).2 =
      { p with
        kernel := m, guest := g, events := .initialized i (p.runsInit G) :: p.events } := by
  obtain ⟨m, g, same⟩ := runInit_sameLife (G := G) p p.runtime p ⟨p.kernel, p.guest, rfl⟩
  refine ⟨m, g, ?_⟩
  rw [Plugin.initializeGuestRuntime, Prog.bind_ok (Prog.get_apply p),
    Prog.bind_ok (Prog.attempt_apply _ p), Plugin.log, Prog.bind_ok (Prog.modify_apply _ _), same]
  rfl

/-- The plugin whose initialisers `instantiate` runs. -/
def Plugin.booting (p : Plugin σ) : Plugin σ :=
  Plugin.detect G { p with inst := some p.instances, instances := p.instances + 1 } p.instances

/-- What `instantiate` leaves when there was no instance: nothing but the state
of guest and kernel changes if the module cannot be instantiated, and otherwise
the new instance stays, however its initialisers end. -/
theorem instantiate_snd {p : Plugin σ} (none : p.inst = none) :
    p.SameLife (Plugin.instantiate G p).2 ∨
      ∃ p₁ m g, p.SameLife p₁ ∧ Plugin.onGuest G.instantiate p = (.ok (), p₁) ∧
        (Plugin.instantiate G p).2 =
          { p₁.booting G with
            kernel := m, guest := g
            events := .initialized p.instances ((p₁.booting G).runsInit G) ::
              (p₁.booting G).events } := by
  have start := onGuest_sameLife p G.instantiate p ⟨p.kernel, p.guest, rfl⟩
  rw [Plugin.instantiate, Prog.bind_ok (Prog.get_apply p), none, Option.isSome_none,
    if_neg (by decide), Plugin.instantiate.fresh]
  rcases ran : Plugin.onGuest G.instantiate p with ⟨e | u, p₁⟩
  · left
    rw [Prog.bind_error ran]
    rwa [ran] at start
  · right
    rw [ran] at start
    obtain ⟨m, g, rfl⟩ := start
    obtain ⟨m', g', left⟩ := initializeGuestRuntime_snd G
      (Plugin.booting G { p with kernel := m, guest := g }) p.instances
    refine ⟨_, m', g', ⟨m, g, rfl⟩, rfl, ?_⟩
    rw [Prog.bind_ok ran, Prog.bind_ok (Prog.modify_apply _ _),
      Prog.bind_ok (detectGuestRuntime_eq G _ _)]
    exact left

/-- Without a runtime there is nothing to fail. -/
theorem Plugin.runsInit_of_none {p : Plugin σ} (none : p.runtime = none) :
    p.runsInit G = true := by
  rw [Plugin.runsInit, none]
  rfl

/-- The initialisation of a new instance ends one way, which is noted. -/
theorem Plugin.Sound.booted {p p₁ : Plugin σ} (sound : p.Sound) (none : p.inst = none)
    (same : p.SameLife p₁) (m : Instance) (g : σ) :
    Plugin.Sound
      { p₁.booting G with
        kernel := m, guest := g
        events := .initialized p.instances ((p₁.booting G).runsInit G) ::
          (p₁.booting G).events } := by
  obtain ⟨m₁, g₁, rfl⟩ := same
  obtain ⟨runtime, blank⟩ := sound.blank none
  have undetected := fun i => (blank i).1
  have untouched := fun i ok => (blank i).2 ok
  rcases found : Plugin.guestRuntime G
      { p with kernel := m₁, guest := g₁, inst := some p.instances, instances := p.instances + 1 }
    with _ | detected
  · -- no runtime: the call of `initialize_guest_runtime` does nothing, successfully
    simp only [Plugin.booting, Plugin.detect, found]
    rw [Plugin.runsInit_of_none G (p := { p with
      kernel := m₁, guest := g₁, inst := some p.instances, instances := p.instances + 1 }) runtime]
    constructor
    case storeNeedsReset => exact sound.storeNeedsReset
    case blank => simp
    case ended => simp [undetected]
    case failed => simp [untouched]
    case calls => exact ⟨by simp, sound.calls⟩
  · simp only [Plugin.booting, Plugin.detect, found]
    generalize Plugin.runsInit G _ = ok
    constructor
    case storeNeedsReset => exact sound.storeNeedsReset
    case blank => simp
    case ended =>
      intro i
      simp only [List.mem_cons, reduceCtorEq, Event.detected.injEq, false_or, undetected, or_false,
        Event.initialized.injEq, untouched]
      rintro rfl
      cases ok <;> simp
    case failed =>
      intro i
      simp only [List.mem_cons, reduceCtorEq, Event.detected.injEq, false_or, undetected, or_false,
        Event.initialized.injEq, untouched]
      exact And.left
    case calls => exact ⟨by simp, by simp, sound.calls⟩

theorem Plugin.Sound.instantiate {p : Plugin σ} (sound : p.Sound) :
    (Plugin.instantiate G p).2.Sound := by
  cases none : p.inst with
  | some i =>
      rw [Plugin.instantiate, Prog.bind_ok (Prog.get_apply p), none]
      exact sound
  | none =>
      rcases instantiate_snd G none with ⟨m, g, same⟩ | ⟨p₁, m, g, same, -, left⟩
      · rw [same]
        exact Plugin.Sound.stable.memory p m g p.output sound
      · rw [left]
        exact sound.booted G none same m g

/-- Every call preserves the invariant. -/
theorem Plugin.Sound.rawCall {p : Plugin σ} (sound : p.Sound) (c : Request) :
    (Plugin.rawCall G c p).2.Sound :=
  Plugin.Sound.stable.rawCall sound.storeNeedsReset c (sound.instantiate G)

/-! ### Calls whose initialisers succeed -/

/-- No initialisation failed so far. -/
def Plugin.Unfailed (p : Plugin σ) : Prop := ∀ i, .initialized i false ∉ p.events

theorem noneFailed_of_unfailed :
    ∀ {events : List Event}, (∀ i, .initialized i false ∉ events) → NoneFailed events
  | [], _ => trivial
  | _ :: _, unfailed =>
      ⟨fun i _ _ mem => unfailed i (List.mem_cons_of_mem _ mem),
        noneFailed_of_unfailed fun i mem => unfailed i (List.mem_cons_of_mem _ mem)⟩

theorem Plugin.Unfailed.stable : Stable (Plugin.Unfailed (σ := σ)) := by
  refine ⟨⟨fun _ _ _ _ h => h, fun p e other h i mem => ?_⟩, fun _ h => h⟩
  rcases List.mem_cons.1 mem with eq | old
  · exact (other i).2 false eq.symm
  · exact h i old

/-- Whether the initialisers succeed, should the next call come to run them. -/
def Plugin.InitializersSucceed (p : Plugin σ) : Prop :=
  ∀ p₁, p.inst = none → Plugin.onGuest G.instantiate p = (.ok (), p₁) →
    (p₁.booting G).runsInit G = true

theorem Plugin.Unfailed.instantiate {p : Plugin σ} (unfailed : p.Unfailed)
    (succeed : p.InitializersSucceed G) : (Plugin.instantiate G p).2.Unfailed := by
  cases none : p.inst with
  | some i =>
      rw [Plugin.instantiate, Prog.bind_ok (Prog.get_apply p), none]
      exact unfailed
  | none =>
      rcases instantiate_snd G none with ⟨m, g, same⟩ | ⟨p₁, m, g, ⟨m₁, g₁, rfl⟩, made, left⟩
      · rw [same]
        exact unfailed
      · rw [left, succeed _ none made]
        intro i mem
        simp only [List.mem_cons, Event.initialized.injEq, reduceCtorEq, and_false, false_or,
          Plugin.booting, Plugin.detect] at mem
        split at mem
        · simp only [List.mem_cons, reduceCtorEq, false_or] at mem
          exact unfailed i mem
        · exact unfailed i mem

/-! ## Runs -/

/-- The runs of `raw_call` on a new plugin. -/
def rawCalls : TransitionSystem (Plugin σ) Request :=
  .ofStep Plugin.New fun p c => some (p.rawCall G c).2

/-- The runs in which no initialiser fails. -/
def initializingCalls : TransitionSystem (Plugin σ) Request :=
  (rawCalls G).restrict fun p _ => p.InitializersSucceed G

section Runs

variable {G} {p₀ p : Plugin σ} {cs : List Request}

theorem sound_of_run (start : p₀.New) (run : (rawCalls G).Steps p₀ cs p) : p.Sound := by
  refine run.invariant (I := Plugin.Sound) ?_ (.of_new start)
  intro p q c sound step
  obtain rfl := Option.some.inj step
  exact sound.rawCall G c

theorem unfailed_of_run (start : p₀.New) (run : (initializingCalls G).Steps p₀ cs p) :
    p.Unfailed := by
  refine (run.invariant (I := fun p => p.Sound ∧ p.Unfailed) ?_
    ⟨.of_new start, by simp [Plugin.Unfailed, start.events]⟩).2
  rintro p q c ⟨sound, unfailed⟩ ⟨succeed, step⟩
  obtain rfl := Option.some.inj step
  exact ⟨sound.rawCall G c, Plugin.Unfailed.stable.rawCall sound.storeNeedsReset c
    (unfailed.instantiate G succeed)⟩

/-- **When the guest runtime is initialised.**  In every run, functions are
called on initialised runtimes only if and only if none is called on an instance
whose initialisation failed; and they are in every run in which no initialiser
fails. -/
theorem initialized_iff_noneFailed (start : p₀.New) (run : (rawCalls G).Steps p₀ cs p) :
    (Initialized p.events ↔ NoneFailed p.events) ∧
      ((initializingCalls G).Steps p₀ cs p → Initialized p.events) := by
  have sound := sound_of_run start run
  refine ⟨sound.initialized_iff, fun careful => sound.initialized_iff.2 ?_⟩
  exact noneFailed_of_unfailed (unfailed_of_run start careful)

end Runs

/-- A module with constructors, which return or trap, and a function. -/
def constructing (traps : List String) : Guest Unit :=
  .scripted [("__wasm_call_ctors", ⟨[], []⟩), ("run", ⟨[], []⟩)] traps

/-- A plugin on which the function was called. -/
def called (traps : List String) (p : Plugin Unit) : Plugin Unit :=
  (p.rawCall (constructing traps) ⟨"run", some [], true, none⟩).2

/-- With constructors that return, a call runs on an initialised runtime. -/
theorem initialized_after_call : Initialized (called [] (.fresh ())).events := by
  have run : (rawCalls (constructing [])).Steps (.fresh ()) [⟨"run", some [], true, none⟩]
      (called [] (.fresh ())) := .single rfl
  refine (initialized_iff_noneFailed (Plugin.new_fresh ()) run).2 (.single ⟨?_, rfl⟩)
  intro p₁ _ made
  have same := (Prod.ext_iff.1 made).2
  subst same
  decide +kernel

/-- After constructors that trap, the second call runs the function all the
same. -/
theorem not_always_initialized :
    ¬ ∀ (cs : List Request) (p : Plugin Unit),
      (rawCalls (constructing ["__wasm_call_ctors"])).Steps (.fresh ()) cs p →
        Initialized p.events := by
  intro always
  have init := always _ (called ["__wasm_call_ctors"] (called ["__wasm_call_ctors"] (.fresh ())))
    (.cons rfl (.single rfl))
  have events : (called ["__wasm_call_ctors"]
      (called ["__wasm_call_ctors"] (.fresh ()))).events =
      [.sent (.stop 0), .invoked 0 "run", .sent (.start 0 0 none), .initialized 0 false,
        .detected 0] := by
    decide +kernel
  rw [events] at init
  simp [Initialized, Each] at init

end Extism.Runtime
