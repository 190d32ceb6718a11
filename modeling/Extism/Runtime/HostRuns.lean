import Extism.Lib.Journal
import Extism.Runtime.HostFn
import Extism.Runtime.HostVars
import Extism.Runtime.Outgoing

/-!
# Guests and hosts on the same objects

A plugin in use.  Its guest calls the kernel and what else it may import: the
functions of the development kit, which look up the configuration, keep
variables, send requests and log, and the host functions, which run their blocks
on their data.  Hosts allocate, measure and free blocks, and the owner changes the
configuration.  These come in any order.

The guest keeps to the kernel's contract: it allocates fewer than 4 GiB at a time
and stores inside its live blocks.  Everything else may be called with any
offsets.

## Main definitions

* `HostEnv` — what a plugin is made with, and what its functions rest on.
* `HostAction` — what happens to a plugin, with what was answered.
* `HostStore.Allows`, `objectHost` — what all of this is for: objects, maps, data
  and what went out, with no memory, no headers and no allocator.  All that is
  left of the allocator is which lengths it refuses at the moment, and that comes
  with the action.
* `HostState`, `hostRuns` — a plugin in use, by the functions of the source.
* `HostState.seen` — an action of a run on objects: its reads and writes by the
  account of blocks that the run has arrived at, and what the kernel refuses then.

## Main results

* `HostState.Good.step` — one action keeps the invariant, and does to the objects
  what it may.
* `hostRuns_refines` — every run of a plugin, seen so, is a run of `objectHost`.
-/

namespace Extism.Runtime

open Kernel (Instance Config Call Ledger Sound confinedRuns)
open ObjectStore (Store Op Allows)

/-- What a plugin is made with, and what its functions rest on. -/
structure HostEnv where
  owner : Owner
  /-- `Manifest::allowed_hosts`. -/
  allowedHosts : Option (List String)
  http : HttpClient
  /-- The error of `from_utf8`. -/
  utf8Error : List UInt8 → Error
  /-- The `Err` of `memory_str`, as `{:?}` prints it. -/
  unable : List UInt8 → String
  /-- The errors of `FromBytes`. -/
  report : Convert.Error → Error
  /-- A value as `{:?}` prints it. -/
  debug : Val → String

/-- What happens to a plugin, with what was answered; `G` is what its guest
does. -/
inductive HostAction (G D : Type)
  /-- The guest calls the kernel, which answers. -/
  | guest (call : G)
  /-- The guest asks the kernel for `n` bytes, and traps: `MemoryLimiter` refuses
  them. -/
  | trapped (n : ℕ)
  | configGet (k : ℕ) (r : Except Error ℕ)
  | varGet (k : ℕ) (r : Except Error ℕ)
  | varSet (k v : ℕ) (r : Except Error Unit)
  | httpRequest (web : Web) (req body : ℕ) (r : Except Error ℕ)
  | httpStatusCode (v : Val)
  /-- `log_warn` and its like. -/
  | log (level : Level) (k : ℕ) (r : Except Error Unit)
  /-- A typed host function is called. -/
  | hostFn (f : HostFn D) (inputs outputs : List Val) (r : Except Stop (List Val))
  /-- `extism_current_plugin_memory_alloc`. -/
  | memoryAlloc (n h : ℕ)
  /-- `extism_current_plugin_memory_length`. -/
  | memoryLength (h n : ℕ)
  /-- `extism_current_plugin_memory_free`. -/
  | memoryFree (h : ℕ)
  /-- `extism_plugin_config`, with the object that was parsed. -/
  | pluginConfig (json : List (String × Option String))

/-- The pairs of `extism_plugin_config`, written one after another. -/
def Settings.configure (config : Settings) (json : List (String × Option String)) : Settings :=
  json.foldl (fun config kv => config.put kv.1 kv.2) config

variable (E : HostEnv) {D : Type}

/-! ## Objects alone -/

/-- A plugin without its memory. -/
structure HostStore (D : Type) where
  objects : Store ℕ UInt8
  config : String → Option String
  vars : Vars
  httpStatus : UInt16
  exchanges : List Exchange
  logged : List LogLine
  data : D

/-- A guest's allocation is answered with nothing for no bytes and where it is
refused, but not by `MemoryLimiter`, which makes the guest trap. -/
def Grants (refuses : ℕ → Option Error) : Op ℕ UInt8 → Prop
  | .allocate n k => (k = none ↔ n = 0 ∨ (refuses n).isSome) ∧ refuses n ≠ some .oom
  | _ => True

/-- **What an action may do**, when the memory refuses so. -/
def HostStore.Allows (refuses : ℕ → Option Error) (s : HostStore D) :
    HostAction (Op ℕ UInt8) D → HostStore D → Prop
  | .guest op, t =>
      ObjectStore.Allows s.objects op t.objects ∧ Grants refuses op ∧
        t = { s with objects := t.objects }
  | .trapped n, t => refuses n = some .oom ∧ t = s
  | .configGet k r, t =>
      LooksUp E.utf8Error refuses "config key" (Settings.value s.config) k s.objects r t.objects ∧
        t = { s with objects := t.objects }
  | .varGet k r, t =>
      LooksUp E.utf8Error refuses "var key" s.vars.lookup k s.objects r t.objects ∧
        t = { s with objects := t.objects }
  | .varSet k v r, t =>
      let set := Vars.set E.utf8Error s.vars k v s.objects
      r = set.map (fun _ => ()) ∧ t = { s with vars := set.toOption.getD s.vars }
  | .httpRequest web req body r, t =>
      let exchange := E.http.exchange E.allowedHosts web s.objects req body
      Requests refuses (E.http.asked E.allowedHosts s.objects req body) web s.objects r t.objects ∧
        t = { s with
          objects := t.objects
          httpStatus := Exchange.status s.httpStatus exchange
          exchanges := s.exchanges ++ exchange.toList }
  | .httpStatusCode v, t => v = .i32 (.ofNat s.httpStatus.toNat) ∧ t = s
  | .log level k r, t =>
      let line := logLine E.owner.id E.unable level s.objects k
      r = line.map (fun _ => ()) ∧ t = { s with logged := s.logged ++ line.toOption.toList }
  | .hostFn f inputs outputs r, t =>
      HostFn.Applies E.report E.debug f E.owner.id refuses inputs outputs s.data s.objects r t.data
          t.objects ∧
        t = { s with data := t.data, objects := t.objects }
  | .memoryAlloc n h, t =>
      ObjectStore.Allows s.objects (.allocate n (if h = 0 then none else some h)) t.objects ∧
        (h = 0 ↔ n = 0 ∨ (refuses n).isSome) ∧ t = { s with objects := t.objects }
  | .memoryLength h n, t => ObjectStore.Allows s.objects (.measure h n) t.objects ∧ t = s
  | .memoryFree h, t => t = { s with objects := Function.update s.objects h none }
  | .pluginConfig json, t =>
      t = { s with
        config := json.foldl (fun config kv => Function.update config kv.1 kv.2) s.config }

/-- The runs of plugins without memory; a label is what is refused, and the
action. -/
def objectHost (D : Type) :
    TransitionSystem (HostStore D) ((ℕ → Option Error) × HostAction (Op ℕ UInt8) D) where
  init s := s = ⟨.empty, s.config, ∅, 0, [], [], s.data⟩
  step s l := s.Allows E l.1 l.2

/-! ## Plugins -/

/-- A plugin in use. -/
structure HostState (D : Type) where
  /-- The kernel, and the account of the blocks in it. -/
  memory : Config
  config : Settings
  vars : Vars
  httpStatus : UInt16
  /-- The requests sent, with what came back. -/
  exchanges : List Exchange
  logged : List LogLine
  data : D

namespace HostState

/-- The plugin, without its memory. -/
def view (s : HostState D) : HostStore D :=
  ⟨s.memory.objects, s.config.lookup, s.vars, s.httpStatus, s.exchanges, s.logged, s.data⟩

/-- What the functions of variables use. -/
def keeping (s : HostState D) : CurrentPlugin := ⟨E.owner, s.memory.kernel, s.vars⟩

/-- What the functions use that send something out. -/
def outgoing (s : HostState D) : Outgoing :=
  ⟨s.memory.kernel, s.httpStatus, s.exchanges, s.logged⟩

/-- The account when a typed host function has ended. -/
def called (s : HostState D) (f : HostFn D) (inputs : List Val) : HostState D :=
  let (r, d, m) := f.output E.report E.debug E.owner inputs (s.data, s.memory.kernel)
  { s with memory := Config.handed s.memory m (r.map MemoryHandle.offset), data := d }

end HostState

/-- The configuration has only values of fewer than 4 GiB. -/
def Settings.Small (config : Settings) : Prop :=
  ∀ k v, config.lookup k = some v → v.toUTF8.toList.length < 2 ^ 32

/-- The runs of plugins whose guest keeps to the kernel's contract, and whose host
functions return values of fewer than 4 GiB.  All functions may be called with
any offsets. -/
def hostRuns (D : Type) : TransitionSystem (HostState D) (HostAction (Call × ℕ) D) where
  init s := confinedRuns.init s.memory ∧ s.config.Small ∧
    s = ⟨s.memory, s.config, ∅, 0, [], [], s.data⟩
  step s
    | .guest l, t =>
        confinedRuns.step s.memory l t.memory ∧
          (∀ n, l.1 = .alloc n → E.owner.refuses s.memory.kernel n ≠ some .oom) ∧
          t = { s with memory := t.memory }
    | .trapped n, t =>
        confinedRuns.step s.memory (.alloc n, 0) ⟨t.memory.kernel, s.memory.ledger⟩ ∧
          E.owner.refuses s.memory.kernel n = some .oom ∧
          t = { s with memory := ⟨t.memory.kernel, s.memory.ledger⟩ }
    | .configGet k r, t =>
        Pdk.configGet E.utf8Error E.owner s.config k s.memory.kernel = (r, t.memory.kernel) ∧
          t = { s with memory := Config.handed s.memory t.memory.kernel r }
    | .varGet k r, t =>
        Pdk.varGet E.utf8Error k (s.keeping E) = (r, t.keeping E) ∧
          t = { s with memory := Config.handed s.memory t.memory.kernel r, vars := t.vars }
    | .varSet k v r, t =>
        Pdk.varSet E.utf8Error k v (s.keeping E) = (r, t.keeping E) ∧
          t = { s with memory := ⟨t.memory.kernel, s.memory.ledger⟩, vars := t.vars }
    | .httpRequest web req body r, t =>
        Pdk.httpRequest E.http E.owner E.allowedHosts web req body s.outgoing = (r, t.outgoing) ∧
          t = { s with
            memory := Config.handed s.memory t.memory.kernel r
            httpStatus := t.httpStatus, exchanges := t.exchanges, logged := t.logged }
    | .httpStatusCode v, t => Pdk.httpStatusCode s.outgoing = (.ok v, s.outgoing) ∧ t = s
    | .log level k r, t =>
        Pdk.log E.owner.id E.unable level k s.outgoing = (r, t.outgoing) ∧
          t = { s with
            memory := ⟨t.memory.kernel, s.memory.ledger⟩
            httpStatus := t.httpStatus, exchanges := t.exchanges, logged := t.logged }
    | .hostFn f inputs outputs r, t =>
        f.Fits E.report E.debug E.owner.id inputs s.data s.memory.objects ∧
          (f.hostFn E.report E.debug E.owner inputs outputs (s.data, s.memory.kernel)).1 = r ∧
          t = s.called E f inputs
    | .memoryAlloc n h, t =>
        n < 2 ^ 32 ∧ CurrentPlugin.extismCurrentPluginMemoryAlloc E.owner n s.memory.kernel =
            (.ok h, t.memory.kernel) ∧
          t = { s with memory := ⟨t.memory.kernel, s.memory.ledger.after (.alloc n) h⟩ }
    | .memoryLength h n, t =>
        CurrentPlugin.extismCurrentPluginMemoryLength h s.memory.kernel =
            (.ok n, t.memory.kernel) ∧
          t = { s with memory := ⟨t.memory.kernel, s.memory.ledger⟩ }
    | .memoryFree h, t =>
        CurrentPlugin.extismCurrentPluginMemoryFree h s.memory.kernel =
            (.ok (), t.memory.kernel) ∧
          t = { s with memory := ⟨t.memory.kernel, s.memory.ledger.after (.free h) 0⟩ }
    | .pluginConfig json, t =>
        (∀ k v, (k, some v) ∈ json → v.toUTF8.toList.length < 2 ^ 32) ∧
          CurrentPlugin.clearError s.memory.kernel = (.ok (), t.memory.kernel) ∧
          t = { s with
            memory := ⟨t.memory.kernel, s.memory.ledger⟩, config := s.config.configure json }

/-- The action, seen on objects; `L` is the account before it. -/
def HostAction.view (L : Ledger) : HostAction (Call × ℕ) D → HostAction (Op ℕ UInt8) D
  | .guest l => .guest (l.1.op L l.2)
  | .trapped n => .trapped n
  | .configGet k r => .configGet k r
  | .varGet k r => .varGet k r
  | .varSet k v r => .varSet k v r
  | .httpRequest web req body r => .httpRequest web req body r
  | .httpStatusCode v => .httpStatusCode v
  | .log level k r => .log level k r
  | .hostFn f inputs outputs r => .hostFn f inputs outputs r
  | .memoryAlloc n h => .memoryAlloc n h
  | .memoryLength h n => .memoryLength h n
  | .memoryFree h => .memoryFree h
  | .pluginConfig json => .pluginConfig json

/-- What is seen of an action on objects, where the run has got to `s`. -/
def HostState.seen (s : HostState D) (a : HostAction (Call × ℕ) D) :
    (ℕ → Option Error) × HostAction (Op ℕ UInt8) D :=
  (E.owner.refuses s.memory.kernel, a.view s.memory.ledger)

/-! ## The simulation -/

/-- The memory functions of the host answer on every offset. -/
structure HostState.Total (s : HostState D) : Prop where
  alloc : ∀ n < 2 ^ 32, ∃ h t, (hostRuns E D).step s (.memoryAlloc n h) t
  length : ∀ h, ∃ n t, (hostRuns E D).step s (.memoryLength h n) t
  free : ∀ h, ∃ t, (hostRuns E D).step s (.memoryFree h) t

/-- **The invariant of a plugin in use.** -/
structure HostState.Good (s : HostState D) : Prop where
  memory : Runtime.Good s.memory
  config : s.config.Small
  vars : s.vars.Small

section Steps

variable {s t : HostState D} {E}

/-- Writing pairs is updating the lookup. -/
theorem Settings.lookup_configure (json : List (String × Option String)) (config : Settings) :
    (config.configure json).lookup =
      json.foldl (fun config kv => Function.update config kv.1 kv.2) config.lookup := by
  induction json generalizing config with
  | nil => rfl
  | cons kv json ih =>
      have put : (config.put kv.1 kv.2).lookup = Function.update config.lookup kv.1 kv.2 := by
        funext k
        rw [AList.lookup_put, Function.update_apply]
      rw [Settings.configure, List.foldl_cons, List.foldl_cons, ← put]
      exact ih _

theorem Settings.Small.configure {config : Settings} (small : config.Small)
    {json : List (String × Option String)}
    (fits : ∀ k v, (k, some v) ∈ json → v.toUTF8.toList.length < 2 ^ 32) :
    (config.configure json).Small := by
  induction json generalizing config with
  | nil => exact small
  | cons kv json ih =>
      refine ih ?_ fun k v mem => fits k v (List.mem_cons_of_mem _ mem)
      intro k v found
      rw [AList.lookup_put] at found
      split at found
      case isTrue => exact fits kv.1 v (by rw [← found]; exact List.mem_cons_self)
      case isFalse => exact small k v found

/-- `clear_error` is a call into the kernel that touches no object. -/
theorem Good.clearError {c : Config} (G : Good c) {m : Instance}
    (run : CurrentPlugin.clearError c.kernel = (.ok (), m)) :
    Good ⟨m, c.ledger⟩ ∧ (Config.mk m c.ledger).objects = c.objects := by
  obtain ⟨cs, S⟩ := G.sound
  have ran : Kernel.errorSet 0 c.kernel = (.ok (), m) := Prog.of_mapError run
  have ok : (Call.errorSet 0).Confined c.ledger.live :=
    ⟨by simp [Call.requested], by simp [Call.span]⟩
  have step : confinedRuns.step c (.errorSet 0, 0) ⟨m, c.ledger⟩ :=
    ⟨ok, Kernel.Exec.discard_ok ran, rfl⟩
  exact ⟨G.step step, S.objects_idle step rfl rfl⟩

/-- A guest's allocation that is answered. -/
theorem grants_of_step {c c' : Config} {l : Call × ℕ} (owner : Owner)
    (moved : confinedRuns.step c l c')
    (answers : ∀ n, l.1 = .alloc n → owner.refuses c.kernel n ≠ some .oom) :
    Grants (owner.refuses c.kernel) (l.1.op c.ledger l.2) := by
  obtain ⟨call, v⟩ := l
  have run := moved.2.1
  cases call with
  | alloc n =>
      refine ⟨?_, answers n rfl⟩
      rw [← owner.alloc_eq_zero_iff run]
      simp
  | loadU8 p | loadU64 p =>
      simp only [Call.op, Ledger.readOp]
      split <;> exact trivial
  | storeU8 p x | storeU64 p x | hostWrite p bs =>
      simp only [Call.op, Ledger.writeOp]
      split <;> exact trivial
  | lengthUnsafe p =>
      simp only [Call.op]
      split <;> exact trivial
  | _ => exact trivial

/-- **One action** keeps the invariant, and does to the objects what it may. -/
theorem HostState.Good.step (G : s.Good) {a : HostAction (Call × ℕ) D}
    (step : (hostRuns E D).step s a t) :
    t.Good ∧ (objectHost E D).step s.view (s.seen E a) t.view := by
  cases a with
  | guest l =>
      obtain ⟨moved, answers, same⟩ := step
      obtain ⟨cs, S⟩ := G.memory.sound
      rw [same]
      exact ⟨⟨G.memory.step moved, G.config, G.vars⟩, S.objects_step moved,
        grants_of_step E.owner moved answers, rfl⟩
  | trapped n =>
      obtain ⟨moved, refused, same⟩ := step
      obtain ⟨cs, S⟩ := G.memory.sound
      have idle : (Config.mk t.memory.kernel s.memory.ledger).objects = s.memory.objects := by
        simpa [ObjectStore.Allows] using G.memory.objects_alloc moved
      refine ⟨by rw [same]; exact ⟨G.memory.step moved, G.config, G.vars⟩, refused, ?_⟩
      rw [same, HostState.view, idle]
      rfl
  | configGet k r =>
      obtain ⟨ran, same⟩ := step
      obtain ⟨r', m, run, left, gets⟩ := G.memory.configGet E.utf8Error E.owner G.config k
      obtain ⟨rfl, rfl⟩ := Prod.mk.inj (ran.symm.trans run)
      rw [same]
      exact ⟨⟨left, G.config, G.vars⟩, gets, rfl⟩
  | varGet k r =>
      obtain ⟨ran, same⟩ := step
      obtain ⟨r', m, run, left, gets⟩ := G.memory.varGet E.utf8Error E.owner G.vars k
      obtain ⟨rfl, kept⟩ := Prod.mk.inj (ran.symm.trans run)
      obtain ⟨-, rfl, vars⟩ := CurrentPlugin.mk.inj kept
      rw [same, vars]
      exact ⟨⟨left, G.config, G.vars⟩, gets, rfl⟩
  | varSet k v r =>
      obtain ⟨ran, same⟩ := step
      obtain ⟨cs, S⟩ := G.memory.sound
      obtain ⟨m, left, run⟩ := G.memory.varSet E.utf8Error E.owner s.vars k v
      obtain ⟨rfl, kept⟩ := Prod.mk.inj (ran.symm.trans run)
      obtain ⟨-, rfl, vars⟩ := CurrentPlugin.mk.inj kept
      rw [same, vars]
      refine ⟨⟨G.memory.upToBoot left, G.config, ?_⟩, rfl, ?_⟩
      · cases set : Vars.set E.utf8Error s.vars k v s.memory.objects with
        | error e => exact G.vars
        | ok vars => exact G.vars.set E.utf8Error G.memory set
      · rw [HostState.view, objects_upToBoot S left]
        rfl
  | httpRequest web req body r =>
      obtain ⟨ran, same⟩ := step
      obtain ⟨r', m, run, left, requests⟩ := G.memory.httpRequest E.http E.allowedHosts E.owner
        web req body s.httpStatus s.exchanges s.logged
      obtain ⟨rfl, kept⟩ := Prod.mk.inj (ran.symm.trans run)
      obtain ⟨rfl, status, exchanges, lines⟩ := Outgoing.mk.inj kept
      rw [same, status, exchanges, lines]
      exact ⟨⟨left, G.config, G.vars⟩, requests, rfl⟩
  | httpStatusCode v =>
      obtain ⟨ran, rfl⟩ := step
      exact ⟨G, (Except.ok.inj (Prod.mk.inj ran).1).symm, rfl⟩
  | log level k r =>
      obtain ⟨ran, same⟩ := step
      obtain ⟨cs, S⟩ := G.memory.sound
      obtain ⟨m, left, run⟩ := G.memory.log E.owner.id E.unable level k s.httpStatus
        s.exchanges s.logged
      obtain ⟨rfl, kept⟩ := Prod.mk.inj (ran.symm.trans run)
      obtain ⟨rfl, status, exchanges, lines⟩ := Outgoing.mk.inj kept
      rw [same, status, exchanges, lines]
      refine ⟨⟨G.memory.upToBoot left, G.config, G.vars⟩, rfl, ?_⟩
      rw [HostState.view, objects_upToBoot S left]
      rfl
  | hostFn f inputs outputs r =>
      obtain ⟨small, rfl, rfl⟩ := step
      obtain ⟨r, d, m, run, left, applies⟩ :=
        HostFn.output_run E.report E.debug G.memory f E.owner inputs s.data small
      have ended : (f.hostFn E.report E.debug E.owner inputs outputs (s.data, s.memory.kernel)).1 =
          r.map (HostFn.answer outputs) := by
        cases r with
        | error e => rw [HostFn.hostFn, Prog.bind_error run]; rfl
        | ok handle => rw [HostFn.hostFn, Prog.bind_ok run]; rfl
      have called : s.called E f inputs =
          { s with memory := Config.handed s.memory m (r.map MemoryHandle.offset), data := d } := by
        rw [HostState.called, run]
      rw [HostState.seen, HostAction.view, ended, called]
      exact ⟨⟨left, G.config, G.vars⟩, applies outputs, rfl⟩
  | memoryAlloc n h =>
      obtain ⟨small, ran, same⟩ := step
      obtain ⟨h', m, run, called, left, made⟩ := G.memory.memoryAlloc E.owner small
      obtain ⟨rfl, rfl⟩ : h = h' ∧ t.memory.kernel = m := by
        simpa using ran.symm.trans run
      rw [same]
      exact ⟨⟨left, G.config, G.vars⟩, made, E.owner.alloc_eq_zero_iff called, rfl⟩
  | memoryLength h n =>
      obtain ⟨ran, same⟩ := step
      obtain ⟨cs, S⟩ := G.memory.sound
      obtain ⟨m, left, run⟩ := G.memory.memoryLength h
      obtain ⟨rfl, rfl⟩ : n = _ ∧ t.memory.kernel = m := by
        simpa using ran.symm.trans run
      have objects := objects_upToBoot S left
      have view : t.view = s.view := by rw [same, HostState.view, objects]; rfl
      refine ⟨?_, ⟨congrArg HostStore.objects view, rfl⟩, view⟩
      rw [same]
      exact ⟨G.memory.upToBoot left, G.config, G.vars⟩
  | memoryFree h =>
      obtain ⟨ran, same⟩ := step
      obtain ⟨m, run, left, freed⟩ := G.memory.memoryFree h
      obtain rfl : t.memory.kernel = m := congrArg Prod.snd (ran.symm.trans run)
      refine ⟨by rw [same]; exact ⟨left, G.config, G.vars⟩, ?_⟩
      change t.view = { s.view with objects := Function.update s.memory.objects h none }
      rw [same, HostState.view, freed]
      rfl
  | pluginConfig json =>
      obtain ⟨fits, cleared, same⟩ := step
      obtain ⟨left, objects⟩ := G.memory.clearError cleared
      refine ⟨by rw [same]; exact ⟨left, G.config.configure fits, G.vars⟩, ?_⟩
      change t.view = { s.view with
        config := json.foldl (fun config kv => Function.update config kv.1 kv.2) s.config.lookup }
      rw [same, HostState.view, objects, Settings.lookup_configure]
      rfl

theorem good_of_hostRuns (reach : (hostRuns E D).Reachable s) : s.Good := by
  refine reach.invariant (I := HostState.Good) ?_ fun G step => (G.step step).1
  rintro s ⟨⟨pages, host, lo, hi, eq⟩, small, new⟩
  refine ⟨⟨⟨[], ?_⟩, ?_⟩, small, ?_⟩
  · rw [eq]
    exact Sound.fresh lo hi host
  · rw [eq]
    exact fun x mem => absurd mem List.not_mem_nil
  · rw [new]
    exact fun key bs found => by simp at found

theorem HostState.Good.total (G : s.Good) : s.Total E := by
  constructor
  · intro n small
    obtain ⟨h, m, run, -⟩ := G.memory.memoryAlloc E.owner small
    exact ⟨h, { s with memory := ⟨m, s.memory.ledger.after (.alloc n) h⟩ }, small, run, rfl⟩
  · intro h
    obtain ⟨m, -, run⟩ := G.memory.memoryLength h
    exact ⟨_, { s with memory := ⟨m, s.memory.ledger⟩ }, run, rfl⟩
  · intro h
    obtain ⟨m, run, -, -⟩ := G.memory.memoryFree h
    exact ⟨{ s with memory := ⟨m, s.memory.ledger.after (.free h) 0⟩ }, run, rfl⟩

/-- A plugin whose guest has only used the kernel. -/
def HostState.new (memory : Config) (config : Settings) (data : D) : HostState D :=
  ⟨memory, config, ∅, 0, [], [], data⟩

theorem HostState.init_new {config : Settings} (small : config.Small) (data : D) :
    (hostRuns E D).init (.new (.fresh 1 fun _ => false) config data) :=
  ⟨⟨1, _, Nat.le_refl 1, by decide, rfl⟩, small, rfl⟩

/-- A call of the guest's, as a step of the plugin. -/
theorem HostState.guest_step (call : Call) (v : ℕ) (ok : call.Confined s.memory.ledger.live)
    (done : (call.run s.memory.kernel).1 = .ok v)
    (answers : ∀ n, call = .alloc n → E.owner.refuses s.memory.kernel n ≠ some .oom) :
    (hostRuns E D).step s (.guest (call, v)) { s with memory := s.memory.after call v } :=
  ⟨Kernel.confined_of_run call v ok done, answers, rfl⟩

end Steps

/-- A plugin whose requests are parsed in one way, and allowed to hosts with one
name. -/
def sampleEnv : HostEnv where
  owner := ⟨"", fun _ => false⟩
  allowedHosts := some ["a.org"]
  http :=
    { json := fun bytes =>
        if bytes = "\x7b\"url\":\"http://a.org\"\x7d".toUTF8.toList then
          .ok ⟨"http://a.org", [], none⟩
        else .error (.msg "expected value at line 1 column 1")
      host := fun url =>
        if url = "http://a.org" then .ok (some "a.org") else .error "RelativeUrlWithoutBase"
      pattern := fun pat => some fun host => pat = host }
  utf8Error := fun _ => .msg "invalid utf-8 sequence"
  unable := fun _ => "Err(invalid utf-8 sequence)"
  report := fun _ => .msg "invalid utf-8 sequence"
  debug := fun _ => ""

/-- A call of a guest whose memory has no limiter. -/
theorem HostState.sample_step {s : HostState D} (call : Call) (v : ℕ)
    (ok : call.Confined s.memory.ledger.live) (done : (call.run s.memory.kernel).1 = .ok v) :
    (hostRuns sampleEnv D).step s (.guest (call, v)) { s with memory := s.memory.after call v } :=
  HostState.guest_step call v ok done fun _ _ => sampleEnv.owner.refuses_ne_oom fun _ => rfl

/-- A configuration with one value. -/
def oneSetting : Settings := AList.insert "k" "v" ∅

theorem oneSetting_small : oneSetting.Small := by
  intro k v found
  rw [oneSetting] at found
  by_cases same : k = "k"
  · subst same
    rw [AList.lookup_insert] at found
    obtain rfl := Option.some.inj found
    decide +kernel
  · rw [AList.lookup_insert_ne same, AList.lookup_empty] at found
    simp at found

/-- A guest that has stored a key. -/
def askingMemory : Config :=
  ((Config.fresh 1 fun _ => false).after (.alloc 1) 77).after (.hostWrite 77 [107]) 0

theorem asking_steps :
    (hostRuns sampleEnv Unit).Steps (.new (.fresh 1 fun _ => false) oneSetting ())
      [.guest (.alloc 1, 77), .guest (.hostWrite 77 [107], 0)] (.new askingMemory oneSetting ()) :=
  .cons (HostState.sample_step (.alloc 1) 77 (by decide) (by decide +kernel))
    (.single (HostState.sample_step (.hostWrite 77 [107]) 0 (by decide) (by decide +kernel)))

/-- The kernel when the value was handed over. -/
def answeredKernel : Instance :=
  (Pdk.configGet sampleEnv.utf8Error sampleEnv.owner oneSetting 77 askingMemory.kernel).2

end Extism.Runtime
