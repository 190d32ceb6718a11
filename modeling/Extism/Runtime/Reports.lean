import Extism.Runtime.Initialized
import Extism.Runtime.Input
import Extism.Runtime.Sdk

/-!
# Whose error a call reports

`raw_call` ends by looking for an error message at the cached position in
`Plugin::output`.  With `use_extism` the position was fetched a moment before.
Without, it is whatever the last call left there: `return_error` writes it after
every failing call, and only `set_input` clears it.  So a call through an entry
point for Otoroshi that goes well is reported as a failure if the call before it
failed.

A call that fails makes no report at all where the pointers of `CurrentPlugin`
dangle: on a plugin with an instance whose input was never set, `return_error`
crashes.

`report_eq_iff` says exactly when a call gets the report that how it went calls
for (`Entry.report`), and `Entry.outcome_setOutput` that how it goes owes nothing
to the cached error, so that nothing else leaks.

## Main definitions

* `Outcome.EndedWell` — the call went well, by itself.
* `Plugin.NoCachedError` — no error of an earlier call is cached.
* `Entry.prepared` — the plugin as `return_error` would find it.
* `Entry.Clean` — the condition on a call: it does not take an old error for its
  own, and it can report an error of its own.
* `sessions`, `cleanSessions` — any calls in any order on a new plugin, and those
  whose calls are all clean.

## Main results

* `run_forgets`, `run_commutes` — what a call does with the cached output.
* `report_eq_iff` — a call gets the right report exactly if it is clean.
* `reports_of_clean` — in a session of clean calls all reports are right.
* `errors_leak_only_uncleanly` — the three together.
-/

namespace Extism.Runtime

open Prog (Keeps Ensures Commutes Forgets)
open Kernel (Instance)

/-- The function ended well: it returned, or ended by a WASI exit with code 0, and
it set no error message. -/
def Outcome.EndedWell : Outcome → Prop
  | .refused _ => False
  | .ended res _ message =>
      message = none ∧ (res = .ok () ∨ ∃ e, res = .error e ∧ e.i32Exit = some 0)

/-- No error is cached. -/
def Plugin.NoCachedError {σ : Type} (p : Plugin σ) : Prop :=
  p.output.errorOffset = 0 ∨ p.output.errorLength = 0

variable {σ : Type} (G : Guest σ)

/-! ## What a call does with the cached output

Two frames: without `use_extism` a call leaves the cached output alone, and it
never looks at it before it ends. -/

section Frames

/-- Replace the cached output. -/
def Plugin.setOutput (o : Output) (p : Plugin σ) : Plugin σ := { p with output := o }

variable {G} (o : Output)

theorem onGuest_commutes {α : Type} (x : Prog (σ × Instance) Error α) :
    Commutes (Plugin.setOutput o) (Plugin.onGuest x) := by
  refine Commutes.zoom ?_ ?_ x <;> intros <;> rfl

theorem log_commutes {ε : Type} (e : Event) :
    Commutes (Plugin.setOutput (σ := σ) o) (Plugin.log (ε := ε) e) :=
  .modify fun _ => rfl

theorem resetStore_commutes : Commutes (Plugin.setOutput o) (Plugin.resetStore G) :=
  .get_bind (fun _ => rfl) fun _ =>
    .ite ((onGuest_commutes o _).bind fun _ => .modify fun _ => rfl) (.pure ())

theorem callInit_commutes (init : Func) (params : List Val) :
    Commutes (Plugin.setOutput o) (Plugin.callInit G init params) :=
  (onGuest_commutes o _).bind fun _ => .pure ()

theorem runInit_commutes (runtime : Option GuestRuntime) :
    Commutes (Plugin.setOutput o) (Plugin.GuestRuntime.runInit G runtime) := by
  match runtime with
  | none => exact .pure ()
  | some (.haskell init none) => exact callInit_commutes o _ _
  | some (.haskell init (some reactorInit)) =>
      exact (callInit_commutes o _ _).bind fun _ => callInit_commutes o _ _
  | some (.wasi init) => exact callInit_commutes o _ _

theorem detectGuestRuntime_commutes (i : ℕ) :
    Commutes (Plugin.setOutput o) (Plugin.detectGuestRuntime G i) := by
  refine .get_bind (fun _ => rfl) fun p => ?_
  split
  · refine Commutes.bind (.modify ?_) fun _ => log_commutes o _
    exact fun _ => rfl
  · exact .pure ()

theorem initializeGuestRuntime_commutes (i : ℕ) :
    Commutes (Plugin.setOutput o) (Plugin.initializeGuestRuntime G i) := by
  refine .get_bind (fun _ => rfl) fun p => ?_
  refine (runInit_commutes o p.runtime).attempt.bind fun r => ?_
  exact (log_commutes o _).bind fun _ => fun _ => rfl

theorem instantiate_commutes : Commutes (Plugin.setOutput o) (Plugin.instantiate G) := by
  refine .get_bind (fun _ => rfl) fun p => .ite (.pure ()) ?_
  refine (onGuest_commutes o _).bind fun _ => Commutes.bind (.modify ?_) fun _ => ?_
  · exact fun _ => rfl
  · exact (detectGuestRuntime_commutes o _).bind fun _ => initializeGuestRuntime_commutes o _

/-- `set_input` starts by clearing the cached output. -/
theorem setInput_forgets (input : Option (List UInt8)) :
    Forgets (Plugin.setOutput (σ := σ) o) (Plugin.setInput input) := by
  refine Forgets.modify_bind ?_ _
  exact fun _ => rfl

theorem lookup_commutes (c : Request) : Commutes (Plugin.setOutput o) (rawCall.lookup G c) := by
  refine .get_bind (fun _ => rfl) fun p => ?_
  split
  · exact .fail _
  · exact .ite (.fail _) (.pure _)

theorem invoke_commutes (c : Request) (f : Func) :
    Commutes (Plugin.setOutput o) (rawCall.invoke G c f) := by
  refine .get_bind (fun _ => rfl) fun p => ?_
  refine (log_commutes o _).bind fun _ => (log_commutes o _).bind fun _ => ?_
  refine (onGuest_commutes o _).attempt.bind fun r => ?_
  exact (log_commutes o _).bind fun _ => .pure _

/-- With `use_extism` the cached output is forgotten before the function is
called. -/
theorem run_forgets {c : Request} (extism : c.useExtism = true) :
    Forgets (Plugin.setOutput o) (rawCall.run G c) := by
  refine Forgets.bind ?_ _
  unfold rawCall.prepare
  rw [if_pos extism, if_pos extism]
  refine .of_commutes_bind (resetStore_commutes o).attempt fun _ => ?_
  exact .of_commutes_bind (instantiate_commutes o) fun _ => setInput_forgets o _

/-- Without, it is neither looked at nor touched. -/
theorem run_commutes {c : Request} (native : c.useExtism = false) :
    Commutes (Plugin.setOutput o) (rawCall.run G c) := by
  unfold rawCall.run rawCall.prepare
  simp only [native, Bool.false_eq_true, if_false]
  refine Commutes.bind ?_ fun _ => (lookup_commutes o c).bind fun f =>
    (invoke_commutes o c f).bind fun _ => (Commutes.pure ()).bind fun _ => .pure _
  refine (Commutes.attempt (.pure ())).bind fun _ => ?_
  exact (instantiate_commutes o).bind fun _ => .pure ()

/-- A call without `use_extism` leaves the cached output as it was. -/
theorem output_of_run {c : Request} (native : c.useExtism = false) (p : Plugin σ) :
    (rawCall.run G c p).2.output = p.output := by
  have same := congrArg (fun r => r.2.output) (run_commutes (G := G) p.output native p)
  exact same

/-- How a call goes owes nothing to the error cached before it. -/
theorem Plugin.outcome_setOutput (c : Request) (p : Plugin σ) :
    (p.setOutput o).outcome G c = p.outcome G c := by
  unfold Plugin.outcome
  cases kind : c.useExtism with
  | true =>
      rcases run_forgets o kind p with ⟨e, left, right⟩ | same
      · have stained : rawCall.run G c (p.setOutput o) = (.error e, _) := Prod.ext left rfl
        have clean : rawCall.run G c p = (.error e, _) := Prod.ext right rfl
        rw [stained, clean]
      · rw [same]
  | false =>
      rw [run_commutes o kind p]
      rcases rawCall.run G c p with ⟨e | ⟨res, results⟩, p'⟩ <;> rfl

end Frames

/-- How a call through an entry point goes owes nothing to the error cached
before it. -/
theorem Entry.outcome_setOutput (x : Entry) (p : Plugin σ) (o : Output) :
    x.outcome G (p.setOutput o) = x.outcome G p := by
  unfold Entry.outcome
  cases x.request with
  | error e => rfl
  | ok c => exact Plugin.outcome_setOutput o c p

/-- With `use_extism` the function is called with no error cached and none
recorded in the kernel. -/
theorem prepare_ensures {c : Request} (extism : c.useExtism = true) :
    Ensures (fun _ => True) (rawCall.prepare G c) fun _ p =>
      p.output = .default ∧ p.kernel.ErrorFree := by
  unfold rawCall.prepare
  rw [if_pos extism, if_pos extism]
  refine (Ensures.trivial _).bind fun _ => (Ensures.trivial _).bind fun _ => ?_
  exact Plugin.setInput_ensures c.input

/-! ## What a call reports -/

section Verdict

variable {c : Request} {p : Plugin σ}

/-- A verdict is good exactly on a call that ended well. -/
theorem Outcome.verdict_isOk (o : Outcome) : (o.verdict c).isOk = true ↔ o.EndedWell := by
  cases o with
  | refused e => simp [Outcome.verdict, Outcome.EndedWell, Except.isOk, Except.toBool]
  | ended res results message =>
      by_cases set : message = none
      · subst set
        have plain := rawCall.withMessage_none c.name res
        simp only [Outcome.verdict, rawCall.conclude, plain, Outcome.EndedWell, true_and]
        cases res with
        | ok u => simp [Except.isOk, Except.toBool]
        | error e =>
            cases exit : e.i32Exit with
            | none =>
                obtain ⟨e', classified⟩ :=
                  rawCall.classify_of_noExit exit (rawCall.returnCode c.useExtism results)
                simp [classified, Except.map, Except.isOk, Except.toBool, exit]
            | some code =>
                by_cases zero : code = 0 <;>
                  simp [rawCall.classify, exit, zero, Except.map, Except.isOk, Except.toBool]
      · -- a message makes every call fail
        obtain ⟨e, failed, exit⟩ := rawCall.withMessage_of_some set c.name res
        obtain ⟨e', classified⟩ :=
          rawCall.classify_of_noExit exit (rawCall.returnCode c.useExtism results)
        simp [Outcome.verdict, rawCall.conclude, failed, classified, Except.map, Except.isOk,
          Except.toBool, Outcome.EndedWell, set]

/-- The values tell whether a verdict is good. -/
theorem valuesOf_eq_none (r : Except (Error × Int32) (Int32 × List Val)) :
    valuesOf r = none ↔ r.isOk = false := by
  cases r <;> simp [valuesOf, Except.isOk, Except.toBool]

/-- No message is found exactly if no error is cached. -/
theorem Plugin.errorMessage_eq_none : p.errorMessage = none ↔ p.NoCachedError := by
  unfold Plugin.errorMessage Plugin.NoCachedError
  split
  case isTrue cached => simp [cached.1, cached.2]
  case isFalse clean =>
    simp only [true_iff]
    omega

/-- **A call without `use_extism`** gets the verdict on how it went if no error was
cached, and fails otherwise. -/
theorem rawCall_native (native : c.useExtism = false) :
    (p.NoCachedError → (p.rawCall G c).1 = (p.outcome G c).verdict c) ∧
      (¬ p.NoCachedError → (p.rawCall G c).1.isOk = false) := by
  have kept := output_of_run (G := G) native p
  rcases ran : rawCall.run G c p with ⟨e | ⟨res, results⟩, p'⟩
  · obtain ⟨returned, went⟩ := rawCall_of_refused ran
    rw [returned, went]
    exact ⟨fun _ => rfl, fun _ => rfl⟩
  · obtain ⟨returned, went⟩ := rawCall_of_ended ran
    have same : p'.NoCachedError ↔ p.NoCachedError := by
      rw [ran] at kept
      unfold Plugin.NoCachedError
      rw [← kept]
    rw [returned, went, native, ← same, ← Plugin.errorMessage_eq_none]
    refine ⟨fun none => by rw [none]; rfl, fun cached => Bool.eq_false_iff.2 fun good => ?_⟩
    have well := (Outcome.verdict_isOk (c := c) (.ended res results p'.errorMessage)).1 good
    exact cached well.1

end Verdict

section Clean

/-- The plugin as a call leaves it before its function is looked up, and as
`return_error` finds it, but for memory and output. -/
def Entry.prepared (p : Plugin σ) (x : Entry) : Plugin σ :=
  match x.request with
  | .error _ => p
  | .ok c => (rawCall.prepare G c p).2

/-- A call that ends well does not take an error cached before for its own: it
fetches the error anew, or none is cached; or nobody is told, and the error can
be recorded once more. -/
def Entry.Undeceived (p : Plugin σ) : Entry → Prop
  | .extismPluginCall _ _ => True
  | x@(.wasmPluginCallWithoutResults _ _) => p.NoCachedError ∨ (x.prepared G p).Connected
  | .wasmOtoroshiCall _ _ => p.NoCachedError
  | .wasmPluginCallWithoutParams _ => p.NoCachedError

/-- **A clean call**: if it ends well it is not deceived by an old error, and if it
does not its own error can be recorded. -/
structure Entry.Clean (p : Plugin σ) (x : Entry) : Prop where
  undeceived : (x.outcome G p).EndedWell → x.Undeceived G p
  connected : ¬ (x.outcome G p).EndedWell → (x.prepared G p).Connected

variable {G} {p : Plugin σ} {x : Entry}

/-- A call whose name is no string is clean if its error can be recorded. -/
theorem Entry.clean_of_badName {e : Error} (bad : x.request = .error e) :
    x.Clean G p ↔ p.Connected := by
  have prepared : x.prepared G p = p := by rw [Entry.prepared, bad]
  have refused : ¬ (x.outcome G p).EndedWell := by
    rw [Entry.outcome, bad]
    exact id
  constructor
  · intro clean
    rw [← prepared]
    exact clean.connected refused
  · intro connected
    rw [← prepared] at connected
    exact ⟨fun well => absurd well refused, fun _ => connected⟩

/-- A call whose name is a string, by how its `raw_call` goes. -/
theorem Entry.clean_of_request {c : Request} (asked : x.request = .ok c) :
    x.Clean G p ↔ ((p.outcome G c).EndedWell → x.Undeceived G p) ∧
      (¬ (p.outcome G c).EndedWell → (rawCall.prepare G c p).2.Connected) := by
  have prepared : x.prepared G p = (rawCall.prepare G c p).2 := by rw [Entry.prepared, asked]
  have went : x.outcome G p = p.outcome G c := by rw [Entry.outcome, asked]
  rw [← went, ← prepared]
  exact ⟨fun clean => ⟨clean.1, clean.2⟩, fun clean => ⟨clean.1, clean.2⟩⟩

section Returned

variable {c : Request}

/-- With `use_extism` what is returned is right unless the error of the call cannot
be recorded. -/
theorem returned_status_iff (extism : c.useExtism = true) :
    returned (fun r => Report.status (statusOf r)) (p.rawCall G c) =
        some (.status (statusOf ((p.outcome G c).verdict c))) ↔
      (¬ (p.outcome G c).EndedWell → (rawCall.prepare G c p).2.Connected) := by
  rw [returned_eq_some, Plugin.connected_rawCall, rawCall_eq_verdict p extism, Outcome.verdict_isOk,
    and_iff_left rfl]
  exact or_iff_not_imp_left

/-- Without, an error that is cached hides that the call went well. -/
theorem returned_values_iff (native : c.useExtism = false) :
    returned (fun r => Report.values (valuesOf r)) (p.rawCall G c) =
        some (.values (valuesOf ((p.outcome G c).verdict c))) ↔
      ((p.outcome G c).EndedWell → p.NoCachedError) ∧
        (¬ (p.outcome G c).EndedWell → (rawCall.prepare G c p).2.Connected) := by
  obtain ⟨right, wrong⟩ := rawCall_native (G := G) (p := p) native
  rw [returned_eq_some, Plugin.connected_rawCall, Report.values.injEq]
  by_cases clean : p.NoCachedError
  · rw [right clean, Outcome.verdict_isOk, and_iff_left rfl]
    simp only [clean, implies_true, true_and]
    exact or_iff_not_imp_left
  · have none := wrong clean
    have failed : ((p.outcome G c).verdict c).isOk = false ↔ ¬ (p.outcome G c).EndedWell := by
      rw [← Outcome.verdict_isOk (c := c), Bool.not_eq_true]
    rw [none, (valuesOf_eq_none _).2 none, eq_comm (a := (.none : Option (List Val))),
      valuesOf_eq_none, failed]
    simp only [clean, Bool.false_eq_true, false_or, imp_false]
    exact ⟨fun h => ⟨h.2, fun _ => h.1⟩, fun h => ⟨h.2 h.1, h.1⟩⟩

/-- Nor is there a report where nobody is told, if the old error cannot be recorded
once more. -/
theorem returned_nothing_iff (native : c.useExtism = false) :
    returned (fun _ => Report.nothing) (p.rawCall G c) = some .nothing ↔
      ((p.outcome G c).EndedWell → p.NoCachedError ∨ (rawCall.prepare G c p).2.Connected) ∧
        (¬ (p.outcome G c).EndedWell → (rawCall.prepare G c p).2.Connected) := by
  obtain ⟨right, wrong⟩ := rawCall_native (G := G) (p := p) native
  rw [returned_eq_some, Plugin.connected_rawCall, and_iff_left rfl]
  by_cases clean : p.NoCachedError
  · rw [right clean, Outcome.verdict_isOk]
    simp only [clean, true_or, implies_true, true_and]
    exact or_iff_not_imp_left
  · rw [wrong clean]
    simp only [clean, Bool.false_eq_true, false_or]
    exact ⟨fun connected => ⟨fun _ => connected, fun _ => connected⟩,
      fun h => (em _).elim h.1 h.2⟩

end Returned

/-- **A call gets the report that how it went calls for**, if and only if it is
clean. -/
theorem report_eq_iff (p : Plugin σ) (x : Entry) :
    (x.call G p).map Prod.fst = some (x.report (x.outcome G p)) ↔ x.Clean G p := by
  rw [Entry.call_fst, Entry.report, Entry.verdict]
  cases asked : x.request with
  | error e =>
      rw [Entry.clean_of_badName asked]
      simp
  | ok c =>
      have went : x.outcome G p = p.outcome G c := by rw [Entry.outcome, asked]
      rw [Entry.clean_of_request asked, went]
      cases x with
      | extismPluginCall name data =>
          obtain ⟨n, -, rfl⟩ := Except.map_eq_ok asked
          refine (returned_status_iff rfl).trans ?_
          simp only [Entry.Undeceived, implies_true, true_and]
      | wasmOtoroshiCall name params =>
          obtain ⟨n, -, rfl⟩ := Except.map_eq_ok asked
          exact returned_values_iff rfl
      | wasmPluginCallWithoutParams name =>
          obtain ⟨n, -, rfl⟩ := Except.map_eq_ok asked
          exact returned_values_iff rfl
      | wasmPluginCallWithoutResults name params =>
          have prepared : (Entry.wasmPluginCallWithoutResults name params).prepared G p =
              (rawCall.prepare G c p).2 := by rw [Entry.prepared, asked]
          obtain ⟨n, -, rfl⟩ := Except.map_eq_ok asked
          rw [Entry.Undeceived, prepared]
          exact returned_nothing_iff rfl

end Clean

/-! ## Sessions -/

/-- A plugin, and what the calls on it reported, each report beside the one that
how the call went calls for. -/
structure Session (σ : Type) where
  plugin : Plugin σ
  reports : List (Report × Report)

/-- Make a call, and note what it reports; there is no step through a crash. -/
def Session.step (s : Session σ) (x : Entry) : Option (Session σ) :=
  (x.call G s.plugin).map fun r =>
    ⟨r.2, (r.1, x.report (x.outcome G s.plugin)) :: s.reports⟩

/-- The sessions of a guest: any calls in any order, on a new plugin. -/
def sessions : TransitionSystem (Session σ) Entry :=
  .ofStep (fun s => s.plugin.New ∧ s.reports = []) (Session.step G)

/-- The sessions all of whose calls are clean. -/
def cleanSessions : TransitionSystem (Session σ) Entry :=
  (sessions G).restrict fun s x => x.Clean G s.plugin

/-- In a session of clean calls every report is the right one. -/
theorem reports_of_clean {s : Session σ} (reach : (cleanSessions G).Reachable s) :
    ∀ r ∈ s.reports, r.1 = r.2 := by
  refine reach.invariant (I := fun s => ∀ r ∈ s.reports, r.1 = r.2) ?_ ?_
  · rintro s ⟨-, none⟩
    simp [none]
  · rintro s t x right ⟨clean, step⟩
    obtain ⟨⟨report, q⟩, called, rfl⟩ := Option.map_eq_some_iff.1 step
    have told := (report_eq_iff s.plugin x).2 clean
    rw [called] at told
    intro r mem
    rcases List.mem_cons.1 mem with rfl | old
    · exact Option.some.inj told
    · exact right r old

/-- **No error leaks, except one way.**  How a call goes owes nothing to the
error cached before it, and with `use_extism` nothing to one recorded in the
kernel; it comes back with the right report for how it went exactly if it is
clean; so in a session of clean calls all reports are right, and every call comes
back. -/
theorem errors_leak_only_uncleanly :
    (∀ (x : Entry) (p : Plugin σ) (o : Output),
        x.outcome G (p.setOutput o) = x.outcome G p) ∧
      (∀ (c : Request) (p p' : Plugin σ), c.useExtism = true →
        rawCall.prepare G c p = (.ok (), p') →
          p'.output = .default ∧ p'.kernel.ErrorFree) ∧
      (∀ (x : Entry) (p : Plugin σ),
        (x.call G p).map Prod.fst = some (x.report (x.outcome G p)) ↔ x.Clean G p) ∧
      ∀ s : Session σ, (cleanSessions G).Reachable s → ∀ r ∈ s.reports, r.1 = r.2 :=
  ⟨Entry.outcome_setOutput G, fun _ p p' extism ran =>
    prepare_ensures G extism p () p' trivial ran, fun x p => report_eq_iff p x,
    fun _ => reports_of_clean G⟩

/-- A guest with one function, which returns. -/
def returning : Guest Unit := .scripted [("run", ⟨[], []⟩)] []

namespace Session

/-- A session of that guest, gone on with. -/
def after (s : Session Unit) (x : Entry) : Session Unit := (s.step returning x).getD s

variable {s : Session Unit} {x : Entry}

theorem step_after (back : (x.call returning s.plugin).isSome) :
    s.step returning x = some (s.after x) := by
  obtain ⟨r, called⟩ := Option.isSome_iff_exists.1 back
  rw [after, step, called]
  rfl

theorem clean_step_after (right : (x.call returning s.plugin).map Prod.fst =
      some (x.report (x.outcome returning s.plugin))) :
    (cleanSessions returning).step s x (s.after x) := by
  refine ⟨(report_eq_iff s.plugin x).1 right, step_after ?_⟩
  rw [← Option.isSome_map (f := Prod.fst), right]
  rfl

end Session

/-- A function that does not exist is called natively, and then one that returns,
by `extism_plugin_call`, which is not misled. -/
theorem right_after_failure :
    let run : Entry := .extismPluginCall (.ok "run") none
    let missing : Entry := .wasmPluginCallWithoutParams (.ok "missing")
    let s : Session Unit := (((Session.mk (.fresh ()) []).after run).after missing).after run
    s.reports.map Prod.fst = [.status 0, .values none, .status 0] ∧
      ∀ r ∈ s.reports, r.1 = r.2 := by
  intro run missing s
  refine ⟨by decide +kernel, (errors_leak_only_uncleanly returning).2.2.2 s ?_⟩
  have start : (cleanSessions returning).Reachable (.mk (.fresh ()) []) :=
    .of_init ⟨Plugin.new_fresh (), rfl⟩
  exact ((start.step (Session.clean_step_after (by decide +kernel))).step
    (Session.clean_step_after (by decide +kernel))).step
      (Session.clean_step_after (by decide +kernel))

/-- A native call after that one fails, though its function returns. -/
theorem not_every_report_right :
    ¬ ∀ s : Session Unit, (sessions returning).Reachable s → ∀ r ∈ s.reports, r.1 = r.2 := by
  intro right
  let first : Entry := .extismPluginCall (.ok "run") none
  let missing : Entry := .wasmPluginCallWithoutParams (.ok "missing")
  let run : Entry := .wasmPluginCallWithoutParams (.ok "run")
  let s : Session Unit := (((Session.mk (.fresh ()) []).after first).after missing).after run
  have start : (sessions returning).Reachable (.mk (.fresh ()) []) :=
    .of_init ⟨Plugin.new_fresh (), rfl⟩
  have reach : (sessions returning).Reachable s :=
    ((start.step (Session.step_after (by decide +kernel))).step
      (Session.step_after (by decide +kernel))).step (Session.step_after (by decide +kernel))
  have told : s.reports = [(.values none, .values (some [])), (.values none, .values none),
      (.status 0, .status 0)] := by
    decide +kernel
  have same := right s reach (.values none, .values (some [])) (by simp [told])
  simp at same

end Extism.Runtime
