import Extism.Runtime.HostRuns

/-!
# What holds in every run of a plugin

Host functions are functions on values, if the guest keeps to the kernel's
contract.  Requests go to allowed hosts only, whatever the guest does: what a
request says is read from memory, and then checked, and nothing else is sent.

## Main definitions

* `Placed` — the objects at the inputs are encodings of the arguments.
* `HostFn.Returns` — how a typed host function ends whose block ended so.
* `askingRuns` — the part of a plugin that sends and logs, beside a guest that
  may do anything to the kernel's memory.
* `Outgoing.Permitted` — what was sent was allowed, and the status is right.

## Main results

* `hostFn_returns` — in every run of a plugin, what the block of a host function
  returns is decoded from the answer, or the memory refuses it.
* `requests_permitted` — every request that was handed to the client was allowed;
  `permitted_of_hostRuns` is the case of the plugins of `hostRuns`.
-/

namespace Extism.Runtime

open Kernel (Instance Config Call confinedRuns)
open ObjectStore (Store Op)
open Prog (Keeps Ensures)

variable (E : HostEnv) {D : Type}

/-! ## Typed host functions -/

/-- The objects at the inputs are encodings of the arguments, from `inputs[index]`
on. -/
def Placed (s : Store ℕ UInt8) (inputs : List Val) :
    (ts : List Convert.ValueType) → ℕ → Args ts → Prop
  | [], _, _ => True
  | t :: ts, index, (x, xs) =>
      (∃ offs bytes, inputs[index]? = some offs ∧ block s offs.offset = some bytes ∧
          Convert.toBytes x = .ok bytes ∧ ¬ t.Lost x) ∧
        Placed s inputs ts (index + 1) xs

/-- What is placed is received. -/
theorem HostFn.received_of_placed {s : Store ℕ UInt8} {inputs : List Val}
    {ts : List Convert.ValueType} {index : ℕ} {xs : Args ts}
    (placed : Placed s inputs ts index xs) :
    received E.report E.debug E.owner.id s inputs ts index = .ok xs := by
  induction ts generalizing index with
  | nil => rfl
  | cons t ts ih =>
      obtain ⟨x, xs⟩ := xs
      obtain ⟨⟨offs, bytes, passed, there, encoded, kept⟩, rest⟩ := placed
      obtain ⟨bytes', encoded', decoded⟩ := Convert.fromBytes_toBytes t x
      obtain rfl : bytes = bytes' := Except.ok.inj (encoded.symm.trans encoded')
      have there' : receivedAt E.report E.debug E.owner.id s t offs = .ok x := by
        rw [receivedAt, there, Option.elim_some, decoded kept]
        rfl
      have passed' : input inputs index = .ok offs := by
        rw [input, passed]
        rfl
      rw [received, passed']
      change ((receivedAt E.report E.debug E.owner.id s t offs).mapError Stop.failed >>= _) = _
      rw [there']
      change (received E.report E.debug E.owner.id s inputs ts (index + 1) >>= _) = _
      rw [ih rest]
      rfl

/-- How a typed host function ends whose block ended so: what the block returned
is in a new object, or the memory refuses its length; no object is gone. -/
def HostFn.Returns (f : HostFn D) (refuses : ℕ → Option Error) (outputs : List Val)
    (s : Store ℕ UInt8) :
    Except Stop f.result.Value × D → Except Stop (List Val) → D → Store ℕ UInt8 → Prop
  | (.error e, d), r, d', t => r = .error e ∧ d' = d ∧ t = s
  | (.ok y, d), r, d', t => d' = d ∧ (∀ h old, s h = some old → t h = some old) ∧
      ∃ bytes : List UInt8, Convert.toBytes y = .ok bytes ∧
        (¬ f.result.Lost y → Convert.fromBytes bytes = .ok y) ∧
        ((∃ e, refuses bytes.length = some e ∧ r = .error (.failed e) ∧ t = s) ∨
          refuses bytes.length = none ∧
            ∃ h, r = .ok (answer outputs ⟨h, bytes.length⟩) ∧ block t h = some bytes)

theorem HostFn.Applies.returns {f : HostFn D} {inputs outputs : List Val} {d d' : D}
    {s t : Store ℕ UInt8} {r : Except Stop (List Val)} {refuses : ℕ → Option Error}
    (nothing : refuses 0 = none)
    (does : Applies E.report E.debug f E.owner.id refuses inputs outputs d s r d' t)
    {xs : Args f.params}
    (reads : received E.report E.debug E.owner.id s inputs f.params 0 = .ok xs) :
    f.Returns refuses outputs s (f.body xs d) r d' t := by
  cases does with
  | refused reads' =>
      rw [reads'] at reads
      simp at reads
  | failed reads' ran =>
      obtain rfl := Except.ok.inj (reads'.symm.trans reads)
      rw [ran]
      exact ⟨rfl, rfl, rfl⟩
  | @returned _ y _ data r _ reads' ran encoded hands =>
      obtain rfl := Except.ok.inj (reads'.symm.trans reads)
      obtain ⟨data', encoded', decoded⟩ := Convert.fromBytes_toBytes f.result y
      obtain rfl : data = data' := Except.ok.inj (encoded.symm.trans encoded')
      rw [ran]
      cases r with
      | error e =>
          obtain ⟨full, rfl⟩ := hands.of_error
          exact ⟨rfl, fun h old there => there, data, encoded, decoded,
            .inl ⟨e, full, rfl, rfl⟩⟩
      | ok h =>
          obtain ⟨there, kept⟩ := hands.of_ok
          exact ⟨rfl, kept, data, encoded, decoded,
            .inr ⟨hands.granted_of_ok nothing, h, rfl, there⟩⟩

/-- `host_fn!(hello_world (a: String) -> String { Ok(a) })`. -/
def helloWorld : HostFn Unit where
  params := [.string]
  result := .string
  body xs := pure xs.1

/-- The host of a URL is on the list. -/
def HttpClient.Allowed (C : HttpClient) (allowedHosts : Option (List String)) (url : String) :
    Prop :=
  ∃ host hosts, C.host url = .ok host ∧ allowedHosts = some hosts ∧
    ∃ pat ∈ hosts, C.hostMatches (host.getD "") pat = true

/-- The status of the last response, 0 before the first. -/
def lastStatus (xs : List Exchange) : UInt16 :=
  (xs.filterMap Exchange.response).getLast?.elim 0 Response.status

theorem lastStatus_append (xs : List Exchange) (x : Option Exchange) :
    lastStatus (xs ++ x.toList) = Exchange.status (lastStatus xs) x := by
  rw [lastStatus, List.filterMap_append]
  cases x with
  | none => simp [Exchange.status, lastStatus]
  | some x =>
      cases response : x.response with
      | none => simp [Exchange.status, lastStatus, response]
      | some res => simp [Exchange.status, response]

theorem HttpClient.allowed_of_check {C : HttpClient} {allowedHosts : Option (List String)}
    {q : HttpRequest} (passed : Pdk.httpRequest.check C allowedHosts q = .ok ()) :
    C.Allowed allowedHosts q.url := by
  obtain ⟨host, parsed, passed⟩ := Except.bind_eq_ok passed
  have found : C.host q.url = .ok host := by
    cases url : C.host q.url with
    | error e =>
        rw [url] at parsed
        simp [Except.mapError] at parsed
    | ok host' =>
        rw [url] at parsed
        rw [Except.ok.inj parsed]
  split at passed
  case isTrue allowed =>
    cases allowedHosts with
    | none => simp [HttpClient.allows] at allowed
    | some hosts =>
        obtain ⟨pat, mem, fits⟩ := List.any_eq_true.1 allowed
        exact ⟨host, hosts, found, rfl, pat, mem, fits⟩
  case isFalse => simp at passed

/-- **What goes out was checked**, whatever the kernel's memory holds. -/
theorem prepare_allowed (C : HttpClient) (allowedHosts : Option (List String)) (req body : ℕ) :
    Ensures (fun _ => True) (Pdk.httpRequest.prepare C allowedHosts req body) fun sent _ =>
      C.Allowed allowedHosts sent.url := by
  intro m sent m' _ ran
  obtain ⟨q, m₁, -, ran⟩ := Prog.bind_eq_ok ran
  obtain ⟨⟨⟩, m₂, checked, ran⟩ := Prog.bind_eq_ok ran
  obtain ⟨data, m₃, -, ran⟩ := Prog.bind_eq_ok ran
  obtain ⟨-, rfl⟩ := Prog.of_pure ran
  exact HttpClient.allowed_of_check (congrArg Prod.fst checked)

/-- Requests went to allowed hosts, and the status is that of the last response. -/
structure Outgoing.Permitted (p : Outgoing) : Prop where
  allowed : ∀ x ∈ p.exchanges, E.http.Allowed E.allowedHosts x.sent.url
  status : p.httpStatus = lastStatus p.exchanges

/-- What a guest makes of the part of its plugin that sends and logs, with what
was answered. -/
inductive Asking
  /-- The kernel changes in any way, its memory included. -/
  | memory (m : Instance)
  | httpRequest (web : Web) (req body : ℕ) (r : Except Error ℕ)
  | httpStatusCode (r : Except Error Val)
  | log (level : Level) (k : ℕ) (r : Except Error Unit)

/-- **The runs of that part**, beside a guest that may do anything.  Where such a
guest makes the host read outside the memory and crash, nothing is sent. -/
def askingRuns : TransitionSystem Outgoing Asking where
  init p := p.httpStatus = 0 ∧ p.exchanges = []
  step p
    | .memory m, q => q = { p with kernel := m }
    | .httpRequest web req body r, q =>
        Pdk.httpRequest E.http E.owner E.allowedHosts web req body p = (r, q)
    | .httpStatusCode r, q => Pdk.httpStatusCode p = (r, q)
    | .log level k r, q => Pdk.log E.owner.id E.unable level k p = (r, q)

section Asking

variable {E} {p q : Outgoing}

theorem withKernel_permitted {α : Type} (x : KernelExec α) :
    Keeps (Outgoing.Permitted E) (Pdk.withKernel x) :=
  .zoom (fun _ _ P => ⟨P.allowed, P.status⟩) x

theorem send_permitted (web : Web) {sent : Sent}
    (allowed : E.http.Allowed E.allowedHosts sent.url) :
    Keeps (Outgoing.Permitted E) (Pdk.httpRequest.send web sent) := by
  refine Keeps.bind (.modify fun p P => ⟨?_, ?_⟩) fun _ => .pure _
  · intro x mem
    rcases List.mem_append.1 mem with mem | mem
    · exact P.allowed x mem
    · obtain rfl := List.mem_singleton.1 mem
      exact allowed
  · change Exchange.status p.httpStatus (some ⟨sent, web.response sent⟩) =
      lastStatus (p.exchanges ++ (some (Exchange.mk sent (web.response sent))).toList)
    rw [lastStatus_append, P.status]

/-- **`http_request`** sends nothing that is not allowed. -/
theorem httpRequest_permitted (web : Web) (req body : ℕ) :
    Keeps (Outgoing.Permitted E)
      (Pdk.httpRequest E.http E.owner E.allowedHosts web req body) := by
  intro p P
  have prepared := withKernel_permitted (Pdk.httpRequest.prepare E.http E.allowedHosts req body) p P
  rw [Pdk.httpRequest]
  rcases ran : Pdk.withKernel (Pdk.httpRequest.prepare E.http E.allowedHosts req body) p
    with ⟨e | sent, p₁⟩ <;> rw [ran] at prepared
  · rw [Prog.bind_error ran]
    exact prepared
  · rw [Prog.bind_ok ran]
    obtain ⟨m, checked, -⟩ := Prog.of_zoom ran
    have allowed := prepare_allowed E.http E.allowedHosts req body _ _ _ trivial checked
    exact ((send_permitted web allowed).bind fun _ => withKernel_permitted _) p₁ prepared

/-- **One step**, of the guest or of the host. -/
theorem Outgoing.Permitted.step (P : p.Permitted E) {a : Asking}
    (step : (askingRuns E).step p a q) :
    q.Permitted E := by
  cases a with
  | memory m =>
      obtain rfl := step
      exact ⟨P.allowed, P.status⟩
  | httpRequest web req body r =>
      have kept := httpRequest_permitted web req body p P
      rwa [show _ = (r, q) from step] at kept
  | httpStatusCode r =>
      obtain rfl := (Prod.mk.inj step).2
      exact P
  | log level k r =>
      have kept : Keeps (Outgoing.Permitted E) (Pdk.log E.owner.id E.unable level k) := by
        refine (withKernel_permitted _).bind fun _ => ?_
        exact .modify fun _ P => ⟨P.allowed, P.status⟩
      have left := kept p P
      rwa [show Pdk.log E.owner.id E.unable level k p = (r, q) from step] at left

theorem permitted_of_askingRuns (reach : (askingRuns E).Reachable p) : p.Permitted E := by
  refine reach.invariant (I := Outgoing.Permitted E) ?_ fun P step => P.step step
  rintro p ⟨status, none⟩
  refine ⟨fun x mem => ?_, ?_⟩
  · rw [none] at mem
    exact absurd mem List.not_mem_nil
  · rw [status, none]
    rfl

/-- The plugins of `hostRuns` are among these. -/
theorem permitted_of_hostRuns {s : HostState D} (reach : (hostRuns E D).Reachable s) :
    s.outgoing.Permitted E := by
  refine permitted_of_askingRuns
    (reach.invariant (I := fun s : HostState D => (askingRuns E).Reachable s.outgoing) ?_ ?_)
  · rintro s ⟨-, -, new⟩
    rw [new]
    exact .of_init ⟨rfl, rfl⟩
  · intro s t a asked step
    -- what neither sends nor logs is a change of the kernel
    have moved : ∀ m : Instance, t.outgoing = { s.outgoing with kernel := m } →
        (askingRuns E).Reachable t.outgoing := fun m same => asked.step (l := .memory m) same
    cases a with
    | httpRequest web req body r => exact asked.step (l := .httpRequest web req body r) step.1
    | log level k r => exact asked.step (l := .log level k r) step.1
    | httpStatusCode v => exact step.2 ▸ asked
    | memoryFree h => exact moved t.memory.kernel (by rw [step.2]; rfl)
    | guest l => exact moved t.memory.kernel (by rw [step.2.2]; rfl)
    | trapped n => exact moved t.memory.kernel (by rw [step.2.2]; rfl)
    | configGet k r => exact moved t.memory.kernel (by rw [step.2]; simp [HostState.outgoing])
    | varGet k r => exact moved t.memory.kernel (by rw [step.2]; simp [HostState.outgoing])
    | varSet k v r => exact moved t.memory.kernel (by rw [step.2]; rfl)
    | hostFn f inputs outputs r => exact moved t.memory.kernel (by rw [step.2.2]; rfl)
    | memoryAlloc n h => exact moved t.memory.kernel (by rw [step.2.2]; rfl)
    | memoryLength h n => exact moved t.memory.kernel (by rw [step.2]; rfl)
    | pluginConfig json => exact moved t.memory.kernel (by rw [step.2.2]; rfl)

end Asking

/-- **Requests go to allowed hosts.**  Whatever a guest puts into memory and asks
for, everything that was handed to the client had a URL whose host is on the
list, and without a list nothing was.  (Where the client is sent on from there is
not seen here.)  `http_status_code` answers with the status of the last
response. -/
theorem requests_permitted {p : Outgoing} (reach : (askingRuns E).Reachable p) :
    (∀ x ∈ p.exchanges, E.http.Allowed E.allowedHosts x.sent.url) ∧
      (E.allowedHosts = none → p.exchanges = []) ∧
      ∀ r q, (askingRuns E).step p (.httpStatusCode r) q →
        r = .ok (.i32 (.ofNat (lastStatus p.exchanges).toNat)) := by
  have P := permitted_of_askingRuns reach
  refine ⟨P.allowed, fun none => ?_, fun r q step => ?_⟩
  · refine List.eq_nil_iff_forall_not_mem.2 fun x mem => ?_
    obtain ⟨host, hosts, -, some, -⟩ := P.allowed x mem
    rw [none] at some
    simp at some
  · rw [← P.status]
    exact (Prod.mk.inj step).1.symm

/-- A guest that has stored a request. -/
def requestingMemory : Config :=
  ((Config.fresh 1 fun _ => false).after (.alloc 22) 77).after
    (.hostWrite 77 "\x7b\"url\":\"http://a.org\"\x7d".toUTF8.toList) 0

/-- What `http_request` does with it when the answer is `hi`. -/
def requested : Except Error ℕ × Outgoing :=
  Pdk.httpRequest sampleEnv.http sampleEnv.owner sampleEnv.allowedHosts
    (fun _ => .ok ⟨200, [104, 105], none⟩) 77 0 ⟨requestingMemory.kernel, 0, [], []⟩

theorem requests_permitted_of_hi :
    requested.2.exchanges.map Exchange.sent = [⟨"GET", "http://a.org", [], none⟩] ∧
      (∀ x ∈ requested.2.exchanges,
        sampleEnv.http.Allowed sampleEnv.allowedHosts x.sent.url) ∧
      (sampleEnv.allowedHosts = none → requested.2.exchanges = []) ∧
      ∀ r q, (askingRuns sampleEnv).step requested.2 (.httpStatusCode r) q →
        r = .ok (.i32 (.ofNat (lastStatus requested.2.exchanges).toNat)) := by
  have start : (askingRuns sampleEnv).Reachable ⟨requestingMemory.kernel, 0, [], []⟩ :=
    .of_init ⟨rfl, rfl⟩
  have reach : (askingRuns sampleEnv).Reachable requested.2 :=
    start.step (l := .httpRequest (fun _ => .ok ⟨200, [104, 105], none⟩) 77 0 requested.1) rfl
  exact ⟨by decide +kernel, requests_permitted sampleEnv reach⟩

end Extism.Runtime
