import Extism.Runtime.HostObjects
import Extism.Runtime.Manifest

/-!
# What a guest sends out

`http_request` sends a request for the guest, if the plugin's manifest allows the
host of its URL, and hands the response over; `http_status_code` is the status of
the last one.  The log functions print a text of the guest's.

The parser of requests, that of URLs and the patterns for hosts are parameters.
What the network makes of a request is one too, of each call: a status and a
body, of which the runtime reads no more than `HTTP_LIMIT` bytes, or no response
at all.

## Main definitions

* `HttpClient`, `Web` — what `http_request` rests on, and what becomes of requests.
* `Outgoing` — what these functions use of a plugin, and what they did outside of
  it.
* `Pdk.httpRequest`, `Pdk.httpStatusCode`, `Pdk.log` — the functions.
* `HttpClient.asked`, `HttpClient.exchange` — the request that objects ask for, and
  what is sent with what comes back.
* `Receives`, `Requests` — what becomes of a response, and what is handed over.

## Main results

* `Good.prepare` — the checks of `http_request` read objects, and change nothing.
* `Response.length_le_of_read` — no more than the limit is read.
* `Good.httpRequest`, `Good.log` — both, on every offset.
-/

namespace Extism.Runtime

open Kernel (Instance Config Sound)
open FirstFit (Cell)
open ObjectStore (Store)

/-- What `http_request` rests on. -/
structure HttpClient where
  /-- `serde_json::from_slice`. -/
  json : List UInt8 → Except Error HttpRequest
  /-- `Url::parse` and `host_str`; the error is as `{:?}` prints it. -/
  host : String → Except String (Option String)
  /-- `Pattern::new` and `matches`. -/
  pattern : String → Option (String → Bool)

/-- A request as it is given to the client. -/
structure Sent where
  method : String
  url : String
  headers : List (String × String)
  /-- The bytes of `send_bytes`; `call` sends none. -/
  body : Option (List UInt8)
  deriving DecidableEq

/-- A response. -/
structure Response where
  status : UInt16
  /-- The bytes the reader gives. -/
  body : List UInt8
  /-- The error it ends with, if it does. -/
  broken : Option Error
  deriving DecidableEq

/-- What becomes of requests: an error is one of the transport, or a response
with a status that says so. -/
abbrev Web : Type := Sent → Except (Option Response) Response

/-- The response, whatever its status. -/
def Web.response (web : Web) (sent : Sent) : Option Response :=
  match web sent with
  | .ok res => some res
  | .error res => res

/-- 50 MiB. -/
def HTTP_LIMIT : ℕ := 1024 * 1024 * 50

/-- The bytes read: the error behind the limit is not met. -/
def Response.read (res : Response) : Except Error (List UInt8) :=
  if res.body.length < HTTP_LIMIT then res.broken.elim (.ok res.body) .error
  else .ok (res.body.take HTTP_LIMIT)

/-- A request that was sent, with what came back. -/
structure Exchange where
  sent : Sent
  response : Option Response
  deriving DecidableEq

/-- The levels of `tracing`. -/
inductive Level
  | error
  | warn
  | info
  | debug
  | trace
  deriving DecidableEq, Repr

/-- A line that was logged for a plugin. -/
structure LogLine where
  level : Level
  plugin : String
  text : String
  deriving DecidableEq, Repr

/-- What the functions below use of a `CurrentPlugin`, and what they did outside
of it. -/
structure Outgoing where
  kernel : Instance
  httpStatus : UInt16
  exchanges : List Exchange
  logged : List LogLine

namespace HttpClient

variable (C : HttpClient)

/-- A pattern that is none is a name. -/
def hostMatches (host url : String) : Bool :=
  match C.pattern url with
  | some pat => pat host
  | none => url == host

/-- Whether a host is allowed; without a list none is. -/
def allows (allowedHosts : Option (List String)) (host : String) : Bool :=
  match allowedHosts with
  | some hosts => hosts.any (C.hostMatches host)
  | none => false

end HttpClient

namespace Pdk

/-- A computation on the kernel. -/
def withKernel {α : Type} (x : KernelExec α) : Prog Outgoing Error α :=
  x.zoom (fun p => p.kernel) fun p m => { p with kernel := m }

variable (C : HttpClient)

/-- The body at an offset, none if it is 0.  The error names the offset of the
request. -/
def httpRequest.body (reqOffset bodyOffset : ℕ) : KernelExec (Option (List UInt8)) :=
  if 0 < bodyOffset then do
    let handle ← handleOr
      (.msg ("invalid handle offset for http request body: " ++ toString reqOffset)) bodyOffset
    readWith (fun bytes => .ok (some bytes)) handle
  else pure none

/-- The host of the URL has to be allowed. -/
def httpRequest.check (allowedHosts : Option (List String)) (req : HttpRequest) :
    Except Error Unit := do
  let host ← (C.host req.url).mapError fun e => .msg ("Invalid URL: " ++ e)
  if C.allows allowedHosts (host.getD "") then .ok ()
  else .error (.msg ("HTTP request to " ++ req.url ++ " is not allowed"))

/-- The request, if it may go out. -/
def httpRequest.prepare (allowedHosts : Option (List String)) (reqOffset bodyOffset : ℕ) :
    KernelExec Sent := do
  let req ← handleFor "http request" reqOffset >>= readWith C.json
  let _ ← Prog.ofExcept (httpRequest.check C allowedHosts req)
  let body ← httpRequest.body reqOffset bodyOffset
  pure ⟨req.method.getD "GET", req.url, req.headers, body⟩

/-- The request goes out; the status is that of the response, if there is one. -/
def httpRequest.send (web : Web) (sent : Sent) : Prog Outgoing Error (Option Response) := do
  let response := web.response sent
  Prog.modify fun p =>
    { p with
      httpStatus := (response.map Response.status).getD p.httpStatus
      exchanges := p.exchanges ++ [⟨sent, response⟩] }
  pure response

/-- The response in a new block, offset 0 if there is none. -/
def httpRequest.answer (owner : Owner) : Option Response → KernelExec ℕ
  | some res => do
      let buf ← Prog.ofExcept res.read
      let mem ← CurrentPlugin.memoryNew owner buf
      pure mem.offset
  | none => pure 0

/-- `http_request`. -/
def httpRequest (owner : Owner) (allowedHosts : Option (List String)) (web : Web)
    (reqOffset bodyOffset : ℕ) : Prog Outgoing Error ℕ := do
  let sent ← withKernel (httpRequest.prepare C allowedHosts reqOffset bodyOffset)
  let response ← httpRequest.send web sent
  withKernel (httpRequest.answer owner response)

/-- `http_status_code`. -/
def httpStatusCode : Prog Outgoing Error Val := do
  let data ← Prog.get
  pure (.i32 (.ofNat data.httpStatus.toNat))

/-- `log`; `unable` is the `Err` of `memory_str` as `{:?}` prints it. -/
def log (id : String) (unable : List UInt8 → String) (level : Level) (offset : ℕ) :
    Prog Outgoing Error Unit := do
  let buf ← withKernel (handleFor "log message" offset >>= readWith .ok)
  Prog.modify fun p =>
    { p with
      logged := p.logged ++
        [match String.fromUTF8? ⟨buf.toArray⟩ with
          | some text => ⟨level, id, text⟩
          | none => ⟨.error, id, "unable to log message: " ++ unable buf⟩] }

/-- `log_warn`. -/
def logWarn (id : String) (unable : List UInt8 → String) := log id unable .warn

/-- `log_info`. -/
def logInfo (id : String) (unable : List UInt8 → String) := log id unable .info

/-- `log_debug`. -/
def logDebug (id : String) (unable : List UInt8 → String) := log id unable .debug

/-- `log_error`. -/
def logError (id : String) (unable : List UInt8 → String) := log id unable .error

end Pdk

/-! ## What they are on objects -/

variable (C : HttpClient) (id : String) (allowedHosts : Option (List String))

/-- The body that is asked for. -/
def bodyAt (s : Store ℕ UInt8) (req body : ℕ) : Except Error (Option (List UInt8)) :=
  if 0 < body then
    (bytesAt (.msg ("invalid handle offset for http request body: " ++ toString req)) s body).bind
      fun bytes => .ok (some bytes)
  else .ok none

/-- **The request that is asked for**: what the objects say, if the host of the
URL is allowed. -/
def HttpClient.asked (s : Store ℕ UInt8) (req body : ℕ) : Except Error Sent := do
  let q ← (bytesAt (noHandleFor "http request" req) s req).bind C.json
  let _ ← Pdk.httpRequest.check C allowedHosts q
  let data ← bodyAt s req body
  .ok ⟨q.method.getD "GET", q.url, q.headers, data⟩

/-- What `http_request` sends, with what comes back. -/
def HttpClient.exchange (web : Web) (s : Store ℕ UInt8) (req body : ℕ) : Option Exchange :=
  (C.asked allowedHosts s req body).toOption.map fun sent => ⟨sent, web.response sent⟩

/-- The status behind an exchange: it stays where there is no response. -/
def Exchange.status (old : UInt16) (x : Option Exchange) : UInt16 :=
  ((x.bind Exchange.response).map Response.status).getD old

/-- What becomes of a response that was read. -/
def Receives (refuses : ℕ → Option Error) :
    Option (Except Error (List UInt8)) → Store ℕ UInt8 → Except Error ℕ → Store ℕ UInt8 → Prop
  | none, s, r, t => r = .ok 0 ∧ t = s
  | some (.error e), s, r, t => r = .error e ∧ t = s
  | some (.ok data), s, r, t => Hands refuses data s r t

/-- What `http_request` hands over: nothing goes out that is not asked for. -/
def Requests (refuses : ℕ → Option Error) :
    Except Error Sent → Web → Store ℕ UInt8 → Except Error ℕ → Store ℕ UInt8 → Prop
  | .error e, _, s, r, t => r = .error e ∧ t = s
  | .ok sent, web, s, r, t => Receives refuses ((web.response sent).map Response.read) s r t

/-- The line that `log` writes. -/
def logLine (unable : List UInt8 → String) (level : Level) (s : Store ℕ UInt8) (k : ℕ) :
    Except Error LogLine :=
  (bytesAt (noHandleFor "log message" k) s k).bind fun bytes =>
    .ok (match String.fromUTF8? ⟨bytes.toArray⟩ with
      | some text => ⟨level, id, text⟩
      | none => ⟨.error, id, "unable to log message: " ++ unable bytes⟩)

section Spec

variable {c : Config}

theorem withKernel_run {α : Type} {x : KernelExec α} {p : Outgoing} {r : Except Error α}
    {m : Instance} (run : x p.kernel = (r, m)) :
    Pdk.withKernel x p = (r, { p with kernel := m }) := by
  rw [Pdk.withKernel, Prog.zoom, run]

theorem Good.body (G : Good c) (req body : ℕ) :
    ∃ m, c.kernel.UpToBoot m ∧
      Pdk.httpRequest.body req body c.kernel = (bodyAt c.objects req body, m) := by
  rw [Pdk.httpRequest.body, bodyAt]
  split
  case isTrue =>
    obtain ⟨m, left, run⟩ := G.readOr
      (.msg ("invalid handle offset for http request body: " ++ toString req)) body
    exact ⟨m, left, run _⟩
  case isFalse => exact ⟨c.kernel, .inl rfl, rfl⟩

/-- The checks of `http_request` read objects, and change nothing. -/
theorem Good.prepare (G : Good c) (req body : ℕ) :
    ∃ m, c.kernel.UpToBoot m ∧ Pdk.httpRequest.prepare C allowedHosts req body c.kernel =
      (C.asked allowedHosts c.objects req body, m) := by
  obtain ⟨cs, S⟩ := G.sound
  obtain ⟨m, left, run⟩ := G.readOr (noHandleFor "http request" req) req
  have read : (Pdk.handleFor "http request" req >>= readWith C.json) c.kernel =
      ((bytesAt (noHandleFor "http request" req) c.objects req).bind C.json, m) := run C.json
  rw [HttpClient.asked]
  cases asked : (bytesAt (noHandleFor "http request" req) c.objects req).bind C.json with
  | error e =>
      rw [asked] at read
      exact ⟨m, left, Prog.bind_error read⟩
  | ok q =>
      rw [asked] at read
      rw [Pdk.httpRequest.prepare, Prog.bind_ok read]
      change ∃ m', _ ∧ _ = ((Pdk.httpRequest.check C allowedHosts q >>= fun _ => _), m')
      cases Pdk.httpRequest.check C allowedHosts q with
      | error e => exact ⟨m, left, rfl⟩
      | ok _ =>
          obtain ⟨m', left', ran⟩ := (G.upToBoot left).body req body
          rw [objects_upToBoot S left] at ran
          refine ⟨m', S.upToBoot_trans left left', ?_⟩
          change (Pdk.httpRequest.body req body >>= _) m = ((bodyAt _ _ _ >>= _), m')
          cases data : bodyAt c.objects req body with
          | error e =>
              rw [data] at ran
              exact Prog.bind_error ran
          | ok bytes =>
              rw [data] at ran
              exact Prog.bind_ok ran

/-- No more than the limit is read. -/
theorem Response.length_le_of_read {res : Response} {data : List UInt8}
    (read : res.read = .ok data) : data.length ≤ HTTP_LIMIT := by
  rw [Response.read] at read
  split at read
  case isTrue short =>
    cases broken : res.broken with
    | none =>
        rw [broken] at read
        obtain rfl := Except.ok.inj read
        exact short.le
    | some e =>
        rw [broken] at read
        simp at read
  case isFalse =>
    obtain rfl := Except.ok.inj read
    exact List.length_take_le _ _

/-- The response is handed over. -/
theorem Good.receive (G : Good c) (owner : Owner) (res : Option Response) :
    ∃ r m, Pdk.httpRequest.answer owner res c.kernel = (r, m) ∧ Good (Config.handed c m r) ∧
      Receives (owner.refuses c.kernel) (res.map Response.read) c.objects r
        (Config.handed c m r).objects := by
  cases res with
  | none =>
      refine ⟨.ok 0, c.kernel, rfl, ?_⟩
      rw [handed_null]
      exact ⟨G, rfl, rfl⟩
  | some res =>
      rw [Option.map_some]
      cases read : res.read with
      | error e =>
          refine ⟨.error e, c.kernel, ?_, G, rfl, rfl⟩
          rw [Pdk.httpRequest.answer, read]
          rfl
      | ok data =>
          have small : data.length < 2 ^ 32 :=
            (Response.length_le_of_read read).trans_lt (by decide)
          obtain ⟨r, m, run, left, hands⟩ := G.memoryNew owner small
          refine ⟨r.map MemoryHandle.offset, m, ?_, left, hands⟩
          rw [Pdk.httpRequest.answer, read]
          change (CurrentPlugin.memoryNew owner data >>= _) c.kernel = _
          cases r with
          | error e => exact Prog.bind_error run
          | ok handle => exact Prog.bind_ok run

/-- **`http_request`**, on every offset. -/
theorem Good.httpRequest (G : Good c) (owner : Owner) (web : Web) (req body : ℕ) (n : UInt16)
    (xs : List Exchange) (ls : List LogLine) :
    ∃ r m, Pdk.httpRequest C owner allowedHosts web req body ⟨c.kernel, n, xs, ls⟩ =
        (r, ⟨m, Exchange.status n (C.exchange allowedHosts web c.objects req body),
          xs ++ (C.exchange allowedHosts web c.objects req body).toList, ls⟩) ∧
      Good (Config.handed c m r) ∧
      Requests (owner.refuses c.kernel) (C.asked allowedHosts c.objects req body) web c.objects r
        (Config.handed c m r).objects := by
  obtain ⟨cs, S⟩ := G.sound
  obtain ⟨m, left, run⟩ := G.prepare C allowedHosts req body
  have prepared := withKernel_run (p := ⟨c.kernel, n, xs, ls⟩) run
  have G' := G.upToBoot left
  have same := objects_upToBoot S left
  rw [Pdk.httpRequest, HttpClient.exchange]
  cases asked : C.asked allowedHosts c.objects req body with
  | error e =>
      rw [asked] at prepared
      refine ⟨.error e, m, ?_, G', rfl, same⟩
      rw [Prog.bind_error prepared]
      exact congrArg (fun xs => (_, Outgoing.mk m n xs ls)) (List.append_nil xs).symm
  | ok sent =>
      rw [asked] at prepared
      obtain ⟨r, m', ran, left', receives⟩ := G'.receive owner (web.response sent)
      rw [same, refuses_upToBoot S left] at receives
      refine ⟨r, m', ?_, left', receives⟩
      rw [Prog.bind_ok prepared]
      exact withKernel_run ran

/-- **`log`**, on every offset. -/
theorem Good.log (G : Good c) (id : String) (unable : List UInt8 → String) (level : Level) (k : ℕ)
    (n : UInt16) (xs : List Exchange) (ls : List LogLine) :
    ∃ m, c.kernel.UpToBoot m ∧ Pdk.log id unable level k ⟨c.kernel, n, xs, ls⟩ =
      ((logLine id unable level c.objects k).map fun _ => (),
        ⟨m, n, xs, ls ++ (logLine id unable level c.objects k).toOption.toList⟩) := by
  obtain ⟨m, left, run⟩ := G.readOr (noHandleFor "log message" k) k
  have read := withKernel_run (p := ⟨c.kernel, n, xs, ls⟩) (run .ok)
  refine ⟨m, left, ?_⟩
  change (Pdk.withKernel (handleOr (noHandleFor "log message" k) k >>= readWith .ok) >>= _) _ = _
  rw [logLine]
  cases found : bytesAt (noHandleFor "log message" k) c.objects k with
  | error e =>
      rw [found] at read
      rw [Prog.bind_error read]
      exact congrArg (fun ls => (_, Outgoing.mk m n xs ls)) (List.append_nil ls).symm
  | ok bytes =>
      rw [found] at read
      rw [Prog.bind_ok read]
      rfl

end Spec

end Extism.Runtime
