import Mathlib.Algebra.Order.Ring.Int
import Mathlib.Data.Rat.Floor
import Lucent.Lib.Checked
import Lucent.VerifiedSource.Result

/-!
# Lucent.VerifiedSource.Client — the HTTP and RPC clients of `lucent/verified_source.py`

`_HttpClient.json` and `_RpcClient.call` over a transport that may answer each request as it likes.

* The transport and the clock are read by the number of the request: any sequence of answers.
* `readResponse` and `rpcResult` are the checks on one answer, `Client` the counters with what went over the wire.
* `httpJson_spec`, `rpcCall_spec`: a call that returns has sent one request, and its answer passed the checks.
-/

namespace Lucent.VerifiedSource

open Lucent.Lib

def maxCodeBytes : ℕ := 128 * 1024
def maxAbiBytes : ℕ := 1024 * 1024
def maxAbiEntries : ℕ := 1024
def maxJsonDepth : ℕ := 24
def maxJsonNodes : ℕ := 100000
def maxJsonStringLength : ℕ := 2 * maxCodeBytes + 2
def maxHttpRequests : ℕ := 32
def maxRpcCalls : ℕ := 28
def maxProxyHops : ℕ := 4
def rpcResponseBytes : ℕ := 2 * maxCodeBytes + 64 * 1024
def sourcifyResponseBytes : ℕ := maxAbiBytes + 2 * maxCodeBytes + 256 * 1024

/-- `RPC_ENDPOINTS`. -/
def rpcEndpoints : List (ℤ × String) :=
  [(1, "https://ethereum-rpc.publicnode.com"), (8453, "https://mainnet.base.org")]

def rpcEndpoint (chainId : ℤ) : String := (rpcEndpoints.lookup chainId).getD ""

/-! ## Requests and responses -/

/-- `HttpRequest`. -/
structure HttpRequest where
  method : String
  url : String
  headers : List (String × String)
  body : Option Bytes
  timeoutSeconds : ℚ
  maxResponseBytes : ℕ

/-- The value of a response header: `None`, a text, or another object with what `int` makes of it. -/
inductive HeaderValue
  | none
  | text (value : String)
  | other (int : Option ℤ)

/-- `HttpResponse` as a transport may build it: `none` for a status that is no integer, headers that are no mapping, a
body that is no bytes, a header name that is no text. -/
structure HttpResponse where
  status : Option ℤ
  headers : Option (List (Option String × HeaderValue))
  body : Option Bytes

/-- What a call of the transport does. -/
inductive TransportAnswer
  | response (response : HttpResponse)
  | invalid
  | limitError
  | exception

/-- What the resolver gets from outside; the transport and the clock by the number of the request. -/
structure Network where
  sha256 : Bytes → Bytes
  keccak : Bytes → Bytes
  readFloat : List Char → PyFloat
  /-- `str.lower`. -/
  lower : String → String
  /-- `int(text)`, `none` for a `ValueError`. -/
  parseInt : String → Option ℤ
  start : ℚ
  clock : ℕ → ℚ
  transport : ℕ → HttpRequest → TransportAnswer

/-- One request that was answered. -/
abbrev Exchange := HttpRequest × HttpResponse

/-- The counters of the clients, and the requests with their answers so far. -/
structure Client where
  requests : ℕ
  nextId : ℕ
  calls : ℕ
  exchanges : List Exchange

/-- A computation of the resolver; a failure leaves the counters as they were when it was raised. -/
abbrev Resolver := EStateM VerifiedSourceError Client

/-! ## Checks on a response -/

/-- `_validate_json_shape`, with the number of nodes still allowed and the stack. -/
def shapeLoop : ℕ → List (Json × ℕ) → Bool
  | _, [] => true
  | 0, _ :: _ => false
  | nodes + 1, (item, depth) :: stack =>
    if depth > maxJsonDepth then false
    else match item with
      | .str s => if s.length > maxJsonStringLength then false else shapeLoop nodes stack
      | .obj members =>
        shapeLoop nodes ((members.flatMap (fun m => [(.str m.1, depth + 1), (m.2, depth + 1)])).reverse ++ stack)
      | .arr items => shapeLoop nodes ((items.map (fun v => (v, depth + 1))).reverse ++ stack)
      | .float _ => false
      | _ => shapeLoop nodes stack

def validateJsonShape (value : Json) : Bool := shapeLoop maxJsonNodes [(value, 0)]

/-- `_load_json`. -/
def loadJson (net : Network) (body : Bytes) : Except VerifiedSourceError Json := do
  let value ← (Json.loadsUnique net.readFloat body).elim
    (.error ⟨"INVALID_UPSTREAM_RESPONSE", "upstream returned invalid bounded JSON"⟩) .ok
  rejectIf (validateJsonShape value = false) ⟨"INVALID_UPSTREAM_RESPONSE", "upstream returned invalid bounded JSON"⟩
  return value

/-- `_header`. -/
def header (net : Network) (headers : List (Option String × HeaderValue)) (name : String) : HeaderValue :=
  ((headers.find? (fun h => h.1.any (fun key => net.lower key == name))).map Prod.snd).getD .none

/-- The check of the declared length. -/
def checkLength (net : Network) (value : HeaderValue) (length maxResponseBytes : ℕ) :
    Except VerifiedSourceError Unit :=
  let declared := match value with
    | .none => some (length : ℤ)
    | .text "" => some (length : ℤ)
    | .text text => net.parseInt text
    | .other int => int
  rejectIf (declared ≠ some (length : ℤ) ∨ length > maxResponseBytes)
    ⟨"INVALID_UPSTREAM_RESPONSE", "upstream returned an invalid content length"⟩

/-- The check of the media type. -/
def checkMediaType (net : Network) (value : HeaderValue) : Except VerifiedSourceError Unit :=
  let mediaType := match value with
    | .text text => some (net.lower (stripChars isSpace ((splitOn ';' text).headD "")))
    | _ => none
  rejectIf (mediaType.all (fun t => t != "application/json" && !hasSuffix t "+json"))
    ⟨"INVALID_UPSTREAM_RESPONSE", "upstream response was not JSON"⟩

/-- What `_HttpClient.json` makes of a response. -/
def readResponse (net : Network) (maxResponseBytes : ℕ) (notFoundCode : Option String) (response : HttpResponse) :
    Except VerifiedSourceError Json := do
  let status ← response.status.elim
    (.error ⟨"INVALID_UPSTREAM_RESPONSE", "transport returned an invalid status"⟩) .ok
  rejectIf (status = 404 ∧ notFoundCode.isSome) ⟨notFoundCode.getD "", "no verified runtime source was found"⟩
  rejectIf (status ≠ 200) ⟨"UPSTREAM_UNAVAILABLE", "a required upstream service was unavailable"⟩
  let headers ← response.headers.elim
    (.error ⟨"INVALID_UPSTREAM_RESPONSE", "transport returned an invalid response"⟩) .ok
  let body ← response.body.elim
    (.error ⟨"INVALID_UPSTREAM_RESPONSE", "transport returned an invalid response"⟩) .ok
  rejectIf (body.length > maxResponseBytes)
    ⟨"UPSTREAM_RESPONSE_TOO_LARGE", "upstream response exceeded its hard size limit"⟩
  checkLength net (header net headers "content-length") body.length maxResponseBytes
  checkMediaType net (header net headers "content-type")
  loadJson net body

/-- What a transport call gives: a response, or the error that is raised for it. -/
def answered : TransportAnswer → Except VerifiedSourceError HttpResponse
  | .response response => .ok response
  | .invalid => .error ⟨"INVALID_UPSTREAM_RESPONSE", "transport returned an invalid response"⟩
  | .limitError => .error ⟨"UPSTREAM_RESPONSE_TOO_LARGE", "upstream response exceeded its hard size limit"⟩
  | .exception => .error ⟨"UPSTREAM_UNAVAILABLE", "a required upstream service was unavailable"⟩

/-! ## The clients -/

/-- `_HttpClient.json`. -/
def httpJson (net : Network) (method url : String) (body : Option Bytes) (maxResponseBytes : ℕ)
    (notFoundCode : Option String) : Resolver Json := do
  modify fun c => { c with requests := c.requests + 1 }
  let client ← get
  let remaining := net.start + 24 - net.clock client.requests
  stateless (rejectIf (client.requests > maxHttpRequests ∨ remaining ≤ 0)
    ⟨"UPSTREAM_TIMEOUT", "verified resolution exceeded its hard deadline"⟩)
  let request : HttpRequest := {
    method, url, body, maxResponseBytes
    headers := [("Accept", "application/json"), ("User-Agent", "lucent-verified-source/0.2")] ++
      (if body.isSome then [("Content-Type", "application/json")] else [])
    timeoutSeconds := min 4 remaining }
  let response ← stateless (answered (net.transport client.requests request))
  let value ← stateless (readResponse net maxResponseBytes notFoundCode response)
  modify fun c => { c with exchanges := c.exchanges ++ [(request, response)] }
  return value

/-- The body of a JSON-RPC request. -/
def rpcBody (id : ℕ) (method : String) (params : List Json) : Bytes :=
  utf8Chars ((Json.dumps true false (.obj [("jsonrpc", .str "2.0"), ("id", .int id), ("method", .str method),
    ("params", .arr params)])).getD [])

/-- What `_RpcClient.call` makes of a response document. -/
def rpcResult (id : ℕ) : Json → Except VerifiedSourceError Json
  | .obj members => do
    rejectIf (!(Json.lookup "jsonrpc" members).any (Json.isStr "2.0"))
      ⟨"INVALID_RPC_RESPONSE", "JSON-RPC version was invalid"⟩
    rejectIf (!(Json.lookup "id" members).any (fun v => match v with
        | .int n => decide (n = id)
        | _ => false)) ⟨"INVALID_RPC_RESPONSE", "JSON-RPC response id did not match"⟩
    rejectIf ((Json.lookup "error" members).isSome) ⟨"RPC_REQUEST_FAILED", "a required JSON-RPC method failed"⟩
    (Json.lookup "result" members).elim (.error ⟨"RPC_REQUEST_FAILED", "a required JSON-RPC method failed"⟩) .ok
  | _ => .error ⟨"INVALID_RPC_RESPONSE", "JSON-RPC response was not an object"⟩

/-- `_RpcClient.call`. -/
def rpcCall (net : Network) (chainId : ℤ) (method : String) (params : List Json) : Resolver Json := do
  modify fun c => { c with calls := c.calls + 1 }
  let client ← get
  stateless (rejectIf (client.calls > maxRpcCalls)
    ⟨"RPC_CALL_LIMIT", "verified resolution exceeded its RPC call limit"⟩)
  let id := client.nextId
  modify fun c => { c with nextId := c.nextId + 1 }
  let response ← httpJson net "POST" (rpcEndpoint chainId) (some (rpcBody id method params)) rpcResponseBytes none
  stateless (rpcResult id response)

/-! ## A call that returns -/

/-- The exchange asked for this with the method and got this value out of the checks. -/
structure HttpAnswer (net : Network) (method url : String) (body : Option Bytes) (maxResponseBytes : ℕ)
    (notFoundCode : Option String) (value : Json) (e : Exchange) : Prop where
  method : e.1.method = method
  url : e.1.url = url
  body : e.1.body = body
  response : readResponse net maxResponseBytes notFoundCode e.2 = .ok value

/-- The exchange is a JSON-RPC call of the method with these parameters at the endpoint of the chain, answered by this
result under the id of the request. -/
def RpcAnswer (net : Network) (chainId : ℤ) (method : String) (params : List Json) (result : Json) (e : Exchange) : Prop :=
  ∃ id document, HttpAnswer net "POST" (rpcEndpoint chainId) (some (rpcBody id method params)) rpcResponseBytes none
    document e ∧ rpcResult id document = .ok result

theorem modify_bind_eq_ok {β : Type} {f : Client → Client} {k : PUnit → Resolver β} {c c' : Client} {b : β} :
    ((modify f : Resolver PUnit) >>= k) c = .ok b c' ↔ k ⟨⟩ (f c) = .ok b c' := Iff.rfl

theorem get_bind_eq_ok {β : Type} {k : Client → Resolver β} {c c' : Client} {b : β} :
    ((get : Resolver Client) >>= k) c = .ok b c' ↔ k c c = .ok b c' := Iff.rfl

theorem httpJson_spec {net : Network} {method url : String} {body : Option Bytes} {maxResponseBytes : ℕ}
    {notFoundCode : Option String} {value : Json} {c c' : Client}
    (h : httpJson net method url body maxResponseBytes notFoundCode c = .ok value c') :
    ∃ e, HttpAnswer net method url body maxResponseBytes notFoundCode value e ∧ c'.exchanges = c.exchanges ++ [e] := by
  unfold httpJson at h
  rw [modify_bind_eq_ok, get_bind_eq_ok] at h
  obtain ⟨-, h⟩ := stateless_rejectIf_bind_eq_ok.mp h
  obtain ⟨response, -, h⟩ := stateless_bind_eq_ok.mp h
  obtain ⟨read, hok, h⟩ := stateless_bind_eq_ok.mp h
  rw [modify_bind_eq_ok] at h
  obtain ⟨rfl, rfl⟩ := run_pure_eq_ok.mp h
  exact ⟨_, ⟨rfl, rfl, rfl, hok⟩, rfl⟩

theorem rpcCall_spec {net : Network} {chainId : ℤ} {method : String} {params : List Json} {value : Json} {c c' : Client}
    (h : rpcCall net chainId method params c = .ok value c') :
    ∃ e, RpcAnswer net chainId method params value e ∧ c'.exchanges = c.exchanges ++ [e] := by
  unfold rpcCall at h
  rw [modify_bind_eq_ok, get_bind_eq_ok] at h
  obtain ⟨-, h⟩ := stateless_rejectIf_bind_eq_ok.mp h
  rw [modify_bind_eq_ok] at h
  obtain ⟨document, c₁, hhttp, h⟩ := run_bind_eq_ok.mp h
  obtain ⟨hresult, rfl⟩ := stateless_eq_ok.mp h
  obtain ⟨e, hanswer, hlog⟩ := httpJson_spec hhttp
  exact ⟨e, ⟨_, document, hanswer, hresult⟩, hlog⟩

end Lucent.VerifiedSource
