/-
# A chat call, from its authorization to its reply

`create_app.chat` and `OwnedStream` of `ingress.py`.  `chat` admits a request,
opens an exchange and answers with a completion, an error or a stream.  Its
handlers and its finalizer read variables that its body has written by then:
whether `Gateway.open` was entered, the exchange it returned, whether that was
handed to a stream, and the outcome so far.  They are part of the `CallState`.

A reply that is a stream is called by the framework, once: `OwnedStream.call`
drives `sse_body` as long as the framework takes its frames and ends as the
framework ends.  `serve` is all of a call.
-/

import SwitchyardGateway.Ingress.Sse
import SwitchyardGateway.Ingress.Validate

namespace SwitchyardGateway
namespace Ingress

open Coop Python Application

/-- A request: its headers, and its body as it is received. -/
structure Request where
  headers : Headers
  body : Stream

/-- What `chat` returns: `JSONResponse` with a completion, `JSONResponse` with an
error, or `OwnedStream`. -/
inductive Reply where
  | completion (body : Bytes) (headers : Headers)
  | error (status : ℕ) (body : Json) (headers : Headers)
  | stream (aliasName : Str) (headers : Headers)

/-- The status a reply is sent with. -/
def Reply.status : Reply → ℕ
  | .completion _ _ | .stream _ _ => 200
  | .error status _ _ => status

/-- The body of an error. -/
def errorBody (code : String) : Json :=
  .obj [(lit "error", .obj
    [(lit "message", .str (lit code)), (lit "type", .str (lit "gateway_error")),
     (lit "code", .str (lit code))])]

/-- `_error`. -/
def errorReply (code : String) (status : ℕ) (requestId : Str) : Reply :=
  .error status (errorBody code) [(lit "x-request-id", requestId)]

/-! ### Admission -/

/-- `text.encode()`: UTF-8 has no unpaired surrogates. -/
def encodeStr (text : Str) : Except Exc Bytes :=
  if text.all fun c => decide c.isValidChar then .ok (encode (text.map Char.ofNat))
  else .error .valueError

/-- `needle in text`. -/
def contains (needle text : Str) : Bool := text.tails.any needle.isPrefixOf

/-- Truth as Python tests it. -/
def truthy : Json → Bool
  | .null => false
  | .bool b => b
  | .int n => n ≠ 0
  | .float x => x ≠ .fin 0
  | .str s => s ≠ []
  | .list xs => !xs.isEmpty
  | .obj fields => !fields.isEmpty

section

variable (lib : Lib) (settings : Settings)

/-- `authorize`. -/
def authorize (headers : Headers) : Except Exc Unit := do
  let expected ← encodeStr (lit "Bearer " ++ settings.apiKey)
  let actual ← encodeStr ((headers.lookup (lit "authorization")).getD [])
  if actual = expected then return () else throw (.gateway "unauthorized" 401)

/-- `async for chunk in request.stream()`, with the check of the size. -/
def receiveFrom (ending : Ending) : List Bytes → Bytes → Py Bytes
  | [], data => do
    Prog.askAwait Call.receive
    match ending with
    | .eof => return data
    | .raise e => throw e
  | chunk :: chunks, data => do
    Prog.askAwait Call.receive
    if settings.maxRequestBytes < (data ++ chunk).length then
      throw (gatewayError "request_too_large" 413)
    else receiveFrom ending chunks (data ++ chunk)

/-- `_validate(json.loads(data, parse_constant=_reject_constant))` and its `except`. -/
def parseRequest (data : Bytes) : Except Exc Payload :=
  match lib.loadsBytes true data >>= validate lib with
  | .error .valueError => invalid "invalid_json"
  | r => r

/-- The part of `chat` that comes before `Gateway.open`. -/
def readRequest (request : Request) : Py Payload := do
  lift (authorize settings request.headers)
  let data ← receiveFrom settings request.body.ending request.body.chunks []
  lift (parseRequest lib data)

/-! ### The reply -/

variable (limit me : ℕ)

/-- Rewrite the variables of the call. -/
def setVars (f : CallState → CallState) : Py Unit := Prog.update fun w => w.setCall me f

/-- `response_headers`. -/
def responseHeaders (requestId : Str) : Py Headers := do
  let event ← eventOf me
  let some model := event.model | raise .keyError
  let some endpoint := event.endpoint | raise .keyError
  return [(lit "x-request-id", requestId), (lit "x-gateway-model", model),
    (lit "x-gateway-endpoint", endpoint)]

/-- `exchange.response.headers.get("content-type", "")`. -/
def contentType (exchange : Exchange) : Str :=
  (exchange.response.upstream.headers.lookup (lit "content-type")).getD []

/-- Collect the body of the upstream's answer. -/
def readBody (exchange : Exchange) : Py Bytes :=
  Gateway.body me exchange (fun data chunk =>
    if limit < (data ++ chunk).length then throw (gatewayError "upstream_response_too_large")
    else return (data ++ chunk, true)) []

/-- Read a body as a completion. -/
def parseCompletion (body : Bytes) : Except Exc Payload :=
  match lib.loadsBytes false body with
  | .ok (.obj value) =>
    if (value.lookup (lit "error")).isSome || (value.lookup (lit "choices")).isNone then
      .error (.gateway "invalid_upstream_response" 502)
    else .ok value
  | .ok _ | .error .valueError => .error (.gateway "invalid_upstream_response" 502)
  | .error e => .error e

/-- `payload["model"]`, which is a `str` in a request that was admitted. -/
def modelOf (payload : Payload) : Str :=
  match get payload "model" with
  | .str name => name
  | _ => []

/-- The branch of `chat` for a stream. -/
def handOver (payload : Payload) (headers : Headers) (exchange : Exchange) : Py Reply :=
  if contains (lit "text/event-stream") (contentType exchange) then do
    setVars me fun c => { c with handedOff := true }
    return .stream (modelOf payload) headers
  else throw (gatewayError "invalid_upstream_stream")

/-- The last statements of the `try`, for a completion. -/
def complete (payload : Payload) (headers : Headers) (value : Payload) : Py Reply := do
  let value := value.set (lit "model") (get payload "model")
  noteUsage me value
  setVars me fun c => { c with outcome := .completed }
  let body ← lift (lib.render (.obj value))
  return .completion body headers

/-- The branch of `chat` for a completion. -/
def collect (payload : Payload) (headers : Headers) (exchange : Exchange) : Py Reply :=
  if contains (lit "json") (lib.lower (contentType exchange)) then do
    let body ← readBody limit me exchange
    let value ← lift (parseCompletion lib body)
    complete lib me payload headers value
  else throw (gatewayError "invalid_upstream_content_type")

/-- The part of `chat` that comes after `Gateway.open`. -/
def deliver (payload : Payload) (requestId : Str) (exchange : Exchange) : Py Reply := do
  let headers ← responseHeaders me requestId
  if 400 ≤ exchange.response.upstream.status then
    throw (gatewayError "upstream_rejected_request" exchange.response.upstream.status)
  else if truthy (get payload "stream") then handOver me payload headers exchange
  else collect lib limit me payload headers exchange

/-- The `try` of `chat`. -/
def chatTry (request : Request) (requestId : Str) : Py Reply := do
  let payload ← readRequest lib settings request
  setVars me fun c => { c with opened := true }
  let exchange ← Gateway.open lib settings me payload request.headers requestId
  setVars me fun c => { c with exchange := some exchange, finished := false }
  deliver lib limit me payload requestId exchange

/-- Answer with an error: it is noted on the event of the exchange, or recorded if
`Gateway.open` was not entered. -/
def refuse (requestId : Str) (code : String) (status : ℕ) (outcome : Outcome) : Py Reply := do
  let c := (← Prog.read).calls me
  if c.exchange.isSome then
    updateEvent me fun ev => { ev with status := some status, error := some code }
  else if !c.opened then
    emit (.request
      { requestId := requestId, status := some status, outcome := some outcome, error := some code })
  return errorReply code status requestId

/-- The `except` arms of `chat`. -/
def chatExcept (requestId : Str) : Err → Py Reply
  | .exc e =>
    match e.gatewayError? with
    | some (code, status) => refuse me requestId code status .rejected
    | none => refuse me requestId "request_failed" 500 .failed
  | .cancelled => do
    setVars me fun c => { c with outcome := .cancelled }
    throw .cancelled
  | .exit => throw .exit

/-- The `finally` of `chat`. -/
def chatFinally : Py Unit := do
  let c := (← Prog.read).calls me
  match c.exchange, c.handedOff with
  | some exchange, false => Gateway.finish me exchange c.outcome
  | _, _ => return ()

/-- `chat`. -/
def chat (request : Request) (requestId : Str) : Py Reply := do
  setVars me fun c =>
    { c with exchange := none, handedOff := false, opened := false, outcome := .failed }
  Prog.finallyDo
    (tryCatch (chatTry lib settings limit me request requestId) (chatExcept me requestId))
    (chatFinally me)

/-! ### A stream -/

/-- `super().__call__(scope, receive, send)`: the framework iterates the body or does
not, and ends as it does whatever became of the body. -/
def callStream (exchange : Exchange) (aliasName : Str) : Py Unit := do
  if ← Prog.askAwait Call.iterate then
    let _ ← (sseBody lib aliasName limit me exchange).attempt
  Prog.ofExcept (← Prog.askAwait Call.respond)

/-- `self.exchange.event.pop("stream_outcome", outcome)`. -/
def popStreamOutcome (outcome : Outcome) : Py Outcome := do
  let event ← eventOf me
  updateEvent me fun ev => { ev with streamOutcome := none }
  return event.streamOutcome.getD outcome

/-- `OwnedStream.__call__`. -/
def OwnedStream.call (exchange : Exchange) (aliasName : Str) : Py Unit := do
  setVars me fun c => { c with outcome := .interrupted }
  Prog.finallyDo
    (tryCatch (callStream lib limit me exchange aliasName) fun
      | .cancelled => do
        setVars me fun c => { c with outcome := .cancelled }
        throw .cancelled
      | e => throw e)
    (do
      let outcome ← popStreamOutcome me ((← Prog.read).calls me).outcome
      Gateway.finish me exchange outcome)

/-- A call: `chat`, and the stream it may return. -/
def serve (request : Request) (requestId : Str) : Py Reply := do
  let reply ← chat lib settings limit me request requestId
  match reply, ((← Prog.read).calls me).exchange with
  | .stream aliasName _, some exchange => do
    OwnedStream.call lib limit me exchange aliasName
    return reply
  | _, _ => return reply

end

end Ingress
end SwitchyardGateway
