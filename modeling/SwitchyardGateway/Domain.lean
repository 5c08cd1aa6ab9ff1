/-
# The gateway's vocabulary

`domain.py` and `ports.py`: the configuration the application consumes, the
failures it raises, the results of its ports and the records it emits.

A failure is an `Err`: an `Exception` (`Exc`), of which `GatewayError` and its
subclass `ConnectFailure` are the gateway's own, or a cancellation or an exit,
which are no `Exception`s.  What the gateway asks of its surroundings is a
`Call`: the port methods, which are awaited, the clocks and the event sink, which
are not.  Everything a call may be answered with is in `Answer`, so a port that
raises or is cancelled is one more answer.

The framework that serves a streamed response is asked too: whether it iterates
the body at all, after every frame whether it goes on, and how it ends.

Functions of the standard library and of third-party packages that the gateway
applies to values are the fields of `Lib`.
-/

import SwitchyardGateway.Coop.Pool
import SwitchyardGateway.Python.Json

namespace SwitchyardGateway

open Coop Python

abbrev Bytes := List UInt8

/-- Header names and values, as `dict[str, str]`. -/
abbrev Headers := Dict Str Str

/-! ### Failures -/

/-- The `Exception`s the source tells apart. -/
inductive Exc where
  | gateway (code : String) (status : ℕ)
  | connectFailure
  | valueError
  | typeError
  | keyError
  | other
  deriving DecidableEq

/-- What may be raised: an `Exception`, `asyncio.CancelledError`, or another
`BaseException`, such as the `GeneratorExit` of a generator that is dropped. -/
inductive Err where
  | exc (e : Exc)
  | cancelled
  | exit
  deriving DecidableEq

/-- `GatewayError(code, status)`. -/
def gatewayError (code : String) (status : ℕ := 502) : Err := .exc (.gateway code status)

/-- Code and status of a `GatewayError`; `ConnectFailure` is one. -/
def Exc.gatewayError? : Exc → Option (String × ℕ)
  | .gateway code status => some (code, status)
  | .connectFailure => some ("upstream_connect_failed", 502)
  | _ => none

/-- Code and status of an error that is a `GatewayError`. -/
def Err.gatewayError? : Err → Option (String × ℕ)
  | .exc e => e.gatewayError?
  | .cancelled | .exit => none

/-! ### Configuration -/

/-- A labelled replica and its private connection settings. -/
structure Endpoint where
  name : Str
  baseUrl : Str
  apiKey : Str

/-- A model with one or more equivalent replicas. -/
structure Model where
  name : Str
  modelId : Str
  endpoints : List Endpoint
  contextWindow : ℤ := 131072
  defaults : Payload

/-- A public route with explicit tier roles. -/
structure Pair where
  name : Str
  capable : Str
  efficient : Str

/-- The settings that the routing adapter hands to its library. -/
structure StagePolicy where
  picker : Str := lit "efficient_first"
  confidenceThreshold : Flt := .fin (1 / 2)
  recentWindow : ℤ := 3
  onlyOnWrongSignalEscalation : Bool := true
  escalationNote : Str := lit "The efficient tier failed; continue from its work."
  deescalationNote : Str := lit "The capable tier completed the recovery."
  capableSystemPrompt : Str := lit "Handle this request as the capable tier."
  efficientSystemPrompt : Str := lit "Handle this request as the efficient tier."

/-- Validated configuration. -/
structure Settings where
  models : Dict Str Model
  pairs : Dict Str Pair
  apiKey : Str
  stage : StagePolicy := {}
  compression : Bool := true
  compressionWorkers : ℤ := 2
  cooldownSeconds : ℚ := 30
  connectTimeout : ℚ := 5
  readTimeout : ℚ := 300
  forwardHeaders : List Str := [lit "x-session-id", lit "x-opencode-session"]
  host : Str := lit "127.0.0.1"
  port : ℤ := 4000
  maxRequestBytes : ℕ := 16 * 1024 * 1024

/-! ### Results of the ports -/

/-- A tier selection with the complete prepared outgoing request. -/
structure RoutingResult where
  tier : Str
  request : Payload

/-- A compression outcome; unavailable token counts remain unknown. -/
structure CompressionResult where
  messages : List Json
  outcome : Str
  tokensBefore : Option ℤ
  tokensAfter : Option ℤ
  tokensSaved : Option ℤ

/-- How a byte stream ends once its chunks have been read. -/
inductive Ending where
  | eof
  | raise (e : Err)
  deriving DecidableEq

/-- A byte stream: what iterating it yields and how that ends. -/
structure Stream where
  chunks : List Bytes
  ending : Ending
  deriving DecidableEq

/-- What `BackendTransport.send` opened: status, headers and body. -/
structure Upstream where
  status : ℕ
  headers : Headers
  body : Stream
  deriving DecidableEq

/-- `BackendResponse`: an upstream and which attempt of the call opened it,
which tells the responses of one call apart. -/
structure Response where
  attempt : ℕ
  upstream : Upstream
  deriving DecidableEq

/-! ### Records -/

/-- The `tier` of a request record. -/
inductive Tier where
  | capable | efficient | direct
  deriving DecidableEq

/-- The `compression` of a request record. -/
inductive Compression where
  | bypass | noEligibleHistory | savings | noSavings | failedUnknown
  deriving DecidableEq

/-- The `outcome` of a request record. -/
inductive Outcome where
  | completed | failed | cancelled | interrupted | rejected
  deriving DecidableEq

/-- A record with `"event": "request"`; a key that is absent is `none`. -/
structure Event where
  requestId : Str
  attempts : Option ℕ := none
  route : Option Str := none
  tier : Option Tier := none
  model : Option Str := none
  routingMs : Option ℚ := none
  compression : Option Compression := none
  tokens : Option (Option ℤ × Option ℤ × Option ℤ) := none
  compressionMs : Option ℚ := none
  endpoint : Option Str := none
  status : Option ℕ := none
  upstreamHeadersMs : Option ℚ := none
  firstBodyByteMs : Option ℚ := none
  usage : Option Payload := none
  streamOutcome : Option Outcome := none
  outcome : Option Outcome := none
  error : Option String := none
  totalMs : Option ℚ := none
  closeFailed : Bool := false

/-- Why an attempt failed over: `"error": "upstream_connect_failed"` or
`"status": …`. -/
inductive FailureCause where
  | connect
  | status (code : ℕ)
  deriving DecidableEq

/-- What the event sink receives. -/
inductive Record where
  | request (event : Event)
  | retry (requestId model endpoint : Str)
  | replicaFailure (requestId model endpoint : Str) (cause : FailureCause)

/-! ### Calls -/

/-- What the gateway asks of its surroundings.  The model of a `send` is not an
argument of `transport.send`; it is kept to say whose replica is tried.
`selected` records what `Gateway._select` returned and has no effect.  `receive`
and `read` wait for the next part of the request and of a response. -/
inductive Call where
  | clock
  | utcnow
  | emit (record : Record)
  | route (request : Payload) (pair : Pair)
  | compress (messages : List Json) (model : Model)
  | send (model : Model) (endpoint : Endpoint) (request : Payload) (headers : Headers)
  | close (attempt : ℕ)
  | receive
  | read (attempt : ℕ)
  | iterate
  | yield (frame : Bytes)
  | respond
  | selected (model : Model) (endpoint : Endpoint)

/-- What a call may be answered with. -/
abbrev Answer : Call → Type
  | .clock => ℚ
  | .utcnow => ℚ
  | .emit _ => Except Err Unit
  | .route _ _ => Except Err RoutingResult
  | .compress _ _ => Except Err CompressionResult
  | .send _ _ _ _ => Except Err Upstream
  | .close _ => Except Err Unit
  | .receive => Unit
  | .read _ => Unit
  | .iterate => Bool
  | .yield _ => Bool
  | .respond => Except Err Unit
  | .selected _ _ => Unit

/-- Functions of the standard library and of third-party packages. -/
structure Lib where
  /-- `str.lower`. -/
  lower : Str → Str
  /-- `float(text)`; `none` is `ValueError`. -/
  float : Str → Option Flt
  /-- `parsedate_to_datetime(text)` as an instant; `none` is the `ValueError`,
  `TypeError` or `OverflowError` of a text that is no date or has no zone. -/
  parsedate : Str → Option ℚ
  /-- `json.loads(text)`, with `parse_constant=_reject_constant` if `strict`. -/
  loads : (strict : Bool) → Str → Except Exc Json
  /-- `json.loads(data)` on bytes, likewise. -/
  loadsBytes : (strict : Bool) → Bytes → Except Exc Json
  /-- `json.dumps(value, separators=(",", ":"))`. -/
  dumps : Json → Except Exc (List Char)
  /-- The body of `JSONResponse(value)`. -/
  render : Json → Except Exc Bytes

end SwitchyardGateway
