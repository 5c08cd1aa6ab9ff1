/-
# The gateway: selection, failover and completion

`Gateway` of `application.py`, as programs over `World`.

The shared state is the gateway's two tables, and for every call the objects
that belong to it: its `event` dictionary, the `finished` flag of its
`Exchange`, and the variables of `chat` that its handlers read.  `me` is the
call a program runs for.  Code between two awaits is atomic, and every port
method is awaited, so another call can run, and write the tables, wherever this
one waits for its router, its compressor, its transport or a close.
-/

import SwitchyardGateway.Application.History
import Mathlib.Algebra.Order.Ring.Unbundled.Rat

namespace SwitchyardGateway
namespace Application

open Coop Python

/-- `Exchange`: an open upstream exchange.  Its `event` and `finished` are kept
with the call. -/
structure Exchange where
  response : Response
  started : ℚ
  upstreamStarted : ℚ
  deriving DecidableEq

/-- The mutable objects and variables of one call. -/
structure CallState where
  event : Event
  finished : Bool := false
  exchange : Option Exchange := none
  opened : Bool := false
  handedOff : Bool := false
  outcome : Outcome := .failed

/-- The gateway's tables and the calls it serves. -/
structure World where
  positions : Str → Option ℕ
  cooldowns : Str × Str → Option ℚ
  calls : ℕ → CallState

/-- A coroutine of the gateway. -/
abbrev Py (α : Type) := Prog World Call Answer Err α

namespace World

/-- `self._positions[model] = index`. -/
def setPosition (w : World) (model : Str) (index : ℕ) : World :=
  { w with positions := Function.update w.positions model (some index) }

/-- `self._cooldowns[model, endpoint] = deadline`. -/
def setCooldown (w : World) (replica : Str × Str) (deadline : ℚ) : World :=
  { w with cooldowns := Function.update w.cooldowns replica (some deadline) }

/-- Rewrite the objects of one call. -/
def setCall (w : World) (me : ℕ) (f : CallState → CallState) : World :=
  { w with calls := Function.update w.calls me (f (w.calls me)) }

/-- `self._cooldowns.get((model, endpoint), 0)`. -/
def deadline (w : World) (replica : Str × Str) : ℚ := (w.cooldowns replica).getD 0

section

variable (w : World) (model : Str) (index : ℕ) (replica : Str × Str) (deadline : ℚ) (me : ℕ)
  (f : CallState → CallState)

@[simp] theorem setPosition_positions : (w.setPosition model index).positions =
    Function.update w.positions model (some index) := rfl
@[simp] theorem setPosition_cooldowns : (w.setPosition model index).cooldowns = w.cooldowns := rfl
@[simp] theorem setPosition_calls : (w.setPosition model index).calls = w.calls := rfl
@[simp] theorem setCooldown_cooldowns : (w.setCooldown replica deadline).cooldowns =
    Function.update w.cooldowns replica (some deadline) := rfl
@[simp] theorem setCooldown_positions : (w.setCooldown replica deadline).positions = w.positions := rfl
@[simp] theorem setCooldown_calls : (w.setCooldown replica deadline).calls = w.calls := rfl
@[simp] theorem setCall_positions : (w.setCall me f).positions = w.positions := rfl
@[simp] theorem setCall_cooldowns : (w.setCall me f).cooldowns = w.cooldowns := rfl

@[simp] theorem setCall_calls_self : (w.setCall me f).calls me = f (w.calls me) :=
  Function.update_self ..

/-- Two rewrites of a call are one. -/
theorem setCall_setCall (g : CallState → CallState) :
    (w.setCall me f).setCall me g = w.setCall me fun c => g (f c) := by
  simp [World.setCall]

end

end World

/-! ### Questions -/

/-- `self.clock()`. -/
def clock : Py ℚ := Prog.ask Call.clock

/-- `datetime.now(UTC)`. -/
def utcnow : Py ℚ := Prog.ask Call.utcnow

/-- `self.events.emit(record)`. -/
def emit (record : Record) : Py Unit := do Prog.ofExcept (← Prog.ask (Call.emit record))

/-- `await self.router.route(request, pair)`. -/
def route (request : Payload) (pair : Pair) : Py RoutingResult := do
  Prog.ofExcept (← Prog.askAwait (Call.route request pair))

/-- `await self.compressor.compress(messages, model)`. -/
def compress (messages : List Json) (model : Model) : Py CompressionResult := do
  Prog.ofExcept (← Prog.askAwait (Call.compress messages model))

/-- `await self.transport.send(endpoint, request, headers)`. -/
def send (model : Model) (endpoint : Endpoint) (request : Payload) (headers : Headers) :
    Py Upstream := do
  Prog.ofExcept (← Prog.askAwait (Call.send model endpoint request headers))

/-- `await response.close()`. -/
def close (response : Response) : Py Unit := do
  Prog.ofExcept (← Prog.askAwait (Call.close response.attempt))

/-- `event.update(…)` on the event of the call. -/
def updateEvent (me : ℕ) (f : Event → Event) : Py Unit :=
  Prog.update fun w => w.setCall me fun c => { c with event := f c.event }

/-- The event of the call as it stands. -/
def eventOf (me : ℕ) : Py Event := do return ((← Prog.read).calls me).event

/-- Raise an exception. -/
def raise {α : Type} (e : Exc) : Py α := throw (.exc e)

/-- A value, or the exception computing it raised. -/
def lift {α : Type} (r : Except Exc α) : Py α := Prog.ofExcept (r.mapError .exc)

section

variable (lib : Lib) (settings : Settings)

/-! ### Replicas -/

/-- `Gateway.ready`. -/
def Gateway.ready : Py Bool := do
  let now ← clock
  let w ← Prog.read
  return settings.models.any fun (_, model) => model.endpoints.any fun endpoint =>
    decide (w.deadline (model.name, endpoint.name) ≤ now)

/-- The scan of `Gateway._select`: the first replica, from the stored position
on, that is neither excluded nor cooling down. -/
def Gateway.selectFrom (model : Model) (excluded : List Str) (start : ℕ) :
    List (Fin model.endpoints.length) → Py (Fin model.endpoints.length)
  | [] => throw (gatewayError "no_available_replica" 503)
  | offset :: offsets => do
    let index : Fin model.endpoints.length := ⟨(start + offset) % model.endpoints.length,
      Nat.mod_lt _ (Nat.zero_lt_of_lt offset.isLt)⟩
    let endpoint := model.endpoints.get index
    if endpoint.name ∈ excluded then Gateway.selectFrom model excluded start offsets
    else
      let deadline := (← Prog.read).deadline (model.name, endpoint.name)
      let now ← clock
      if deadline ≤ now then
        Prog.update fun w => w.setPosition model.name ((index + 1) % model.endpoints.length)
        Prog.ask (Call.selected model endpoint)
        return index
      else Gateway.selectFrom model excluded start offsets

/-- `Gateway._select`. -/
def Gateway.select (model : Model) (excluded : List Str) : Py (Fin model.endpoints.length) := do
  let start := ((← Prog.read).positions model.name).getD 0
  Gateway.selectFrom model excluded start (List.finRange model.endpoints.length)

/-- The delay a `Retry-After` header asks for when the time is `now`, if it asks
for a finite one. -/
def retryDelay (retryAfter : Str) (now : ℚ) : Option ℚ :=
  match lib.float retryAfter with
  | some (.fin x) => some x
  | some _ => none
  | none => (lib.parsedate retryAfter).map (· - now)

/-- The seconds of `Gateway._cooldown`.  The current date is only read when the
header is not a number. -/
def Gateway.cooldownSeconds (retryAfter : Str) : Py ℚ := do
  match lib.float retryAfter with
  | some (.fin x) => return max settings.cooldownSeconds x
  | some _ => return settings.cooldownSeconds
  | none =>
    match lib.parsedate retryAfter with
    | none => return settings.cooldownSeconds
    | some date => return max settings.cooldownSeconds (date - (← utcnow))

/-- `Gateway._cooldown`. -/
def Gateway.cooldown (replica : Str × Str) (retryAfter : Str) : Py Unit := do
  let seconds ← Gateway.cooldownSeconds lib settings retryAfter
  let now ← clock
  Prog.update fun w => w.setCooldown replica (now + seconds)

/-! ### Preparing a request -/

/-- The tier a request is routed to: the request to send and the model's label. -/
def routeTier (me : ℕ) (request : Payload) (name : Str) : Py (Payload × Str × Tier) := do
  match settings.pairs.lookup name with
  | some pair => do
    updateEvent me fun ev => { ev with route := some pair.name }
    let decision ← route request pair
    if decision.tier = lit "capable" then return (decision.request, pair.capable, .capable)
    else if decision.tier = lit "efficient" then return (decision.request, pair.efficient, .efficient)
    else throw (gatewayError "invalid_routing_result")
  | none =>
    if (settings.models.lookup name).isSome then
      updateEvent me fun ev => { ev with route := some name }
      return (request, name, .direct)
    else throw (gatewayError "unknown_model" 404)

/-- The request to send and the model it goes to. -/
def routeRequest (me : ℕ) (request : Payload) : Py (Payload × Model) := do
  let some requested := request.lookup (lit "model") | raise .keyError
  let routeStarted ← clock
  let .str name := requested
    | if hashable requested then throw (gatewayError "unknown_model" 404) else raise .typeError
  let (prepared, label, tier) ← routeTier settings me request name
  let some model := settings.models.lookup label | raise .keyError
  let now ← clock
  updateEvent me fun ev =>
    { ev with
      tier := some tier
      model := some model.name
      routingMs := some ((now - routeStarted) * 1000) }
  return (prepared, model)

/-- Put the compressed rows back at the indices they were taken from. -/
def writeBack : List Json → List ℕ → List Json → List Json
  | messages, i :: indices, row :: rows => writeBack (messages.set i row) indices rows
  | messages, _, _ => messages

/-- The outcomes a compressor may report. -/
def compressionOutcome (outcome : Str) : Option Compression :=
  if outcome = lit "savings" then some .savings
  else if outcome = lit "no_savings" then some .noSavings
  else if outcome = lit "failed_unknown" then some .failedUnknown
  else none

/-- The `try` of `Gateway._open`: compress the eligible rows and check what came
back before any of it is written. -/
def compressRows (me : ℕ) (model : Model) (messages : List Json) (indices : List ℕ) :
    Py (List Json) := do
  let original := indices.filterMap (messages[·]?)
  let result ← compress original model
  let some outcome := compressionOutcome result.outcome
    | throw (gatewayError "invalid_compression_result")
  if ← lift (sameStructure original result.messages) then
    updateEvent me fun ev =>
      { ev with
        compression := some outcome
        tokens := some (result.tokensBefore, result.tokensAfter, result.tokensSaved) }
    return if outcome = .failedUnknown then messages else writeBack messages indices result.messages
  else throw (gatewayError "compression_structure_changed")

/-- The compression step of `Gateway._open`: whatever `Exception` it raises, the
request goes on uncompressed. -/
def compressHistory (me : ℕ) (model : Model) (headers : Headers) (prepared : Payload) :
    Py Payload := do
  updateEvent me fun ev => { ev with compression := some .bypass }
  if settings.compression ∧
      lib.lower ((headers.lookup (lit "x-headroom-bypass")).getD []) ≠ lit "true" then
    let some messages := prepared.lookup (lit "messages") | raise .keyError
    let indices ← lift (eligibleIndices messages)
    updateEvent me fun ev => { ev with compression := some .noEligibleHistory }
    match indices, messages with
    | _ :: _, .list rows =>
      tryCatch (do return prepared.set (lit "messages") (.list (← compressRows me model rows indices)))
        fun
          | .exc _ => do
            updateEvent me fun ev => { ev with compression := some .failedUnknown }
            return prepared
          | e => throw e
    | _, _ => return prepared
  else return prepared

/-- The first half of `Gateway._open`: route, merge defaults, compress, and pick
the headers to forward. -/
def prepare (me : ℕ) (request : Payload) (headers : Headers) : Py (Model × Payload × Headers) := do
  let (routed, model) ← routeRequest settings me request
  let prepared := (Dict.merge model.defaults routed).set (lit "model") (.str model.modelId)
  let compressStarted ← clock
  let prepared ← compressHistory lib settings me model headers prepared
  let now ← clock
  updateEvent me fun ev => { ev with compressionMs := some ((now - compressStarted) * 1000) }
  return (model, prepared, headers.filter fun p => p.1 ∈ settings.forwardHeaders)

/-! ### Attempts -/

/-- The statuses that allow another attempt. -/
def retryable (status : ℕ) : Bool := status ∈ [429, 502, 503, 504]

/-- `any(ep.name not in excluded and … <= self.clock() for ep in endpoints)`. -/
def anyAvailable (model : Model) (excluded : List Str) : List Endpoint → Py Bool
  | [] => return false
  | endpoint :: endpoints => do
    if endpoint.name ∈ excluded then anyAvailable model excluded endpoints
    else
      let deadline := (← Prog.read).deadline (model.name, endpoint.name)
      let now ← clock
      if deadline ≤ now then return true else anyAvailable model excluded endpoints

/-- The `replica_failure` record of an attempt. -/
def emitFailure (me : ℕ) (model : Model) (endpoint : Endpoint) (cause : FailureCause) : Py Unit := do
  emit (.replicaFailure (← eventOf me).requestId model.name endpoint.name cause)

/-- The `retry` record, for every attempt but the first. -/
def emitRetry (me : ℕ) (model : Model) (endpoint : Endpoint) (attempt : ℕ) : Py Unit := do
  if attempt = 0 then return ()
  else emit (.retry (← eventOf me).requestId model.name endpoint.name)

/-- The `try` around `transport.send`: a `ConnectFailure` cools the replica down
and, on the first attempt, is answered by `continue`, here `none`. -/
def trySend (me : ℕ) (model : Model) (prepared : Payload) (forwarded : Headers) (attempt : ℕ)
    (endpoint : Endpoint) : Py (Option Upstream) :=
  tryCatch (do return some (← send model endpoint prepared forwarded)) fun
    | .exc .connectFailure => do
      Gateway.cooldown lib settings (model.name, endpoint.name) []
      emitFailure me model endpoint .connect
      if attempt = 0 then return none else raise .connectFailure
    | e => throw e

/-- A response with a retryable status cools its replica down. -/
def coolRejected (me : ℕ) (model : Model) (endpoint : Endpoint) (upstream : Upstream) : Py Unit := do
  if retryable upstream.status then
    Gateway.cooldown lib settings (model.name, endpoint.name)
      ((upstream.headers.lookup (lit "retry-after")).getD [])
    emitFailure me model endpoint (.status upstream.status)
  else return ()

/-- Whether a response is discarded for another attempt: only a first one, with a
retryable status, and only if another replica is eligible. -/
def discards (model : Model) (excluded : List Str) (attempt : ℕ) (upstream : Upstream) : Py Bool := do
  if retryable upstream.status ∧ attempt = 0 then anyAvailable model excluded model.endpoints
  else return false

/-- The end of a round: a discarded response is closed for the next round, `none`
here, and any other is returned. -/
def conclude (me : ℕ) (exchange : Exchange) : (discarded : Bool) → Py (Option Exchange)
  | true => do
    close exchange.response
    return none
  | false => do
    let now ← clock
    updateEvent me fun ev =>
      { ev with upstreamHeadersMs := some ((now - exchange.upstreamStarted) * 1000) }
    return some exchange

/-- The part of a round that deals with a response: record its status, cool its
replica down, discard or return it. -/
def answered (me : ℕ) (model : Model) (started upstreamStarted : ℚ) (attempt : ℕ)
    (endpoint : Endpoint) (excluded : List Str) (upstream : Upstream) : Py (Option Exchange) := do
  updateEvent me fun ev => { ev with status := some upstream.status }
  coolRejected lib settings me model endpoint upstream
  let discarded ← discards model excluded attempt upstream
  conclude me ⟨⟨attempt, upstream⟩, started, upstreamStarted⟩ discarded

/-- One round of the loop of `Gateway._open`.  `none` is `continue`. -/
def attemptOnce (me : ℕ) (model : Model) (prepared : Payload) (forwarded : Headers)
    (started upstreamStarted : ℚ) (attempt : ℕ) (endpoint : Endpoint) (excluded : List Str) :
    Py (Option Exchange) := do
  updateEvent me fun ev => { ev with endpoint := some endpoint.name, attempts := some (attempt + 1) }
  emitRetry me model endpoint attempt
  match ← trySend lib settings me model prepared forwarded attempt endpoint with
  | none => return none
  | some upstream =>
    answered lib settings me model started upstreamStarted attempt endpoint excluded upstream

/-- The loop `for attempt in range(2)` of `Gateway._open`. -/
def attempts (me : ℕ) (model : Model) (prepared : Payload) (forwarded : Headers)
    (started upstreamStarted : ℚ) : (attempts : List ℕ) → (excluded : List Str) → Py Exchange
  | [], _ => throw (gatewayError "no_available_replica" 503)
  | attempt :: rest, excluded => do
    let index ← Gateway.select model excluded
    let endpoint := model.endpoints.get index
    let excluded := endpoint.name :: excluded
    match ← attemptOnce lib settings me model prepared forwarded started upstreamStarted attempt
        endpoint excluded with
    | some exchange => return exchange
    | none => attempts me model prepared forwarded started upstreamStarted rest excluded

/-- `Gateway._open`. -/
def Gateway.openInner (me : ℕ) (request : Payload) (headers : Headers) (started : ℚ) : Py Exchange := do
  let (model, prepared, forwarded) ← prepare lib settings me request headers
  let upstreamStarted ← clock
  attempts lib settings me model prepared forwarded started upstreamStarted [0, 1] []

/-- The status and error a failure of `Gateway.open` is recorded with. -/
def failureOf (e : Err) : ℕ × String :=
  match e.gatewayError? with
  | some (code, status) => (status, code)
  | none => (500, "request_failed")

/-- `Gateway.open`: prepare a request and open one upstream response. -/
def Gateway.open (me : ℕ) (request : Payload) (headers : Headers) (requestId : Str) : Py Exchange := do
  let started ← clock
  Prog.update fun w => w.setCall me fun c =>
    { c with event := { requestId := requestId, attempts := some 0 } }
  tryCatch (Gateway.openInner lib settings me request headers started) fun e => do
    let now ← clock
    updateEvent me fun ev =>
      { ev with
        outcome := some (if e = .cancelled then .cancelled else .failed)
        status := some (failureOf e).1
        error := some (failureOf e).2
        totalMs := some ((now - started) * 1000) }
    emit (.request (← eventOf me))
    throw e

end

/-! ### Reading and completion -/

/-- The seconds of `first_body_byte_ms`, taken at the first chunk with bytes. -/
def noteFirstByte (me : ℕ) (exchange : Exchange) (chunk : Bytes) : Py Unit := do
  if chunk ≠ [] ∧ (← eventOf me).firstBodyByteMs.isNone then
    let now ← clock
    updateEvent me fun ev =>
      { ev with firstBodyByteMs := some ((now - exchange.upstreamStarted) * 1000) }
  else return ()

/-- `async for chunk in gateway.body(exchange)`, with the body of the loop as a
fold: `step` handles one chunk and says whether the loop goes on. -/
def Gateway.bodyFrom {β : Type} (me : ℕ) (exchange : Exchange) (step : β → Bytes → Py (β × Bool)) :
    List Bytes → β → Py β
  | [], acc => do
    Prog.askAwait (Call.read exchange.response.attempt)
    match exchange.response.upstream.body.ending with
    | .eof => return acc
    | .raise e => throw e
  | chunk :: chunks, acc => do
    Prog.askAwait (Call.read exchange.response.attempt)
    noteFirstByte me exchange chunk
    let (acc, more) ← step acc chunk
    if more then Gateway.bodyFrom me exchange step chunks acc else return acc

/-- `Gateway.body`, iterated from the start of the response. -/
def Gateway.body {β : Type} (me : ℕ) (exchange : Exchange) (step : β → Bytes → Py (β × Bool))
    (acc : β) : Py β :=
  Gateway.bodyFrom me exchange step exchange.response.upstream.body.chunks acc

/-- The outcome `Gateway.finish` records after its close, failed or not. -/
def noteClose (me : ℕ) (outcome : Outcome) : Except Err Unit → Py Outcome
  | .ok () => return outcome
  | .error _ => do
    updateEvent me fun ev => { ev with closeFailed := true }
    return if outcome = .completed then .failed else outcome

/-- The last lines of `Gateway.finish`: an `Exception` of the close stops here. -/
def raiseUnlessException : Except Err Unit → Py Unit
  | .ok () | .error (.exc _) => return ()
  | .error e => throw e

/-- `Gateway.finish`: close an exchange and emit exactly one terminal event.  A
close failure is recorded on the event; a cancellation propagates after it. -/
def Gateway.finish (me : ℕ) (exchange : Exchange) (outcome : Outcome) : Py Unit := do
  if ((← Prog.read).calls me).finished then return ()
  else
    Prog.update fun w => w.setCall me fun c => { c with finished := true }
    let failure ← (close exchange.response).attempt
    let outcome ← noteClose me outcome failure
    let now ← clock
    updateEvent me fun ev =>
      { ev with outcome := some outcome, totalMs := some ((now - exchange.started) * 1000) }
    emit (.request (← eventOf me))
    raiseUnlessException failure

end Application
end SwitchyardGateway
