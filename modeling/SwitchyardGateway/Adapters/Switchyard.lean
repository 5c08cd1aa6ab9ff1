/-
# The routing adapter

`SwitchyardRouter` of `adapters/switchyard.py`.  The messages of a request are
put into the form of the routing library (`normalize`), which runs with a client
for each tier that records what it is called with.  The one recorded request says
which tier was chosen.  Its messages are turned back: a row that equals a message's
normal form stands for that message, which is put back as it was, and any other
row has to be a text (`restore`).

The library is the parameter `stage`: what the clients of the two tiers recorded,
or what it raised.  Probing a value of the wrong type raises what it raises in the
source.
-/

import SwitchyardGateway.Ingress.Validate

namespace SwitchyardGateway
namespace Switchyard

open Python Application

/-- `value[key]`. -/
def item (value : Json) (key : String) : Except Exc Json :=
  match value with
  | .obj fields =>
    match fields.lookup (lit key) with
    | some v => .ok v
    | none => .error .keyError
  | _ => .error .typeError

/-- The values `for x in value` goes through. -/
def iterate : Json → Except Exc (List Json)
  | .list xs => .ok xs
  | .str s => .ok (s.map fun c => .str [c])
  | .obj fields => .ok (fields.map fun p => .str p.1)
  | _ => .error .typeError

/-! ### The normal form of a message -/

/-- `{"type": "text", "text": text}`. -/
def textBlock (text : Json) : Json :=
  .obj [(lit "type", .str (lit "text")), (lit "text", text)]

/-- A text block without its annotations. -/
def plainBlock : Json → Json
  | .obj block => textBlock (get block "text")
  | v => textBlock v

/-- `_content`. -/
def content : Json → Except Exc (List Json)
  | .null => .ok []
  | .str s => .ok [textBlock (.str s)]
  | .list blocks =>
    if blocks.all Ingress.isTextBlock then .ok (blocks.map plainBlock)
    else .error (.gateway "unsupported_message_content" 400)
  | _ => .error (.gateway "unsupported_message_content" 400)

section

variable (lib : Lib)

/-- `json.loads(value)`. -/
def loadsValue : Json → Except Exc Json
  | .str s => lib.loads false s
  | _ => .error .typeError

/-- The body of the loop over the tool calls. -/
def normalizeCall (call : Json) : Except Exc Json := do
  let arguments ← loadsValue lib (← item (← item call "function") "arguments")
  if Ingress.isDict arguments then
    return .obj
      [(lit "type", .str (lit "tool_call")), (lit "id", ← item call "id"),
       (lit "name", ← item (← item call "function") "name"), (lit "arguments", arguments)]
  else throw (.gateway "invalid_tool_arguments" 400)

/-- The blocks of the tool calls, which only an assistant's message has. -/
def callBlocks (role : Json) (message : Payload) : Except Exc (List Json) :=
  if role.pyEq (.str (lit "assistant")) then do (← toolCalls message).mapM (normalizeCall lib)
  else return []

/-- The content of the answer to a tool call. -/
def toolResult (message : Payload) (content : List Json) : Except Exc (List Json) := do
  return [.obj
    [(lit "type", .str (lit "tool_result")),
     (lit "tool_call_id", ← item (.obj message) "tool_call_id"), (lit "content", .list content),
     (lit "is_error", .null)]]

/-- `_normalize`. -/
def normalize : Json → Except Exc Json
  | .obj message => do
    let role ← item (.obj message) "role"
    let blocks ← content (get message "content")
    let blocks := blocks ++ (← callBlocks lib role message)
    let blocks ← if role.pyEq (.str (lit "tool")) then toolResult message blocks else pure blocks
    return .obj [(lit "role", role), (lit "content", .list blocks)]
  | _ => .error .typeError

/-! ### The way back -/

/-- `all(block.get("type") == "text" for block in blocks)`, which stops at the first
block of another type. -/
def allText : List Json → Except Exc Bool
  | [] => .ok true
  | block :: blocks => do
    let fields ← asDict block
    if (get fields "type").pyEq (.str (lit "text")) then allText blocks else return false

/-- The text of a block, which `"\n".join` needs to be a `str`. -/
def textOf (block : Json) : Except Exc Str := do
  match ← item block "text" with
  | .str text => return text
  | _ => throw .typeError

/-- `{"role": role, "content": text}`. -/
def textMessage (role : Json) (text : Str) : Json :=
  .obj [(lit "role", role), (lit "content", .str text)]

/-- `_restore`. -/
def restore (row : Json) : Except Exc Json := do
  let message ← asDict row
  let blocks ← iterate ((message.lookup (lit "content")).getD (.list []))
  if ← allText blocks then
    let role ← item row "role"
    return textMessage role ([10].intercalate (← blocks.mapM textOf))
  else throw (.gateway "unsupported_routing_rewrite" 502)

/-- The loop over the captured rows, and what is left of the messages, each with its
normal form. -/
def putBack : List (Json × Json) → List Json → Except Exc (List Json × List (Json × Json))
  | remaining, [] => .ok ([], remaining)
  | remaining, row :: rows =>
    match remaining.find? (·.1.pyEq row) with
    | none => do
      let message ← restore row
      let (rewritten, left) ← putBack remaining rows
      return (message :: rewritten, left)
    | some (_, source) => do
      let (rewritten, left) ← putBack (remaining.eraseP (·.1.pyEq row)) rows
      return (source :: rewritten, left)

/-- The messages of a captured request, turned back. -/
def rewritten (messages normalized : List Json) (captured : Payload) : Except Exc (List Json) := do
  let instructions ← iterate ((captured.lookup (lit "instructions")).getD (.list []))
  let generated ← instructions.mapM restore
  let rows ← iterate (← item (.obj captured) "messages")
  let (rest, left) ← putBack (normalized.zip messages) rows
  if left.isEmpty then return generated ++ rest
  else throw (.gateway "unsupported_routing_rewrite" 502)

/-! ### A route -/

/-- What the clients of the two tiers recorded. -/
structure Captures where
  capable : List Payload
  efficient : List Payload

/-- The one client that recorded one request, and that request. -/
def selected : Captures → Except Exc (Str × Payload)
  | ⟨[captured], []⟩ => .ok (lit "capable", captured)
  | ⟨[], [captured]⟩ => .ok (lit "efficient", captured)
  | _ => .error (.gateway "invalid_routing_result" 502)

/-- The first `try` of `route` and its handlers. -/
def normalizeAll (request : Payload) : Except Exc (List Json × List Json) :=
  match (do
    let messages ← iterate (← item (.obj request) "messages")
    return (messages, ← messages.mapM (normalize lib)) : Except Exc (List Json × List Json)) with
  | .error .keyError | .error .typeError | .error .valueError =>
    .error (.gateway "invalid_routing_request" 400)
  | r => r

/-- The handlers of the second `try`: an exception that is no `GatewayError` is one. -/
def routingFailed : Err → Err
  | .exc e => if e.gatewayError?.isSome then .exc e else gatewayError "routing_failed"
  | e => e

/-- `SwitchyardRouter.route`. -/
def route (stage : Pair → List Json → Except Err Captures) (request : Payload) (pair : Pair) :
    Except Err RoutingResult := do
  let (messages, normalized) ← (normalizeAll lib request).mapError Err.exc
  (do
    let captures ← stage pair normalized
    let (tier, captured) ← (selected captures).mapError Err.exc
    let messages ← (rewritten messages normalized captured).mapError Err.exc
    return ⟨tier, request.set (lit "messages") (.list messages)⟩ : Except Err RoutingResult).mapError
      routingFailed

end

end Switchyard
end SwitchyardGateway
