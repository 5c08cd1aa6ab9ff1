/-
# What a request has to look like

`_validate` of `ingress.py`: the checks a chat request passes before the gateway
opens anything, in the order of the source, with the code of the first that
fails.  A role that is a list or a `dict` cannot be looked up in a set and raises
`TypeError`, which is no `GatewayError`.

`validate_ok` says what a request that passes is: the rest of the gateway relies
on its model being a name and its messages being rows.
-/

import SwitchyardGateway.Application.History
import SwitchyardGateway.Python.Raising

namespace SwitchyardGateway
namespace Ingress

open Python Application

/-- `raise GatewayError(code, 400)`. -/
def invalid {α : Type} (code : String) : Except Exc α := .error (.gateway code 400)

/-- `if not condition: raise GatewayError(code, 400)`. -/
def require (condition : Bool) (code : String) : Except Exc Unit :=
  if condition then .ok () else invalid code

/-- `isinstance(value, str)`. -/
def isStr : Json → Bool
  | .str _ => true
  | _ => false

/-- `isinstance(value, str) and value`. -/
def isName : Json → Bool
  | .str (_ :: _) => true
  | _ => false

/-- `isinstance(value, bool)`. -/
def isBool : Json → Bool
  | .bool _ => true
  | _ => false

/-- `isinstance(value, dict)`. -/
def isDict : Json → Bool
  | .obj _ => true
  | _ => false

/-- The roles a message may have. -/
def roles : List Json :=
  [.str (lit "system"), .str (lit "developer"), .str (lit "user"), .str (lit "assistant"),
   .str (lit "tool")]

/-- A block of a content that is a list. -/
def isTextBlock : Json → Bool
  | .obj block => (get block "type").pyEq (.str (lit "text")) && isStr (get block "text")
  | _ => false

/-- A content is a text, `None` or a list of text blocks. -/
def isContent : Json → Bool
  | .str _ | .null => true
  | .list blocks => blocks.all isTextBlock
  | _ => false

section

variable (lib : Lib)

/-- The condition in the `try` of a tool call, turned round: a function with a name,
whose arguments are the text of an object.  Reading them may raise. -/
def isCall : Json → Except Exc Bool
  | .obj call =>
    if (get call "type").pyEq (.str (lit "function")) && isName (get call "id") then
      match get call "function" with
      | .obj function =>
        match isName (get function "name"), get function "arguments" with
        | true, .str arguments => (lib.loads false arguments).map isDict
        | _, _ => .ok false
      | _ => .ok false
    else .ok false
  | _ => .ok false

/-- The `try` of a tool call. -/
def checkCall (call : Json) : Except Exc Unit :=
  match isCall lib call with
  | .ok true => .ok ()
  | .ok false | .error .valueError | .error .typeError => invalid "invalid_tool_calls"
  | .error e => .error e

/-- `message.get("tool_calls", [])`, which has to be a list. -/
def callsOf (message : Payload) : Except Exc (List Json) :=
  match message.lookup (lit "tool_calls") with
  | none => .ok []
  | some (.list calls) => .ok calls
  | some _ => invalid "invalid_tool_calls"

/-- The body of the loop over the messages. -/
def validateMessage : Json → Except Exc Unit
  | .obj message => do
    require (← inSet (get message "role") roles) "invalid_message"
    require (isContent (get message "content")) "unsupported_message_content"
    require (!(get message "content").pyEq .null || hasRole "assistant" message)
      "invalid_message_content"
    (← callsOf message).forM (checkCall lib)
    require (!hasRole "tool" message || isName (get message "tool_call_id")) "invalid_tool_result"
  | _ => invalid "invalid_message"

/-- `_validate`. -/
def validate : Json → Except Exc Payload
  | .obj payload => do
    require (isStr (get payload "model")) "invalid_request"
    require ((payload.lookup (lit "stream")).all isBool) "invalid_stream"
    match get payload "messages" with
    | .list (message :: messages) => do
      (message :: messages).forM (validateMessage lib)
      return payload
    | _ => invalid "invalid_messages"
  | _ => invalid "invalid_request"

end

variable {lib : Lib}

@[simp] theorem require_ok {condition : Bool} {code : String} {u : Unit} :
    require condition code = .ok u ↔ condition = true := by
  cases condition <;> simp [require, invalid]

/-- A value that `.get` finds and that is not `None` is there. -/
theorem lookup_of_get {payload : Payload} {key : String} {value : Json}
    (h : Application.get payload key = value) (hvalue : value ≠ .null) :
    payload.lookup (lit key) = some value := by
  unfold Application.get at h
  cases hlookup : payload.lookup (lit key) with
  | none =>
    rw [hlookup] at h
    exact absurd h.symm hvalue
  | some found =>
    rw [hlookup] at h
    exact congrArg some h

/-- A message that passes is a row. -/
theorem validateMessage_ok {message : Json} (h : validateMessage lib message = .ok ()) :
    ∃ row, message = .obj row := by
  cases message with
  | obj row => exact ⟨row, rfl⟩
  | _ => cases h

/-- **A request that passes** has a name for a model, no `stream` but a `bool`, and
at least one message, all of them rows that pass. -/
theorem validate_ok {value : Json} {payload : Payload} (h : validate lib value = .ok payload) :
    value = .obj payload ∧ (∃ name, payload.lookup (lit "model") = some (.str name)) ∧
    (∀ stream ∈ payload.lookup (lit "stream"), ∃ b, stream = .bool b) ∧
    ∃ messages, messages ≠ [] ∧ payload.lookup (lit "messages") = some (.list messages) ∧
      ∀ message ∈ messages, validateMessage lib message = .ok () := by
  have hforM : ∀ messages : List Json, messages.forM (validateMessage lib) = .ok () →
      ∀ message ∈ messages, validateMessage lib message = .ok () := by
    intro messages hmessages
    induction messages with
    | nil => rintro _ ⟨⟩
    | cons message messages ih =>
      obtain ⟨_, hfirst, hrest⟩ := bind_ok hmessages
      exact List.forall_mem_cons.2 ⟨hfirst, ih hrest⟩
  cases value with
  | obj fields =>
    obtain ⟨_, hmodel, h⟩ := bind_ok h
    obtain ⟨_, hstream, h⟩ := bind_ok h
    split at h
    · rename_i first rest hmessages
      obtain ⟨_, hall, h⟩ := bind_ok h
      obtain rfl := Except.ok.inj h
      refine ⟨rfl, ?_, fun stream hmem => ?_, first :: rest, List.cons_ne_nil _ _, ?_, hforM _ hall⟩
      · cases hget : Application.get fields "model" with
        | str name => exact ⟨name, lookup_of_get hget (by rintro ⟨⟩)⟩
        | _ =>
          rw [require_ok, hget] at hmodel
          cases hmodel
      · rw [require_ok, hmem, Option.all_some] at hstream
        cases stream with
        | bool b => exact ⟨b, rfl⟩
        | _ => cases hstream
      · exact lookup_of_get hmessages (by rintro ⟨⟩)
    · cases h
  | _ => cases h

end Ingress
end SwitchyardGateway
