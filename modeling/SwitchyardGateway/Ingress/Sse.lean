/-
# Rewriting an event stream

`sse_body` of `ingress.py`, a generator that is driven by the framework: it
waits for a chunk of the upstream (`Call.read`), cuts what it has into events at
every blank line, rewrites each event and yields it (`Call.yield`).  A frame that
is not taken ends the generator with `GeneratorExit`, which no handler of
`sse_body` catches.

`parseEvent` is the part of the loop that only computes.  The size limit is a
parameter; the gateway runs at `maxResponse`.
-/

import SwitchyardGateway.Application.Gateway
import SwitchyardGateway.Python.Text
import SwitchyardGateway.Wire.Splitter

namespace SwitchyardGateway
namespace Ingress

open Coop Python Application Wire

/-! ### Frames -/

/-- The four words `\r?\n\r?\n` matches. -/
def blankLines : List Bytes := [[10, 10], [10, 13, 10], [13, 10, 10], [13, 10, 13, 10]]

/-- `_EVENT_END`. -/
def eventEnd : Terminator UInt8 := .ofWords blankLines (by decide)

/-- `_MAX_RESPONSE`. -/
def maxResponse : ℕ := 32 * 1024 * 1024

/-- `"data:"`. -/
def dataField : Text := ['d', 'a', 't', 'a', ':']

/-- `"[DONE]"`. -/
def doneText : Text := ['[', 'D', 'O', 'N', 'E', ']']

/-- `b"data: [DONE]\n\n"`. -/
def doneFrame : Bytes := encode (dataField ++ ' ' :: doneText ++ ['\n', '\n'])

/-- The payload of `_INTERRUPTED_FRAME`. -/
def interruptedText : Text :=
  ("\x7b\"error\":\x7b\"message\":\"upstream_stream_interrupted\"," ++
    "\"type\":\"gateway_error\",\"code\":\"upstream_stream_interrupted\"\x7d\x7d").toList

/-- `_INTERRUPTED_FRAME`. -/
def interruptedFrame : Bytes := encode (dataField ++ ' ' :: interruptedText ++ ['\n', '\n'])

/-- `("\n".join(lines) + "\n\n").encode()`. -/
def frameOf (lines : List Text) : Bytes := encode (join lines ++ ['\n', '\n'])

/-! ### Events -/

/-- `line.startswith("data:")`. -/
def isData (line : Text) : Bool := dataField.isPrefixOf line

/-- `"\n".join(line[5:].lstrip(" ") for line in lines if line.startswith("data:"))`. -/
def dataOf (lines : List Text) : Text :=
  join ((lines.filter isData).map fun line => lstrip (line.drop 5))

/-- What is kept of a number of tokens: `isinstance(val, int)`, no `bool`, not
negative. -/
def isCount : Json → Bool
  | .int n => 0 ≤ n
  | _ => false

/-- `_usage`. -/
def usage : Json → Option Payload
  | .obj fields => some (fields.filter fun p =>
      p.1 ∈ [lit "prompt_tokens", lit "completion_tokens", lit "total_tokens"] && isCount p.2)
  | _ => none

/-- What is kept of a usage: three counts at most. -/
def Counts (counts : Payload) : Prop :=
  ∀ p ∈ counts, p.1 ∈ [lit "prompt_tokens", lit "completion_tokens", lit "total_tokens"] ∧ ∃ n : ℕ, p.2 = .int n

theorem usage_counts {value : Json} {counts : Payload} (h : usage value = some counts) : Counts counts := by
  cases value with
  | obj fields =>
    obtain rfl := Option.some.inj h
    intro p hp
    rw [List.mem_filter, Bool.and_eq_true, decide_eq_true_iff] at hp
    obtain ⟨-, hkey, hcount⟩ := hp
    refine ⟨hkey, ?_⟩
    cases hvalue : p.2 with
    | int n =>
      rw [hvalue] at hcount
      exact ⟨n.toNat, by rw [Int.toNat_of_nonneg (of_decide_eq_true hcount)]⟩
    | _ =>
      rw [hvalue] at hcount
      cases hcount
  | _ => cases h

/-- `if "model" in value: value["model"] = alias`. -/
def rename (aliasName : Str) (value : Payload) : Payload :=
  if (value.lookup (lit "model")).isSome then value.set (lit "model") (.str aliasName) else value

/-- What an event turns out to be. -/
inductive Parsed where
  | done
  | plain (lines : List Text)
  | object (others : List Text) (value : Payload)

section

variable (lib : Lib) (aliasName : Str)

/-- Look at the data of an event, given its lines. -/
def parseLines (lines : List Text) : Except Exc Parsed :=
  if dataOf lines = doneText then .ok .done
  else if dataOf lines = [] then .ok (.plain lines)
  else
    match lib.loads false (dataOf lines).str with
    | .ok (.obj value) =>
      if (value.lookup (lit "error")).isSome then .error (.gateway "upstream_stream_error" 502)
      else .ok (.object (lines.filter (!isData ·)) (rename aliasName value))
    | .ok _ => .error (.gateway "upstream_stream_error" 502)
    | .error e => .error e

/-- Decode an event and look at its data. -/
def parseEvent (frame : Bytes) : Except Exc Parsed :=
  match decode frame with
  | some text => parseLines lib aliasName (splitlines text)
  | none => .error .valueError

/-- `yield frame`; a generator that is not resumed ends with `GeneratorExit`. -/
def yieldFrame (frame : Bytes) : Py Unit := do
  if ← Prog.askAwait (Call.yield frame) then return () else throw .exit

/-- `exchange.event["stream_outcome"] = outcome`. -/
def setStreamOutcome (me : ℕ) (outcome : Outcome) : Py Unit :=
  updateEvent me fun ev => { ev with streamOutcome := some outcome }

/-- `exchange.event["usage"] = usage`, if there is one. -/
def noteUsage (me : ℕ) (value : Payload) : Py Unit := do
  match usage (get value "usage") with
  | some counts => updateEvent me fun ev => { ev with usage := some counts }
  | none => return ()

variable (limit : ℕ) (me : ℕ)

/-- The body of the inner loop of `sse_body`; `false` is its `return`. -/
def sseEvent (frame : Bytes) : Py Bool := do
  if limit < frame.length then throw (gatewayError "upstream_event_too_large")
  match ← lift (parseEvent lib aliasName frame) with
  | .done => do
    yieldFrame doneFrame
    setStreamOutcome me .completed
    return false
  | .plain lines => do
    yieldFrame (frameOf lines)
    return true
  | .object others value => do
    noteUsage me value
    let text ← lift (lib.dumps (.obj value))
    yieldFrame (frameOf (others ++ [dataField ++ ' ' :: text]))
    return true

/-- `while match := _EVENT_END.search(buffer)`.  A match is not empty, so there
are no more rounds than bytes. -/
def drain : (rounds : ℕ) → (buffer : Bytes) → Py (Bytes × Bool)
  | 0, buffer => return (buffer, true)
  | rounds + 1, buffer =>
    match eventEnd.search buffer with
    | none => return (buffer, true)
    | some (frame, rest) => do
      if ← sseEvent lib aliasName limit me frame then drain rounds rest else return (rest, false)

/-- The body of the outer loop.  The state of the loop is the buffer and whether
the generator has returned. -/
def sseChunk (state : Bytes × Bool) (chunk : Bytes) : Py ((Bytes × Bool) × Bool) := do
  let buffer := state.1 ++ chunk
  let (rest, more) ← drain lib aliasName limit me buffer.length buffer
  if more then
    if limit < rest.length then throw (gatewayError "upstream_event_too_large")
    return ((rest, false), true)
  else return ((rest, true), false)

/-- The `try` of `sse_body`. -/
def sseLoop (exchange : Exchange) : Py Unit := do
  let (_, returned) ← Gateway.body me exchange (sseChunk lib aliasName limit me) ([], false)
  if returned then return () else throw (gatewayError "upstream_stream_incomplete")

/-- `sse_body`. -/
def sseBody (exchange : Exchange) : Py Unit :=
  tryCatch (sseLoop lib aliasName limit me exchange) fun
    | .cancelled => do
      setStreamOutcome me .cancelled
      throw .cancelled
    | .exc _ => do
      setStreamOutcome me .interrupted
      yieldFrame interruptedFrame
    | .exit => throw .exit

end

end Ingress
end SwitchyardGateway
