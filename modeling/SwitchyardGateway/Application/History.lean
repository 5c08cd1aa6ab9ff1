/-
# Which history may be compressed

`eligible_indices` and `_same_structure` of `application.py`.

The rows of a request are untyped, so every probe of a row can raise: `.get` on
a value that is no `dict`, iterating a value that is no list, putting a list or
a `dict` into a set.  `eligibleIndices` raises where the source does.  A key
that is absent and a key that is `null` read alike, as `None`.
-/

import SwitchyardGateway.Domain

namespace SwitchyardGateway
namespace Application

open Python

/-- `row.get(key)`, where `None` is `Json.null`. -/
def get (row : Payload) (key : String) : Json := (row.lookup (lit key)).getD .null

/-- The items of a value that has `.items()` and `.get`; anything else raises. -/
def asDict : Json → Except Exc Payload
  | .obj fields => .ok fields
  | _ => .error .other

/-- Putting a list or a `dict` into a set raises `TypeError`. -/
def hashable : Json → Bool
  | .list _ | .obj _ => false
  | _ => true

/-- `value in {…}` for a set of values: one of them is `value`, or equals it. -/
def inSet (value : Json) (set : List Json) : Except Exc Bool :=
  if hashable value then .ok (set.any (·.itemEq value)) else .error .typeError

/-- `row.get("role") == role`. -/
def hasRole (role : String) (row : Payload) : Bool := (get row "role").pyEq (.str (lit role))

/-- The indices of the rows that satisfy `p`, in increasing order. -/
def indicesWhere (p : Payload → Bool) (rows : List Payload) : List ℕ :=
  (rows.zipIdx.filter fun x => p x.1).map Prod.snd

/-- `max((i for …), default=0)` of the rows with a role. -/
def lastWithRole (role : String) (rows : List Payload) : ℕ :=
  (indicesWhere (hasRole role) rows).max?.getD 0

/-- `{row.get("tool_call_id") for row in rows}`. -/
def liveIds : List Payload → Except Exc (List Json)
  | [] => .ok []
  | row :: rows => do
    if hashable (get row "tool_call_id") then
      return get row "tool_call_id" :: (← liveIds rows)
    else throw .typeError

/-- `any(call.get("id") in live_ids for call in calls)`, which stops at the
first hit. -/
def anyCallLive (live : List Json) : List Json → Except Exc Bool
  | [] => .ok false
  | call :: calls => do
    let fields ← asDict call
    if ← inSet (get fields "id") live then return true else anyCallLive live calls

/-- The values `for call in row.get("tool_calls", [])` goes through: the characters
of a string and the keys of a `dict` have no `.get`. -/
def toolCalls (row : Payload) : Except Exc (List Json) :=
  match row.lookup (lit "tool_calls") with
  | none => .ok []
  | some (.list calls) => .ok calls
  | some (.str s) => .ok (s.map fun c => .str [c])
  | some (.obj fields) => .ok (fields.map fun p => .str p.1)
  | some _ => .error .typeError

/-- The least index, counted from `i`, of a row that issues a live call. -/
def firstLiveCall (live : List Json) : ℕ → List Payload → Except Exc (Option ℕ)
  | _, [] => .ok none
  | i, row :: rows => do
    let hit ← anyCallLive live (← toolCalls row)
    let later ← firstLiveCall live (i + 1) rows
    return if hit then some i else later

/-- The loop that protects whole tool exchanges.  Each round that goes on moves
the boundary to an earlier row, so `boundary + 1` rounds are enough. -/
def protect (rows : List Payload) : (rounds boundary : ℕ) → Except Exc ℕ
  | 0, boundary => .ok boundary
  | rounds + 1, boundary => do
    let live ← liveIds (rows.drop boundary)
    match ← firstLiveCall live 0 (rows.take boundary) with
    | none => return boundary
    | some earlier => protect rows rounds earlier

/-- A value that carries a `cache_control` key, at any depth. -/
def cached (value : Json) : Bool :=
  value.any fun
    | .obj fields => (fields.lookup (lit "cache_control")).isSome
    | _ => false

/-- The rows counted from `i` that are neither instructions nor cached. -/
def compressible : ℕ → List Payload → Except Exc (List ℕ)
  | _, [] => .ok []
  | i, row :: rows => do
    let instruction ← inSet (get row "role") [.str (lit "system"), .str (lit "developer")]
    let rest ← compressible (i + 1) rows
    return if !instruction && !cached (.obj row) then i :: rest else rest

/-- The rows `enumerate(messages)` goes through; `""` is an empty sequence too. -/
def asRows : Json → Except Exc (List Payload)
  | .list messages => messages.mapM asDict
  | .str [] => .ok []
  | .str _ => .error .other
  | .obj [] => .error .keyError
  | .obj _ => .error .other
  | _ => .error .typeError

/-- `eligible_indices`: old history that is neither live, cached nor an
instruction. -/
def eligibleIndices (messages : Json) : Except Exc (List ℕ) := do
  let rows ← asRows messages
  let recent := min (lastWithRole "user" rows) (lastWithRole "assistant" rows)
  let boundary ← protect rows (recent + 1) recent
  compressible 0 (rows.take boundary)

/-- `{k: v for k, v in row.items() if k != "content"}`. -/
def withoutContent (row : Payload) : Payload := row.filter fun p => p.1 ≠ lit "content"

/-- `_same_structure`: equally many rows that are equal, for Python, apart from
their `"content"`. -/
def sameStructure : List Json → List Json → Except Exc Bool
  | [], [] => .ok true
  | old :: before, new :: after => do
    if before.length ≠ after.length then return false
    let old ← asDict old
    let new ← asDict new
    if (Json.obj (withoutContent old)).pyEq (.obj (withoutContent new)) then
      sameStructure before after
    else return false
  | _, _ => .ok false

end Application
end SwitchyardGateway
