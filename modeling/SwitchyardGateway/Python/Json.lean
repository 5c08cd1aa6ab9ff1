/-
# JSON values as Python holds them

`json.loads` builds these: objects are dictionaries, numbers are `int` or
`float`, and a `float` may be an infinity or a NaN, because Python's reader
accepts `NaN`, `Infinity` and literals that overflow.  A `str` is a sequence of
code points, so it can hold an unpaired surrogate (`"\ud800"`).

`Json.pyEq` is Python's `==`, which compares numbers by value whatever their type:
`1 == 1.0 == True`.  A NaN equals nothing by itself, but a list or a dictionary
takes an item for equal that is the same object: `[x] == [x]` for every `x`.  So a
NaN is modelled with its identity, and `Json.itemEq` is the comparison of items,
"identical or equal".
-/

import SwitchyardGateway.Python.Dict
import Mathlib.Data.Rat.Defs

namespace SwitchyardGateway
namespace Python

/-- A Python `str`: its code points. -/
abbrev Str := List ℕ

instance lawfulStr : LawfulBEq Str := inferInstance

/-- The `str` of a literal in the source. -/
def lit (s : String) : Str := s.toList.map Char.toNat

/-- A Python `float`: a finite one stands for its exact value, a NaN for the object
that it is. -/
inductive Flt where
  | fin (q : ℚ)
  | inf (negative : Bool)
  | nan (object : ℕ)
  deriving DecidableEq

/-- `math.isfinite`. -/
def Flt.isFinite : Flt → Bool
  | .fin _ => true
  | _ => false

/-- `x < y`, which a NaN makes false on either side. -/
def Flt.lt : Flt → Flt → Bool
  | .fin q, .fin r => q < r
  | .inf true, .fin _ | .inf true, .inf false | .fin _, .inf false => true
  | _, _ => false

/-- A JSON value. -/
inductive Json where
  | null
  | bool (b : Bool)
  | int (n : ℤ)
  | float (x : Flt)
  | str (s : Str)
  | list (xs : List Json)
  | obj (fields : List (Str × Json))

/-- A JSON object, `dict[str, Any]` in the source. -/
abbrev Payload := Dict Str Json

namespace Json

/-! ### Looking for a value at any depth -/

mutual

/-- Does `p` hold of the value or of a value inside it, at any depth? -/
def any (p : Json → Bool) : Json → Bool
  | .list xs => p (.list xs) || anyList p xs
  | .obj fields => p (.obj fields) || anyFields p fields
  | v => p v

def anyList (p : Json → Bool) : List Json → Bool
  | [] => false
  | v :: vs => v.any p || anyList p vs

def anyFields (p : Json → Bool) : List (Str × Json) → Bool
  | [] => false
  | (_, v) :: fields => v.any p || anyFields p fields

end

/-- A number that JSON has no text for. -/
def isNonFinite : Json → Bool
  | .float x => !x.isFinite
  | _ => false

/-- No infinity and no NaN at any depth. -/
def finite (v : Json) : Bool := !v.any isNonFinite

/-! ### Equality -/

/-- The number a value counts as: Python's `bool` is an `int`. -/
def number? : Json → Option Flt
  | .bool b => some (.fin (if b then 1 else 0))
  | .int n => some (.fin n)
  | .float x => some x
  | _ => none

/-- Are two values that hold no others identical or equal?  Numbers are if they are of
one value, and a NaN is itself. -/
def itemLeaf (v w : Json) : Bool :=
  match v.number?, w.number? with
  | some x, some y => x == y
  | none, none =>
    match v, w with
    | .null, .null => true
    | .str s, .str t => s == t
    | _, _ => false
  | _, _ => false

mutual

/-- Equality of values from a comparison of leaves: lists item by item, objects
key by key in any order. -/
def eqBy (leaf : Json → Json → Bool) : Json → Json → Bool
  | .list xs, .list ys => eqByList leaf xs ys
  | .obj fields, .obj fields' =>
    fields.length == fields'.length && eqByFields leaf fields fields'
  | v, w => leaf v w

def eqByList (leaf : Json → Json → Bool) : List Json → List Json → Bool
  | [], [] => true
  | v :: vs, w :: ws => v.eqBy leaf w && eqByList leaf vs ws
  | _, _ => false

def eqByFields (leaf : Json → Json → Bool) : List (Str × Json) → List (Str × Json) → Bool
  | [], _ => true
  | (k, v) :: fields, fields' =>
    (match fields'.lookup k with
      | some w => v.eqBy leaf w
      | none => false) && eqByFields leaf fields fields'

end

/-- Identical or equal, which is what a list or a dictionary asks of its items and a set
of its members. -/
def itemEq (v w : Json) : Bool := v.eqBy itemLeaf w

def isNan : Json → Bool
  | .float (.nan _) => true
  | _ => false

/-- Python's `==`, by which a NaN equals nothing, not even itself. -/
def pyEq (v w : Json) : Bool := !v.isNan && v.itemEq w

/-- A text equals itself, and nothing else. -/
theorem itemEq_str_iff {v : Json} {s : Str} : v.itemEq (.str s) = true ↔ v = .str s := by
  cases v <;> simp [itemEq, eqBy, itemLeaf, number?]

theorem pyEq_str_iff {v : Json} {s : Str} : v.pyEq (.str s) = true ↔ v = .str s := by
  rw [pyEq, Bool.and_eq_true, itemEq_str_iff]
  exact and_iff_right_of_imp (by rintro rfl; rfl)

/-- The one NaN of `json.loads` in two objects, which are equal. -/
example : (Json.float (.nan 0)).pyEq (.float (.nan 0)) = false ∧
    (Json.obj [(lit "a", .float (.nan 0))]).pyEq (.obj [(lit "a", .float (.nan 0))]) = true := by
  decide

end Json
end Python
end SwitchyardGateway
