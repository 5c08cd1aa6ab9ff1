/-
# What the relay relies on of the `json` module

The functions `json.loads` and `json.dumps` are parameters (`Lib`).  `JsonModule`
lists the documented behaviour that the results about the relay use: spaces at
the beginning of a line mean nothing, an object's text begins with a brace, a
line separator can only stand inside a string literal, what `dumps` writes of an
object that `loads` read is one line, and reads back if its numbers are finite.
A strict reader is one that rejects `NaN` and the infinities, which are no JSON.

What is read is the text of an event, which was decoded and so holds no surrogate.
One that is escaped in it is paired by the reader, if it can be, and is written
escaped again; two unpaired ones that would make a pair are never read.
-/

import SwitchyardGateway.Ingress.Sse
import SwitchyardGateway.Application.Ledger

namespace SwitchyardGateway
namespace Ingress

open Python

/-- The whitespace of JSON. -/
def isJsonSpace (c : ℕ) : Bool := c ∈ [32, 9, 10, 13]

/-- An object that `sse_body` writes: one that was read from a decoded text, under the
alias. -/
def Written (lib : Lib) (aliasName : Str) (value : Payload) : Prop :=
  ∃ (text : Text) (read : Payload), lib.loads false text.str = .ok (.obj read) ∧ value = rename aliasName read

/-- Documented behaviour of `json.loads` and `json.dumps`. -/
structure JsonModule (lib : Lib) (aliasName : Str) : Prop where
  /-- What a strict reader accepts is read alike by default. -/
  lenient : ∀ {text v}, lib.loads true text = .ok v → lib.loads false text = .ok v
  /-- Spaces in front mean nothing. -/
  space : ∀ strict text, lib.loads strict (32 :: text) = lib.loads strict text
  /-- Spaces after a line break mean nothing: it cannot be inside a string. -/
  line_space : ∀ strict p q,
    lib.loads strict (p ++ 10 :: 32 :: q) = lib.loads strict (p ++ 10 :: q)
  /-- The text of an object begins with a brace. -/
  brace : ∀ {text value}, lib.loads true text = .ok (.obj value) →
    (text.dropWhile isJsonSpace).head? = some 123
  /-- A line separator stands inside a string literal, which neither the end of
  the text nor a line break can end. -/
  separator : ∀ {p q v} {c : Char}, isBreak c = true → isNewline c = false →
    lib.loads true (p ++ c.toNat :: q) = .ok v → ∀ rest, rest = [] ∨ rest.head? = some 10 →
    ∃ e, lib.loads false (p ++ rest) = .error e
  /-- The text of an object is one line and begins with a brace. -/
  one_line : ∀ {value text}, lib.dumps (.obj value) = .ok text →
    text.head? = some '{' ∧ ∀ c ∈ text, isNewline c = false
  /-- Finite numbers are written as JSON, and read back. -/
  reads_back : ∀ {value}, Written lib aliasName value → (Json.obj value).finite = true →
    ∃ text, lib.dumps (.obj value) = .ok text ∧ lib.loads true (Text.str text) = .ok (.obj value)
  /-- Other numbers are not. -/
  non_finite : ∀ {value text}, Written lib aliasName value → (Json.obj value).finite = false →
    lib.dumps (.obj value) = .ok text → ∃ e, lib.loads true (Text.str text) = .error e
  /-- The payload of the frame of an interruption is an object with an error. -/
  interrupted : ∃ value, lib.loads true (Text.str interruptedText) = .ok (.obj value) ∧
    (value.lookup (lit "error")).isSome = true

/-- The text of an object begins with a brace.  All that is asked of `json.dumps` where
only the end of a stream matters. -/
def Braced (lib : Lib) : Prop :=
  ∀ value text, lib.dumps (.obj value) = .ok text → text.head? = some '{'

theorem JsonModule.braced {lib : Lib} {aliasName : Str} (h : JsonModule lib aliasName) : Braced lib :=
  fun _ _ hdumps => (h.one_line hdumps).1

namespace Demo

/-- Drop the spaces at the beginning of every line. -/
def squeeze : (first : Bool) → Str → Str
  | _, [] => []
  | first, c :: text =>
    if first && c == 32 then squeeze true text else c :: squeeze (c == 10) text

/-- The object in the frame of an interruption. -/
def interruptedValue : Payload :=
  [(lit "error", .obj
    [(lit "message", .str (lit "upstream_stream_interrupted")),
     (lit "type", .str (lit "gateway_error")),
     (lit "code", .str (lit "upstream_stream_interrupted"))])]

/-- The texts met here, with what `json.loads` reads them as. -/
def texts : List (Str × Payload) :=
  [(lit "\x7b\"model\":\"x\"\x7d", [(lit "model", .str (lit "x"))]),
   (lit "\x7b\"model\":\"m\"\x7d", [(lit "model", .str (lit "m"))]),
   (lit "\x7b\"a\":1e999\x7d", [(lit "a", .float (.inf false))]),
   (lit "\x7b\"a\":Infinity\x7d", [(lit "a", .float (.inf false))]),
   (lit "\x7b\"a\":\"" ++ 0x2028 :: lit "\"\x7d", [(lit "a", .str [0x2028])]),
   (lit "\x7b\"a\":\"\\u2028\"\x7d", [(lit "a", .str [0x2028])]),
   (Text.str interruptedText, interruptedValue)]

/-- The constants that are no JSON. -/
def constants : List Str := [lit "\x7b\"a\":Infinity\x7d"]

/-- `json.dumps`, on the objects met here. -/
def dumps : Json → Except Exc Text
  | .obj [(k, .str s)] =>
    if k = lit "model" ∧ s = lit "x" then .ok "\x7b\"model\":\"x\"\x7d".toList
    else if k = lit "model" ∧ s = lit "m" then .ok "\x7b\"model\":\"m\"\x7d".toList
    else if k = lit "a" ∧ s = [0x2028] then .ok "\x7b\"a\":\"\\u2028\"\x7d".toList
    else .error .valueError
  | .obj [(k, .float (.inf false))] =>
    if k = lit "a" then .ok "\x7b\"a\":Infinity\x7d".toList else .error .valueError
  | .obj [(k, .obj _)] => if k = lit "error" then .ok interruptedText else .error .valueError
  | _ => .error .valueError

/-- The libraries, with the `json` module on the texts met here. -/
def json : Lib :=
  { Application.Demo.lib with
    loads := fun strict text =>
      match texts.lookup (squeeze true text) with
      | some value => if strict && constants.contains (squeeze true text) then .error .valueError
        else .ok (.obj value)
      | none => .error .valueError
    dumps := dumps }

/-- What is read is in the table. -/
theorem loads_mem {strict : Bool} {text : Str} {v : Json} (h : json.loads strict text = .ok v) :
    ∃ value, (squeeze true text, value) ∈ texts ∧ v = .obj value := by
  dsimp only [json] at h
  split at h
  · rename_i value hlookup
    split at h
    · cases h
    · obtain ⟨before, after, heq, -⟩ := List.lookup_eq_some_iff.1 hlookup
      have hmem : (squeeze true text, value) ∈ texts := by simp [heq]
      exact ⟨value, hmem, (Except.ok.inj h).symm⟩
  · cases h

theorem squeeze_line (first : Bool) (p q : Str) :
    squeeze first (p ++ 10 :: 32 :: q) = squeeze first (p ++ 10 :: q) := by
  induction p generalizing first with
  | nil => cases first <;> rfl
  | cons c p ih =>
    simp only [List.cons_append, squeeze]
    split
    · exact ih _
    · rw [ih]

/-- What is dropped are spaces. -/
theorem squeeze_append (first : Bool) (p : Str) {c : ℕ} (hc : c ≠ 32) (q : Str) :
    squeeze first (p ++ c :: q) = squeeze first p ++ c :: squeeze (c == 10) q := by
  induction p generalizing first with
  | nil => simp [squeeze, hc]
  | cons d p ih =>
    simp only [List.cons_append, squeeze]
    split
    · exact ih _
    · rw [ih, List.cons_append]

theorem head_of_squeeze {text : Str} (h : (squeeze true text).head? = some 123) :
    (text.dropWhile isJsonSpace).head? = some 123 := by
  induction text with
  | nil => exact h
  | cons c text ih =>
    by_cases hc : c = 32
    · subst hc
      exact ih h
    · have hsqueeze : squeeze true (c :: text) = c :: squeeze (c == 10) text := by simp [squeeze, hc]
      rw [hsqueeze] at h
      obtain rfl : c = 123 := Option.some.inj h
      rfl

/-- No text of the table goes on, after a text of the table, with a separator. -/
theorem texts_cut : ∀ p ∈ texts, ∀ p' ∈ texts, ∀ c ∈ separators, ¬p'.1 ++ [c] <+: p.1 := by
  decide +kernel

theorem texts_one_line : ∀ p ∈ texts, 10 ∉ p.1 := by
  decide +kernel

/-- What `dumps` writes. -/
def written : List Text :=
  ["\x7b\"model\":\"x\"\x7d".toList, "\x7b\"model\":\"m\"\x7d".toList,
    "\x7b\"a\":\"\\u2028\"\x7d".toList, "\x7b\"a\":Infinity\x7d".toList, interruptedText]

theorem dumps_mem {v : Json} {text : Text} (h : dumps v = .ok text) : text ∈ written := by
  have hkeep : ∀ {c : Prop} [Decidable c] {t : Text} {r : Except Exc Text},
      (if c then .ok t else r) = .ok text → text = t ∨ r = .ok text := by
    intro c _ t r h
    split at h
    · exact .inl (Except.ok.inj h).symm
    · exact .inr h
  simp only [written, List.mem_cons, List.not_mem_nil, or_false]
  unfold dumps at h
  split at h
  · rcases hkeep h with h | h
    · exact .inl h
    · rcases hkeep h with h | h
      · exact .inr (.inl h)
      · rcases hkeep h with h | h
        · exact .inr (.inr (.inl h))
        · cases h
  · rcases hkeep h with h | h
    · exact .inr (.inr (.inr (.inl h)))
    · cases h
  · rcases hkeep h with h | h
    · exact .inr (.inr (.inr (.inr h)))
    · cases h
  · cases h

theorem loads_interrupted :
    json.loads true (Text.str interruptedText) = .ok (.obj interruptedValue) := by rfl

theorem dumps_interrupted :
    json.dumps (.obj interruptedValue) = .ok interruptedText := by rfl

/-- What is written is an object of the table, under the alias. -/
theorem written_cases {value : Payload} (h : Written json (lit "m") value) :
    value ∈ [[(lit "model", .str (lit "m"))], [(lit "a", .float (.inf false))], [(lit "a", .str [0x2028])],
      interruptedValue] := by
  obtain ⟨text, read, hloads, rfl⟩ := h
  obtain ⟨value, hmem, heq⟩ := loads_mem hloads
  obtain rfl : read = value := Json.obj.inj heq
  simp only [texts, List.mem_cons, List.not_mem_nil, or_false, Prod.mk.injEq] at hmem
  simp only [List.mem_cons, List.not_mem_nil, or_false]
  rcases hmem with ⟨-, rfl⟩ | ⟨-, rfl⟩ | ⟨-, rfl⟩ | ⟨-, rfl⟩ | ⟨-, rfl⟩ | ⟨-, rfl⟩ | ⟨-, rfl⟩
  · exact .inl rfl
  · exact .inl rfl
  · exact .inr (.inl rfl)
  · exact .inr (.inl rfl)
  · exact .inr (.inr (.inl rfl))
  · exact .inr (.inr (.inl rfl))
  · exact .inr (.inr (.inr rfl))

theorem reads_back_of_written {value : Payload} (h : Written json (lit "m") value)
    (hfinite : (Json.obj value).finite = true) :
    ∃ text, json.dumps (.obj value) = .ok text ∧ json.loads true (Text.str text) = .ok (.obj value) := by
  have hcases := written_cases h
  simp only [List.mem_cons, List.not_mem_nil, or_false] at hcases
  rcases hcases with rfl | rfl | rfl | rfl
  · exact ⟨_, rfl, rfl⟩
  · exact absurd hfinite (by decide +kernel)
  · exact ⟨_, rfl, rfl⟩
  · exact ⟨interruptedText, dumps_interrupted, loads_interrupted⟩

theorem not_reads_back_of_written {value : Payload} {text : Text} (h : Written json (lit "m") value)
    (hfinite : (Json.obj value).finite = false) (hdumps : json.dumps (.obj value) = .ok text) :
    ∃ e, json.loads true (Text.str text) = .error e := by
  have hcases := written_cases h
  simp only [List.mem_cons, List.not_mem_nil, or_false] at hcases
  rcases hcases with rfl | rfl | rfl | rfl
  · exact absurd hfinite (by decide +kernel)
  · obtain rfl := Except.ok.inj hdumps
    exact ⟨_, rfl⟩
  · exact absurd hfinite (by decide +kernel)
  · exact absurd hfinite (by decide +kernel)

/-- **The table is a `json` module**, as far as the relay can tell. -/
theorem json_module : JsonModule json (lit "m") where
  lenient {text v} h := by
    obtain ⟨value, hmem, rfl⟩ := loads_mem h
    dsimp only [json] at h ⊢
    split at h
    · split at h
      · cases h
      · exact h
    · cases h
  space strict text := rfl
  line_space strict p q := by
    dsimp only [json]
    rw [squeeze_line]
  brace h := by
    obtain ⟨value, hmem, -⟩ := loads_mem h
    have hall : ∀ p ∈ texts, p.1.head? = some 123 := by decide +kernel
    exact head_of_squeeze (hall _ hmem)
  separator {p q v c} hbreak hnewline h rest hrest := by
    obtain ⟨value, hmem, -⟩ := loads_mem h
    have hsep : c.toNat ∈ separators := by simpa [isBreak, hnewline] using hbreak
    have hc : c.toNat ≠ 32 := by
      rintro hc
      rw [hc] at hsep
      exact absurd hsep (by decide)
    rw [squeeze_append true p hc] at hmem
    cases hloads : json.loads false (p ++ rest) with
    | error e => exact ⟨e, rfl⟩
    | ok v' =>
      exfalso
      obtain ⟨value', hmem', -⟩ := loads_mem hloads
      rcases hrest with rfl | hrest
      · rw [List.append_nil] at hmem'
        exact texts_cut _ hmem _ hmem' _ hsep ⟨_, List.append_assoc ..⟩
      · obtain ⟨rest', rfl⟩ := List.head?_eq_some_iff.1 hrest
        rw [squeeze_append true p (by decide)] at hmem'
        exact texts_one_line _ hmem' (by simp)
  one_line {value text} h := by
    have hone : ∀ text ∈ written, text.head? = some '{' ∧ ∀ c ∈ text, isNewline c = false := by
      decide +kernel
    exact hone text (dumps_mem h)
  reads_back := reads_back_of_written
  non_finite := not_reads_back_of_written
  interrupted := ⟨interruptedValue, loads_interrupted, rfl⟩

end Demo

end Ingress
end SwitchyardGateway
