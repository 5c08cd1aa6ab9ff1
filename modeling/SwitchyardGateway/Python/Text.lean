/-
# Text, its encoding and its lines

A `str` that came out of `bytes.decode("utf-8")` is a sequence of Unicode
scalar values, here a list of `Char`.  `decode` and `encode` are the strict
UTF-8 codec, which the standard library of Lean has.

What a line is depends on who cuts.  `str.splitlines` ends a line at LF, CR and
CR LF, and also at eight more characters (`isBreak`); an event stream ends one
at LF, CR and CR LF only (`isNewline`).  Both are `linesBy` at a set of line
ends, and a text whose only ends are line breaks is cut the same way by both.
-/

import SwitchyardGateway.Domain

namespace SwitchyardGateway
namespace Python

/-- A `str` without surrogates. -/
abbrev Text := List Char

-- Ahead of the instance that runs over all characters, which a library has.
instance (priority := high) decidableChars (text : Text) (p : Char → Prop) [DecidablePred p] :
    Decidable (∀ c ∈ text, p c) :=
  List.decidableBAll p text

/-- `text.encode()`. -/
def encode (text : Text) : Bytes := text.flatMap String.utf8EncodeChar

/-- `data.decode("utf-8")`; `none` is `UnicodeDecodeError`. -/
def decode (data : Bytes) : Option Text :=
  (ByteArray.mk data.toArray).utf8Decode?.map Array.toList

/-- The code points of a text. -/
def Text.str (text : Text) : Str := text.map Char.toNat

/-- `"\n".join(lines)`. -/
def join (lines : List Text) : Text := List.intercalate ['\n'] lines

/-- `text.lstrip(" ")`. -/
def lstrip (text : Text) : Text := text.dropWhile (· = ' ')

/-- The ends of a line for an event stream. -/
def isNewline (c : Char) : Bool := c = '\n' || c = '\r'

/-- The code points that end a line for `str.splitlines` only. -/
def separators : List ℕ := [0x0b, 0x0c, 0x1c, 0x1d, 0x1e, 0x85, 0x2028, 0x2029]

/-- The ends of a line for `str.splitlines`. -/
def isBreak (c : Char) : Bool := isNewline c || c.toNat ∈ separators

/-- Put a character in front of the first line. -/
def onFirst (c : Char) : List Text → List Text
  | [] => [[c]]
  | line :: lines => (c :: line) :: lines

/-- The lines of a text, given what ends a line besides CR LF. -/
def linesBy (isEnd : Char → Bool) : Text → List Text
  | [] => []
  | '\r' :: '\n' :: text => [] :: linesBy isEnd text
  | c :: text => if isEnd c then [] :: linesBy isEnd text else onFirst c (linesBy isEnd text)

/-- `text.splitlines()`. -/
def splitlines (text : Text) : List Text := linesBy isBreak text

/-! ### Encoding -/

@[simp] theorem encode_nil : encode [] = [] := rfl

@[simp] theorem encode_append (text text' : Text) :
    encode (text ++ text') = encode text ++ encode text' :=
  List.flatMap_append ..

/-- **Decoding undoes encoding.** -/
@[simp] theorem decode_encode (text : Text) : decode (encode text) = some text := by
  have h : ByteArray.mk (encode text).toArray = text.utf8Encode := by
    rw [List.utf8Encode, encode]
    exact ByteArray.ext List.data_toByteArray.symm
  rw [decode, h, List.utf8Decode?_utf8Encode]
  rfl

theorem encode_injective {text text' : Text} (h : encode text = encode text') : text = text' := by
  have h' : decode (encode text) = decode (encode text') := by rw [h]
  simpa using h'

/-- An ASCII byte in the encoding of a character is that character. -/
theorem eq_of_mem_utf8EncodeChar {c : Char} {b : UInt8} (hb : b.toNat < 128)
    (h : b ∈ String.utf8EncodeChar c) : c.toNat = b.toNat := by
  have hc : c.toNat = c.val.toNat := rfl
  unfold String.utf8EncodeChar at h
  have hmod : ∀ n, n < 256 → (UInt8.ofNat n).toNat = n := fun n hn => by
    simp only [UInt8.toNat_ofNat']
    omega
  dsimp only at h
  split at h
  · rw [List.mem_singleton] at h
    rw [h, hmod _ (by omega), hc]
  · -- every other byte of an encoding is at least 128
    exfalso
    have hlarge : ∀ n m, 128 ≤ m → n + m < 256 → b ≠ UInt8.ofNat (n + m) := by
      rintro n m hm hlt rfl
      rw [hmod _ hlt] at hb
      omega
    split at h
    · simp only [List.mem_cons, List.not_mem_nil, or_false] at h
      rcases h with h | h <;> exact hlarge _ _ (by omega) (by omega) h
    · split at h
      · simp only [List.mem_cons, List.not_mem_nil, or_false] at h
        rcases h with h | h | h <;> exact hlarge _ _ (by omega) (by omega) h
      · simp only [List.mem_cons, List.not_mem_nil, or_false] at h
        rcases h with h | h | h | h <;> exact hlarge _ _ (by omega) (by omega) h

/-- An ASCII byte of an encoding is a character of the text. -/
theorem exists_of_mem_encode {text : Text} {b : UInt8} (hb : b.toNat < 128) (h : b ∈ encode text) :
    ∃ c ∈ text, c.toNat = b.toNat := by
  obtain ⟨c, hc, hbc⟩ := List.mem_flatMap.1 h
  exact ⟨c, hc, eq_of_mem_utf8EncodeChar hb hbc⟩

/-! ### Lines -/

section

variable {isEnd : Char → Bool} {c : Char} {line text : Text}

@[simp] theorem linesBy_nil : linesBy isEnd [] = [] := rfl

theorem linesBy_crlf : linesBy isEnd ('\r' :: '\n' :: text) = [] :: linesBy isEnd text := by
  rw [linesBy]

theorem linesBy_end (hc : isEnd c = true) (hcr : c ≠ '\r') :
    linesBy isEnd (c :: text) = [] :: linesBy isEnd text := by
  rw [linesBy, if_pos hc]
  rintro text' rfl _
  exact hcr rfl

theorem linesBy_cons (hc : isEnd c = false) (hcr : c ≠ '\r') :
    linesBy isEnd (c :: text) = onFirst c (linesBy isEnd text) := by
  rw [linesBy, if_neg (by simp [hc])]
  rintro text' rfl _
  exact hcr rfl

/-- A line, then an end, then the rest. -/
theorem linesBy_append (hline : ∀ c ∈ line, isEnd c = false ∧ c ≠ '\r') {rest : List Text}
    (h : linesBy isEnd text = [] :: rest) : linesBy isEnd (line ++ text) = line :: rest := by
  induction line with
  | nil => exact h
  | cons c line ih =>
    obtain ⟨hc, hcr⟩ := hline c (List.mem_cons_self ..)
    rw [List.cons_append, linesBy_cons hc hcr, ih fun c h => hline c (List.mem_cons_of_mem _ h)]
    rfl

/-- A text without an end is one line. -/
theorem linesBy_of_forall (hline : ∀ c ∈ line, isEnd c = false ∧ c ≠ '\r') (h : line ≠ []) :
    linesBy isEnd line = [line] := by
  induction line with
  | nil => exact (h rfl).elim
  | cons c line ih =>
    obtain ⟨hc, hcr⟩ := hline c (List.mem_cons_self ..)
    rw [linesBy_cons hc hcr]
    cases line with
    | nil => rfl
    | cons c' line => rw [ih (fun c h => hline c (List.mem_cons_of_mem _ h)) (by simp)]; rfl

/-- **A line holds no end.** -/
theorem isEnd_of_mem_linesBy :
    ∀ line ∈ linesBy isEnd text, ∀ c ∈ line, isEnd c = false := by
  have hnil : ∀ lines : List Text, (∀ line ∈ lines, ∀ c ∈ line, isEnd c = false) →
      ∀ line ∈ [] :: lines, ∀ c ∈ line, isEnd c = false := by
    intro lines h line hline
    rcases List.mem_cons.1 hline with rfl | hline
    · exact fun c hc => (List.not_mem_nil hc).elim
    · exact h line hline
  fun_induction linesBy isEnd text with
  | case1 => exact fun line hline => (List.not_mem_nil hline).elim
  | case2 text ih => exact hnil _ ih
  | case3 c text _ hc ih => exact hnil _ ih
  | case4 c text _ hc ih =>
    have hc' : isEnd c = false := by simpa using hc
    cases hlines : linesBy isEnd text with
    | nil =>
      intro line hline c' hc''
      obtain rfl := List.mem_singleton.1 hline
      obtain rfl := List.mem_singleton.1 hc''
      exact hc'
    | cons first lines =>
      rw [hlines] at ih
      intro line hline c' hc''
      rcases List.mem_cons.1 hline with rfl | hline
      · rcases List.mem_cons.1 hc'' with rfl | hc''
        · exact hc'
        · exact ih first (List.mem_cons_self ..) c' hc''
      · exact ih line (List.mem_cons_of_mem _ hline) c' hc''

end

/-! ### Joined lines -/

@[simp] theorem join_nil : join [] = [] := rfl

@[simp] theorem join_singleton (line : Text) : join [line] = line :=
  List.intercalate_singleton ..

theorem join_cons_cons (line line' : Text) (lines : List Text) :
    join (line :: line' :: lines) = line ++ '\n' :: join (line' :: lines) := by
  simp [join, List.intercalate_cons_cons]

/-- Where two lists of lines meet there is one line break. -/
theorem join_append {lines lines' : List Text} (h : lines ≠ []) (h' : lines' ≠ []) :
    join (lines ++ lines') = join lines ++ '\n' :: join lines' := by
  induction lines with
  | nil => exact (h rfl).elim
  | cons line lines ih =>
    cases lines with
    | nil =>
      obtain ⟨line', lines'', rfl⟩ := List.exists_cons_of_ne_nil h'
      rw [List.singleton_append, join_cons_cons, join_singleton]
    | cons line' lines =>
      rw [List.cons_append, List.cons_append, join_cons_cons, ← List.cons_append, ih (by simp),
        join_cons_cons, List.append_assoc, List.cons_append]

/-- The character U+2028 ends a line for `str.splitlines` only. -/
example : splitlines ['a', '\u2028', 'b'] = [['a'], ['b']] ∧
    linesBy isNewline ['a', '\u2028', 'b'] = [['a', '\u2028', 'b']] := by decide

end Python
end SwitchyardGateway
