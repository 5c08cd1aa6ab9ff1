/-
# The relay is transparent to content

For an upstream that sends JSON objects and then `[DONE]`, a client that reads
the gateway's answer as an event stream should find the same events, each with
its other lines and its object under the alias (`Transparent`).  It does unless a
line holds a character that ends a line for `str.splitlines` and not for an event
stream, and such a character is legal in a JSON string: `transparent_iff`.

In one direction every event is forwarded as its lines, and read again as these.
In the other, a broken line without data cannot be read back, since no line the
gateway forwards holds such a character; and a broken line of data is cut inside
a string literal, so that what is left is no JSON and interrupts the stream.
-/

import SwitchyardGateway.Ingress.Conformance
import SwitchyardGateway.Ingress.EventStream

namespace SwitchyardGateway
namespace Ingress

open Coop Coop.Discipline Python Application Wire

/-- What a client makes of an event. -/
inductive Received where
  | event (others : List Text) (value : Json)
  | plain (others : List Text)
  | done
  | broken

section

variable (lib : Lib) (aliasName : Str)

/-- An event read: its other lines and its data, as JSON. -/
def receive (lines : List Text) : Received :=
  if eventData lines = doneText then .done
  else if lines.any isData then
    match lib.loads true (eventData lines).str with
    | .ok value => .event (lines.filter (!isData ·)) value
    | .error _ => .broken
  else .plain lines

/-- What a client reads of some bytes; `none` if they are no UTF-8. -/
def clientReads (bytes : Bytes) : Option (List Received) :=
  (decode bytes).map fun text => (clientEvents text).map (receive lib)

/-- What a client is to make of an event of the upstream. -/
def expected (e : WireEvent) : Received :=
  match lib.loads true (eventData e.texts).str with
  | .ok (.obj value) => .event (e.texts.filter (!isData ·)) (.obj (rename aliasName value))
  | _ => .broken

/-- The promise to a client: the same events in the same order, then `[DONE]`. -/
def Transparent (events : List WireEvent) (outcome : Option Outcome) (l : List Entry) : Prop :=
  clientReads lib (frames l).flatten = some (events.map (expected lib aliasName) ++ [.done]) ∧
    outcome = some .completed

/-- An event the gateway is to relay: its data is a JSON object without an error,
and it is well under the limit. -/
structure Relayable (limit : ℕ) (e : WireEvent) : Prop where
  wellFormed : e.WellFormed
  data : ∃ value, lib.loads true (eventData e.texts).str = .ok (.obj value) ∧
    (value.lookup (lit "error")).isSome = false
  size : (encode e.text).length + 4 ≤ limit

/-- No line of the event holds a character that only `str.splitlines` takes for
the end of a line. -/
def Unbroken (e : WireEvent) : Prop := ∀ line ∈ e.texts, ∀ c ∈ line, c.toNat ∉ separators

/-- No number in the event's object, under the alias, is one that overflows. -/
def Finite (e : WireEvent) : Prop :=
  ∀ value, lib.loads true (eventData e.texts).str = .ok (.obj value) →
    (Json.obj (rename aliasName value)).finite = true

end

/-- The event that ends a stream, with or without a space after the colon. -/
def doneEvent (spaced : Bool) (eol blank : Eol) : WireEvent :=
  ⟨[(dataField ++ (if spaced then [' '] else []) ++ doneText, eol)], blank⟩

variable {lib : Lib} {aliasName : Str} {limit me : ℕ}

/-! ### Data -/

theorem str_append (text text' : Text) : Text.str (text ++ text') = text.str ++ text'.str :=
  List.map_append ..

/-- Spaces in front do not change what is read. -/
theorem loads_lstrip (hjson : JsonModule lib aliasName) (strict : Bool) (text : Text) (rest : Str) :
    lib.loads strict ((lstrip text).str ++ rest) = lib.loads strict (text.str ++ rest) := by
  induction text with
  | nil => rfl
  | cons c text ih =>
    by_cases hc : c = ' '
    · subst hc
      exact ih.trans (hjson.space strict _).symm
    · rw [lstrip, List.dropWhile_cons_of_neg (by simpa using hc)]

theorem loads_line_lstrip (hjson : JsonModule lib aliasName) (strict : Bool) (p : Str) (text : Text)
    (rest : Str) : lib.loads strict (p ++ 10 :: ((lstrip text).str ++ rest)) =
      lib.loads strict (p ++ 10 :: (text.str ++ rest)) := by
  induction text with
  | nil => rfl
  | cons c text ih =>
    by_cases hc : c = ' '
    · subst hc
      exact ih.trans (hjson.line_space strict p _).symm
    · rw [lstrip, List.dropWhile_cons_of_neg (by simpa using hc)]

/-- Nor do spaces in front of every line. -/
theorem loads_join_lstrip (hjson : JsonModule lib aliasName) (strict : Bool) (lines : List Text) :
    lib.loads strict (join (lines.map lstrip)).str = lib.loads strict (join lines).str := by
  have hlater : ∀ (lines : List Text) (p : Str),
      lib.loads strict (p ++ 10 :: (join (lines.map lstrip)).str) =
        lib.loads strict (p ++ 10 :: (join lines).str) := by
    intro lines
    induction lines with
    | nil => exact fun p => rfl
    | cons line lines ih =>
      intro p
      cases lines with
      | nil => simpa using loads_line_lstrip hjson strict p line []
      | cons next lines =>
        have hrest := ih (p ++ 10 :: (lstrip line).str)
        have hline := loads_line_lstrip hjson strict p line (10 :: (join (next :: lines)).str)
        simp only [List.map_cons, join_cons_cons, str_append, List.append_assoc, List.cons_append] at hrest ⊢
        exact hrest.trans hline
  cases lines with
  | nil => rfl
  | cons line lines =>
    cases lines with
    | nil => simpa using loads_lstrip hjson strict line []
    | cons next lines =>
      have hrest := hlater (next :: lines) (lstrip line).str
      have hline := loads_lstrip hjson strict line (10 :: (join (next :: lines)).str)
      simp only [List.map_cons, join_cons_cons, str_append] at hrest ⊢
      exact hrest.trans hline

/-- The gateway drops more spaces than a client, which no reader can tell. -/
theorem loads_dataOf (hjson : JsonModule lib aliasName) (strict : Bool) (lines : List Text) :
    lib.loads strict (dataOf lines).str = lib.loads strict (eventData lines).str := by
  have hfield : ∀ line : Text, lstrip (line.drop 5) = lstrip (fieldValue line) := by
    intro line
    unfold fieldValue
    split
    · rename_i value heq
      rw [heq]
      rfl
    · rfl
  have hdata : dataOf lines = join (((lines.filter isData).map fieldValue).map lstrip) := by
    rw [dataOf, List.map_map]
    exact congrArg join (List.map_congr_left fun line _ => hfield line)
  rw [hdata, eventData, loads_join_lstrip hjson]

/-- The text of an object is neither empty nor `[DONE]`, and no more is what goes
on like one. -/
theorem ne_of_brace {text : Str} (h : (text.dropWhile isJsonSpace).head? = some 123) :
    text ≠ Text.str [] ∧ text ≠ Text.str doneText := by
  constructor
  · rintro rfl
    cases h
  · rintro rfl
    exact absurd h (by decide)

/-! ### Events -/

theorem isBreak_of_unbroken {e : WireEvent} (hwell : e.WellFormed) {line : Text} (hline : line ∈ e.texts)
    (h : ∀ c ∈ line, c.toNat ∉ separators) : ∀ c ∈ line, isBreak c = false := by
  intro c hc
  rw [isBreak, (hwell.2 line hline).2 c hc]
  simpa using h c hc

/-- A line of data that the gateway writes is a line. -/
theorem written_line {text : Text} (h : ∀ c ∈ text, isNewline c = false) :
    dataField ++ ' ' :: text ≠ [] ∧ ∀ c ∈ dataField ++ ' ' :: text, isNewline c = false := by
  have hfield : ∀ c ∈ dataField, isNewline c = false := by decide
  refine ⟨by simp, fun c hc => ?_⟩
  rcases List.mem_append.1 hc with hc | hc
  · exact hfield c hc
  · rcases List.mem_cons.1 hc with rfl | hc
    · rfl
    · exact h c hc

/-- A client reads the lines of an object as its other lines and its text. -/
theorem receive_written (lines : List Text) (rest : Text) :
    receive lib (lines.filter (!isData ·) ++ [dataField ++ ' ' :: '{' :: rest]) =
      match lib.loads true (Text.str ('{' :: rest)) with
      | .ok value => .event (lines.filter (!isData ·)) value
      | .error _ => .broken := by
  have hothers : (lines.filter (!isData ·)).filter isData = [] := by
    rw [List.filter_filter]
    simp
  have hdata : isData (dataField ++ ' ' :: '{' :: rest) = true := rfl
  have hevent : eventData (lines.filter (!isData ·) ++ [dataField ++ ' ' :: '{' :: rest]) =
      '{' :: rest := by
    rw [eventData, List.filter_append, hothers, List.nil_append, List.filter_cons_of_pos hdata,
      List.filter_nil, List.map_singleton, join_singleton]
    rfl
  have hkept : (lines.filter (!isData ·) ++ [dataField ++ ' ' :: '{' :: rest]).filter (!isData ·) =
      lines.filter (!isData ·) := by
    rw [List.filter_append, List.filter_filter, List.filter_cons_of_neg (by simp [hdata])]
    simp
  have hany : (lines.filter (!isData ·) ++ [dataField ++ ' ' :: '{' :: rest]).any isData = true := by
    simp [hdata]
  have hne : '{' :: rest ≠ doneText := by simp [doneText]
  rw [receive, hevent, if_neg hne, if_pos hany, hkept]

/-- The frame of an event is decoded and is within the limit. -/
theorem Relayable.frame {e : WireEvent} (he : Relayable lib limit e) (aliasName : Str) :
    parseEvent lib aliasName (encode (frameText e.lines)) =
      parseLines lib aliasName (splitlines (frameText e.lines)) ∧
    ¬limit < (encode (frameText e.lines)).length := by
  refine ⟨by rw [parseEvent, decode_encode], ?_⟩
  obtain ⟨eol, htext⟩ := WireEvent.text_eq he.wellFormed.1
  have hsize := he.size
  rw [htext, encode_append, List.length_append] at hsize
  omega

/-- **An unbroken event is forwarded** as its other lines and its object under the
alias, which a client can read if its numbers are finite. -/
theorem Relayable.forwarded (hjson : JsonModule lib aliasName) {e : WireEvent}
    (he : Relayable lib limit e) (hunbroken : Unbroken e) :
    (¬Finite lib aliasName e ∧ ∃ counts e', relayOne lib aliasName limit (encode (frameText e.lines)) =
      ⟨[], counts, some (.bad e')⟩) ∨
    ∃ lines counts, relayOne lib aliasName limit (encode (frameText e.lines)) =
        ⟨[frameOf lines], counts, none⟩ ∧
      (receive lib lines = expected lib aliasName e ↔ Finite lib aliasName e) ∧
      lines ≠ [] ∧ ∀ line ∈ lines, line ≠ [] ∧ ∀ c ∈ line, isNewline c = false := by
  obtain ⟨hparse, hlimit⟩ := he.frame aliasName
  obtain ⟨value, hloads, herror⟩ := he.data
  have hlines : splitlines (frameText e.lines) = e.texts := splitlines_frameText fun line hline =>
    ⟨(he.wellFormed.2 line hline).1, isBreak_of_unbroken he.wellFormed hline (hunbroken line hline)⟩
  have hfinite : Finite lib aliasName e ↔ (Json.obj (rename aliasName value)).finite = true := by
    constructor
    · exact fun h => h value hloads
    · intro h value' hloads'
      obtain rfl : value = value' := Json.obj.inj (Except.ok.inj (hloads.symm.trans hloads'))
      exact h
  have hobject : parseLines lib aliasName e.texts =
      .ok (.object (e.texts.filter (!isData ·)) (rename aliasName value)) := by
    rw [← loads_dataOf hjson] at hloads
    obtain ⟨hnil, hdone⟩ := ne_of_brace (hjson.brace hloads)
    have hnil' : dataOf e.texts ≠ [] := fun h => hnil (congrArg Text.str h)
    have hdone' : dataOf e.texts ≠ doneText := fun h => hdone (congrArg Text.str h)
    simp [parseLines, hnil', hdone', hjson.lenient hloads, herror]
  have hwritten : Written lib aliasName (rename aliasName value) := ⟨_, _, hjson.lenient hloads, rfl⟩
  rw [hfinite]
  cases hdumps : lib.dumps (.obj (rename aliasName value)) with
  | error err =>
    refine .inl ⟨fun hfin => ?_, usage (get (rename aliasName value) "usage"), err, ?_⟩
    · obtain ⟨text, htext, -⟩ := hjson.reads_back hwritten hfin
      rw [hdumps] at htext
      cases htext
    · simp only [relayOne, judge, hlimit, if_false, hparse, hlines, hobject, hdumps]
  | ok text =>
    right
    obtain ⟨hbrace, hone⟩ := hjson.one_line hdumps
    obtain ⟨rest, rfl⟩ := List.head?_eq_some_iff.1 hbrace
    refine ⟨e.texts.filter (!isData ·) ++ [dataField ++ ' ' :: '{' :: rest],
      usage (get (rename aliasName value) "usage"), ?_, ?_, by simp, ?_⟩
    · simp only [relayOne, judge, hlimit, if_false, hparse, hlines, hobject, hdumps]
    · rw [receive_written, expected, hloads]
      constructor
      · intro h
        by_contra hinf
        obtain ⟨err, herr⟩ := hjson.non_finite hwritten (by simpa using hinf) hdumps
        rw [herr] at h
        cases h
      · intro hfin
        obtain ⟨text, htext, hreads⟩ := hjson.reads_back hwritten hfin
        obtain rfl : _ = text := Except.ok.inj (hdumps.symm.trans htext)
        rw [hreads]
    · intro line hline
      rcases List.mem_append.1 hline with hline | hline
      · exact he.wellFormed.2 line (List.mem_of_mem_filter hline)
      · obtain rfl := List.mem_singleton.1 hline
        exact written_line hone

/-- The first place where a property of the members of a list fails. -/
theorem exists_first {α : Type} {p : α → Prop} {xs : List α} (h : ¬∀ x ∈ xs, p x) :
    ∃ as x bs, xs = as ++ x :: bs ∧ (∀ a ∈ as, p a) ∧ ¬p x := by
  induction xs with
  | nil => exact (h fun x hx => (List.not_mem_nil hx).elim).elim
  | cons x xs ih =>
    by_cases hx : p x
    · have hxs : ¬∀ x ∈ xs, p x := fun hxs => h fun y hy => by
        rcases List.mem_cons.1 hy with rfl | hy
        · exact hx
        · exact hxs y hy
      obtain ⟨as, y, bs, rfl, has, hy⟩ := ih hxs
      refine ⟨x :: as, y, bs, rfl, fun a ha => ?_, hy⟩
      rcases List.mem_cons.1 ha with rfl | ha
      · exact hx
      · exact has a ha
    · exact ⟨[], x, xs, rfl, nofun, hx⟩

/-- The lines of an event before the first one that is broken. -/
theorem splitlines_frameText_append {before after : List (Text × Eol)} {l : Text × Eol}
    (h : ∀ line ∈ before.map Prod.fst, ∀ c ∈ line, isBreak c = false) :
    splitlines (frameText (before ++ l :: after)) =
      before.map Prod.fst ++ splitlines (frameText (l :: after)) := by
  induction before with
  | nil => rfl
  | cons first before ih =>
    obtain ⟨line, eol⟩ := first
    have hline : ∀ c ∈ line, isBreak c = false ∧ c ≠ '\r' := by
      intro c hc
      have hbreak := h line (List.mem_cons_self ..) c hc
      refine ⟨hbreak, ?_⟩
      rintro rfl
      exact absurd hbreak (by decide)
    have hrest := ih fun line hmem => h line (List.mem_cons_of_mem _ hmem)
    have hframe : frameText ((line, eol) :: (before ++ l :: after)) =
        line ++ (eol.text ++ frameText (before ++ l :: after)) := by
      cases before with
      | nil => exact List.append_assoc ..
      | cons next before => exact List.append_assoc ..
    rw [List.cons_append, hframe]
    refine linesBy_append hline ?_
    change linesBy isBreak _ = [] :: (before.map Prod.fst ++ splitlines (frameText (l :: after)))
    rw [← hrest]
    cases eol with
    | lf => exact linesBy_end rfl (by decide)
    | crlf => exact linesBy_crlf

theorem lstrip_append {text rest : Text} {c : Char} (hc : c ≠ ' ') :
    lstrip (text ++ c :: rest) = lstrip text ++ c :: rest := by
  rw [lstrip, lstrip, List.dropWhile_append]
  split
  · rename_i hempty
    rw [List.isEmpty_iff.1 hempty, List.dropWhile_cons_of_neg (by simpa using hc)]
    rfl
  · rfl

theorem join_concat_append (lines : List Text) (text rest : Text) :
    join (lines ++ [text ++ rest]) = join (lines ++ [text]) ++ rest := by
  cases lines with
  | nil => simp
  | cons line lines =>
    rw [join_append (by simp) (by simp), join_append (by simp) (by simp)]
    simp

/-- More lines add nothing, or a line break and more. -/
theorem exists_join_append {lines : List Text} (h : lines ≠ []) (more : List Text) :
    ∃ rest, join (lines ++ more) = join lines ++ rest ∧ (rest = [] ∨ rest.head? = some '\n') := by
  cases hmore : more with
  | nil => exact ⟨[], by simp, .inl rfl⟩
  | cons line more' =>
    exact ⟨_, join_append h (by simp), .inr rfl⟩

/-- The text of an object that goes on with a separator is one before it. -/
theorem brace_append {p q : Str} {c : ℕ} (rest : Str) (hspace : isJsonSpace c = false) (hc : c ≠ 123)
    (h : ((p ++ c :: q).dropWhile isJsonSpace).head? = some 123) :
    ((p ++ rest).dropWhile isJsonSpace).head? = some 123 := by
  rw [List.dropWhile_append] at h ⊢
  cases hp : p.dropWhile isJsonSpace with
  | nil =>
    rw [hp, if_pos List.isEmpty_nil, List.dropWhile_cons_of_neg (by simp [hspace])] at h
    exact absurd (Option.some.inj h) hc
  | cons d p' =>
    rw [hp] at h
    exact h

/-- The data of lines around one line of data: what the line begins with decides how
the data goes on. -/
theorem dataOf_around (before after : List Text) {p : Text} (hp : isData (dataField ++ p) = true) :
    ∃ rest, (rest = [] ∨ rest.head? = some '\n') ∧
      dataOf (before ++ (dataField ++ p) :: after) = join ((before.filter isData).map
        (fun line => lstrip (line.drop 5)) ++ [lstrip p]) ++ rest := by
  have hne : (before.filter isData).map (fun line => lstrip (line.drop 5)) ++ [lstrip p] ≠ [] := by simp
  obtain ⟨rest, hjoin, hrest⟩ := exists_join_append hne
    ((after.filter isData).map fun line => lstrip (line.drop 5))
  refine ⟨rest, hrest, ?_⟩
  rw [← hjoin, dataOf, List.filter_append, List.filter_cons_of_pos hp, List.map_append, List.map_cons,
    List.append_assoc]
  rfl

/-- A line of data that goes on with a separator begins with the field. -/
theorem exists_dataField {p q : Text} {c : Char} (hc : isBreak c = true)
    (h : isData (p ++ c :: q) = true) : ∃ p', p = dataField ++ p' := by
  have hbegin : dataField <+: p ++ c :: q := List.isPrefixOf_iff_prefix.1 h
  rcases List.prefix_or_prefix_of_prefix hbegin (List.prefix_append p (c :: q)) with hp | hp
  · obtain ⟨p', rfl⟩ := hp
    exact ⟨p', rfl⟩
  · obtain ⟨more, hmore⟩ := hp
    cases more with
    | nil => exact ⟨[], by rw [List.append_nil] at hmore ⊢; exact hmore⟩
    | cons d more =>
      -- the separator would be a character of the field
      rw [← hmore, List.prefix_append_right_inj, List.cons_prefix_cons] at hbegin
      obtain rfl := hbegin.1
      have hfield : ∀ c ∈ dataField, isBreak c = false := by decide
      rw [hfield d (hmore ▸ by simp)] at hc
      cases hc

/-- **A broken line of data interrupts the stream.**  What is left of the data ends
inside a string literal. -/
theorem Relayable.refused (hjson : JsonModule lib aliasName) {e : WireEvent}
    (he : Relayable lib limit e)
    (hothers : ∀ line ∈ e.texts, isData line = false → ∀ c ∈ line, c.toNat ∉ separators)
    (hbroken : ¬Unbroken e) :
    ∃ counts e', relayOne lib aliasName limit (encode (frameText e.lines)) =
      ⟨[], counts, some (.bad e')⟩ := by
  obtain ⟨hparse, hlimit⟩ := he.frame aliasName
  obtain ⟨value, hloads, -⟩ := he.data
  rw [← loads_dataOf hjson] at hloads
  -- the first broken line, and in it the first separator
  have hbroken' : ¬∀ l ∈ e.lines, ∀ c ∈ l.1, c.toNat ∉ separators := fun h => hbroken fun line hline => by
    obtain ⟨l, hl, rfl⟩ := List.mem_map.1 hline
    exact h l hl
  obtain ⟨before, ⟨line, eol⟩, after, hlines, hbefore, hline⟩ := exists_first hbroken'
  obtain ⟨p, c, q, rfl, hp, hc⟩ := exists_first hline
  have hmem : p ++ c :: q ∈ e.texts := by
    rw [WireEvent.texts, hlines]
    simp
  have hsep : c.toNat ∈ separators := not_not.1 hc
  have hbreak : isBreak c = true := by simp [isBreak, hsep]
  have hnewline : isNewline c = false := (he.wellFormed.2 _ hmem).2 c (by simp)
  have hcr : c ≠ '\r' := by
    rintro rfl
    exact absurd hnewline (by decide)
  have hspace : c ≠ ' ' := by
    rintro rfl
    exact absurd hsep (by decide)
  have hpbreak : ∀ c ∈ p, isBreak c = false ∧ c ≠ '\r' := by
    intro d hd
    have hdnewline := (he.wellFormed.2 _ hmem).2 d (by simp [hd])
    refine ⟨by simp [isBreak, hdnewline, hp d hd], ?_⟩
    rintro rfl
    exact absurd hdnewline (by decide)
  have hdata : isData (p ++ c :: q) = true := by
    by_contra hnot
    exact hothers _ hmem (by simpa using hnot) c (by simp) hsep
  obtain ⟨p, rfl⟩ := exists_dataField hbreak hdata
  have hfield : isData (dataField ++ p) = true := List.isPrefixOf_iff_prefix.2 (List.prefix_append ..)
  rw [List.append_assoc] at hdata
  -- the data as it was sent, and as it is seen
  obtain ⟨sent, -, hsent⟩ := dataOf_around (before.map Prod.fst) (after.map Prod.fst) hdata
  have htexts : e.texts = before.map Prod.fst ++ (dataField ++ (p ++ c :: q)) :: after.map Prod.fst := by
    rw [WireEvent.texts, hlines]
    simp
  rw [← htexts, lstrip_append hspace, join_concat_append, List.append_assoc] at hsent
  have hframe : ∃ more, frameText ((dataField ++ p ++ c :: q, eol) :: after) =
      dataField ++ p ++ c :: (q ++ more) := by
    cases after with
    | nil => exact ⟨[], by simp [frameText]⟩
    | cons next after => exact ⟨_, by rw [frameText, List.append_assoc, List.append_assoc]; rfl⟩
  obtain ⟨more, hmore⟩ := hframe
  have hseen : splitlines (frameText e.lines) =
      before.map Prod.fst ++ (dataField ++ p) :: linesBy isBreak (q ++ more) := by
    rw [hlines, splitlines_frameText_append, hmore, splitlines,
      linesBy_append hpbreak (linesBy_end hbreak hcr)]
    intro line hline d hd
    obtain ⟨l, hl, rfl⟩ := List.mem_map.1 hline
    have htext : l.1 ∈ e.texts := by
      rw [htexts]
      exact List.mem_append_left _ hline
    exact isBreak_of_unbroken he.wellFormed htext (hbefore l hl) d hd
  obtain ⟨seen, hseenRest, hdataSeen⟩ := dataOf_around (before.map Prod.fst)
    (linesBy isBreak (q ++ more)) hfield
  rw [← hseen] at hdataSeen
  rw [hsent, str_append] at hloads
  have hrest : Text.str seen = [] ∨ (Text.str seen).head? = some 10 := by
    rcases hseenRest with rfl | hhead
    · exact .inl rfl
    · obtain ⟨rest, rfl⟩ := List.head?_eq_some_iff.1 hhead
      exact .inr rfl
  obtain ⟨err, herr⟩ := hjson.separator hbreak hnewline hloads (Text.str seen) hrest
  have hspace' : ∀ c ∈ separators, isJsonSpace c = false ∧ c ≠ 123 := by decide
  have hbrace := brace_append (Text.str seen) (hspace' _ hsep).1 (hspace' _ hsep).2 (hjson.brace hloads)
  rw [← str_append, ← hdataSeen] at hbrace herr
  obtain ⟨hnil, hdone⟩ := ne_of_brace hbrace
  have hnil' : dataOf (splitlines (frameText e.lines)) ≠ [] := fun h => hnil (congrArg Text.str h)
  have hdone' : dataOf (splitlines (frameText e.lines)) ≠ doneText := fun h =>
    hdone (congrArg Text.str h)
  have hrefused : parseLines lib aliasName (splitlines (frameText e.lines)) = .error err := by
    simp [parseLines, hnil', hdone', herr]
  exact ⟨none, err, by simp only [relayOne, judge, hlimit, if_false, hparse, hrefused]⟩

/-! ### Streams -/

/-- The part of an event before its blank line, encoded. -/
def WireEvent.frame (e : WireEvent) : Bytes := encode (frameText e.lines)

/-- The events of a stream, encoded. -/
def wire (events : List WireEvent) : Bytes := encode (events.flatMap WireEvent.text)

/-- **A stream of events is cut into its events.** -/
theorem split_wire {events : List WireEvent} (h : ∀ e ∈ events, e.WellFormed) :
    eventEnd.split (wire events) = (events.map WireEvent.frame, []) := by
  induction events with
  | nil => rfl
  | cons e events ih =>
    have he := h e (List.mem_cons_self ..)
    obtain ⟨eol, htext⟩ := WireEvent.text_eq he.1
    have hwire : wire (e :: events) = e.frame ++ (encode (eol.text ++ e.blank.text) ++ wire events) := by
      rw [wire, List.flatMap_cons, htext, encode_append, encode_append, List.append_assoc]
      rfl
    have hsearch : eventEnd.search (wire (e :: events)) = some (e.frame, wire events) := by
      rw [hwire]
      exact search_frameText he.1 he.2 (search_blank eol e.blank (wire events))
    rw [Terminator.split_some hsearch, ih fun e hmem => h e (List.mem_cons_of_mem _ hmem)]
    rfl

/-- A part of a stream that no chunk has completed yet is shorter than its event. -/
theorem unclogged_wire {events : List WireEvent} {chunks : List Bytes} (h : ∀ e ∈ events, e.WellFormed)
    (hsize : ∀ e ∈ events, (encode e.text).length + 4 ≤ limit) (hchunks : chunks.flatten = wire events)
    (n : ℕ) : Unclogged lib aliasName limit chunks n := by
  intro k _ hclogged
  have hlong : limit < (eventEnd.split (chunks.take k).flatten).2.length := hclogged.2
  have hsplit := Terminator.split_append (t := eventEnd) (chunks.take k).flatten (chunks.drop k).flatten
  rw [← List.flatten_append, List.take_append_drop, hchunks, split_wire h] at hsplit
  obtain ⟨hparts, hleft⟩ := Prod.mk.inj hsplit
  have hnone := Terminator.search_split_rest (t := eventEnd) (chunks.take k).flatten
  generalize (eventEnd.split (chunks.take k).flatten).2 = left at hlong hparts hleft hnone
  cases hsearch : eventEnd.search (left ++ (chunks.drop k).flatten) with
  | none =>
    -- nothing is left over of the whole stream
    rw [Terminator.split_none hsearch] at hleft
    obtain ⟨rfl, -⟩ := List.append_eq_nil_iff.1 hleft.symm
    simp at hlong
  | some found =>
    obtain ⟨part, rest⟩ := found
    have hlt := Terminator.length_lt_of_search_append hnone hsearch
    obtain ⟨stop, heq, hstop⟩ := Terminator.search_eq_some hsearch
    obtain ⟨word, hword, -, hlength⟩ := (Terminator.wordAt_eq_some (by decide)).1 hstop
    have hfour : ∀ word ∈ blankLines, word.length ≤ 4 := by decide
    have hstop4 := hfour word hword
    rw [Terminator.split_some hsearch] at hparts
    have hmem : part ∈ events.map WireEvent.frame := by
      rw [hparts]
      simp
    obtain ⟨e, he, rfl⟩ := List.mem_map.1 hmem
    have hframe : e.frame.length ≤ (encode e.text).length := by
      obtain ⟨eol, htext⟩ := WireEvent.text_eq (h e he).1
      rw [htext, encode_append, List.length_append, WireEvent.frame]
      omega
    have hwhole := congrArg List.length heq
    have hbound := hsize e he
    simp only [List.length_append] at hlt hwhole
    omega

/-- The last event ends the stream. -/
theorem doneEvent_relayed {spaced : Bool} {eol blank : Eol}
    (hsize : (encode (doneEvent spaced eol blank).text).length + 4 ≤ limit) :
    relayOne lib aliasName limit (doneEvent spaced eol blank).frame = ⟨[doneFrame], none, some .done⟩ := by
  have hlimit : ¬limit < (doneEvent spaced eol blank).frame.length := by
    obtain ⟨eol', htext⟩ := WireEvent.text_eq (e := doneEvent spaced eol blank) (List.cons_ne_nil _ _)
    rw [htext, encode_append, List.length_append] at hsize
    rw [WireEvent.frame]
    omega
  have hdata : ∀ spaced : Bool, dataOf (splitlines
      (dataField ++ (if spaced then [' '] else []) ++ doneText)) = doneText := by decide
  have hparse : parseEvent lib aliasName (doneEvent spaced eol blank).frame = .ok .done := by
    rw [parseEvent, WireEvent.frame, decode_encode]
    exact if_pos (hdata spaced)
  simp only [relayOne, judge, hlimit, if_false, hparse]

theorem doneEvent_wellFormed (spaced : Bool) (eol blank : Eol) :
    (doneEvent spaced eol blank).WellFormed := by
  have hline : ∀ spaced : Bool, ∀ c ∈ dataField ++ (if spaced then [' '] else []) ++ doneText,
      isNewline c = false := by decide
  refine ⟨List.cons_ne_nil _ _, fun line hmem => ?_⟩
  obtain rfl := List.mem_singleton.1 hmem
  exact ⟨by simp [dataField], hline spaced⟩

/-- A relayed event whose other lines are unbroken interrupts the stream, or a client
reads of it what it is to read if it is unbroken and finite. -/
theorem Relayable.relayed (hjson : JsonModule lib aliasName) {e : WireEvent} (he : Relayable lib limit e)
    (hothers : ∀ line ∈ e.texts, isData line = false → ∀ c ∈ line, c.toNat ∉ separators) :
    (¬(Unbroken e ∧ Finite lib aliasName e) ∧ ∃ counts e', relayOne lib aliasName limit e.frame =
      ⟨[], counts, some (.bad e')⟩) ∨
    ∃ lines counts, relayOne lib aliasName limit e.frame = ⟨[frameOf lines], counts, none⟩ ∧
      (receive lib lines = expected lib aliasName e ↔ Unbroken e ∧ Finite lib aliasName e) ∧
      lines ≠ [] ∧ ∀ line ∈ lines, line ≠ [] ∧ ∀ c ∈ line, isNewline c = false := by
  by_cases hunbroken : Unbroken e
  · rcases he.forwarded hjson hunbroken with ⟨hfinite, hbad⟩ | ⟨lines, counts, hone, hreceive, hlines⟩
    · exact .inl ⟨fun h => hfinite h.2, hbad⟩
    · exact .inr ⟨lines, counts, hone, hreceive.trans ⟨fun h => ⟨hunbroken, h⟩, And.right⟩, hlines⟩
  · exact .inl ⟨fun h => hunbroken h.1, he.refused hjson hothers hunbroken⟩

/-- **What events are relayed as**, their other lines being unbroken: one of them
interrupts the stream, or each is forwarded as lines. -/
theorem relay_events (hjson : JsonModule lib aliasName) {events : List WireEvent}
    (h : ∀ e ∈ events, Relayable lib limit e)
    (hothers : ∀ e ∈ events, ∀ line ∈ e.texts, isData line = false → ∀ c ∈ line, c.toNat ∉ separators)
    (more : List Bytes) :
    (¬(∀ e ∈ events, Unbroken e ∧ Finite lib aliasName e) ∧
      ∃ e', (relay lib aliasName limit (events.map WireEvent.frame ++ more)).stop = some (.bad e')) ∨
    ∃ (lists : List (List Text)) (counts : Option Payload),
      relay lib aliasName limit (events.map WireEvent.frame) = ⟨lists.map frameOf, counts, none⟩ ∧
      (lists.map (receive lib) = events.map (expected lib aliasName) ↔
        ∀ e ∈ events, Unbroken e ∧ Finite lib aliasName e) ∧
      ∀ lines ∈ lists, lines ≠ [] ∧ ∀ line ∈ lines, line ≠ [] ∧ ∀ c ∈ line, isNewline c = false := by
  induction events with
  | nil => exact .inr ⟨[], none, rfl, ⟨fun _ => nofun, fun _ => rfl⟩, nofun⟩
  | cons e events ih =>
    rcases (h e (List.mem_cons_self ..)).relayed hjson (hothers e (List.mem_cons_self ..)) with
      ⟨hunfair, counts, e', hone⟩ | ⟨lines, counts, hone, hreceive, hlines⟩
    · refine .inl ⟨fun hall => hunfair (hall e (List.mem_cons_self ..)), e', ?_⟩
      rw [List.map_cons, List.cons_append, relay, hone, Relay.append_of_stop rfl]
    · rcases ih (fun e hmem => h e (List.mem_cons_of_mem _ hmem))
        (fun e hmem => hothers e (List.mem_cons_of_mem _ hmem)) with
        ⟨hunfair, e', hbad⟩ | ⟨lists, counts', hrelay, hreceives, hlists⟩
      · refine .inl ⟨fun hall => hunfair fun e hmem => hall e (List.mem_cons_of_mem _ hmem), e', ?_⟩
        rw [List.map_cons, List.cons_append, relay, hone, Relay.append_of_none rfl]
        exact hbad
      · refine .inr ⟨lines :: lists, counts'.or counts, ?_, ?_, ?_⟩
        · rw [List.map_cons, relay, hone, hrelay, Relay.append_of_none rfl]
          rfl
        · rw [List.map_cons, List.map_cons, List.cons.injEq, hreceive, hreceives, List.forall_mem_cons]
        · exact List.forall_mem_cons.2 ⟨hlines, hlists⟩

/-- No line without data that the gateway forwards holds a separator. -/
theorem relay_frames (hjson : JsonModule lib aliasName) (limit : ℕ) (events : List Bytes) :
    ∃ lists : List (List Text), (relay lib aliasName limit events).frames = lists.map frameOf ∧
      ∀ lines ∈ lists, ∀ line ∈ lines, (∀ c ∈ line, isNewline c = false) ∧
        (isData line = false → ∀ c ∈ line, c.toNat ∉ separators) := by
  have hseen : ∀ (text : Text), ∀ line ∈ splitlines text, (∀ c ∈ line, isNewline c = false) ∧
      (isData line = false → ∀ c ∈ line, c.toNat ∉ separators) := by
    intro text line hline
    refine ⟨fun c hc => not_newline_of_mem_splitlines hline hc, fun _ c hc => ?_⟩
    have hbreak : isBreak c = false := isEnd_of_mem_linesBy line hline c hc
    rw [isBreak, Bool.or_eq_false_iff] at hbreak
    simpa using hbreak.2
  have hframe : ∀ event frame, (judge lib aliasName limit event).2 = .forward frame →
      ∃ lines, frame = frameOf lines ∧ ∀ line ∈ lines, (∀ c ∈ line, isNewline c = false) ∧
        (isData line = false → ∀ c ∈ line, c.toNat ∉ separators) := by
    intro event frame hjudge
    rcases judge_forward hjudge with ⟨lines, hparse, rfl⟩ | ⟨others, value, text, hparse, hdumps, rfl⟩
    · obtain ⟨text, -, hlines⟩ := parseEvent_ok hparse
      obtain ⟨rfl, -⟩ := parseLines_plain hlines
      exact ⟨_, rfl, hseen text⟩
    · obtain ⟨seen, -, hlines⟩ := parseEvent_ok hparse
      obtain ⟨rfl, -⟩ := parseLines_object hlines
      refine ⟨_, rfl, fun line hline => ?_⟩
      rcases List.mem_append.1 hline with hline | hline
      · exact hseen seen line (List.mem_of_mem_filter hline)
      · obtain rfl := List.mem_singleton.1 hline
        refine ⟨(written_line (hjson.one_line hdumps).2).2, fun hdata => ?_⟩
        exact absurd hdata (by simp [isData, dataField])
  induction events with
  | nil => exact ⟨[], rfl, (by rintro _ ⟨⟩)⟩
  | cons event events ih =>
    obtain ⟨lists, hlists, hlines⟩ := ih
    cases hjudge : judge lib aliasName limit event with
    | mk counts verdict =>
      cases verdict with
      | refuse e => exact ⟨[], by simp [relay, relayOne, hjudge, Relay.append], (by rintro _ ⟨⟩)⟩
      | done =>
        refine ⟨[[dataField ++ ' ' :: doneText]], by simp [relay, relayOne, hjudge, Relay.append]; rfl, ?_⟩
        intro lines hmem line hline
        obtain rfl := List.mem_singleton.1 hmem
        obtain rfl := List.mem_singleton.1 hline
        exact ⟨by decide, by decide⟩
      | forward frame =>
        obtain ⟨lines, rfl, hframe⟩ := hframe event frame (by rw [hjudge])
        refine ⟨lines :: lists, by simp [relay, relayOne, hjudge, Relay.append, hlists], ?_⟩
        exact List.forall_mem_cons.2 ⟨hframe, hlines⟩

/-! ### The promise -/

/-- What a client reads of the frames of some lines. -/
theorem clientReads_frames (lists : List (List Text)) :
    clientReads lib (lists.map frameOf).flatten =
      some ((clientEvents (lists.flatMap fun lines => join lines ++ ['\n', '\n'])).map (receive lib)) := by
  have hflat : (lists.map frameOf).flatten =
      encode (lists.flatMap fun lines => join lines ++ ['\n', '\n']) := by
    induction lists with
    | nil => rfl
    | cons lines lists ih => rw [List.map_cons, List.flatten_cons, ih, List.flatMap_cons, encode_append]; rfl
  rw [hflat, clientReads, decode_encode]
  rfl

variable {events : List WireEvent} {spaced : Bool} {eol blank : Eol}

/-- A batch of relayed events and `[DONE]`, if the other lines of the events are
unbroken. -/
theorem transparent_of_others (hjson : JsonModule lib aliasName)
    (hevents : ∀ e ∈ events, Relayable lib limit e)
    (hdone : (encode (doneEvent spaced eol blank).text).length + 4 ≤ limit)
    (hothers : ∀ e ∈ events, ∀ line ∈ e.texts, isData line = false → ∀ c ∈ line, c.toNat ∉ separators)
    {l : List Entry} {outcome before : Option Outcome} {ending : Ending}
    (hframes : frames l = (batch lib aliasName limit (wire (events ++ [doneEvent spaced eol blank]))
      ending).frames)
    (houtcome : outcome = (batch lib aliasName limit (wire (events ++ [doneEvent spaced eol blank]))
      ending).outcome.or before) :
    Transparent lib aliasName events outcome l ↔
      ∀ e ∈ events, Unbroken e ∧ Finite lib aliasName e := by
  have hsplit : (eventEnd.split (wire (events ++ [doneEvent spaced eol blank]))).1 =
      events.map WireEvent.frame ++ [(doneEvent spaced eol blank).frame] := by
    rw [split_wire, List.map_append, List.map_singleton]
    intro e he
    rcases List.mem_append.1 he with he | he
    · exact (hevents e he).wellFormed
    · obtain rfl := List.mem_singleton.1 he
      exact doneEvent_wellFormed ..
  rcases relay_events hjson hevents hothers [(doneEvent spaced eol blank).frame] with
    ⟨hunfair, e', hbad⟩ | ⟨lists, counts, hrelay, hreceive, hlists⟩
  · -- the stream is interrupted
    have hinterrupted : outcome = some .interrupted := by
      rw [houtcome, batch_of_bad (hsplit ▸ hbad)]
      rfl
    constructor
    · intro h
      rw [h.2] at hinterrupted
      cases hinterrupted
    · exact fun h => absurd h hunfair
  · have hall : relay lib aliasName limit (events.map WireEvent.frame ++
        [(doneEvent spaced eol blank).frame]) = ⟨lists.map frameOf ++ [doneFrame], none.or counts, some .done⟩ := by
      rw [relay_append, hrelay, Relay.append_of_none rfl, relay, doneEvent_relayed hdone,
        Relay.append_of_stop rfl]
    have hbatch : frames l = (lists ++ [[dataField ++ ' ' :: doneText]]).map frameOf ∧
        outcome = some .completed := by
      rw [hframes, houtcome, batch_of_done (by rw [hsplit, hall]), hsplit, hall, List.map_append]
      exact ⟨rfl, rfl⟩
    have hdoneLine : ∀ c ∈ dataField ++ ' ' :: doneText, isNewline c = false := by decide
    have hreads : clientReads lib (frames l).flatten = some (lists.map (receive lib) ++ [.done]) := by
      rw [hbatch.1, clientReads_frames, clientEvents_frames, List.map_append]
      · rfl
      · intro lines hmem
        rcases List.mem_append.1 hmem with hmem | hmem
        · exact hlists lines hmem
        · obtain rfl := List.mem_singleton.1 hmem
          refine ⟨List.cons_ne_nil _ _, fun line hline => ?_⟩
          obtain rfl := List.mem_singleton.1 hline
          exact ⟨by simp, hdoneLine⟩
    rw [Transparent, hreads, ← hreceive]
    constructor
    · exact fun h => List.append_cancel_right (Option.some.inj h.1)
    · exact fun h => ⟨by rw [h], hbatch.2⟩

/-- What a client reads has the other lines that were forwarded, and these are
unbroken. -/
theorem Transparent.others (hjson : JsonModule lib aliasName)
    (hevents : ∀ e ∈ events, Relayable lib limit e) {l : List Entry}
    {outcome before : Option Outcome} {bytes : Bytes} {ending : Ending}
    (hframes : frames l = (batch lib aliasName limit bytes ending).frames)
    (houtcome : outcome = (batch lib aliasName limit bytes ending).outcome.or before)
    (h : Transparent lib aliasName events outcome l) :
    ∀ e ∈ events, ∀ line ∈ e.texts, isData line = false → ∀ c ∈ line, c.toNat ∉ separators := by
  obtain ⟨lists, hrelay, hlists⟩ := relay_frames hjson limit (eventEnd.split bytes).1
  have hall : frames l = lists.map frameOf := by
    rw [hframes, ← hrelay]
    refine batch_frames fun hinterrupted => ?_
    rw [h.2, hinterrupted] at houtcome
    cases houtcome
  obtain ⟨hreads, -⟩ := h
  rw [hall, clientReads_frames] at hreads
  intro e he line hline hdata
  obtain ⟨value, hloads, -⟩ := (hevents e he).data
  have hexpected : expected lib aliasName e =
      .event (e.texts.filter (!isData ·)) (.obj (rename aliasName value)) := by
    rw [expected, hloads]
  have hmem : expected lib aliasName e ∈ (clientEvents (lists.flatMap fun lines =>
      join lines ++ ['\n', '\n'])).map (receive lib) := by
    rw [Option.some.inj hreads]
    exact List.mem_append_left _ (List.mem_map_of_mem he)
  obtain ⟨event, hevent, hreceive⟩ := List.mem_map.1 hmem
  have hothers : event.filter (!isData ·) = e.texts.filter (!isData ·) := by
    rw [hexpected] at hreceive
    unfold receive at hreceive
    split at hreceive
    · cases hreceive
    · split at hreceive
      · split at hreceive
        · exact (Received.event.inj hreceive).1
        · cases hreceive
      · cases hreceive
  have hlineIn : line ∈ event := by
    have hkept : line ∈ event.filter (!isData ·) := by
      rw [hothers]
      exact List.mem_filter.2 ⟨hline, by simpa using hdata⟩
    exact List.mem_of_mem_filter hkept
  rcases mem_of_mem_clientEvents (fun lines hmem line hline => (hlists lines hmem line hline).1)
    event hevent line hlineIn with rfl | ⟨lines, hlines, hwritten⟩
  · exact nofun
  · exact (hlists lines hlines line hwritten).2 hdata

/-- **The relay is transparent if and only if no line is broken** and no number
overflows. -/
theorem transparent_iff (lib : Lib) (aliasName : Str) (hjson : JsonModule lib aliasName) (limit me : ℕ)
    (exchange : Exchange) (events : List WireEvent) (spaced : Bool) (eol blank : Eol)
    (hevents : ∀ e ∈ events, Relayable lib limit e)
    (hdone : (encode (doneEvent spaced eol blank).text).length + 4 ≤ limit)
    (hwire : exchange.response.upstream.body.chunks.flatten =
      wire (events ++ [doneEvent spaced eol blank]))
    (w w' : World) (r : Except Err Unit) (l : List Entry)
    (hrun : (driven me).Run (sseBody lib aliasName limit me exchange) w [] r w' l) :
    Transparent lib aliasName events (w'.calls me).event.streamOutcome l ↔
      ∀ e ∈ events, Unbroken e ∧ Finite lib aliasName e := by
  have hall : ∀ e ∈ events ++ [doneEvent spaced eol blank],
      e.WellFormed ∧ (encode e.text).length + 4 ≤ limit := by
    intro e he
    rcases List.mem_append.1 he with he | he
    · exact ⟨(hevents e he).wellFormed, (hevents e he).size⟩
    · obtain rfl := List.mem_singleton.1 he
      exact ⟨doneEvent_wellFormed .., hdone⟩
  obtain ⟨hcame, -⟩ := sseBody_batch rfl (unclogged_wire (fun e he => (hall e he).1)
    (fun e he => (hall e he).2) hwire _) hrun
  have hframes := hcame.frames
  rw [hwire] at hframes
  have houtcome := hcame.outcome
  rw [hwire] at houtcome
  constructor
  · intro h
    exact (transparent_of_others hjson hevents hdone (h.others hjson hevents hframes houtcome)
      hframes houtcome).1 h
  · intro h
    exact (transparent_of_others hjson hevents hdone (fun e he line hline _ => (h e he).1 line hline)
      hframes houtcome).2 h

namespace Demo

/-- An event with a comment and an object under the upstream's own model. -/
def greeting : WireEvent := ⟨[(": hi".toList, .crlf), ("data: \x7b\"model\":\"x\"\x7d".toList, .lf)], .lf⟩

/-- An event whose object holds a line separator. -/
def parted : WireEvent :=
  ⟨[("data: \x7b\"a\":\"".toList ++ Char.ofNat 0x2028 :: "\"\x7d".toList, .lf)], .lf⟩

theorem greeting_relayable : Relayable json maxResponse greeting :=
  ⟨by constructor <;> decide, ⟨[(lit "model", .str (lit "x"))], by rfl, by decide⟩, by decide +kernel⟩

end Demo

/-- A greeting is relayed under the alias. -/
theorem transparent_greeting : Transparent Demo.json (lit "m") [Demo.greeting]
    (((Demo.relayRun Demo.json [wire [Demo.greeting], doneFrame]).2.1.calls 0).event.streamOutcome)
    (Demo.relayRun Demo.json [wire [Demo.greeting], doneFrame]).2.2 := by
  refine (transparent_iff Demo.json (lit "m") Demo.json_module maxResponse 0
    (Demo.exchange [wire [Demo.greeting], doneFrame]) [Demo.greeting] true .lf .lf ?_ (by decide +kernel)
    (by decide +kernel) Application.Demo.world _ _ _ (Demo.relayRun_run _ _)).2 ?_
  · exact fun e he => List.mem_singleton.1 he ▸ Demo.greeting_relayable
  · intro e he
    obtain rfl := List.mem_singleton.1 he
    refine ⟨by unfold Unbroken; decide +kernel, fun value hvalue => ?_⟩
    have hgreeting : Demo.json.loads true (eventData Demo.greeting.texts).str =
        .ok (.obj [(lit "model", .str (lit "x"))]) := by rfl
    obtain rfl := Json.obj.inj (Except.ok.inj (hgreeting.symm.trans hvalue))
    decide +kernel

/-- **A line separator in a string interrupts the stream**, legal as it is. -/
theorem not_transparent_separator : JsonModule Demo.json (lit "m") ∧
    Relayable Demo.json maxResponse Demo.parted ∧
    (driven 0).Run (sseBody Demo.json (lit "m") maxResponse 0
        (Demo.exchange [wire [Demo.parted, doneEvent true .lf .lf]]))
      Application.Demo.world [] (Demo.relayRun Demo.json [wire [Demo.parted, doneEvent true .lf .lf]]).1
      (Demo.relayRun Demo.json [wire [Demo.parted, doneEvent true .lf .lf]]).2.1
      (Demo.relayRun Demo.json [wire [Demo.parted, doneEvent true .lf .lf]]).2.2 ∧
    ¬Transparent Demo.json (lit "m") [Demo.parted]
      (((Demo.relayRun Demo.json [wire [Demo.parted, doneEvent true .lf .lf]]).2.1.calls 0).event.streamOutcome)
      (Demo.relayRun Demo.json [wire [Demo.parted, doneEvent true .lf .lf]]).2.2 := by
  refine ⟨Demo.json_module, ⟨by constructor <;> decide, ⟨[(lit "a", .str [0x2028])], by rfl, by decide⟩,
    by decide +kernel⟩, Demo.relayRun_run _ _, fun h => ?_⟩
  have houtcome : ((Demo.relayRun Demo.json [wire [Demo.parted,
      doneEvent true .lf .lf]]).2.1.calls 0).event.streamOutcome = some .interrupted := by
    decide +kernel
  rw [h.2] at houtcome
  cases houtcome

end Ingress
end SwitchyardGateway
