/-
# Event streams, as they are sent and as they are read

An upstream sends events: lines, each ended by LF or CR LF, and a blank line
(`WireEvent`).  A client ends lines at LF, CR and CR LF, takes the lines up to a
blank one for an event, and reads an event's data from its `data:` lines, with
one space dropped after the colon (`clientEvents`, `eventData`).

Two facts connect this to the gateway.  The blank line that the gateway cuts at is
the one the event ends with, and no earlier one (`search_frameText`).  And what
the gateway writes for a list of lines is read as these lines (`clientEvents_frames`).
-/

import SwitchyardGateway.Ingress.Sse

namespace SwitchyardGateway
namespace Ingress

open Python Wire

/-! ### What is sent -/

/-- How a line ends. -/
inductive Eol where
  | lf
  | crlf

def Eol.text : Eol → Text
  | .lf => ['\n']
  | .crlf => ['\r', '\n']

/-- An event on the wire: its lines and their ends, and the end of its blank line. -/
structure WireEvent where
  lines : List (Text × Eol)
  blank : Eol

/-- The lines of an event, without their ends. -/
def WireEvent.texts (e : WireEvent) : List Text := e.lines.map Prod.fst

/-- All of an event. -/
def WireEvent.text (e : WireEvent) : Text :=
  (e.lines.flatMap fun l => l.1 ++ l.2.text) ++ e.blank.text

/-- Lines with the ends between them, as they stand before the end of the last. -/
def frameText : List (Text × Eol) → Text
  | [] => []
  | [(line, _)] => line
  | (line, eol) :: next :: lines => line ++ eol.text ++ frameText (next :: lines)

/-- The lines of an event are there, none is empty and none holds a line end. -/
def WireEvent.WellFormed (e : WireEvent) : Prop :=
  e.lines ≠ [] ∧ ∀ line ∈ e.texts, line ≠ [] ∧ ∀ c ∈ line, isNewline c = false

/-- Bytes without CR and LF. -/
def Plain (bs : Bytes) : Prop := ∀ b ∈ bs, b ≠ 10 ∧ b ≠ 13

theorem plain_encode {line : Text} (h : ∀ c ∈ line, isNewline c = false) : Plain (encode line) := by
  intro b hb
  refine ⟨?_, ?_⟩
  · rintro rfl
    obtain ⟨c, hc, heq⟩ := exists_of_mem_encode (by decide) hb
    obtain rfl : c = '\n' := Char.toNat_inj.1 heq
    exact absurd (h _ hc) (by decide)
  · rintro rfl
    obtain ⟨c, hc, heq⟩ := exists_of_mem_encode (by decide) hb
    obtain rfl : c = '\r' := Char.toNat_inj.1 heq
    exact absurd (h _ hc) (by decide)

theorem encode_ne_nil {line : Text} (h : line ≠ []) : encode line ≠ [] := by
  intro hnil
  exact h (encode_injective (hnil.trans encode_nil.symm))

/-- No blank line begins at another byte than CR and LF. -/
theorem matchAt_plain {b : UInt8} (hb : b ≠ 10 ∧ b ≠ 13) (xs : Bytes) :
    eventEnd.matchAt (b :: xs) = none := by
  refine Terminator.wordAt_eq_none.2 fun w hw hbegin => ?_
  simp only [blankLines, List.mem_cons, List.not_mem_nil, or_false] at hw
  rcases hw with rfl | rfl | rfl | rfl <;> simp only [List.cons_prefix_cons] at hbegin
  · exact hb.1 hbegin.1.symm
  · exact hb.1 hbegin.1.symm
  · exact hb.2 hbegin.1.symm
  · exact hb.2 hbegin.1.symm

/-- The search goes through plain bytes. -/
theorem search_plain {part : Bytes} (h : Plain part) (xs : Bytes) :
    eventEnd.search (part ++ xs) = (eventEnd.search xs).map fun p => (part ++ p.1, p.2) := by
  induction part with
  | nil => simp
  | cons b part ih =>
    rw [List.cons_append, Terminator.search_cons_none (matchAt_plain (h b (List.mem_cons_self ..)) _),
      ih fun b hb => h b (List.mem_cons_of_mem _ hb), Option.map_map]
    rfl

/-- The search goes through a line end that a line follows. -/
theorem search_eol (eol : Eol) {b : UInt8} (hb : b ≠ 10 ∧ b ≠ 13) (xs : Bytes) :
    eventEnd.search (encode eol.text ++ b :: xs) =
      (eventEnd.search (b :: xs)).map fun p => (encode eol.text ++ p.1, p.2) := by
  have hlf : eventEnd.matchAt (10 :: b :: xs) = none := by
    refine Terminator.wordAt_eq_none.2 fun w hw hbegin => ?_
    simp only [blankLines, List.mem_cons, List.not_mem_nil, or_false] at hw
    rcases hw with rfl | rfl | rfl | rfl <;> simp only [List.cons_prefix_cons] at hbegin
    · exact hb.1 hbegin.2.1.symm
    · exact hb.2 hbegin.2.1.symm
    · exact absurd hbegin.1 (by decide)
    · exact absurd hbegin.1 (by decide)
  have hcrlf : eventEnd.matchAt (13 :: 10 :: b :: xs) = none := by
    refine Terminator.wordAt_eq_none.2 fun w hw hbegin => ?_
    simp only [blankLines, List.mem_cons, List.not_mem_nil, or_false] at hw
    rcases hw with rfl | rfl | rfl | rfl <;> simp only [List.cons_prefix_cons] at hbegin
    · exact absurd hbegin.1 (by decide)
    · exact absurd hbegin.1 (by decide)
    · exact hb.1 hbegin.2.2.1.symm
    · exact hb.2 hbegin.2.2.1.symm
  cases eol with
  | lf =>
    change eventEnd.search (10 :: b :: xs) = _
    rw [Terminator.search_cons_none hlf]
    rfl
  | crlf =>
    change eventEnd.search (13 :: 10 :: b :: xs) = _
    rw [Terminator.search_cons_none hcrlf, Terminator.search_cons_none hlf, Option.map_map]
    rfl

/-- Two line ends in a row are a blank line. -/
theorem search_blank (eol blank : Eol) (xs : Bytes) :
    eventEnd.search (encode (eol.text ++ blank.text) ++ xs) = some ([], xs) := by
  have hmatch : ∀ w ∈ blankLines, ∀ xs, eventEnd.matchAt (w ++ xs) = some w.length :=
    fun w hw xs => (Terminator.wordAt_eq_some (by decide)).2 ⟨w, hw, List.prefix_append .., rfl⟩
  cases eol <;> cases blank
  · exact Terminator.search_cons_some (hmatch [10, 10] (by decide) xs)
  · exact Terminator.search_cons_some (hmatch [10, 13, 10] (by decide) xs)
  · exact Terminator.search_cons_some (hmatch [13, 10, 10] (by decide) xs)
  · exact Terminator.search_cons_some (hmatch [13, 10, 13, 10] (by decide) xs)

/-- **An event is cut at its own blank line.** -/
theorem search_frameText {lines : List (Text × Eol)} (hlines : lines ≠ [])
    (h : ∀ line ∈ lines.map Prod.fst, line ≠ [] ∧ ∀ c ∈ line, isNewline c = false) {tail rest : Bytes}
    (htail : eventEnd.search tail = some ([], rest)) :
    eventEnd.search (encode (frameText lines) ++ tail) = some (encode (frameText lines), rest) := by
  induction lines with
  | nil => exact (hlines rfl).elim
  | cons l lines ih =>
    obtain ⟨line, eol⟩ := l
    have hline := h line (List.mem_cons_self ..)
    cases lines with
    | nil =>
      rw [frameText, search_plain (plain_encode hline.2), htail]
      simp
    | cons next lines =>
      have hnext := h next.1 (by simp)
      have hrest := ih (List.cons_ne_nil _ _) fun line hmem => h line (List.mem_cons_of_mem _ hmem)
      -- the next line begins with a plain byte
      have hbegin : ∃ b xs, (b ≠ 10 ∧ b ≠ 13) ∧ encode (frameText (next :: lines)) ++ tail = b :: xs := by
        obtain ⟨b, bs, hbs⟩ := List.exists_cons_of_ne_nil (encode_ne_nil hnext.1)
        have hframe : ∃ more, frameText (next :: lines) = next.1 ++ more := by
          obtain ⟨line', eol'⟩ := next
          cases lines with
          | nil => exact ⟨[], (List.append_nil _).symm⟩
          | cons l lines => exact ⟨_, List.append_assoc ..⟩
        obtain ⟨more, hmore⟩ := hframe
        refine ⟨b, bs ++ encode more ++ tail, plain_encode hnext.2 b (hbs ▸ List.mem_cons_self ..), ?_⟩
        rw [hmore, encode_append, hbs]
        simp
      obtain ⟨b, xs, hb, hxs⟩ := hbegin
      rw [frameText, encode_append, encode_append, List.append_assoc, List.append_assoc, hxs,
        search_plain (plain_encode hline.2), search_eol eol hb, ← hxs, hrest]
      simp

/-- An event is the text before the end of its last line, and two line ends. -/
theorem WireEvent.text_eq {e : WireEvent} (h : e.lines ≠ []) :
    ∃ eol, e.text = frameText e.lines ++ (Eol.text eol ++ e.blank.text) := by
  obtain ⟨lines, blank⟩ := e
  have hflat : ∀ lines : List (Text × Eol), lines ≠ [] →
      ∃ eol, (lines.flatMap fun l => l.1 ++ l.2.text) = frameText lines ++ Eol.text eol := by
    intro lines h
    induction lines with
    | nil => exact (h rfl).elim
    | cons l lines ih =>
      cases lines with
      | nil => exact ⟨l.2, by simp [frameText]⟩
      | cons next lines =>
        obtain ⟨eol, heol⟩ := ih (List.cons_ne_nil _ _)
        exact ⟨eol, by rw [List.flatMap_cons, heol]; simp [frameText]⟩
  obtain ⟨eol, heol⟩ := hflat lines h
  exact ⟨eol, by rw [WireEvent.text, heol, List.append_assoc]⟩

/-- **The lines of an event are the lines the gateway sees**, if nothing but a line
break ends a line in them. -/
theorem splitlines_frameText {lines : List (Text × Eol)}
    (h : ∀ line ∈ lines.map Prod.fst, line ≠ [] ∧ ∀ c ∈ line, isBreak c = false) :
    splitlines (frameText lines) = lines.map Prod.fst := by
  have hline : ∀ line : Text, (∀ c ∈ line, isBreak c = false) →
      ∀ c ∈ line, isBreak c = false ∧ c ≠ '\r' := by
    intro line hbreak c hc
    refine ⟨hbreak c hc, ?_⟩
    rintro rfl
    exact absurd (hbreak _ hc) (by decide)
  induction lines with
  | nil => rfl
  | cons l lines ih =>
    obtain ⟨line, eol⟩ := l
    have hfirst := h line (List.mem_cons_self ..)
    cases lines with
    | nil => exact linesBy_of_forall (hline line hfirst.2) hfirst.1
    | cons next lines =>
      have hrest := ih fun line hmem => h line (List.mem_cons_of_mem _ hmem)
      rw [frameText, splitlines, List.append_assoc]
      refine linesBy_append (hline line hfirst.2) ?_
      rw [← hrest]
      cases eol with
      | lf => exact linesBy_end rfl (by decide)
      | crlf => exact linesBy_crlf

/-! ### What is read -/

/-- The value of a `data:` line: one space after the colon is dropped. -/
def fieldValue (line : Text) : Text :=
  match line.drop 5 with
  | ' ' :: value => value
  | value => value

/-- The data of an event. -/
def eventData (lines : List Text) : Text := join ((lines.filter isData).map fieldValue)

/-- The lines up to each blank line; lines that no blank line follows are dropped. -/
def dispatch : (pending : List Text) → (lines : List Text) → List (List Text)
  | _, [] => []
  | pending, line :: lines =>
    if line = [] then
      if pending = [] then dispatch [] lines else pending :: dispatch [] lines
    else dispatch (pending ++ [line]) lines

/-- The events a client reads. -/
def clientEvents (text : Text) : List (List Text) := dispatch [] (linesBy isNewline text)

theorem dispatch_append {pending lines rest : List Text} (h : ∀ line ∈ lines, line ≠ [])
    (hne : pending ++ lines ≠ []) :
    dispatch pending (lines ++ [] :: rest) = (pending ++ lines) :: dispatch [] rest := by
  induction lines generalizing pending with
  | nil =>
    rw [List.append_nil] at hne ⊢
    rw [List.nil_append, dispatch, if_pos rfl, if_neg hne]
  | cons line lines ih =>
    rw [List.cons_append, dispatch, if_neg (h line (List.mem_cons_self ..)),
      ih (fun line hmem => h line (List.mem_cons_of_mem _ hmem)) (by simp), List.append_assoc]
    rfl

/-- The lines of an event are lines of the text. -/
theorem mem_of_mem_dispatch {pending lines : List Text} :
    ∀ event ∈ dispatch pending lines, ∀ line ∈ event, line ∈ pending ∨ line ∈ lines := by
  induction lines generalizing pending with
  | nil => exact fun event h => (List.not_mem_nil h).elim
  | cons first lines ih =>
    intro event hevent line hline
    rw [dispatch] at hevent
    split at hevent
    · split at hevent
      · rcases ih event hevent line hline with h | h
        · exact (List.not_mem_nil h).elim
        · exact .inr (List.mem_cons_of_mem _ h)
      · rcases List.mem_cons.1 hevent with rfl | hevent
        · exact .inl hline
        · rcases ih event hevent line hline with h | h
          · exact (List.not_mem_nil h).elim
          · exact .inr (List.mem_cons_of_mem _ h)
    · rcases ih event hevent line hline with h | h
      · rcases List.mem_append.1 h with h | h
        · exact .inl h
        · exact .inr (List.mem_cons.2 (.inl (List.mem_singleton.1 h)))
      · exact .inr (List.mem_cons_of_mem _ h)

/-- The lines of what the gateway writes for some lines. -/
theorem linesBy_join {lines : List Text} (hne : lines ≠ [])
    (h : ∀ line ∈ lines, ∀ c ∈ line, isNewline c = false) (rest : Text) :
    linesBy isNewline (join lines ++ '\n' :: '\n' :: rest) = lines ++ [] :: linesBy isNewline rest := by
  have hline : ∀ line ∈ lines, ∀ c ∈ line, isNewline c = false ∧ c ≠ '\r' := by
    intro line hmem c hc
    refine ⟨h line hmem c hc, ?_⟩
    rintro rfl
    exact absurd (h line hmem _ hc) (by decide)
  have hlf : ∀ rest, linesBy isNewline ('\n' :: rest) = [] :: linesBy isNewline rest :=
    fun rest => linesBy_end rfl (by decide)
  induction lines with
  | nil => exact (hne rfl).elim
  | cons line lines ih =>
    have hfirst := hline line (List.mem_cons_self ..)
    cases lines with
    | nil =>
      rw [join_singleton, linesBy_append hfirst (hlf _), hlf]
      rfl
    | cons next lines =>
      have hrest := ih (List.cons_ne_nil _ _) (fun line hmem => h line (List.mem_cons_of_mem _ hmem))
        fun line hmem => hline line (List.mem_cons_of_mem _ hmem)
      rw [join_cons_cons, List.append_assoc, List.cons_append, linesBy_append hfirst (hlf _), hrest]
      rfl

/-- **What is written is read**: every list of lines as one event. -/
theorem clientEvents_frames {events : List (List Text)}
    (h : ∀ lines ∈ events, lines ≠ [] ∧ ∀ line ∈ lines, line ≠ [] ∧ ∀ c ∈ line, isNewline c = false) :
    clientEvents (events.flatMap fun lines => join lines ++ ['\n', '\n']) = events := by
  unfold clientEvents
  induction events with
  | nil => rfl
  | cons lines events ih =>
    obtain ⟨hne, hlines⟩ := h lines (List.mem_cons_self ..)
    rw [List.flatMap_cons, List.append_assoc, List.cons_append, List.cons_append, List.nil_append,
      linesBy_join hne fun line hmem => (hlines line hmem).2,
      dispatch_append (fun line hmem => (hlines line hmem).1) (by simpa using hne), List.nil_append,
      ih fun lines hmem => h lines (List.mem_cons_of_mem _ hmem)]

/-- Every line a client reads is empty or one that was written. -/
theorem mem_of_mem_clientEvents {events : List (List Text)}
    (h : ∀ lines ∈ events, ∀ line ∈ lines, ∀ c ∈ line, isNewline c = false) :
    ∀ event ∈ clientEvents (events.flatMap fun lines => join lines ++ ['\n', '\n']), ∀ line ∈ event,
      line = [] ∨ ∃ lines ∈ events, line ∈ lines := by
  have hall : ∀ line ∈ linesBy isNewline (events.flatMap fun lines => join lines ++ ['\n', '\n']),
      line = [] ∨ ∃ lines ∈ events, line ∈ lines := by
    induction events with
    | nil => exact fun line hmem => (List.not_mem_nil hmem).elim
    | cons lines events ih =>
      have hrest := ih fun lines hmem => h lines (List.mem_cons_of_mem _ hmem)
      have hlater : ∀ line ∈ linesBy isNewline (events.flatMap fun lines => join lines ++ ['\n', '\n']),
          line = [] ∨ ∃ lines' ∈ lines :: events, line ∈ lines' := by
        intro line hmem
        rcases hrest line hmem with hnil | ⟨lines', hlines', hline⟩
        · exact .inl hnil
        · exact .inr ⟨lines', List.mem_cons_of_mem _ hlines', hline⟩
      intro line hmem
      rw [List.flatMap_cons, List.append_assoc, List.cons_append, List.cons_append,
        List.nil_append] at hmem
      cases hlines : lines with
      | nil =>
        rw [hlines] at hmem
        have hlf : ∀ rest, linesBy isNewline ('\n' :: rest) = [] :: linesBy isNewline rest :=
          fun rest => linesBy_end rfl (by decide)
        rw [join_nil, List.nil_append, hlf, hlf] at hmem
        rcases List.mem_cons.1 hmem with rfl | hmem
        · exact .inl rfl
        · rcases List.mem_cons.1 hmem with rfl | hmem
          · exact .inl rfl
          · exact hlines ▸ hlater line hmem
      | cons first more =>
        rw [← hlines]
        rw [linesBy_join (by simp [hlines]) (h lines (List.mem_cons_self ..))] at hmem
        rcases List.mem_append.1 hmem with hmem | hmem
        · exact .inr ⟨lines, List.mem_cons_self .., hmem⟩
        · rcases List.mem_cons.1 hmem with rfl | hmem
          · exact .inl rfl
          · exact hlater line hmem
  intro event hevent line hline
  rcases mem_of_mem_dispatch event hevent line hline with h | h
  · exact (List.not_mem_nil h).elim
  · exact hall line h

end Ingress
end SwitchyardGateway
