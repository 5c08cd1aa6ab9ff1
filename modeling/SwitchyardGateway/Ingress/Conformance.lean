/-
# What a client may see of a stream

The frames a stream is relayed as form a small language.  An undisturbed stream
ends with exactly one terminal frame, the `[DONE]` frame or the frame of an
interruption, and the recorded outcome says which; a cancelled one has none.
Every other frame stands for one event of the upstream, in order, and carries no
data or one JSON object without an error, under the alias (`Conforms`).

All of this holds of every run but the word JSON: a number that overflows or is
not finite is read by `json.loads`, and `json.dumps` writes it as `NaN` or
`Infinity`, which is no JSON.  `stream_conforms_iff` says that nothing else can
go wrong.
-/

import SwitchyardGateway.Ingress.Chunking
import SwitchyardGateway.Ingress.JsonModule
import Mathlib.Data.List.Forall2

namespace SwitchyardGateway
namespace Ingress

open Coop Coop.Discipline Python Application Wire

/-- A frame that ends a stream. -/
def Terminal (frame : Bytes) : Prop := frame = doneFrame ∨ frame = interruptedFrame

instance : DecidablePred Terminal := fun frame => by
  unfold Terminal
  infer_instance

/-- The payloads of the data lines of a text that is split at LF. -/
def payloads (text : Text) : List Text :=
  ((text.splitOn '\n').filter isData).map fun line => lstrip (line.drop 5)

/-- A frame that carries no data, or one JSON object without an error and under
the alias. -/
def Clean (lib : Lib) (aliasName : Str) (frame : Bytes) : Prop :=
  ∃ text, frame = encode text ∧ ((∀ payload ∈ payloads text, payload = []) ∨
    ∃ payload value, payloads text = [payload] ∧ lib.loads true payload.str = .ok (.obj value) ∧
      (value.lookup (lit "error")).isNone = true ∧
      ∀ model ∈ value.lookup (lit "model"), model = .str aliasName)

/-- The promise of a stream, for a run that ended with `r`, recorded `outcome` and
left the log `l`. -/
structure Conforms (lib : Lib) (aliasName : Str) (limit : ℕ) (stream : Stream) (r : Except Err Unit)
    (outcome : Option Outcome) (l : List Entry) : Prop where
  /-- One terminal frame, the last one, and it tells the outcome. -/
  terminal : r ≠ .error .cancelled → ∃ body last, frames l = body ++ [last] ∧
    (∀ frame ∈ body, ¬Terminal frame) ∧ Terminal last ∧
    (last = doneFrame ↔ outcome = some .completed) ∧
    (last = interruptedFrame ↔ outcome = some .interrupted)
  /-- No terminal frame if the run is cancelled. -/
  cancelled : r = .error .cancelled → (∀ frame ∈ frames l, ¬Terminal frame) ∧ outcome = some .cancelled
  clean : ∀ frame ∈ frames l, ¬Terminal frame → Clean lib aliasName frame
  /-- The other frames stand for the first events of what was received, one for
  one; an event that interrupts the stream comes after these. -/
  untouched : ∃ n past rest, (eventEnd.split (stream.chunks.take n).flatten).1 = past ++ rest ∧
    List.Forall₂ (fun event frame => (judge lib aliasName limit event).2 = .forward frame) past
      ((frames l).filter fun frame => ¬Terminal frame) ∧
    (outcome = some .interrupted → ∀ event ∈ rest.head?, ∃ e,
      (judge lib aliasName limit event).2 = .refuse e)

variable {lib : Lib} {aliasName : Str} {limit me : ℕ} {event frame : Bytes}

/-! ### The frame of an event -/

/-- An event is forwarded as it is, or as the object it carries. -/
theorem judge_forward (h : (judge lib aliasName limit event).2 = .forward frame) :
    (∃ lines, parseEvent lib aliasName event = .ok (.plain lines) ∧ frame = frameOf lines) ∨
    ∃ others value text, parseEvent lib aliasName event = .ok (.object others value) ∧
      lib.dumps (.obj value) = .ok text ∧ frame = frameOf (others ++ [dataField ++ ' ' :: text]) := by
  unfold judge at h
  split at h
  · cases h
  · split at h
    · cases h
    · cases h
    · rename_i lines hparse
      exact .inl ⟨lines, hparse, (Verdict.forward.inj h).symm⟩
    · rename_i others value hparse
      right
      cases hdumps : lib.dumps (.obj value) with
      | error e => simp [hdumps] at h
      | ok text =>
        simp only [hdumps] at h
        exact ⟨others, value, text, hparse, hdumps, (Verdict.forward.inj h).symm⟩

/-- An event is decoded first. -/
theorem parseEvent_ok {parsed : Parsed} (h : parseEvent lib aliasName event = .ok parsed) :
    ∃ text, decode event = some text ∧ parseLines lib aliasName (splitlines text) = .ok parsed := by
  unfold parseEvent at h
  split at h
  · rename_i text hdecode
    exact ⟨text, hdecode, h⟩
  · cases h

/-- An event without data has its own lines. -/
theorem parseLines_plain {lines lines' : List Text}
    (h : parseLines lib aliasName lines = .ok (.plain lines')) : lines' = lines ∧ dataOf lines = [] := by
  unfold parseLines at h
  split at h
  · cases h
  · split at h
    · rename_i hempty
      exact ⟨(Parsed.plain.inj (Except.ok.inj h)).symm, hempty⟩
    · split at h
      · split at h <;> cases h
      · cases h
      · cases h

/-- An event with an object has its own other lines, and the object under the
alias. -/
theorem parseLines_object {lines others : List Text} {value : Payload}
    (h : parseLines lib aliasName lines = .ok (.object others value)) :
    others = lines.filter (!isData ·) ∧ ∃ read,
      lib.loads false (dataOf lines).str = .ok (.obj read) ∧
      (read.lookup (lit "error")).isSome = false ∧ value = rename aliasName read := by
  unfold parseLines at h
  split at h
  · cases h
  · split at h
    · cases h
    · split at h
      · rename_i read hread
        split at h
        · cases h
        · rename_i herror
          obtain ⟨rfl, rfl⟩ := Parsed.object.inj (Except.ok.inj h)
          exact ⟨rfl, read, hread, Bool.eq_false_iff.2 herror, rfl⟩
      · cases h
      · cases h

/-- A line of `str.splitlines` holds no line break. -/
theorem not_newline_of_mem_splitlines {text line : Text} (h : line ∈ splitlines text) {c : Char}
    (hc : c ∈ line) : isNewline c = false := by
  have hbreak : isBreak c = false := isEnd_of_mem_linesBy line h c hc
  rw [isBreak, Bool.or_eq_false_iff] at hbreak
  exact hbreak.1

/-! ### The payloads of a frame -/

/-- A frame that is made of lines has these lines. -/
theorem payloads_join {lines : List Text} (h : ∀ line ∈ lines, '\n' ∉ line) :
    payloads (join lines ++ ['\n', '\n']) =
      (lines.filter isData).map fun line => lstrip (line.drop 5) := by
  have hblank : ∀ lines : List Text, ((lines ++ [[], []]).filter isData) = lines.filter isData := by
    intro lines
    rw [List.filter_append]
    exact List.append_nil _
  cases hlines : lines with
  | nil => rfl
  | cons line rest =>
    have hjoin : join lines ++ ['\n', '\n'] = join (lines ++ [[], []]) := by
      rw [join_append (by simp [hlines]) (by simp)]
      rfl
    have hsplit : (join (lines ++ [[], []])).splitOn '\n' = lines ++ [[], []] := by
      refine List.splitOn_intercalate '\n' (fun line hline => ?_) (by simp)
      rcases List.mem_append.1 hline with hline | hline
      · exact h line hline
      · simp only [List.mem_cons, List.not_mem_nil, or_false, or_self] at hline
        rw [hline]
        exact List.not_mem_nil
    rw [← hlines, hjoin, payloads, hsplit, hblank]

/-- Lines without data make a frame without data. -/
theorem eq_nil_of_join {lines : List Text} (h : join lines = []) : ∀ line ∈ lines, line = [] := by
  cases lines with
  | nil => simp
  | cons line lines =>
    cases lines with
    | nil =>
      rw [join_singleton] at h
      simpa using h
    | cons line' lines =>
      rw [join_cons_cons] at h
      simp at h

/-- The alias is written over any other model, and nothing else. -/
theorem lookup_rename_model {value : Payload} :
    ∀ model ∈ (rename aliasName value).lookup (lit "model"), model = .str aliasName := by
  intro model hmodel
  unfold rename at hmodel
  split at hmodel
  · rw [Dict.lookup_set_self] at hmodel
    exact (Option.some.inj hmodel).symm
  · rename_i hnone
    rw [Option.mem_def] at hmodel
    simp [hmodel] at hnone

theorem lookup_rename {value : Payload} {key : Str} (h : key ≠ lit "model") :
    (rename aliasName value).lookup key = value.lookup key := by
  unfold rename
  split
  · exact Dict.lookup_set_ne h _ _
  · rfl

/-- **What an event is forwarded as**: a frame without data, or one whose only
payload is the text of the object. -/
theorem forward_payloads (hjson : JsonModule lib aliasName)
    (h : (judge lib aliasName limit event).2 = .forward frame) :
    ∃ text, frame = encode text ∧ (((∀ payload ∈ payloads text, payload = []) ∧
        ∀ others value, parseEvent lib aliasName event ≠ .ok (.object others value)) ∨
      ∃ others value payload, parseEvent lib aliasName event = .ok (.object others value) ∧
        payloads text = [payload] ∧ lib.dumps (.obj value) = .ok payload ∧
        Written lib aliasName value ∧ (value.lookup (lit "error")).isNone = true ∧
        ∀ model ∈ value.lookup (lit "model"), model = .str aliasName) := by
  rcases judge_forward h with ⟨lines, hparse, rfl⟩ | ⟨others, value, payload, hparse, hdumps, rfl⟩
  · refine ⟨_, rfl, .inl ⟨?_, fun others value hobject => ?_⟩⟩
    · obtain ⟨text, -, hlines⟩ := parseEvent_ok hparse
      obtain ⟨rfl, hempty⟩ := parseLines_plain hlines
      have hbreak : ∀ line ∈ splitlines text, '\n' ∉ line := fun line hline hc =>
        absurd (not_newline_of_mem_splitlines hline hc) (by decide)
      rw [payloads_join hbreak]
      exact eq_nil_of_join hempty
    · rw [hparse] at hobject
      cases hobject
  · obtain ⟨text, -, hlines⟩ := parseEvent_ok hparse
    obtain ⟨rfl, read, hread, herror, rfl⟩ := parseLines_object hlines
    obtain ⟨hbrace, hone⟩ := hjson.one_line hdumps
    obtain ⟨rest, rfl⟩ := List.head?_eq_some_iff.1 hbrace
    refine ⟨_, rfl, .inr ⟨_, _, _, hparse, ?_, hdumps, ⟨_, _, hread, rfl⟩, ?_, lookup_rename_model⟩⟩
    · have hbreak : ∀ line ∈ (splitlines text).filter (!isData ·) ++ [dataField ++ ' ' :: '{' :: rest],
          '\n' ∉ line := by
        intro line hline hc
        rcases List.mem_append.1 hline with hline | hline
        · exact absurd (not_newline_of_mem_splitlines (List.mem_of_mem_filter hline) hc) (by decide)
        · obtain rfl := List.mem_singleton.1 hline
          rcases List.mem_append.1 hc with hc | hc
          · exact absurd hc (by decide)
          · rcases List.mem_cons.1 hc with hc | hc
            · exact absurd hc (by decide)
            · exact absurd (hone _ hc) (by decide)
      have hothers : ((splitlines text).filter (!isData ·)).filter isData = [] := by
        rw [List.filter_filter]
        simp
      have hdata : isData (dataField ++ ' ' :: '{' :: rest) = true := rfl
      rw [payloads_join hbreak, List.filter_append, hothers, List.nil_append,
        List.filter_cons_of_pos hdata]
      rfl
    · rw [lookup_rename (by decide)]
      simpa using herror

/-- A forwarded event is not the end of the stream: an object begins with a brace. -/
theorem not_done_of_forward (hbrace : Braced lib)
    (h : (judge lib aliasName limit event).2 = .forward frame) : frame ≠ doneFrame := by
  have hframe : ∀ lines, frameOf lines = doneFrame → join lines = dataField ++ ' ' :: doneText :=
    fun lines heq => List.append_cancel_right (encode_injective heq)
  have hline : '\n' ∉ dataField ++ ' ' :: doneText := by decide
  -- a line break in it would be one more line
  have hone : ∀ {lines}, join lines = dataField ++ ' ' :: doneText →
      lines = [dataField ++ ' ' :: doneText] := by
    intro lines hjoin
    rcases lines with _ | ⟨line, _ | ⟨line', lines⟩⟩
    · cases hjoin
    · rw [← hjoin, join_singleton]
    · rw [join_cons_cons] at hjoin
      exact absurd (hjoin ▸ List.mem_append_right _ List.mem_cons_self) hline
  rcases judge_forward h with ⟨lines, hparse, rfl⟩ | ⟨others, value, payload, -, hdumps, rfl⟩
  · intro heq
    obtain ⟨text, -, hlines⟩ := parseEvent_ok hparse
    obtain ⟨rfl, hempty⟩ := parseLines_plain hlines
    rw [hone (hframe _ heq)] at hempty
    exact absurd hempty (by decide)
  · intro heq
    have hlast := hone (hframe _ heq)
    obtain rfl : others = [] := List.eq_nil_of_length_eq_zero (by simpa using congrArg List.length hlast)
    obtain rfl : payload = doneText := by simpa using hlast
    exact absurd (hbrace value doneText hdumps) (by decide)

/-- A forwarded event does not end the stream. -/
theorem not_terminal_of_forward (hjson : JsonModule lib aliasName)
    (h : (judge lib aliasName limit event).2 = .forward frame) : ¬Terminal frame := by
  have hinterrupted : payloads (dataField ++ ' ' :: interruptedText ++ ['\n', '\n']) = [interruptedText] := by
    decide +kernel
  rintro (hterminal | hterminal)
  · exact not_done_of_forward hjson.braced h hterminal
  · obtain ⟨text, rfl, htext⟩ := forward_payloads hjson h
    obtain rfl := encode_injective hterminal
    rw [hinterrupted] at htext
    rcases htext with ⟨hempty, -⟩ | ⟨others, value, payload, -, hpayload, hdumps, hwritten, herror, -⟩
    · exact absurd (hempty interruptedText (List.mem_singleton_self _)) (by decide +kernel)
    · obtain rfl := List.singleton_inj.1 hpayload
      obtain ⟨value', hvalue', herror'⟩ := hjson.interrupted
      -- the text of the interruption reads as an object with an error
      cases hfinite : (Json.obj value).finite with
      | true =>
        obtain ⟨text, htext, hreads⟩ := hjson.reads_back hwritten hfinite
        obtain rfl : interruptedText = text := Except.ok.inj (hdumps.symm.trans htext)
        obtain rfl : value' = value := Json.obj.inj (Except.ok.inj (hvalue'.symm.trans hreads))
        simp [Option.isNone_iff_eq_none.1 herror] at herror'
      | false =>
        obtain ⟨e, he⟩ := hjson.non_finite hwritten hfinite hdumps
        rw [hvalue'] at he
        cases he

/-- The object an event carries, if it carries one, has finite numbers only. -/
def FiniteEvent (lib : Lib) (aliasName : Str) (event : Bytes) : Prop :=
  ∀ others value, parseEvent lib aliasName event = .ok (.object others value) →
    (Json.obj value).finite = true

/-- **A forwarded event is JSON if and only if its numbers are.** -/
theorem clean_iff_finite (hjson : JsonModule lib aliasName)
    (h : (judge lib aliasName limit event).2 = .forward frame) :
    Clean lib aliasName frame ↔ FiniteEvent lib aliasName event := by
  obtain ⟨text, rfl, ⟨hempty, hplain⟩ | ⟨others, value, payload, hparse, hpayload, hdumps, hwritten,
    herror, hmodel⟩⟩ := forward_payloads hjson h
  · exact ⟨fun _ others value hobject => absurd hobject (hplain others value),
      fun _ => ⟨text, rfl, .inl hempty⟩⟩
  · constructor
    · rintro ⟨text', htext', hclean⟩ others' value' hparse'
      obtain rfl := encode_injective htext'
      obtain ⟨rfl, rfl⟩ := Parsed.object.inj (Except.ok.inj (hparse.symm.trans hparse'))
      rw [hpayload] at hclean
      cases hfinite : (Json.obj value).finite with
      | true => rfl
      | false =>
        obtain ⟨e, he⟩ := hjson.non_finite hwritten hfinite hdumps
        rcases hclean with hempty | ⟨payload', value', hpayload', hreads, -⟩
        · have hbrace := (hjson.one_line hdumps).1
          rw [hempty payload (List.mem_singleton_self _)] at hbrace
          cases hbrace
        · obtain rfl := List.singleton_inj.1 hpayload'
          rw [he] at hreads
          cases hreads
    · intro hfinite
      obtain ⟨payload', hpayload', hreads⟩ := hjson.reads_back hwritten (hfinite _ _ hparse)
      obtain rfl : payload = payload' := Except.ok.inj (hdumps.symm.trans hpayload')
      exact ⟨text, rfl, .inr ⟨payload, value, hpayload, hreads, herror, hmodel⟩⟩

/-! ### The frames of a run -/

/-- A relay, taken apart: the events forwarded, and what the next one did. -/
structure Parts (lib : Lib) (aliasName : Str) (limit : ℕ) (events past rest body : List Bytes) :
    Prop where
  split : events = past ++ rest
  forwarded : List.Forall₂ (fun event frame => (judge lib aliasName limit event).2 = .forward frame)
    past body
  stop : match (relay lib aliasName limit events).stop with
    | none => rest = [] ∧ (relay lib aliasName limit events).frames = body
    | some .done => (relay lib aliasName limit events).frames = body ++ [doneFrame] ∧
      ∃ event ∈ rest.head?, (judge lib aliasName limit event).2 = .done
    | some (.bad _) => (relay lib aliasName limit events).frames = body ∧
      ∃ event ∈ rest.head?, ∃ e, (judge lib aliasName limit event).2 = .refuse e

theorem exists_parts (events : List Bytes) :
    ∃ past rest body, Parts lib aliasName limit events past rest body := by
  induction events with
  | nil => exact ⟨[], [], [], rfl, .nil, rfl, rfl⟩
  | cons event events ih =>
    obtain ⟨past, rest, body, hevents, hforwarded, hstop⟩ := ih
    cases hjudge : judge lib aliasName limit event with
    | mk counts verdict =>
      have hrelay : relay lib aliasName limit (event :: events) =
          (relayOne lib aliasName limit event).append (relay lib aliasName limit events) := rfl
      cases verdict with
      | forward frame =>
        have hone : relayOne lib aliasName limit event = ⟨[frame], counts, none⟩ := by
          simp [relayOne, hjudge]
        rw [hone, Relay.append_of_none rfl] at hrelay
        refine ⟨event :: past, rest, frame :: body, by rw [hevents, List.cons_append],
          .cons (by rw [hjudge]) hforwarded, ?_⟩
        rw [hrelay]
        revert hstop
        dsimp only
        cases (relay lib aliasName limit events).stop with
        | none => exact fun h => ⟨h.1, congrArg (frame :: ·) h.2⟩
        | some stop =>
          cases stop with
          | done => exact fun h => ⟨congrArg (frame :: ·) h.1, h.2⟩
          | bad e => exact fun h => ⟨congrArg (frame :: ·) h.1, h.2⟩
      | done =>
        have hone : relayOne lib aliasName limit event = ⟨[doneFrame], counts, some .done⟩ := by
          simp [relayOne, hjudge]
        rw [hone, Relay.append_of_stop rfl] at hrelay
        refine ⟨[], event :: events, [], rfl, .nil, ?_⟩
        rw [hrelay]
        exact ⟨rfl, event, rfl, by rw [hjudge]⟩
      | refuse e =>
        have hone : relayOne lib aliasName limit event = ⟨[], counts, some (.bad e)⟩ := by
          simp [relayOne, hjudge]
        rw [hone, Relay.append_of_stop rfl] at hrelay
        refine ⟨[], event :: events, [], rfl, .nil, ?_⟩
        rw [hrelay]
        exact ⟨rfl, event, rfl, e, by rw [hjudge]⟩

/-- An event that is reached and forwarded leaves its frame. -/
theorem mem_relay {past rest : List Bytes} (hstop : (relay lib aliasName limit past).stop = none)
    (h : (judge lib aliasName limit event).2 = .forward frame) :
    frame ∈ (relay lib aliasName limit (past ++ event :: rest)).frames := by
  have hone : (relayOne lib aliasName limit event).frames = [frame] ∧
      (relayOne lib aliasName limit event).stop = none := by
    cases hjudge : judge lib aliasName limit event with
    | mk counts verdict =>
      rw [hjudge] at h
      obtain rfl : verdict = .forward frame := h
      simp [relayOne, hjudge]
  have hevents : relay lib aliasName limit (event :: rest) =
      (relayOne lib aliasName limit event).append (relay lib aliasName limit rest) := rfl
  rw [relay_append, Relay.append_of_none hstop, hevents, Relay.append_of_none hone.2, hone.1]
  simp

theorem Relay.frames_prefix_append (r s : Relay) : r.frames <+: (r.append s).frames := by
  cases h : r.stop with
  | none => rw [append_of_none h]; exact List.prefix_append ..
  | some stop => rw [append_of_stop h]

/-- More chunks leave the frames so far as they are. -/
theorem relayed_take_le {chunks : List Bytes} {n m : ℕ} (h : n ≤ m) :
    (relayed lib aliasName limit (chunks.take n)).frames <+:
      (relayed lib aliasName limit (chunks.take m)).frames := by
  have htake : chunks.take m = chunks.take n ++ (chunks.take m).drop n := by
    conv_lhs => rw [← List.take_append_drop n (chunks.take m), List.take_take, Nat.min_eq_left h]
  have hsplit := Terminator.split_append (t := eventEnd) (chunks.take n).flatten
    ((chunks.take m).drop n).flatten
  rw [htake, relayed, relayed, List.flatten_append, hsplit, relay_append]
  exact Relay.frames_prefix_append _ _

/-- An event that a stream's run reaches and forwards. -/
def Forwarded (lib : Lib) (aliasName : Str) (limit : ℕ) (stream : Stream) (event : Bytes) : Prop :=
  ∃ n past rest frame, n ≤ stream.chunks.length ∧ Unclogged lib aliasName limit stream.chunks n ∧
    (eventEnd.split (stream.chunks.take n).flatten).1 = past ++ event :: rest ∧
    (relay lib aliasName limit past).stop = none ∧ (judge lib aliasName limit event).2 = .forward frame

/-- Where a run of `sse_body` ended, `n` chunks having been read: nothing more was
to be relayed. -/
def Over (lib : Lib) (aliasName : Str) (limit : ℕ) (stream : Stream) (n : ℕ) : Prop :=
  (∃ stop, (relayed lib aliasName limit (stream.chunks.take n)).stop = some stop) ∨
    Clogged lib aliasName limit (stream.chunks.take n) ∨ n = stream.chunks.length

theorem Raised.over {stream : Stream} {n : ℕ} {e : Err} (h : Raised lib aliasName limit stream n e) :
    Over lib aliasName limit stream n := by
  rcases h with ⟨e', hstop, -⟩ | ⟨hclogged, -⟩ | ⟨-, hn, -⟩
  · exact .inl ⟨_, hstop⟩
  · exact .inr (.inl hclogged)
  · exact .inr (.inr hn)

/-- The frame of every forwarded event is among those relayed in the end. -/
theorem Over.mem_relayed {stream : Stream} {n : ℕ} (hover : Over lib aliasName limit stream n)
    (h : Forwarded lib aliasName limit stream event) :
    ∃ frame ∈ (relayed lib aliasName limit (stream.chunks.take n)).frames,
      (judge lib aliasName limit event).2 = .forward frame := by
  obtain ⟨m, past, rest, frame, hm, hfree, hsplit, hstop, hjudge⟩ := h
  have hmem : frame ∈ (relayed lib aliasName limit (stream.chunks.take m)).frames := by
    rw [relayed, hsplit]
    exact mem_relay hstop hjudge
  refine ⟨frame, ?_, hjudge⟩
  rcases Nat.lt_or_ge n m with hlt | hle
  · rcases hover with ⟨stop, hover⟩ | hclogged | rfl
    · -- the stream was stopped before: nothing came after
      have htake : (stream.chunks.take m).take n = stream.chunks.take n := by
        rw [List.take_take, Nat.min_eq_left hlt.le]
      rw [← htake] at hover ⊢
      rw [relayed_take hover]
      exact hmem
    · exact absurd hclogged (hfree n hlt)
    · omega
  · exact (relayed_take_le hle).subset hmem

/-- Forwarded events stop nothing. -/
theorem relay_stop_of_forwarded {past body : List Bytes}
    (h : List.Forall₂ (fun event frame => (judge lib aliasName limit event).2 = .forward frame) past body) :
    (relay lib aliasName limit past).stop = none := by
  induction h with
  | nil => rfl
  | @cons event frame past body hjudge _ ih =>
    have hone : (relayOne lib aliasName limit event).stop = none := by
      cases hj : judge lib aliasName limit event with
      | mk counts verdict =>
        rw [hj] at hjudge
        obtain rfl : verdict = .forward frame := hjudge
        simp [relayOne, hj]
    rw [relay, Relay.append_of_none hone]
    exact ih

section

variable {stream : Stream} {n : ℕ} {past rest body : List Bytes}

/-- No frame of a forwarded event is terminal. -/
theorem Parts.not_terminal (hjson : JsonModule lib aliasName) {events : List Bytes}
    (h : Parts lib aliasName limit events past rest body) : ∀ frame ∈ body, ¬Terminal frame := by
  intro frame hframe
  obtain ⟨k, hk, rfl⟩ := List.getElem_of_mem hframe
  have hlength := h.forwarded.length_eq
  have hjudge := List.forall₂_iff_get.1 h.forwarded
  exact not_terminal_of_forward hjson (hjudge.2 k (by omega) hk)

/-- **Every frame is JSON if and only if every forwarded event is.** -/
theorem Parts.clean_iff (hjson : JsonModule lib aliasName) (hn : n ≤ stream.chunks.length)
    (hfree : Unclogged lib aliasName limit stream.chunks n) (hover : Over lib aliasName limit stream n)
    (h : Parts lib aliasName limit (eventEnd.split (stream.chunks.take n).flatten).1 past rest body) :
    (∀ frame ∈ body, Clean lib aliasName frame) ↔
      ∀ event, Forwarded lib aliasName limit stream event → FiniteEvent lib aliasName event := by
  constructor
  · intro hclean event hevent
    obtain ⟨frame, hmem, hjudge⟩ := hover.mem_relayed hevent
    have hbody : frame ∈ body := by
      have hstop := h.stop
      rw [relayed] at hmem
      split at hstop
      · rwa [hstop.2] at hmem
      · rw [hstop.1] at hmem
        rcases List.mem_append.1 hmem with hmem | hmem
        · exact hmem
        · exact absurd (.inl (List.mem_singleton.1 hmem)) (not_terminal_of_forward hjson hjudge)
      · rwa [hstop.1] at hmem
    exact (clean_iff_finite hjson hjudge).1 (hclean frame hbody)
  · intro hfinite frame hframe
    obtain ⟨k, hk, rfl⟩ := List.getElem_of_mem hframe
    have hlength := h.forwarded.length_eq
    have hjudge := (List.forall₂_iff_get.1 h.forwarded).2 k (by omega) hk
    refine (clean_iff_finite hjson hjudge).2 (hfinite _ ⟨n, past.take k, past.drop (k + 1) ++ rest, _,
      hn, hfree, ?_, ?_, hjudge⟩)
    · have hpast : past = past.take k ++ past.get ⟨k, by omega⟩ :: past.drop (k + 1) := by simp
      rw [h.split]
      conv_lhs => rw [hpast]
      rw [List.append_assoc, List.cons_append]
    · exact relay_stop_of_forwarded (List.forall₂_take k h.forwarded)

variable {r : Except Err Unit} {outcome : Option Outcome} {l : List Entry}

/-- A log of the frames of a relay and a terminal frame, or none if cancelled. -/
theorem Parts.conforms_iff (hjson : JsonModule lib aliasName) (hn : n ≤ stream.chunks.length)
    (hfree : Unclogged lib aliasName limit stream.chunks n) (hover : Over lib aliasName limit stream n)
    (h : Parts lib aliasName limit (eventEnd.split (stream.chunks.take n).flatten).1 past rest body)
    (hend : (r = .error .cancelled ∧ frames l = body ∧ outcome = some .cancelled) ∨
      (r ≠ .error .cancelled ∧ ((frames l = body ++ [doneFrame] ∧ outcome = some .completed) ∨
        (frames l = body ++ [interruptedFrame] ∧ outcome = some .interrupted))))
    (hbad : outcome = some .interrupted → ∀ event ∈ rest.head?, ∃ e,
      (judge lib aliasName limit event).2 = .refuse e) :
    Conforms lib aliasName limit stream r outcome l ↔
      ∀ event, Forwarded lib aliasName limit stream event → FiniteEvent lib aliasName event := by
  have hnot := h.not_terminal hjson
  have hkeep : body.filter (fun frame => ¬Terminal frame) = body :=
    List.filter_eq_self.2 fun frame hframe => by simpa using hnot frame hframe
  have hbody : (frames l).filter (fun frame => ¬Terminal frame) = body := by
    rcases hend with ⟨-, hframes, -⟩ | ⟨-, ⟨hframes, -⟩ | ⟨hframes, -⟩⟩
    · rw [hframes, hkeep]
    · rw [hframes, List.filter_append, hkeep, List.filter_cons_of_neg (by simp [Terminal])]
      exact List.append_nil _
    · rw [hframes, List.filter_append, hkeep, List.filter_cons_of_neg (by simp [Terminal])]
      exact List.append_nil _
  have hdiffer : doneFrame ≠ interruptedFrame := by decide +kernel
  rw [← h.clean_iff hjson hn hfree hover]
  constructor
  · intro hconforms frame hframe
    rw [← hbody, List.mem_filter] at hframe
    exact hconforms.clean frame hframe.1 (by simpa using hframe.2)
  · intro hclean
    refine ⟨fun hr => ?_, fun hr => ?_, fun frame hframe hterminal => ?_,
      n, past, rest, h.split, by rw [hbody]; exact h.forwarded, hbad⟩
    · rcases hend with ⟨hr', -⟩ | ⟨-, ⟨hframes, rfl⟩ | ⟨hframes, rfl⟩⟩
      · exact absurd hr' hr
      · exact ⟨body, doneFrame, hframes, hnot, .inl rfl, by simp, by simp [hdiffer]⟩
      · exact ⟨body, interruptedFrame, hframes, hnot, .inr rfl, by simp [hdiffer.symm], by simp⟩
    · rcases hend with ⟨-, hframes, houtcome⟩ | ⟨hr', -⟩
      · exact ⟨by rw [hframes]; exact hnot, houtcome⟩
      · exact absurd hr hr'
    · refine hclean frame ?_
      rw [← hbody, List.mem_filter]
      exact ⟨hframe, by simpa using hterminal⟩

end

/-- **A stream conforms if and only if what it forwards has finite numbers.**  The
upstream ends its stream, fails, or the call is cancelled. -/
theorem stream_conforms_iff (lib : Lib) (aliasName : Str) (hjson : JsonModule lib aliasName)
    (limit me : ℕ) (exchange : Exchange) (hexit : exchange.response.upstream.body.ending ≠ .raise .exit)
    (w w' : World) (r : Except Err Unit) (l : List Entry)
    (hrun : (driven me).Run (sseBody lib aliasName limit me exchange) w [] r w' l) :
    Conforms lib aliasName limit exchange.response.upstream.body r
        (w'.calls me).event.streamOutcome l ↔
      ∀ event, Forwarded lib aliasName limit exchange.response.upstream.body event →
        FiniteEvent lib aliasName event := by
  have hend := sseBody_ends hrun
  have hparts : ∀ n, ∃ past rest body, Parts lib aliasName limit
      (eventEnd.split (exchange.response.upstream.body.chunks.take n).flatten).1 past rest body :=
    fun _ => exists_parts _
  cases r with
  | ok u =>
    rcases hend with ⟨n, m, hn, hfree, hdone, hat⟩ | ⟨n, m, e, hn, hfree, hraised, hat⟩
    · obtain ⟨past, rest, body, h⟩ := hparts n
      have hover : Over lib aliasName limit exchange.response.upstream.body n := .inl ⟨_, hdone⟩
      have hstop := h.stop
      rw [relayed] at hdone
      rw [hdone] at hstop
      refine h.conforms_iff hjson hn hfree hover (.inr ⟨(by rintro ⟨⟩), .inl ⟨?_, hat.outcome⟩⟩) ?_
      · rw [hat.frames]
        exact hstop.1
      · rw [hat.outcome]
        rintro ⟨⟩
    · obtain ⟨past, rest, body, h⟩ := hparts n
      have hstop := h.stop
      -- what was forwarded, and what the next event did if it interrupted the stream
      have hbody : (relayed lib aliasName limit (exchange.response.upstream.body.chunks.take n)).frames =
          body ∧ ∀ event ∈ rest.head?, ∃ e, (judge lib aliasName limit event).2 = .refuse e := by
        rcases hraised with ⟨e', hbad, -⟩ | ⟨⟨hnone, -⟩, -⟩ | ⟨hnone, -⟩
        · rw [relayed] at hbad
          rw [hbad] at hstop
          obtain ⟨hframes, event, hevent, hrefuse⟩ := hstop
          refine ⟨hframes, fun event' hevent' => ?_⟩
          obtain rfl := Option.mem_unique hevent hevent'
          exact hrefuse
        · rw [relayed] at hnone
          rw [hnone] at hstop
          obtain ⟨rfl, hframes⟩ := hstop
          exact ⟨hframes, (by rintro _ ⟨⟩)⟩
        · rw [relayed] at hnone
          rw [hnone] at hstop
          obtain ⟨rfl, hframes⟩ := hstop
          exact ⟨hframes, (by rintro _ ⟨⟩)⟩
      refine h.conforms_iff hjson hn hfree hraised.over (.inr ⟨(by rintro ⟨⟩), .inr ⟨?_, hat.outcome⟩⟩)
        fun _ => hbody.2
      rw [hat.frames, hbody.1]
  | error e =>
    obtain ⟨hexc, n, m, hn, hfree, hraised, hat⟩ := hend
    obtain ⟨past, rest, body, h⟩ := hparts n
    have hover := hraised.over
    rcases hraised with ⟨e', -, rfl⟩ | ⟨-, rfl⟩ | ⟨hnone, -, -, hending⟩
    · exact absurd rfl (hexc e')
    · exact absurd rfl (hexc _)
    · have hcancelled : e = .cancelled := by
        cases e with
        | exc e => exact absurd rfl (hexc e)
        | cancelled => rfl
        | exit =>
          split at hending
          · cases hending
          · rename_i e' heof
            exact absurd (heof.trans (congrArg Ending.raise hending.symm)) hexit
      subst hcancelled
      have hstop := h.stop
      rw [relayed] at hnone
      rw [hnone] at hstop
      refine h.conforms_iff hjson hn hfree hover (.inl ⟨rfl, ?_, hat.outcome⟩) ?_
      · rw [hat.frames]
        exact hstop.2
      · rw [hat.outcome]
        rintro ⟨⟩

namespace Demo

/-- An event whose number overflows, and what it is forwarded as. -/
def overflow : Bytes := encode "data: \x7b\"a\":1e999\x7d\n\n".toList

/-- The text it is forwarded as. -/
def infinity : Text := "data: \x7b\"a\":Infinity\x7d\n\n".toList

/-- An event of the upstream's own model. -/
def renamed : Bytes := encode "data: \x7b\"model\":\"x\"\x7d\n\n".toList

end Demo

/-- **A frame that is no JSON**: the upstream sends `1e999`, the gateway `Infinity`. -/
theorem stream_not_conforming : JsonModule Demo.json (lit "m") ∧
    (driven 0).Run (sseBody Demo.json (lit "m") maxResponse 0 (Demo.exchange [Demo.overflow, doneFrame]))
      Application.Demo.world [] (Demo.relayRun Demo.json [Demo.overflow, doneFrame]).1
      (Demo.relayRun Demo.json [Demo.overflow, doneFrame]).2.1
      (Demo.relayRun Demo.json [Demo.overflow, doneFrame]).2.2 ∧
    ¬Conforms Demo.json (lit "m") maxResponse
      (Demo.exchange [Demo.overflow, doneFrame]).response.upstream.body
      (Demo.relayRun Demo.json [Demo.overflow, doneFrame]).1
      (((Demo.relayRun Demo.json [Demo.overflow, doneFrame]).2.1.calls 0).event.streamOutcome)
      (Demo.relayRun Demo.json [Demo.overflow, doneFrame]).2.2 := by
  refine ⟨Demo.json_module, Demo.relayRun_run _ _, fun h => ?_⟩
  have hmem : encode Demo.infinity ∈ frames (Demo.relayRun Demo.json [Demo.overflow, doneFrame]).2.2 := by
    decide +kernel
  have hpayload : payloads Demo.infinity = ["\x7b\"a\":Infinity\x7d".toList] := by decide +kernel
  obtain ⟨text, htext, hclean⟩ := h.clean _ hmem (by decide +kernel)
  obtain rfl := encode_injective htext
  rw [hpayload] at hclean
  rcases hclean with hempty | ⟨payload, value, hone, hreads, -⟩
  · exact absurd (hempty _ (List.mem_singleton_self _)) (by decide +kernel)
  · obtain rfl := List.singleton_inj.1 hone
    cases hreads

/-- A stream whose event is renamed conforms. -/
theorem stream_conforms_renamed : Conforms Demo.json (lit "m") maxResponse
    (Demo.exchange [Demo.renamed, doneFrame]).response.upstream.body
    (Demo.relayRun Demo.json [Demo.renamed, doneFrame]).1
    (((Demo.relayRun Demo.json [Demo.renamed, doneFrame]).2.1.calls 0).event.streamOutcome)
    (Demo.relayRun Demo.json [Demo.renamed, doneFrame]).2.2 := by
  refine (stream_conforms_iff Demo.json (lit "m") Demo.json_module maxResponse 0
    (Demo.exchange [Demo.renamed, doneFrame]) nofun Application.Demo.world _ _ _
    (Demo.relayRun_run _ _)).2 ?_
  rintro event ⟨n, past, rest, frame, hn, -, hsplit, -, -⟩ others value hparse
  have hevents : ∀ n ≤ 2, (eventEnd.split ([Demo.renamed, doneFrame].take n).flatten).1 <+:
      [encode "data: \x7b\"model\":\"x\"\x7d".toList, encode "data: [DONE]".toList] := by
    decide +kernel
  have hmem : event ∈ [encode "data: \x7b\"model\":\"x\"\x7d".toList, encode "data: [DONE]".toList] :=
    (hevents n hn).subset (hsplit ▸ by simp)
  simp only [List.mem_cons, List.not_mem_nil, or_false] at hmem
  rcases hmem with rfl | rfl
  · have hobject : parseEvent Demo.json (lit "m") (encode "data: \x7b\"model\":\"x\"\x7d".toList) =
        .ok (.object [] [(lit "model", .str (lit "m"))]) := by
      rfl
    obtain ⟨-, rfl⟩ := Parsed.object.inj (Except.ok.inj (hobject.symm.trans hparse))
    decide +kernel
  · have hdone : parseEvent Demo.json (lit "m") (encode "data: [DONE]".toList) = .ok .done := by rfl
    cases hdone.symm.trans hparse

end Ingress
end SwitchyardGateway
