/-
# What a stream is relayed as

The reference for `sse_body` and the proof that the generator meets it.

`judge` says what becomes of one event: the frame it is forwarded as, the end of
the stream, or the exception that interrupts it.  `relay` goes through a list of
events until one of them stops it, and `relayed` takes the complete events of the
bytes received so far (`Terminator.split`), however these were cut into chunks.

`wp_sseLoop` is the rule of the generator's `try`: wherever it ends, it has
emitted exactly the frames of `relayed` for the chunks it read, and captured
exactly their usage.  The log keeps more: whenever the generator asked for its
next chunk, it had emitted exactly the frames of the chunks before (`Prompt`).
-/

import SwitchyardGateway.Application.Ledger
import SwitchyardGateway.Application.Rules
import SwitchyardGateway.Ingress.Sse

namespace SwitchyardGateway
namespace Ingress

open Coop Coop.Discipline Python Application Wire

/-! ### The reference -/

/-- What becomes of an event. -/
inductive Verdict where
  | forward (frame : Bytes)
  | done
  | refuse (e : Exc)

/-- Why the events after it are not looked at. -/
inductive Stop where
  | done
  | bad (e : Exc)

/-- What a list of events is relayed as: the frames, the usage captured last, and
what stopped it, if anything did. -/
structure Relay where
  frames : List Bytes
  usage : Option Payload
  stop : Option Stop

/-- One list of events after another. -/
def Relay.append (r s : Relay) : Relay :=
  match r.stop with
  | some _ => r
  | none => ⟨r.frames ++ s.frames, s.usage.or r.usage, s.stop⟩

section

variable (lib : Lib) (aliasName : Str) (limit : ℕ)

/-- The usage an event reports and what becomes of it. -/
def judge (frame : Bytes) : Option Payload × Verdict :=
  if limit < frame.length then (none, .refuse (.gateway "upstream_event_too_large" 502))
  else
    match parseEvent lib aliasName frame with
    | .error e => (none, .refuse e)
    | .ok .done => (none, .done)
    | .ok (.plain lines) => (none, .forward (frameOf lines))
    | .ok (.object others value) =>
      (usage (get value "usage"),
        match lib.dumps (.obj value) with
        | .ok text => .forward (frameOf (others ++ [dataField ++ ' ' :: text]))
        | .error e => .refuse e)

/-- What one event is relayed as. -/
def relayOne (event : Bytes) : Relay :=
  match judge lib aliasName limit event with
  | (counts, .forward frame) => ⟨[frame], counts, none⟩
  | (counts, .done) => ⟨[doneFrame], counts, some .done⟩
  | (counts, .refuse e) => ⟨[], counts, some (.bad e)⟩

/-- What a list of events is relayed as. -/
def relay : List Bytes → Relay
  | [] => ⟨[], none, none⟩
  | event :: events => (relayOne lib aliasName limit event).append (relay events)

/-- What the complete events of some chunks are relayed as. -/
def relayed (chunks : List Bytes) : Relay := relay lib aliasName limit (eventEnd.split chunks.flatten).1

/-- The bytes of some chunks that belong to no complete event. -/
def pending (chunks : List Bytes) : Bytes := (eventEnd.split chunks.flatten).2

/-- More bytes are pending than may be kept, and nothing has stopped the stream. -/
def Clogged (chunks : List Bytes) : Prop :=
  (relayed lib aliasName limit chunks).stop = none ∧ limit < (pending chunks).length

end

variable {lib : Lib} {aliasName : Str} {limit me : ℕ}

/-! ### Composing relays -/

@[simp] theorem Relay.append_of_stop {r s : Relay} {stop : Stop} (h : r.stop = some stop) :
    r.append s = r := by
  rw [Relay.append, h]

@[simp] theorem Relay.append_of_none {r s : Relay} (h : r.stop = none) :
    r.append s = ⟨r.frames ++ s.frames, s.usage.or r.usage, s.stop⟩ := by
  rw [Relay.append, h]

theorem Relay.append_assoc (r s t : Relay) : (r.append s).append t = r.append (s.append t) := by
  cases hr : r.stop with
  | some stop => rw [append_of_stop hr, append_of_stop hr, append_of_stop hr]
  | none =>
    cases hs : s.stop with
    | some stop =>
      have hrs : (r.append s).stop = some stop := by rw [append_of_none hr]; exact hs
      rw [append_of_stop hrs, append_of_stop hs]
    | none =>
      have hrs : (r.append s).stop = none := by rw [append_of_none hr]; exact hs
      rw [append_of_none hrs, append_of_none hs, append_of_none hr, append_of_none hr,
        List.append_assoc, Option.or_assoc]

theorem relay_append (events events' : List Bytes) :
    relay lib aliasName limit (events ++ events') =
      (relay lib aliasName limit events).append (relay lib aliasName limit events') := by
  induction events with
  | nil =>
    rw [List.nil_append, relay, Relay.append_of_none rfl]
    simp only [List.nil_append, Option.or_none]
  | cons event events ih => rw [List.cons_append, relay, relay, ih, Relay.append_assoc]

/-- **One more chunk** adds what its events, together with the pending bytes, are
relayed as. -/
theorem relayed_append (chunks : List Bytes) (chunk : Bytes) :
    relayed lib aliasName limit (chunks ++ [chunk]) = (relayed lib aliasName limit chunks).append
      (relay lib aliasName limit (eventEnd.split (pending chunks ++ chunk)).1) := by
  rw [relayed, List.flatten_concat, Terminator.split_append, relay_append]
  rfl

theorem pending_append (chunks : List Bytes) (chunk : Bytes) :
    pending (chunks ++ [chunk]) = (eventEnd.split (pending chunks ++ chunk)).2 := by
  rw [pending, List.flatten_concat, Terminator.split_append]
  rfl

/-- A stream once stopped stays as it is. -/
theorem relayed_of_stop {chunks chunks' : List Bytes} {stop : Stop}
    (h : (relayed lib aliasName limit chunks).stop = some stop) :
    relayed lib aliasName limit (chunks ++ chunks') = relayed lib aliasName limit chunks := by
  have hsplit := Terminator.split_append (t := eventEnd) chunks.flatten chunks'.flatten
  rw [relayed, List.flatten_append, hsplit, relay_append]
  exact Relay.append_of_stop h

/-! ### The log of a generator -/

/-- The frame a step yields. -/
def yielded? : Entry → Option Bytes
  | ⟨_, .yield frame, _⟩ => some frame
  | _ => none

/-- The frames yielded, in order. -/
def frames (l : List Entry) : List Bytes := (l.filterMap yielded?).reverse

/-- A step that waits for a chunk. -/
def isRead : Entry → Bool
  | ⟨_, .read _, _⟩ => true
  | _ => false

/-- How often a chunk was waited for. -/
def reads (l : List Entry) : ℕ := l.countP isRead

/-- The framework takes every frame that is yielded. -/
def Taken : Entry → Prop
  | ⟨_, .yield _, resumed⟩ => resumed = true
  | _ => True

instance : DecidablePred Taken := fun st => by
  obtain ⟨_, q, a⟩ := st
  cases q <;> unfold Taken <;> infer_instance

/-- The discipline of a call that others leave alone and whose frames are all
taken. -/
def driven (me : ℕ) : Discipline World Call Answer (List Entry) :=
  alone (fun w w' => w'.calls me = w.calls me) fun _ st => Taken st

/-- Whenever a chunk was waited for, exactly the frames of the chunks before it
had been emitted, and none of these had stopped the stream. -/
def Prompt (lib : Lib) (aliasName : Str) (limit : ℕ) (chunks : List Bytes) : List Entry → Prop
  | [] => True
  | st :: l =>
    (isRead st = true → frames l = (relayed lib aliasName limit (chunks.take (reads l))).frames ∧
      (relayed lib aliasName limit (chunks.take (reads l))).stop = none) ∧ Prompt lib aliasName limit chunks l

@[simp] theorem frames_cons (st : Entry) (l : List Entry) :
    frames (st :: l) = frames l ++ (yielded? st).toList := by
  cases h : yielded? st <;> simp [frames, h]

/-! ### One run of the loop -/

/-- Where the generator has got to: `n` chunks waited for, the frames `fs`
emitted, the usage and the outcome recorded. -/
structure At (lib : Lib) (aliasName : Str) (limit me : ℕ) (chunks : List Bytes) (n : ℕ)
    (fs : List Bytes) (counts : Option Payload) (outcome : Option Outcome) (w : World) (l : List Entry) :
    Prop where
  frames : frames l = fs
  reads : reads l = n
  prompt : Prompt lib aliasName limit chunks l
  usage : (w.calls me).event.usage = counts
  outcome : (w.calls me).event.streamOutcome = outcome

/-- The generator has relayed `r` and goes on, or has returned at `[DONE]`. -/
def Moved (lib : Lib) (aliasName : Str) (limit me : ℕ) (chunks : List Bytes) (n : ℕ) (fs : List Bytes)
    (counts : Option Payload) (outcome : Option Outcome) (r : Relay) : Bool → World → List Entry → Prop
  | true => fun w l => r.stop = none ∧
    At lib aliasName limit me chunks n (fs ++ r.frames) (r.usage.or counts) outcome w l
  | false => fun w l => r.stop = some .done ∧
    At lib aliasName limit me chunks n (fs ++ r.frames) (r.usage.or counts) (some .completed) w l

/-- The generator has relayed `r`, and a bad event has raised. -/
def Interrupted (lib : Lib) (aliasName : Str) (limit me : ℕ) (chunks : List Bytes) (n : ℕ)
    (fs : List Bytes) (counts : Option Payload) (outcome : Option Outcome) (r : Relay) (e : Err)
    (w : World) (l : List Entry) : Prop :=
  ∃ e', e = .exc e' ∧ r.stop = some (.bad e') ∧
    At lib aliasName limit me chunks n (fs ++ r.frames) (r.usage.or counts) outcome w l

section

variable {chunks : List Bytes} {n : ℕ} {fs : List Bytes} {counts : Option Payload}
  {outcome : Option Outcome} {w w' : World} {l : List Entry}

/-- Steps that neither yield nor wait for a chunk, and rewrites of other fields. -/
theorem At.step (h : At lib aliasName limit me chunks n fs counts outcome w l)
    {st : Entry} (hyield : yielded? st = none) (hread : isRead st = false) :
    At lib aliasName limit me chunks n fs counts outcome w (st :: l) where
  frames := by simp [hyield, h.frames]
  reads := by
    rw [Ingress.reads, List.countP_cons, hread]
    exact h.reads
  prompt := ⟨by simp [hread], h.prompt⟩
  usage := h.usage
  outcome := h.outcome

theorem At.congr (h : At lib aliasName limit me chunks n fs counts outcome w l)
    (husage : (w'.calls me).event.usage = (w.calls me).event.usage)
    (houtcome : (w'.calls me).event.streamOutcome = (w.calls me).event.streamOutcome) :
    At lib aliasName limit me chunks n fs counts outcome w' l :=
  ⟨h.frames, h.reads, h.prompt, husage.trans h.usage, houtcome.trans h.outcome⟩

theorem at_neutral : Neutral (driven me) me (· = .clock)
    (fun f => ∀ ev, (f ev).usage = ev.usage ∧ (f ev).streamOutcome = ev.streamOutcome)
    (At lib aliasName limit me chunks n fs counts outcome) := by
  refine .of_alone (fun w w' l hcalls h => ?_) (fun w q t a l hq _ h => ?_) fun w f l hf h => ?_
  · exact h.congr (by rw [hcalls]) (by rw [hcalls])
  · subst hq
    exact h.step rfl rfl
  · refine h.congr ?_ ?_ <;> rw [World.setCall_calls_self]
    · exact (hf _).1
    · exact (hf _).2

/-- A frame yielded. -/
theorem wp_yieldFrame {frame : Bytes} {ok : Unit → World → List Entry → Prop}
    {err : Err → World → List Entry → Prop} (h : At lib aliasName limit me chunks n fs counts outcome w l)
    (hok : ∀ w l, At lib aliasName limit me chunks n (fs ++ [frame]) counts outcome w l → ok () w l) :
    (driven me).wp (yieldFrame frame) ok err w l := by
  simp only [yieldFrame, wp_bind, wp_askAwait]
  refine ⟨trivial, ?_⟩
  rintro w₁ l₁ ⟨hcalls, rfl⟩ resumed l₂ ⟨t, htaken, rfl⟩
  obtain rfl : resumed = true := htaken
  have h₁ : At lib aliasName limit me chunks n fs counts outcome w₁ l₁ :=
    h.congr (by rw [hcalls]) (by rw [hcalls])
  refine hok w₁ _ ⟨?_, ?_, ⟨fun hread => ?_, h₁.prompt⟩, h₁.usage, h₁.outcome⟩
  · rw [frames_cons, h₁.frames]
    rfl
  · rw [reads, List.countP_cons]
    exact h₁.reads
  · cases hread

/-- **One event**: what becomes of it is what `judge` says. -/
theorem wp_sseEvent {frame : Bytes} (h : At lib aliasName limit me chunks n fs counts outcome w l) :
    (driven me).wp (sseEvent lib aliasName limit me frame)
      (Moved lib aliasName limit me chunks n fs counts outcome (relayOne lib aliasName limit frame))
      (Interrupted lib aliasName limit me chunks n fs counts outcome
        (relayOne lib aliasName limit frame)) w l := by
  unfold sseEvent
  simp only [wp_bind, wp_ite, wp_throw, lift, wp_ofExcept]
  by_cases hlimit : limit < frame.length
  · have hjudge : relayOne lib aliasName limit frame =
        ⟨[], none, some (.bad (.gateway "upstream_event_too_large" 502))⟩ := by
      simp [relayOne, judge, hlimit]
    rw [if_pos hlimit, hjudge]
    exact ⟨_, rfl, rfl, by simpa using h⟩
  rw [if_neg hlimit]
  cases hparse : parseEvent lib aliasName frame with
  | error e =>
    have hjudge : relayOne lib aliasName limit frame = ⟨[], none, some (.bad e)⟩ := by
      simp [relayOne, judge, hlimit, hparse]
    rw [hjudge]
    exact ⟨e, rfl, rfl, by simpa using h⟩
  | ok parsed =>
    cases parsed with
    | done =>
      have hjudge : relayOne lib aliasName limit frame = ⟨[doneFrame], none, some .done⟩ := by
        simp [relayOne, judge, hlimit, hparse]
      rw [hjudge]
      simp only [Except.mapError, ends_ok, wp_bind, setStreamOutcome, updateEvent, wp_update, wp_pure]
      refine wp_yieldFrame h fun w₁ l₁ h₁ => ⟨rfl, h₁.frames, h₁.reads, h₁.prompt, ?_, by simp⟩
      simpa using h₁.usage
    | plain lines =>
      have hjudge : relayOne lib aliasName limit frame = ⟨[frameOf lines], none, none⟩ := by
        simp [relayOne, judge, hlimit, hparse]
      rw [hjudge]
      simp only [Except.mapError, ends_ok, wp_bind, wp_pure]
      exact wp_yieldFrame h fun w₁ l₁ h₁ => ⟨rfl, by simpa using h₁⟩
    | object others value =>
      simp only [Except.mapError, ends_ok, wp_bind, wp_pure, wp_ofExcept]
      -- the usage is captured before the event is written
      have hnote : (driven me).wp (noteUsage me value) (fun _ => At lib aliasName limit me chunks n fs
          ((usage (get value "usage")).or counts) outcome) (fun _ _ _ => False) w l := by
        unfold noteUsage
        cases husage : usage (get value "usage") with
        | none => exact h
        | some counts' =>
          simp only [updateEvent, wp_update]
          exact ⟨h.frames, h.reads, h.prompt, by simp, by simpa using h.outcome⟩
      refine wp_mono (fun _ w₁ l₁ h₁ => ?_) (fun _ _ _ h => h.elim) hnote
      cases hdumps : lib.dumps (.obj value) with
      | ok text =>
        have hjudge : relayOne lib aliasName limit frame =
            ⟨[frameOf (others ++ [dataField ++ ' ' :: text])], usage (get value "usage"), none⟩ := by
          simp [relayOne, judge, hlimit, hparse, hdumps]
        rw [hjudge]
        exact wp_yieldFrame h₁ fun w₂ l₂ h₂ => ⟨rfl, h₂⟩
      | error e =>
        have hjudge : relayOne lib aliasName limit frame =
            ⟨[], usage (get value "usage"), some (.bad e)⟩ := by
          simp [relayOne, judge, hlimit, hparse, hdumps]
        rw [hjudge]
        exact ⟨e, rfl, rfl, by simpa using h₁⟩

/-- What one part relays after another is what both relay together. -/
theorem at_append {r s : Relay} (hr : r.stop = none) :
    At lib aliasName limit me chunks n (fs ++ r.frames ++ s.frames) (s.usage.or (r.usage.or counts))
      outcome w l = At lib aliasName limit me chunks n (fs ++ (r.append s).frames)
        ((r.append s).usage.or counts) outcome w l := by
  rw [Relay.append_of_none hr, List.append_assoc, Option.or_assoc]

theorem Moved.append {r s : Relay} {more : Bool} (hr : r.stop = none)
    (h : Moved lib aliasName limit me chunks n (fs ++ r.frames) (r.usage.or counts) outcome s more w l) :
    Moved lib aliasName limit me chunks n fs counts outcome (r.append s) more w l := by
  have hstop : (r.append s).stop = s.stop := by rw [Relay.append_of_none hr]
  cases more with
  | true => exact ⟨hstop.trans h.1, at_append hr ▸ h.2⟩
  | false => exact ⟨hstop.trans h.1, at_append hr ▸ h.2⟩

theorem Interrupted.append {r s : Relay} {e : Err} (hr : r.stop = none)
    (h : Interrupted lib aliasName limit me chunks n (fs ++ r.frames) (r.usage.or counts) outcome s e w l) :
    Interrupted lib aliasName limit me chunks n fs counts outcome (r.append s) e w l := by
  have hstop : (r.append s).stop = s.stop := by rw [Relay.append_of_none hr]
  obtain ⟨e', he, hs, hat⟩ := h
  exact ⟨e', he, hstop.trans hs, at_append hr ▸ hat⟩

/-- **The events of a buffer**: they are relayed in order, and what is left is
what holds no complete event. -/
theorem wp_drain {rounds : ℕ} {buffer : Bytes} (hrounds : buffer.length ≤ rounds)
    (h : At lib aliasName limit me chunks n fs counts outcome w l) :
    (driven me).wp (drain lib aliasName limit me rounds buffer)
      (fun r w l => (r.2 = true → r.1 = (eventEnd.split buffer).2) ∧
        Moved lib aliasName limit me chunks n fs counts outcome
          (relay lib aliasName limit (eventEnd.split buffer).1) r.2 w l)
      (Interrupted lib aliasName limit me chunks n fs counts outcome
        (relay lib aliasName limit (eventEnd.split buffer).1)) w l := by
  induction rounds generalizing buffer fs counts w l with
  | zero =>
    obtain rfl : buffer = [] := List.eq_nil_of_length_eq_zero (Nat.le_zero.1 hrounds)
    have hs : eventEnd.search [] = none := rfl
    rw [Terminator.split_none hs]
    exact ⟨fun _ => rfl, rfl, by simpa [relay] using h⟩
  | succ rounds ih =>
    unfold drain
    cases hs : eventEnd.search buffer with
    | none =>
      rw [Terminator.split_none hs]
      exact ⟨fun _ => rfl, rfl, by simpa [relay] using h⟩
    | some p =>
      obtain ⟨frame, rest⟩ := p
      have hlt := Terminator.search_length_lt hs
      rw [Terminator.split_some hs]
      simp only [relay, wp_bind, wp_ite, wp_pure]
      refine wp_mono (fun more w₁ l₁ h₁ => ?_) (fun e w₁ l₁ h₁ => ?_) (wp_sseEvent h)
      · cases more with
        | true =>
          rw [if_pos rfl]
          refine wp_mono (fun _ _ _ h₂ => ⟨h₂.1, h₂.2.append h₁.1⟩) (fun _ _ _ h₂ => h₂.append h₁.1)
            (ih (by omega) h₁.2)
        | false =>
          rw [if_neg (by decide), Relay.append_of_stop h₁.1]
          exact ⟨fun h => Bool.noConfusion h, h₁⟩
      · obtain ⟨e', he, hstop, hat⟩ := h₁
        rw [Relay.append_of_stop hstop]
        exact ⟨e', he, hstop, hat⟩

/-- Waiting for a chunk where the frames so far are those of the chunks so far. -/
theorem At.wait (h : At lib aliasName limit me chunks n fs counts outcome w l)
    (hframes : (relayed lib aliasName limit (chunks.take n)).frames = fs)
    (hstop : (relayed lib aliasName limit (chunks.take n)).stop = none) (t : ℚ) (attempt : ℕ) :
    At lib aliasName limit me chunks (n + 1) fs counts outcome w (⟨t, .read attempt, ()⟩ :: l) where
  frames := by
    rw [frames_cons, h.frames]
    exact List.append_nil _
  reads := by
    have hread : isRead ⟨t, .read attempt, ()⟩ = true := rfl
    rw [Ingress.reads, List.countP_cons, hread, if_pos rfl]
    exact congrArg (· + 1) h.reads
  prompt := by
    refine ⟨fun _ => ?_, h.prompt⟩
    rw [h.reads, h.frames]
    exact ⟨hframes.symm, hstop⟩
  usage := h.usage
  outcome := h.outcome

/-- The first chunks, fewer than `n` of them, leave no more pending than is allowed. -/
def Unclogged (lib : Lib) (aliasName : Str) (limit : ℕ) (chunks : List Bytes) (n : ℕ) : Prop :=
  ∀ k < n, ¬Clogged lib aliasName limit (chunks.take k)

theorem Unclogged.succ {n : ℕ} (h : Unclogged lib aliasName limit chunks n)
    (hn : ¬Clogged lib aliasName limit (chunks.take n)) : Unclogged lib aliasName limit chunks (n + 1) := by
  intro k hk
  rcases Nat.lt_succ_iff_lt_or_eq.1 hk with hk | rfl
  · exact h k hk
  · exact hn

/-- Where the loop has got to between two chunks: `past` is what it has read. -/
def Between (lib : Lib) (aliasName : Str) (limit me : ℕ) (chunks : List Bytes)
    (counts : Option Payload) (outcome : Option Outcome) (rest : List Bytes) (state : Bytes × Bool)
    (w : World) (l : List Entry) : Prop :=
  ∃ past, chunks = past ++ rest ∧ state = (pending past, false) ∧
    Unclogged lib aliasName limit chunks (past.length + 1) ∧
    (relayed lib aliasName limit past).stop = none ∧
    At lib aliasName limit me chunks past.length (relayed lib aliasName limit past).frames
      ((relayed lib aliasName limit past).usage.or counts) outcome w l

/-- Why the `try` of `sse_body` raises, `n` chunks having been read. -/
def Raised (lib : Lib) (aliasName : Str) (limit : ℕ) (stream : Stream) (n : ℕ) (e : Err) : Prop :=
  (∃ e', (relayed lib aliasName limit (stream.chunks.take n)).stop = some (.bad e') ∧ e = .exc e') ∨
  (Clogged lib aliasName limit (stream.chunks.take n) ∧ e = gatewayError "upstream_event_too_large") ∨
  ((relayed lib aliasName limit (stream.chunks.take n)).stop = none ∧ n = stream.chunks.length ∧
    Unclogged lib aliasName limit stream.chunks (n + 1) ∧
    match stream.ending with
    | .eof => e = gatewayError "upstream_stream_incomplete"
    | .raise e' => e = e')

/-- The `try` of `sse_body` returned at `[DONE]`, having relayed what it read. -/
def Completed (lib : Lib) (aliasName : Str) (limit me : ℕ) (stream : Stream) (counts : Option Payload)
    (w : World) (l : List Entry) : Prop :=
  ∃ n m, n ≤ stream.chunks.length ∧ Unclogged lib aliasName limit stream.chunks n ∧
    (relayed lib aliasName limit (stream.chunks.take n)).stop = some .done ∧
    At lib aliasName limit me stream.chunks m (relayed lib aliasName limit (stream.chunks.take n)).frames
      ((relayed lib aliasName limit (stream.chunks.take n)).usage.or counts) (some .completed) w l

/-- The `try` of `sse_body` raised, having relayed what it read. -/
def Failed (lib : Lib) (aliasName : Str) (limit me : ℕ) (stream : Stream) (counts : Option Payload)
    (outcome : Option Outcome) (e : Err) (w : World) (l : List Entry) : Prop :=
  ∃ n m, n ≤ stream.chunks.length ∧ Unclogged lib aliasName limit stream.chunks n ∧
    Raised lib aliasName limit stream n e ∧
    At lib aliasName limit me stream.chunks m (relayed lib aliasName limit (stream.chunks.take n)).frames
      ((relayed lib aliasName limit (stream.chunks.take n)).usage.or counts) outcome w l

/-- One more chunk. -/
theorem wp_sseChunk {stream : Stream} {past rest : List Bytes} {chunk : Bytes}
    (hchunks : stream.chunks = past ++ chunk :: rest)
    (hfree : Unclogged lib aliasName limit stream.chunks (past.length + 1))
    (hstop : (relayed lib aliasName limit past).stop = none)
    (h : At lib aliasName limit me stream.chunks (past.length + 1)
      (relayed lib aliasName limit past).frames ((relayed lib aliasName limit past).usage.or counts)
      outcome w l) :
    (driven me).wp (sseChunk lib aliasName limit me (pending past, false) chunk)
      (fun r w l => if r.2 then Between lib aliasName limit me stream.chunks counts outcome rest r.1 w l
        else r.1.2 = true ∧ Completed lib aliasName limit me stream counts w l)
      (Failed lib aliasName limit me stream counts outcome) w l := by
  have htake : stream.chunks.take (past.length + 1) = past ++ [chunk] := by
    rw [hchunks, List.take_append, List.take_of_length_le (by omega)]
    simp
  have hlength : past.length + 1 ≤ stream.chunks.length := by
    rw [hchunks]
    simp only [List.length_append, List.length_cons]
    omega
  -- what the buffer relays, after what was relayed before, is what all chunks relay
  have hmore : relayed lib aliasName limit (past ++ [chunk]) = _ := relayed_append past chunk
  simp only [sseChunk, wp_bind]
  refine wp_mono (fun r w₁ l₁ h₁ => ?_) (fun e w₁ l₁ h₁ => ?_) (wp_drain (Nat.le_refl _) h)
  · obtain ⟨left, more⟩ := r
    obtain ⟨hleft, hmoved⟩ := h₁
    have hmoved' : Moved _ _ _ _ _ _ [] _ _ _ _ _ _ := Moved.append hstop hmoved
    rw [← hmore] at hmoved'
    cases more with
    | true =>
      obtain rfl : left = pending (past ++ [chunk]) := by rw [pending_append]; exact hleft rfl
      have hat : At lib aliasName limit me stream.chunks (past ++ [chunk]).length
          (relayed lib aliasName limit (past ++ [chunk])).frames
          ((relayed lib aliasName limit (past ++ [chunk])).usage.or counts) outcome w₁ l₁ := by
        rw [List.length_append]
        exact hmoved'.2
      simp only [if_true, wp_bind, wp_ite, wp_throw, wp_pure]
      split
      · rename_i hlong
        refine ⟨past.length + 1, past.length + 1, hlength, hfree, .inr (.inl ⟨?_, rfl⟩), by rw [htake]; exact hmoved'.2⟩
        rw [htake]
        exact ⟨hmoved'.1, hlong⟩
      · rename_i hshort
        have hfree' : Unclogged lib aliasName limit stream.chunks ((past ++ [chunk]).length + 1) := by
          rw [List.length_append]
          refine hfree.succ fun hclogged => hshort ?_
          rw [htake] at hclogged
          exact hclogged.2
        exact ⟨past ++ [chunk], by rw [hchunks, List.append_assoc]; rfl, rfl, hfree', hmoved'.1, hat⟩
    | false =>
      refine ⟨rfl, past.length + 1, past.length + 1, hlength, hfree, ?_, ?_⟩
      · rw [htake]
        exact hmoved'.1
      · rw [htake]
        exact hmoved'.2
  · have hinterrupted : Interrupted _ _ _ _ _ _ [] _ _ _ _ _ _ := Interrupted.append hstop h₁
    obtain ⟨e', he, hbad, hat⟩ := hinterrupted
    rw [← hmore] at hbad hat
    refine ⟨past.length + 1, past.length + 1, hlength, hfree, .inl ⟨e', ?_, he⟩, by rw [htake]; exact hat⟩
    rw [htake]
    exact hbad

/-- **The `try` of `sse_body`** ends at `[DONE]` or with an error, wherever it ends
having relayed exactly the chunks it read. -/
theorem wp_sseLoop {exchange : Exchange}
    (h : At lib aliasName limit me exchange.response.upstream.body.chunks 0 [] counts outcome w l) :
    (driven me).wp (sseLoop lib aliasName limit me exchange)
      (fun _ => Completed lib aliasName limit me exchange.response.upstream.body counts)
      (Failed lib aliasName limit me exchange.response.upstream.body counts outcome) w l := by
  have hempty : Unclogged lib aliasName limit exchange.response.upstream.body.chunks 1 := by
    intro k hk
    obtain rfl : k = 0 := by omega
    exact fun hclogged => absurd hclogged.2 (Nat.not_lt_zero limit)
  simp only [sseLoop, Gateway.body, wp_bind, wp_ite, wp_pure, wp_throw]
  refine wp_bodyFrom (I := Between lib aliasName limit me exchange.response.upstream.body.chunks counts
    outcome) (fun _ _ _ _ _ => trivial) ?_ ?_ _ _ ⟨[], rfl, rfl, hempty, rfl, h⟩
  · rintro chunk rest _ w _ w₁ l _ ⟨past, hchunks, rfl, hfree, hstop, hat⟩ ⟨hcalls, rfl⟩ ⟨t, -, rfl⟩
    have hat₁ : At _ _ _ _ _ _ _ _ _ w₁ l := hat.congr (by rw [hcalls]) (by rw [hcalls])
    have htake : exchange.response.upstream.body.chunks.take past.length = past := by
      rw [hchunks, List.take_left]
    have hwait := hat₁.wait (by rw [htake]) (by rw [htake]; exact hstop) t exchange.response.attempt
    rw [wp_bind]
    refine wp_mono (fun _ w₂ l₂ h₂ => ?_) (fun _ _ _ h => h)
      (at_neutral.noteFirstByte rfl (fun _ _ => ⟨rfl, rfl⟩) exchange chunk hwait)
    refine wp_mono (fun r w₃ l₃ h₃ => ?_) (fun _ _ _ h => h) (wp_sseChunk hchunks hfree hstop h₂)
    obtain ⟨⟨left, returned⟩, more⟩ := r
    cases more with
    | true => exact h₃
    | false =>
      obtain ⟨rfl, hend⟩ : returned = true ∧ _ := h₃
      exact hend
  · rintro _ w _ w₁ l _ ⟨past, hchunks, rfl, hfree, hstop, hat⟩ ⟨hcalls, rfl⟩ ⟨t, -, rfl⟩
    have hall : exchange.response.upstream.body.chunks = past := by rw [hchunks, List.append_nil]
    have hat₁ : At _ _ _ _ _ _ _ _ _ w₁ l := hat.congr (by rw [hcalls]) (by rw [hcalls])
    have htake : exchange.response.upstream.body.chunks.take past.length = past := by
      rw [hall, List.take_length]
    have hwait := hat₁.wait (by rw [htake]) (by rw [htake]; exact hstop) t exchange.response.attempt
    have hfailed : ∀ e, (match exchange.response.upstream.body.ending with
        | .eof => e = gatewayError "upstream_stream_incomplete"
        | .raise e' => e = e') →
        Failed lib aliasName limit me exchange.response.upstream.body counts outcome e w₁
          (⟨t, .read exchange.response.attempt, ()⟩ :: l) := by
      intro e he
      refine ⟨past.length, past.length + 1, by rw [hall], fun k hk => hfree k (by omega),
        .inr (.inr ⟨?_, by rw [hall], hfree, he⟩), ?_⟩
      · rw [htake]
        exact hstop
      · rw [htake]
        exact hwait
    split
    · rename_i heof
      rw [heof] at hfailed
      exact hfailed _ rfl
    · rename_i e heof
      rw [heof] at hfailed
      exact hfailed _ rfl

/-- **How `sse_body` ends**: normally, at `[DONE]` or after the frame of an
interruption, or with the error that is no `Exception`. -/
def BodyEnd (lib : Lib) (aliasName : Str) (limit me : ℕ) (stream : Stream) (counts : Option Payload)
    (outcome : Option Outcome) : Except Err Unit → World → List Entry → Prop
  | .ok _ => fun w l => Completed lib aliasName limit me stream counts w l ∨
    ∃ n m e, n ≤ stream.chunks.length ∧ Unclogged lib aliasName limit stream.chunks n ∧
      Raised lib aliasName limit stream n (.exc e) ∧
      At lib aliasName limit me stream.chunks m
        ((relayed lib aliasName limit (stream.chunks.take n)).frames ++ [interruptedFrame])
        ((relayed lib aliasName limit (stream.chunks.take n)).usage.or counts) (some .interrupted) w l
  | .error e => fun w l => (∀ e', e ≠ .exc e') ∧
    Failed lib aliasName limit me stream counts (if e = .cancelled then some .cancelled else outcome) e w l

/-- Recording the outcome of the stream. -/
theorem At.setStreamOutcome (h : At lib aliasName limit me chunks n fs counts outcome w l)
    (outcome' : Outcome) : At lib aliasName limit me chunks n fs counts (some outcome')
      (w.setCall me fun c => { c with event := { c.event with streamOutcome := some outcome' } }) l :=
  ⟨h.frames, h.reads, h.prompt, by simpa using h.usage, by simp⟩

/-- **The rule of `sse_body`.** -/
theorem wp_sseBody {exchange : Exchange}
    (h : At lib aliasName limit me exchange.response.upstream.body.chunks 0 [] counts outcome w l) :
    (driven me).wp (sseBody lib aliasName limit me exchange)
      (fun _ => BodyEnd lib aliasName limit me exchange.response.upstream.body counts outcome (.ok ()))
      (fun e => BodyEnd lib aliasName limit me exchange.response.upstream.body counts outcome (.error e))
      w l := by
  simp only [sseBody, wp_tryCatch]
  refine wp_mono (fun _ _ _ h => .inl h) (fun e w₁ l₁ h₁ => ?_) (wp_sseLoop h)
  cases e with
  | exc e =>
    obtain ⟨n, m, hn, hfree, hraised, hat⟩ := h₁
    simp only [wp_bind, Ingress.setStreamOutcome, updateEvent, wp_update]
    exact wp_yieldFrame (hat.setStreamOutcome .interrupted) fun w₂ l₂ h₂ =>
      .inr ⟨n, m, e, hn, hfree, hraised, h₂⟩
  | cancelled =>
    obtain ⟨n, m, hn, hfree, hraised, hat⟩ := h₁
    simp only [wp_bind, Ingress.setStreamOutcome, updateEvent, wp_update, wp_throw]
    exact ⟨(by rintro _ ⟨⟩), n, m, hn, hfree, hraised, hat.setStreamOutcome .cancelled⟩
  | exit => exact ⟨(by rintro _ ⟨⟩), h₁⟩

/-- A run of the generator from an empty log. -/
theorem sseBody_ends {exchange : Exchange} {r : Except Err Unit}
    (hrun : (driven me).Run (sseBody lib aliasName limit me exchange) w [] r w' l) :
    BodyEnd lib aliasName limit me exchange.response.upstream.body (w.calls me).event.usage
      (w.calls me).event.streamOutcome r w' l := by
  have hstart : At lib aliasName limit me exchange.response.upstream.body.chunks 0 []
      (w.calls me).event.usage (w.calls me).event.streamOutcome w [] :=
    ⟨rfl, rfl, trivial, rfl, rfl⟩
  exact hrun.result (P := BodyEnd lib aliasName limit me exchange.response.upstream.body
    (w.calls me).event.usage (w.calls me).event.streamOutcome) (wp_sseBody hstart)

end

end Ingress
end SwitchyardGateway
