/-
# The cuts of a stream do not matter

An upstream stream arrives in chunks that have nothing to do with its events.
`batch` is what the whole of its bytes comes to: the frames of its complete
events up to the first `[DONE]` or bad event, then the frame of an interruption
if there was one.  `sseBody_batch` proves that every run of `sse_body` comes to
that, as long as it is not stopped for keeping too many bytes, and
`chunking_irrelevant` that two ways of cutting the same bytes therefore emit the
same frames, outcome and usage.  No event is held back either: whenever the
generator asks for the next chunk, it has emitted the frames of every event that
is complete by then.
-/

import SwitchyardGateway.Ingress.Relay

namespace SwitchyardGateway
namespace Ingress

open Coop Coop.Discipline Python Application Wire

/-- What a run of `sse_body` comes to; an outcome that is not recorded is `none`. -/
structure Batch where
  frames : List Bytes
  usage : Option Payload
  outcome : Option Outcome
  result : Except Err Unit

/-- What a stream comes to, from all of its bytes and how they end. -/
def batch (lib : Lib) (aliasName : Str) (limit : ℕ) (bytes : Bytes) (ending : Ending) : Batch :=
  let r := relay lib aliasName limit (eventEnd.split bytes).1
  match r.stop, ending with
  | some .done, _ => ⟨r.frames, r.usage, some .completed, .ok ()⟩
  | some (.bad _), _ | none, .eof | none, .raise (.exc _) =>
    ⟨r.frames ++ [interruptedFrame], r.usage, some .interrupted, .ok ()⟩
  | none, .raise .cancelled => ⟨r.frames, r.usage, some .cancelled, .error .cancelled⟩
  | none, .raise .exit => ⟨r.frames, r.usage, none, .error .exit⟩

variable {lib : Lib} {aliasName : Str} {limit me : ℕ}

theorem batch_of_done {bytes : Bytes} {ending : Ending}
    (h : (relay lib aliasName limit (eventEnd.split bytes).1).stop = some .done) :
    batch lib aliasName limit bytes ending =
      ⟨(relay lib aliasName limit (eventEnd.split bytes).1).frames,
        (relay lib aliasName limit (eventEnd.split bytes).1).usage, some .completed, .ok ()⟩ := by
  simp only [batch, h]

theorem batch_of_bad {bytes : Bytes} {ending : Ending} {e : Exc}
    (h : (relay lib aliasName limit (eventEnd.split bytes).1).stop = some (.bad e)) :
    batch lib aliasName limit bytes ending =
      ⟨(relay lib aliasName limit (eventEnd.split bytes).1).frames ++ [interruptedFrame],
        (relay lib aliasName limit (eventEnd.split bytes).1).usage, some .interrupted, .ok ()⟩ := by
  simp only [batch, h]

/-- Only an interruption adds a frame. -/
theorem batch_frames {bytes : Bytes} {ending : Ending}
    (h : (batch lib aliasName limit bytes ending).outcome ≠ some .interrupted) :
    (batch lib aliasName limit bytes ending).frames =
      (relay lib aliasName limit (eventEnd.split bytes).1).frames := by
  cases hstop : (relay lib aliasName limit (eventEnd.split bytes).1).stop with
  | some stop =>
    cases stop with
    | done => rw [batch_of_done hstop]
    | bad e =>
      rw [batch_of_bad hstop] at h
      exact absurd rfl h
  | none =>
    cases ending with
    | eof => simp [batch, hstop] at h
    | raise e =>
      cases e with
      | exc e => simp [batch, hstop] at h
      | cancelled => simp only [batch, hstop]
      | exit => simp only [batch, hstop]

/-- A stream no longer than the limit never has too many bytes pending. -/
theorem unclogged_of_length {chunks : List Bytes} (h : chunks.flatten.length ≤ limit) (n : ℕ) :
    Unclogged lib aliasName limit chunks n := by
  intro k _ hclogged
  have hrest := Terminator.split_rest_length_le (t := eventEnd) (chunks.take k).flatten
  have htake : (chunks.take k).flatten.length ≤ chunks.flatten.length := by
    conv_rhs => rw [← List.take_append_drop k chunks, List.flatten_append, List.length_append]
    omega
  have hlong := hclogged.2
  rw [pending] at hlong
  omega

/-- What has been relayed of a stream that was stopped is all of it. -/
theorem relayed_take {chunks : List Bytes} {n : ℕ} {stop : Stop}
    (h : (relayed lib aliasName limit (chunks.take n)).stop = some stop) :
    relayed lib aliasName limit (chunks.take n) = relayed lib aliasName limit chunks := by
  have hall : relayed lib aliasName limit (chunks.take n ++ chunks.drop n) = _ := relayed_of_stop h
  rw [List.take_append_drop] at hall
  exact hall.symm

/-- The log of a run says where every read stood. -/
theorem Prompt.of_suffix {chunks : List Bytes} {l : List Entry} (h : Prompt lib aliasName limit chunks l)
    {st : Entry} {l₀ : List Entry} (hsuffix : st :: l₀ <:+ l) (hread : isRead st = true) :
    frames l₀ = (relayed lib aliasName limit (chunks.take (reads l₀))).frames := by
  induction l with
  | nil => cases List.suffix_nil.1 hsuffix
  | cons st' l ih =>
    rcases List.suffix_cons_iff.1 hsuffix with heq | hsuffix
    · obtain ⟨rfl, rfl⟩ := List.cons.inj heq
      exact (h.1 hread).1
    · exact ih h.2 hsuffix

/-- A run has come to a batch: from the call as it stood in `w` to the call as it
stands in `w'`. -/
structure CameTo (b : Batch) (me : ℕ) (w w' : World) (r : Except Err Unit) (l : List Entry) : Prop where
  frames : frames l = b.frames
  usage : (w'.calls me).event.usage = b.usage.or (w.calls me).event.usage
  outcome : (w'.calls me).event.streamOutcome = b.outcome.or (w.calls me).event.streamOutcome
  result : r = b.result

/-- **A run comes to the batch of its bytes**, if it never keeps too many. -/
theorem sseBody_batch {exchange : Exchange} {stream : Stream} {w w' : World} {r : Except Err Unit}
    {l : List Entry} (hstream : exchange.response.upstream.body = stream)
    (hfree : Unclogged lib aliasName limit stream.chunks (stream.chunks.length + 1))
    (hrun : (driven me).Run (sseBody lib aliasName limit me exchange) w [] r w' l) :
    CameTo (batch lib aliasName limit stream.chunks.flatten stream.ending) me w w' r l ∧
      Prompt lib aliasName limit stream.chunks l := by
  have hend := sseBody_ends hrun
  rw [hstream] at hend
  have hrelayed : relay lib aliasName limit (eventEnd.split stream.chunks.flatten).1 =
      relayed lib aliasName limit stream.chunks := rfl
  have hall : stream.chunks.take stream.chunks.length = stream.chunks := List.take_length
  cases r with
  | ok u =>
    rcases hend with ⟨n, m, hn, -, hstop, hat⟩ | ⟨n, m, e, hn, -, hraised, hat⟩
    · have heq := relayed_take hstop
      rw [heq] at hstop hat
      refine ⟨?_, hat.prompt⟩
      simp only [batch, hrelayed, hstop]
      exact ⟨hat.frames, hat.usage, hat.outcome, rfl⟩
    · refine ⟨?_, hat.prompt⟩
      rcases hraised with ⟨e', hstop, -⟩ | ⟨hclogged, -⟩ | ⟨hstop, rfl, -, hending⟩
      · have heq := relayed_take hstop
        rw [heq] at hstop hat
        simp only [batch, hrelayed, hstop]
        exact ⟨hat.frames, hat.usage, hat.outcome, rfl⟩
      · exact absurd hclogged (hfree n (by omega))
      · rw [hall] at hstop hat
        cases heof : stream.ending with
        | eof =>
          simp only [batch, hrelayed, hstop]
          exact ⟨hat.frames, hat.usage, hat.outcome, rfl⟩
        | raise e' =>
          rw [heof] at hending
          obtain rfl : .exc e = e' := hending
          simp only [batch, hrelayed, hstop]
          exact ⟨hat.frames, hat.usage, hat.outcome, rfl⟩
  | error e =>
    obtain ⟨hexc, n, m, hn, -, hraised, hat⟩ := hend
    refine ⟨?_, hat.prompt⟩
    rcases hraised with ⟨e', -, rfl⟩ | ⟨-, rfl⟩ | ⟨hstop, rfl, -, hending⟩
    · exact absurd rfl (hexc e')
    · exact absurd rfl (hexc _)
    · rw [hall] at hstop hat
      cases heof : stream.ending with
      | eof =>
        rw [heof] at hending
        exact absurd hending (hexc _)
      | raise e' =>
        rw [heof] at hending
        obtain rfl : e = e' := hending
        cases e with
        | exc e => exact absurd rfl (hexc e)
        | cancelled =>
          simp only [batch, hrelayed, hstop]
          exact ⟨hat.frames, hat.usage, hat.outcome, rfl⟩
        | exit =>
          simp only [batch, hrelayed, hstop]
          exact ⟨hat.frames, hat.usage, hat.outcome, rfl⟩

/-- **Two ways of cutting a stream come to the same**: the same frames, end,
outcome and usage, and neither holds an event back.  Neither run is stopped for
keeping too many bytes. -/
theorem chunking_irrelevant (lib : Lib) (aliasName : Str) (limit me : ℕ) (exchange exchange' : Exchange)
    (w w₁ w₂ : World) (r r' : Except Err Unit) (l l' : List Entry)
    (hbytes : exchange.response.upstream.body.chunks.flatten =
      exchange'.response.upstream.body.chunks.flatten)
    (hending : exchange.response.upstream.body.ending = exchange'.response.upstream.body.ending)
    (hfree : Unclogged lib aliasName limit exchange.response.upstream.body.chunks
      (exchange.response.upstream.body.chunks.length + 1))
    (hfree' : Unclogged lib aliasName limit exchange'.response.upstream.body.chunks
      (exchange'.response.upstream.body.chunks.length + 1))
    (hrun : (driven me).Run (sseBody lib aliasName limit me exchange) w [] r w₁ l)
    (hrun' : (driven me).Run (sseBody lib aliasName limit me exchange') w [] r' w₂ l') :
    r = r' ∧ frames l = frames l' ∧
      (w₁.calls me).event.streamOutcome = (w₂.calls me).event.streamOutcome ∧
      (w₁.calls me).event.usage = (w₂.calls me).event.usage ∧
      frames l = (batch lib aliasName limit exchange.response.upstream.body.chunks.flatten
        exchange.response.upstream.body.ending).frames ∧
      ∀ st l₀, st :: l₀ <:+ l → isRead st = true → frames l₀ = (relay lib aliasName limit
        (eventEnd.split (exchange.response.upstream.body.chunks.take (reads l₀)).flatten).1).frames := by
  obtain ⟨h, hprompt⟩ := sseBody_batch rfl hfree hrun
  obtain ⟨h', -⟩ := sseBody_batch rfl hfree' hrun'
  rw [← hbytes, ← hending] at h'
  refine ⟨h.result.trans h'.result.symm, h.frames.trans h'.frames.symm, h.outcome.trans h'.outcome.symm,
    h.usage.trans h'.usage.symm, h.frames, fun st l₀ hsuffix hread => ?_⟩
  exact hprompt.of_suffix hsuffix hread

namespace Demo

/-- `: hi`, a blank line and `data: [DONE]`, cut as given. -/
def exchange (chunks : List Bytes) : Exchange :=
  ⟨⟨0, ⟨200, [(lit "content-type", lit "text/event-stream")], ⟨chunks, .eof⟩⟩⟩, 0, 0⟩

/-- The surroundings of a stream: every frame is taken. -/
def surroundings (l : List Entry) (q : Call) : ℚ × Answer q :=
  (Application.Demo.now l,
    Application.Demo.answer (fun _ => .ok (Application.Demo.upstream 200)) (.ok ()) (Application.Demo.now l) q)

theorem surroundings_taken (l : List Entry) (q : Call) :
    Taken ⟨(surroundings l q).1, q, (surroundings l q).2⟩ := by
  cases q <;> trivial

/-- The run of `sse_body` over some chunks. -/
def relayRun (lib : Lib) (chunks : List Bytes) : Except Err Unit × World × List Entry :=
  exec surroundings (sseBody lib (lit "m") maxResponse 0 (exchange chunks)) Application.Demo.world []

theorem relayRun_run (lib : Lib) (chunks : List Bytes) :
    (driven 0).Run (sseBody lib (lit "m") maxResponse 0 (exchange chunks)) Application.Demo.world []
      (relayRun lib chunks).1 (relayRun lib chunks).2.1 (relayRun lib chunks).2.2 :=
  run_of_exec surroundings surroundings_taken rfl

end Demo

/-- A comment and `[DONE]`, whole and cut inside the blank line. -/
theorem chunking_irrelevant_blank_line :
    frames (Demo.relayRun Application.Demo.lib
      [[58, 32, 104, 105, 13, 10, 13, 10] ++ doneFrame]).2.2 =
    frames (Demo.relayRun Application.Demo.lib
      [[58, 32, 104, 105, 13], [], [10, 13], [10] ++ doneFrame]).2.2 ∧
    frames (Demo.relayRun Application.Demo.lib
      [[58, 32, 104, 105, 13, 10, 13, 10] ++ doneFrame]).2.2 = [[58, 32, 104, 105, 10, 10], doneFrame] := by
  have h := chunking_irrelevant Application.Demo.lib (lit "m") maxResponse 0
    (Demo.exchange [[58, 32, 104, 105, 13, 10, 13, 10] ++ doneFrame])
    (Demo.exchange [[58, 32, 104, 105, 13], [], [10, 13], [10] ++ doneFrame])
    Application.Demo.world _ _ _ _ _ _ (by decide) rfl (unclogged_of_length (by decide) _)
    (unclogged_of_length (by decide) _) (Demo.relayRun_run _ _) (Demo.relayRun_run _ _)
  refine ⟨h.2.1, h.2.2.2.2.1.trans ?_⟩
  decide +kernel

end Ingress
end SwitchyardGateway
