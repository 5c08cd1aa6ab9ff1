/-
# The outcome of a stream is the truth

The label of a stream is written in three places: `sse_body` writes it on the event
once the frame of `[DONE]` was taken, or when something interrupted it;
`OwnedStream.__call__` has a default for a stream that wrote none; and
`Gateway.finish` takes `completed` back if the close fails.  Whatever the upstream
sends, wherever the framework stops taking frames, and however the close ends, the
record says `completed` if and only if the frame of `[DONE]` was taken and the
upstream closed (`outcome_truthful`).  This is about an exchange of which nothing
was relayed or finished, and `chat` hands over no other.  Of the `json` module it
only needs that the text of an object begins with a brace.
-/

import SwitchyardGateway.Ingress.Answers
import SwitchyardGateway.Ingress.Serving
import SwitchyardGateway.Ingress.Conformance

namespace SwitchyardGateway
namespace Ingress

open Coop Coop.Discipline Python Application

/-! ### What a log says -/

/-- The frame of `[DONE]` is yielded, and the framework asks for the next one: the
send that carries it has returned. -/
def isDone : Entry → Bool
  | ⟨_, .yield frame, resumed⟩ => resumed && frame == doneFrame
  | _ => false

/-- A response is closed, without an error. -/
def isClosed : Entry → Bool
  | ⟨_, .close _, .ok ()⟩ => true
  | _ => false

/-- The framework ends with a `CancelledError`. -/
def isCancelled : Entry → Bool
  | ⟨_, .respond, .error .cancelled⟩ => true
  | _ => false

/-- A `CancelledError` was raised: where the stream waited for the upstream, or by the
framework. -/
def CancelRaised (exchange : Exchange) (l : List Entry) : Prop :=
  (exchange.response.upstream.body.ending = .raise .cancelled ∧
    exchange.response.upstream.body.chunks.length < reads l) ∨ l.any isCancelled = true

/-- One terminal event, and its outcome is what happened. -/
def Truthful (exchange : Exchange) (l : List Entry) : Prop :=
  ∃ event outcome, requests l = [event] ∧ event.outcome = some outcome ∧
    (outcome = .completed ↔ l.any isDone = true ∧ l.any isClosed = true) ∧
    (outcome = .failed ↔ l.any isDone = true ∧ l.any isClosed = false) ∧
    (outcome = .cancelled → CancelRaised exchange l) ∧
    (l.any isDone = false → outcome = .interrupted ∨ outcome = .cancelled)

/-- The discipline of a call that others leave alone, in surroundings that may answer
anything. -/
def lone (me : ℕ) : Discipline World Call Answer (List Entry) :=
  alone (fun w w' => w'.calls me = w.calls me) fun _ _ => True

variable {lib : Lib} {aliasName : Str} {limit me : ℕ}

/-! ### The stream so far -/

/-- A stream that has written `outcome`, after `n` waits for a chunk; `done` says
whether the frame of `[DONE]` was taken. -/
structure Streaming (me : ℕ) (outcome : Option Outcome) (done : Bool) (n : ℕ) (w : World)
    (l : List Entry) : Prop where
  outcome : (w.calls me).event.streamOutcome = outcome
  done : l.any isDone = done
  reads : reads l = n
  label : (w.calls me).outcome = .interrupted
  fresh : (w.calls me).finished = false
  unclosed : l.any isClosed = false
  unrecorded : requests l = []

/-- Questions that leave all of it as it is. -/
def Idle : Call → Prop
  | .clock | .iterate | .respond => True
  | _ => False

section

variable {outcome : Option Outcome} {done : Bool} {n : ℕ} {w w' : World} {l : List Entry}

theorem Streaming.step (h : Streaming me outcome done n w l) {q : Call} (hq : Idle q) (t : ℚ) (a : Answer q) :
    Streaming me outcome done n w (⟨t, q, a⟩ :: l) := by
  obtain ⟨houtcome, hdone, hreads, hlabel, hfresh, hunclosed, hunrecorded⟩ := h
  cases q with
  | clock | iterate | respond =>
    exact ⟨houtcome, hdone, by rw [Ingress.reads, List.countP_cons]; exact hreads, hlabel, hfresh, hunclosed,
      hunrecorded⟩
  | _ => exact hq.elim

theorem Streaming.congr (h : Streaming me outcome done n w l) (hcalls : w'.calls me = w.calls me) :
    Streaming me outcome done n w' l := by
  obtain ⟨houtcome, hdone, hreads, hlabel, hfresh, hunclosed, hunrecorded⟩ := h
  exact ⟨hcalls ▸ houtcome, hdone, hreads, hcalls ▸ hlabel, hcalls ▸ hfresh, hunclosed, hunrecorded⟩

/-- Writes of other fields of the event leave it as it is. -/
theorem streaming_neutral : Neutral (lone me) me Idle (fun f => ∀ ev, (f ev).streamOutcome = ev.streamOutcome)
    (Streaming me outcome done n) := by
  refine .of_alone (fun w w' l hcalls h => h.congr hcalls) (fun w q t a l hq _ h => h.step hq t a)
    fun w f l hf h => ?_
  obtain ⟨houtcome, hdone, hreads, hlabel, hfresh, hunclosed, hunrecorded⟩ := h
  refine ⟨?_, hdone, hreads, ?_, ?_, hunclosed, hunrecorded⟩ <;> rw [World.setCall_calls_self]
  · exact (hf _).trans houtcome
  · exact hlabel
  · exact hfresh

theorem Streaming.setStreamOutcome (h : Streaming me outcome done n w l) (outcome' : Outcome) :
    Streaming me (some outcome') done n
      (w.setCall me fun c => { c with event := { c.event with streamOutcome := some outcome' } }) l := by
  obtain ⟨-, hdone, hreads, hlabel, hfresh, hunclosed, hunrecorded⟩ := h
  refine ⟨?_, hdone, hreads, ?_, ?_, hunclosed, hunrecorded⟩ <;> rw [World.setCall_calls_self]
  · exact hlabel
  · exact hfresh

/-- A frame is taken, or the generator ends where it stands. -/
theorem wp_yieldFrame_streaming {frame : Bytes} {ok : Unit → World → List Entry → Prop}
    {err : Err → World → List Entry → Prop} (h : Streaming me outcome false n w l)
    (hok : ∀ w l, Streaming me outcome (frame == doneFrame) n w l → ok () w l)
    (herr : ∀ w l, Streaming me outcome false n w l → err .exit w l) :
    (lone me).wp (yieldFrame frame) ok err w l := by
  simp only [yieldFrame, wp_bind, wp_askAwait]
  refine ⟨trivial, ?_⟩
  rintro w₁ l₁ ⟨hcalls, rfl⟩ resumed l₂ ⟨t, -, rfl⟩
  obtain ⟨houtcome, hdone, hreads, hlabel, hfresh, hunclosed, hunrecorded⟩ := h.congr hcalls
  have hafter : Streaming me outcome (resumed && frame == doneFrame) n w₁ (⟨t, .yield frame, resumed⟩ :: l₁) := by
    refine ⟨houtcome, ?_, ?_, hlabel, hfresh, hunclosed, hunrecorded⟩
    · rw [List.any_cons, hdone, Bool.or_false]
      rfl
    · rw [Ingress.reads, List.countP_cons]
      exact hreads
  cases resumed with
  | true => exact hok w₁ _ hafter
  | false => exact herr w₁ _ hafter

/-- **One event**: the label is written after the frame of `[DONE]` was taken, and no
other frame is that frame. -/
theorem wp_sseEvent_streaming (hbrace : Braced lib) {event : Bytes}
    (h : Streaming me none false n w l) :
    (lone me).wp (sseEvent lib aliasName limit me event)
      (fun more w l => if more then Streaming me none false n w l else Streaming me (some .completed) true n w l)
      (fun e w l => e ≠ .cancelled ∧ Streaming me none false n w l) w l := by
  unfold sseEvent
  simp only [wp_bind, wp_ite, wp_throw, lift, wp_ofExcept]
  by_cases hlimit : limit < event.length
  · rw [if_pos hlimit]
    exact ⟨(by rintro ⟨⟩), h⟩
  rw [if_neg hlimit]
  have hforward : ∀ frame, (judge lib aliasName limit event).2 = .forward frame → (frame == doneFrame) = false :=
    fun frame hframe => beq_false_of_ne fun heq => not_done_of_forward hbrace hframe heq
  cases hparse : parseEvent lib aliasName event with
  | error e => exact ⟨(by rintro ⟨⟩), h⟩
  | ok parsed =>
    cases parsed with
    | done =>
      simp only [Except.mapError, ends_ok, wp_bind, Ingress.setStreamOutcome, updateEvent, wp_update, wp_pure]
      refine wp_yieldFrame_streaming h (fun w₁ l₁ h₁ => ?_) fun w₁ l₁ h₁ => ⟨(by rintro ⟨⟩), h₁⟩
      rw [beq_self_eq_true] at h₁
      exact h₁.setStreamOutcome .completed
    | plain lines =>
      simp only [Except.mapError, ends_ok, wp_bind, wp_pure]
      refine wp_yieldFrame_streaming h (fun w₁ l₁ h₁ => ?_) fun w₁ l₁ h₁ => ⟨(by rintro ⟨⟩), h₁⟩
      rwa [hforward (frameOf lines) (by simp [judge, hlimit, hparse])] at h₁
    | object others value =>
      simp only [Except.mapError, ends_ok, wp_bind, wp_pure, wp_ofExcept]
      have hnote : (lone me).wp (noteUsage me value) (fun _ => Streaming me none false n)
          (fun _ _ _ => False) w l := by
        unfold noteUsage
        split
        · rename_i counts _
          exact streaming_neutral.event w l (fun ev => { ev with usage := some counts }) (fun _ => rfl) h
        · exact h
      refine wp_mono (fun _ w₁ l₁ h₁ => ?_) (fun _ _ _ h => h.elim) hnote
      cases hdumps : lib.dumps (.obj value) with
      | ok text =>
        refine wp_yieldFrame_streaming h₁ (fun w₂ l₂ h₂ => ?_) fun w₂ l₂ h₂ => ⟨(by rintro ⟨⟩), h₂⟩
        rwa [hforward (frameOf (others ++ [dataField ++ ' ' :: text])) (by simp [judge, hlimit, hparse, hdumps])]
          at h₂
      | error e => exact ⟨(by rintro ⟨⟩), h₁⟩

theorem wp_drain_streaming (hbrace : Braced lib) (rounds : ℕ) (buffer : Bytes)
    (h : Streaming me none false n w l) :
    (lone me).wp (drain lib aliasName limit me rounds buffer)
      (fun r w l => if r.2 then Streaming me none false n w l else Streaming me (some .completed) true n w l)
      (fun e w l => e ≠ .cancelled ∧ Streaming me none false n w l) w l := by
  induction rounds generalizing buffer w l with
  | zero => exact h
  | succ rounds ih =>
    unfold drain
    split
    · exact h
    · rw [wp_bind]
      refine wp_mono (fun more w₁ l₁ h₁ => ?_) (fun _ _ _ h => h) (wp_sseEvent_streaming hbrace h)
      cases more with
      | true => exact ih _ h₁
      | false => exact h₁

/-- **The `try` of `sse_body`** returns once the frame of `[DONE]` was taken, and raises
before that. -/
theorem wp_sseLoop_streaming (hbrace : Braced lib) {exchange : Exchange}
    (h : Streaming me none false 0 w l) :
    (lone me).wp (sseLoop lib aliasName limit me exchange)
      (fun _ w l => ∃ m, Streaming me (some .completed) true m w l)
      (fun e w l => ∃ m, Streaming me none false m w l ∧ (e = .cancelled →
        exchange.response.upstream.body.ending = .raise .cancelled ∧
          exchange.response.upstream.body.chunks.length < m)) w l := by
  -- a wait for a chunk
  have hwait : ∀ {m w l} (t : ℚ), Streaming me none false m w l →
      Streaming me none false (m + 1) w (⟨t, .read exchange.response.attempt, ()⟩ :: l) := by
    rintro m w l t ⟨houtcome, hdone, hreads, hlabel, hfresh, hunclosed, hunrecorded⟩
    refine ⟨houtcome, hdone, ?_, hlabel, hfresh, hunclosed, hunrecorded⟩
    rw [Ingress.reads, List.countP_cons, ← hreads]
    rfl
  simp only [sseLoop, Gateway.body, wp_bind, wp_ite, wp_pure, wp_throw]
  refine wp_bodyFrom (I := fun rest acc w l => acc.2 = false ∧ ∃ m,
    m + rest.length = exchange.response.upstream.body.chunks.length ∧ Streaming me none false m w l)
    (fun _ _ _ _ _ => trivial) ?_ ?_ _ _ ⟨rfl, 0, Nat.zero_add _, h⟩
  · rintro chunk rest ⟨buffer, returned⟩ w _ w₁ l _ ⟨-, m, hm, h⟩ ⟨hcalls, rfl⟩ ⟨t, -, rfl⟩
    have hread := hwait t (h.congr hcalls)
    rw [wp_bind]
    refine wp_mono (fun _ w₂ l₂ h₂ => ?_) (fun _ _ _ h => h)
      (streaming_neutral.noteFirstByte trivial (fun _ _ => rfl) exchange chunk hread)
    simp only [sseChunk, wp_bind]
    refine wp_mono (fun r w₃ l₃ h₃ => ?_) (fun e w₃ l₃ h₃ => ⟨m + 1, h₃.2, fun he => absurd he h₃.1⟩)
      (wp_drain_streaming hbrace _ _ h₂)
    obtain ⟨left, more⟩ := r
    cases more with
    | true =>
      simp only [if_true, wp_bind, wp_ite, wp_throw, wp_pure]
      split
      · exact ⟨m + 1, h₃, (by rintro ⟨⟩)⟩
      · refine ⟨trivial, m + 1, ?_, h₃⟩
        rw [← hm, List.length_cons]
        omega
    | false => exact ⟨m + 1, h₃⟩
  · rintro ⟨buffer, returned⟩ w _ w₁ l _ ⟨hreturned, m, hm, h⟩ ⟨hcalls, rfl⟩ ⟨t, -, rfl⟩
    have hread := hwait t (h.congr hcalls)
    obtain rfl : returned = false := hreturned
    rw [List.length_nil, Nat.add_zero] at hm
    split
    · exact ⟨m + 1, hread, (by rintro ⟨⟩)⟩
    · rename_i e hending
      refine ⟨m + 1, hread, ?_⟩
      rintro rfl
      exact ⟨hending, by omega⟩

/-- What a stream has written is so. -/
def Written? (me : ℕ) (exchange : Exchange) (w : World) (l : List Entry) : Prop :=
  ∃ outcome done n, Streaming me outcome done n w l ∧ (outcome = some .completed ↔ done = true) ∧
    (outcome = some .cancelled → CancelRaised exchange l) ∧
    (outcome = none ∨ outcome = some .completed ∨ outcome = some .interrupted ∨ outcome = some .cancelled)

/-- **What `sse_body` writes is so**, whichever way it ends. -/
theorem wp_sseBody_streaming (hbrace : Braced lib) {exchange : Exchange}
    (h : Streaming me none false 0 w l) :
    (lone me).wp (sseBody lib aliasName limit me exchange) (fun _ => Written? me exchange)
      (fun _ => Written? me exchange) w l := by
  simp only [sseBody, wp_tryCatch]
  refine wp_mono (fun _ w₁ l₁ h₁ => ?_) (fun e w₁ l₁ h₁ => ?_) (wp_sseLoop_streaming hbrace h)
  · obtain ⟨m, h₁⟩ := h₁
    exact ⟨_, _, m, h₁, ⟨fun _ => rfl, fun _ => rfl⟩, (by rintro ⟨⟩), .inr (.inl rfl)⟩
  · obtain ⟨m, h₁, hcancelled⟩ := h₁
    cases e with
    | exc e =>
      simp only [wp_bind, Ingress.setStreamOutcome, updateEvent, wp_update]
      have hwritten : ∀ w l, Streaming me (some .interrupted) false m w l → Written? me exchange w l :=
        fun w l h => ⟨_, _, m, h, ⟨(by rintro ⟨⟩), (by rintro ⟨⟩)⟩, (by rintro ⟨⟩), .inr (.inr (.inl rfl))⟩
      refine wp_yieldFrame_streaming (h₁.setStreamOutcome .interrupted) (fun w₂ l₂ h₂ => hwritten w₂ l₂ ?_) hwritten
      rwa [show (interruptedFrame == doneFrame) = false by decide +kernel] at h₂
    | cancelled =>
      simp only [wp_bind, Ingress.setStreamOutcome, updateEvent, wp_update, wp_throw]
      obtain ⟨hending, hlt⟩ := hcancelled rfl
      refine ⟨_, _, m, h₁.setStreamOutcome .cancelled, ⟨(by rintro ⟨⟩), (by rintro ⟨⟩)⟩, fun _ => .inl ⟨hending, ?_⟩,
        .inr (.inr (.inr rfl))⟩
      rw [h₁.reads]
      exact hlt
    | exit => exact ⟨_, _, m, h₁, ⟨(by rintro ⟨⟩), (by rintro ⟨⟩)⟩, (by rintro ⟨⟩), .inl rfl⟩

/-- The framework drives the stream or does not, and ends with what it answers. -/
theorem wp_callStream (hbrace : Braced lib) {exchange : Exchange}
    (h : Streaming me none false 0 w l) :
    (lone me).wp (callStream lib limit me exchange aliasName) (fun _ => Written? me exchange)
      (fun e w l => Written? me exchange w l ∧ (e = .cancelled → CancelRaised exchange l)) w l := by
  have hrespond : ∀ w l, Written? me exchange w l →
      (lone me).wp (do Prog.ofExcept (← Prog.askAwait Call.respond)) (fun _ => Written? me exchange)
        (fun e w l => Written? me exchange w l ∧ (e = .cancelled → CancelRaised exchange l)) w l := by
    rintro w l ⟨outcome, done, n, h, hdone, hcancelled, hcases⟩
    simp only [wp_bind, wp_askAwait, wp_ofExcept]
    refine ⟨trivial, ?_⟩
    rintro w₁ l₁ ⟨hcalls, rfl⟩ r l₂ ⟨t, -, rfl⟩
    have hwritten : Written? me exchange w₁ (⟨t, .respond, r⟩ :: l₁) := by
      refine ⟨outcome, done, n, (h.congr hcalls).step (q := .respond) trivial t r, hdone, fun ho => ?_, hcases⟩
      rcases hcancelled ho with ⟨hending, hlt⟩ | hany
      · refine .inl ⟨hending, ?_⟩
        rw [reads, List.countP_cons]
        exact hlt
      · exact .inr (by rw [List.any_cons, hany, Bool.or_true])
    cases r with
    | ok _ => exact hwritten
    | error e =>
      refine ⟨hwritten, ?_⟩
      rintro rfl
      exact .inr rfl
  simp only [callStream, wp_bind, wp_askAwait]
  refine ⟨trivial, ?_⟩
  rintro w₁ l₁ ⟨hcalls, rfl⟩ iterated l₂ ⟨t, -, rfl⟩
  have h₁ : Streaming me none false 0 w₁ (⟨t, .iterate, iterated⟩ :: l₁) := (h.congr hcalls).step (q := .iterate) trivial t iterated
  cases iterated with
  | true =>
    simp only [if_true, Prog.attempt, wp_bind, wp_tryCatch, wp_pure]
    exact wp_mono (fun _ w₂ l₂ h₂ => hrespond w₂ l₂ h₂) (fun _ w₂ l₂ h₂ => hrespond w₂ l₂ h₂)
      (wp_sseBody_streaming hbrace h₁)
  | false => exact hrespond _ _ ⟨none, false, 0, h₁, ⟨(by rintro ⟨⟩), (by rintro ⟨⟩)⟩, (by rintro ⟨⟩), .inl rfl⟩

/-- The exchange is to be finished with `outcome`, which is so but for the close. -/
structure Ready (me : ℕ) (exchange : Exchange) (outcome : Outcome) (w : World) (l : List Entry) : Prop where
  fresh : (w.calls me).finished = false
  unclosed : l.any isClosed = false
  unrecorded : requests l = []
  done : outcome = .completed ↔ l.any isDone = true
  cancelled : outcome = .cancelled → CancelRaised exchange l
  cases : outcome = .completed ∨ outcome = .interrupted ∨ outcome = .cancelled

/-- The label is what the stream has written, and the default if it wrote none. -/
theorem Written?.ready {exchange : Exchange} {label : Outcome} (h : Written? me exchange w l)
    (hlabel : label = .interrupted ∨ label = .cancelled ∧ CancelRaised exchange l)
    (hfresh : (w'.calls me).finished = false) :
    Ready me exchange ((w.calls me).event.streamOutcome.getD label) w' l := by
  obtain ⟨outcome, done, n, ⟨rfl, hdone, -, -, -, hunclosed, hunrecorded⟩, hcompleted, hcancelled, hcases⟩ := h
  refine ⟨hfresh, hunclosed, hunrecorded, ?_, fun ho => ?_, ?_⟩
  · rw [hdone, ← hcompleted]
    rcases hcases with hnone | hsome | hsome | hsome
    · rw [hnone]
      rcases hlabel with rfl | ⟨rfl, -⟩ <;> simp
    all_goals simp [hsome]
  · rcases hcases with hnone | hsome | hsome | hsome
    · rw [hnone, Option.getD_none] at ho
      rcases hlabel with rfl | ⟨-, hraised⟩
      · cases ho
      · exact hraised
    · rw [hsome] at ho
      cases ho
    · rw [hsome] at ho
      cases ho
    · exact hcancelled hsome
  · rcases hcases with hnone | hsome | hsome | hsome
    · rw [hnone, Option.getD_none]
      rcases hlabel with rfl | ⟨rfl, -⟩
      · exact .inr (.inl rfl)
      · exact .inr (.inr rfl)
    · exact .inl (by rw [hsome]; rfl)
    · exact .inr (.inl (by rw [hsome]; rfl))
    · exact .inr (.inr (by rw [hsome]; rfl))

/-- **Finishing** takes `completed` back if the close fails, and leaves the rest. -/
theorem wp_finish_truthful {exchange : Exchange} {outcome : Outcome} (h : Ready me exchange outcome w l) :
    (lone me).wp (Gateway.finish me exchange outcome) (fun _ _ => Truthful exchange)
      (fun _ _ => Truthful exchange) w l := by
  refine wp_finish (fun hfinished => ?_) (fun _ => trivial) fun _ w₁ l₁ hwake closed l₂ hclosed w₂ _ now l₃ hnow
    ms w₃ hw₃ a l₄ hemit => ?_
  · rw [h.fresh] at hfinished
    cases hfinished
  · obtain ⟨-, rfl⟩ := hwake
    obtain ⟨t, -, rfl⟩ := hclosed
    obtain ⟨t', -, rfl⟩ := hnow
    obtain ⟨t'', -, rfl⟩ := hemit
    have htruthful : Truthful exchange (⟨t'', .emit (.request (w₃.calls me).event), a⟩ :: ⟨t', .clock, now⟩ ::
        ⟨t, .close exchange.response.attempt, closed⟩ :: l₁) := by
      refine ⟨_, closedOutcome outcome closed, congrArg _ h.unrecorded, ?_, ?_, ?_, fun ho => ?_, fun hdone => ?_⟩
      · rw [hw₃, World.setCall_calls_self]
        rfl
      · cases closed with
        | ok _ => exact ⟨fun ho => ⟨h.done.1 ho, rfl⟩, fun hd => h.done.2 hd.1⟩
        | error e =>
          refine ⟨fun ho => ?_, fun hd => Bool.noConfusion (h.unclosed.symm.trans hd.2)⟩
          rcases h.cases with rfl | rfl | rfl <;> cases ho
      · cases closed with
        | ok _ =>
          refine ⟨fun ho => ?_, fun hd => Bool.noConfusion hd.2⟩
          rcases h.cases with rfl | rfl | rfl <;> cases ho
        | error e =>
          constructor
          · intro ho
            refine ⟨h.done.1 ?_, h.unclosed⟩
            rcases h.cases with rfl | rfl | rfl
            · rfl
            · cases ho
            · cases ho
          · intro hd
            rw [h.done.2 hd.1]
            rfl
      · have hcancelled : outcome = .cancelled := by
          cases closed with
          | ok _ => exact ho
          | error e => rcases h.cases with rfl | rfl | rfl <;> first | rfl | cases ho
        rcases h.cancelled hcancelled with ⟨hending, hlt⟩ | hany
        · refine .inl ⟨hending, ?_⟩
          rw [reads, List.countP_cons, List.countP_cons, List.countP_cons]
          exact hlt
        · exact .inr hany
      · have hnot : outcome ≠ .completed := fun ho => Bool.noConfusion ((h.done.1 ho).symm.trans hdone)
        rcases h.cases with rfl | rfl | rfl
        · exact absurd rfl hnot
        · cases closed <;> exact .inl rfl
        · cases closed <;> exact .inr rfl
    cases a with
    | ok _ =>
      rw [ends_ok]
      cases finished closed <;> exact htruthful
    | error e => exact htruthful

theorem wp_ownedStream (hbrace : Braced lib) {exchange : Exchange}
    (hfresh : (w.calls me).finished = false) (hnone : (w.calls me).event.streamOutcome = none) :
    (lone me).wp (OwnedStream.call lib limit me exchange aliasName) (fun _ _ => Truthful exchange)
      (fun _ _ => Truthful exchange) w [] := by
  have hstart : Streaming me none false 0 (w.setCall me fun c => { c with outcome := .interrupted }) [] := by
    refine ⟨?_, rfl, rfl, ?_, ?_, rfl, rfl⟩ <;> rw [World.setCall_calls_self]
    · exact hnone
    · exact hfresh
  have hfinally : ∀ w l, Ready me exchange ((w.calls me).event.streamOutcome.getD (w.calls me).outcome) w l →
      (lone me).wp (do
        let outcome ← popStreamOutcome me ((← Prog.read).calls me).outcome
        Gateway.finish me exchange outcome) (fun _ _ => Truthful exchange) (fun _ _ => Truthful exchange) w l := by
    intro w l h
    simp only [popStreamOutcome, eventOf, updateEvent, wp_bind, wp_read, wp_update, wp_pure]
    refine wp_finish_truthful ⟨?_, h.unclosed, h.unrecorded, h.done, h.cancelled, h.cases⟩
    rw [World.setCall_calls_self]
    exact h.fresh
  -- the label is the default if the framework did not cancel
  have hdefault : ∀ w l, Written? me exchange w l →
      Ready me exchange ((w.calls me).event.streamOutcome.getD (w.calls me).outcome) w l := by
    intro w l hwritten
    have h := hwritten
    obtain ⟨_, _, _, h, -⟩ := h
    exact hwritten.ready (.inl h.label) h.fresh
  rw [OwnedStream.call, wp_bind, setVars, wp_update, wp_finallyDo, wp_tryCatch]
  refine wp_mono (fun _ w₁ l₁ h₁ => hfinally w₁ l₁ (hdefault w₁ l₁ h₁)) (fun e w₁ l₁ h₁ => ?_)
    (wp_callStream hbrace hstart)
  obtain ⟨hwritten, hraised⟩ := h₁
  cases e with
  | cancelled =>
    rw [wp_bind, setVars, wp_update, wp_throw]
    refine hfinally _ l₁ ?_
    have h := hwritten
    obtain ⟨_, _, _, h, -⟩ := h
    rw [World.setCall_calls_self]
    refine hwritten.ready (.inr ⟨rfl, hraised rfl⟩) ?_
    rw [World.setCall_calls_self]
    exact h.fresh
  | exc e => exact hfinally w₁ l₁ (hdefault w₁ l₁ hwritten)
  | exit => exact hfinally w₁ l₁ (hdefault w₁ l₁ hwritten)

end

/-! ### A stream begins afresh -/

/-- The exchange of a call, of which nothing was relayed or finished. -/
def Fresh (exchange : Exchange) (c : CallState) : Prop :=
  c.exchange = some exchange ∧ c.finished = false ∧ c.event.streamOutcome = none

section

variable {settings : Settings} {w : World} {l : List Entry}

/-- An exchange is opened with a new event, and only a stream labels it. -/
theorem wp_open_unlabelled {payload : Payload} {headers : Headers} {rid : Str} :
    (lone me).wp (Gateway.open lib settings me payload headers rid)
      (fun _ w _ => (w.calls me).event.streamOutcome = none)
      (fun _ w _ => (w.calls me).event.streamOutcome = none) w l := by
  have hstays : Neutral (lone me) me (fun _ => True) (fun f => ∀ ev, (f ev).streamOutcome = ev.streamOutcome)
      fun w _ => (w.calls me).event.streamOutcome = none :=
    .of_calls (P := fun c _ => c.event.streamOutcome = none) (fun _ _ _ _ _ _ h => h)
      fun c f _ hf h => (hf c.event).trans h
  have htable : TableFree fun w (_ : List Entry) => (w.calls me).event.streamOutcome = none :=
    fun w w' _ hcalls h => (congrArg (fun calls => (calls me).event.streamOutcome) hcalls).trans h
  have hattempting : ∀ f, Attempting f → ∀ ev, (f ev).streamOutcome = ev.streamOutcome := fun f hf ev => by
    have hlabel := congrArg Event.streamOutcome (hf ev)
    exact hlabel
  have hpreparatory : ∀ f, Preparatory f → ∀ ev, (f ev).streamOutcome = ev.streamOutcome := fun f hf ev => by
    have hlabel := congrArg Event.streamOutcome (hf ev)
    exact hlabel
  have hfailing : ∀ f, Failing f → ∀ ev, (f ev).streamOutcome = ev.streamOutcome := fun f hf ev => by
    have hlabel := congrArg Event.streamOutcome (hf ev)
    exact hlabel
  have htrue : Neutral (lone me) me Reporting (fun _ => True) fun _ _ => True :=
    .of_calls (P := fun _ _ => True) (fun _ _ _ _ _ _ _ => trivial) fun _ _ _ _ _ => trivial
  refine wp_open htrue (hstays.mono fun _ _ => trivial) hfailing rid (fun started w₁ l₁ hbegun _ => ?_) trivial
  have hlabel : (w₁.calls me).event.streamOutcome = none := by rw [hbegun]
  exact wp_mono (fun _ _ _ h => h.2) (fun _ _ _ h => h)
    (hstays.openInner htable (fun _ _ => trivial) hattempting hpreparatory payload headers started w₁ l₁ hlabel)

/-- The `try` of `chat` hands over an exchange as it was opened. -/
theorem wp_chatTry_fresh {request : Request} {rid : Str} :
    (lone me).wp (chatTry lib settings limit me request rid)
      (fun reply w _ => streams (.ok reply) = true →
        ∃ exchange, Fresh exchange (w.calls me) ∧ (w.calls me).handedOff = true)
      (fun _ _ _ => True) w l := by
  simp only [chatTry, wp_bind, setVars, wp_update]
  refine wp_mono (fun payload w₁ l₁ _ => ?_) (fun _ _ _ _ => trivial) (wp_alone _ _ _ w l)
  refine wp_mono (fun exchange w₂ l₂ h₂ => ?_) (fun _ _ _ _ => trivial) wp_open_unlabelled
  have hstays : Neutral (lone me) me (fun _ => True) (fun f => ∀ ev, (f ev).streamOutcome = ev.streamOutcome)
      fun w _ => Fresh exchange (w.calls me) :=
    .of_calls (P := fun c _ => Fresh exchange c) (fun _ _ _ _ _ _ h => h)
      fun c f _ hf h => ⟨h.1, h.2.1, (hf c.event).trans h.2.2⟩
  have hhanded : ∀ (w : World) (_ : List Entry), Fresh exchange (w.calls me) →
      Fresh exchange ((w.setCall me fun c => { c with handedOff := true }).calls me) ∧
        ((w.setCall me fun c => { c with handedOff := true }).calls me).handedOff = true := by
    intro w _ h
    rw [World.setCall_calls_self]
    exact ⟨h, rfl⟩
  have hopened : Fresh exchange ((w₂.setCall me fun c =>
      { c with exchange := some exchange, finished := false }).calls me) := by
    rw [World.setCall_calls_self]
    exact ⟨rfl, rfl, h₂⟩
  refine wp_mono (fun reply w₃ l₃ h₃ hstream => ⟨exchange, ?_⟩) (fun _ _ _ _ => trivial)
    (wp_deliver (C := fun _ _ _ => True) (H := fun w _ => Fresh exchange (w.calls me) ∧ (w.calls me).handedOff = true)
      hstays trivial trivial (fun _ _ => rfl) (fun _ _ _ => rfl) (fun _ _ _ _ _ => trivial)
      hhanded hopened)
  rcases h₃ with ⟨headers, -, hfresh⟩ | ⟨value, body, headers, rfl, -⟩
  · exact hfresh
  · cases hstream

/-- An error is no stream. -/
theorem wp_chatExcept_unary {rid : Str} {e : Err} :
    (lone me).wp (chatExcept me rid e) (fun reply _ _ => streams (.ok reply) = false)
      (fun _ _ _ => True) w l := by
  have hrefuse : ∀ code status outcome, (lone me).wp (refuse me rid code status outcome)
      (fun reply _ _ => streams (.ok reply) = false) (fun _ _ _ => True) w l := fun _ _ _ =>
    wp_refuse (fun _ => rfl) (fun _ _ => rfl) fun _ _ a _ _ => by
      cases a with
      | ok _ => rfl
      | error _ => trivial
  cases e with
  | exc e =>
    simp only [chatExcept]
    split
    · exact hrefuse _ _ _
    · exact hrefuse _ _ _
  | cancelled => exact trivial
  | exit => exact trivial

/-- The `finally` of `chat` leaves an exchange that was handed over. -/
theorem wp_chatFinally_fresh {reply : Reply} (h : streams (.ok reply) = true →
    ∃ exchange, Fresh exchange (w.calls me) ∧ (w.calls me).handedOff = true) :
    (lone me).wp (chatFinally me) (fun _ w _ => streams (.ok reply) = true →
      ∃ exchange, Fresh exchange (w.calls me)) (fun _ _ _ => True) w l := by
  by_cases hstream : streams (.ok reply) = true
  · obtain ⟨exchange, hfresh, hhanded⟩ := h hstream
    simp only [chatFinally, wp_bind, wp_read]
    rw [hfresh.1, hhanded]
    exact fun _ => ⟨exchange, hfresh⟩
  · exact wp_mono (fun _ _ _ _ hs => absurd hs hstream) (fun _ _ _ _ => trivial) (wp_alone _ _ _ w l)

end

/-- **A stream is handed over** with a fresh exchange. -/
theorem handed_over_fresh {settings : Settings} {request : Request} {rid : Str} {w w' : World}
    {aliasName : Str} {headers : Headers} {l l' : List Entry}
    (hrun : (lone me).Run (chat lib settings limit me request rid) w l (.ok (.stream aliasName headers)) w' l') :
    ∃ exchange, Fresh exchange (w'.calls me) := by
  have hchat : (lone me).wp (chat lib settings limit me request rid)
      (fun reply w _ => streams (.ok reply) = true → ∃ exchange, Fresh exchange (w.calls me))
      (fun _ _ _ => True) w l := by
    simp only [chat, wp_bind, setVars, wp_update, wp_finallyDo, wp_tryCatch]
    refine wp_mono (fun reply w₁ l₁ h₁ => wp_chatFinally_fresh h₁) (fun e w₁ l₁ _ => ?_) wp_chatTry_fresh
    refine wp_mono (fun reply w₂ l₂ h₂ => wp_chatFinally_fresh fun hs => ?_)
      (fun e' w₂ l₂ _ => wp_alone _ _ _ w₂ l₂) wp_chatExcept_unary
    rw [h₂] at hs
    cases hs
  exact hrun.ends hchat rfl

/-- **The outcome of a stream is the truth.**  Whatever the upstream sends, wherever the
framework stops and however the close ends, there is one terminal event.  It says
`completed` if and only if the frame of `[DONE]` was taken and the upstream closed,
`failed` if and only if the close failed after that, `cancelled` only if something was
cancelled, and otherwise `interrupted`.  This is so of every exchange that is not
finished or labelled, and `chat` hands over no other. -/
theorem outcome_truthful (lib : Lib) (limit me : ℕ) (hbrace : Braced lib) :
    (∀ (aliasName : Str) (exchange : Exchange) (w w' : World) (r : Except Err Unit) (l : List Entry),
      (lone me).Run (OwnedStream.call lib limit me exchange aliasName) w [] r w' l →
      (w.calls me).finished = false → (w.calls me).event.streamOutcome = none → Truthful exchange l) ∧
    ∀ (settings : Settings) (request : Request) (rid : Str) (w w' : World) (aliasName : Str)
      (headers : Headers) (l l' : List Entry),
      (lone me).Run (chat lib settings limit me request rid) w l (.ok (.stream aliasName headers)) w' l' →
      ∃ exchange, Fresh exchange (w'.calls me) := by
  refine ⟨fun aliasName exchange w w' r l hrun hfresh hnone => ?_,
    fun settings request rid w w' aliasName headers l l' hrun => handed_over_fresh hrun⟩
  exact hrun.result (P := fun _ _ => Truthful exchange) (wp_ownedStream hbrace hfresh hnone)

namespace Demo

/-- The run of a stream over some chunks, to the record of its end. -/
def streamRun (chunks : List Bytes) : Except Err Unit × World × List Entry :=
  exec surroundings (OwnedStream.call json maxResponse 0 (exchange chunks) (lit "m")) Application.Demo.world []

theorem streamRun_run (chunks : List Bytes) :
    (lone 0).Run (OwnedStream.call json maxResponse 0 (exchange chunks) (lit "m")) Application.Demo.world []
      (streamRun chunks).1 (streamRun chunks).2.1 (streamRun chunks).2.2 :=
  run_of_exec surroundings (fun _ _ => trivial) rfl

end Demo

/-- A stream that is taken to its end. -/
theorem done_stream_truthful :
    Truthful (Demo.exchange [doneFrame]) (Demo.streamRun [doneFrame]).2.2 :=
  (outcome_truthful Demo.json maxResponse 0 Demo.json_module.braced).1 (lit "m") (Demo.exchange [doneFrame])
    Application.Demo.world _ _ _ (Demo.streamRun_run [doneFrame]) rfl rfl

example : (requests (Demo.streamRun [doneFrame]).2.2).map (·.outcome) = [some .completed] := by decide +kernel

end Ingress
end SwitchyardGateway
