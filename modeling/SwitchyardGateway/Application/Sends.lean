/-
# What is sent

A call prepares one request and one set of headers, and every attempt it makes
sends these two to a replica of the model it was routed to (`Uniform`).  So what
preparing a request establishes holds of whatever is sent (`wp_open_sent`), in any
surroundings.
-/

import SwitchyardGateway.Application.Rules
import SwitchyardGateway.Application.Ledger

namespace SwitchyardGateway
namespace Application

open Coop Coop.Discipline Python

/-- Every attempt sends the request and the headers to a replica of the model. -/
def Uniform (model : Model) (prepared : Payload) (forwarded : Headers) (l : List Entry) : Prop :=
  ∀ a ∈ sends l, a.model = model ∧ a.endpoint ∈ model.endpoints ∧ a.request = prepared ∧
    a.headers = forwarded

/-- Nothing was sent, or what was prepared so that `P`. -/
def Sent (P : Model × Payload × Headers → List Entry → Prop) (l : List Entry) : Prop :=
  sends l = [] ∨ ∃ r, P r l ∧ Uniform r.1 r.2.1 r.2.2 l

/-- The questions that send nothing. -/
def Silent : Call → Prop
  | .send _ _ _ _ => False
  | _ => True

/-- The questions that send nothing but this. -/
def Sending (model : Model) (prepared : Payload) (forwarded : Headers) : Call → Prop
  | .send m endpoint request headers =>
    m = model ∧ endpoint ∈ model.endpoints ∧ request = prepared ∧ headers = forwarded
  | _ => True

section

variable {rely : World → World → Prop} {ok : List Entry → Entry → Prop} {lib : Lib}
  {settings : Settings} {me : ℕ} {w : World} {l : List Entry}

theorem sends_cons_of_silent {q : Call} (hq : Silent q) (t : ℚ) (a : Answer q) (l : List Entry) :
    sends (⟨t, q, a⟩ :: l) = sends l := by
  cases q <;> first | exact hq.elim | rfl

theorem Uniform.cons {model : Model} {prepared : Payload} {forwarded : Headers} {q : Call}
    (hq : Sending model prepared forwarded q) (h : Uniform model prepared forwarded l) (t : ℚ)
    (a : Answer q) : Uniform model prepared forwarded (⟨t, q, a⟩ :: l) := by
  cases q with
  | send m endpoint request headers =>
    intro sent hsent
    rcases List.mem_cons.1 hsent with rfl | hsent
    · exact hq
    · exact h sent hsent
  | _ => exact h

/-- An assertion of the log survives the questions that do not break it. -/
theorem log_neutral {J : List Entry → Prop} {quiet : Call → Prop}
    (hJ : ∀ q t a l, quiet q → J l → J (⟨t, q, a⟩ :: l)) :
    Neutral (alone rely ok) me quiet (fun _ => True) fun _ l => J l :=
  .of_alone (fun _ _ _ _ h => h) (fun _ q t a l hq _ h => hJ q t a l hq h) fun _ _ _ _ h => h

variable {P : Model × Payload × Headers → List Entry → Prop}

/-- What a call has sent survives its questions, if they send the same. -/
theorem uniform_neutral (hP : ∀ r e l, P r l → P r (e :: l)) (r : Model × Payload × Headers) :
    Neutral (alone rely ok) me (Sending r.1 r.2.1 r.2.2) (fun _ => True)
      fun _ l => P r l ∧ Uniform r.1 r.2.1 r.2.2 l :=
  log_neutral fun _ t a _ hq h => ⟨hP _ _ _ h.1, h.2.cons hq t a⟩

/-- So does that it has sent nothing. -/
theorem unsent_neutral : Neutral (alone rely ok) me Silent (fun _ => True)
    fun _ l => sends l = [] :=
  log_neutral fun _ t a l hq h => (sends_cons_of_silent hq t a l).trans h

theorem Preparing.silent {q : Call} (hq : Preparing q) : Silent q := by
  cases q <;> first | exact hq.elim | trivial

theorem Reporting.silent {q : Call} (hq : Reporting q) : Silent q := by
  cases q <;> first | exact hq.elim | trivial

theorem Trying.sending {q : Call} (hq : Trying q) (model : Model) (prepared : Payload)
    (forwarded : Headers) : Sending model prepared forwarded q := by
  cases q <;> first | exact hq.elim | trivial

theorem Silent.sending {q : Call} (hq : Silent q) (model : Model) (prepared : Payload)
    (forwarded : Headers) : Sending model prepared forwarded q := by
  cases q <;> first | exact hq.elim | trivial

/-- What was sent stays sent, whatever is asked besides. -/
theorem sent_neutral (hP : ∀ r e l, P r l → P r (e :: l)) :
    Neutral (alone rely ok) me Silent (fun _ => True) fun _ l => Sent P l := by
  refine log_neutral fun q t a l hq h => ?_
  rcases h with h | ⟨r, hr, h⟩
  · exact .inl ((sends_cons_of_silent hq t a l).trans h)
  · exact .inr ⟨r, hP _ _ _ hr, h.cons (hq.sending _ _ _) t a⟩

/-- **What a call sends** is what it prepared. -/
theorem wp_open_sent (hP : ∀ r e l, P r l → P r (e :: l)) {request : Payload} {headers : Headers}
    (hprepare : ∀ w l, sends l = [] → (alone rely ok).wp (prepare lib settings me request headers)
      (fun r _ l => P r l ∧ sends l = []) (fun _ _ l => sends l = []) w l) (rid : Str)
    (h : sends l = []) :
    (alone rely ok).wp (Gateway.open lib settings me request headers rid) (fun _ _ l => Sent P l)
      (fun _ _ l => Sent P l) w l := by
  have hunsent : Neutral (alone rely ok) me Silent (fun _ => True) fun _ l => sends l = [] :=
    unsent_neutral
  refine wp_open (hunsent.mono fun _ => Reporting.silent) ((sent_neutral hP).mono fun _ => Reporting.silent) (fun _ _ => trivial)
    rid (fun started w l _ h => ?_) h
  unfold Gateway.openInner
  rw [wp_bind]
  refine wp_mono (fun r w l h => ?_) (fun _ _ _ h => .inl h) (hprepare w l h)
  have hn : Neutral (alone rely ok) me (Sending r.1 r.2.1 r.2.2) (fun _ => True) _ :=
    uniform_neutral hP r
  have hstart : P r l ∧ Uniform r.1 r.2.1 r.2.2 l := ⟨h.1, fun a ha => by simp [h.2] at ha⟩
  have hsent : (alone rely ok).Preserves (fun _ l => P r l ∧ Uniform r.1 r.2.1 r.2.2 l) (do
      let upstreamStarted ← clock
      attempts lib settings me r.1 r.2.1 r.2.2 started upstreamStarted [0, 1] []) fun _ => True :=
    (hn.call (q := .clock) trivial).bind fun _ _ =>
      hn.attempts (fun _ _ _ _ h => h) (fun _ hq => hq.sending _ _ _) (fun _ _ => trivial) _ _ _ _ _ _ _
        fun _ hmem => ⟨rfl, hmem, rfl, rfl⟩
  exact wp_mono (fun _ _ _ h => .inr ⟨r, h.2⟩) (fun _ _ _ h => .inr ⟨r, h⟩) (hsent w l hstart)

end

end Application
end SwitchyardGateway
