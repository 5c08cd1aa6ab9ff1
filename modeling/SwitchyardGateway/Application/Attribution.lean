/-
# What an event says about the attempts

An event is begun with the name of its call, and written as the call goes on: the
model once the request is routed, the replica and the number of an attempt before it
is sent, the status when it is answered.  When `Gateway.open` returns, the event
names the attempt that obtained the exchange's response, which is the last one
(`wp_open_obtained`).
-/

import SwitchyardGateway.Application.Sends

namespace SwitchyardGateway
namespace Application

open Coop Coop.Discipline Python

/-- An event that names an attempt, the last of `attempts`. -/
structure Names (requestId : Str) (a : Attempt) (attempts : ℕ) (ev : Event) : Prop where
  requestId : ev.requestId = requestId
  model : ev.model = some a.model.name
  endpoint : ev.endpoint = some a.endpoint.name
  attempts : ev.attempts = some attempts

/-- The last attempt obtained a response, and the event names it. -/
def Obtained (requestId : Str) (response : Response) (ev : Event) (made : List Attempt) : Prop :=
  ∃ a earlier, made = a :: earlier ∧ a.answer = .ok response.upstream ∧
    response.attempt = earlier.length ∧ Names requestId a made.length ev

/-- Before a response: what the event says of the call, and how many attempts were made. -/
structure Begun (requestId : Str) (model : Model) (attempts : ℕ) (ev : Event) (made : List Attempt) :
    Prop where
  requestId : ev.requestId = requestId
  model : ev.model = some model.name
  made : made.length = attempts

section

variable {ok : List Entry → Entry → Prop} {lib : Lib} {settings : Settings} {me : ℕ} {rid : Str}
  {w : World} {l : List Entry}

/-- An assertion about the event of a call and its attempts. -/
theorem noted_neutral {P : Event → List Attempt → Prop} {writes : (Event → Event) → Prop}
    (hwrites : ∀ f, writes f → ∀ ev made, P ev made → P (f ev) made) :
    Neutral (alone (fun w w' : World => w'.calls me = w.calls me) ok) me Silent writes
      fun w l => P (w.calls me).event (sends l) :=
  .of_calls (P := fun c l => P c.event (sends l))
    (fun _ _ t a l hq h => by rwa [sends_cons_of_silent hq])
    fun c f l hf h => hwrites f hf c.event (sends l) h

theorem tableFree_noted {P : Event → List Attempt → Prop} :
    TableFree fun w l => P (w.calls me).event (sends l) := fun w w' l hcalls h => by
  change P (w'.calls me).event (sends l)
  rwa [hcalls]

/-- A routed request has its model on its event. -/
theorem wp_routeRequest_begun {request : Payload} (hid : (w.calls me).event.requestId = rid)
    (hnone : sends l = []) :
    (alone (fun w w' : World => w'.calls me = w.calls me) ok).wp (routeRequest settings me request)
      (fun r w l => Begun rid r.2 0 (w.calls me).event (sends l)) (fun _ _ _ => True) w l := by
  have hn : Neutral (alone (fun w w' : World => w'.calls me = w.calls me) ok) me Silent Preparatory
      fun w l => (w.calls me).event.requestId = rid ∧ (sends l).length = 0 :=
    noted_neutral (P := fun ev made => ev.requestId = rid ∧ made.length = 0) fun f hf ev made h => by
      have hsame := congrArg Event.requestId (hf ev)
      exact ⟨hsame.trans h.1, h.2⟩
  have hstart : (w.calls me).event.requestId = rid ∧ (sends l).length = 0 := ⟨hid, by rw [hnone]; rfl⟩
  unfold routeRequest
  split
  · rw [wp_bind]
    refine wp_mono (fun _ w₁ l₁ h₁ => ?_) (fun _ _ _ _ => trivial)
      (hn.clock (fun _ => Preparing.silent) w l hstart)
    split
    · rw [wp_bind]
      refine wp_mono (fun routed w₂ l₂ h₂ => ?_) (fun _ _ _ _ => trivial)
        (hn.routeTier (fun _ => Preparing.silent) (fun _ hf => hf) _ _ w₁ l₁ h₁.2)
      obtain ⟨prepared, label, tier⟩ := routed
      dsimp only
      split
      · simp only [wp_bind, clock, wp_ask, updateEvent, wp_update, wp_pure]
        rintro now _ ⟨t, -, rfl⟩
        refine ⟨?_, ?_, h₂.2.2⟩
        · rw [World.setCall_calls_self]
          exact h₂.2.1
        · rw [World.setCall_calls_self]
      · trivial
    · split <;> trivial
  · trivial

/-- A prepared request has its model on its event, and nothing was sent. -/
theorem wp_prepare_begun {request : Payload} {headers : Headers} (hid : (w.calls me).event.requestId = rid)
    (hnone : sends l = []) :
    (alone (fun w w' : World => w'.calls me = w.calls me) ok).wp (prepare lib settings me request headers)
      (fun r w l => Begun rid r.1 0 (w.calls me).event (sends l)) (fun _ _ _ => True) w l := by
  simp only [prepare, wp_bind]
  refine wp_mono (fun routed w₁ l₁ h₁ => ?_) (fun _ _ _ _ => trivial) (wp_routeRequest_begun hid hnone)
  have hn : Neutral (alone (fun w w' : World => w'.calls me = w.calls me) ok) me Silent Compressing
      fun w l => Begun rid routed.2 0 (w.calls me).event (sends l) :=
    noted_neutral fun f hf ev made h => by
      have hmodel := congrArg Event.model (hf ev)
      have hsame := congrArg Event.requestId (hf ev)
      exact ⟨hsame.trans h.requestId, hmodel.trans h.model, h.made⟩
  refine wp_mono (fun _ w₂ l₂ h₂ => ?_) (fun _ _ _ _ => trivial)
    (hn.clock (fun _ => Preparing.silent) w₁ l₁ h₁)
  refine wp_mono (fun prepared w₃ l₃ h₃ => ?_) (fun _ _ _ _ => trivial)
    (hn.compressHistory (fun _ => Preparing.silent) (fun _ hf => hf) _ _ _ w₂ l₂ h₂.2)
  refine wp_mono (fun _ w₄ l₄ h₄ => ?_) (fun _ _ _ _ => trivial)
    (hn.clock (fun _ => Preparing.silent) w₃ l₃ h₃.2)
  simp only [updateEvent, wp_update, wp_pure]
  refine ⟨?_, ?_, h₄.2.made⟩ <;> rw [World.setCall_calls_self]
  · exact h₄.2.requestId
  · exact h₄.2.model

/-- What a round leaves on the event: another attempt, or the exchange that is returned. -/
def Concluded (requestId : Str) (model : Model) (attempts : ℕ) (ev : Event) (made : List Attempt) :
    Option Exchange → Prop
  | none => Begun requestId model attempts ev made
  | some exchange => Obtained requestId exchange.response ev made ∧
      ev.status = some exchange.response.upstream.status

/-- Once an attempt was answered: all of this, and the event has the status of the answer. -/
structure Answered (requestId : Str) (model : Model) (attempt : ℕ) (upstream : Upstream) (ev : Event)
    (made : List Attempt) : Prop where
  begun : Begun requestId model (attempt + 1) ev made
  obtained : Obtained requestId ⟨attempt, upstream⟩ ev made
  status : ev.status = some upstream.status

/-- Before an attempt is sent: the event names it. -/
structure Named (requestId : Str) (model : Model) (attempt : ℕ) (endpoint : Endpoint) (ev : Event)
    (made : List Attempt) : Prop where
  begun : Begun requestId model attempt ev made
  endpoint : ev.endpoint = some endpoint.name
  attempts : ev.attempts = some (attempt + 1)

/-- **A response** is discarded for another attempt, or named by the event. -/
theorem wp_answered_named {model : Model} {started upstreamStarted : ℚ} {attempt : ℕ}
    {endpoint : Endpoint} {excluded : List Str} {upstream : Upstream}
    (hbegun : Begun rid model (attempt + 1) (w.calls me).event (sends l))
    (hobtained : Obtained rid ⟨attempt, upstream⟩ (w.calls me).event (sends l)) :
    (alone (fun w w' : World => w'.calls me = w.calls me) ok).wp
      (answered lib settings me model started upstreamStarted attempt endpoint excluded upstream)
      (fun r w l => Concluded rid model (attempt + 1) (w.calls me).event (sends l) r)
      (fun _ _ _ => True) w l := by
  have hn : Neutral (alone (fun w w' : World => w'.calls me = w.calls me) ok) me Silent
      (fun f => ∀ ev, { f ev with upstreamHeadersMs := ev.upstreamHeadersMs } = ev)
      fun w l => Answered rid model attempt upstream (w.calls me).event (sends l) :=
    noted_neutral fun f hf ev made h => by
      rw [← hf ev] at h
      obtain ⟨⟨hid, hmodel, hmade⟩, ⟨a, earlier, hlast, hanswer, hattempt, hnames⟩, hstatus⟩ := h
      exact ⟨⟨hid, hmodel, hmade⟩, ⟨a, earlier, hlast, hanswer, hattempt,
        hnames.requestId, hnames.model, hnames.endpoint, hnames.attempts⟩, hstatus⟩
  have hstart : Answered rid model attempt upstream ((w.setCall me fun c =>
      { c with event := { c.event with status := some upstream.status } }).calls me).event (sends l) := by
    rw [World.setCall_calls_self]
    obtain ⟨a, earlier, hlast, hanswer, hattempt, hnames⟩ := hobtained
    exact ⟨⟨hbegun.requestId, hbegun.model, hbegun.made⟩, ⟨a, earlier, hlast, hanswer, hattempt,
      hnames.requestId, hnames.model, hnames.endpoint, hnames.attempts⟩, rfl⟩
  simp only [answered, wp_bind, updateEvent, wp_update]
  refine wp_mono (fun _ w₁ l₁ h₁ => ?_) (fun _ _ _ _ => trivial)
    (hn.coolRejected tableFree_noted trivial trivial (fun _ _ _ _ => trivial) model endpoint upstream _ l hstart)
  refine wp_mono (fun discarded w₂ l₂ h₂ => ?_) (fun _ _ _ h => h)
    (hn.discards trivial model excluded attempt upstream h₁.2)
  cases discarded with
  | true =>
    simp only [conclude, wp_bind]
    exact wp_mono (fun _ _ _ h => h.2.begun) (fun _ _ _ _ => trivial) (hn.close trivial w₂ l₂ h₂.2)
  | false =>
    simp only [conclude, wp_bind, clock, wp_ask, updateEvent, wp_update, wp_pure]
    rintro now _ ⟨t, -, rfl⟩
    have hnoted := hn.event w₂ l₂ (fun ev =>
      { ev with upstreamHeadersMs := some ((now - upstreamStarted) * 1000) }) (fun _ => by rfl) h₂.2
    exact ⟨hnoted.obtained, hnoted.status⟩

/-- **A round**: the event names its attempt before the attempt is sent. -/
theorem wp_attemptOnce_named {model : Model} {prepared : Payload} {forwarded : Headers}
    {started upstreamStarted : ℚ} {attempt : ℕ} {endpoint : Endpoint} {excluded : List Str}
    (h : Begun rid model attempt (w.calls me).event (sends l)) :
    (alone (fun w w' : World => w'.calls me = w.calls me) ok).wp (attemptOnce lib settings me model prepared
      forwarded started upstreamStarted attempt endpoint excluded)
      (fun r w l => Concluded rid model (attempt + 1) (w.calls me).event (sends l) r)
      (fun _ _ _ => True) w l := by
  have hnamed : Neutral (alone (fun w w' : World => w'.calls me = w.calls me) ok) me Silent (fun _ => False)
      fun w l => Named rid model attempt endpoint (w.calls me).event (sends l) :=
    noted_neutral fun _ hf => hf.elim
  have hfailed : Neutral (alone (fun w w' : World => w'.calls me = w.calls me) ok) me Silent (fun _ => False)
      fun w l => Begun rid model (attempt + 1) (w.calls me).event (sends l) :=
    noted_neutral fun _ hf => hf.elim
  have hstart : Named rid model attempt endpoint ((w.setCall me fun c => { c with event :=
      { c.event with endpoint := some endpoint.name, attempts := some (attempt + 1) } }).calls me).event
      (sends l) := by
    rw [World.setCall_calls_self]
    exact ⟨⟨h.requestId, h.model, h.made⟩, rfl, rfl⟩
  simp only [attemptOnce, wp_bind, updateEvent, wp_update]
  refine wp_mono (fun _ w₁ l₁ h₁ => ?_) (fun _ _ _ _ => trivial)
    (hnamed.emitRetry (fun _ _ _ => trivial) model endpoint attempt _ l hstart)
  obtain ⟨-, hbegun, hendpoint, hattempts⟩ := h₁
  have hsent : ∀ answer (w₂ : World) t, w₂.calls me = w₁.calls me → Begun rid model (attempt + 1) (w₂.calls me).event
      (sends (⟨t, .send model endpoint prepared forwarded, answer⟩ :: l₁)) := by
    intro answer w₂ t hcalls
    rw [hcalls]
    exact ⟨hbegun.requestId, hbegun.model, congrArg Nat.succ hbegun.made⟩
  refine wp_trySend trivial ?_ ?_ ?_
  · rintro w₂ l₂ upstream _ ⟨hcalls, rfl⟩ ⟨t, -, rfl⟩
    refine wp_answered_named (hsent _ w₂ t hcalls) ⟨_, sends l₂, rfl, rfl, hbegun.made.symm, ?_⟩
    rw [hcalls]
    refine ⟨hbegun.requestId, hbegun.model, hendpoint, hattempts.trans ?_⟩
    rw [← hbegun.made]
    rfl
  · rintro w₂ l₂ _ ⟨hcalls, rfl⟩ ⟨t, -, rfl⟩
    refine wp_mono (fun _ w₃ l₃ h₃ => ?_) (fun _ _ _ _ => trivial)
      (hfailed.cooldown tableFree_noted trivial trivial _ [] w₂ _ (hsent _ w₂ t hcalls))
    refine wp_mono (fun _ w₄ l₄ h₄ => ?_) (fun _ _ _ _ => trivial)
      (hfailed.emitFailure (fun _ _ _ _ => trivial) model endpoint .connect w₃ l₃ h₃.2)
    split
    · exact h₄.2
    · trivial
  · rintro w₂ l₂ e _ ⟨-, rfl⟩ - ⟨t, -, rfl⟩
    trivial

/-- **The loop**, by induction on the rounds that are left. -/
theorem wp_attempts_named {model : Model} {prepared : Payload} {forwarded : Headers}
    {started upstreamStarted : ℚ} (n : ℕ) (attempt : ℕ) {excluded : List Str}
    (h : Begun rid model attempt (w.calls me).event (sends l)) :
    (alone (fun w w' : World => w'.calls me = w.calls me) ok).wp (attempts lib settings me model prepared
      forwarded started upstreamStarted (List.range' attempt n) excluded)
      (fun exchange w l => Obtained rid exchange.response (w.calls me).event (sends l) ∧
        (w.calls me).event.status = some exchange.response.upstream.status)
      (fun _ _ _ => True) w l := by
  induction n generalizing attempt excluded w l with
  | zero => exact trivial
  | succ n ih =>
    have hidle : Neutral (alone (fun w w' : World => w'.calls me = w.calls me) ok) me Silent (fun _ => False)
        fun w l => Begun rid model attempt (w.calls me).event (sends l) :=
      noted_neutral fun _ hf => hf.elim
    rw [List.range'_succ, attempts, wp_bind]
    refine wp_mono (fun index w₁ l₁ h₁ => ?_) (fun _ _ _ _ => trivial)
      (hidle.select tableFree_noted trivial (fun _ _ => trivial) model excluded w l h)
    rw [wp_bind]
    refine wp_mono (fun r w₂ l₂ h₂ => ?_) (fun _ _ _ h => h) (wp_attemptOnce_named h₁.2)
    cases r with
    | some exchange => exact h₂
    | none => exact ih (attempt + 1) h₂

/-- **An exchange that is opened** has the response of the last attempt, which the event
names, with the status it was answered with. -/
theorem wp_open_obtained {payload : Payload} {headers : Headers} (hnone : sends l = []) :
    (alone (fun w w' : World => w'.calls me = w.calls me) ok).wp
      (Gateway.open lib settings me payload headers rid)
      (fun exchange w l => Obtained rid exchange.response (w.calls me).event (sends l) ∧
        (w.calls me).event.status = some exchange.response.upstream.status)
      (fun _ _ _ => True) w l := by
  simp only [Gateway.open, wp_bind, clock, wp_ask, wp_update, wp_tryCatch]
  rintro started _ ⟨t, -, rfl⟩
  refine wp_mono (fun _ _ _ h => h) (fun e w₁ l₁ _ => ?_) (?_ : (alone _ ok).wp
    (Gateway.openInner lib settings me payload headers started) _ (fun _ _ _ => True) _ _)
  · simp only [updateEvent, eventOf, emit, wp_update, wp_read, wp_pure, wp_ask, wp_bind, wp_ofExcept, wp_throw]
    intro _ _ _ a _ _
    cases a <;> trivial
  · unfold Gateway.openInner
    rw [wp_bind]
    refine wp_mono (fun r w₁ l₁ h₁ => ?_) (fun _ _ _ _ => trivial)
      (wp_prepare_begun (by rw [World.setCall_calls_self]) hnone)
    rw [wp_bind]
    rintro now _ ⟨t₁, -, rfl⟩
    exact wp_attempts_named 2 0 h₁

end

end Application
end SwitchyardGateway
