/-
# What the log says of an answer

The record of a chat call is to say what the client was told: `completed` if and
only if the client was answered with the completion and closing the upstream
succeeded, and the status and code of the error if it was answered with one
(`Honest`).  `chat` sets the outcome before it renders the completion.  A
completion that cannot be rendered, because of a number that is not finite or of
half a surrogate pair, is answered with an error and still recorded as completed;
`honest_iff` says that nothing else goes wrong.
-/

import SwitchyardGateway.Ingress.ChatRules
import SwitchyardGateway.Application.Ledger

namespace SwitchyardGateway
namespace Ingress

open Coop Coop.Discipline Python Application

/-- The closes of responses, newest first, and how they ended. -/
def closings : List Entry → List (ℕ × Except Err Unit)
  | [] => []
  | ⟨_, .close attempt, closed⟩ :: l => (attempt, closed) :: closings l
  | _ :: l => closings l

/-- Closing the upstream of the exchange, which comes last, succeeded. -/
def Closed (exchange : Exchange) (l : List Entry) : Prop :=
  (closings l).head? = some (exchange.response.attempt, .ok ())

section

variable (lib : Lib) (limit : ℕ) (request : Request) (exchange : Exchange) (r : Except Err Reply)
  (l : List Entry)

/-- The client was answered with the completion. -/
def Answered : Prop :=
  ∃ payload value body headers, parseRequest lib request.body.chunks.flatten = .ok payload ∧
    Completes lib limit payload exchange value ∧ lib.render (.obj value) = .ok body ∧
    r = .ok (.completion body headers)

/-- There is one record, and it says what the client was told. -/
def Honest : Prop :=
  ∃ event, requests l = [event] ∧
    (event.outcome = some .completed ↔ Answered lib limit request exchange r ∧ Closed exchange l) ∧
    ∀ status body headers, r = .ok (.error status body headers) → ∃ code, body = errorBody code ∧
      event.status = some status ∧ event.error = some code ∧ event.outcome ≠ some .completed

/-- The completion cannot be rendered. -/
def Unrenderable : Prop :=
  ∃ payload value e, parseRequest lib request.body.chunks.flatten = .ok payload ∧
    Completes lib limit payload exchange value ∧ lib.render (.obj value) = .error e

end

/-- The discipline of a call that others leave alone and whose records are taken. -/
def attended (me : ℕ) : Discipline World Call Answer (List Entry) :=
  alone (fun w w' => w'.calls me = w.calls me) fun _ st => SinkOk st

variable {lib : Lib} {settings : Settings} {limit me : ℕ} {request : Request} {requestId : Str}
  {exchange : Exchange}

/-- Questions that emit no request record. -/
def Unrecorded : Call → Prop
  | .emit (.request _) => False
  | _ => True

theorem requests_cons {q : Call} (hq : Unrecorded q) (t : ℚ) (a : Answer q) (l : List Entry) :
    requests (⟨t, q, a⟩ :: l) = requests l := by
  cases q with
  | emit record =>
    cases record with
    | request event => exact hq.elim
    | _ => rfl
  | _ => rfl

/-- An assertion of the call's own objects and of the records so far. -/
theorem attended_neutral {P : CallState → List Event → Prop} {writes : (Event → Event) → Prop}
    (hwrites : ∀ f, writes f → ∀ c events, P c events → P { c with event := f c.event } events) :
    Neutral (attended me) me Unrecorded writes fun w l => P (w.calls me) (requests l) :=
  .of_calls (fun _ _ t a l hq h => by rwa [requests_cons hq]) fun c f l hf h => hwrites f hf c (requests l) h

theorem tableFree_call {P : CallState → List Event → Prop} :
    TableFree fun w l => P (w.calls me) (requests l) := fun w w' l hcalls h => by
  change P (w'.calls me) (requests l)
  rwa [hcalls]

theorem unrecorded_of_opening {q : Call} (hq : Opening q) : Unrecorded q := by
  cases q with
  | emit record => cases record <;> first | exact hq.elim | trivial
  | _ => trivial

/-! ### The labels of an exchange -/

/-- A routed request has the label of its model on its event. -/
theorem wp_routeRequest_model {request : Payload} {w : World} {l : List Entry} :
    (attended me).wp (routeRequest settings me request)
      (fun _ w _ => (w.calls me).event.model.isSome = true) (fun _ _ _ => True) w l := by
  have htrue : Neutral (attended me) me Unrecorded (fun _ => True) fun _ _ => True :=
    attended_neutral (P := fun _ _ => True) fun _ _ _ _ _ => trivial
  unfold routeRequest
  split
  · simp only [wp_bind, clock, wp_ask]
    intro now l₁ _
    split
    · rw [wp_bind]
      refine wp_mono (fun routed w₁ l₁ _ => ?_) (fun _ _ _ _ => trivial)
        (htrue.routeTier (fun q hq => unrecorded_of_opening hq.opening) (fun _ _ => trivial) _ _ w l₁ trivial)
      split
      · simp only [wp_bind, wp_ask, updateEvent, wp_update, wp_pure]
        intro now l₂ _
        simp
      · trivial
    · split <;> trivial
  · trivial

/-- A label that is there is there to stay. -/
theorem labels_stay {P : Event → Prop} {writes : (Event → Event) → Prop}
    (hwrites : ∀ f, writes f → ∀ ev, P ev → P (f ev)) :
    Neutral (attended me) me Unrecorded writes fun w _ => P (w.calls me).event :=
  attended_neutral (P := fun c _ => P c.event) fun f hf c _ h => hwrites f hf c.event h

theorem model_of_attempting {f : Event → Event} (hf : Attempting f) (ev : Event) :
    (f ev).model = ev.model := by
  have hmodel := congrArg Event.model (hf ev)
  exact hmodel

/-- A prepared request has the label of its model on its event. -/
theorem wp_prepare_model {request : Payload} {headers : Headers} {w : World} {l : List Entry} :
    (attended me).wp (prepare lib settings me request headers)
      (fun _ w _ => (w.calls me).event.model.isSome = true) (fun _ _ _ => True) w l := by
  have hstay : Neutral (attended me) me Unrecorded Compressing fun w _ =>
      (w.calls me).event.model.isSome = true :=
    labels_stay (P := fun ev => ev.model.isSome = true) fun f hf ev h => by
      have hmodel := congrArg Event.model (hf ev)
      exact (congrArg Option.isSome hmodel).trans h
  have hquiet : ∀ q, Preparing q → Unrecorded q := fun q hq => unrecorded_of_opening hq.opening
  simp only [prepare, wp_bind, clock, wp_ask]
  refine wp_mono (fun routed w₁ l₁ h₁ => ?_) (fun _ _ _ _ => trivial) wp_routeRequest_model
  intro now l₂ _
  refine wp_mono (fun prepared w₂ l₃ h₂ => ?_) (fun _ _ _ _ => trivial)
    (hstay.compressHistory hquiet (fun _ hf => hf) _ _ _ w₁ l₂ h₁)
  intro now l₄ _
  simp only [updateEvent, wp_update, wp_pure]
  simpa using h₂.2

/-- The loop returns an exchange with both labels on its event. -/
theorem wp_attempts_labelled {model : Model} {prepared : Payload} {forwarded : Headers}
    {started upstreamStarted : ℚ} {rounds : List ℕ} {excluded : List Str} {w : World} {l : List Entry}
    (h : (w.calls me).event.model.isSome = true) :
    (attended me).wp (attempts lib settings me model prepared forwarded started upstreamStarted rounds
      excluded) (fun _ w _ => Labelled me w) (fun _ _ _ => True) w l := by
  have hstay : Neutral (attended me) me Unrecorded Attempting fun w _ =>
      (w.calls me).event.model.isSome = true :=
    labels_stay (P := fun ev => ev.model.isSome = true) fun f hf ev h => by
      rwa [model_of_attempting hf]
  have hboth : Neutral (attended me) me Unrecorded Concluding fun w _ => Labelled me w :=
    labels_stay (P := fun ev => ev.model.isSome = true ∧ ev.endpoint.isSome = true) fun f hf ev h => by
      have hmodel := congrArg Event.model (hf ev)
      have hendpoint := congrArg Event.endpoint (hf ev)
      exact ⟨(congrArg Option.isSome hmodel).trans h.1, (congrArg Option.isSome hendpoint).trans h.2⟩
  have hmodelTable : TableFree fun w (_ : List Entry) => (w.calls me).event.model.isSome = true :=
    tableFree_call (P := fun c _ => c.event.model.isSome = true)
  have hbothTable : TableFree fun w (_ : List Entry) => Labelled me w :=
    tableFree_call (P := fun c _ => c.event.model.isSome = true ∧ c.event.endpoint.isSome = true)
  have hquiet : ∀ q, Opening q → Unrecorded q := fun q => unrecorded_of_opening
  induction rounds generalizing excluded w l with
  | nil => exact trivial
  | cons attempt rounds ih =>
    rw [attempts, wp_bind]
    refine wp_mono (fun index w₁ l₁ h₁ => ?_) (fun _ _ _ _ => trivial)
      (hstay.select hmodelTable trivial (fun _ _ => trivial) model excluded w l h)
    have hround : (attended me).wp (attemptOnce lib settings me model prepared forwarded started
        upstreamStarted attempt (model.endpoints.get index) ((model.endpoints.get index).name :: excluded))
        (fun _ w _ => Labelled me w) (fun _ w _ => Labelled me w) w₁ l₁ := by
      have hlabelled : Labelled me (w₁.setCall me fun c => { c with event := { c.event with
          endpoint := some (model.endpoints.get index).name, attempts := some (attempt + 1) } }) := by
        constructor
        · simpa using h₁.2
        · simp
      rw [attemptOnce, wp_bind, updateEvent, wp_update]
      refine wp_mono (fun _ _ _ h => h.2) (fun _ _ _ h => h) ((Preserves.bind
        (hboth.emitRetry (fun _ _ _ => trivial) model (model.endpoints.get index) attempt) (fun _ _ =>
          (hboth.trySend hbothTable (fun q hq => hquiet q hq.opening) _ _ _ _ _ trivial).bind fun answer _ => ?_) :
            (attended me).Preserves _ _ fun _ => True) _ l₁ hlabelled)
      cases answer with
      | none => exact .ret trivial
      | some upstream =>
        exact hboth.answered hbothTable (fun q hq => hquiet q hq.trying.opening) (fun _ hf => hf) _ _ _ _ _ _ _
    rw [wp_bind]
    refine wp_mono (fun r w₂ l₂ h₂ => ?_) (fun _ _ _ _ => trivial) hround
    cases r with
    | some exchange => exact h₂
    | none => exact ih h₂.1

/-- A call before its exchange: nothing was recorded yet. -/
def Awaiting (c : CallState) (events : List Event) : Prop :=
  c.exchange = none ∧ c.handedOff = false ∧ c.outcome = .failed ∧ events = []

/-- **An exchange is opened** with both labels on its event and nothing recorded. -/
theorem wp_open_attended {payload : Payload} {headers : Headers} {w : World} {l : List Entry}
    (h : Awaiting (w.calls me) (requests l)) :
    (attended me).wp (Gateway.open lib settings me payload headers requestId)
      (fun _ w l => Labelled me w ∧ Awaiting (w.calls me) (requests l))
      (fun _ w _ => (w.calls me).exchange = none) w l := by
  have hwaits : Neutral (attended me) me Unrecorded (fun _ => True) fun w l =>
      Awaiting (w.calls me) (requests l) := attended_neutral fun _ _ _ _ h => h
  simp only [Gateway.open, wp_bind, clock, wp_ask, wp_update, wp_tryCatch]
  rintro started _ ⟨t, -, rfl⟩
  have hstart : Awaiting ((w.setCall me fun c =>
      { c with event := { requestId := requestId, attempts := some 0 } }).calls me)
      (requests (⟨t, .clock, started⟩ :: l)) := by
    rw [World.setCall_calls_self]
    exact h
  have hinner : (attended me).wp (Gateway.openInner lib settings me payload headers started)
      (fun _ w _ => Labelled me w) (fun _ _ _ => True) (w.setCall me fun c =>
        { c with event := { requestId := requestId, attempts := some 0 } }) (⟨t, .clock, started⟩ :: l) := by
    simp only [Gateway.openInner, wp_bind, clock, wp_ask]
    refine wp_mono (fun r w₁ l₁ h₁ => ?_) (fun _ _ _ _ => trivial) wp_prepare_model
    intro now l₂ _
    exact wp_attempts_labelled h₁
  refine wp_mono (fun _ _ _ h => ⟨h.1, h.2.2⟩) (fun e w₁ l₁ h₁ => ?_) (wp_and hinner
    (hwaits.openInner (tableFree_call (P := Awaiting)) (fun q => unrecorded_of_opening)
      (fun _ _ => trivial) (fun _ _ => trivial) payload headers started _ _ hstart))
  rintro now _ ⟨t, -, rfl⟩
  simp only [updateEvent, wp_update, eventOf, wp_bind, wp_read, wp_pure, emit, wp_ask, wp_ofExcept, wp_throw]
  rintro a _ ⟨t', hok, rfl⟩
  obtain rfl : a = .ok () := hok
  rw [ends_ok, World.setCall_calls_self]
  exact h₁.2.1

/-! ### The reply and the record -/

/-- A call that holds its exchange, with nothing recorded yet. -/
structure Holding (exchange : Exchange) (outcome : Outcome) (c : CallState) (events : List Event) :
    Prop where
  exchange : c.exchange = some exchange
  unfinished : c.finished = false
  kept : c.handedOff = false
  outcome : c.outcome = outcome
  unrecorded : events = []

/-- The body of `chat` raised, without an exchange or with one: the outcome is
`completed` already if a completion could not be rendered. -/
def Thrown (lib : Lib) (limit me : ℕ) (request : Request) (e : Err) (w : World) (l : List Entry) : Prop :=
  (w.calls me).exchange = none ∨ ∃ exchange outcome,
    Holding exchange outcome (w.calls me) (requests l) ∧
    (outcome = .completed ↔ Unrenderable lib limit request exchange) ∧
    (outcome = .completed → ∃ e', e = .exc e')

/-- A result that is no reply but an error, which the event has too. -/
def Rejection (ev : Event) (r : Except Err Reply) : Prop :=
  ∀ reply, r = .ok reply → ∃ code status requestId, reply = errorReply code status requestId ∧
    ev.status = some status ∧ ev.error = some code

/-- What `chat` comes to before its finalizer runs. -/
def Due (lib : Lib) (limit me : ℕ) (request : Request) (r : Except Err Reply) (w : World)
    (l : List Entry) : Prop :=
  (w.calls me).exchange = none ∨ (w.calls me).handedOff = true ∨ ∃ exchange outcome,
    Holding exchange outcome (w.calls me) (requests l) ∧
    (Answered lib limit request exchange r ∧ outcome = .completed ∨
      Rejection (w.calls me).event r ∧ (outcome = .completed ↔ Unrenderable lib limit request exchange))

/-- What `chat` comes to. -/
def Told (lib : Lib) (limit me : ℕ) (request : Request) (r : Except Err Reply) (w : World)
    (l : List Entry) : Prop :=
  ∀ exchange, (w.calls me).exchange = some exchange → (w.calls me).handedOff = false →
    (Honest lib limit request exchange r l ↔
      ¬(Unrenderable lib limit request exchange ∧ Closed exchange l))

/-- A completion that was rendered can be. -/
theorem Answered.renderable {r : Except Err Reply} (h : Answered lib limit request exchange r) :
    ¬Unrenderable lib limit request exchange := by
  rintro ⟨payload, value, e, hparse, hcompletes, hrender⟩
  obtain ⟨payload', value', body, headers, hparse', hcompletes', hrender', -⟩ := h
  obtain rfl : payload = payload' := Except.ok.inj (hparse.symm.trans hparse')
  obtain ⟨read, hread, rfl⟩ := hcompletes.parsed
  obtain ⟨read', hread', rfl⟩ := hcompletes'.parsed
  obtain rfl : read = read' := Except.ok.inj (hread.symm.trans hread')
  rw [hrender] at hrender'
  cases hrender'

theorem wp_chatTry_attended {w : World} {l : List Entry} (h : Awaiting (w.calls me) (requests l)) :
    (attended me).wp (chatTry lib settings limit me request requestId)
      (fun reply => Due lib limit me request (.ok reply)) (Thrown lib limit me request) w l := by
  have hwaits : Neutral (attended me) me Unrecorded (fun _ => True) fun w l =>
      Awaiting (w.calls me) (requests l) := attended_neutral fun _ _ _ _ h => h
  simp only [chatTry, wp_bind, setVars, wp_update]
  refine wp_mono (fun payload w₁ l₁ h₁ => ?_) (fun e w₁ l₁ h₁ => .inl h₁.1)
    (preserves_readRequest hwaits trivial request w l h)
  obtain ⟨hparse, hawaiting⟩ := h₁
  have hopened : Awaiting ((w₁.setCall me fun c => { c with opened := true }).calls me) (requests l₁) := by
    rw [World.setCall_calls_self]
    exact hawaiting
  refine wp_mono (fun exchange w₂ l₂ h₂ => ?_) (fun e w₂ l₂ h₂ => .inl h₂) (wp_open_attended hopened)
  obtain ⟨hlabelled, -, hkept, houtcome, hrecords⟩ := h₂
  have hholding : Neutral (attended me) me Unrecorded (fun _ => True) fun w l =>
      Holding exchange .failed (w.calls me) (requests l) :=
    attended_neutral fun _ _ _ _ h => ⟨h.exchange, h.unfinished, h.kept, h.outcome, h.unrecorded⟩
  have hstart : Holding exchange .failed ((w₂.setCall me fun c =>
      { c with exchange := some exchange, finished := false }).calls me) (requests l₂) := by
    rw [World.setCall_calls_self]
    exact ⟨rfl, rfl, hkept, houtcome, hrecords⟩
  have hlabels : Labelled me (w₂.setCall me fun c =>
      { c with exchange := some exchange, finished := false }) := by
    unfold Labelled
    rw [World.setCall_calls_self]
    exact hlabelled
  refine wp_mono (fun reply w₃ l₃ h₃ => ?_) (fun e w₃ l₃ h₃ => ?_)
    (wp_deliver (C := fun _ w l => Holding exchange .completed (w.calls me) (requests l))
      (H := fun w _ => (w.calls me).handedOff = true) hholding trivial trivial
      (fun _ => trivial) (fun _ _ => trivial) ?_ ?_ hstart)
  · rcases h₃ with ⟨headers, rfl, hhanded⟩ | ⟨value, body, headers, rfl, hcompletes, hrender, hheld⟩
    · exact .inr (.inl hhanded)
    · exact .inr (.inr ⟨exchange, .completed, hheld,
        .inl ⟨⟨payload, value, body, headers, hparse, hcompletes, hrender, rfl⟩, rfl⟩⟩)
  · rcases h₃ with ⟨hno, hheld⟩ | ⟨value, e', hcompletes, hrender, rfl, hheld⟩
    · refine .inr ⟨exchange, .failed, hheld, ⟨(by rintro ⟨⟩), ?_⟩, (by rintro ⟨⟩)⟩
      rintro ⟨payload', value, e', hparse', hcompletes, -⟩
      obtain rfl : payload = payload' := Except.ok.inj (hparse.symm.trans hparse')
      exact absurd hcompletes (hno hlabels value)
    · exact .inr ⟨exchange, .completed, hheld,
        ⟨fun _ => ⟨payload, value, e', hparse, hcompletes, hrender⟩, fun _ => rfl⟩, fun _ => ⟨e', rfl⟩⟩
  · intro w l value _ h
    rw [World.setCall_calls_self]
    exact ⟨h.exchange, h.unfinished, h.kept, rfl, h.unrecorded⟩
  · intro w l _
    rw [World.setCall_calls_self]

/-- An error is a rejection that the event has too. -/
theorem wp_refuse_attended {code : String} {status : ℕ} {outcome : Outcome} {e : Exc} {w : World}
    {l : List Entry} (h : Thrown lib limit me request (.exc e) w l) :
    (attended me).wp (refuse me requestId code status outcome)
      (fun reply => Due lib limit me request (.ok reply)) (fun e => Due lib limit me request (.error e))
      w l := by
  refine wp_refuse (fun hsome => ?_) (fun hnone _ => .inl hnone) (fun hnone _ a l₁ ha => ?_)
  · rcases h with hnone | ⟨exchange, outcome, hheld, hcompleted, -⟩
    · rw [hnone] at hsome
      cases hsome
    · refine .inr (.inr ⟨exchange, outcome, ?_, .inr ⟨fun reply hreply => ?_, hcompleted⟩⟩)
      · rw [World.setCall_calls_self]
        exact ⟨hheld.exchange, hheld.unfinished, hheld.kept, hheld.outcome, hheld.unrecorded⟩
      · rw [World.setCall_calls_self]
        exact ⟨code, status, requestId, (Except.ok.inj hreply).symm, rfl, rfl⟩
  · cases a with
    | ok _ => exact .inl hnone
    | error e => exact .inl hnone

/-- The `except` arms of `chat`. -/
theorem wp_chatExcept_attended {e : Err} {w : World} {l : List Entry}
    (h : Thrown lib limit me request e w l) :
    (attended me).wp (chatExcept me requestId e) (fun reply => Due lib limit me request (.ok reply))
      (fun e => Due lib limit me request (.error e)) w l := by
  cases e with
  | exc e =>
    simp only [chatExcept]
    split
    · exact wp_refuse_attended h
    · exact wp_refuse_attended h
  | cancelled =>
    simp only [chatExcept, wp_bind, setVars, wp_update, wp_throw]
    rcases h with hnone | ⟨exchange, outcome, hheld, hcompleted, hexc⟩
    · left
      rw [World.setCall_calls_self]
      exact hnone
    · refine .inr (.inr ⟨exchange, .cancelled, ?_, .inr ⟨(by rintro _ ⟨⟩), (by rintro ⟨⟩), fun hun => ?_⟩⟩)
      · rw [World.setCall_calls_self]
        exact ⟨hheld.exchange, hheld.unfinished, hheld.kept, rfl, hheld.unrecorded⟩
      · obtain ⟨e', he'⟩ := hexc (hcompleted.2 hun)
        cases he'
  | exit =>
    simp only [chatExcept, wp_throw]
    rcases h with hnone | ⟨exchange, outcome, hheld, hcompleted, hexc⟩
    · exact .inl hnone
    · exact .inr (.inr ⟨exchange, outcome, hheld, .inr ⟨(by rintro _ ⟨⟩), hcompleted⟩⟩)

/-- A call completes if it was to and its close succeeded. -/
theorem closedOutcome_eq_completed {outcome : Outcome} {closed : Except Err Unit} :
    closedOutcome outcome closed = .completed ↔ outcome = .completed ∧ closed = .ok () := by
  cases closed with
  | ok u => simp [closedOutcome]
  | error e =>
    simp only [closedOutcome, reduceCtorEq, and_false, iff_false]
    split
    · exact nofun
    · assumption

/-- The result of `chat`, given what it came to and how the close ended. -/
def afterClose (r : Except Err Reply) (closed : Except Err Unit) : Except Err Reply :=
  match finished closed with
  | .ok _ => r
  | .error e => .error e

/-- **What a closed exchange tells**, given what was due. -/
theorem told_of_closed {r : Except Err Reply} {ev : Event} {outcome : Outcome}
    {closed : Except Err Unit} (ms : ℚ) {w : World} {l : List Entry}
    (hdue : Answered lib limit request exchange r ∧ outcome = .completed ∨
      Rejection ev r ∧ (outcome = .completed ↔ Unrenderable lib limit request exchange))
    (hexchange : (w.calls me).exchange = some exchange)
    (hrecords : requests l = [closedEvent ev outcome closed ms])
    (hclosings : (closings l).head? = some (exchange.response.attempt, closed)) :
    Told lib limit me request (afterClose r closed) w l := by
  intro exchange' hexchange' _
  obtain rfl : exchange = exchange' := Option.some.inj (hexchange.symm.trans hexchange')
  have hclosed : Closed exchange l ↔ closed = .ok () := by
    rw [Closed, hclosings]
    simp
  have houtcome : (closedEvent ev outcome closed ms).outcome = some .completed ↔
      outcome = .completed ∧ closed = .ok () := by
    rw [← closedOutcome_eq_completed]
    exact Option.some_inj
  -- only a reply that was due is given
  have hgiven : ∀ reply, afterClose r closed = .ok reply → r = .ok reply := by
    intro reply hreply
    unfold afterClose at hreply
    split at hreply
    · exact hreply
    · cases hreply
  rw [hclosed]
  rcases hdue with ⟨hanswered, rfl⟩ | ⟨hrejection, hcompleted⟩
  · have hrender := hanswered.renderable
    refine ⟨fun _ h => hrender h.1, fun _ => ⟨_, hrecords, houtcome.trans ?_, ?_⟩⟩
    · rw [hclosed]
      constructor
      · rintro ⟨-, rfl⟩
        exact ⟨hanswered, rfl⟩
      · exact fun h => ⟨rfl, h.2⟩
    · intro status body headers hreply
      obtain ⟨payload, value, body', headers', -, -, -, rfl⟩ := hanswered
      cases hgiven _ hreply
  · have hunanswered : ¬Answered lib limit request exchange (afterClose r closed) := by
      rintro ⟨payload, value, body, headers, -, -, -, hreply⟩
      obtain ⟨code, status, requestId, herror, -⟩ := hrejection _ (hgiven _ hreply)
      cases herror
    constructor
    · rintro ⟨event, hevent, hiff, -⟩ ⟨hun, hok⟩
      obtain rfl := List.singleton_inj.1 (hrecords.symm.trans hevent)
      exact hunanswered (hiff.1 (houtcome.2 ⟨hcompleted.2 hun, hok⟩)).1
    · intro hno
      have hnot : (closedEvent ev outcome closed ms).outcome ≠ some .completed := fun h =>
        hno ⟨hcompleted.1 (houtcome.1 h).1, (houtcome.1 h).2⟩
      refine ⟨_, hrecords, ⟨fun h => absurd h hnot, fun h => absurd h.1 hunanswered⟩, ?_⟩
      intro status body headers hreply
      obtain ⟨code, status', requestId, herror, hstatus, hcode⟩ := hrejection _ (hgiven _ hreply)
      obtain ⟨rfl, rfl, rfl⟩ := Reply.error.inj herror
      exact ⟨code, rfl, hstatus, hcode, hnot⟩

/-- The `finally` of `chat` tells what is due. -/
theorem wp_chatFinally_attended {r : Except Err Reply} {w : World} {l : List Entry}
    (h : Due lib limit me request r w l) :
    (attended me).wp (chatFinally me) (fun _ => Told lib limit me request r)
      (fun e => Told lib limit me request (.error e)) w l := by
  simp only [chatFinally, wp_bind, wp_read]
  rcases h with hnone | hhanded | ⟨exchange, outcome, hheld, hdue⟩
  · rw [hnone]
    intro exchange hexchange
    rw [hnone] at hexchange
    cases hexchange
  · have hvacuous : Told lib limit me request r w l := fun exchange _ hkept => by
      rw [hhanded] at hkept
      cases hkept
    rw [hhanded]
    split
    · rename_i hfalse
      cases hfalse
    · exact hvacuous
  · rw [hheld.exchange, hheld.kept, hheld.outcome]
    refine wp_finish (fun hfinished => ?_) (fun _ => trivial) ?_
    · rw [hheld.unfinished] at hfinished
      cases hfinished
    · rintro - w₁ l₁ ⟨hcalls, rfl⟩ closed _ ⟨t₁, -, rfl⟩ w₂ - now _ ⟨t₂, -, rfl⟩ ms w₃ rfl a _ ⟨t₃, hok, rfl⟩
      obtain rfl : a = .ok () := hok
      rw [World.setCall_calls_self] at hcalls
      have htold : Told lib limit me request (afterClose r closed)
          (w₁.setCall me fun c => { c with event := closedEvent c.event outcome closed ms })
          (⟨t₃, .emit (.request (closedEvent (w₁.calls me).event outcome closed ms)), .ok ()⟩ ::
            ⟨t₂, .clock, now⟩ :: ⟨t₁, .close exchange.response.attempt, closed⟩ :: l₁) := by
        refine told_of_closed ms hdue ?_ ?_ rfl
        · rw [World.setCall_calls_self, hcalls]
          exact hheld.exchange
        · rw [hcalls]
          exact congrArg _ hheld.unrecorded
      rw [World.setCall_calls_self]
      cases closed with
      | ok u => exact htold
      | error e => cases e <;> exact htold

/-- **What a call comes to.** -/
theorem wp_chat_attended {w : World} {l : List Entry} (h : requests l = []) :
    (attended me).wp (chat lib settings limit me request requestId)
      (fun reply => Told lib limit me request (.ok reply))
      (fun e => Told lib limit me request (.error e)) w l := by
  have hstart : Awaiting ((w.setCall me fun c => { c with
      exchange := none, handedOff := false, opened := false, outcome := .failed }).calls me)
      (requests l) := by
    rw [World.setCall_calls_self]
    exact ⟨rfl, rfl, rfl, h⟩
  simp only [chat, wp_bind, setVars, wp_update, wp_finallyDo, wp_tryCatch]
  refine wp_mono (fun reply w₁ l₁ h₁ => ?_) (fun e w₁ l₁ h₁ => ?_) (wp_chatTry_attended hstart)
  · exact wp_chatFinally_attended h₁
  · refine wp_mono (fun reply w₂ l₂ h₂ => ?_) (fun e' w₂ l₂ h₂ => ?_) (wp_chatExcept_attended h₁)
    · exact wp_chatFinally_attended h₂
    · exact wp_chatFinally_attended h₂

/-- **A record is honest** unless a completion that cannot be rendered was closed
without a failure. -/
theorem honest_iff (lib : Lib) (settings : Settings) (limit me : ℕ) (request : Request)
    (requestId : Str) (w w' : World) (r : Except Err Reply) (l : List Entry) (exchange : Exchange)
    (hrun : (attended me).Run (chat lib settings limit me request requestId) w [] r w' l)
    (hexchange : (w'.calls me).exchange = some exchange) (hunary : (w'.calls me).handedOff = false) :
    Honest lib limit request exchange r l ↔
      ¬(Unrenderable lib limit request exchange ∧ Closed exchange l) := by
  have htold := hrun.ends (wp_chat_attended rfl)
  cases r with
  | ok reply => exact htold exchange hexchange hunary
  | error e => exact htold exchange hexchange hunary

namespace Demo

/-- The text of `Application.Demo.request`. -/
def requestText : Bytes :=
  encode "\x7b\"model\":\"m\",\"messages\":[\x7b\"role\":\"user\",\"content\":\"hi\"\x7d]\x7d".toList

/-- A completion, and one with a number that overflows. -/
def completion : Bytes := encode "\x7b\"choices\":[]\x7d".toList

def overflowing : Bytes := encode "\x7b\"choices\":[1e999]\x7d".toList

/-- The body of a response, on the completions met here. -/
def render : Json → Except Exc Bytes
  | .obj [(k, .list []), (m, .str name)] =>
    if k = lit "choices" ∧ m = lit "model" ∧ name = lit "m" then
      .ok (encode "\x7b\"choices\":[],\"model\":\"m\"\x7d".toList)
    else .error .valueError
  | _ => .error .valueError

/-- The libraries, with the `json` module on the bodies met here. -/
def bodies : Lib :=
  { Application.Demo.lib with
    loadsBytes := fun _ data =>
      if data = requestText then .ok (.obj Application.Demo.request)
      else if data = completion then .ok (.obj [(lit "choices", .list [])])
      else if data = overflowing then .ok (.obj [(lit "choices", .list [.float (.inf false)])])
      else .error .valueError
    render := render }

/-- A request with its key and its text. -/
def chatRequest : Request :=
  ⟨[(lit "authorization", lit "Bearer secret")], ⟨[requestText], .eof⟩⟩

/-- An upstream that answers with `body`. -/
def answered (body : Bytes) : Upstream :=
  ⟨200, [(lit "content-type", lit "application/json")], ⟨[body], .eof⟩⟩

/-- The surroundings of a chat call whose upstream answers with `body`. -/
def upstreams (body : Bytes) (l : List Entry) (q : Call) : ℚ × Answer q :=
  (Application.Demo.now l,
    Application.Demo.answer (fun _ => .ok (answered body)) (.ok ()) (Application.Demo.now l) q)

/-- The run of a chat call whose upstream answers with `body`. -/
def chatRun (body : Bytes) : Except Err Reply × World × List Entry :=
  exec (upstreams body) (chat bodies Application.Demo.settings 1024 0 chatRequest (lit "r"))
    Application.Demo.world []

theorem chatRun_run (body : Bytes) :
    (attended 0).Run (chat bodies Application.Demo.settings 1024 0 chatRequest (lit "r"))
      Application.Demo.world [] (chatRun body).1 (chatRun body).2.1 (chatRun body).2.2 :=
  run_of_exec (upstreams body) (fun _ _ => (Application.Demo.answer_behaves _ _ _ _).2) rfl

/-- The exchange of such a call. -/
def chatExchange (body : Bytes) : Exchange := ⟨⟨0, answered body⟩, 2, 7⟩

end Demo

/-- A completion that can be rendered. -/
theorem honest_completion : Honest Demo.bodies 1024 Demo.chatRequest
    (Demo.chatExchange Demo.completion) (Demo.chatRun Demo.completion).1
    (Demo.chatRun Demo.completion).2.2 := by
  refine (honest_iff Demo.bodies Application.Demo.settings 1024 0 Demo.chatRequest (lit "r")
    Application.Demo.world _ _ _ (Demo.chatExchange Demo.completion) (Demo.chatRun_run Demo.completion)
    (by decide +kernel) (by decide +kernel)).2 ?_
  rintro ⟨⟨payload, value, e, hparse, hcompletes, hrender⟩, -⟩
  obtain rfl : Application.Demo.request = payload := Except.ok.inj hparse
  obtain ⟨read, hread, rfl⟩ := hcompletes.parsed
  obtain rfl : [(lit "choices", Json.list [])] = read := Except.ok.inj hread
  cases hrender

/-- **A completion with a number that overflows** is answered with an error and
recorded as completed. -/
theorem overflow_recorded_completed :
    (attended 0).Run (chat Demo.bodies Application.Demo.settings 1024 0 Demo.chatRequest (lit "r"))
      Application.Demo.world [] (Demo.chatRun Demo.overflowing).1 (Demo.chatRun Demo.overflowing).2.1
      (Demo.chatRun Demo.overflowing).2.2 ∧
    ((Demo.chatRun Demo.overflowing).2.1.calls 0).exchange =
      some (Demo.chatExchange Demo.overflowing) ∧
    ((Demo.chatRun Demo.overflowing).2.1.calls 0).handedOff = false ∧
    ¬Honest Demo.bodies 1024 Demo.chatRequest (Demo.chatExchange Demo.overflowing)
      (Demo.chatRun Demo.overflowing).1 (Demo.chatRun Demo.overflowing).2.2 := by
  refine ⟨Demo.chatRun_run _, by decide +kernel, by decide +kernel, ?_⟩
  rintro ⟨event, hevent, -, herror⟩
  have houtcome : (requests (Demo.chatRun Demo.overflowing).2.2).map Event.outcome =
      [some .completed] := by decide +kernel
  have hstatus : (Demo.chatRun Demo.overflowing).1.toOption.map Reply.status = some 500 := by
    decide +kernel
  cases hreply : (Demo.chatRun Demo.overflowing).1 with
  | error e =>
    rw [hreply] at hstatus
    cases hstatus
  | ok reply =>
    rw [hreply] at hstatus
    cases reply with
    | error status body headers =>
      obtain ⟨code, -, -, -, hnot⟩ := herror status body headers hreply
      rw [hevent] at houtcome
      exact hnot (List.singleton_inj.1 houtcome)
    | _ => cases hstatus

end Ingress
end SwitchyardGateway
