/-
# Where a reply comes from

A completion is what the last attempt obtained, under the requested model; a stream
relays the response of the last attempt.  The headers of both, and the record of the
call, name the model and the replica of that attempt, and the record counts the
attempts (`serve_provenance`).  So does a reply name a replica that did answer it,
also after a failover.
-/

import SwitchyardGateway.Application.Attribution
import SwitchyardGateway.Ingress.Connections

namespace SwitchyardGateway
namespace Ingress

open Coop Coop.Discipline Python Application

variable {lib : Lib} {settings : Settings} {limit me : ℕ} {payload : Payload} {rid : Str}
  {exchange : Exchange} {w : World} {l : List Entry}

/-- The headers of a reply that an attempt answered. -/
def attemptHeaders (requestId : Str) (a : Attempt) : Headers :=
  [(lit "x-request-id", requestId), (lit "x-gateway-model", a.model.name),
    (lit "x-gateway-endpoint", a.endpoint.name)]

/-- What a reply is made of: a completion of all that was read, under the requested
model, or a stream of it. -/
def MadeOf (lib : Lib) (payload : Payload) (upstream : Upstream) (headers : Headers) : Reply → Prop
  | .completion body headers' => headers' = headers ∧ upstream.body.ending = .eof ∧
      ∃ read, parseCompletion lib upstream.body.chunks.flatten = .ok read ∧
        lib.render (.obj (read.set (lit "model") (get payload "model"))) = .ok body
  | .stream aliasName headers' => headers' = headers ∧ aliasName = modelOf payload
  | .error _ _ _ => False

/-- The last attempt answered a reply, and the headers and the record say so. -/
structure Attributed (lib : Lib) (payload : Payload) (requestId : Str) (reply : Reply)
    (l : List Entry) (a : Attempt) (upstream : Upstream) : Prop where
  last : (sends l).head? = some a
  answer : a.answer = .ok upstream
  accepted : upstream.status < 400
  made : MadeOf lib payload upstream (attemptHeaders requestId a) reply
  recorded : ∃ event, requests l = [event] ∧ Names requestId a (sends l).length event ∧
    event.status = some upstream.status

/-! ### An exchange that is held -/

/-- The exchange is the call's, the last attempt obtained it, the event names that
attempt, and nothing was recorded. -/
structure Holds (requestId : Str) (exchange : Exchange) (a : Attempt) (handedOff : Bool) (c : CallState)
    (l : List Entry) : Prop where
  held : c.exchange = some exchange
  handed : c.handedOff = handedOff
  fresh : c.finished = false
  last : (sends l).head? = some a
  answer : a.answer = .ok exchange.response.upstream
  names : Names requestId a (sends l).length c.event
  status : c.event.status = some exchange.response.upstream.status
  unrecorded : requests l = []

/-- The questions asked meanwhile record nothing and send nothing. -/
theorem Relaying.unrecorded {q : Call} (hq : Relaying q) : Unrecorded q ∧ Silent q := by
  cases q <;> first | exact hq.elim | exact ⟨trivial, trivial⟩

/-- Relaying a response keeps it held. -/
theorem holds_neutral (rid : Str) (exchange : Exchange) (a : Attempt) (b : Bool) :
    Neutral (lone me) me Relaying Noting fun w l => Holds rid exchange a b (w.calls me) l :=
  .of_calls
    (fun c q t answer l hq h => by
      have hsends := sends_cons_of_silent hq.unrecorded.2 t answer l
      have hrequests := requests_cons hq.unrecorded.1 t answer l
      exact { h with
        last := hsends ▸ h.last
        names := hsends ▸ h.names
        unrecorded := hrequests.trans h.unrecorded })
    fun c f l hf h => by
      have hid := congrArg Event.requestId (hf c.event)
      have hmodel := congrArg Event.model (hf c.event)
      have hendpoint := congrArg Event.endpoint (hf c.event)
      have hattempts := congrArg Event.attempts (hf c.event)
      have hstatus := congrArg Event.status (hf c.event)
      exact { h with
        names := ⟨hid.trans h.names.requestId, hmodel.trans h.names.model,
          hendpoint.trans h.names.endpoint, hattempts.trans h.names.attempts⟩
        status := hstatus.trans h.status }

/-- So do the variables of the call that are not about the exchange. -/
theorem Holds.setCall {b b' : Bool} {a : Attempt} (h : Holds rid exchange a b (w.calls me) l)
    {f : CallState → CallState} (hf : ∀ c, (f c).exchange = c.exchange ∧ (f c).finished = c.finished ∧
      (f c).event = c.event) (hb : (f (w.calls me)).handedOff = b') :
    Holds rid exchange a b' ((w.setCall me f).calls me) l := by
  rw [World.setCall_calls_self]
  obtain ⟨hexchange, hfinished, hevent⟩ := hf (w.calls me)
  exact { h with
    held := hexchange.trans h.held
    handed := hb
    fresh := hfinished.trans h.fresh
    names := hevent ▸ h.names
    status := hevent ▸ h.status }

/-- The exchange was recorded, by an event that names the attempt that obtained it. -/
structure Recorded (requestId : Str) (exchange : Exchange) (a : Attempt) (l : List Entry) : Prop where
  last : (sends l).head? = some a
  answer : a.answer = .ok exchange.response.upstream
  recorded : ∃ event, requests l = [event] ∧ Names requestId a (sends l).length event ∧
    event.status = some exchange.response.upstream.status

/-- **Finishing** records what is held. -/
theorem wp_finish_recorded {a : Attempt} {b : Bool} {outcome : Outcome}
    (h : Holds rid exchange a b (w.calls me) l) :
    (lone me).wp (Gateway.finish me exchange outcome) (fun _ _ l => Recorded rid exchange a l)
      (fun _ _ _ => True) w l := by
  refine wp_finish (fun hdone => ?_) (fun _ => trivial) ?_
  · rw [h.fresh] at hdone
    cases hdone
  · rintro - w₁ l₁ ⟨hcalls, rfl⟩ closed _ ⟨t₁, -, rfl⟩ w₂ - now _ ⟨t₂, -, rfl⟩ ms w₃ rfl sunk _ ⟨t₃, -, rfl⟩
    have hrecorded : Recorded rid exchange a (⟨t₃, .emit (.request
        (closedEvent (w₁.calls me).event outcome closed ms)), sunk⟩ :: ⟨t₂, .clock, now⟩ ::
        ⟨t₁, .close exchange.response.attempt, closed⟩ :: l₁) := by
      rw [World.setCall_calls_self] at hcalls
      rw [hcalls]
      exact ⟨h.last, h.answer, _, congrArg (_ :: ·) h.unrecorded,
        ⟨h.names.requestId, h.names.model, h.names.endpoint, h.names.attempts⟩, h.status⟩
    rw [World.setCall_calls_self]
    cases sunk with
    | error e => trivial
    | ok u =>
      cases closed with
      | ok u => exact hrecorded
      | error e => cases e <;> first | exact hrecorded | trivial

/-! ### The reply -/

/-- The headers of a reply. -/
def Reply.headers : Reply → Headers
  | .completion _ headers | .stream _ headers | .error _ _ headers => headers

/-- What is answered after `Gateway.open` has the labels of the event as its headers, and
the upstream did not reject the request. -/
theorem wp_deliver_headers {model endpoint : Str} (hmodel : (w.calls me).event.model = some model)
    (hendpoint : (w.calls me).event.endpoint = some endpoint) :
    (lone me).wp (deliver lib limit me payload rid exchange)
      (fun reply _ _ => exchange.response.upstream.status < 400 ∧ reply.headers =
        [(lit "x-request-id", rid), (lit "x-gateway-model", model), (lit "x-gateway-endpoint", endpoint)])
      (fun _ _ _ => True) w l := by
  have hany : ∀ {α : Type} (p : Py α) {ok : α → World → List Entry → Prop} {w l},
      (∀ a w l, ok a w l) → (lone me).wp p ok (fun _ _ _ => True) w l :=
    fun p _ w l h => wp_mono (fun a w l _ => h a w l) (fun _ _ _ _ => trivial) (wp_alone _ _ p w l)
  simp only [deliver, responseHeaders, eventOf, wp_bind, wp_read, wp_pure, hmodel, hendpoint, wp_ite]
  split
  · trivial
  · rename_i hstatus
    have haccepted : exchange.response.upstream.status < 400 := Nat.lt_of_not_le hstatus
    split
    · simp only [handOver, wp_ite, setVars, wp_bind, wp_update, wp_pure, wp_throw]
      split
      · exact ⟨haccepted, rfl⟩
      · trivial
    · simp only [collect, wp_ite, wp_bind, wp_throw]
      split
      · refine hany _ fun body w l => hany _ fun value w l => ?_
        simp only [complete, wp_bind]
        exact hany _ fun _ w l => hany _ fun _ w l => hany _ fun _ w l => ⟨haccepted, rfl⟩
      · trivial

/-- A reply that was made from the exchange the call holds. -/
structure Made (lib : Lib) (payload : Payload) (requestId : Str) (exchange : Exchange) (a : Attempt)
    (reply : Reply) (c : CallState) (l : List Entry) : Prop where
  holds : Holds requestId exchange a (streams (.ok reply)) c l
  accepted : exchange.response.upstream.status < 400
  made : MadeOf lib payload exchange.response.upstream (attemptHeaders requestId a) reply

/-- **The statements after `Gateway.open`** make the reply of the exchange, or leave it held. -/
theorem wp_deliver_made {a : Attempt} (h : Holds rid exchange a false (w.calls me) l) :
    (lone me).wp (deliver lib limit me payload rid exchange)
      (fun reply w l => Made lib payload rid exchange a reply (w.calls me) l)
      (fun _ w l => Holds rid exchange a false (w.calls me) l) w l := by
  refine wp_mono (fun reply w₁ l₁ h₁ => ?_) (fun e w₁ l₁ h₁ => ?_) (wp_and
    (wp_deliver (C := fun _ w l => Holds rid exchange a false (w.calls me) l)
      (H := fun w l => Holds rid exchange a true (w.calls me) l) (holds_neutral rid exchange a false)
      trivial trivial (fun _ _ => rfl) (fun _ _ _ => rfl)
      (fun w l _ _ h => h.setCall (fun _ => ⟨rfl, rfl, rfl⟩) h.handed)
      (fun w l h => h.setCall (fun _ => ⟨rfl, rfl, rfl⟩) rfl) h)
    (wp_deliver_headers h.names.model h.names.endpoint))
  · obtain ⟨⟨headers, rfl, hholds⟩ | ⟨value, body, headers, rfl, hcompletes, hrender, hholds⟩,
      haccepted, hheaders⟩ := h₁
    · exact ⟨hholds, haccepted, hheaders, rfl⟩
    · obtain ⟨read, hparsed, rfl⟩ := hcompletes.parsed
      exact ⟨hholds, haccepted, hheaders, hcompletes.readable.1, read, hparsed, hrender⟩
  · rcases h₁.1 with ⟨-, hholds⟩ | ⟨value, e', -, -, -, hholds⟩
    · exact hholds
    · exact hholds

/-- **The exchange of a call** is held once it was opened. -/
theorem wp_open_holds {headers : Headers} (hhanded : (w.calls me).handedOff = false) (hnone : sends l = [])
    (hrequests : requests l = []) :
    (lone me).wp (Gateway.open lib settings me payload headers rid)
      (fun exchange w l => ∃ a, Holds rid exchange a false ((w.setCall me fun c =>
        { c with exchange := some exchange, finished := false }).calls me) l)
      (fun _ _ _ => True) w l := by
  have hn : Neutral (lone me) me Unrecorded (fun _ => True) fun w l =>
      (w.calls me).handedOff = false ∧ requests l = [] :=
    .of_calls (P := fun c l => c.handedOff = false ∧ requests l = [])
      (fun c q t a l hq h => ⟨h.1, (requests_cons hq t a l).trans h.2⟩) fun _ _ _ _ h => h
  have hkept : (lone me).wp (Gateway.open lib settings me payload headers rid)
      (fun _ w l => (w.calls me).handedOff = false ∧ requests l = []) (fun _ _ _ => True) w l := by
    simp only [Gateway.open, wp_bind, clock, wp_ask, wp_update, wp_tryCatch]
    rintro started _ ⟨t, -, rfl⟩
    have hstart : ((w.setCall me fun c => { c with event := { requestId := rid, attempts := some 0 } }).calls
        me).handedOff = false ∧ requests (⟨t, .clock, started⟩ :: l) = [] := by
      rw [World.setCall_calls_self]
      exact ⟨hhanded, hrequests⟩
    refine wp_mono (fun _ _ _ h => h.2) (fun e w₁ l₁ _ => ?_)
      (hn.openInner (fun w w' _ hcalls h => by simpa only [hcalls] using h)
        (fun q => unrecorded_of_opening) (fun _ _ => trivial) (fun _ _ => trivial) payload headers started _ _ hstart)
    simp only [updateEvent, eventOf, emit, wp_update, wp_read, wp_pure, wp_ask, wp_bind, wp_ofExcept, wp_throw]
    intro _ _ _ a _ _
    cases a <;> trivial
  refine wp_mono (fun exchange w₁ l₁ h₁ => ?_) (fun _ _ _ _ => trivial) (wp_and hkept (wp_open_obtained hnone))
  obtain ⟨⟨hhanded₁, hrequests₁⟩, ⟨a, earlier, hlast, hanswer, -, hnames⟩, hstatus⟩ := h₁
  refine ⟨a, ?_⟩
  rw [World.setCall_calls_self]
  exact ⟨rfl, hhanded₁, rfl, by rw [hlast]; rfl, hanswer, hnames, hstatus, hrequests₁⟩

/-! ### A whole call -/

/-- An error, whatever made it. -/
def Reply.isError : Reply → Bool
  | .error _ _ _ => true
  | _ => false

/-- What `chat` returns unless it is an error: made from an exchange, which a stream still
holds and which was recorded otherwise. -/
def Returned (lib : Lib) (request : Request) (requestId : Str) (reply : Reply) (c : CallState)
    (l : List Entry) : Prop :=
  reply.isError = false → ∃ payload exchange a,
    parseRequest lib request.body.chunks.flatten = .ok payload ∧
    exchange.response.upstream.status < 400 ∧
    MadeOf lib payload exchange.response.upstream (attemptHeaders requestId a) reply ∧
    if streams (.ok reply) then Holds requestId exchange a true c l else Recorded requestId exchange a l

variable {request : Request}

/-- The `try` of `chat` makes a reply from the exchange it opened. -/
theorem wp_chatTry_made (hvars : (w.calls me).handedOff = false) (hnone : sends l = [])
    (hrequests : requests l = []) :
    (lone me).wp (chatTry lib settings limit me request rid)
      (fun reply w l => ∃ payload exchange a, parseRequest lib request.body.chunks.flatten = .ok payload ∧
        Made lib payload rid exchange a reply (w.calls me) l)
      (fun _ _ _ => True) w l := by
  have hn : Neutral (lone me) me Relaying (fun _ => True) fun w l =>
      (w.calls me).handedOff = false ∧ sends l = [] ∧ requests l = [] :=
    .of_calls (P := fun c l => c.handedOff = false ∧ sends l = [] ∧ requests l = [])
      (fun c q t a l hq h => ⟨h.1, (sends_cons_of_silent hq.unrecorded.2 t a l).trans h.2.1,
        (requests_cons hq.unrecorded.1 t a l).trans h.2.2⟩) fun _ _ _ _ h => h
  simp only [chatTry, wp_bind, setVars, wp_update]
  refine wp_mono (fun payload w₁ l₁ h₁ => ?_) (fun _ _ _ _ => trivial)
    (preserves_readRequest hn trivial request w l ⟨hvars, hnone, hrequests⟩)
  obtain ⟨hparse, hhanded, hnone₁, hrequests₁⟩ := h₁
  refine wp_mono (fun exchange w₂ l₂ h₂ => ?_) (fun _ _ _ _ => trivial)
    (wp_open_holds (by rw [World.setCall_calls_self]; exact hhanded) hnone₁ hrequests₁)
  obtain ⟨a, hholds⟩ := h₂
  exact wp_mono (fun reply w₃ l₃ h₃ => ⟨payload, exchange, a, hparse, h₃⟩) (fun _ _ _ _ => trivial)
    (wp_deliver_made hholds)

/-- The handlers of `chat` answer with errors. -/
theorem wp_chatExcept_error {e : Err} :
    (lone me).wp (chatExcept me rid e) (fun reply _ _ => reply.isError = true) (fun _ _ _ => True) w l := by
  have hrefuse : ∀ code status outcome, (lone me).wp (refuse me rid code status outcome)
      (fun reply _ _ => reply.isError = true) (fun _ _ _ => True) w l := fun _ _ _ =>
    wp_refuse (fun _ => rfl) (fun _ _ => rfl) fun _ _ a _ _ => by
      cases a with
      | ok _ => rfl
      | error _ => trivial
  cases e with
  | exc e =>
    simp only [chatExcept]
    split
    · exact hrefuse _ _ _
    · exact hrefuse _ _ _
  | cancelled => exact trivial
  | exit => exact trivial

/-- The `finally` of `chat` records what was not handed over. -/
theorem wp_chatFinally_returned {reply : Reply} (h : ∃ payload exchange a,
    parseRequest lib request.body.chunks.flatten = .ok payload ∧
      Made lib payload rid exchange a reply (w.calls me) l) :
    (lone me).wp (chatFinally me) (fun _ w l => Returned lib request rid reply (w.calls me) l)
      (fun _ _ _ => True) w l := by
  obtain ⟨payload, exchange, a, hparse, hmade⟩ := h
  simp only [chatFinally, wp_bind, wp_read, hmade.holds.held, hmade.holds.handed]
  split
  · rename_i hexchange hunary
    obtain rfl := Option.some.inj hexchange
    refine wp_mono (fun _ w₁ l₁ h₁ _ => ⟨payload, exchange, a, hparse, hmade.accepted, hmade.made, ?_⟩)
      (fun _ _ _ h => h) (wp_finish_recorded hmade.holds)
    rw [hunary]
    exact h₁
  · rename_i hother
    intro _
    refine ⟨payload, exchange, a, hparse, hmade.accepted, hmade.made, ?_⟩
    cases hstream : streams (.ok reply) with
    | true =>
      have hholds := hmade.holds
      rw [hstream] at hholds
      exact hholds
    | false => exact absurd hstream (hother exchange rfl)

/-- A stream records the exchange it holds. -/
theorem wp_ownedStream_recorded {a : Attempt} {b : Bool} {aliasName : Str}
    (h : Holds rid exchange a b (w.calls me) l) :
    (lone me).wp (OwnedStream.call lib limit me exchange aliasName)
      (fun _ _ l => Recorded rid exchange a l) (fun _ _ _ => True) w l := by
  have hoff : ∀ {outcome : Outcome} {w : World} {l}, Holds rid exchange a b (w.calls me) l →
      Holds rid exchange a b ((w.setCall me fun c => { c with outcome := outcome }).calls me) l :=
    fun h => h.setCall (fun _ => ⟨rfl, rfl, rfl⟩) h.handed
  have hfinish : ∀ w l, Holds rid exchange a b (w.calls me) l → (lone me).wp (do
      let outcome ← popStreamOutcome me ((← Prog.read).calls me).outcome
      Gateway.finish me exchange outcome) (fun _ _ l => Recorded rid exchange a l) (fun _ _ _ => True) w l := by
    intro w l hholds
    simp only [popStreamOutcome, eventOf, updateEvent, wp_bind, wp_read, wp_update, wp_pure]
    exact wp_finish_recorded ((holds_neutral rid exchange a b).event w l
      (fun ev => { ev with streamOutcome := none }) (fun _ => by rfl) hholds)
  simp only [OwnedStream.call, setVars, wp_bind, wp_update, wp_finallyDo, wp_tryCatch]
  refine wp_mono (fun _ w₁ l₁ h₁ => hfinish w₁ l₁ h₁.2) (fun e w₁ l₁ h₁ => ?_)
    (preserves_callStream (holds_neutral rid exchange a b) (fun _ hq => hq.relaying) (fun _ hf => hf.noting) _ l
      (hoff h))
  cases e with
  | cancelled =>
    simp only [wp_bind, wp_update, wp_throw]
    exact wp_mono (fun _ _ _ _ => trivial) (fun _ _ _ h => h) (hfinish _ l₁ (hoff h₁))
  | exc e => exact wp_mono (fun _ _ _ _ => trivial) (fun _ _ _ h => h) (hfinish w₁ l₁ h₁)
  | exit => exact wp_mono (fun _ _ _ _ => trivial) (fun _ _ _ h => h) (hfinish w₁ l₁ h₁)

/-- **Every reply that is no error comes from the last attempt**, whatever the ports, the
sink and the framework do: the headers and the record name its model and its replica,
and a completion is what it answered. -/
theorem serve_provenance {w' : World} {reply : Reply}
    (h : (lone me).Run (serve lib settings limit me request rid) w [] (.ok reply) w' l)
    (hreply : reply.isError = false) :
    ∃ payload a upstream, parseRequest lib request.body.chunks.flatten = .ok payload ∧
      Attributed lib payload rid reply l a upstream := by
  have hserve : (lone me).wp (serve lib settings limit me request rid)
      (fun reply _ l => reply.isError = false → ∃ payload a upstream,
        parseRequest lib request.body.chunks.flatten = .ok payload ∧
          Attributed lib payload rid reply l a upstream) (fun _ _ _ => True) w [] := by
    simp only [serve, wp_bind, wp_read]
    have hchat : (lone me).wp (chat lib settings limit me request rid)
        (fun reply w l => Returned lib request rid reply (w.calls me) l) (fun _ _ _ => True) w [] := by
      simp only [chat, wp_bind, setVars, wp_update, wp_finallyDo, wp_tryCatch]
      refine wp_mono (fun reply w₁ l₁ h₁ => wp_chatFinally_returned h₁) (fun e w₁ l₁ _ => ?_)
        (wp_chatTry_made (by rw [World.setCall_calls_self]) rfl rfl)
      refine wp_mono (fun reply w₂ l₂ h₂ => ?_) (fun e' w₂ l₂ _ => ?_) wp_chatExcept_error
      · refine wp_mono (fun _ _ _ _ herror => ?_) (fun _ _ _ _ => trivial) (wp_alone _ _ _ w₂ l₂)
        rw [h₂] at herror
        cases herror
      · exact wp_mono (fun _ _ _ _ => trivial) (fun _ _ _ _ => trivial) (wp_alone _ _ _ w₂ l₂)
    refine wp_mono (fun reply w₁ l₁ h₁ => ?_) (fun _ _ _ h => h) hchat
    have hend : ∀ {payload exchange a l}, parseRequest lib request.body.chunks.flatten = .ok payload →
        exchange.response.upstream.status < 400 →
        MadeOf lib payload exchange.response.upstream (attemptHeaders rid a) reply →
        Recorded rid exchange a l → ∃ payload a upstream,
          parseRequest lib request.body.chunks.flatten = .ok payload ∧
            Attributed lib payload rid reply l a upstream :=
      fun hparse haccepted hmade hrecorded => ⟨_, _, _, hparse,
        ⟨hrecorded.last, hrecorded.answer, haccepted, hmade, hrecorded.recorded⟩⟩
    split
    · rename_i aliasName headers exchange hexchange
      obtain ⟨payload, exchange', a, hparse, haccepted, hmade, hholds⟩ := h₁ rfl
      obtain rfl := Option.some.inj (hholds.held.symm.trans hexchange)
      simp only [wp_bind, wp_pure]
      exact wp_mono (fun _ _ _ hrecorded _ => hend hparse haccepted hmade hrecorded) (fun _ _ _ h => h)
        (wp_ownedStream_recorded hholds)
    · rename_i reply _ _ hother
      intro herror
      obtain ⟨payload, exchange, a, hparse, haccepted, hmade, hleft⟩ := h₁ herror
      cases reply with
      | stream aliasName headers => exact (hother aliasName headers exchange rfl hleft.held).elim
      | completion body headers => exact hend hparse haccepted hmade hleft
      | error status body headers => cases herror
  exact h.ends hserve hreply

/-- A call that fails over answers with the second replica, and its record names that. -/
theorem serve_provenance_failover : ∃ reply payload a upstream,
    parseRequest Demo.bodies Demo.chatRequest.body.chunks.flatten = .ok payload ∧
    Attributed Demo.bodies payload (lit "r") reply Demo.failoverRun.2.2 a upstream ∧
    (requests Demo.failoverRun.2.2).map Event.endpoint = [some (lit "b")] := by
  have hrun : (lone 0).Run (serve Demo.bodies Application.Demo.settings 1024 0 Demo.chatRequest (lit "r"))
      Application.Demo.world [] Demo.failoverRun.1 Demo.failoverRun.2.1 Demo.failoverRun.2.2 :=
    run_of_exec Demo.failover (fun _ _ => trivial) rfl
  have hno : Demo.failoverRun.1.toOption.map Reply.isError = some false := by decide +kernel
  cases hreply : Demo.failoverRun.1 with
  | error e =>
    rw [hreply] at hno
    cases hno
  | ok reply =>
    rw [hreply] at hrun hno
    obtain ⟨payload, a, upstream, hparse, hattributed⟩ := serve_provenance hrun (Option.some.inj hno)
    exact ⟨reply, payload, a, upstream, hparse, hattributed, by decide +kernel⟩

end Ingress
end SwitchyardGateway
