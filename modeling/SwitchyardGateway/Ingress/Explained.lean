/-
# Why a reply is an error

An error that a client sees has a code and a status, and nothing else.  Each of them is
that of one of three errors: the decision on the request (`admission`), a failure to open
an exchange, which has a `Cause`, or the verdict on what the last attempt was answered
with (`verdict`), which is one on the answer alone, however its body is cut into chunks.
`serve_explained` says so of every run.
-/

import SwitchyardGateway.Application.Failures
import SwitchyardGateway.Ingress.Mediation
import SwitchyardGateway.Ingress.Provenance

namespace SwitchyardGateway
namespace Ingress

open Coop Coop.Discipline Python Application

section

variable (lib : Lib) (limit : ℕ) (payload : Payload) (upstream : Upstream)

/-- The body of an answer, if it is short enough and ends. -/
def collected : Except Err Bytes :=
  if limit < upstream.body.chunks.flatten.length then .error (gatewayError "upstream_response_too_large")
  else match upstream.body.ending with
    | .eof => .ok upstream.body.chunks.flatten
    | .raise e => .error e

/-- The content type of an answer. -/
def mediaType : Str := (upstream.headers.lookup (lit "content-type")).getD []

/-- The completion that an answer is made into. -/
def rendered : Except Err Bytes := do
  let body ← collected limit upstream
  let read ← (parseCompletion lib body).mapError .exc
  (lib.render (.obj (read.set (lit "model") (get payload "model")))).mapError .exc

/-- What is made of an answer: a stream, which has no body yet, a completion, or an error. -/
def verdict : Except Err (Option Bytes) :=
  if 400 ≤ upstream.status then .error (gatewayError "upstream_rejected_request" upstream.status)
  else if truthy (get payload "stream") then
    if contains (lit "text/event-stream") (mediaType upstream) then .ok none
    else .error (gatewayError "invalid_upstream_stream")
  else if contains (lit "json") (lib.lower (mediaType upstream)) then (rendered lib limit payload upstream).map some
  else .error (gatewayError "invalid_upstream_content_type")

end

/-- Why a call answers with an error: the request was not admitted, no exchange was
opened, or what the last attempt was answered with is no reply. -/
inductive Explained (lib : Lib) (settings : Settings) (limit : ℕ) (request : Request) (w : World)
    (l : List Entry) : Err → Prop where
  | refused {e : Err} : admission lib settings request = .error e → Explained lib settings limit request w l e
  | unopened {payload : Payload} {e : Err} : admission lib settings request = .ok payload →
      Cause settings payload w l e → Explained lib settings limit request w l e
  | undelivered {payload : Payload} {a : Attempt} {upstream : Upstream} {e : Err} :
      admission lib settings request = .ok payload → (sends l).head? = some a → a.answer = .ok upstream →
      verdict lib limit payload upstream = .error e → Explained lib settings limit request w l e

variable {lib : Lib} {settings : Settings} {limit me : ℕ} {request : Request} {payload : Payload} {rid : Str}
  {exchange : Exchange} {w : World} {l : List Entry}

/-! ### The verdict -/

/-- **Reading a body** comes to what is collected of it. -/
theorem wp_readBody_collected :
    (lone me).wp (readBody limit me exchange)
      (fun body _ _ => collected limit exchange.response.upstream = .ok body)
      (fun e _ _ => collected limit exchange.response.upstream = .error e) w l := by
  have htrue : Neutral (lone me) me (fun _ => True) (fun _ => True) fun _ _ => True :=
    .of_alone (fun _ _ _ _ _ => trivial) (fun _ _ _ _ _ _ _ _ => trivial) fun _ _ _ _ _ => trivial
  have hstart : [] ++ exchange.response.upstream.body.chunks.flatten =
      exchange.response.upstream.body.chunks.flatten ∧ ([] : Bytes).length ≤ limit := ⟨rfl, Nat.zero_le _⟩
  refine wp_bodyFrom (I := fun rest data _ _ =>
    data ++ rest.flatten = exchange.response.upstream.body.chunks.flatten ∧ data.length ≤ limit)
    (fun _ _ _ _ _ => trivial) ?_ ?_ _ _ hstart
  · rintro chunk rest data w l w₁ l₁ l₂ ⟨hdata, -⟩ - -
    rw [wp_bind]
    refine wp_mono (fun _ w₂ l₃ _ => ?_) (fun _ _ _ h => h)
      (htrue.noteFirstByte trivial (fun _ => trivial) exchange chunk trivial)
    rw [List.flatten_cons, ← List.append_assoc] at hdata
    rw [wp_ite]
    split
    · rename_i hlong
      have hlength := congrArg List.length hdata
      rw [List.length_append] at hlength
      have hcollected : collected limit exchange.response.upstream =
          .error (gatewayError "upstream_response_too_large") := if_pos (by omega)
      exact hcollected
    · rename_i hshort
      exact ⟨hdata, Nat.le_of_not_lt hshort⟩
  · rintro data w l w₁ l₁ l₂ ⟨hdata, hlength⟩ - -
    rw [List.flatten_nil, List.append_nil] at hdata
    have hshort : ¬limit < exchange.response.upstream.body.chunks.flatten.length := by
      rw [← hdata]
      omega
    split
    · rename_i heof
      rw [collected, if_neg hshort, heof, ← hdata]
    · rename_i e hraise
      rw [collected, if_neg hshort, hraise]

/-- A completion is rendered as the answer says. -/
theorem wp_rendered {headers : Headers} :
    (lone me).wp (do
        let body ← readBody limit me exchange
        let value ← lift (parseCompletion lib body)
        complete lib me payload headers value) (fun _ _ _ => True)
      (fun e _ _ => rendered lib limit payload exchange.response.upstream = .error e) w l := by
  have hnote : ∀ value w l, (lone me).wp (noteUsage me value) (fun _ _ _ => True) (fun _ _ _ => False) w l := by
    intro value w l
    unfold noteUsage
    split
    · trivial
    · trivial
  rw [wp_bind]
  refine wp_mono (fun body w₁ l₁ hbody => ?_) (fun e _ _ he => ?_) wp_readBody_collected
  · have hread : rendered lib limit payload exchange.response.upstream =
        (parseCompletion lib body).mapError .exc >>= fun read =>
          (lib.render (.obj (read.set (lit "model") (get payload "model")))).mapError .exc := by
      rw [rendered, hbody]
      rfl
    simp only [lift, wp_bind, wp_ofExcept]
    cases hparsed : parseCompletion lib body with
    | error e =>
      rw [hparsed] at hread
      exact hread
    | ok read =>
      rw [hparsed] at hread
      simp only [Except.mapError, ends_ok, complete, wp_bind, setVars, wp_update, lift, wp_ofExcept, wp_pure]
      refine wp_mono (fun _ w₂ l₂ _ => ?_) (fun _ _ _ h => h.elim) (hnote _ _ _)
      cases hrender : lib.render (.obj (read.set (lit "model") (get payload "model"))) with
      | ok body => trivial
      | error e => exact hread.trans (congrArg (Except.mapError Err.exc) hrender)
  · rw [rendered, he]
    rfl

/-- **What is answered after `Gateway.open`** is the verdict on what was obtained. -/
theorem wp_deliver_verdict {model endpoint : Str} (hmodel : (w.calls me).event.model = some model)
    (hendpoint : (w.calls me).event.endpoint = some endpoint) :
    (lone me).wp (deliver lib limit me payload rid exchange) (fun _ _ _ => True)
      (fun e _ _ => verdict lib limit payload exchange.response.upstream = .error e) w l := by
  simp only [deliver, responseHeaders, eventOf, wp_bind, wp_read, wp_pure, hmodel, hendpoint, wp_ite]
  split
  · rename_i hrejected
    exact if_pos hrejected
  · rename_i haccepted
    rw [verdict, if_neg haccepted]
    split
    · rename_i hstream
      simp only [handOver, wp_ite, setVars, wp_bind, wp_update, wp_pure, wp_throw]
      split
      · trivial
      · rename_i htype
        exact if_neg htype
    · rename_i hunary
      simp only [collect, wp_ite, wp_throw]
      split
      · rename_i htype
        have htype : contains (lit "json") (lib.lower (mediaType exchange.response.upstream)) = true := htype
        rw [if_pos htype]
        exact wp_mono (fun _ _ _ _ => trivial) (fun e _ _ he => by rw [he]; rfl) wp_rendered
      · rename_i htype
        exact if_neg htype

/-! ### A whole call -/

/-- An error of `chat`, and why: there is no exchange, or one that the last attempt
obtained and that is no reply. -/
inductive Failing (lib : Lib) (settings : Settings) (limit : ℕ) (request : Request) (me : ℕ) (w : World)
    (l : List Entry) : Err → Prop where
  | refused {e : Err} : (w.calls me).exchange = none → admission lib settings request = .error e →
      Failing lib settings limit request me w l e
  | unopened {payload : Payload} {e : Err} : (w.calls me).exchange = none →
      (w.calls me).opened = true → admission lib settings request = .ok payload →
      Cause settings payload w l e → Failing lib settings limit request me w l e
  | undelivered {payload : Payload} {exchange : Exchange} {a : Attempt} {e : Err} :
      (w.calls me).exchange = some exchange → (w.calls me).handedOff = false →
      admission lib settings request = .ok payload → (sends l).head? = some a →
      a.answer = .ok exchange.response.upstream →
      verdict lib limit payload exchange.response.upstream = .error e →
      Failing lib settings limit request me w l e

/-- Nothing was sent or recorded while the request was read. -/
theorem Waited.unsent (h : Waited settings request l) : sends l = [] ∧ requests l = [] := by
  have honly := h.only
  clear h
  induction l with
  | nil => exact ⟨rfl, rfl⟩
  | cons entry l ih =>
    obtain ⟨t, q, answer⟩ := entry
    obtain rfl : q = .receive := honly _ List.mem_cons_self
    exact ih fun entry hentry => honly entry (List.mem_cons_of_mem _ hentry)

/-- The `try` of `chat` fails for a reason. -/
theorem wp_chatTry_failing (hexchange : (w.calls me).exchange = none)
    (hhanded : (w.calls me).handedOff = false) :
    (lone me).wp (chatTry lib settings limit me request rid) (fun _ _ _ => True)
      (fun e w l => Failing lib settings limit request me w l e) w [] := by
  have hopening : Neutral (lone me) me (fun _ => True) (fun _ => True)
      fun w _ => (w.calls me).exchange = none ∧ (w.calls me).opened = true :=
    .of_calls (P := fun c _ => c.exchange = none ∧ c.opened = true) (fun _ _ _ _ _ _ h => h) fun _ _ _ _ h => h
  have htable : TableFree fun w (_ : List Entry) => (w.calls me).exchange = none ∧ (w.calls me).opened = true :=
    fun w w' l hcalls h => by simpa only [hcalls] using h
  simp only [chatTry, wp_bind, setVars, wp_update]
  refine wp_mono (fun payload w₁ l₁ h₁ => ?_) (fun e w₁ l₁ h₁ => ?_) wp_readRequest
  · obtain ⟨hcalls, hwaited, hadmitted⟩ := h₁
    have hopened : (w₁.setCall me fun c => { c with opened := true }).calls me =
        { w.calls me with opened := true } := by rw [World.setCall_calls_self, hcalls]
    have hinner (started : ℚ) : (lone me).Preserves
        (fun w _ => (w.calls me).exchange = none ∧ (w.calls me).opened = true)
        (Gateway.openInner lib settings me payload request.headers started) fun _ => True :=
      hopening.openInner htable (fun _ _ => trivial) (fun _ _ => trivial) (fun _ _ => trivial) payload
        request.headers started
    have hunopened := wp_open (hopening.mono fun _ _ => trivial) (hopening.mono fun _ _ => trivial)
      (fun _ _ => trivial) rid (fun started w l _ hJ => wp_mono (fun _ _ _ h => h.2) (fun _ _ _ h => h)
        (hinner started w l hJ))
      (w := w₁.setCall me fun c => { c with opened := true }) (l := l₁) (by rw [hopened]; exact ⟨hexchange, rfl⟩)
    refine wp_mono (fun exchange w₂ l₂ h₂ => ?_) (fun e w₂ l₂ h₂ => ?_)
      (wp_and (wp_and hunopened (wp_open_caused payload request.headers rid))
        (wp_open_holds (by rw [hopened]; exact hhanded) hwaited.unsent.1 hwaited.unsent.2))
    · obtain ⟨-, a, hholds⟩ := h₂
      refine wp_mono (fun _ _ _ _ => trivial) (fun e w₃ l₃ h₃ => ?_) (wp_and (wp_deliver_made hholds)
        (wp_deliver_verdict hholds.names.model hholds.names.endpoint))
      obtain ⟨hheld, hverdict⟩ := h₃
      exact .undelivered hheld.held hheld.handed hadmitted hheld.last hheld.answer hverdict
    · obtain ⟨⟨⟨hnone, hopen⟩, hcause⟩, -⟩ := h₂
      exact .unopened hnone hopen hadmitted hcause
  · obtain ⟨hcalls, -, hrefused⟩ := h₁
    refine .refused ?_ hrefused
    rw [hcalls]
    exact hexchange

/-- An error that is caught is answered with its code and its status. -/
theorem wp_chatExcept_failing {e : Err} (h : Failing lib settings limit request me w l e) :
    (lone me).wp (chatExcept me rid e)
      (fun reply w l => reply = errorReply (failureOf e).2 (failureOf e).1 rid ∧
        Failing lib settings limit request me w l e) (fun _ _ _ => True) w l := by
  have hrefuse : ∀ code status outcome, (status, code) = failureOf e →
      (lone me).wp (refuse me rid code status outcome)
        (fun reply w l => reply = errorReply (failureOf e).2 (failureOf e).1 rid ∧
          Failing lib settings limit request me w l e) (fun _ _ _ => True) w l := by
    intro code status outcome hcode
    rw [← hcode]
    refine wp_refuse (fun hsome => ⟨rfl, ?_⟩) (fun _ _ => ⟨rfl, h⟩) fun hnone hclosed a l₁ ha => ?_
    · cases h with
      | refused hnone _ =>
        rw [hnone] at hsome
        cases hsome
      | unopened hnone _ _ _ =>
        rw [hnone] at hsome
        cases hsome
      | undelivered hexchange hhanded hadmitted hlast hanswer hverdict =>
        refine .undelivered ?_ ?_ hadmitted hlast hanswer hverdict
        · rw [World.setCall_calls_self]
          exact hexchange
        · rw [World.setCall_calls_self]
          exact hhanded
    · obtain ⟨t, -, rfl⟩ := ha
      cases a with
      | error e' => trivial
      | ok _ =>
        refine ⟨rfl, ?_⟩
        cases h with
        | refused hnone hrefused => exact .refused hnone hrefused
        | unopened _ hopen _ _ =>
          rw [hclosed] at hopen
          cases hopen
        | undelivered hexchange _ _ _ _ _ =>
          rw [hnone] at hexchange
          cases hexchange
  cases e with
  | exc e =>
    simp only [chatExcept]
    split
    · rename_i code status hgateway
      exact hrefuse _ _ _ (by simp [failureOf, Err.gatewayError?, hgateway])
    · rename_i hgateway
      exact hrefuse _ _ _ (by simp [failureOf, Err.gatewayError?, hgateway])
  | cancelled => exact trivial
  | exit => exact trivial

/-- The `finally` of `chat` leaves the reason as it is. -/
theorem wp_chatFinally_explained {e : Err} (h : Failing lib settings limit request me w l e) :
    (lone me).wp (chatFinally me) (fun _ w l => Explained lib settings limit request w l e)
      (fun _ _ _ => True) w l := by
  simp only [chatFinally, wp_bind, wp_read]
  cases h with
  | refused hnone hrefused =>
    rw [hnone]
    exact .refused hrefused
  | unopened hnone _ hadmitted hcause =>
    rw [hnone]
    exact .unopened hadmitted hcause
  | @undelivered payload exchange a _ hexchange hhanded hadmitted hlast hanswer hverdict =>
    rw [hexchange, hhanded]
    have hsent : Neutral (lone me) me Silent (fun _ => True) fun _ l => (sends l).head? = some a :=
      .of_alone (fun _ _ _ _ h => h) (fun w q t answer l hq _ h => by rwa [sends_cons_of_silent hq])
        fun _ _ _ _ h => h
    refine wp_mono (fun _ w₁ l₁ h₁ => ?_) (fun _ _ _ _ => trivial) (preserves_finish hsent
      (fun q hq => by cases q <;> first | exact hq.elim | trivial) (fun _ => trivial) (fun _ _ _ h => h) exchange
      (w.calls me).outcome w l hlast)
    exact .undelivered hadmitted h₁.2 hanswer hverdict

/-- A whole call answers with an error for a reason. -/
theorem wp_serve_explained : (lone me).wp (serve lib settings limit me request rid)
    (fun reply w l => reply.isError = true → ∃ e, reply = errorReply (failureOf e).2 (failureOf e).1 rid ∧
      Explained lib settings limit request w l e) (fun _ _ _ => True) w [] := by
  have hchat : (lone me).wp (chat lib settings limit me request rid)
      (fun reply w l => reply.isError = true → ∃ e, reply = errorReply (failureOf e).2 (failureOf e).1 rid ∧
        Explained lib settings limit request w l e) (fun _ _ _ => True) w [] := by
    simp only [chat, wp_bind, setVars, wp_update, wp_finallyDo, wp_tryCatch]
    refine wp_mono (fun reply w₁ l₁ h₁ => ?_) (fun e w₁ l₁ h₁ => ?_) (wp_and
      (wp_chatTry_failing (by rw [World.setCall_calls_self]) (by rw [World.setCall_calls_self]))
      (wp_chatTry_made (by rw [World.setCall_calls_self]) rfl rfl))
    · -- what was made from an exchange is no error
      obtain ⟨-, payload, exchange, a, -, hmade⟩ := h₁
      refine wp_mono (fun _ _ _ _ he => ?_) (fun _ _ _ _ => trivial) (wp_alone _ _ _ w₁ l₁)
      cases reply with
      | error status body headers => exact hmade.made.elim
      | _ => cases he
    · refine wp_mono (fun reply w₂ l₂ h₂ => ?_) (fun e' w₂ l₂ _ => ?_) (wp_chatExcept_failing h₁.1)
      · exact wp_mono (fun _ w₃ l₃ h₃ _ => ⟨e, h₂.1, h₃⟩) (fun _ _ _ h => h) (wp_chatFinally_explained h₂.2)
      · exact wp_mono (fun _ _ _ _ => trivial) (fun _ _ _ _ => trivial) (wp_alone _ _ _ w₂ l₂)
  simp only [serve, wp_bind, wp_read]
  refine wp_mono (fun reply w₁ l₁ h₁ => ?_) (fun _ _ _ h => h) hchat
  split
  · simp only [wp_bind, wp_pure]
    exact wp_mono (fun _ _ _ _ he => by cases he) (fun _ _ _ _ => trivial) (wp_alone _ _ _ w₁ l₁)
  · exact h₁

/-- **Every error that a client sees is explained**, whatever the ports, the sink, the
framework and the client do. -/
theorem serve_explained {w' : World} {reply : Reply}
    (h : (lone me).Run (serve lib settings limit me request rid) w [] (.ok reply) w' l)
    (herror : reply.isError = true) :
    ∃ e, reply = errorReply (failureOf e).2 (failureOf e).1 rid ∧
      Explained lib settings limit request w' l e :=
  h.ends wp_serve_explained herror

namespace Demo

/-- Every replica answers 500. -/
def rejecting (l : List Entry) (q : Call) : ℚ × Answer q :=
  (Application.Demo.now l, Application.Demo.answer (fun _ => .ok (Application.Demo.upstream 500))
    (.ok ()) (Application.Demo.now l) q)

/-- The run of a call to it. -/
def rejectedRun : Except Err Reply × World × List Entry :=
  exec rejecting (serve bodies Application.Demo.settings 1024 0 chatRequest (lit "r")) Application.Demo.world []

end Demo

/-- A call that is answered 500, because that is what its only attempt was answered. -/
theorem serve_explained_rejected : ∃ reply e, Demo.rejectedRun.1 = .ok reply ∧ reply.status = 500 ∧
    reply = errorReply (failureOf e).2 (failureOf e).1 (lit "r") ∧
    Explained Demo.bodies Application.Demo.settings 1024 Demo.chatRequest Demo.rejectedRun.2.1
      Demo.rejectedRun.2.2 e := by
  have hrun : (lone 0).Run (serve Demo.bodies Application.Demo.settings 1024 0 Demo.chatRequest (lit "r"))
      Application.Demo.world [] Demo.rejectedRun.1 Demo.rejectedRun.2.1 Demo.rejectedRun.2.2 :=
    run_of_exec Demo.rejecting (fun _ _ => trivial) rfl
  have hended : Demo.rejectedRun.1.toOption.map (fun reply => (reply.isError, reply.status)) =
      some (true, 500) := by decide +kernel
  cases hreply : Demo.rejectedRun.1 with
  | error e =>
    rw [hreply] at hended
    cases hended
  | ok reply =>
    rw [hreply] at hrun hended
    obtain ⟨herror, hstatus⟩ := Prod.mk.inj (Option.some.inj hended)
    obtain ⟨e, hmade, hexplained⟩ := serve_explained hrun herror
    exact ⟨reply, e, rfl, hstatus, hmade, hexplained⟩

end Ingress
end SwitchyardGateway
