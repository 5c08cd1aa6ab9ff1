/-
# The gateway's own codes

An error that a client or a record names is a `GatewayError`, and its code and its status
are a pair of a fixed list (`errors`), except that a rejection keeps the status of the
answer.  No text of an exception, of a request or of an answer is one: what the libraries
raise is no `GatewayError` (`Uncoded`), and wherever the gateway or one of its adapters turns
it into one, the code is written out in the source (`Known`).

The lemmas go by the functions that raise: the decision on a request, the history, the
routing adapter, the transport, and the verdict on an answer.  `known_of_cause` says it of
every failed opening, if the answers are the adapters' (`Adapted`).
-/

import SwitchyardGateway.Adapters.Httpx
import SwitchyardGateway.Adapters.Switchyard
import SwitchyardGateway.Ingress.Explained

namespace SwitchyardGateway
namespace Ingress

open Coop Coop.Discipline Python Application

/-- The errors that a request is refused with. -/
def refusals : List (String × ℕ) :=
  [("unauthorized", 401), ("request_too_large", 413), ("invalid_json", 400), ("invalid_request", 400),
   ("invalid_stream", 400), ("invalid_messages", 400), ("invalid_message", 400),
   ("unsupported_message_content", 400), ("invalid_message_content", 400), ("invalid_tool_calls", 400),
   ("invalid_tool_result", 400)]

/-- The errors of the routing adapter and of the transport. -/
def adapterErrors : List (String × ℕ) :=
  [("invalid_routing_request", 400), ("unsupported_message_content", 400), ("invalid_tool_arguments", 400),
   ("invalid_routing_result", 502), ("unsupported_routing_rewrite", 502), ("routing_failed", 502),
   ("upstream_connect_failed", 502), ("upstream_timeout", 504), ("upstream_transport_failed", 502)]

/-- The errors of an answer that is no reply. -/
def answerErrors : List (String × ℕ) :=
  [("invalid_upstream_stream", 502), ("invalid_upstream_content_type", 502), ("upstream_response_too_large", 502),
   ("upstream_read_failed", 502), ("invalid_upstream_response", 502)]

/-- All errors of a chat call.  The last stands for every exception that is no `GatewayError`. -/
def errors : List (String × ℕ) :=
  refusals ++ adapterErrors ++ answerErrors ++
    [("unknown_model", 404), ("no_available_replica", 503), ("request_failed", 500)]

/-- A code with its status: one of the list, or a rejection, which keeps the status of the answer. -/
def Listed (errors : List (String × ℕ)) (code : String) (status : ℕ) : Prop :=
  (code, status) ∈ errors ∨ code = "upstream_rejected_request" ∧ 400 ≤ status

/-- An error that is no `GatewayError`. -/
def Uncoded (e : Err) : Prop := e.gatewayError? = none

/-- A `GatewayError` of the list, or an error that is none. -/
def Known (errors : List (String × ℕ)) (e : Err) : Prop :=
  ∀ code status, e.gatewayError? = some (code, status) → Listed errors code status

/-- The libraries raise nothing of the gateway's. -/
structure Foreign (lib : Lib) : Prop where
  loads : ∀ strict text, RaisesOnly (fun e => Uncoded (.exc e)) (lib.loads strict text)
  loadsBytes : ∀ strict data, RaisesOnly (fun e => Uncoded (.exc e)) (lib.loadsBytes strict data)
  render : ∀ value, RaisesOnly (fun e => Uncoded (.exc e)) (lib.render value)

/-- The end of a body as the transport gives it: a failure of the connection is one code. -/
def ReadsOut (ending : Ending) : Prop :=
  ∀ e, ending = .raise e → Uncoded e ∨ e = gatewayError "upstream_read_failed"

/-- What the adapters answer: the routing adapter and the transport, over libraries that
raise nothing of the gateway's, and others that raise nothing of it either. -/
def Adapted (lib : Lib) : Entry → Prop
  | ⟨_, .route request pair, answer⟩ => ∃ stage : Pair → List Json → Except Err Switchyard.Captures,
    (∀ pair rows, RaisesOnly Uncoded (stage pair rows)) ∧ answer = Switchyard.route lib stage request pair
  | ⟨_, .send _ endpoint request headers, answer⟩ => ∃ client : Httpx.Request → Except Httpx.Failure Upstream,
    (∀ http e, client http = .error (.other e) → Uncoded e) ∧
      (∀ http upstream, client http = .ok upstream → ReadsOut upstream.body.ending) ∧
      answer = Httpx.HttpxTransport.send client endpoint request headers
  | entry => ∀ e, fault entry = some e → Uncoded e

/-- The surroundings are the adapters. -/
def adapted (lib : Lib) (me : ℕ) : Discipline World Call Answer (List Entry) :=
  alone (fun w w' => w'.calls me = w.calls me) fun _ => Adapted lib

variable {listed : List (String × ℕ)}

theorem Uncoded.known {e : Err} (h : Uncoded e) : Known listed e := fun code status hcode => by
  rw [Uncoded] at h
  rw [h] at hcode
  cases hcode

/-- An error of a list that is part of another. -/
theorem Known.mono {listed' : List (String × ℕ)} {e : Err} (h : Known listed e) (hsub : listed ⊆ listed') :
    Known listed' e := fun code status hcode => (h code status hcode).imp_left fun hmem => hsub hmem

/-- An error of the list. -/
theorem known_gatewayError {code : String} {status : ℕ} (h : (code, status) ∈ listed) :
    Known listed (gatewayError code status) := fun code' status' hcode => by
  obtain ⟨rfl, rfl⟩ := Prod.mk.inj (Option.some.inj hcode)
  exact .inl h

/-- The failure of a connection is one of the adapters'. -/
theorem known_connectFailure : Known adapterErrors (.exc .connectFailure) := fun code status hcode => by
  obtain ⟨rfl, rfl⟩ := Prod.mk.inj (Option.some.inj hcode)
  exact .inl (by decide)

theorem refusals_subset : refusals ⊆ errors := fun _ h =>
  List.mem_append_left _ (List.mem_append_left _ (List.mem_append_left _ h))

theorem adapterErrors_subset : adapterErrors ⊆ errors := fun _ h =>
  List.mem_append_left _ (List.mem_append_left _ (List.mem_append_right _ h))

theorem answerErrors_subset : answerErrors ⊆ errors := fun _ h =>
  List.mem_append_left _ (List.mem_append_right _ h)

/-- **What is answered and recorded** of a known error is listed. -/
theorem Known.failureOf {e : Err} (h : Known errors e) : Listed errors (failureOf e).2 (failureOf e).1 := by
  unfold Application.failureOf
  split
  · rename_i code status hcode
    exact h code status hcode
  · exact .inl (by decide)

variable {lib : Lib} {settings : Settings} {limit : ℕ} {request : Request} {payload : Payload} {w : World}
  {l : List Entry}

/-- What holds in any surroundings holds among the adapters. -/
theorem wp_adapted {α : Type} {me : ℕ} {p : Py α} {ok : α → World → List Entry → Prop}
    {err : Err → World → List Entry → Prop} (h : (lone me).wp p ok err w l) :
    (adapted lib me).wp p ok err w l := by
  refine wp_of_fewer (D := lone me) ?_ ?_ ?_ h
  · exact fun _ _ _ _ => trivial
  · exact fun _ _ _ _ _ hw => hw
  · rintro _ _ q a _ ⟨t, -, rfl⟩
    exact ⟨t, trivial, rfl⟩

/-! ### The decision on a request -/

theorem require_known {condition : Bool} {code : String} (h : (code, 400) ∈ refusals) :
    RaisesOnly (fun e => Known refusals (.exc e)) (require condition code) := by
  cases condition with
  | true => exact .ok
  | false => exact .error (known_gatewayError h)

theorem inSet_uncoded (value : Json) (set : List Json) :
    RaisesOnly (fun e => Uncoded (.exc e)) (inSet value set) := by
  unfold inSet
  split
  · exact .ok
  · exact .error rfl

theorem callsOf_known (message : Payload) : RaisesOnly (fun e => Known refusals (.exc e)) (callsOf message) := by
  unfold callsOf
  split
  · exact .ok
  · exact .ok
  · exact .error (known_gatewayError (by decide))

section

variable (hlib : Foreign lib)

include hlib

theorem isCall_uncoded (call : Json) : RaisesOnly (fun e => Uncoded (.exc e)) (isCall lib call) := by
  unfold isCall
  split
  · split
    · split
      · split
        · exact (hlib.loads _ _).map
        · exact .ok
      · exact .ok
    · exact .ok
  · exact .ok

theorem checkCall_known (call : Json) : RaisesOnly (fun e => Known refusals (.exc e)) (checkCall lib call) := by
  have hcall := isCall_uncoded hlib call
  unfold checkCall
  split
  · exact .ok
  · exact .error (known_gatewayError (by decide))
  · exact .error (known_gatewayError (by decide))
  · exact .error (known_gatewayError (by decide))
  · rename_i e _ _ he
    exact .error (hcall e he).known

theorem validateMessage_known (message : Json) :
    RaisesOnly (fun e => Known refusals (.exc e)) (validateMessage lib message) := by
  cases message with
  | obj row =>
    refine ((inSet_uncoded _ _).mono fun _ h => h.known).bind fun _ => ?_
    refine (require_known (by decide)).bind fun _ => (require_known (by decide)).bind fun _ => ?_
    refine (require_known (by decide)).bind fun _ => (callsOf_known row).bind fun calls => ?_
    exact (RaisesOnly.forM (checkCall_known hlib) calls).bind fun _ => require_known (by decide)
  | _ => exact .error (known_gatewayError (by decide))

theorem validate_known (value : Json) : RaisesOnly (fun e => Known refusals (.exc e)) (validate lib value) := by
  cases value with
  | obj fields =>
    refine (require_known (by decide)).bind fun _ => (require_known (by decide)).bind fun _ => ?_
    split
    · exact (RaisesOnly.forM (validateMessage_known hlib) _).bind fun _ => .ok
    · exact .error (known_gatewayError (by decide))
  | _ => exact .error (known_gatewayError (by decide))

theorem parseRequest_known (data : Bytes) :
    RaisesOnly (fun e => Known refusals (.exc e)) (parseRequest lib data) := by
  have hparsed : RaisesOnly (fun e => Known refusals (.exc e)) (lib.loadsBytes true data >>= validate lib) :=
    ((hlib.loadsBytes true data).mono fun _ h => h.known).bind (validate_known hlib)
  unfold parseRequest
  split
  · exact .error (known_gatewayError (by decide))
  · exact hparsed

/-- **A refusal** has a known code. -/
theorem admission_known (hbody : ∀ e, request.body.ending = .raise e → Uncoded e) :
    RaisesOnly (Known refusals) (admission lib settings request) := by
  have hencode : ∀ text, RaisesOnly (fun e => Known refusals (.exc e)) (encodeStr text) := by
    intro text
    unfold encodeStr
    split
    · exact .ok
    · exact .error fun code status hcode => by cases hcode
  have hauthorize : RaisesOnly (fun e => Known refusals (.exc e)) (authorize settings request.headers) := by
    refine (hencode _).bind fun _ => (hencode _).bind fun _ => ?_
    split
    · exact .ok
    · exact .error (known_gatewayError (by decide))
  unfold admission
  split
  · rename_i e he
    exact .error (hauthorize e he)
  · split
    · exact .error (known_gatewayError (by decide))
    · split
      · exact (parseRequest_known hlib _).mapError fun _ h => h
      · rename_i e he
        exact .error (hbody e he).known

end

/-! ### The history -/

theorem asDict_uncoded (value : Json) : RaisesOnly (fun e => Uncoded (.exc e)) (asDict value) := by
  cases value with
  | obj fields => exact .ok
  | _ => exact .error rfl

theorem toolCalls_uncoded (row : Payload) : RaisesOnly (fun e => Uncoded (.exc e)) (toolCalls row) := by
  unfold toolCalls
  split
  · exact .ok
  · exact .ok
  · exact .ok
  · exact .ok
  · exact .error rfl

theorem asRows_uncoded (messages : Json) : RaisesOnly (fun e => Uncoded (.exc e)) (asRows messages) := by
  unfold asRows
  split
  · exact .mapM asDict_uncoded _
  · exact .ok
  · exact .error rfl
  · exact .error rfl
  · exact .error rfl
  · exact .error rfl

theorem liveIds_uncoded (rows : List Payload) : RaisesOnly (fun e => Uncoded (.exc e)) (liveIds rows) := by
  induction rows with
  | nil => exact .ok
  | cons row rows ih =>
    unfold liveIds
    split
    · exact ih.bind fun _ => .ok
    · exact .error rfl

theorem anyCallLive_uncoded (live calls : List Json) :
    RaisesOnly (fun e => Uncoded (.exc e)) (anyCallLive live calls) := by
  induction calls with
  | nil => exact .ok
  | cons call calls ih =>
    refine (asDict_uncoded call).bind fun fields => (inSet_uncoded _ live).bind fun hit => ?_
    split
    · exact .ok
    · exact ih

theorem firstLiveCall_uncoded (live : List Json) (i : ℕ) (rows : List Payload) :
    RaisesOnly (fun e => Uncoded (.exc e)) (firstLiveCall live i rows) := by
  induction rows generalizing i with
  | nil => exact .ok
  | cons row rows ih =>
    refine (toolCalls_uncoded row).bind fun calls => (anyCallLive_uncoded live calls).bind fun _ => ?_
    exact (ih _).bind fun _ => .ok

theorem protect_uncoded (rows : List Payload) (rounds boundary : ℕ) :
    RaisesOnly (fun e => Uncoded (.exc e)) (protect rows rounds boundary) := by
  induction rounds generalizing boundary with
  | zero => exact .ok
  | succ rounds ih =>
    refine (liveIds_uncoded _).bind fun live => (firstLiveCall_uncoded live 0 _).bind fun earlier => ?_
    cases earlier with
    | none => exact .ok
    | some earlier => exact ih earlier

theorem compressible_uncoded (i : ℕ) (rows : List Payload) :
    RaisesOnly (fun e => Uncoded (.exc e)) (compressible i rows) := by
  induction rows generalizing i with
  | nil => exact .ok
  | cons row rows ih => exact (inSet_uncoded _ _).bind fun _ => (ih _).bind fun _ => .ok

/-- **Probing the history** raises nothing of the gateway's. -/
theorem history_uncoded (model : Model) (routed : Payload) :
    RaisesOnly (fun e => Uncoded (.exc e)) (history model routed) := by
  unfold history
  split
  · refine (asRows_uncoded _).bind fun rows => (protect_uncoded rows _ _).bind fun boundary => ?_
    exact compressible_uncoded 0 _
  · exact .error rfl

/-! ### The adapters -/

theorem item_uncoded (value : Json) (key : String) :
    RaisesOnly (fun e => Uncoded (.exc e)) (Switchyard.item value key) := by
  unfold Switchyard.item
  split
  · split
    · exact .ok
    · exact .error rfl
  · exact .error rfl

theorem iterate_uncoded (value : Json) : RaisesOnly (fun e => Uncoded (.exc e)) (Switchyard.iterate value) := by
  unfold Switchyard.iterate
  split
  · exact .ok
  · exact .ok
  · exact .ok
  · exact .error rfl

theorem content_known (value : Json) :
    RaisesOnly (fun e => Known adapterErrors (.exc e)) (Switchyard.content value) := by
  unfold Switchyard.content
  split
  · exact .ok
  · exact .ok
  · split
    · exact .ok
    · exact .error (known_gatewayError (by decide))
  · exact .error (known_gatewayError (by decide))

theorem normalize_known (hlib : Foreign lib) (message : Json) :
    RaisesOnly (fun e => Known adapterErrors (.exc e)) (Switchyard.normalize lib message) := by
  have hitem : ∀ value key, RaisesOnly (fun e => Known adapterErrors (.exc e)) (Switchyard.item value key) :=
    fun value key => (item_uncoded value key).mono fun _ h => h.known
  have hloads : ∀ value, RaisesOnly (fun e => Known adapterErrors (.exc e)) (Switchyard.loadsValue lib value) := by
    intro value
    unfold Switchyard.loadsValue
    split
    · exact (hlib.loads _ _).mono fun _ h => h.known
    · exact .error fun code status hcode => by cases hcode
  have hcall : ∀ call, RaisesOnly (fun e => Known adapterErrors (.exc e)) (Switchyard.normalizeCall lib call) := by
    intro call
    refine (hitem _ _).bind fun _ => (hitem _ _).bind fun _ => (hloads _).bind fun arguments => ?_
    split
    · exact (hitem _ _).bind fun _ => (hitem _ _).bind fun _ => (hitem _ _).bind fun _ => .ok
    · exact .error (known_gatewayError (by decide))
  cases message with
  | obj row =>
    refine (hitem _ _).bind fun role => (content_known _).bind fun blocks => ?_
    have hcalls : RaisesOnly (fun e => Known adapterErrors (.exc e)) (Switchyard.callBlocks lib role row) := by
      unfold Switchyard.callBlocks
      split
      · exact ((toolCalls_uncoded row).mono fun _ h => h.known).bind fun calls => .mapM hcall calls
      · exact .ok
    refine hcalls.bind fun calls => ?_
    dsimp only
    split
    · exact ((hitem _ _).bind fun _ => .ok).bind fun _ => .ok
    · exact .ok
  | _ => exact .error fun code status hcode => by cases hcode

theorem normalizeAll_known (hlib : Foreign lib) (request : Payload) :
    RaisesOnly (fun e => Known adapterErrors (.exc e)) (Switchyard.normalizeAll lib request) := by
  have hrows : RaisesOnly (fun e => Known adapterErrors (.exc e)) (do
      let messages ← Switchyard.iterate (← Switchyard.item (.obj request) "messages")
      return (messages, ← messages.mapM (Switchyard.normalize lib)) : Except Exc (List Json × List Json)) := by
    refine ((item_uncoded _ _).mono fun _ h => h.known).bind fun value => ?_
    refine ((iterate_uncoded value).mono fun _ h => h.known).bind fun messages => ?_
    exact (RaisesOnly.mapM (normalize_known hlib) messages).bind fun _ => .ok
  unfold Switchyard.normalizeAll
  split
  · exact .error (known_gatewayError (by decide))
  · exact .error (known_gatewayError (by decide))
  · exact .error (known_gatewayError (by decide))
  · exact hrows

theorem restore_known (row : Json) :
    RaisesOnly (fun e => Known adapterErrors (.exc e)) (Switchyard.restore row) := by
  have hall : ∀ blocks, RaisesOnly (fun e => Uncoded (.exc e)) (Switchyard.allText blocks) := by
    intro blocks
    induction blocks with
    | nil => exact .ok
    | cons block blocks ih =>
      refine (asDict_uncoded block).bind fun fields => ?_
      split
      · exact ih
      · exact .ok
  have htext : ∀ block, RaisesOnly (fun e => Uncoded (.exc e)) (Switchyard.textOf block) := by
    intro block
    refine (item_uncoded _ _).bind fun value => ?_
    cases value with
    | str text => exact .ok
    | _ => exact .error rfl
  refine ((asDict_uncoded row).mono fun _ h => h.known).bind fun message => ?_
  refine ((iterate_uncoded _).mono fun _ h => h.known).bind fun blocks => ?_
  refine ((hall blocks).mono fun _ h => h.known).bind fun texts => ?_
  split
  · refine ((item_uncoded _ _).mono fun _ h => h.known).bind fun role => ?_
    exact ((RaisesOnly.mapM htext blocks).mono fun _ h => h.known).bind fun _ => .ok
  · exact .error (known_gatewayError (by decide))

theorem putBack_known (remaining : List (Json × Json)) (rows : List Json) :
    RaisesOnly (fun e => Known adapterErrors (.exc e)) (Switchyard.putBack remaining rows) := by
  induction rows generalizing remaining with
  | nil => exact .ok
  | cons row rows ih =>
    unfold Switchyard.putBack
    split
    · exact (restore_known row).bind fun _ => (ih _).bind fun _ => .ok
    · exact (ih _).bind fun _ => .ok

theorem rewritten_known (messages normalized : List Json) (captured : Payload) :
    RaisesOnly (fun e => Known adapterErrors (.exc e)) (Switchyard.rewritten messages normalized captured) := by
  refine ((iterate_uncoded _).mono fun _ h => h.known).bind fun instructions => ?_
  refine (RaisesOnly.mapM restore_known instructions).bind fun generated => ?_
  refine ((item_uncoded _ _).mono fun _ h => h.known).bind fun value => ?_
  refine ((iterate_uncoded value).mono fun _ h => h.known).bind fun rows => ?_
  refine (putBack_known _ rows).bind fun r => ?_
  obtain ⟨rest, left⟩ := r
  dsimp only
  split
  · exact .ok
  · exact .error (known_gatewayError (by decide))

/-- **What the routing adapter raises** is known, over any library. -/
theorem route_known (hlib : Foreign lib) {stage : Pair → List Json → Except Err Switchyard.Captures}
    (hstage : ∀ pair rows, RaisesOnly Uncoded (stage pair rows)) (request : Payload) (pair : Pair) :
    RaisesOnly (Known adapterErrors) (Switchyard.route lib stage request pair) := by
  have hselected : ∀ captures,
      RaisesOnly (fun e => Known adapterErrors (.exc e)) (Switchyard.selected captures) := by
    intro captures
    unfold Switchyard.selected
    split
    · exact .ok
    · exact .ok
    · exact .error (known_gatewayError (by decide))
  have hfailed : ∀ e, Known adapterErrors e → Known adapterErrors (Switchyard.routingFailed e) := by
    intro e he
    cases e with
    | exc e =>
      simp only [Switchyard.routingFailed]
      split
      · exact he
      · exact known_gatewayError (by decide)
    | cancelled => exact he
    | exit => exact he
  refine ((normalizeAll_known hlib request).mapError fun _ h => h).bind fun normalized => ?_
  refine RaisesOnly.mapError ?_ hfailed
  refine ((hstage _ _).mono fun _ h => h.known).bind fun captures => ?_
  refine ((hselected captures).mapError fun _ h => h).bind fun chosen => ?_
  exact ((rewritten_known _ _ _).mapError fun _ h => h).bind fun _ => .ok

/-- So is what the transport raises. -/
theorem send_known {client : Httpx.Request → Except Httpx.Failure Upstream}
    (hclient : ∀ http e, client http = .error (.other e) → Uncoded e) (endpoint : Endpoint) (request : Payload)
    (headers : Headers) :
    RaisesOnly (Known adapterErrors) (Httpx.HttpxTransport.send client endpoint request headers) := by
  unfold Httpx.HttpxTransport.send
  cases hsent : client (Httpx.buildRequest endpoint request headers) with
  | ok upstream => exact .ok
  | error failure =>
    cases failure with
    | connectError => exact .error known_connectFailure
    | connectTimeout => exact .error known_connectFailure
    | timeout => exact .error (known_gatewayError (by decide))
    | http => exact .error (known_gatewayError (by decide))
    | other e => exact .error (hclient _ e hsent).known

/-! ### Causes and verdicts -/

/-- What a port raises is known, if it is an adapter. -/
theorem Adapted.known {entry : Entry} {e : Err} (h : Adapted lib entry) (hlib : Foreign lib)
    (hfault : fault entry = some e) : Known adapterErrors e := by
  obtain ⟨t, q, answer⟩ := entry
  cases q with
  | route request pair =>
    obtain ⟨stage, hstage, rfl⟩ := h
    cases hroute : Switchyard.route lib stage request pair with
    | ok decision =>
      rw [hroute] at hfault
      cases hfault
    | error e' =>
      rw [hroute] at hfault
      obtain rfl := Option.some.inj hfault
      exact route_known hlib hstage request pair e' hroute
  | send model endpoint request headers =>
    obtain ⟨client, hclient, -, rfl⟩ := h
    cases hsend : Httpx.HttpxTransport.send client endpoint request headers with
    | ok upstream =>
      rw [hsend] at hfault
      cases hfault
    | error e' =>
      rw [hsend] at hfault
      obtain rfl := Option.some.inj hfault
      exact send_known hclient endpoint request headers e' hsend
  | _ => exact (h e hfault).known

/-- **Every failed opening** has a known code. -/
theorem known_of_cause {e : Err} (h : Cause settings payload w l e) (hlib : Foreign lib)
    (hl : ∀ entry ∈ l, Adapted lib entry) : Known errors e := by
  cases h with
  | port hfault =>
    obtain ⟨entry, hentry, hfault⟩ := hfault
    exact ((hl entry hentry).known hlib hfault).mono adapterErrors_subset
  | unnamed _ => exact fun code status hcode => by cases hcode
  | misnamed _ _ =>
    split
    · exact known_gatewayError (by decide)
    · exact fun code status hcode => by cases hcode
  | unknown _ _ _ => exact known_gatewayError (by decide)
  | misrouted _ _ _ _ _ => exact known_gatewayError (by decide)
  | unlabelled _ _ _ => exact fun code status hcode => by cases hcode
  | unreadable _ _ he => exact (history_uncoded _ _ _ he).known
  | unavailable _ _ => exact known_gatewayError (by decide)

/-- An attempt was sent when the log says so. -/
theorem mem_sends {a : Attempt} (h : a ∈ sends l) :
    ∃ t, (⟨t, .send a.model a.endpoint a.request a.headers, a.answer⟩ : Entry) ∈ l := by
  induction l with
  | nil => cases h
  | cons entry l ih =>
    obtain ⟨t, q, answer⟩ := entry
    have hlater : a ∈ sends l → ∃ t', (⟨t', .send a.model a.endpoint a.request a.headers, a.answer⟩ : Entry) ∈
        (⟨t, q, answer⟩ : Entry) :: l := fun h => (ih h).imp fun _ hmem => List.mem_cons_of_mem _ hmem
    cases q with
    | send model endpoint request headers =>
      rcases List.mem_cons.1 h with rfl | h
      · exact ⟨t, List.mem_cons_self⟩
      · exact hlater h
    | _ => exact hlater h

/-- The body of an answer that an adapter gave ends as the transport says. -/
theorem readsOut_of_adapted {a : Attempt} {upstream : Upstream} (hl : ∀ entry ∈ l, Adapted lib entry)
    (ha : a ∈ sends l) (hanswer : a.answer = .ok upstream) : ReadsOut upstream.body.ending := by
  obtain ⟨t, hmem⟩ := mem_sends ha
  obtain ⟨client, -, hends, hsend⟩ := hl _ hmem
  rw [hanswer] at hsend
  exact hends _ upstream (mapError_ok hsend.symm)

/-- **A verdict** on such an answer has a known code. -/
theorem verdict_known (hlib : Foreign lib) {upstream : Upstream} (hends : ReadsOut upstream.body.ending) :
    RaisesOnly (Known answerErrors) (verdict lib limit payload upstream) := by
  have hcollected : RaisesOnly (Known answerErrors) (collected limit upstream) := by
    unfold collected
    split
    · exact .error (known_gatewayError (by decide))
    · split
      · exact .ok
      · rename_i e he
        rcases hends e he with huncoded | rfl
        · exact .error huncoded.known
        · exact .error (known_gatewayError (by decide))
  have hparsed : ∀ body, RaisesOnly (fun e => Known answerErrors (.exc e)) (parseCompletion lib body) := by
    intro body
    have hloads := hlib.loadsBytes false body
    unfold parseCompletion
    split
    · split
      · exact .error (known_gatewayError (by decide))
      · exact .ok
    · exact .error (known_gatewayError (by decide))
    · exact .error (known_gatewayError (by decide))
    · rename_i e _ he
      exact .error (hloads e he).known
  have hrendered : RaisesOnly (Known answerErrors) (rendered lib limit payload upstream) := by
    refine hcollected.bind fun body => ((hparsed body).mapError fun _ h => h).bind fun read => ?_
    exact (hlib.render _).mapError fun _ h => h.known
  unfold verdict
  split
  · rename_i hrejected
    refine .error fun code status hcode => ?_
    obtain ⟨rfl, rfl⟩ := Prod.mk.inj (Option.some.inj hcode)
    exact .inr ⟨rfl, hrejected⟩
  · split
    · split
      · exact .ok
      · exact .error (known_gatewayError (by decide))
    · split
      · exact hrendered.map
      · exact .error (known_gatewayError (by decide))

end Ingress
end SwitchyardGateway
