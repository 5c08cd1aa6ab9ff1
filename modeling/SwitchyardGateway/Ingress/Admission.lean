/-
# What the validator promises

Three readers look at the same untyped messages: `_validate`, the routing adapter's
`_normalize` and `eligible_indices`.

The validator refuses a malformed request with a `GatewayError` of status 400,
unless it meets a role that cannot be looked up in a set first, or a `json.loads`
that raises something else (`settled_iff`).  What it accepts can be normalized,
every message of it.  It does not look at the `tool_call_id` of a row that is no
tool's, and `eligible_indices` does (`preparation_succeeds_iff`).
-/

import SwitchyardGateway.Adapters.Switchyard
import SwitchyardGateway.Application.Protection
import SwitchyardGateway.Ingress.Answers

namespace SwitchyardGateway
namespace Ingress

open Coop Coop.Discipline Python Application

variable {lib : Lib}

/-! ### Computations that raise client errors only -/

/-- The result is a value or a `GatewayError` of status 400. -/
def Settled {α : Type} (r : Except Exc α) : Prop :=
  (∃ a, r = .ok a) ∨ ∃ code, r = .error (.gateway code 400)

theorem Settled.ok {α : Type} {a : α} : Settled (.ok a : Except Exc α) := .inl ⟨a, rfl⟩

theorem Settled.invalid {α : Type} {code : String} : Settled (Ingress.invalid code : Except Exc α) :=
  .inr ⟨code, rfl⟩

/-- A check goes on with its condition or settles the matter. -/
theorem settled_require {α : Type} {condition : Bool} {code : String} {f : Unit → Except Exc α} :
    Settled (require condition code >>= f) ↔ (condition = true → Settled (f ())) := by
  cases condition with
  | true => exact ⟨fun h _ => h, fun h => h rfl⟩
  | false => exact ⟨fun _ => nofun, fun _ => .invalid⟩

theorem settled_require_last {condition : Bool} {code : String} : Settled (require condition code) := by
  cases condition
  · exact .invalid
  · exact .ok

/-- What follows and always settles does not matter. -/
theorem settled_bind {α β : Type} {x : Except Exc α} {f : α → Except Exc β} (hf : ∀ a, Settled (f a)) :
    Settled (x >>= f) ↔ Settled x := by
  cases x with
  | ok a => exact ⟨fun _ => .ok, fun _ => hf a⟩
  | error e =>
    constructor
    · rintro (⟨b, hb⟩ | ⟨code, hcode⟩)
      · cases hb
      · exact .inr ⟨code, congrArg Except.error (Except.error.inj hcode)⟩
    · rintro (⟨a, ha⟩ | ⟨code, hcode⟩)
      · cases ha
      · exact .inr ⟨code, congrArg Except.error (Except.error.inj hcode)⟩

/-- Going through a list: all is well, or the first item that raises decides. -/
theorem settled_forM {α : Type} {f : α → Except Exc Unit} (xs : List α) :
    Settled (xs.forM f) ↔ ¬∃ before x after, xs = before ++ x :: after ∧
      (∀ y ∈ before, f y = .ok ()) ∧ ¬Settled (f x) := by
  induction xs with
  | nil =>
    refine ⟨fun _ => ?_, fun _ => .ok⟩
    rintro ⟨before, x, after, heq, -⟩
    simp at heq
  | cons x xs ih =>
    change Settled (f x >>= fun _ => xs.forM f) ↔ _
    cases hx : f x with
    | ok u =>
      change Settled (xs.forM f) ↔ _
      rw [ih, not_iff_not]
      constructor
      · rintro ⟨before, y, after, rfl, hbefore, hy⟩
        exact ⟨x :: before, y, after, rfl, List.forall_mem_cons.2 ⟨hx, hbefore⟩, hy⟩
      · rintro ⟨before, y, after, heq, hbefore, hy⟩
        cases before with
        | nil =>
          obtain ⟨rfl, rfl⟩ := List.cons.inj heq
          exact absurd (hx ▸ .ok) hy
        | cons z before =>
          obtain ⟨rfl, rfl⟩ := List.cons.inj heq
          exact ⟨before, y, after, rfl, (List.forall_mem_cons.1 hbefore).2, hy⟩
    | error e =>
      have hraise : Settled (.error e : Except Exc Unit) ↔ Settled (f x) := by rw [hx]
      change Settled (.error e : Except Exc Unit) ↔ _
      rw [hraise]
      constructor
      · rintro h ⟨before, y, after, heq, hbefore, hy⟩
        cases before with
        | nil =>
          obtain ⟨rfl, rfl⟩ := List.cons.inj heq
          exact hy h
        | cons z before =>
          obtain ⟨rfl, rfl⟩ := List.cons.inj heq
          rw [(List.forall_mem_cons.1 hbefore).1] at hx
          cases hx
      · intro h
        by_contra hno
        exact h ⟨[], x, xs, rfl, nofun, hno⟩

/-- All items of a list that goes through pass. -/
theorem forM_ok {α : Type} {f : α → Except Exc Unit} {xs : List α} :
    xs.forM f = .ok () ↔ ∀ x ∈ xs, f x = .ok () := by
  induction xs with
  | nil => exact ⟨fun _ => nofun, fun _ => rfl⟩
  | cons x xs ih =>
    rw [List.forall_mem_cons, ← ih]
    change (f x >>= fun _ => xs.forM f) = .ok () ↔ _
    constructor
    · intro h
      obtain ⟨u, hx, hxs⟩ := bind_ok h
      exact ⟨hx, hxs⟩
    · rintro ⟨hx, hxs⟩
      rw [hx]
      exact hxs

/-! ### The validator -/

/-- Reading the arguments of the call raises something the validator does not catch. -/
def Unreadable (lib : Lib) (call : Json) : Prop :=
  ∃ e, isCall lib call = .error e ∧ e ≠ .valueError ∧ e ≠ .typeError ∧ ∀ code, e ≠ .gateway code 400

theorem settled_checkCall {call : Json} : Settled (checkCall lib call) ↔ ¬Unreadable lib call := by
  -- a call that does not raise, or raises what is caught, is readable
  have hcaught : (∀ e, isCall lib call = .error e → e = .valueError ∨ e = .typeError) →
      ¬Unreadable lib call := by
    rintro h ⟨e, he, hvalue, htype, -⟩
    rcases h e he with rfl | rfl
    · exact hvalue rfl
    · exact htype rfl
  unfold checkCall
  split
  · rename_i hcall
    refine ⟨fun _ => hcaught fun e he => ?_, fun _ => .ok⟩
    exact nomatch hcall.symm.trans he
  · rename_i hcall
    refine ⟨fun _ => hcaught fun e he => ?_, fun _ => .invalid⟩
    exact nomatch hcall.symm.trans he
  · rename_i hcall
    exact ⟨fun _ => hcaught fun e he => .inl (Except.error.inj (he.symm.trans hcall)), fun _ => .invalid⟩
  · rename_i hcall
    exact ⟨fun _ => hcaught fun e he => .inr (Except.error.inj (he.symm.trans hcall)), fun _ => .invalid⟩
  · rename_i e hvalue htype hcall
    constructor
    · rintro (⟨u, hu⟩ | ⟨code, hcode⟩)
      · cases hu
      · rintro ⟨e', he', -, -, hgateway⟩
        obtain rfl := Except.error.inj (hcall.symm.trans he')
        exact hgateway code (Except.error.inj hcode)
    · intro h
      by_contra hno
      exact h ⟨e, hcall, hvalue, htype, fun code heq => hno (.inr ⟨code, congrArg _ heq⟩)⟩

/-- The message has a role that no set can be asked about, or passes the checks up to
its tool calls and the first call that does not pass is unreadable. -/
def Surprising (lib : Lib) (message : Json) : Prop :=
  ∃ row, message = .obj row ∧ (hashable (get row "role") = false ∨
    inSet (get row "role") roles = .ok true ∧ isContent (get row "content") = true ∧
      (!(get row "content").pyEq .null || hasRole "assistant" row) = true ∧
      ∃ before call after, callsOf row = .ok (before ++ call :: after) ∧
        (∀ c ∈ before, checkCall lib c = .ok ()) ∧ Unreadable lib call)

theorem validateMessage_obj (row : Payload) : validateMessage lib (.obj row) =
    inSet (get row "role") roles >>= fun known =>
    require known "invalid_message" >>= fun _ =>
    require (isContent (get row "content")) "unsupported_message_content" >>= fun _ =>
    require (!(get row "content").pyEq .null || hasRole "assistant" row) "invalid_message_content" >>= fun _ =>
    callsOf row >>= fun calls => calls.forM (checkCall lib) >>= fun _ =>
    require (!hasRole "tool" row || isName (get row "tool_call_id")) "invalid_tool_result" := rfl

/-- **A message is refused with a client error** or passes, unless it is surprising. -/
theorem settled_validateMessage {message : Json} :
    Settled (validateMessage lib message) ↔ ¬Surprising lib message := by
  cases message with
  | obj row =>
    rw [validateMessage_obj]
    cases hhash : hashable (get row "role") with
    | false =>
      rw [inSet, hhash]
      constructor
      · rintro (⟨u, hu⟩ | ⟨code, hcode⟩)
        · cases hu
        · cases hcode
      · exact fun h => absurd ⟨row, rfl, .inl hhash⟩ h
    | true =>
      obtain ⟨known, hknown⟩ : ∃ known, inSet (get row "role") roles = .ok known := ⟨_, if_pos hhash⟩
      rw [hknown]
      change Settled (require known _ >>= _) ↔ _
      rw [settled_require, settled_require, settled_require]
      have hcalls : Settled (callsOf row >>= fun calls => calls.forM (checkCall lib) >>= fun _ =>
          require (!hasRole "tool" row || isName (get row "tool_call_id")) "invalid_tool_result") ↔
          ¬∃ before call after, callsOf row = .ok (before ++ call :: after) ∧
            (∀ c ∈ before, checkCall lib c = .ok ()) ∧ Unreadable lib call := by
        cases hcallsOf : callsOf row with
        | error e =>
          refine ⟨fun _ => ?_, fun _ => ?_⟩
          · rintro ⟨before, call, after, hok, -⟩
            cases hok
          · unfold callsOf at hcallsOf
            split at hcallsOf
            · cases hcallsOf
            · cases hcallsOf
            · cases hcallsOf
              exact .invalid
        | ok calls =>
          change Settled (calls.forM (checkCall lib) >>= _) ↔ _
          rw [settled_bind fun _ => settled_require_last, settled_forM]
          refine not_congr (exists_congr fun before => exists_congr fun call => exists_congr fun after => ?_)
          rw [settled_checkCall, not_not, Except.ok.injEq]
      rw [hcalls]
      constructor
      · rintro h ⟨row', heq, hsurprise⟩
        obtain rfl := Json.obj.inj heq
        rcases hsurprise with hno | ⟨hset, hcontent, hnull, hcall⟩
        · rw [hhash] at hno
          cases hno
        · rw [hknown] at hset
          exact h (Except.ok.inj hset) hcontent hnull hcall
      · intro h hset hcontent hnull hcall
        exact h ⟨row, rfl, .inr ⟨hknown.trans (congrArg _ hset), hcontent, hnull, hcall⟩⟩
  | _ =>
    refine ⟨fun _ => ?_, fun _ => .invalid⟩
    rintro ⟨row, hrow, -⟩
    cases hrow

/-- The request has a model and messages, and the first message that does not pass is
surprising. -/
def Crashing (lib : Lib) (v : Json) : Prop :=
  ∃ payload before message after, v = .obj payload ∧ isStr (get payload "model") = true ∧
    (payload.lookup (lit "stream")).all isBool = true ∧
    get payload "messages" = .list (before ++ message :: after) ∧
    (∀ m ∈ before, validateMessage lib m = .ok ()) ∧ Surprising lib message

/-- **A request is refused with a client error** or passes, unless it crashes the
validator. -/
theorem settled_validate {v : Json} : Settled (validate lib v) ↔ ¬Crashing lib v := by
  cases v with
  | obj payload =>
    rw [validate, settled_require, settled_require]
    constructor
    · rintro h ⟨payload', before, message, after, heq, hmodel, hstream, hmessages, hbefore, hsurprise⟩
      obtain rfl := Json.obj.inj heq
      have hsettled := h hmodel hstream
      rw [hmessages] at hsettled
      split at hsettled
      · rename_i first rest hlist
        change Settled ((first :: rest).forM (validateMessage lib) >>= fun _ => .ok payload) at hsettled
        rw [settled_bind fun _ => .ok, settled_forM] at hsettled
        refine hsettled ⟨before, message, after, (Json.list.inj hlist).symm, hbefore, ?_⟩
        rw [settled_validateMessage, not_not]
        exact hsurprise
      · rename_i hno
        cases before with
        | nil => exact hno message after rfl
        | cons first before => exact hno first _ rfl
    · intro h hmodel hstream
      split
      · rename_i first rest hmessages
        change Settled ((first :: rest).forM (validateMessage lib) >>= fun _ => .ok payload)
        rw [settled_bind fun _ => .ok, settled_forM]
        rintro ⟨before, message, after, hlist, hbefore, hno⟩
        rw [settled_validateMessage, not_not] at hno
        rw [hlist] at hmessages
        exact h ⟨payload, before, message, after, rfl, hmodel, hstream, hmessages, hbefore, hno⟩
      · exact .invalid
  | _ =>
    refine ⟨fun _ => ?_, fun _ => .invalid⟩
    rintro ⟨payload, before, message, after, hobj, -⟩
    cases hobj

/-! ### What the client is answered -/

section Refused

variable {settings : Settings} {limit me : ℕ} {request : Request} {requestId : Str} {w : World}
  {l : List Entry}

/-- A body that is whole and short enough is received. -/
theorem wp_receiveFrom_ok {quiet : Call → Prop} {writes : (Event → Event) → Prop} {L : Type}
    {D : Discipline World Call Answer L} {J : World → L → Prop} (h : Neutral D me quiet writes J)
    (hreceive : quiet .receive) (chunks : List Bytes) (data : Bytes)
    (hlength : (data ++ chunks.flatten).length ≤ settings.maxRequestBytes) {w : World} {l : L}
    (hJ : J w l) :
    D.wp (Ingress.receiveFrom settings .eof chunks data)
      (fun received w l => received = data ++ chunks.flatten ∧ J w l) (fun _ _ _ => False) w l := by
  induction chunks generalizing data w l with
  | nil =>
    simp only [Ingress.receiveFrom, wp_bind, wp_askAwait, wp_pure]
    refine ⟨h.park w l Call.receive hreceive hJ, fun w₁ l₁ hw a l₂ ha => ⟨by simp, ?_⟩⟩
    exact h.ask _ _ Call.receive _ _ hreceive (h.wake _ _ Call.receive _ _ hreceive hJ hw) ha
  | cons chunk chunks ih =>
    rw [List.flatten_cons, ← List.append_assoc] at hlength
    simp only [Ingress.receiveFrom, wp_bind, wp_askAwait, wp_ite]
    refine ⟨h.park w l Call.receive hreceive hJ, fun w₁ l₁ hw a l₂ ha => ?_⟩
    rw [if_neg (by rw [List.length_append] at hlength; omega), List.flatten_cons, ← List.append_assoc]
    exact ih (data ++ chunk) hlength
      (h.ask _ _ Call.receive _ _ hreceive (h.wake _ _ Call.receive _ _ hreceive hJ hw) ha)

/-- The request is answered with an error of status 400 and recorded as rejected. -/
def Refused (requestId : Str) (r : Except Err Reply) (l : List Entry) : Prop :=
  ∃ code event, r = .ok (errorReply code 400 requestId) ∧ requests l = [event] ∧
    event.status = some 400 ∧ event.outcome = some .rejected ∧ event.error = some code

/-- **A request that is refused** with a client error is answered with it. -/
theorem wp_chat_refused {code : String} (hauthorized : authorize settings request.headers = .ok ())
    (hwhole : request.body.ending = .eof)
    (hlength : request.body.chunks.flatten.length ≤ settings.maxRequestBytes)
    (hrefused : parseRequest lib request.body.chunks.flatten = .error (.gateway code 400))
    (hl : requests l = []) :
    (attended me).wp (chat lib settings limit me request requestId)
      (fun reply _ l => Refused requestId (.ok reply) l) (fun _ _ _ => False) w l := by
  have hwaits : Neutral (attended me) me Unrecorded (fun _ => True) fun w l =>
      Awaiting (w.calls me) (requests l) ∧ (w.calls me).opened = false :=
    attended_neutral (P := fun c events => Awaiting c events ∧ c.opened = false) fun _ _ _ _ h => h
  have hstart : Awaiting ((w.setCall me fun c => { c with
      exchange := none, handedOff := false, opened := false, outcome := .failed }).calls me)
      (requests l) ∧ ((w.setCall me fun c => { c with
      exchange := none, handedOff := false, opened := false, outcome := .failed }).calls me).opened =
        false := by
    rw [World.setCall_calls_self]
    exact ⟨⟨rfl, rfl, rfl, hl⟩, rfl⟩
  have hread : (attended me).wp (readRequest lib settings request) (fun _ _ _ => False)
      (fun e w l => e = .exc (.gateway code 400) ∧ Awaiting (w.calls me) (requests l) ∧
        (w.calls me).opened = false) (w.setCall me fun c => { c with
          exchange := none, handedOff := false, opened := false, outcome := .failed }) l := by
    simp only [readRequest, wp_bind, lift, wp_ofExcept, hauthorized, hwhole]
    refine wp_mono (fun received w₁ l₁ h₁ => ?_) (fun _ _ _ h => h.elim)
      (wp_receiveFrom_ok hwaits trivial request.body.chunks [] (by simpa using hlength) hstart)
    rw [h₁.1, List.nil_append, hrefused]
    exact ⟨rfl, h₁.2⟩
  simp only [chat, chatTry, wp_bind, setVars, wp_update, wp_finallyDo, wp_tryCatch]
  refine wp_mono (fun _ _ _ h => h.elim) (fun e w₁ l₁ h₁ => ?_) hread
  obtain ⟨rfl, ⟨hnone, hkept, -, hrecords⟩, hunopened⟩ := h₁
  refine wp_refuse (fun hsome => ?_) (fun _ hopened => ?_) (fun _ _ a l₂ ha => ?_)
  · rw [hnone] at hsome
    cases hsome
  · rw [hunopened] at hopened
    cases hopened
  · obtain ⟨t, hok, rfl⟩ := ha
    obtain rfl : a = .ok () := hok
    rw [ends_ok]
    simp only [chatFinally, wp_bind, wp_read, hnone, wp_pure]
    exact ⟨code, _, rfl, congrArg _ hrecords, rfl, rfl, rfl⟩

end Refused

/-- **Malformed requests are client errors**, and are answered as such, unless they
crash the validator. -/
theorem malformed_is_client_error_iff (lib : Lib) (settings : Settings) (limit me : ℕ) (request : Request)
    (requestId : Str) (v : Json) (hauthorized : authorize settings request.headers = .ok ())
    (hwhole : request.body.ending = .eof)
    (hlength : request.body.chunks.flatten.length ≤ settings.maxRequestBytes)
    (hread : lib.loadsBytes true request.body.chunks.flatten = .ok v) :
    (((∃ payload, v = .obj payload ∧ validate lib v = .ok payload) ∨
        ∃ code, validate lib v = .error (.gateway code 400)) ∧
      ((∀ payload, validate lib v ≠ .ok payload) → ∀ w r w' l,
        (attended me).Run (chat lib settings limit me request requestId) w [] r w' l →
        Refused requestId r l)) ↔ ¬Crashing lib v := by
  rw [← settled_validate]
  constructor
  · rintro ⟨⟨payload, -, hok⟩ | hcode, -⟩
    · exact .inl ⟨payload, hok⟩
    · exact .inr hcode
  · intro hsettled
    refine ⟨hsettled.imp_left fun hvalid => hvalid.imp fun payload hok => ⟨(validate_ok hok).1, hok⟩,
      fun hno w r w' l hrun => ?_⟩
    obtain ⟨payload, hok⟩ | ⟨code, hcode⟩ := hsettled
    · exact absurd hok (hno payload)
    · have hrefused : parseRequest lib request.body.chunks.flatten = .error (.gateway code 400) := by
        simp only [parseRequest, hread, bind, Except.bind, hcode]
      have hends := hrun.ends (wp_chat_refused hauthorized hwhole hlength hrefused rfl)
      cases r with
      | ok reply => exact hends
      | error e => exact hends.elim

namespace Demo

/-- A library that reads every body as one value. -/
def reading (v : Json) : Lib := { Application.Demo.lib with loadsBytes := fun _ _ => .ok v }

/-- A request without messages. -/
def silent : Json := .obj [(lit "model", .str (lit "m")), (lit "messages", .list [])]

/-- A request with a message whose role is a list. -/
def listRole : Json :=
  .obj [(lit "model", .str (lit "m")),
    (lit "messages", .list [.obj [(lit "role", .list []), (lit "content", .str (lit "hi"))]])]

end Demo

/-- A request without messages is refused. -/
theorem silent_is_client_error :
    ((∃ payload, Demo.silent = .obj payload ∧
        validate (Demo.reading Demo.silent) Demo.silent = .ok payload) ∨
      ∃ code, validate (Demo.reading Demo.silent) Demo.silent = .error (.gateway code 400)) ∧
    ((∀ payload, validate (Demo.reading Demo.silent) Demo.silent ≠ .ok payload) → ∀ w r w' l,
      (attended 0).Run (chat (Demo.reading Demo.silent) Application.Demo.settings 1024 0
        Demo.chatRequest (lit "r")) w [] r w' l → Refused (lit "r") r l) := by
  refine (malformed_is_client_error_iff (Demo.reading Demo.silent) Application.Demo.settings 1024 0
    Demo.chatRequest (lit "r") Demo.silent (by decide +kernel) rfl (by decide +kernel) rfl).2 ?_
  rintro ⟨payload, before, message, after, hobj, -, -, hmessages, -⟩
  obtain rfl := Json.obj.inj hobj
  have hnil : [] = before ++ message :: after := Json.list.inj hmessages
  simp at hnil

/-- **A role that is a list** is answered with 500. -/
theorem listRole_is_server_error :
    ¬((∃ payload, Demo.listRole = .obj payload ∧
        validate (Demo.reading Demo.listRole) Demo.listRole = .ok payload) ∨
      ∃ code, validate (Demo.reading Demo.listRole) Demo.listRole = .error (.gateway code 400)) ∧
    (exec (Demo.upstreams []) (chat (Demo.reading Demo.listRole) Application.Demo.settings 1024 0
      Demo.chatRequest (lit "r")) Application.Demo.world []).1.toOption.map Reply.status = some 500 := by
  have hraises : validate (Demo.reading Demo.listRole) Demo.listRole = .error .typeError := by rfl
  refine ⟨?_, by decide +kernel⟩
  rw [hraises]
  rintro (⟨payload, -, hok⟩ | ⟨code, hcode⟩)
  · cases hok
  · cases hcode

/-! ### Messages that pass -/

/-- What the checks of a message found. -/
structure Admitted (lib : Lib) (row : Payload) : Prop where
  role : hashable (get row "role") = true ∧ ∃ role, row.lookup (lit "role") = some role
  content : isContent (get row "content") = true
  calls : ∃ calls, callsOf row = .ok calls ∧ ∀ call ∈ calls, isCall lib call = .ok true
  result : hasRole "tool" row = true → isName (get row "tool_call_id") = true

theorem checkCall_ok {call : Json} (h : checkCall lib call = .ok ()) : isCall lib call = .ok true := by
  unfold checkCall at h
  split at h
  · assumption
  · cases h
  · cases h
  · cases h
  · cases h

theorem admitted_of_ok {row : Payload} (h : validateMessage lib (.obj row) = .ok ()) :
    Admitted lib row := by
  rw [validateMessage_obj] at h
  obtain ⟨known, hknown, h₁⟩ := bind_ok h
  obtain ⟨_, hrole, h₂⟩ := bind_ok h₁
  obtain ⟨_, hcontent, h₃⟩ := bind_ok h₂
  obtain ⟨_, -, h₄⟩ := bind_ok h₃
  obtain ⟨calls, hcalls, h₅⟩ := bind_ok h₄
  obtain ⟨_, hchecked, htool⟩ := bind_ok h₅
  rw [require_ok] at hrole hcontent htool
  refine ⟨⟨?_, ?_⟩, hcontent, ⟨calls, hcalls, fun call hcall => ?_⟩, fun hrow => ?_⟩
  · unfold inSet at hknown
    split at hknown
    · assumption
    · cases hknown
  · cases hlookup : row.lookup (lit "role") with
    | some role => exact ⟨role, rfl⟩
    | none =>
      have hget : get row "role" = .null := by rw [Application.get, hlookup, Option.getD_none]
      have hunknown : inSet (get row "role") roles = .ok false := by
        rw [hget]
        rfl
      rw [hrole, hunknown] at hknown
      cases hknown
  · exact checkCall_ok (forM_ok.1 hchecked call hcall)
  · rw [hrow] at htool
    exact htool

/-- Reading a key that is there. -/
theorem item_of_get {fields : Payload} {key : String} {value : Json}
    (h : Application.get fields key = value) (hvalue : value ≠ .null) :
    Switchyard.item (.obj fields) key = .ok value := by
  rw [Switchyard.item, lookup_of_get h hvalue]

theorem isName_iff {value : Json} : isName value = true ↔ ∃ c s, value = .str (c :: s) := by
  cases value with
  | str s => cases s <;> simp [isName]
  | _ => simp [isName]

/-- A call that passed has an id, and can be normalized. -/
theorem normalizeCall_ok {call : Json} (h : isCall lib call = .ok true) :
    (∃ fields id, call = .obj fields ∧ get fields "id" = .str id) ∧
      ∃ block, Switchyard.normalizeCall lib call = .ok block := by
  unfold isCall at h
  split at h
  · rename_i fields
    split at h
    · rename_i hcall
      rw [Bool.and_eq_true] at hcall
      obtain ⟨c, id, hid⟩ := isName_iff.1 hcall.2
      split at h
      · rename_i function hfunction
        split at h
        · rename_i arguments hname harguments
          obtain ⟨c', name, hname⟩ := isName_iff.1 hname
          refine ⟨⟨fields, _, rfl, hid⟩, ?_⟩
          cases hloads : lib.loads false arguments with
          | error e =>
            rw [hloads] at h
            cases h
          | ok value =>
            rw [hloads] at h
            have hdict : isDict value = true := Except.ok.inj h
            have hitems : Switchyard.normalizeCall lib (.obj fields) = .ok (.obj
                [(lit "type", .str (lit "tool_call")), (lit "id", .str (c :: id)),
                 (lit "name", .str (c' :: name)), (lit "arguments", value)]) := by
              simp only [Switchyard.normalizeCall, item_of_get hfunction nofun, item_of_get harguments nofun,
                item_of_get hid nofun, item_of_get hname nofun, Switchyard.loadsValue, hloads, bind,
                Except.bind, hdict, if_true, pure, Except.pure]
            exact ⟨_, hitems⟩
        · cases h
      · cases h
    · cases h
  · cases h

theorem toolCalls_of_callsOf {row : Payload} {calls : List Json} (h : callsOf row = .ok calls) :
    toolCalls row = .ok calls := by
  unfold callsOf at h
  unfold toolCalls
  split at h
  · rename_i hlookup
    rw [hlookup]
    exact h
  · rename_i hlookup
    rw [hlookup]
    exact h
  · cases h

theorem Admitted.callsNamed {row : Payload} (h : Admitted lib row) : CallsNamed row := by
  obtain ⟨calls, hcalls, hpass⟩ := h.calls
  exact ⟨calls, toolCalls_of_callsOf hcalls, fun call hcall => (normalizeCall_ok (hpass call hcall)).1⟩

theorem content_ok {value : Json} (h : isContent value = true) :
    ∃ blocks, Switchyard.content value = .ok blocks := by
  cases value with
  | null => exact ⟨_, rfl⟩
  | str s => exact ⟨_, rfl⟩
  | list blocks => exact ⟨_, if_pos h⟩
  | _ => cases h

/-- **A message that passed can be normalized.** -/
theorem Admitted.normalize {row : Payload} (h : Admitted lib row) :
    ∃ n, Switchyard.normalize lib (.obj row) = .ok n := by
  obtain ⟨role, hrole⟩ := h.role.2
  obtain ⟨blocks, hblocks⟩ := content_ok h.content
  obtain ⟨calls, hcalls, hpass⟩ := h.calls
  obtain ⟨callBlocks, hcallBlocks⟩ : ∃ callBlocks, Switchyard.callBlocks lib role row = .ok callBlocks := by
    unfold Switchyard.callBlocks
    split
    · rw [toolCalls_of_callsOf hcalls]
      exact mapM_ok fun call hcall => (normalizeCall_ok (hpass call hcall)).2
    · exact ⟨[], rfl⟩
  have hget : get row "role" = role := by rw [Application.get, hrole, Option.getD_some]
  have hitem : Switchyard.item (.obj row) "role" = .ok role := by rw [Switchyard.item, hrole]
  have hnormal : Switchyard.normalize lib (.obj row) =
      ((if role.pyEq (.str (lit "tool")) then Switchyard.toolResult row (blocks ++ callBlocks)
        else .ok (blocks ++ callBlocks)) >>= fun blocks =>
        .ok (.obj [(lit "role", role), (lit "content", .list blocks)])) := by
    simp only [Switchyard.normalize, hitem, hblocks, hcallBlocks, bind, Except.bind, pure, Except.pure]
    split <;> rfl
  rw [hnormal]
  split
  · rename_i htool
    rw [← hget] at htool
    obtain ⟨c, id, hid⟩ := isName_iff.1 (h.result htool)
    have hresult : ∃ result, Switchyard.toolResult row (blocks ++ callBlocks) = .ok result := by
      rw [Switchyard.toolResult, item_of_get hid (by rintro ⟨⟩)]
      exact ⟨_, rfl⟩
    obtain ⟨result, hresult⟩ := hresult
    rw [hresult]
    exact ⟨_, rfl⟩
  · exact ⟨_, rfl⟩

/-- What passes has rows for messages, and each of them passes. -/
theorem rows_of_validate {v : Json} {payload : Payload} (h : validate lib v = .ok payload) :
    ∃ rows, rows ≠ [] ∧ get payload "messages" = .list (rows.map .obj) ∧ ∀ row ∈ rows, Admitted lib row := by
  obtain ⟨-, -, -, messages, hne, hmessages, hpass⟩ := validate_ok h
  have hrows : ∃ rows : List Payload, messages = rows.map .obj := by
    clear hne hmessages
    induction messages with
    | nil => exact ⟨[], rfl⟩
    | cons message messages ih =>
      obtain ⟨row, rfl⟩ := validateMessage_ok (hpass message (List.mem_cons_self ..))
      obtain ⟨rows, rfl⟩ := ih fun m hm => hpass m (List.mem_cons_of_mem _ hm)
      exact ⟨row :: rows, rfl⟩
  obtain ⟨rows, rfl⟩ := hrows
  refine ⟨rows, fun hnil => hne (by rw [hnil]; rfl), ?_, fun row hrow => ?_⟩
  · rw [Application.get, hmessages, Option.getD_some]
  · exact admitted_of_ok (hpass _ (List.mem_map.2 ⟨row, hrow, rfl⟩))

/-- **What passes can be prepared**, unless a row that is protected has a
`tool_call_id` that no set can hold. -/
theorem preparation_succeeds_iff (lib : Lib) (v : Json) (payload : Payload)
    (h : validate lib v = .ok payload) :
    ∃ rows, get payload "messages" = .list (rows.map .obj) ∧
      (((∀ row ∈ rows, ∃ n, Switchyard.normalize lib (.obj row) = .ok n) ∧
        ∃ indices, eligibleIndices (get payload "messages") = .ok indices) ↔
      ∀ recent boundary, IsRecent rows recent → IsBoundary rows recent boundary →
        ∀ row ∈ rows.drop boundary, hashable (get row "tool_call_id") = true) := by
  obtain ⟨rows, -, hmessages, hadmitted⟩ := rows_of_validate h
  obtain ⟨boundary, hboundary⟩ := exists_isBoundary rows
    (min (lastWithRole "user" rows) (lastWithRole "assistant" rows))
  have hprotect := protect_eq (fun row hrow => (hadmitted row hrow).callsNamed) (Nat.lt_succ_self _) hboundary
  have heligible : eligibleIndices (get payload "messages") = (protect rows
      (min (lastWithRole "user" rows) (lastWithRole "assistant" rows) + 1)
      (min (lastWithRole "user" rows) (lastWithRole "assistant" rows)) >>= fun boundary =>
        compressible 0 (rows.take boundary)) := by
    rw [hmessages, eligibleIndices, asRows_list]
    rfl
  refine ⟨rows, hmessages, ?_⟩
  rw [heligible, hprotect]
  constructor
  · rintro ⟨-, indices, hindices⟩ recent' boundary' hrecent' hboundary'
    obtain rfl := hrecent'.unique (isRecent rows)
    obtain rfl := hboundary'.unique hboundary
    split at hindices
    · rename_i hall
      exact List.all_eq_true.1 hall
    · cases hindices
  · intro hhashable
    refine ⟨fun row hrow => (hadmitted row hrow).normalize, ?_⟩
    rw [if_pos (List.all_eq_true.2 (hhashable _ boundary (isRecent rows) hboundary))]
    obtain ⟨indices, hindices, -⟩ := compressible_eq (rows.take boundary)
      (fun row hrow => (hadmitted row (List.mem_of_mem_take hrow)).role.1) 0
    exact ⟨indices, hindices⟩

namespace Demo

/-- A request whose only message carries `id` as its `tool_call_id`. -/
def carrying (id : Json) : Payload :=
  [(lit "model", .str (lit "m")),
   (lit "messages", .list [.obj [(lit "role", .str (lit "user")), (lit "content", .str (lit "hi")),
     (lit "tool_call_id", id)]])]

/-- The settings, with compression. -/
def compressing : Settings := { Application.Demo.settings with compression := true }

end Demo

/-- A number as a `tool_call_id` does no harm. -/
theorem number_is_prepared : ∃ rows, get (Demo.carrying (.int 1)) "messages" = .list (rows.map .obj) ∧
    (((∀ row ∈ rows, ∃ n, Switchyard.normalize Demo.bodies (.obj row) = .ok n) ∧
      ∃ indices, eligibleIndices (get (Demo.carrying (.int 1)) "messages") = .ok indices) ↔
    ∀ recent boundary, IsRecent rows recent → IsBoundary rows recent boundary →
      ∀ row ∈ rows.drop boundary, hashable (get row "tool_call_id") = true) :=
  preparation_succeeds_iff Demo.bodies (.obj (Demo.carrying (.int 1))) (Demo.carrying (.int 1)) (by rfl)

/-- **A list as the `tool_call_id` of a user's row** passes, and the request fails with
a `TypeError`. -/
theorem listId_fails_preparation :
    validate Demo.bodies (.obj (Demo.carrying (.list []))) = .ok (Demo.carrying (.list [])) ∧
      eligibleIndices (get (Demo.carrying (.list [])) "messages") = .error .typeError ∧
      (exec (Demo.upstreams Demo.completion) (Gateway.open Demo.bodies Demo.compressing 0
        (Demo.carrying (.list [])) [] (lit "r")) Application.Demo.world []).1.isOk = false :=
  ⟨by rfl, by rfl, by decide +kernel⟩

end Ingress
end SwitchyardGateway
