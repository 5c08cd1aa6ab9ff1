/-
# Nothing is opened for a request that was not admitted

A request is admitted if it names the gateway's key, is no larger than the limit,
arrives completely and is well formed.  `admission` decides this on the request
alone, in that order, however its body is cut into chunks.

`serve_mediated` says that every run of `serve` follows the decision.  A request that
is not admitted is read no further than the chunk that goes over the limit, and not
at all without the key; then it is answered, and recorded, as the decision says,
and nothing else is asked of anybody: it is not routed, compressed or sent.  For a
request that is admitted `Gateway.open` is entered right after its body was read.
-/

import SwitchyardGateway.Ingress.Outcomes

namespace SwitchyardGateway
namespace Ingress

open Coop Coop.Discipline Python Application

section

variable (lib : Lib) (settings : Settings)

/-- The decision on a request: the payload to open, or the error it is refused with. -/
def admission (request : Request) : Except Err Payload :=
  match authorize settings request.headers with
  | .error e => .error (.exc e)
  | .ok () =>
    if settings.maxRequestBytes < request.body.chunks.flatten.length then
      .error (gatewayError "request_too_large" 413)
    else match request.body.ending with
      | .eof => (parseRequest lib request.body.chunks.flatten).mapError .exc
      | .raise e => .error e

/-- A log of `receive` only: what was read before the last of them is within the
limit, and without the key nothing was read. -/
structure Waited (request : Request) (l : List Entry) : Prop where
  only : ∀ e ∈ l, e.call = .receive
  bounded : (request.body.chunks.take (l.length - 1)).flatten.length ≤ settings.maxRequestBytes
  unread : authorize settings request.headers ≠ .ok () → l = []

end

/-- The record of a refusal. -/
def refusal (requestId : Str) (e : Exc) : Event where
  requestId := requestId
  status := some (failureOf (.exc e)).1
  outcome := some (if e.gatewayError?.isSome then .rejected else .failed)
  error := some (failureOf (.exc e)).2

/-- How a call ends that is refused with `e` after the log `l₀`: an `Exception` is
recorded and answered, unless the sink raises, and anything else goes on. -/
def TurnedAway (requestId : Str) (l₀ : List Entry) (r : Except Err Reply) (l : List Entry) : Err → Prop
  | .exc e => ∃ t a, l = ⟨t, .emit (.request (refusal requestId e)), a⟩ :: l₀ ∧
      r = a.map fun _ => errorReply (failureOf (.exc e)).2 (failureOf (.exc e)).1 requestId
  | e => l = l₀ ∧ r = .error e

/-- A run that follows the decision: after the log `l₀` of reading the request, the
request is refused, or the clock of `Gateway.open` is read. -/
def Follows (settings : Settings) (request : Request) (requestId : Str) (decision : Except Err Payload)
    (r : Except Err Reply) (l : List Entry) : Prop :=
  ∃ l₀, Waited settings request l₀ ∧
    match decision with
    | .error e => TurnedAway requestId l₀ r l e
    | .ok _ => ∃ t now, (⟨t, .clock, now⟩ : Entry) :: l₀ <:+ l

variable {lib : Lib} {settings : Settings} {limit me : ℕ} {request : Request} {requestId : Str}
  {w : World} {l : List Entry}

/-! ### Reading -/

/-- The chunks of a body, while what was read is within the limit. -/
theorem wp_receiveFrom {ending : Ending} (done : List Bytes) {rest : List Bytes}
    (honly : ∀ e ∈ l, e.call = .receive) (hcount : l.length = done.length)
    (hshort : done.flatten.length ≤ settings.maxRequestBytes) :
    (lone me).wp (receiveFrom settings ending rest done.flatten)
      (fun data w' l' => w'.calls me = w.calls me ∧ (∀ e ∈ l', e.call = .receive) ∧
        ((done ++ rest).take (l'.length - 1)).flatten.length ≤ settings.maxRequestBytes ∧
        ending = .eof ∧ data = (done ++ rest).flatten ∧ data.length ≤ settings.maxRequestBytes)
      (fun e w' l' => w'.calls me = w.calls me ∧ (∀ e ∈ l', e.call = .receive) ∧
        ((done ++ rest).take (l'.length - 1)).flatten.length ≤ settings.maxRequestBytes ∧
        if settings.maxRequestBytes < (done ++ rest).flatten.length then
          e = gatewayError "request_too_large" 413
        else ending = .raise e) w l := by
  induction rest generalizing done w l with
  | nil =>
    simp only [receiveFrom, wp_bind, wp_askAwait]
    refine ⟨trivial, ?_⟩
    rintro w₁ l ⟨hcalls, rfl⟩ a _ ⟨t, -, rfl⟩
    have honly₁ : ∀ e ∈ (⟨t, .receive, a⟩ : Entry) :: l, e.call = .receive :=
      List.forall_mem_cons.2 ⟨rfl, honly⟩
    have htake : (done ++ []).take (l.length + 1 - 1) = done := by
      rw [List.append_nil, Nat.add_sub_cancel, hcount, List.take_length]
    cases ending with
    | eof =>
      refine ⟨hcalls, honly₁, ?_, rfl, by rw [List.append_nil], hshort⟩
      rw [List.length_cons, htake]
      exact hshort
    | raise e =>
      refine ⟨hcalls, honly₁, ?_, ?_⟩
      · rw [List.length_cons, htake]
        exact hshort
      · rw [List.append_nil, if_neg (by omega)]
  | cons chunk rest ih =>
    simp only [receiveFrom, wp_bind, wp_askAwait]
    refine ⟨trivial, ?_⟩
    rintro w₁ l ⟨hcalls, rfl⟩ a _ ⟨t, -, rfl⟩
    have honly₁ : ∀ e ∈ (⟨t, .receive, a⟩ : Entry) :: l, e.call = .receive :=
      List.forall_mem_cons.2 ⟨rfl, honly⟩
    have hflat : done.flatten ++ chunk = (done ++ [chunk]).flatten := by simp
    have hmore : done ++ chunk :: rest = (done ++ [chunk]) ++ rest := by simp
    rw [wp_ite]
    split
    · rename_i hlong
      refine ⟨hcalls, honly₁, ?_, ?_⟩
      · rw [List.length_cons, Nat.add_sub_cancel, hcount, List.take_left]
        exact hshort
      · rw [hmore, List.flatten_append, List.length_append, ← hflat, if_pos (by omega)]
    · rename_i hfits
      rw [hflat] at hfits ⊢
      rw [hmore]
      refine wp_mono (fun data w₂ l₂ h₂ => ⟨h₂.1.trans hcalls, h₂.2⟩)
        (fun e w₂ l₂ h₂ => ⟨h₂.1.trans hcalls, h₂.2⟩)
        (ih (done ++ [chunk]) honly₁ ?_ (Nat.le_of_not_lt hfits))
      rw [List.length_cons, List.length_append, List.length_singleton, hcount]

/-- **Reading a request** comes to the decision. -/
theorem wp_readRequest :
    (lone me).wp (readRequest lib settings request)
      (fun payload w' l => w'.calls me = w.calls me ∧ Waited settings request l ∧
        admission lib settings request = .ok payload)
      (fun e w' l => w'.calls me = w.calls me ∧ Waited settings request l ∧
        admission lib settings request = .error e) w [] := by
  simp only [readRequest, wp_bind, lift, wp_ofExcept]
  cases hauth : authorize settings request.headers with
  | error e =>
    refine ⟨rfl, ⟨by rintro _ ⟨⟩, by simp, fun _ => rfl⟩, ?_⟩
    rw [admission, hauth]
  | ok u =>
    have hnone : ∀ e ∈ ([] : List Entry), e.call = .receive := by rintro _ ⟨⟩
    refine wp_mono (fun data w₁ l₁ h₁ => ?_) (fun e w₁ l₁ h₁ => ?_)
      (wp_receiveFrom [] hnone rfl (Nat.zero_le _))
    · obtain ⟨hcalls, honly, hbounded, heof, rfl, hfits⟩ := h₁
      rw [List.nil_append] at hfits
      have hwaited : Waited settings request l₁ := ⟨honly, hbounded, fun h => absurd hauth h⟩
      have hdecision : admission lib settings request =
          (parseRequest lib request.body.chunks.flatten).mapError .exc := by
        simp only [admission, hauth, heof, if_neg (Nat.not_lt.2 hfits)]
      rw [List.nil_append, hdecision]
      cases parseRequest lib request.body.chunks.flatten with
      | ok payload => exact ⟨hcalls, hwaited, rfl⟩
      | error e => exact ⟨hcalls, hwaited, rfl⟩
    · obtain ⟨hcalls, honly, hbounded, hend⟩ := h₁
      rw [List.nil_append] at hend
      refine ⟨hcalls, ⟨honly, hbounded, fun h => absurd hauth h⟩, ?_⟩
      split at hend
      · rename_i hlong
        simp only [admission, hauth, if_pos hlong, hend]
      · rename_i hfits
        simp only [admission, hauth, if_neg hfits, hend]

/-- A request that is admitted names a model. -/
theorem name_of_admission {payload : Payload} (h : admission lib settings request = .ok payload) :
    payload.lookup (lit "model") = some (.str (modelOf payload)) := by
  unfold admission at h
  split at h
  · cases h
  · split at h
    · cases h
    · split at h
      · obtain ⟨v, hvalid⟩ := validate_of_parseRequest (mapError_ok h)
        obtain ⟨-, ⟨name, hname⟩, -⟩ := validate_ok hvalid
        rw [modelOf, Application.get, hname, Option.getD_some]
      · cases h

/-! ### The decision is followed -/

/-- A refusal is recorded and answered. -/
theorem wp_refuse_unopened {e : Exc} {code : String} {status : ℕ} {outcome : Outcome}
    (hexchange : (w.calls me).exchange = none) (hopened : (w.calls me).opened = false)
    (hevent : refusal requestId e =
      { requestId := requestId, status := some status, outcome := some outcome, error := some code }) :
    (lone me).wp (refuse me requestId code status outcome)
      (fun reply w' l' => TurnedAway requestId l (.ok reply) l' (.exc e) ∧ (w'.calls me).exchange = none)
      (fun e' w' l' => TurnedAway requestId l (.error e') l' (.exc e) ∧ (w'.calls me).exchange = none) w l := by
  have hcode : (failureOf (.exc e)).2 = code := Option.some.inj (congrArg Event.error hevent)
  have hstatus : (failureOf (.exc e)).1 = status := Option.some.inj (congrArg Event.status hevent)
  refine wp_refuse (fun hsome => ?_) (fun _ hopen => ?_) (fun _ _ a l₁ ha => ?_)
  · rw [hexchange] at hsome
    cases hsome
  · rw [hopened] at hopen
    cases hopen
  · obtain ⟨t, -, rfl⟩ := ha
    cases a with
    | ok u => exact ⟨⟨t, .ok u, by rw [hevent], by rw [hcode, hstatus]; rfl⟩, hexchange⟩
    | error e' => exact ⟨⟨t, .error e', by rw [hevent], rfl⟩, hexchange⟩

/-- The handlers of `chat`, for what is refused. -/
theorem wp_chatExcept_unopened {e : Err} (hexchange : (w.calls me).exchange = none)
    (hopened : (w.calls me).opened = false) :
    (lone me).wp (chatExcept me requestId e)
      (fun reply w' l' => TurnedAway requestId l (.ok reply) l' e ∧ (w'.calls me).exchange = none)
      (fun e' w' l' => TurnedAway requestId l (.error e') l' e ∧ (w'.calls me).exchange = none) w l := by
  cases e with
  | exc e =>
    simp only [chatExcept]
    split
    · rename_i code status hgateway
      exact wp_refuse_unopened hexchange hopened (by
        simp only [refusal, failureOf, Err.gatewayError?, hgateway, Option.isSome_some, if_true])
    · rename_i hgateway
      exact wp_refuse_unopened hexchange hopened (by
        simp [refusal, failureOf, Err.gatewayError?, hgateway])
  | cancelled =>
    simp only [chatExcept, wp_bind, setVars, wp_update, wp_throw, World.setCall_calls_self]
    exact ⟨⟨rfl, rfl⟩, hexchange⟩
  | exit => exact ⟨⟨rfl, rfl⟩, hexchange⟩

/-- What anything does after the clock of `Gateway.open` leaves that in the log. -/
theorem wp_entered {α : Type} {p : Py α} {l₀ : List Entry} (hsuffix : l₀ <:+ l)
    {ok : α → World → List Entry → Prop} {err : Err → World → List Entry → Prop}
    (hok : ∀ a w l, l₀ <:+ l → ok a w l) (herr : ∀ e w l, l₀ <:+ l → err e w l) :
    (lone me).wp p ok err w l :=
  wp_mono hok herr (wp_alone_suffix _ _ p w hsuffix)

/-- **Every run follows the decision** on its request: whatever the ports, the sink, the
framework and the client do. -/
theorem serve_mediated {w' : World} {r : Except Err Reply}
    (h : (lone me).Run (serve lib settings limit me request requestId) w [] r w' l) :
    Follows settings request requestId (admission lib settings request) r l := by
  refine h.result (P := fun r _ l =>
    Follows settings request requestId (admission lib settings request) r l) ?_
  simp only [serve, chat, wp_bind, setVars, wp_update, wp_finallyDo, wp_tryCatch, chatTry, wp_read]
  refine wp_mono (fun payload w₁ l₁ h₁ => ?_) (fun e w₁ l₁ h₁ => ?_) wp_readRequest
  · obtain ⟨-, hwaited, hdecision⟩ := h₁
    rw [Gateway.open, wp_bind, clock, wp_ask]
    rintro now _ ⟨t, -, rfl⟩
    have hend : ∀ r l, (⟨t, .clock, now⟩ : Entry) :: l₁ <:+ l →
        Follows settings request requestId (admission lib settings request) r l := by
      intro r l hsuffix
      rw [hdecision]
      exact ⟨l₁, hwaited, t, now, hsuffix⟩
    have hraise : ∀ e : Err, ∀ l, (⟨t, .clock, now⟩ : Entry) :: l₁ <:+ l →
        Follows settings request requestId (admission lib settings request) (.error e) l :=
      fun e => hend (.error e)
    refine wp_entered (List.suffix_refl _) (fun exchange w l hl => ?_) (fun e w l hl => ?_)
    · refine wp_entered hl (fun reply w l hl => ?_) (fun e w l hl => ?_)
      · refine wp_entered hl (fun _ w l hl => ?_) (fun e _ l => hraise e l)
        exact wp_entered hl (fun r _ l => hend (.ok r) l) (fun e _ l => hraise e l)
      · refine wp_entered hl (fun reply w l hl => ?_) (fun e w l hl => ?_)
        · refine wp_entered hl (fun _ w l hl => ?_) (fun e _ l => hraise e l)
          exact wp_entered hl (fun r _ l => hend (.ok r) l) (fun e _ l => hraise e l)
        · exact wp_entered hl (fun _ _ l => hraise e l) (fun e _ l => hraise e l)
    · refine wp_entered hl (fun reply w l hl => ?_) (fun e w l hl => ?_)
      · refine wp_entered hl (fun _ w l hl => ?_) (fun e _ l => hraise e l)
        exact wp_entered hl (fun r _ l => hend (.ok r) l) (fun e _ l => hraise e l)
      · exact wp_entered hl (fun _ _ l => hraise e l) (fun e _ l => hraise e l)
  · obtain ⟨hcalls, hwaited, hdecision⟩ := h₁
    have hvars : (w₁.calls me).exchange = none ∧ (w₁.calls me).opened = false := by
      rw [hcalls, World.setCall_calls_self]
      exact ⟨rfl, rfl⟩
    have hfollows : ∀ r l, TurnedAway requestId l₁ r l e →
        Follows settings request requestId (admission lib settings request) r l := by
      intro r l hrefused
      rw [hdecision]
      exact ⟨l₁, hwaited, hrefused⟩
    refine wp_mono (fun reply w₂ l₂ h₂ => ?_) (fun e' w₂ l₂ h₂ => ?_)
      (wp_chatExcept_unopened hvars.1 hvars.2)
    · simp only [chatFinally, wp_bind, wp_read, h₂.2, wp_pure]
      cases reply <;> exact hfollows _ l₂ h₂.1
    · simp only [chatFinally, wp_bind, wp_read, h₂.2, wp_pure]
      exact hfollows _ l₂ h₂.1

namespace Demo

/-- A request with the key, of three chunks. -/
def largeRequest : Request :=
  ⟨[(lit "authorization", lit "Bearer secret")], ⟨[[1, 2, 3], [4, 5], [6]], .eof⟩⟩

/-- The run of its call, where four bytes are allowed. -/
def largeRun : Except Err Reply × World × List Entry :=
  exec (upstreams completion)
    (serve bodies { Application.Demo.settings with maxRequestBytes := 4 } 1024 0 largeRequest (lit "r"))
    Application.Demo.world []

end Demo

/-- A request that is too large is refused before its last chunk is read. -/
theorem serve_mediated_large :
    Follows { Application.Demo.settings with maxRequestBytes := 4 } Demo.largeRequest (lit "r")
      (.error (gatewayError "request_too_large" 413)) Demo.largeRun.1 Demo.largeRun.2.2 ∧
    Demo.largeRun.2.2.length = 3 :=
  ⟨serve_mediated (run_of_exec (Demo.upstreams Demo.completion) (fun _ _ => trivial) rfl), by decide +kernel⟩

end Ingress
end SwitchyardGateway
