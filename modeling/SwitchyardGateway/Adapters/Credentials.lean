/-
# Credentials of the client

What a backend may learn from the headers of a client is what the configuration
forwards.  This is a statement about two runs: headers that agree on the forwarded
names, and on whether compression is bypassed, lead to the same attempts
(`Alike`), whatever else is in them.

The forwarded names come out of the validator, so each of them starts with `x-`
and none can be an `Authorization`.  The one that an attempt carries is made from
the key of its own endpoint (`Authorized`).
-/

import SwitchyardGateway.Adapters.Config
import SwitchyardGateway.Adapters.Httpx
import SwitchyardGateway.Application.Sends
import SwitchyardGateway.Coop.Relation

namespace SwitchyardGateway
namespace Application

open Coop Coop.Discipline Python Httpx

/-- Equal as a `dict`. -/
def SameMap (headers headers' : Headers) : Prop := ∀ name, headers.lookup name = headers'.lookup name

/-- The same question, but for the order in which headers are listed. -/
inductive LikeCall : Call → Call → Prop where
  | refl (q : Call) : LikeCall q q
  | send (model : Model) (endpoint : Endpoint) (request : Payload) {headers headers' : Headers} :
      SameMap headers headers' →
      LikeCall (.send model endpoint request headers) (.send model endpoint request headers')

/-- The same answer to it. -/
inductive SameAnswer : (q q' : Call) → Answer q → Answer q' → Prop where
  | refl (q : Call) (a : Answer q) : SameAnswer q q a a
  | send (model : Model) (endpoint : Endpoint) (request : Payload) {headers headers' : Headers}
      (a : Except Err Upstream) : SameMap headers headers' →
      SameAnswer (.send model endpoint request headers) (.send model endpoint request headers') a a

/-- Questions and answers, up to the order in which headers are listed. -/
def upToOrder : Likeness Call Answer where
  like := LikeCall
  same := SameAnswer
  refl := .refl
  eq := by
    intro q a a' h
    cases h <;> rfl

/-- The same attempt, with equal headers. -/
structure SameAttempt (a a' : Attempt) : Prop where
  time : a.time = a'.time
  model : a.model = a'.model
  endpoint : a.endpoint = a'.endpoint
  request : a.request = a'.request
  headers : SameMap a.headers a'.headers
  answer : a.answer = a'.answer

/-- The headers of an attempt carry an authorization if and only if its endpoint has
a key, it is made from that key, and every other name is an application header or
one of the gateway's own. -/
structure Authorized (a : Attempt) : Prop where
  present : (∃ v, (lit "authorization", v) ∈ outgoing a.endpoint a.headers) ↔ a.endpoint.apiKey ≠ []
  value : ∀ v, (lit "authorization", v) ∈ outgoing a.endpoint a.headers →
    v = lit "Bearer " ++ a.endpoint.apiKey
  others : ∀ p ∈ outgoing a.endpoint a.headers, lit "x-" <+: p.1 ∨
    p.1 ∈ [lit "authorization", lit "content-type", lit "accept-encoding"]

/-- Headers that the gateway may not tell apart. -/
structure Agree (lib : Lib) (settings : Settings) (headers headers' : Headers) : Prop where
  forwarded : ∀ name ∈ settings.forwardHeaders, headers.lookup name = headers'.lookup name
  bypass : lib.lower ((headers.lookup (lit "x-headroom-bypass")).getD []) = lit "true" ↔
    lib.lower ((headers'.lookup (lit "x-headroom-bypass")).getD []) = lit "true"

section

variable {lib : Lib} {settings : Settings} {me : ℕ} {headers headers' : Headers}

/-! ### Two calls that ask alike -/

/-- What is forwarded of them is equal. -/
theorem Agree.sameMap (h : Agree lib settings headers headers') :
    SameMap (headers.filter fun p => p.1 ∈ settings.forwardHeaders)
      (headers'.filter fun p => p.1 ∈ settings.forwardHeaders) := by
  have hnone : ∀ (d : Headers) (name : Str), name ∉ settings.forwardHeaders →
      (d.filter fun p => p.1 ∈ settings.forwardHeaders).lookup name = none := by
    intro d name hname
    rw [List.lookup_eq_none_iff]
    intro p hp
    rw [List.mem_filter, decide_eq_true_iff] at hp
    exact bne_iff_ne.2 fun heq => hname (heq ▸ hp.2)
  intro name
  by_cases hname : name ∈ settings.forwardHeaders
  · have hread : ∀ d : Headers, (d.filter fun p => p.1 ∈ settings.forwardHeaders).lookup name =
        d.lookup name := fun d =>
      Dict.lookup_filter_of_pos (fun n => decide (n ∈ settings.forwardHeaders)) (decide_eq_true hname) d
    rw [hread, hread, h.forwarded name hname]
  · rw [hnone _ name hname, hnone _ name hname]

/-- A request is prepared alike. -/
theorem Agree.prepare (h : Agree lib settings headers headers') (request : Payload) :
    Prog.Alike upToOrder (fun r r' : Model × Payload × Headers =>
      r.1 = r'.1 ∧ r.2.1 = r'.2.1 ∧ SameMap r.2.2 r'.2.2)
      (prepare lib settings me request headers) (prepare lib settings me request headers') := by
  have hcompress : ∀ model prepared, compressHistory lib settings me model headers prepared =
      compressHistory lib settings me model headers' prepared := by
    intro model prepared
    unfold compressHistory
    simp only [ne_eq, h.bypass]
  unfold Application.prepare
  refine .seq _ fun r => .seq _ fun compressStarted => ?_
  rw [hcompress]
  refine .seq _ fun prepared => .seq _ fun now => .seq _ fun _ => ?_
  exact .ret ⟨rfl, rfl, h.sameMap⟩

/-- One request with equal headers is tried alike. -/
theorem SameMap.trySend (h : SameMap headers headers') (model : Model) (prepared : Payload)
    (attempt : ℕ) (endpoint : Endpoint) :
    Prog.Alike upToOrder Eq (trySend lib settings me model prepared headers attempt endpoint)
      (trySend lib settings me model prepared headers' attempt endpoint) := by
  refine .tryCatch (R := Eq) ?_ fun e => .refl _
  have hsend : Prog.Alike upToOrder Eq (send model endpoint prepared headers)
      (send model endpoint prepared headers') := by
    refine .await (.send model endpoint prepared h) fun a a' ha => ?_
    cases ha <;> exact .refl _
  refine hsend.bind fun a a' ha => ?_
  obtain rfl := ha
  exact .refl _

theorem SameMap.attempts (h : SameMap headers headers') (model : Model) (prepared : Payload)
    (started upstreamStarted : ℚ) (rounds : List ℕ) (excluded : List Str) :
    Prog.Alike upToOrder Eq
      (attempts lib settings me model prepared headers started upstreamStarted rounds excluded)
      (attempts lib settings me model prepared headers' started upstreamStarted rounds excluded) := by
  induction rounds generalizing excluded with
  | nil => exact .refl _
  | cons attempt rounds ih =>
    unfold Application.attempts
    refine .seq _ fun index => ?_
    have honce : Prog.Alike upToOrder Eq
        (attemptOnce lib settings me model prepared headers started upstreamStarted attempt
          (model.endpoints.get index) ((model.endpoints.get index).name :: excluded))
        (attemptOnce lib settings me model prepared headers' started upstreamStarted attempt
          (model.endpoints.get index) ((model.endpoints.get index).name :: excluded)) := by
      unfold attemptOnce
      refine .seq _ fun _ => .seq _ fun _ => (h.trySend model prepared attempt _).bind fun a a' ha => ?_
      obtain rfl := ha
      exact .refl _
    refine honce.bind fun r r' hr => ?_
    obtain rfl := hr
    cases r with
    | some exchange => exact .refl _
    | none => exact ih _

/-- **An exchange is opened alike** for headers that agree. -/
theorem Agree.open (h : Agree lib settings headers headers') (request : Payload) (rid : Str) :
    Prog.Alike upToOrder Eq (Gateway.open lib settings me request headers rid)
      (Gateway.open lib settings me request headers' rid) := by
  unfold Gateway.open
  refine .seq _ fun started => .seq _ fun _ => .tryCatch (R := Eq) ?_ fun e => .refl _
  unfold Gateway.openInner
  refine (h.prepare request).bind fun r r' hr => ?_
  obtain ⟨model, prepared, forwarded⟩ := r
  obtain ⟨model', prepared', forwarded'⟩ := r'
  obtain ⟨rfl, rfl, hforwarded⟩ := hr
  exact .seq _ fun _ => SameMap.attempts hforwarded _ _ _ _ _ _

/-- Logs that are alike hold the same attempts. -/
theorem sends_alike {l l' : List Entry} (h : List.Forall₂ (Step.Like upToOrder) l l') :
    List.Forall₂ SameAttempt (sends l) (sends l') := by
  induction h with
  | nil => exact .nil
  | @cons e e' l l' he _ ih =>
    obtain ⟨t, q, a⟩ := e
    obtain ⟨t', q', a'⟩ := e'
    obtain ⟨ht, -, ha⟩ := he
    obtain rfl : t = t' := ht
    cases ha with
    | refl q a =>
      cases q with
      | send model endpoint request headers =>
        exact .cons ⟨rfl, rfl, rfl, rfl, fun _ => rfl, rfl⟩ ih
      | _ => exact ih
    | send model endpoint request a hmap => exact .cons ⟨rfl, rfl, rfl, rfl, hmap, rfl⟩ ih

/-- The transport makes equal requests of them. -/
theorem SameAttempt.buildRequest {a a' : Attempt} (h : SameAttempt a a') :
    (buildRequest a.endpoint a.request a.headers).url = (buildRequest a'.endpoint a'.request a'.headers).url ∧
    (buildRequest a.endpoint a.request a.headers).json = (buildRequest a'.endpoint a'.request a'.headers).json ∧
    SameMap (buildRequest a.endpoint a.request a.headers).headers
      (buildRequest a'.endpoint a'.request a'.headers).headers := by
  have hurl : (Httpx.buildRequest a.endpoint a.request a.headers).url =
      (Httpx.buildRequest a'.endpoint a'.request a'.headers).url := by
    unfold Httpx.buildRequest
    rw [h.endpoint]
  refine ⟨hurl, h.request, fun name => ?_⟩
  change (outgoing a.endpoint a.headers).lookup name = (outgoing a'.endpoint a'.headers).lookup name
  rw [h.endpoint]
  exact outgoing_congr a'.endpoint h.headers name

/-! ### What an attempt carries -/

/-- Forwarding application headers only authorizes nothing but the gateway itself. -/
theorem authorized_of_forwarded {a : Attempt} (h : ∀ p ∈ a.headers, lit "x-" <+: p.1) :
    Authorized a := by
  have hname : ∀ v, (lit "authorization", v) ∈ outgoing a.endpoint a.headers →
      a.endpoint.apiKey ≠ [] ∧ v = lit "Bearer " ++ a.endpoint.apiKey := by
    intro v hv
    rcases name_mem_outgoing hv with ⟨v', hv'⟩ | hname | hname | ⟨hkey, hp⟩
    · exact absurd (h _ hv') (show ¬ lit "x-" <+: lit "authorization" by decide)
    · exact absurd hname (show lit "authorization" ≠ lit "content-type" by decide)
    · exact absurd hname (show lit "authorization" ≠ lit "accept-encoding" by decide)
    · exact ⟨hkey, congrArg Prod.snd hp⟩
  constructor
  case present =>
    constructor
    · rintro ⟨v, hv⟩
      exact (hname v hv).1
    · exact fun hkey => ⟨_, Dict.mem_of_lookup (lookup_authorization hkey a.headers)⟩
  case value => exact fun v hv => (hname v hv).2
  case others =>
    intro p hp
    rcases name_mem_outgoing hp with ⟨v, hv⟩ | hname | hname | ⟨_, rfl⟩
    · exact .inl (h (p.1, v) hv)
    · exact .inr (by simp [hname])
    · exact .inr (by simp [hname])
    · exact .inr (by simp)

/-- Every attempt of a call forwards configured headers. -/
theorem attempts_forward {rely : World → World → Prop} {ok : List Entry → Entry → Prop}
    {request : Payload} {rid : Str} {w w' : World} {r : Except Err Exchange} {l : List Entry}
    (hrun : (alone rely ok).Run (Gateway.open lib settings me request headers rid) w [] r w' l) :
    ∀ a ∈ sends l, a.headers = headers.filter fun p => p.1 ∈ settings.forwardHeaders := by
  have hunsent : Neutral (alone rely ok) me Silent (fun _ => True) fun _ l => sends l = [] :=
    unsent_neutral
  have hsent : Ends (fun _ _ l => Sent (fun r _ => r.2.2 =
      headers.filter fun p => p.1 ∈ settings.forwardHeaders) l) (fun _ _ l => Sent _ l) r w' l :=
    hrun.ends (wp_open_sent (fun _ _ _ h => h) (fun w l h => wp_mono (fun _ _ _ h => ⟨h.1.2, h.2⟩)
      (fun _ _ _ h => h) (hunsent.prepare (fun _ => Preparing.silent) (fun _ _ => trivial) request headers w l h))
        rid rfl)
  have hlog : Sent (fun r _ => r.2.2 = headers.filter fun p => p.1 ∈ settings.forwardHeaders) l := by
    cases r with
    | ok exchange => exact hsent
    | error e => exact hsent
  intro a ha
  rcases hlog with hnone | ⟨r, hr, huniform⟩
  · rw [hnone] at ha
    exact absurd ha List.not_mem_nil
  · rw [(huniform a ha).2.2.2, hr]

end

/-- **Credentials stay.**  Under an accepted configuration two openings of a request
with headers that agree where they may be looked at, met by surroundings that answer
by what was asked, end alike after the same attempts; and whatever an opening meets,
each of its attempts is authorized by its own endpoint. -/
theorem credentials_stay (lib : Lib) (urlsplit : Str → Except String Configuration.SplitUrl)
    (config : Configuration.Config) (settings : Settings)
    (hconfig : Configuration.loadConfig lib urlsplit config = .ok settings) (me : ℕ)
    (request : Payload) (headers headers' : Headers) (rid : Str)
    (hagree : Agree lib settings headers headers') :
    (∀ (O : Oracle World ℚ Call Answer), O.Indifferent upToOrder → ∀ w r r' w₁ w₁' l l',
      O.discipline.Run (Gateway.open lib settings me request headers rid) w [] r w₁ l →
      O.discipline.Run (Gateway.open lib settings me request headers' rid) w [] r' w₁' l' →
      r = r' ∧ w₁ = w₁' ∧ List.Forall₂ SameAttempt (sends l) (sends l')) ∧
    ∀ rely ok w r w' l,
      (alone rely ok).Run (Gateway.open lib settings me request headers rid) w [] r w' l →
      ∀ a ∈ sends l, Authorized a := by
  have hwf := Configuration.loadConfig_wellformed hconfig
  refine ⟨fun O hO w r r' w₁ w₁' l l' hrun hrun' => ?_, fun rely ok w r w' l hrun a ha => ?_⟩
  · obtain ⟨hends, hworld, hlogs⟩ := (hagree.open request rid).runs hO .nil hrun hrun'
    refine ⟨?_, hworld, sends_alike hlogs⟩
    cases r with
    | ok exchange =>
      cases r' with
      | ok exchange' => exact congrArg _ hends
      | error e => exact hends.elim
    | error e =>
      cases r' with
      | ok exchange' => exact hends.elim
      | error e' => exact congrArg _ hends
  · refine authorized_of_forwarded fun p hp => ?_
    rw [attempts_forward hrun a ha, List.mem_filter, decide_eq_true_iff] at hp
    exact (hwf.forwarded p.1 hp.2).1

/-! ### Two clients -/

namespace Demo

/-- Two replicas, the first with a key, and one forwarded header. -/
def keyed : Configuration.Config where
  server := { apiKey := lit "secret", maxRequestBytes := 1024 }
  models := [(lit "m", {
    modelId := lit "backend"
    endpoints := [⟨lit "a", lit "http://localhost/v1", lit "key"⟩, ⟨lit "b", lit "http://localhost/v1", []⟩] })]
  compression := { enabled := false }
  forwardHeaders := [lit "x-session-id"]

/-- The headers of a client with a session and a token. -/
def client (token : String) : Headers :=
  [(lit "authorization", lit token), (lit "x-session-id", lit "s")]

/-- The first replica cannot be reached; all else is well, and nobody else is there. -/
def quiet : Oracle World ℚ Call Answer where
  answers _ q := (0, answer (fun endpoint => if endpoint.name = lit "a" then
    .error (.exc .connectFailure) else .ok (upstream 200)) (.ok ()) 0 q)
  others _ w := w

theorem quiet_indifferent : quiet.Indifferent upToOrder where
  time _ _ _ _ _ _ := rfl
  answer := by
    rintro _ _ q q' _ (_ | ⟨model, endpoint, request, hmap⟩)
    · exact .refl _ _
    · exact .send _ _ _ _ hmap
  others _ _ _ := rfl

end Demo

/-- Two clients with different tokens have the same attempts made for them. -/
theorem two_clients : ∃ r w l l',
    Demo.quiet.discipline.Run (Gateway.open Demo.lib Demo.keyed.settings 0 Demo.request
      (Demo.client "one") (lit "r")) Demo.world [] r w l ∧
    Demo.quiet.discipline.Run (Gateway.open Demo.lib Demo.keyed.settings 0 Demo.request
      (Demo.client "two") (lit "r")) Demo.world [] r w l' ∧
    List.Forall₂ SameAttempt (sends l) (sends l') := by
  obtain ⟨r, w, l, hrun⟩ := Demo.quiet.exists_run (Gateway.open Demo.lib Demo.keyed.settings 0
    Demo.request (Demo.client "one") (lit "r")) Demo.world []
  obtain ⟨r', w', l', hrun'⟩ := Demo.quiet.exists_run (Gateway.open Demo.lib Demo.keyed.settings 0
    Demo.request (Demo.client "two") (lit "r")) Demo.world []
  have hagree : Agree Demo.lib Demo.keyed.settings (Demo.client "one") (Demo.client "two") :=
    ⟨by decide, by decide⟩
  obtain ⟨rfl, rfl, hsame⟩ := (credentials_stay Demo.lib Configuration.localhost Demo.keyed Demo.keyed.settings
    (by with_unfolding_all rfl) 0 Demo.request (Demo.client "one") (Demo.client "two") (lit "r") hagree).1 Demo.quiet
      Demo.quiet_indifferent Demo.world r r' w w' l l' hrun hrun'
  exact ⟨r, w, l, l', hrun, hrun', hsame⟩

end Application
end SwitchyardGateway
