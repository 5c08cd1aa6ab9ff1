/-
# What an upstream is asked

From the client's request to the requests on the wire: `chat` parses and validates it,
the routing adapter may rewrite its messages, `Gateway.open` completes it with the
defaults of the selected model and may compress its history, and the transport adapter
addresses it and signs it.  `Forwards` says what comes of all of this: which fields and
which headers of the client an upstream sees, and what has become of the messages.

The routing library and the compressor are free to return anything.  The adapter that
drives the first is modelled (`RoutesBy`), and what the second returns is checked before
it is used.
-/

import SwitchyardGateway.Adapters.Conversation
import SwitchyardGateway.Adapters.Configurable
import SwitchyardGateway.Adapters.Credentials
import SwitchyardGateway.Application.Integrity
import SwitchyardGateway.Ingress.Serving
import SwitchyardGateway.Ingress.Answers

namespace SwitchyardGateway
namespace Ingress

open Coop Coop.Discipline Python Application Switchyard

/-- The requests on the wire: one for every attempt. -/
def httpRequests (l : List Entry) : List Httpx.Request :=
  (sends l).map fun a => Httpx.buildRequest a.endpoint a.request a.headers

/-- The router is the adapter, over a library that does anything. -/
def RoutesBy (lib : Lib) : Entry → Prop
  | ⟨_, .route request pair, .ok decision⟩ =>
    ∃ stage, Switchyard.route lib stage request pair = .ok decision
  | _ => True

/-- A model that a name stands for: the model itself, or one of the two of a pair. -/
def Serves (settings : Settings) (name : Str) (model : Model) : Prop :=
  settings.models.lookup name = some model ∨ ∃ pair, settings.pairs.lookup name = some pair ∧
    (settings.models.lookup pair.capable = some model ∨ settings.models.lookup pair.efficient = some model)

/-- The header that a replica is sent: its own key, the gateway's own, or the client's if
it may be forwarded. -/
def headerOf (settings : Settings) (headers : Headers) (endpoint : Endpoint) (name : Str) : Option Str :=
  if name = lit "authorization" then
    if endpoint.apiKey = [] then none else some (lit "Bearer " ++ endpoint.apiKey)
  else if name = lit "content-type" then some (lit "application/json")
  else if name = lit "accept-encoding" then some (lit "identity")
  else if name ∈ settings.forwardHeaders then headers.lookup name else none

/-- What is sent of a request of a client: to a replica of the model, with the fields of
the client, those it left out as the model has them by default, and its messages. -/
structure Forwards (settings : Settings) (payload : Payload) (headers : Headers) (model : Model)
    (http : Httpx.Request) : Prop where
  method : http.method = lit "POST"
  addressed : ∃ endpoint ∈ model.endpoints,
    http.url = Httpx.rstripSlash endpoint.baseUrl ++ lit "/chat/completions" ∧
    ∀ name, http.headers.lookup name = headerOf settings headers endpoint name
  named : http.json.lookup (lit "model") = some (.str model.modelId)
  stream : http.json.lookup (lit "stream") = payload.lookup (lit "stream")
  fields : ∀ key, key ≠ lit "model" → key ≠ lit "messages" →
    http.json.lookup key = (payload.lookup key).or (model.defaults.lookup key)
  conversation : ∃ rows output sent, payload.lookup (lit "messages") = some (.list rows) ∧
    Conveys rows output ∧ (sent = output ∨ Rewritten output sent) ∧
    http.json.lookup (lit "messages") = some (.list sent)

variable {lib : Lib} {settings : Settings} {limit me : ℕ} {request : Request} {payload : Payload} {rid : Str}
  {model : Model} {w : World} {l : List Entry}

/-! ### Headers -/

/-- What is forwarded reads as the client sent it. -/
theorem lookup_forwarded (headers : Headers) (name : Str) :
    (headers.filter fun p => p.1 ∈ settings.forwardHeaders).lookup name =
      if name ∈ settings.forwardHeaders then headers.lookup name else none := by
  split
  · rename_i hname
    exact Dict.lookup_filter_of_pos (fun n => decide (n ∈ settings.forwardHeaders)) (decide_eq_true hname) headers
  · rename_i hname
    rw [List.lookup_eq_none_iff]
    intro p hp
    rw [List.mem_filter, decide_eq_true_iff] at hp
    exact bne_iff_ne.2 fun heq => hname (heq ▸ hp.2)

/-- **The headers of an attempt**, if application headers only may be forwarded. -/
theorem lookup_outgoing (hforwarded : ∀ name ∈ settings.forwardHeaders, lit "x-" <+: name) (endpoint : Endpoint)
    (headers : Headers) (name : Str) :
    (Httpx.outgoing endpoint (headers.filter fun p => p.1 ∈ settings.forwardHeaders)).lookup name =
      headerOf settings headers endpoint name := by
  have hmerge : (Dict.merge (headers.filter fun p => p.1 ∈ settings.forwardHeaders)
      [(lit "content-type", lit "application/json"), (lit "accept-encoding", lit "identity")]).lookup name =
      if name = lit "content-type" then some (lit "application/json")
      else if name = lit "accept-encoding" then some (lit "identity")
      else if name ∈ settings.forwardHeaders then headers.lookup name else none := by
    rw [Dict.lookup_merge, lookup_forwarded, List.lookup_cons, List.lookup_cons, List.lookup_nil]
    by_cases htype : name = lit "content-type"
    · rw [if_pos htype, beq_iff_eq.2 htype]
      rfl
    · rw [if_neg htype, beq_eq_false_iff_ne.2 htype]
      by_cases hencoding : name = lit "accept-encoding"
      · rw [if_pos hencoding, beq_iff_eq.2 hencoding]
        rfl
      · rw [if_neg hencoding, beq_eq_false_iff_ne.2 hencoding]
        rfl
  have hauthorization : lit "authorization" ∉ settings.forwardHeaders := fun hmem =>
    absurd (hforwarded _ hmem) (by decide)
  unfold Httpx.outgoing headerOf
  dsimp only
  by_cases hname : name = lit "authorization"
  · subst hname
    rw [if_pos rfl]
    split
    · rw [hmerge, if_neg (by decide), if_neg (by decide), if_neg hauthorization]
    · rw [Dict.lookup_set_self]
  · rw [if_neg hname]
    split
    · exact hmerge
    · rw [Dict.lookup_set_ne hname, hmerge]

/-! ### Requests -/

/-- A routed request conveys the client's messages and has its fields. -/
theorem conveys_of_routed {routed : Payload} {rows : List Json} (hl : ∀ e ∈ l, RoutesBy lib e)
    (hrows : payload.lookup (lit "messages") = some (.list rows))
    (h : Routed settings payload l model routed) :
    (∃ output, routed.lookup (lit "messages") = some (.list output) ∧ Conveys rows output) ∧
      ∀ key, key ≠ lit "messages" → routed.lookup key = payload.lookup key := by
  obtain ⟨name, -, ⟨-, -, rfl⟩ | ⟨pair, t, decision, -, hmem, rfl, -⟩⟩ := h
  · exact ⟨⟨rows, hrows, rows, .refl _, .refl _⟩, fun _ _ => rfl⟩
  · obtain ⟨stage, hroute⟩ := hl _ hmem
    obtain ⟨output, hrequest, hconveys⟩ := route_conversation hrows hroute
    rw [hrequest]
    exact ⟨⟨output, Dict.lookup_set_self _ _ _, hconveys⟩, fun key hkey => Dict.lookup_set_ne hkey _ _⟩

theorem serves_of_routed {routed : Payload} {name : Str}
    (hname : payload.lookup (lit "model") = some (.str name)) (h : Routed settings payload l model routed) :
    Serves settings name model := by
  obtain ⟨name', hname', h⟩ := h
  obtain rfl : name' = name := Json.str.inj (Option.some.inj (hname'.symm.trans hname))
  rcases h with ⟨-, hmodel, -⟩ | ⟨pair, t, decision, hpair, -, -, hmodel⟩
  · exact .inl hmodel
  · exact .inr ⟨pair, hpair, hmodel.imp And.right And.right⟩

/-- **What is prepared is forwarded.** -/
theorem forwards_of_intact (hwf : Configuration.Wellformed settings) {headers : Headers} {rows : List Json}
    (hl : ∀ e ∈ l, RoutesBy lib e) (hrows : payload.lookup (lit "messages") = some (.list rows))
    {routed prepared : Payload} {compression : Option Compression}
    (hrouted : Routed settings payload l model routed) (hintact : Intact model routed prepared compression)
    (hdefaults : model.defaults.lookup (lit "stream") = none) {endpoint : Endpoint}
    (hendpoint : endpoint ∈ model.endpoints) :
    Forwards settings payload headers model (Httpx.buildRequest endpoint prepared
      (headers.filter fun p => p.1 ∈ settings.forwardHeaders)) := by
  obtain ⟨⟨output, houtput, hconveys⟩, hfields⟩ := conveys_of_routed hl hrows hrouted
  have hvalues : ∀ key, key ≠ lit "model" → key ≠ lit "messages" →
      prepared.lookup key = (payload.lookup key).or (model.defaults.lookup key) := by
    intro key hkey hother
    rw [hintact.values key hkey hother, hfields key hother]
  refine ⟨rfl, ⟨endpoint, hendpoint, rfl, lookup_outgoing (fun name hname => (hwf.forwarded name hname).1) endpoint
    headers⟩, hintact.addressed, ?_, hvalues, ?_⟩
  · change prepared.lookup (lit "stream") = _
    rw [hvalues _ (by decide) (by decide), hdefaults, Option.or_none]
  · rcases hintact.messages with hsame | ⟨before, after, hbefore, hafter, hrewritten⟩
    · exact ⟨rows, output, output, hrows, hconveys, .inl rfl, hsame.trans houtput⟩
    · obtain rfl := Json.list.inj (Option.some.inj (hbefore.symm.trans houtput))
      exact ⟨rows, before, after, hrows, hconveys, .inr hrewritten, hafter⟩

/-! ### A whole call -/

section

variable {rely : World → World → Prop} {ok : List Entry → Entry → Prop}

/-- What a call may send: a routed request, intact, to a configured model. -/
def Prepares (settings : Settings) (payload : Payload) (headers : Headers) (r : Model × Payload × Headers)
    (l : List Entry) : Prop :=
  (∃ routed compression, Routed settings payload l r.1 routed ∧ Intact r.1 routed r.2.1 compression) ∧
    (∃ label, settings.models.lookup label = some r.1) ∧
    r.2.2 = headers.filter fun p => p.1 ∈ settings.forwardHeaders

theorem Prepares.cons {headers : Headers} {r : Model × Payload × Headers}
    (h : Prepares settings payload headers r l) (e : Entry) : Prepares settings payload headers r (e :: l) := by
  obtain ⟨⟨routed, compression, hrouted, hintact⟩, hrest⟩ := h
  exact ⟨⟨routed, compression, hrouted.cons e, hintact⟩, hrest⟩

theorem Besides.silent {q : Call} (hq : Besides q) : Silent q := by
  cases q <;> first | exact hq.elim | trivial

/-- **A call sends** what was prepared of the request it read. -/
theorem wp_serve_sent (hwf : Configuration.Wellformed settings) (h : sends l = []) :
    (alone rely ok).wp (serve lib settings limit me request rid)
      (fun _ _ l => sends l = [] ∨ ∃ payload, parseRequest lib request.body.chunks.flatten = .ok payload ∧
        Sent (Prepares settings payload request.headers) l)
      (fun _ _ l => sends l = [] ∨ ∃ payload, parseRequest lib request.body.chunks.flatten = .ok payload ∧
        Sent (Prepares settings payload request.headers) l) w l := by
  have hunsent : Neutral (alone rely ok) me Silent (fun _ => True) fun _ l => sends l = [] := unsent_neutral
  have hsent : ∀ payload, Neutral (alone rely ok) me Besides (fun _ => True) fun _ l =>
      parseRequest lib request.body.chunks.flatten = .ok payload ∧
        Sent (Prepares settings payload request.headers) l := by
    intro payload
    refine log_neutral fun q t a l hq h => ⟨h.1, ?_⟩
    rcases h.2 with h | ⟨r, hr, huniform⟩
    · exact .inl ((sends_cons_of_silent hq.silent t a l).trans h)
    · exact .inr ⟨r, hr.cons _, huniform.cons (hq.silent.sending _ _ _) t a⟩
  refine wp_serve_around (hunsent.mono fun _ => Besides.silent) (fun _ _ _ h => h) (.exists hsent)
    (fun _ _ _ h => h) (fun payload hpayload w l h => ?_) h
  refine wp_mono (fun _ _ _ h => ⟨payload, hpayload, h⟩) (fun _ _ _ h => ⟨payload, hpayload, h⟩)
    (wp_open_sent (P := Prepares settings payload request.headers) (fun _ e _ h => h.cons e)
      (fun w l h => ?_) rid h)
  refine wp_mono (fun r _ _ h => ?_) (fun _ _ _ h => h.1) (wp_and (wp_prepare_intact hwf h)
    (hunsent.prepare (fun _ => Preparing.silent) (fun _ _ => trivial) payload request.headers w l h))
  obtain ⟨⟨⟨routed, hrouted, hintact⟩, hnone⟩, ⟨hmodel, hheaders⟩, -⟩ := h
  exact ⟨⟨⟨routed, _, hrouted, hintact⟩, hmodel, hheaders⟩, hnone⟩

end

/-- **An upstream is asked what the client asked**, whatever the routing library, the
compressor, the transport, the sink and the framework do.  Under a configuration that
was loaded, all requests that a call puts on the wire go to replicas of one model that
the requested name stands for, with one and the same body: the client's fields, its
messages, and of its headers those that may be forwarded. -/
theorem serve_forwards (lib : Lib) (pydantic : Configuration.Pydantic)
    (urlsplit : Str → Except String Configuration.SplitUrl) (environ : Str → Configuration.Variable) (doc : Json)
    (settings : Settings) (hsettings : Configuration.load lib pydantic urlsplit environ doc = .ok settings) (limit me : ℕ)
    (request : Request) (rid : Str) (rely : World → World → Prop) (w w' : World) (r : Except Err Reply)
    (l : List Entry)
    (hrun : (alone rely fun _ => RoutesBy lib).Run (serve lib settings limit me request rid) w [] r w' l)
    (hsent : httpRequests l ≠ []) :
    ∃ payload model body, parseRequest lib request.body.chunks.flatten = .ok payload ∧
      Serves settings (modelOf payload) model ∧
      ∀ http ∈ httpRequests l, http.json = body ∧ Forwards settings payload request.headers model http := by
  have hwf := Configuration.load_wellformed hsettings
  have hroutes : ∀ e ∈ l, RoutesBy lib e := Allowed.forall_mem
    (hrun.result (P := fun _ _ => Allowed fun _ => RoutesBy lib) (wp_alone_allowed _ _ _ _ trivial))
  have hend := hrun.result (P := fun _ _ l => sends l = [] ∨ ∃ payload,
    parseRequest lib request.body.chunks.flatten = .ok payload ∧
      Sent (Prepares settings payload request.headers) l) (wp_serve_sent hwf rfl)
  have hnone : sends l ≠ [] := fun hnone => hsent (by rw [httpRequests, hnone, List.map_nil])
  obtain ⟨payload, hpayload, hnone' | ⟨r, hprepares, huniform⟩⟩ := hend.resolve_left hnone
  · exact absurd hnone' hnone
  obtain ⟨⟨routed, compression, hrouted, hintact⟩, ⟨label, hlabel⟩, hheaders⟩ := hprepares
  obtain ⟨v, hvalid⟩ := validate_of_parseRequest hpayload
  obtain ⟨-, ⟨name, hname⟩, -, rows, -, hrows, -⟩ := validate_ok hvalid
  have hmodelOf : modelOf payload = name := by rw [modelOf, Application.get, hname, Option.getD_some]
  refine ⟨payload, r.1, r.2.1, hpayload, hmodelOf ▸ serves_of_routed hname hrouted, fun http hhttp => ?_⟩
  obtain ⟨a, ha, rfl⟩ := List.mem_map.1 hhttp
  obtain ⟨-, hendpoint, hrequest, hsame⟩ := huniform a ha
  refine ⟨hrequest, ?_⟩
  rw [hrequest, hsame, hheaders]
  exact forwards_of_intact hwf hroutes hrows hrouted hintact (hwf.defaults label r.1 hlabel _ (by decide)) hendpoint

namespace Demo

/-- Two models, and a pair of them. -/
def paired : Configuration.Config where
  server := { apiKey := lit "secret" }
  models := [
    (lit "big", {
      modelId := lit "backend-big"
      endpoints := [{ name := lit "a", baseUrl := lit "http://localhost/v1" }] }),
    (lit "small", {
      modelId := lit "backend-small"
      endpoints := [
        { name := lit "a", baseUrl := lit "http://localhost/v1/", apiKey := lit "key" },
        { name := lit "b", baseUrl := lit "http://localhost/v1" }] })]
  pairs := [(lit "auto", { capable := lit "big", efficient := lit "small" })]

/-- The libraries, by which every body reads as a message to the pair. -/
def autos : Lib :=
  { Configuration.Demo.lib with
    loadsBytes := fun _ _ => .ok (.obj
      [(lit "model", .str (lit "auto")), (lit "messages", .list [Switchyard.Demo.message "hi"])]) }

theorem paired_loads : Configuration.load autos Configuration.verbatim Configuration.localhost (fun _ => .unset)
    (.obj paired.dump) = .ok paired.settings := by
  with_unfolding_all rfl

/-- The routing library picks the efficient tier and adds a note, and the first replica of
that is not ready. -/
def noting (l : List Entry) (q : Call) : ℚ × Answer q :=
  (Application.Demo.now l, match q with
    | .route request pair => Switchyard.route autos
        (Switchyard.Demo.picks [Switchyard.Demo.form "note", Switchyard.Demo.form "hi"]) request pair
    | q => Application.Demo.answer (fun endpoint =>
        .ok (Application.Demo.upstream (if endpoint.name = lit "a" then 503 else 200))) (.ok ())
        (Application.Demo.now l) q)

/-- The run of a call to the pair. -/
def notedRun : Except Err Reply × World × List Entry :=
  exec noting (serve autos paired.settings 1024 0 chatRequest (lit "r")) Application.Demo.world []

end Demo

/-- Both replicas of the efficient model are asked what the client asked. -/
theorem serve_forwards_noted : (httpRequests Demo.notedRun.2.2).length = 2 ∧
    ∃ payload model body,
      parseRequest Demo.autos Demo.chatRequest.body.chunks.flatten = .ok payload ∧
      Serves Demo.paired.settings (modelOf payload) model ∧
      ∀ http ∈ httpRequests Demo.notedRun.2.2, http.json = body ∧
        Forwards Demo.paired.settings payload Demo.chatRequest.headers model http := by
  have hroutes : ∀ l q, RoutesBy Demo.autos ⟨(Demo.noting l q).1, q, (Demo.noting l q).2⟩ := by
    intro l q
    cases q with
    | route request pair =>
      change RoutesBy Demo.autos ⟨_, .route request pair, Switchyard.route Demo.autos _ request pair⟩
      cases hroute : Switchyard.route Demo.autos
        (Switchyard.Demo.picks [Switchyard.Demo.form "note", Switchyard.Demo.form "hi"]) request pair with
      | ok decision => exact ⟨_, hroute⟩
      | error e => trivial
    | _ => trivial
  have hrun : (alone (fun w w' : World => w'.calls 0 = w.calls 0) fun _ => RoutesBy Demo.autos).Run
      (serve Demo.autos Demo.paired.settings 1024 0 Demo.chatRequest (lit "r")) Application.Demo.world []
      Demo.notedRun.1 Demo.notedRun.2.1 Demo.notedRun.2.2 :=
    run_of_exec Demo.noting hroutes rfl
  have hlength : (httpRequests Demo.notedRun.2.2).length = 2 := by decide +kernel
  refine ⟨hlength, serve_forwards Demo.autos Configuration.verbatim Configuration.localhost (fun _ => .unset)
    (.obj Demo.paired.dump) _ Demo.paired_loads 1024 0 Demo.chatRequest (lit "r") _ _ _ _ _ hrun fun hnone => ?_⟩
  rw [hnone] at hlength
  cases hlength

end Ingress
end SwitchyardGateway
