/-
# Addresses and keys of the replicas

What a client, a log or the tables can learn about the replicas is their names.  This
is a statement about two deployments that differ only in the base URLs and the keys
of their endpoints: if nobody who is asked tells them apart, a call ends alike in
both, after related questions (`secrets_kept`), so neither a reply, nor a frame, nor a
record, nor a header depends on an address or a key.

Two deployments are compared by what is left when these are hidden.
-/

import SwitchyardGateway.Coop.Relation
import SwitchyardGateway.Ingress.Outcomes

namespace SwitchyardGateway

open Coop Coop.Discipline Python

/-! ### Hiding -/

/-- A replica without its address and its key. -/
def Endpoint.hide (endpoint : Endpoint) : Endpoint := ⟨endpoint.name, [], []⟩

/-- A model without those of its replicas. -/
def Model.hide (model : Model) : Model := { model with endpoints := model.endpoints.map Endpoint.hide }

/-- A configuration without those of its models. -/
def Settings.hide (settings : Settings) : Settings :=
  { settings with models := settings.models.map fun p => (p.1, p.2.hide) }

/-- A question without them. -/
def Call.hide : Call → Call
  | .compress messages model => .compress messages model.hide
  | .send model endpoint request headers => .send model.hide endpoint.hide request headers
  | .selected model endpoint => .selected model.hide endpoint.hide
  | q => q

/-- Questions with something to hide name models and replicas that are one then. -/
inductive Call.Hides : Call → Call → Prop where
  | refl (q : Call) : Hides q q
  | compress (messages : List Json) {model model' : Model} :
      model.hide = model'.hide → Hides (.compress messages model) (.compress messages model')
  | send (request : Payload) (headers : Headers) {model model' : Model} {endpoint endpoint' : Endpoint} :
      model.hide = model'.hide → endpoint.hide = endpoint'.hide →
      Hides (.send model endpoint request headers) (.send model' endpoint' request headers)
  | selected {model model' : Model} {endpoint endpoint' : Endpoint} :
      model.hide = model'.hide → endpoint.hide = endpoint'.hide →
      Hides (.selected model endpoint) (.selected model' endpoint')

theorem Call.hides {q q' : Call} (h : q.hide = q'.hide) : q.Hides q' := by
  cases q with
  | compress messages model =>
    cases q' with
    | compress messages' model' =>
      obtain ⟨rfl, hmodel⟩ := Call.compress.inj h
      exact .compress messages hmodel
    | _ => cases h
  | send model endpoint request headers =>
    cases q' with
    | send model' endpoint' request' headers' =>
      obtain ⟨hmodel, hendpoint, rfl, rfl⟩ := Call.send.inj h
      exact .send request headers hmodel hendpoint
    | _ => cases h
  | selected model endpoint =>
    cases q' with
    | selected model' endpoint' =>
      obtain ⟨hmodel, hendpoint⟩ := Call.selected.inj h
      exact .selected hmodel hendpoint
    | _ => cases h
  | _ =>
    cases q' with
    | _ => cases h <;> exact .refl _

/-- Questions that are one when these are hidden, and equal answers. -/
def blind : Likeness Call Answer where
  like q q' := q.hide = q'.hide
  same _ _ a a' := HEq a a'
  refl _ := rfl
  eq _ _ _ h := eq_of_heq h

namespace Application

section

variable {lib : Lib} {settings settings' : Settings} {me : ℕ} {model model' : Model}
  {endpoint endpoint' : Endpoint}

/-! ### What hiding leaves -/

theorem name_of_hide (h : endpoint.hide = endpoint'.hide) : endpoint.name = endpoint'.name := by
  have hname := congrArg Endpoint.name h
  exact hname

/-- The models of one label. -/
structure SameModel (model model' : Model) : Prop where
  hide : model.hide = model'.hide
  name : model.name = model'.name
  modelId : model.modelId = model'.modelId
  defaults : model.defaults = model'.defaults
  endpoints : List.Forall₂ (fun e e' => Endpoint.hide e = Endpoint.hide e') model.endpoints model'.endpoints

theorem sameModel (h : model.hide = model'.hide) : SameModel model model' := by
  have hname := congrArg Model.name h
  have hmodelId := congrArg Model.modelId h
  have hdefaults := congrArg Model.defaults h
  have hendpoints : model.endpoints.map Endpoint.hide = model'.endpoints.map Endpoint.hide :=
    congrArg Model.endpoints h
  rw [← List.forall₂_eq_eq_eq, List.forall₂_map_left_iff, List.forall₂_map_right_iff] at hendpoints
  exact ⟨h, hname, hmodelId, hdefaults, hendpoints⟩

/-- The replicas at one position. -/
theorem SameModel.get (h : SameModel model model') {i : Fin model.endpoints.length}
    {j : Fin model'.endpoints.length} (hj : (i : ℕ) = j) :
    (model.endpoints.get i).hide = (model'.endpoints.get j).hide := by
  obtain ⟨i, hlt⟩ := i
  obtain ⟨j, hlt'⟩ := j
  obtain rfl : i = j := hj
  exact h.endpoints.get hlt hlt'

/-- Two configurations that differ only in what is hidden. -/
structure SameSettings (settings settings' : Settings) : Prop where
  pairs : settings.pairs = settings'.pairs
  apiKey : settings.apiKey = settings'.apiKey
  compression : settings.compression = settings'.compression
  cooldownSeconds : settings.cooldownSeconds = settings'.cooldownSeconds
  forwardHeaders : settings.forwardHeaders = settings'.forwardHeaders
  maxRequestBytes : settings.maxRequestBytes = settings'.maxRequestBytes
  models : ∀ label, (settings.models.lookup label).map Model.hide =
    (settings'.models.lookup label).map Model.hide

theorem sameSettings (h : settings.hide = settings'.hide) : SameSettings settings settings' := by
  have hpairs := congrArg Settings.pairs h
  have hapiKey := congrArg Settings.apiKey h
  have hcompression := congrArg Settings.compression h
  have hcooldown := congrArg Settings.cooldownSeconds h
  have hforward := congrArg Settings.forwardHeaders h
  have hbytes := congrArg Settings.maxRequestBytes h
  have hmodels : (settings.models.map fun p => (p.1, p.2.hide)) =
      settings'.models.map fun p => (p.1, p.2.hide) := congrArg Settings.models h
  refine ⟨hpairs, hapiKey, hcompression, hcooldown, hforward, hbytes, fun label => ?_⟩
  have hlookup := Dict.lookup_map_item (fun (_ : Str) => Model.hide) settings.models label
  have hlookup' := Dict.lookup_map_item (fun (_ : Str) => Model.hide) settings'.models label
  rw [← hlookup, ← hlookup', hmodels]

/-! ### Preparing alike -/

section Prepare

variable (h : SameSettings settings settings')

include h

theorem SameSettings.routeTier (request : Payload) (name : Str) :
    Application.routeTier settings me request name = Application.routeTier settings' me request name := by
  have hsome : (settings.models.lookup name).isSome = (settings'.models.lookup name).isSome := by
    have hmap := congrArg Option.isSome (h.models name)
    rwa [Option.isSome_map, Option.isSome_map] at hmap
  unfold Application.routeTier
  rw [h.pairs, hsome]

theorem SameSettings.routeRequest (request : Payload) :
    Prog.Alike blind (fun r r' : Payload × Model => r.1 = r'.1 ∧ SameModel r.2 r'.2)
      (Application.routeRequest settings me request) (Application.routeRequest settings' me request) := by
  unfold Application.routeRequest
  split
  · refine .seq _ fun started => ?_
    split
    · rw [h.routeTier]
      refine .seq _ fun routed => ?_
      obtain ⟨prepared, label, tier⟩ := routed
      have hmodels := h.models label
      dsimp only
      cases hm : settings.models.lookup label with
      | none =>
        cases hm' : settings'.models.lookup label with
        | none => exact .raise _
        | some model' =>
          rw [hm, hm'] at hmodels
          cases hmodels
      | some model =>
        cases hm' : settings'.models.lookup label with
        | none =>
          rw [hm, hm'] at hmodels
          cases hmodels
        | some model' =>
          rw [hm, hm'] at hmodels
          have hmodel := sameModel (Option.some.inj hmodels)
          refine .seq _ fun now => ?_
          rw [hmodel.name]
          exact .seq _ fun _ => .ret ⟨rfl, hmodel⟩
    · split
      · exact .raise _
      · exact .raise _
  · exact .raise _

omit h in
theorem SameModel.compressRows (hm : SameModel model model') (messages : List Json) (indices : List ℕ) :
    Prog.Alike blind Eq (Application.compressRows me model messages indices)
      (Application.compressRows me model' messages indices) := by
  have hcompress : Prog.Alike blind Eq (compress (indices.filterMap (messages[·]?)) model : Py CompressionResult)
      (compress (indices.filterMap (messages[·]?)) model') := by
    refine .await (congrArg (Call.compress _) hm.hide) fun a a' ha => ?_
    obtain rfl := eq_of_heq ha
    exact .refl _
  unfold Application.compressRows
  refine hcompress.bind fun result result' hresult => ?_
  obtain rfl := hresult
  exact .refl _

theorem SameSettings.compressHistory (hm : SameModel model model') (headers : Headers) (prepared : Payload) :
    Prog.Alike blind Eq (Application.compressHistory lib settings me model headers prepared)
      (Application.compressHistory lib settings' me model' headers prepared) := by
  unfold Application.compressHistory
  rw [h.compression]
  refine .seq _ fun _ => ?_
  split
  · split
    · refine .seq _ fun indices => .seq _ fun _ => ?_
      split
      · refine .tryCatch (R := Eq) ?_ fun e => .refl _
        refine (hm.compressRows _ _).bind fun rows rows' hrows => ?_
        obtain rfl := hrows
        exact .refl _
      · exact .refl _
    · exact .refl _
  · exact .refl _

/-- **A request is prepared alike**, for models of one label. -/
theorem SameSettings.prepare (request : Payload) (headers : Headers) :
    Prog.Alike blind (fun r r' : Model × Payload × Headers => SameModel r.1 r'.1 ∧ r.2 = r'.2)
      (Application.prepare lib settings me request headers)
      (Application.prepare lib settings' me request headers) := by
  unfold Application.prepare
  refine (h.routeRequest request).bind fun r r' hr => ?_
  obtain ⟨routed, model⟩ := r
  obtain ⟨routed', model'⟩ := r'
  obtain ⟨rfl, hm⟩ := hr
  refine .seq _ fun compressStarted => ?_
  dsimp only
  rw [hm.defaults, hm.modelId, h.forwardHeaders]
  refine (h.compressHistory hm headers _).bind fun prepared prepared' hprepared => ?_
  obtain rfl := hprepared
  exact .seq _ fun now => .seq _ fun _ => .ret ⟨hm, rfl⟩

end Prepare

/-! ### Attempts alike -/

section Attempts

variable (h : SameModel model model')

include h

/-- One position in both lists of replicas. -/
def SameIndex (_ : SameModel model model') (i : Fin model.endpoints.length)
    (i' : Fin model'.endpoints.length) : Prop := (i : ℕ) = i'

theorem SameModel.selectFrom (excluded : List Str) (start : ℕ) {offsets : List (Fin model.endpoints.length)}
    {offsets' : List (Fin model'.endpoints.length)}
    (hoffsets : List.Forall₂ (SameIndex h) offsets offsets') :
    Prog.Alike blind (SameIndex h) (Gateway.selectFrom model excluded start offsets)
      (Gateway.selectFrom model' excluded start offsets') := by
  induction hoffsets with
  | nil => exact .raise _
  | @cons offset offset' offsets offsets' hoffset _ ih =>
    unfold Gateway.selectFrom
    have hlength := h.endpoints.length_eq
    have hindex : (start + (offset : ℕ)) % model.endpoints.length =
        (start + (offset' : ℕ)) % model'.endpoints.length := by
      rw [show (offset : ℕ) = offset' from hoffset, hlength]
    have hget := h.get (i := ⟨_, Nat.mod_lt _ (Nat.zero_lt_of_lt offset.isLt)⟩)
      (j := ⟨_, Nat.mod_lt _ (Nat.zero_lt_of_lt offset'.isLt)⟩) hindex
    dsimp only
    rw [name_of_hide hget, h.name]
    split
    · exact ih
    · refine .seq _ fun w => .seq _ fun now => ?_
      split
      · have hnext : ((start + (offset : ℕ)) % model.endpoints.length + 1) % model.endpoints.length =
            ((start + (offset' : ℕ)) % model'.endpoints.length + 1) % model'.endpoints.length := by
          rw [hindex, hlength]
        have hput : Prog.Alike blind Eq
            (Prog.update fun w => w.setPosition model'.name
              (((start + (offset : ℕ)) % model.endpoints.length + 1) % model.endpoints.length) : Py Unit)
            (Prog.update fun w => w.setPosition model'.name
              (((start + (offset' : ℕ)) % model'.endpoints.length + 1) % model'.endpoints.length)) := by
          rw [hnext]
          exact .refl _
        refine hput.bind fun _ _ _ => ?_
        exact .call (congrArg₂ Call.selected h.hide hget) fun _ _ _ => .ret hindex
      · exact ih

theorem SameModel.select (excluded : List Str) :
    Prog.Alike blind (SameIndex h) (Gateway.select model excluded) (Gateway.select model' excluded) := by
  have hlength := h.endpoints.length_eq
  have hoffsets : List.Forall₂ (SameIndex h) (List.finRange model.endpoints.length)
      (List.finRange model'.endpoints.length) := by
    refine List.forall₂_iff_get.2 ⟨by simp [hlength], fun i hi hi' => ?_⟩
    simp [SameIndex]
  unfold Gateway.select
  rw [h.name]
  exact .seq _ fun w => h.selectFrom excluded _ hoffsets

theorem SameModel.anyAvailable (excluded : List Str) {endpoints endpoints' : List Endpoint}
    (he : List.Forall₂ (fun e e' => Endpoint.hide e = Endpoint.hide e') endpoints endpoints') :
    Prog.Alike blind Eq (Application.anyAvailable model excluded endpoints)
      (Application.anyAvailable model' excluded endpoints') := by
  induction he with
  | nil => exact .refl _
  | cons hhide _ ih =>
    unfold Application.anyAvailable
    rw [name_of_hide hhide, h.name]
    split
    · exact ih
    · refine .seq _ fun w => .seq _ fun now => ?_
      split
      · exact .refl _
      · exact ih

theorem SameModel.trySend (hs : SameSettings settings settings') (he : endpoint.hide = endpoint'.hide)
    (prepared : Payload) (headers : Headers) (attempt : ℕ) :
    Prog.Alike blind Eq (Application.trySend lib settings me model prepared headers attempt endpoint)
      (Application.trySend lib settings' me model' prepared headers attempt endpoint') := by
  have hsend : Prog.Alike blind Eq (send model endpoint prepared headers)
      (send model' endpoint' prepared headers) := by
    refine .await (congrArg₂ (fun m e => Call.send m e prepared headers) h.hide he) fun a a' ha => ?_
    obtain rfl := eq_of_heq ha
    exact .refl _
  unfold Application.trySend
  refine .tryCatch (hsend.bind fun a a' ha => ?_) fun e => ?_
  · obtain rfl := ha
    exact .refl _
  · cases e with
    | exc e =>
      cases e with
      | connectFailure =>
        unfold Gateway.cooldown Gateway.cooldownSeconds Application.emitFailure
        rw [h.name, name_of_hide he, hs.cooldownSeconds]
        exact .refl _
      | _ => exact .refl _
    | _ => exact .refl _

theorem SameModel.answered (hs : SameSettings settings settings') (he : endpoint.hide = endpoint'.hide)
    (started upstreamStarted : ℚ) (attempt : ℕ) (excluded : List Str) (upstream : Upstream) :
    Prog.Alike blind Eq
      (Application.answered lib settings me model started upstreamStarted attempt endpoint excluded upstream)
      (Application.answered lib settings' me model' started upstreamStarted attempt endpoint' excluded
        upstream) := by
  have hcool : Application.coolRejected lib settings me model endpoint upstream =
      Application.coolRejected lib settings' me model' endpoint' upstream := by
    unfold Application.coolRejected Gateway.cooldown Gateway.cooldownSeconds Application.emitFailure
    rw [h.name, name_of_hide he, hs.cooldownSeconds]
  have hdiscards : Prog.Alike blind Eq (Application.discards model excluded attempt upstream)
      (Application.discards model' excluded attempt upstream) := by
    unfold Application.discards
    split
    · exact h.anyAvailable excluded h.endpoints
    · exact .refl _
  unfold Application.answered
  rw [hcool]
  refine .seq _ fun _ => .seq _ fun _ => hdiscards.bind fun discarded discarded' hd => ?_
  obtain rfl := hd
  exact .refl _

theorem SameModel.attemptOnce (hs : SameSettings settings settings') (he : endpoint.hide = endpoint'.hide)
    (prepared : Payload) (headers : Headers) (started upstreamStarted : ℚ) (attempt : ℕ)
    (excluded : List Str) :
    Prog.Alike blind Eq
      (Application.attemptOnce lib settings me model prepared headers started upstreamStarted attempt
        endpoint excluded)
      (Application.attemptOnce lib settings' me model' prepared headers started upstreamStarted attempt
        endpoint' excluded) := by
  unfold Application.attemptOnce Application.emitRetry
  rw [h.name, name_of_hide he]
  refine .seq _ fun _ => .seq _ fun _ => (h.trySend hs he prepared headers attempt).bind fun a a' ha => ?_
  obtain rfl := ha
  cases a with
  | none => exact .refl _
  | some upstream => exact h.answered hs he _ _ _ _ _

theorem SameModel.attempts (hs : SameSettings settings settings') (prepared : Payload) (headers : Headers)
    (started upstreamStarted : ℚ) (rounds : List ℕ) (excluded : List Str) :
    Prog.Alike blind Eq
      (Application.attempts lib settings me model prepared headers started upstreamStarted rounds excluded)
      (Application.attempts lib settings' me model' prepared headers started upstreamStarted rounds
        excluded) := by
  induction rounds generalizing excluded with
  | nil => exact .refl _
  | cons attempt rounds ih =>
    unfold Application.attempts
    refine (h.select excluded).bind fun i i' hi => ?_
    have he := h.get hi
    dsimp only
    rw [name_of_hide he]
    refine (h.attemptOnce hs he prepared headers started upstreamStarted attempt _).bind fun r r' hr => ?_
    obtain rfl := hr
    cases r with
    | some exchange => exact .refl _
    | none => exact ih _

end Attempts

/-- **An exchange is opened alike.** -/
theorem SameSettings.open (h : SameSettings settings settings') (request : Payload) (headers : Headers)
    (rid : Str) :
    Prog.Alike blind Eq (Gateway.open lib settings me request headers rid)
      (Gateway.open lib settings' me request headers rid) := by
  unfold Gateway.open
  refine .seq _ fun started => .seq _ fun _ => .tryCatch (R := Eq) ?_ fun e => .refl _
  unfold Gateway.openInner
  refine (h.prepare request headers).bind fun r r' hr => ?_
  obtain ⟨model, prepared, forwarded⟩ := r
  obtain ⟨model', prepared', forwarded'⟩ := r'
  obtain ⟨hmodel, hrest⟩ := hr
  obtain ⟨rfl, rfl⟩ := Prod.mk.inj hrest
  exact .seq _ fun _ => hmodel.attempts h _ _ _ _ _ _

end

end Application

namespace Ingress

open Application

section

variable {lib : Lib} {settings settings' : Settings} {limit me : ℕ}

/-! ### A call alike -/

theorem chatTry_alike (h : SameSettings settings settings') (request : Request) (rid : Str) :
    Prog.Alike blind Eq (chatTry lib settings limit me request rid)
      (chatTry lib settings' limit me request rid) := by
  have hread : readRequest lib settings request = readRequest lib settings' request := by
    have hreceive : ∀ chunks data, receiveFrom settings request.body.ending chunks data =
        receiveFrom settings' request.body.ending chunks data := by
      intro chunks
      induction chunks with
      | nil => exact fun _ => rfl
      | cons chunk chunks ih =>
        intro data
        unfold receiveFrom
        rw [h.maxRequestBytes, ih]
    unfold readRequest authorize
    rw [h.apiKey, hreceive]
  unfold chatTry
  rw [hread]
  refine .seq _ fun payload => .seq _ fun _ => ?_
  refine (h.open payload request.headers rid).bind fun exchange exchange' he => ?_
  obtain rfl := he
  exact .refl _

theorem serve_alike (h : SameSettings settings settings') (request : Request) (rid : Str) :
    Prog.Alike blind Eq (serve lib settings limit me request rid)
      (serve lib settings' limit me request rid) := by
  have hchat : Prog.Alike blind Eq (chat lib settings limit me request rid)
      (chat lib settings' limit me request rid) := by
    unfold chat
    exact .seq _ fun _ => .finallyDo (.tryCatch (chatTry_alike h request rid) fun e => .refl _) _
  unfold serve
  refine hchat.bind fun reply reply' hr => ?_
  obtain rfl := hr
  exact .refl _

/-- What a log tells outside of the gateway: the records and the frames of it. -/
def published (l : List Entry) : List Call :=
  (l.map (·.call)).filter fun
    | .emit _ | .yield _ => true
    | _ => false

/-- Logs that are alike publish the same. -/
theorem published_alike {l l' : List Entry} (h : List.Forall₂ (Step.Like blind) l l') :
    published l = published l' := by
  induction h with
  | nil => rfl
  | @cons e e' l l' he _ ih =>
    obtain ⟨t, q, a⟩ := e
    obtain ⟨t', q', a'⟩ := e'
    unfold published at ih ⊢
    rw [List.map_cons, List.map_cons, List.filter_cons, List.filter_cons, ih]
    cases Call.hides he.call <;> rfl

end

/-- **Addresses and keys stay.**  Two configurations that differ only in the base URLs
and the keys of their replicas serve a request alike in surroundings that do not tell
them apart: with one reply, one state and the same records and frames, after
questions that are one when addresses and keys are hidden. -/
theorem secrets_kept (lib : Lib) (settings settings' : Settings) (hhide : settings.hide = settings'.hide)
    (limit me : ℕ) (request : Request) (rid : Str) (O : Oracle World ℚ Call Answer) (hO : O.Indifferent blind)
    (w w₁ w₁' : World) (r r' : Except Err Reply) (l l' : List Entry)
    (hrun : O.discipline.Run (serve lib settings limit me request rid) w [] r w₁ l)
    (hrun' : O.discipline.Run (serve lib settings' limit me request rid) w [] r' w₁' l') :
    r = r' ∧ w₁ = w₁' ∧ published l = published l' ∧ List.Forall₂ (Step.Like blind) l l' := by
  obtain ⟨hends, hworld, hlogs⟩ := (serve_alike (sameSettings hhide) request rid).runs hO .nil hrun hrun'
  refine ⟨?_, hworld, published_alike hlogs, hlogs⟩
  cases r with
  | ok reply =>
    cases r' with
    | ok reply' => exact congrArg _ hends
    | error e => exact hends.elim
  | error e =>
    cases r' with
    | ok reply' => exact hends.elim
    | error e' => exact congrArg _ hends

namespace Demo

/-- Two replicas at an address, the first with a key. -/
def deployment (url key : String) : Settings :=
  { Application.Demo.settings with
    models := [(lit "m", { name := lit "m", modelId := lit "backend",
                           endpoints := [⟨lit "a", lit url, lit key⟩, ⟨lit "b", lit url, []⟩], defaults := [] })] }

theorem deployment_hide (url url' key key' : String) :
    (deployment url key).hide = (deployment url' key').hide := rfl

/-- The first replica cannot be reached; all else is well, and nobody else is there. -/
def discreet : Oracle World ℚ Call Answer where
  answers _ q := (0, Application.Demo.answer (fun endpoint => if endpoint.name = lit "a" then
    .error (.exc .connectFailure) else .ok (answered completion)) (.ok ()) 0 q)
  others _ w := w

theorem discreet_indifferent : discreet.Indifferent blind where
  time _ _ _ _ _ _ := rfl
  answer := by
    intro _ _ q q' _ hq
    cases Call.hides hq with
    | refl q => exact HEq.rfl
    | compress messages hmodel => exact HEq.rfl
    | selected hmodel hendpoint => exact HEq.rfl
    | @send request headers model model' endpoint endpoint' hmodel hendpoint =>
      have hsame : (discreet.answers [] (.send model endpoint request headers)).2 =
          (discreet.answers [] (.send model' endpoint' request headers)).2 := by
        simp only [discreet, Application.Demo.answer]
        rw [name_of_hide hendpoint]
      exact heq_of_eq hsame
  others _ _ _ := rfl

end Demo

/-- Two deployments at different addresses, with different keys. -/
theorem two_deployments : ∃ r w l l',
    Demo.discreet.discipline.Run (serve Demo.bodies (Demo.deployment "http://one/v1" "one") 1024 0
      Demo.chatRequest (lit "r")) Application.Demo.world [] r w l ∧
    Demo.discreet.discipline.Run (serve Demo.bodies (Demo.deployment "http://two/v1" "two") 1024 0
      Demo.chatRequest (lit "r")) Application.Demo.world [] r w l' ∧
    published l = published l' := by
  obtain ⟨r, w, l, hrun⟩ := Demo.discreet.exists_run (serve Demo.bodies
    (Demo.deployment "http://one/v1" "one") 1024 0 Demo.chatRequest (lit "r")) Application.Demo.world []
  obtain ⟨r', w', l', hrun'⟩ := Demo.discreet.exists_run (serve Demo.bodies
    (Demo.deployment "http://two/v1" "two") 1024 0 Demo.chatRequest (lit "r")) Application.Demo.world []
  obtain ⟨rfl, rfl, hsame, -⟩ := secrets_kept Demo.bodies (Demo.deployment "http://one/v1" "one")
    (Demo.deployment "http://two/v1" "two") (Demo.deployment_hide _ _ _ _) 1024 0 Demo.chatRequest (lit "r") Demo.discreet
      Demo.discreet_indifferent Application.Demo.world w w' r r' l l' hrun hrun'
  exact ⟨r, w, l, l', hrun, hrun', hsame⟩

end Ingress
end SwitchyardGateway
