/-
# Discovery

The routes beside `chat`: `models` lists the labels that may be requested, `readiness` says
whether a replica is eligible, and `liveliness` that the process runs.

A client that reads the listing may believe it.  It has the keys of the sections `pairs` and
`models` of the document that was loaded, in their order, and none of them twice; a call
that asks for another name is answered `unknown_model` before anything is routed or sent,
and no call that asks for a listed one is ever answered that (`listing_believed`).
-/

import SwitchyardGateway.Ingress.Codes
import SwitchyardGateway.Ingress.Forwarding

namespace SwitchyardGateway
namespace Ingress

open Coop Coop.Discipline Python Application

/-! ### The routes -/

section

variable (lib : Lib) (settings : Settings)

/-- `names` of `models`. -/
def listing : List Str := settings.pairs.map Prod.fst ++ settings.models.map Prod.fst

/-- A row of `"data"`. -/
def listRow (name : Str) : Json := .obj
  [(lit "id", .str name), (lit "object", .str (lit "model")), (lit "created", .int 0),
    (lit "owned_by", .str (lit "gateway"))]

/-- The body of a listing. -/
def listBody : Json := .obj
  [(lit "object", .str (lit "list")), (lit "data", .list ((listing settings).map listRow))]

/-- The event of a listing. -/
def listEvent (requestId : Str) : Event where
  requestId := requestId
  status := some 200
  outcome := some .completed

/-- The event of a listing that is refused. -/
def rejectedEvent (requestId : Str) (code : String) (status : ℕ) : Event where
  requestId := requestId
  status := some status
  outcome := some .rejected
  error := some code

/-- The `try` of `models`. -/
def modelsTry (headers : Headers) (requestId : Str) : Py Reply := do
  lift (authorize settings headers)
  emit (.request (listEvent requestId))
  let body ← lift (lib.render (listBody settings))
  return .completion body [(lit "x-request-id", requestId)]

/-- The `except` of `models`. -/
def modelsExcept (requestId : Str) (e : Err) : Py Reply :=
  match e.gatewayError? with
  | some (code, status) => do
    emit (.request (rejectedEvent requestId code status))
    return errorReply code status requestId
  | none => throw e

/-- `models`. -/
def models (headers : Headers) (requestId : Str) : Py Reply :=
  tryCatch (modelsTry lib settings headers requestId) (modelsExcept requestId)

/-- The body of a health check. -/
def statusBody (status : String) : Json := .obj [(lit "status", .str (lit status))]

/-- `readiness`. -/
def readiness : Py Reply := do
  if ← Gateway.ready settings then
    return .completion (← lift (lib.render (statusBody "ok"))) []
  else return .error 503 (statusBody "not_ready") []

/-- `liveliness`. -/
def liveliness : Py Reply := do
  return .completion (← lift (lib.render (statusBody "ok"))) []

/-- A request to one of the routes. -/
inductive Visit where
  | chat (request : Request) (requestId : Str)
  | models (headers : Headers) (requestId : Str)
  | readiness
  | liveliness

/-- The routes of `create_app`. -/
def handle (limit me : ℕ) : Visit → Py Reply
  | .chat request requestId => serve lib settings limit me request requestId
  | .models headers requestId => models lib settings headers requestId
  | .readiness => readiness lib settings
  | .liveliness => liveliness lib

end

/-! ### The labels of a document -/

section

open SwitchyardGateway.Configuration

variable {pydantic : Pydantic} {environ : Str → Variable} {doc : Json} {fields fields' : List (Str × Json)}

/-- The keys of an object. -/
def keysOf : Json → List Str
  | .obj fields => fields.map Prod.fst
  | _ => []

/-- The keys of a section of a document. -/
def labelsOf (doc : Json) (key : String) : List Str :=
  match doc with
  | .obj fields => ((fields.lookup (lit key)).map keysOf).getD []
  | _ => []

/-- A field is resolved where it is. -/
theorem lookup_resolved (h : List.Forall₂ (fun p p' => p'.1 = p.1 ∧ resolve environ p.2 = .ok p'.2) fields fields')
    (key : Str) :
    Option.Rel (fun v v' => resolve environ v = .ok v') (fields.lookup key) (fields'.lookup key) := by
  induction h with
  | nil => exact .none
  | @cons p p' fields fields' hp _ ih =>
    obtain ⟨k, v⟩ := p
    obtain ⟨k', v'⟩ := p'
    obtain ⟨rfl, hv⟩ := hp
    rw [List.lookup_cons, List.lookup_cons]
    cases key == k' with
    | true => exact .some hv
    | false => exact ih

/-- An object comes of an object with the same keys. -/
theorem keysOf_resolved {v : Json} (h : resolve environ v = .ok (.obj fields')) :
    keysOf v = fields'.map Prod.fst := by
  rcases resolve_ok h with ⟨_, _, -, -, -, hv⟩ | ⟨_, _, -, hv, -⟩ | ⟨fields, _, rfl, hv, -, hkeys, -⟩ |
    ⟨-, hno, hv⟩
  · cases hv
  · cases hv
  · obtain rfl := Json.obj.inj hv
    exact hkeys
  · exact absurd hv.symm (hno _)

/-- A dictionary that is read has the keys of its object. -/
theorem dict_keys (h : pydantic.Strict) {α : Type} {constrained : Bool} {read : Reader α} {v : Json} {d : Dict Str α}
    (hd : pydantic.dict (pydantic.str constrained) read v = .ok d) :
    ∃ fields, v = .obj fields ∧ fields.map Prod.fst = d.map Prod.fst := by
  obtain ⟨fields, rfl, hfields⟩ := h.dict.1 hd
  refine ⟨fields, rfl, ?_⟩
  rw [← List.forall₂_eq_eq_eq, List.forall₂_map_left_iff, List.forall₂_map_right_iff]
  exact hfields.imp fun p q hpq => Json.str.inj (h.str hpq.1)

/-- A section is resolved where it is, unless it is a reference. -/
theorem labelsOf_resolved (h : resolve environ doc = .ok (.obj fields')) {key : String}
    (hobj : ∀ v, fields'.lookup (lit key) = some v → ∃ s, v = .obj s) :
    labelsOf doc key = labelsOf (.obj fields') key := by
  rcases resolve_ok h with ⟨_, _, -, -, -, hv⟩ | ⟨_, _, -, hv, -⟩ | ⟨fields, _, rfl, hv, -, -, hfields⟩ |
    ⟨-, hno, hv⟩
  · cases hv
  · cases hv
  · obtain rfl := Json.obj.inj hv
    have hrel := lookup_resolved hfields (lit key)
    unfold labelsOf
    dsimp only
    generalize fields.lookup (lit key) = before at hrel
    generalize hafter : fields'.lookup (lit key) = after at hrel
    cases hrel with
    | none => rfl
    | some hv =>
      obtain ⟨s, rfl⟩ := hobj _ hafter
      exact keysOf_resolved hv
  · exact absurd hv.symm (hno _)

/-- A dictionary that is read of a section has its keys. -/
theorem section_keys (h : pydantic.Strict) {α : Type} {constrained : Bool} {read : Reader α} {key : String}
    {d : Dict Str α} (hd : fields.lookup (lit key) = none ∧ d = [] ∨ ∃ v, fields.lookup (lit key) = some v ∧
      pydantic.dict (pydantic.str constrained) read v = .ok d) :
    labelsOf (.obj fields) key = d.map Prod.fst ∧ ∀ v, fields.lookup (lit key) = some v → ∃ s, v = .obj s := by
  unfold labelsOf
  dsimp only
  rcases hd with ⟨hlookup, rfl⟩ | ⟨v, hlookup, hv⟩
  · rw [hlookup]
    exact ⟨rfl, by rintro _ ⟨⟩⟩
  · obtain ⟨s, rfl, hkeys⟩ := dict_keys h hv
    rw [hlookup]
    exact ⟨hkeys, fun v hv => ⟨s, (Option.some.inj hv).symm⟩⟩

/-- **The labels of loaded settings** are those of the document. -/
theorem labels_of_load (hstrict : pydantic.Strict) {lib : Lib} {urlsplit : Str → Except String SplitUrl}
    {settings : Settings} (h : load lib pydantic urlsplit environ doc = .ok settings) :
    settings.pairs.map Prod.fst = labelsOf doc "pairs" ∧ settings.models.map Prod.fst = labelsOf doc "models" := by
  obtain ⟨doc', config, hresolved, hread, hconfig⟩ := load_ok.1 h
  obtain ⟨fields', hfields, -, hmodels, hpairs, -⟩ := Config.read_ok.1 hread
  obtain ⟨rfl, -⟩ := hstrict.model.1 hfields
  obtain ⟨hmodels, hmodelsObj⟩ := section_keys hstrict (.inr (required_ok hmodels))
  obtain ⟨hpairs, hpairsObj⟩ := section_keys hstrict (optional_ok hpairs)
  rw [labelsOf_resolved hresolved hpairsObj, labelsOf_resolved hresolved hmodelsObj, hpairs, hmodels,
    (loadConfig_ok.1 hconfig).1]
  simp only [Config.settings, Config.lowered, List.map_map, Function.comp_def, and_self]

/-- No section has a label twice, if the document is one that Python can hold. -/
theorem labelsOf_nodup (h : doc.Proper) (key : String) : (labelsOf doc key).Nodup := by
  unfold labelsOf
  split
  · rename_i fields
    cases hlookup : fields.lookup (lit key) with
    | none => exact List.nodup_nil
    | some v =>
      have hv : v.Proper := (Json.proper_obj.1 h).2 _ (Dict.mem_of_lookup hlookup)
      cases v with
      | obj s => exact (Json.proper_obj.1 hv).1
      | _ => exact List.nodup_nil
  · exact List.nodup_nil

/-- **Nothing is listed twice.** -/
theorem listing_nodup (hstrict : pydantic.Strict) {lib : Lib} {urlsplit : Str → Except String SplitUrl}
    {settings : Settings} (hdoc : doc.Proper) (h : load lib pydantic urlsplit environ doc = .ok settings) :
    (listing settings).Nodup := by
  obtain ⟨hpairs, hmodels⟩ := labels_of_load hstrict h
  refine List.nodup_append'.2 ⟨hpairs ▸ labelsOf_nodup hdoc _, hmodels ▸ labelsOf_nodup hdoc _, ?_⟩
  intro name hpair hmodel
  obtain ⟨p, hp, rfl⟩ := List.mem_map.1 hpair
  obtain ⟨m, hm, hname⟩ := List.mem_map.1 hmodel
  have hnone := (load_wellformed h).apart p.1 (List.lookup_isSome_iff.2 ⟨m, hm, by simp [hname]⟩)
  exact absurd (List.lookup_eq_none_iff.1 hnone p hp) (by simp)

end

/-! ### Names that are not listed -/

section

variable {lib : Lib} {settings : Settings} {limit me : ℕ} {request : Request} {payload : Payload} {rid : Str}
  {name : Str} {w : World} {l : List Entry}

/-- A name that neither a pair nor a model has. -/
theorem not_mem_listing : name ∉ listing settings ↔
    settings.pairs.lookup name = none ∧ settings.models.lookup name = none := by
  have hkeys : ∀ {α : Type} (d : Dict Str α), name ∉ d.map Prod.fst ↔ d.lookup name = none := by
    intro α d
    rw [← Option.not_isSome_iff_eq_none, List.lookup_isSome_iff]
    simp
  rw [listing, List.mem_append, not_or, hkeys, hkeys]

/-- A question that comes before routing: the request and the clock are read, and records are made. -/
def Early : Call → Prop
  | .receive | .clock | .emit _ => True
  | _ => False

/-- **A name that is not listed is unknown**, before anything is routed. -/
theorem wp_openInner_unlisted (hname : payload.lookup (lit "model") = some (.str name))
    (hunlisted : name ∉ listing settings) (headers : Headers) (started : ℚ) (hl : ∀ e ∈ l, Early e.call) :
    (lone me).wp (Gateway.openInner lib settings me payload headers started) (fun _ _ _ => False)
      (fun e w' l' => e = gatewayError "unknown_model" 404 ∧ w' = w ∧ ∀ e ∈ l', Early e.call) w l := by
  obtain ⟨hpairs, hmodels⟩ := not_mem_listing.1 hunlisted
  simp only [Gateway.openInner, prepare, routeRequest, routeTier, hname, hpairs, hmodels, wp_bind, clock, wp_ask]
  rintro now _ ⟨t, -, rfl⟩
  exact ⟨rfl, rfl, List.forall_mem_cons.2 ⟨trivial, hl⟩⟩

/-- Opening records that, and raises it unless the sink does. -/
theorem wp_open_unlisted (hname : payload.lookup (lit "model") = some (.str name))
    (hunlisted : name ∉ listing settings) (headers : Headers) (hl : ∀ e ∈ l, Early e.call) :
    (lone me).wp (Gateway.open lib settings me payload headers rid) (fun _ _ _ => False)
      (fun e w' l' => (e = gatewayError "unknown_model" 404 ∨ ∃ entry ∈ l', (fault entry).isSome) ∧
        (w'.calls me).exchange = (w.calls me).exchange ∧ (w'.calls me).opened = (w.calls me).opened ∧
        ∀ e ∈ l', Early e.call) w l := by
  simp only [Gateway.open, wp_bind, clock, wp_ask, wp_update, wp_tryCatch]
  rintro started _ ⟨t, -, rfl⟩
  refine wp_mono (fun _ _ _ h => h.elim) (fun e w₁ l₁ h₁ => ?_)
    (wp_openInner_unlisted hname hunlisted headers started (List.forall_mem_cons.2 ⟨trivial, hl⟩))
  obtain ⟨rfl, rfl, hl₁⟩ := h₁
  simp only [updateEvent, eventOf, emit, wp_update, wp_read, wp_pure, wp_ask, wp_bind, wp_ofExcept, wp_throw]
  rintro now _ ⟨t₁, -, rfl⟩ a _ ⟨t₂, -, rfl⟩
  have hearly : ∀ record a, ∀ e ∈ (⟨t₂, .emit record, a⟩ : Entry) :: ⟨t₁, .clock, now⟩ :: l₁, Early e.call :=
    fun record a => List.forall_mem_cons.2 ⟨trivial, List.forall_mem_cons.2 ⟨trivial, hl₁⟩⟩
  cases a with
  | ok _ => exact ⟨.inl trivial, by simp, by simp, hearly _ _⟩
  | error e' => exact ⟨.inr ⟨_, List.mem_cons_self, rfl⟩, by simp, by simp, hearly _ _⟩

/-- What is raised once opening has begun, and before there is an exchange, is answered
without a record. -/
theorem wp_chatExcept_opened {e : Err} (hexchange : (w.calls me).exchange = none)
    (hopened : (w.calls me).opened = true) :
    (lone me).wp (chatExcept me rid e)
      (fun reply w' l' => (w'.calls me).exchange = none ∧ l' = l ∧
        reply = errorReply (failureOf e).2 (failureOf e).1 rid)
      (fun _ w' l' => (w'.calls me).exchange = none ∧ l' = l ∧ e.gatewayError? = none) w l := by
  have hrefuse : ∀ code status outcome, (status, code) = failureOf e →
      (lone me).wp (refuse me rid code status outcome)
        (fun reply w' l' => (w'.calls me).exchange = none ∧ l' = l ∧
          reply = errorReply (failureOf e).2 (failureOf e).1 rid)
        (fun _ w' l' => (w'.calls me).exchange = none ∧ l' = l ∧ e.gatewayError? = none) w l := by
    intro code status outcome hcode
    rw [← hcode]
    refine wp_refuse (fun hsome => ?_) (fun _ _ => ⟨hexchange, rfl, rfl⟩) fun _ hclosed => ?_
    · rw [hexchange] at hsome
      cases hsome
    · rw [hopened] at hclosed
      cases hclosed
  cases e with
  | exc e =>
    simp only [chatExcept]
    split
    · rename_i code status hgateway
      exact hrefuse _ _ _ (by simp [failureOf, Err.gatewayError?, hgateway])
    · rename_i hgateway
      exact hrefuse _ _ _ (by simp [failureOf, Err.gatewayError?, hgateway])
  | cancelled =>
    simp only [chatExcept, wp_bind, setVars, wp_update, wp_throw, World.setCall_calls_self]
    exact ⟨hexchange, trivial, rfl⟩
  | exit => exact ⟨hexchange, rfl, rfl⟩

/-- **A call that asks for a name that is not listed** is answered so, unless the sink
fails, and has no chance to be routed. -/
theorem wp_serve_unlisted (hadmitted : admission lib settings request = .ok payload)
    (hname : payload.lookup (lit "model") = some (.str name)) (hunlisted : name ∉ listing settings) :
    (lone me).wp (serve lib settings limit me request rid)
      (fun reply _ l => (∀ e ∈ l, Early e.call) ∧
        ((∀ entry ∈ l, fault entry = none) → reply = errorReply "unknown_model" 404 rid))
      (fun _ _ l => (∀ e ∈ l, Early e.call) ∧ ¬ ∀ entry ∈ l, fault entry = none) w [] := by
  simp only [serve, chat, wp_bind, setVars, wp_update, wp_finallyDo, wp_tryCatch, chatTry, wp_read]
  refine wp_mono (fun payload' w₁ l₁ h₁ => ?_) (fun e w₁ l₁ h₁ => ?_) wp_readRequest
  · obtain ⟨hcalls, hwaited, hsame⟩ := h₁
    obtain rfl := Except.ok.inj (hadmitted.symm.trans hsame)
    have hearly : ∀ e ∈ l₁, Early e.call := fun e he => by
      rw [hwaited.only e he]
      trivial
    refine wp_mono (fun _ _ _ h => h.elim) (fun e w₂ l₂ h₂ => ?_)
      (wp_open_unlisted hname hunlisted request.headers hearly)
    obtain ⟨hcause, hexchange, hopened, hearly₂⟩ := h₂
    rw [World.setCall_calls_self] at hexchange hopened
    have hnone : (w₂.calls me).exchange = none := by
      rw [hexchange, hcalls, World.setCall_calls_self]
    have hfaulty : (∃ entry ∈ l₂, (fault entry).isSome) → ¬ ∀ entry ∈ l₂, fault entry = none := by
      rintro ⟨entry, hentry, hsome⟩ hall
      rw [hall entry hentry] at hsome
      cases hsome
    refine wp_mono (fun reply w₃ l₃ h₃ => ?_) (fun e' w₃ l₃ h₃ => ?_) (wp_chatExcept_opened hnone hopened)
    · obtain ⟨hnone₃, rfl, rfl⟩ := h₃
      simp only [chatFinally, wp_bind, wp_read, hnone₃, wp_pure]
      refine ⟨hearly₂, fun hall => ?_⟩
      rcases hcause with rfl | hfault
      · rfl
      · exact absurd hall (hfaulty hfault)
    · obtain ⟨hnone₃, rfl, huncoded⟩ := h₃
      simp only [chatFinally, wp_bind, wp_read, hnone₃, wp_pure]
      rcases hcause with rfl | hfault
      · cases huncoded
      · exact ⟨hearly₂, hfaulty hfault⟩
  · rw [hadmitted] at h₁
    cases h₁.2.2

/-! ### The code of an unknown name -/

theorem lit_injective : Function.Injective lit := fun _ _ h =>
  String.toList_inj.1 (List.map_injective_iff.2 (fun _ _ hc => Char.toNat_inj.1 hc) h)

/-- An error reply shows its code. -/
theorem errorReply_code {code code' : String} {status status' : ℕ} {rid rid' : Str}
    (h : errorReply code status rid = errorReply code' status' rid') : code = code' := by
  simp only [errorReply, errorBody, Reply.error.injEq, Json.obj.injEq, List.cons.injEq, Prod.mk.injEq,
    Json.str.injEq, and_true, true_and] at h
  exact lit_injective h.2.1.1

/-- An error that does not name a model unknown. -/
theorem Known.ne_unknown {listed : List (String × ℕ)} {e : Err} (h : Known listed e)
    (hlisted : "unknown_model" ∉ listed.map Prod.fst) : (Application.failureOf e).2 ≠ "unknown_model" := by
  unfold Application.failureOf
  split
  · rename_i code status hcode
    rintro rfl
    rcases h _ status hcode with hmem | ⟨hcode, -⟩
    · exact hlisted (List.mem_map_of_mem hmem)
    · exact absurd hcode (by decide)
  · decide

/-- **An opening names a model unknown** only if the name is not listed. -/
theorem unlisted_of_cause {e : Err} (h : Cause settings payload w l e) (hlib : Foreign lib)
    (hl : ∀ entry ∈ l, Adapted lib entry) (hname : payload.lookup (lit "model") = some (.str name))
    (hcode : (failureOf e).2 = "unknown_model") : name ∉ listing settings := by
  cases h with
  | port hfault =>
    obtain ⟨entry, hentry, hfault⟩ := hfault
    exact absurd hcode (((hl entry hentry).known hlib hfault).ne_unknown (by decide))
  | unnamed hnone =>
    rw [hname] at hnone
    cases hnone
  | misnamed hvalue htext =>
    rw [hname] at hvalue
    exact absurd (Option.some.inj hvalue).symm (htext name)
  | unknown hname' hpair hmodel =>
    rw [hname] at hname'
    obtain rfl := Json.str.inj (Option.some.inj hname')
    exact not_mem_listing.2 ⟨hpair, hmodel⟩
  | misrouted _ _ _ _ _ => exact absurd hcode (by decide)
  | unlabelled _ _ _ => exact absurd hcode (by decide)
  | unreadable _ _ he =>
    have hknown : Known [] (.exc _) := (history_uncoded _ _ _ he).known
    exact absurd hcode (hknown.ne_unknown (by decide))
  | unavailable _ _ => exact absurd hcode (by decide)

/-- A reply that names a model unknown is that to a request for one that is not listed. -/
theorem wp_serve_unknown (hlib : Foreign lib) (hbody : ∀ e, request.body.ending = .raise e → Uncoded e) :
    (adapted lib me).wp (serve lib settings limit me request rid)
      (fun reply _ _ => ∀ status, reply = errorReply "unknown_model" status rid →
        ∃ payload, admission lib settings request = .ok payload ∧ modelOf payload ∉ listing settings)
      (fun _ _ _ => True) w [] := by
  refine wp_mono (fun reply w₁ l₁ h₁ status hreply => ?_) (fun _ _ _ _ => trivial)
    (wp_and (wp_adapted wp_serve_explained) (wp_alone_allowed _ _ _ _ trivial))
  obtain ⟨hexplained, hallowed⟩ := h₁
  obtain ⟨e, hmade, hexplained⟩ := hexplained (by rw [hreply]; rfl)
  have hcode : (failureOf e).2 = "unknown_model" := errorReply_code (hmade.symm.trans hreply)
  cases hexplained with
  | refused hrefused => exact absurd hcode ((admission_known hlib hbody e hrefused).ne_unknown (by decide))
  | unopened hadmitted hcause =>
    exact ⟨_, hadmitted, unlisted_of_cause hcause hlib hallowed.forall_mem (name_of_admission hadmitted) hcode⟩
  | undelivered _ hlast hanswer hverdict =>
    have hends := readsOut_of_adapted hallowed.forall_mem (List.mem_of_mem_head? hlast) hanswer
    exact absurd hcode ((verdict_known hlib hends e hverdict).ne_unknown (by decide))

/-! ### The listing -/

/-- What `models` answers and records, if the sink takes every record. -/
def discovered (lib : Lib) (settings : Settings) (headers : Headers) (requestId : Str) :
    Except Err Reply × List Event :=
  match authorize settings headers with
  | .ok _ =>
    (((lib.render (listBody settings)).mapError .exc).map (.completion · [(lit "x-request-id", requestId)]),
      [listEvent requestId])
  | .error e =>
    match e.gatewayError? with
    | some (code, status) =>
      (.ok (errorReply code status requestId), [rejectedEvent requestId code status])
    | none => (.error (.exc e), [])

/-- What is answered is right, and what is recorded as well unless the sink fails; a
listing is answered to nobody else, whatever the sink does. -/
structure Discovers (lib : Lib) (settings : Settings) (headers : Headers) (requestId : Str) (r : Except Err Reply)
    (l : List Entry) : Prop where
  emits : ∀ e ∈ l, ∃ record, e.call = .emit record
  exact : (∀ entry ∈ l, fault entry = none) →
    r = (discovered lib settings headers requestId).1 ∧ requests l = (discovered lib settings headers requestId).2
  guarded : ∀ body hs, r = .ok (.completion body hs) →
    r = (discovered lib settings headers requestId).1 ∧ authorize settings headers = .ok ()

/-- A record of `models` that the sink refuses leaves nothing to say of a run without faults. -/
theorem Discovers.of_fault {headers : Headers} {r : Except Err Reply}
    (hemits : ∀ e ∈ l, ∃ record, e.call = .emit record) (hfault : ∃ entry ∈ l, (fault entry).isSome)
    (hreply : ∀ body hs, r ≠ .ok (.completion body hs)) : Discovers lib settings headers rid r l where
  emits := hemits
  exact hall := by
    obtain ⟨entry, hentry, hsome⟩ := hfault
    rw [hall entry hentry] at hsome
    cases hsome
  guarded body hs hr := absurd hr (hreply body hs)

/-- The handler of `models`, for what the sink raises. -/
theorem wp_modelsExcept_fault {headers : Headers} (e : Err) (hemits : ∀ e ∈ l, ∃ record, e.call = .emit record)
    (hfault : ∃ entry ∈ l, (fault entry).isSome) :
    (lone me).wp (modelsExcept rid e) (fun reply _ l => Discovers lib settings headers rid (.ok reply) l)
      (fun e _ l => Discovers lib settings headers rid (.error e) l) w l := by
  unfold modelsExcept
  split
  · rename_i code status _
    simp only [emit, wp_bind, wp_ask, wp_ofExcept]
    rintro a _ ⟨t, -, rfl⟩
    have hemits' : ∀ e ∈ (⟨t, .emit (.request (rejectedEvent rid code status)), a⟩ : Entry) :: l,
        ∃ record, e.call = .emit record := List.forall_mem_cons.2 ⟨⟨_, rfl⟩, hemits⟩
    have hfault' : ∃ entry ∈ (⟨t, .emit (.request (rejectedEvent rid code status)), a⟩ : Entry) :: l,
        (fault entry).isSome := hfault.imp fun entry h => ⟨List.mem_cons_of_mem _ h.1, h.2⟩
    cases a with
    | ok _ => exact .of_fault hemits' hfault' (by rintro _ _ ⟨⟩)
    | error e' => exact .of_fault hemits' hfault' (by rintro _ _ ⟨⟩)
  · exact .of_fault hemits hfault (by rintro _ _ ⟨⟩)

/-- **Every run of `models`** answers and records what it should. -/
theorem wp_models (hlib : Foreign lib) (headers : Headers) :
    (lone me).wp (models lib settings headers rid)
      (fun reply _ l => Discovers lib settings headers rid (.ok reply) l)
      (fun e _ l => Discovers lib settings headers rid (.error e) l) w [] := by
  simp only [models, modelsTry, lift, wp_tryCatch, wp_bind, wp_ofExcept]
  cases hauthorized : authorize settings headers with
  | ok u =>
    simp only [Except.mapError, ends_ok, emit, wp_bind, wp_ask, wp_ofExcept]
    rintro a _ ⟨t, -, rfl⟩
    cases a with
    | ok u' =>
      have hemits : ∀ e ∈ [(⟨t, .emit (.request (listEvent rid)), .ok u'⟩ : Entry)],
          ∃ record, e.call = .emit record := List.forall_mem_singleton.2 ⟨_, rfl⟩
      have hmade : discovered lib settings headers rid =
          (((lib.render (listBody settings)).mapError .exc).map (.completion · [(lit "x-request-id", rid)]),
            [listEvent rid]) := by
        rw [discovered, hauthorized]
      simp only [ends_ok]
      cases hrender : lib.render (listBody settings) with
      | ok body =>
        rw [hrender] at hmade
        refine ⟨hemits, fun _ => ?_, fun body hs hr => ?_⟩
        · rw [hmade]
          exact ⟨rfl, rfl⟩
        · rw [hmade]
          exact ⟨rfl, hauthorized⟩
      | error e =>
        rw [hrender] at hmade
        have huncoded : (Err.exc e).gatewayError? = none := hlib.render _ e hrender
        simp only [ends_error, modelsExcept, huncoded, wp_throw]
        exact ⟨hemits, fun _ => by rw [hmade]; exact ⟨rfl, rfl⟩, by rintro _ _ ⟨⟩⟩
    | error e => exact wp_modelsExcept_fault e (List.forall_mem_singleton.2 ⟨_, rfl⟩) ⟨_, List.mem_cons_self, rfl⟩
  | error e =>
    have hmade : discovered lib settings headers rid = match e.gatewayError? with
        | some (code, status) => (.ok (errorReply code status rid), [rejectedEvent rid code status])
        | none => (.error (.exc e), []) := by
      rw [discovered, hauthorized]
    simp only [Except.mapError, ends_error, modelsExcept]
    split
    · rename_i code status hcode
      have hcode : e.gatewayError? = some (code, status) := hcode
      rw [hcode] at hmade
      simp only [emit, wp_bind, wp_ask, wp_ofExcept]
      rintro a _ ⟨t, -, rfl⟩
      have hemits : ∀ e ∈ [(⟨t, .emit (.request (rejectedEvent rid code status)), a⟩ : Entry)],
          ∃ record, e.call = .emit record := List.forall_mem_singleton.2 ⟨_, rfl⟩
      cases a with
      | ok u => exact ⟨hemits, fun _ => by rw [hmade]; exact ⟨rfl, rfl⟩, by rintro _ _ ⟨⟩⟩
      | error e' => exact .of_fault hemits ⟨_, List.mem_cons_self, rfl⟩ (by rintro _ _ ⟨⟩)
    · rename_i hcode
      have hcode : e.gatewayError? = none := hcode
      rw [hcode] at hmade
      exact ⟨by rintro _ ⟨⟩, fun _ => by rw [hmade]; exact ⟨rfl, rfl⟩, by rintro _ _ ⟨⟩⟩

end

/-- What a client may believe of a listing: it is what `models` answers, a call for another
name is answered `unknown_model` (unless the sink fails) before anything is routed, and
no other call is. -/
structure Believable (lib : Lib) (settings : Settings) : Prop where
  listing : ∀ me headers rid w r w' l, (lone me).Run (models lib settings headers rid) w [] r w' l →
    Discovers lib settings headers rid r l
  unlisted : ∀ limit me request rid w r w' l payload,
    (lone me).Run (serve lib settings limit me request rid) w [] r w' l →
    admission lib settings request = .ok payload → modelOf payload ∉ Ingress.listing settings →
    (∀ e ∈ l, Early e.call) ∧
      ((∀ entry ∈ l, fault entry = none) → r = .ok (errorReply "unknown_model" 404 rid))
  listed : ∀ limit me request rid w w' l status, (∀ e, request.body.ending = .raise e → Uncoded e) →
    (adapted lib me).Run (serve lib settings limit me request rid) w [] (.ok (errorReply "unknown_model" status rid))
      w' l →
    ∃ payload, admission lib settings request = .ok payload ∧ modelOf payload ∉ Ingress.listing settings

/-- **A listing may be believed.**  It has the labels of the document that was loaded, each
of them once, and they are the names that calls may ask for: no more and no fewer. -/
theorem listing_believed (lib : Lib) (pydantic : Configuration.Pydantic) (hstrict : pydantic.Strict)
    (urlsplit : Str → Except String Configuration.SplitUrl) (environ : Str → Configuration.Variable) (doc : Json)
    (settings : Settings) (hlib : Foreign lib) (hdoc : doc.Proper)
    (hsettings : Configuration.load lib pydantic urlsplit environ doc = .ok settings) :
    listing settings = labelsOf doc "pairs" ++ labelsOf doc "models" ∧ (listing settings).Nodup ∧
      Believable lib settings := by
  obtain ⟨hpairs, hmodels⟩ := labels_of_load hstrict hsettings
  refine ⟨by rw [listing, hpairs, hmodels], listing_nodup hstrict hdoc hsettings, ?_⟩
  constructor
  case listing =>
    exact fun me headers rid w r w' l hrun => hrun.result (P := fun r _ l => Discovers lib settings headers rid r l)
      (wp_models hlib headers)
  case unlisted =>
    intro limit me request rid w r w' l payload hrun hadmitted hunlisted
    refine hrun.result (P := fun r _ l => (∀ e ∈ l, Early e.call) ∧
      ((∀ entry ∈ l, fault entry = none) → r = .ok (errorReply "unknown_model" 404 rid))) ?_
    refine wp_mono (fun reply _ _ h => ⟨h.1, fun hall => congrArg _ (h.2 hall)⟩)
      (fun _ _ _ h => ⟨h.1, fun hall => absurd hall h.2⟩)
      (wp_serve_unlisted hadmitted (name_of_admission hadmitted) hunlisted)
  case listed =>
    intro limit me request rid w w' l status hbody hrun
    exact hrun.ends (wp_serve_unknown hlib hbody) status rfl

namespace Demo

/-- The libraries, by which every body asks for a model that nobody has. -/
def nobodies : Lib :=
  { autos with
    loadsBytes := fun _ _ => .ok (.obj
      [(lit "model", .str (lit "nobody")), (lit "messages", .list [Switchyard.Demo.message "hi"])]) }

/-- The run of a call that asks for it. -/
def nobodyRun : Except Err Reply × World × List Entry :=
  exec (fun l q => (Application.Demo.now l, Application.Demo.answer (fun _ => .ok (Application.Demo.upstream 200))
    (.ok ()) (Application.Demo.now l) q))
    (serve nobodies paired.settings 1024 0 chatRequest (lit "r")) Application.Demo.world []

end Demo

/-- Three labels are listed, and a call that asks for a fourth is told so. -/
theorem listing_believed_nobody :
    listing Demo.paired.settings = [lit "auto", lit "big", lit "small"] ∧
      Demo.nobodyRun.1 = .ok (errorReply "unknown_model" 404 (lit "r")) := by
  have hload : Configuration.load Demo.nobodies Configuration.verbatim Configuration.localhost (fun _ => .unset)
      (.obj Demo.paired.dump) = .ok Demo.paired.settings := Demo.paired_loads
  have hforeign : Foreign Demo.nobodies := ⟨fun _ _ => .error rfl, fun _ _ => .ok, fun _ => .error rfl⟩
  obtain ⟨hlisting, -, hbelievable⟩ := listing_believed Demo.nobodies Configuration.verbatim
    Configuration.verbatim_strict Configuration.localhost (fun _ => .unset) (.obj Demo.paired.dump) _ hforeign
    (by decide +kernel) hload
  have hrun : (lone 0).Run (serve Demo.nobodies Demo.paired.settings 1024 0 Demo.chatRequest (lit "r"))
      Application.Demo.world [] Demo.nobodyRun.1 Demo.nobodyRun.2.1 Demo.nobodyRun.2.2 :=
    run_of_exec _ (fun _ _ => trivial) rfl
  refine ⟨hlisting.trans (by decide +kernel), ?_⟩
  refine (hbelievable.unlisted _ _ _ _ _ _ _ _ _ hrun (by rfl) (by decide +kernel)).2 ?_
  decide +kernel

end Ingress
end SwitchyardGateway
