/-
# What leaves the gateway besides replies

Records and errors say nothing of what a client sent and of what an upstream answered.
The texts of a record are labels of the configuration, the name of the call, the keys of a
usage and the gateway's own codes (`Tidy`); the rest of it are numbers and members of small
enumerations.  An error reply is a code and the status that goes with it, and a record that
names a code has that status too.

A record is made from the event of the call, so this is an invariant of the event, kept by
every write, and of the log, kept by every record (`Sanitized`).  No error is written before
a call has failed (`Unfailed`), so no later write parts a code from its status.  The codes
themselves need more: the error that `Gateway.open` or `chat` records is one that a part of
the call has raised, and `known_of_cause` and `verdict_known` say what those are.
-/

import SwitchyardGateway.Ingress.Codes

namespace SwitchyardGateway
namespace Ingress

open Coop Coop.Discipline Python Application

/-- A replica of a configured model, by the labels of both. -/
def Replica (settings : Settings) (model endpoint : Str) : Prop :=
  ∃ label m, settings.models.lookup label = some m ∧ m.name = model ∧ ∃ e ∈ m.endpoints, e.name = endpoint

/-- A name that requests are routed by: that of a model, or of a pair. -/
def Routable (settings : Settings) (name : Str) : Prop :=
  (settings.models.lookup name).isSome ∨ ∃ key pair, settings.pairs.lookup key = some pair ∧ pair.name = name

/-- An event of which every text is a label, a key of a usage, a code or the call's name. -/
structure Tidy (settings : Settings) (requestId : Str) (ev : Event) : Prop where
  requestId : ev.requestId = requestId
  route : ∀ name ∈ ev.route, Routable settings name
  model : ∀ name ∈ ev.model, ∃ label model, settings.models.lookup label = some model ∧ model.name = name
  endpoint : ∀ name ∈ ev.endpoint, ∃ model, Replica settings model name
  usage : ∀ counts ∈ ev.usage, Counts counts
  error : ∀ code ∈ ev.error, ∃ status ∈ ev.status, Listed errors code status

/-- One of a call that has not failed. -/
def Unfailed (settings : Settings) (requestId : Str) (ev : Event) : Prop :=
  Tidy settings requestId ev ∧ ev.error = none

/-- A record of which this is true. -/
def Sanitary (settings : Settings) (requestId : Str) : Record → Prop
  | .request event => Tidy settings requestId event
  | .retry rid model endpoint => rid = requestId ∧ Replica settings model endpoint
  | .replicaFailure rid model endpoint _ => rid = requestId ∧ Replica settings model endpoint

/-- Every record of a log is sanitary. -/
def Recording (settings : Settings) (requestId : Str) (l : List Entry) : Prop :=
  ∀ t record a, (⟨t, .emit record, a⟩ : Entry) ∈ l → Sanitary settings requestId record

/-- The event of a call satisfies `E`, and its records are sanitary. -/
def Keeping (E : Event → Prop) (settings : Settings) (requestId : Str) (me : ℕ) (w : World)
    (l : List Entry) : Prop :=
  E (w.calls me).event ∧ Recording settings requestId l

/-- The invariant of a call with an event. -/
abbrev Sanitized (settings : Settings) (requestId : Str) : ℕ → World → List Entry → Prop :=
  Keeping (Tidy settings requestId) settings requestId

/-- The invariant of a call that is opening. -/
abbrev Unspoilt (settings : Settings) (requestId : Str) : ℕ → World → List Entry → Prop :=
  Keeping (Unfailed settings requestId) settings requestId

/-- A question that is no record. -/
def Mute : Call → Prop
  | .emit _ => False
  | _ => True

variable {lib : Lib} {settings : Settings} {limit me : ℕ} {request : Request} {payload : Payload} {rid : Str}
  {model : Model} {endpoint : Endpoint} {E : Event → Prop} {w : World} {l : List Entry}

/-! ### Events and logs -/

/-- A log with one more answer. -/
theorem Recording.cons (h : Recording settings rid l) {t : ℚ} {q : Call} {a : Answer q}
    (hq : ∀ record, q = .emit record → Sanitary settings rid record) :
    Recording settings rid (⟨t, q, a⟩ :: l) := by
  intro t' record a' hmem
  rcases List.mem_cons.1 hmem with heq | hmem
  · cases heq
    exact hq record rfl
  · exact h t' record a' hmem

theorem Mute.ne_emit {q : Call} (hq : Mute q) (record : Record) : q ≠ .emit record := by
  rintro rfl
  exact hq

/-- An event is as tidy as another with the same texts. -/
theorem Tidy.congr {ev ev' : Event} (h : Tidy settings rid ev) (hid : ev'.requestId = ev.requestId)
    (hroute : ev'.route = ev.route) (hmodel : ev'.model = ev.model) (hendpoint : ev'.endpoint = ev.endpoint)
    (husage : ev'.usage = ev.usage) (hstatus : ev'.status = ev.status) (herror : ev'.error = ev.error) :
    Tidy settings rid ev' where
  requestId := hid.trans h.requestId
  route := hroute ▸ h.route
  model := hmodel ▸ h.model
  endpoint := hendpoint ▸ h.endpoint
  usage := husage ▸ h.usage
  error := by
    rw [herror, hstatus]
    exact h.error

/-- A label of a configured model and of one of its replicas. -/
theorem replica_of_mem {label : Str} (hmodel : settings.models.lookup label = some model)
    (hendpoint : endpoint ∈ model.endpoints) : Replica settings model.name endpoint.name :=
  ⟨label, model, hmodel, rfl, endpoint, hendpoint, rfl⟩

/-! ### Opening -/

section Opening

/-- What is written and asked while nothing is recorded. -/
theorem sanitized_neutral (E : Event → Prop) (settings : Settings) (rid : Str) (me : ℕ) :
    Neutral (lone me) me Mute (fun f => ∀ ev, E ev → E (f ev)) (Keeping E settings rid me) :=
  .of_calls (P := fun c l => E c.event ∧ Recording settings rid l)
    (fun _ _ _ _ _ hq h => ⟨h.1, h.2.cons fun record heq => (hq.ne_emit record heq).elim⟩)
    fun c _ _ hf h => ⟨hf c.event h.1, h.2⟩

theorem tableFree_sanitized : TableFree (Keeping E settings rid me) := fun w w' l hcalls h => by
  unfold Keeping
  rwa [hcalls]

theorem Preparing.mute {q : Call} (hq : Preparing q) : Mute q := by
  cases q <;> first | exact hq.elim | trivial

/-- A record is emitted. -/
theorem preserves_emit_sanitary {record : Record} (hrecord : Sanitary settings rid record) :
    (lone me).Preserves (Keeping E settings rid me) (emit record) fun _ => True := by
  intro w l h
  simp only [emit, wp_bind, wp_ask, wp_ofExcept]
  rintro a _ ⟨t, -, rfl⟩
  have hcons : Keeping E settings rid me w (⟨t, .emit record, a⟩ :: l) :=
    ⟨h.1, h.2.cons fun record' heq => by
      obtain rfl := Call.emit.inj heq
      exact hrecord⟩
  cases a with
  | ok _ => exact ⟨trivial, hcons⟩
  | error e => exact hcons

/-- The event of the call is what the invariant says. -/
theorem preserves_eventOf_sanitized : (lone me).Preserves (Keeping E settings rid me) (eventOf me) E :=
  fun _ _ h => ⟨h.1, h⟩

/-- A write of texts and numbers, but for status and error. -/
theorem Unfailed.congr {ev ev' : Event} (h : Unfailed settings rid ev) (hid : ev'.requestId = ev.requestId)
    (hroute : ev'.route = ev.route) (hmodel : ev'.model = ev.model) (hendpoint : ev'.endpoint = ev.endpoint)
    (husage : ev'.usage = ev.usage) (herror : ev'.error = ev.error) : Unfailed settings rid ev' where
  left := { h.1 with
    requestId := hid.trans h.1.requestId
    route := hroute ▸ h.1.route
    model := hmodel ▸ h.1.model
    endpoint := hendpoint ▸ h.1.endpoint
    usage := husage ▸ h.1.usage
    error := fun code hcode => by
      rw [herror, h.2] at hcode
      cases hcode }
  right := herror.trans h.2

theorem preserves_routeTier_sanitized (request : Payload) (name : Str) :
    (lone me).Preserves (Unspoilt settings rid me)
      (routeTier settings me request name) fun _ => True := by
  have hn := sanitized_neutral (Unfailed settings rid) settings rid me
  have hroute : ∀ name, Routable settings name → (lone me).Preserves
      (Unspoilt settings rid me) (updateEvent me fun ev => { ev with route := some name }) fun _ => True :=
    fun name hname => hn.updateEvent _ fun ev hev => ⟨{ hev.1 with
      route := fun name' hname' => by
        obtain rfl := Option.some.inj hname'
        exact hname }, hev.2⟩
  unfold routeTier
  split
  · rename_i pair hpair
    refine (hroute _ (.inr ⟨name, pair, hpair, rfl⟩)).bind fun _ _ => (hn.route (fun _ => Preparing.mute) _ _).bind
      fun decision _ => ?_
    split
    · exact .ret trivial
    · split
      · exact .ret trivial
      · exact .throw
  · split
    · rename_i hmodel
      exact (hroute _ (.inl hmodel)).bind fun _ _ => .ret trivial
    · exact .throw

theorem preserves_routeRequest_sanitized (request : Payload) :
    (lone me).Preserves (Unspoilt settings rid me)
      (routeRequest settings me request) fun r => ∃ label, settings.models.lookup label = some r.2 := by
  have hn := sanitized_neutral (Unfailed settings rid) settings rid me
  unfold routeRequest
  split
  · refine (hn.clock fun _ => Preparing.mute).bind fun _ _ => ?_
    split
    · refine (preserves_routeTier_sanitized _ _).bind fun (_, label, _) _ => ?_
      dsimp only
      cases hmodel : settings.models.lookup label with
      | some model =>
        refine (hn.clock fun _ => Preparing.mute).bind fun _ _ => ?_
        refine (hn.updateEvent _ ?_).bind fun _ _ => .ret ⟨label, hmodel⟩
        refine fun ev hev => ⟨{ hev.1 with model := fun name hname => ?_ }, hev.2⟩
        obtain rfl := Option.some.inj hname
        exact ⟨label, model, hmodel, rfl⟩
      | none => exact .throw
    · split
      · exact .throw
      · exact .throw
  · exact .throw

theorem preserves_prepare_sanitized (request : Payload) (headers : Headers) :
    (lone me).Preserves (Unspoilt settings rid me)
      (prepare lib settings me request headers) fun r => ∃ label, settings.models.lookup label = some r.1 := by
  have hn := sanitized_neutral (Unfailed settings rid) settings rid me
  have hcompress : ∀ f, Compressing f → ∀ ev, Unfailed settings rid ev → Unfailed settings rid (f ev) := by
    intro f hf ev hev
    have hid := congrArg Event.requestId (hf ev)
    have hroute := congrArg Event.route (hf ev)
    have hmodel := congrArg Event.model (hf ev)
    have hendpoint := congrArg Event.endpoint (hf ev)
    have husage := congrArg Event.usage (hf ev)
    have herror := congrArg Event.error (hf ev)
    exact hev.congr hid hroute hmodel hendpoint husage herror
  unfold prepare
  refine (preserves_routeRequest_sanitized request).bind fun r hr => ?_
  refine (hn.clock fun _ => Preparing.mute).bind fun _ _ => ?_
  refine (hn.compressHistory (fun _ => Preparing.mute) hcompress _ _ _).bind fun prepared _ => ?_
  refine (hn.clock fun _ => Preparing.mute).bind fun _ _ => ?_
  refine (hn.updateEvent _ ?_).bind fun _ _ => .ret hr
  exact fun ev hev => hev.congr rfl rfl rfl rfl rfl rfl

theorem preserves_emitFailure_sanitized (hreplica : Replica settings model.name endpoint.name)
    (cause : FailureCause) : (lone me).Preserves (Unspoilt settings rid me)
      (emitFailure me model endpoint cause) fun _ => True := by
  unfold emitFailure
  exact preserves_eventOf_sanitized.bind fun ev hev => preserves_emit_sanitary ⟨hev.1.requestId, hreplica⟩

theorem preserves_emitRetry_sanitized (hreplica : Replica settings model.name endpoint.name) (attempt : ℕ) :
    (lone me).Preserves (Unspoilt settings rid me) (emitRetry me model endpoint attempt) fun _ => True := by
  unfold emitRetry
  split
  · exact .ret trivial
  · exact preserves_eventOf_sanitized.bind fun ev hev => preserves_emit_sanitary ⟨hev.1.requestId, hreplica⟩

theorem preserves_answered_sanitized (hreplica : Replica settings model.name endpoint.name)
    (started upstreamStarted : ℚ) (attempt : ℕ) (excluded : List Str) (upstream : Upstream) :
    (lone me).Preserves (Unspoilt settings rid me)
      (answered lib settings me model started upstreamStarted attempt endpoint excluded upstream) fun _ => True := by
  have hn := sanitized_neutral (Unfailed settings rid) settings rid me
  have hcool : (lone me).Preserves (Unspoilt settings rid me)
      (coolRejected lib settings me model endpoint upstream) fun _ => True := by
    unfold coolRejected
    split
    · exact (hn.cooldown tableFree_sanitized trivial trivial _ _).bind fun _ _ =>
        preserves_emitFailure_sanitized hreplica _
    · exact .ret trivial
  have hconclude : ∀ exchange discarded, (lone me).Preserves (Unspoilt settings rid me)
      (conclude me exchange discarded) fun _ => True := by
    intro exchange discarded
    cases discarded with
    | true => exact (hn.close trivial).bind fun _ _ => .ret trivial
    | false =>
      refine (hn.call (q := .clock) trivial).bind fun now _ => (hn.updateEvent _ ?_).bind fun _ _ => .ret trivial
      exact fun ev hev => hev.congr rfl rfl rfl rfl rfl rfl
  unfold answered
  refine (hn.updateEvent _ ?_).bind fun _ _ => hcool.bind fun _ _ => ?_
  · exact fun ev hev => hev.congr rfl rfl rfl rfl rfl rfl
  · exact Preserves.bind (fun _ _ h => hn.discards trivial _ _ _ _ h) fun discarded _ => hconclude _ _

/-- **A round** writes the label of its replica, and records it. -/
theorem preserves_attemptOnce_sanitized (hreplica : Replica settings model.name endpoint.name)
    (prepared : Payload) (forwarded : Headers) (started upstreamStarted : ℚ) (attempt : ℕ) (excluded : List Str) :
    (lone me).Preserves (Unspoilt settings rid me) (attemptOnce lib settings me model prepared forwarded started
      upstreamStarted attempt endpoint excluded) fun _ => True := by
  have hn := sanitized_neutral (Unfailed settings rid) settings rid me
  have hsend : (lone me).Preserves (Unspoilt settings rid me)
      (trySend lib settings me model prepared forwarded attempt endpoint) fun _ => True := by
    unfold trySend
    refine Preserves.tryCatch ?_ fun e => ?_
    · exact ((hn.await (q := .send model endpoint prepared forwarded) trivial).bind fun _ _ => .ofExcept).bind
        fun _ _ => .ret trivial
    · split
      · refine (hn.cooldown tableFree_sanitized trivial trivial _ _).bind fun _ _ => ?_
        refine (preserves_emitFailure_sanitized hreplica .connect).bind fun _ _ => ?_
        split
        · exact .ret trivial
        · exact .throw
      · exact .throw
  unfold attemptOnce
  refine (hn.updateEvent _ ?_).bind fun _ _ => (preserves_emitRetry_sanitized hreplica attempt).bind fun _ _ => ?_
  · refine fun ev hev => ⟨{ hev.1 with endpoint := fun name hname => ?_ }, hev.2⟩
    obtain rfl := Option.some.inj hname
    exact ⟨_, hreplica⟩
  · refine hsend.bind fun answer _ => ?_
    cases answer with
    | none => exact .ret trivial
    | some upstream => exact preserves_answered_sanitized hreplica _ _ _ _ _

theorem preserves_attempts_sanitized {label : Str} (hmodel : settings.models.lookup label = some model)
    (prepared : Payload) (forwarded : Headers) (started upstreamStarted : ℚ) (rounds : List ℕ)
    (excluded : List Str) : (lone me).Preserves (Unspoilt settings rid me)
      (attempts lib settings me model prepared forwarded started upstreamStarted rounds excluded) fun _ => True := by
  induction rounds generalizing excluded with
  | nil => exact .throw
  | cons attempt rounds ih =>
    refine ((sanitized_neutral _ _ _ _).select tableFree_sanitized trivial (fun _ _ => trivial) model excluded).bind
      fun index _ => ?_
    refine (preserves_attemptOnce_sanitized (replica_of_mem hmodel (List.get_mem _ index)) _ _ _ _ _ _).bind
      fun r _ => ?_
    cases r with
    | some exchange => exact .ret trivial
    | none => exact ih _

/-- **Opening an exchange** keeps the event and the log sanitized. -/
theorem preserves_openInner_sanitized (request : Payload) (headers : Headers) (started : ℚ) :
    (lone me).Preserves (Unspoilt settings rid me) (Gateway.openInner lib settings me request headers started)
      fun _ => True := by
  unfold Gateway.openInner
  refine (preserves_prepare_sanitized request headers).bind fun r hr => ?_
  obtain ⟨label, hlabel⟩ := hr
  exact ((sanitized_neutral _ _ _ _).call (q := .clock) trivial).bind fun _ _ =>
    preserves_attempts_sanitized hlabel _ _ _ _ _ _

end Opening

/-- A failed opening is recorded and raised with a known code. -/
theorem wp_open_sanitized (hlib : Foreign lib) {headers : Headers} (hrecording : Recording settings rid l)
    (hl : Allowed (fun _ => Adapted lib) l) :
    (adapted lib me).wp (Gateway.open lib settings me payload headers rid)
      (fun _ w l => Sanitized settings rid me w l)
      (fun e w l => Sanitized settings rid me w l ∧ Known errors e) w l := by
  simp only [Gateway.open, wp_bind, clock, wp_ask, wp_update, wp_tryCatch]
  rintro started _ ⟨t, hanswer, rfl⟩
  have hbegun : Unspoilt settings rid me (w.setCall me fun c =>
      { c with event := { requestId := rid, attempts := some 0 } }) (⟨t, .clock, started⟩ :: l) := by
    refine ⟨?_, hrecording.cons fun _ heq => by cases heq⟩
    rw [World.setCall_calls_self]
    refine ⟨?_, rfl⟩
    constructor <;> first | rfl | (rintro _ ⟨⟩)
  refine wp_mono (fun _ _ _ h => ⟨h.1.2.1.1, h.1.2.2⟩) (fun e w₁ l₁ h₁ => ?_) (wp_and
    (wp_adapted (preserves_openInner_sanitized payload headers started _ _ hbegun))
    (wp_and (wp_adapted (wp_openInner_caused payload headers started))
      (wp_alone_allowed _ _ _ _ ⟨hanswer, hl⟩)))
  obtain ⟨hsanitized, hcause, hallowed⟩ := h₁
  have hknown : Known errors e := known_of_cause hcause hlib hallowed.forall_mem
  simp only [updateEvent, eventOf, emit, wp_update, wp_read, wp_pure, wp_ask, wp_bind, wp_ofExcept, wp_throw]
  rintro now _ ⟨t₁, -, rfl⟩ a _ ⟨t₂, hemitted, rfl⟩
  have hevent := (sanitized_neutral _ _ _ _).event w₁ (⟨t₁, .clock, now⟩ :: l₁) (fun ev =>
    { ev with
      outcome := some (if e = .cancelled then .cancelled else .failed)
      status := some (failureOf e).1
      error := some (failureOf e).2
      totalMs := some ((now - started) * 1000) }) (fun ev hev => { hev with
        error := fun code hcode => by
          obtain rfl := Option.some.inj hcode
          exact ⟨_, rfl, hknown.failureOf⟩ }) ⟨hsanitized.1.1, hsanitized.2.cons fun _ heq => by cases heq⟩
  have hrecorded := hevent.2.cons (t := t₂) (a := a) fun record heq => by
    obtain rfl := Call.emit.inj heq
    exact hevent.1
  cases a with
  | ok _ => exact ⟨⟨hevent.1, hrecorded⟩, hknown⟩
  | error e' => exact ⟨⟨hevent.1, hrecorded⟩, (hemitted e' rfl).known⟩

/-! ### A whole call -/

/-- The invariant of a call: its event is tidy once it holds an exchange. -/
def Guarded (settings : Settings) (requestId : Str) (me : ℕ) (w : World) (l : List Entry) : Prop :=
  ((w.calls me).exchange = none ∨ Tidy settings requestId (w.calls me).event) ∧ Recording settings requestId l

theorem Sanitized.guarded (h : Sanitized settings rid me w l) : Guarded settings rid me w l := ⟨.inr h.1, h.2⟩

theorem Relays.tidy {f : Event → Event} (h : Relays f) (ev : Event) (hev : Tidy settings rid ev) :
    Tidy settings rid (f ev) := by
  cases h with
  | firstByte ms => exact hev.congr rfl rfl rfl rfl rfl rfl rfl
  | usage counts hcounts => exact { hev with
      usage := fun counts' h' => by
        obtain rfl := Option.some.inj h'
        exact hcounts }
  | outcome outcome => exact hev.congr rfl rfl rfl rfl rfl rfl rfl

theorem preserves_setVars_sanitized {f : CallState → CallState} (hf : ∀ c, (f c).event = c.event) :
    (lone me).Preserves (Sanitized settings rid me) (setVars me f) fun _ => True := by
  intro w l h
  rw [setVars, wp_update]
  refine ⟨trivial, ?_, h.2⟩
  rw [World.setCall_calls_self, hf]
  exact h.1

/-- **Finishing** records a tidy event. -/
theorem preserves_finish_sanitized (exchange : Exchange) (outcome : Outcome) :
    (lone me).Preserves (Sanitized settings rid me) (Gateway.finish me exchange outcome) fun _ => True := by
  have hn := sanitized_neutral (Tidy settings rid) settings rid me
  have hclosed : (lone me).Preserves (Sanitized settings rid me) (close exchange.response).attempt fun _ => True :=
    ((hn.close trivial).bind fun _ _ => .ret trivial).tryCatch fun _ => .ret trivial
  have hnote : ∀ r, (lone me).Preserves (Sanitized settings rid me) (noteClose me outcome r) fun _ => True := by
    intro r
    cases r with
    | ok _ => exact .ret trivial
    | error e =>
      refine (hn.updateEvent _ ?_).bind fun _ _ => .ret trivial
      exact fun ev hev => hev.congr rfl rfl rfl rfl rfl rfl rfl
  have hraise : ∀ r, (lone me).Preserves (Sanitized settings rid me) (raiseUnlessException r) fun _ => True := by
    intro r
    cases r with
    | ok _ => exact .ret trivial
    | error e =>
      cases e with
      | exc e => exact .ret trivial
      | cancelled => exact .throw
      | exit => exact .throw
  unfold Gateway.finish
  refine hn.read.bind fun w _ => ?_
  split
  · exact .ret trivial
  · refine (preserves_setVars_sanitized fun _ => by rfl).bind fun _ _ => hclosed.bind fun r _ => ?_
    refine (hnote r).bind fun _ _ => (hn.call (q := .clock) trivial).bind fun now _ => ?_
    refine (hn.updateEvent _ ?_).bind fun _ _ => preserves_eventOf_sanitized.bind fun ev hev => ?_
    · exact fun ev hev => hev.congr rfl rfl rfl rfl rfl rfl rfl
    · exact (preserves_emit_sanitary (show Sanitary settings rid (.request ev) from hev)).bind fun _ _ => hraise r

theorem Guarded.setCall (h : Guarded settings rid me w l) {f : CallState → CallState}
    (hf : ∀ c, (f c).event = c.event ∧ (f c).exchange = c.exchange) :
    Guarded settings rid me (w.setCall me f) l := by
  refine ⟨?_, h.2⟩
  rw [World.setCall_calls_self, (hf _).1, (hf _).2]
  exact h.1

/-- A reply that is an error of the gateway's own. -/
def Coded (requestId : Str) (reply : Reply) : Prop :=
  ∃ code status, Listed errors code status ∧ reply = errorReply code status requestId

theorem wp_refuse_sanitized {code : String} {status : ℕ} {outcome : Outcome} (hcode : Listed errors code status)
    (h : Guarded settings rid me w l) :
    (lone me).wp (refuse me rid code status outcome)
      (fun reply w l => Guarded settings rid me w l ∧ Coded rid reply)
      (fun _ w l => Guarded settings rid me w l) w l := by
  have hcoded : Coded rid (errorReply code status rid) := ⟨code, status, hcode, rfl⟩
  refine wp_refuse (fun hsome => ⟨⟨?_, h.2⟩, hcoded⟩) (fun _ _ => ⟨h, hcoded⟩) fun hnone _ a l₁ ha => ?_
  · rw [World.setCall_calls_self]
    refine h.1.imp_right fun hev => { hev with error := fun code' hcode' => ?_ }
    obtain rfl := Option.some.inj hcode'
    exact ⟨_, rfl, hcode⟩
  · obtain ⟨t, -, rfl⟩ := ha
    have hrecord : Tidy settings rid { requestId := rid, status := some status, outcome := some outcome,
                                       error := some code } := by
      constructor <;> first | rfl | (rintro _ ⟨⟩)
      exact ⟨status, rfl, hcode⟩
    have hguarded : Guarded settings rid me w (⟨t, .emit (.request
        { requestId := rid, status := some status, outcome := some outcome, error := some code }), a⟩ :: l) :=
      ⟨h.1, h.2.cons fun record heq => by
        obtain rfl := Call.emit.inj heq
        exact hrecord⟩
    cases a with
    | ok _ => exact ⟨hguarded, hcoded⟩
    | error e => exact hguarded

/-- **The `except` arms** answer with a code of the list. -/
theorem wp_chatExcept_sanitized {e : Err} (hknown : Known errors e) (h : Guarded settings rid me w l) :
    (lone me).wp (chatExcept me rid e) (fun reply w l => Guarded settings rid me w l ∧ Coded rid reply)
      (fun _ w l => Guarded settings rid me w l) w l := by
  cases e with
  | exc e =>
    simp only [chatExcept]
    split
    · rename_i code status hcode
      exact wp_refuse_sanitized (hknown code status hcode) h
    · exact wp_refuse_sanitized (.inl (by decide)) h
  | cancelled =>
    simp only [chatExcept, wp_bind, setVars, wp_update, wp_throw]
    exact h.setCall fun _ => ⟨rfl, rfl⟩
  | exit => exact h

theorem preserves_chatFinally_sanitized :
    (lone me).Preserves (Guarded settings rid me) (chatFinally me) fun _ => True := by
  intro w l h
  simp only [chatFinally, wp_bind, wp_read]
  split
  · rename_i exchange hexchange _
    have hsanitized : Sanitized settings rid me w l := ⟨h.1.resolve_left (by rw [hexchange]; rintro ⟨⟩), h.2⟩
    exact wp_mono (fun _ _ _ h => ⟨trivial, h.2.guarded⟩) (fun _ _ _ h => h.guarded)
      (preserves_finish_sanitized exchange _ w l hsanitized)
  · exact ⟨trivial, h⟩

/-- **A stream** writes counts and its outcome, and is finished. -/
theorem preserves_ownedStream_sanitized (exchange : Exchange) (aliasName : Str) :
    (lone me).Preserves (Sanitized settings rid me) (OwnedStream.call lib limit me exchange aliasName)
      fun _ => True := by
  have hn := sanitized_neutral (Tidy settings rid) settings rid me
  have hstream : (lone me).Preserves (Sanitized settings rid me) (callStream lib limit me exchange aliasName)
      fun _ => True :=
    preserves_callStream hn (fun q hq => by cases q <;> first | exact hq.elim | trivial) fun _ hf => hf.tidy
  have hpop : ∀ outcome, (lone me).Preserves (Sanitized settings rid me) (popStreamOutcome me outcome)
      fun _ => True := by
    intro outcome
    refine hn.eventOf.bind fun _ _ => (hn.updateEvent _ ?_).bind fun _ _ => .ret trivial
    exact fun ev hev => hev.congr rfl rfl rfl rfl rfl rfl rfl
  unfold OwnedStream.call
  refine (preserves_setVars_sanitized fun _ => by rfl).bind fun _ _ => (hstream.tryCatch fun e => ?_).finallyDo ?_
  · cases e with
    | cancelled => exact (preserves_setVars_sanitized fun _ => by rfl).bind fun _ _ => .throw
    | exc e => exact .throw
    | exit => exact .throw
  · exact hn.read.bind fun w _ => (hpop _).bind fun outcome _ => preserves_finish_sanitized exchange outcome

theorem preserves_deliver_sanitized (exchange : Exchange) :
    (lone me).Preserves (Sanitized settings rid me) (deliver lib limit me payload rid exchange) fun _ => True := by
  intro w l h
  have hvars : ∀ (f : CallState → CallState) w l, (∀ c, (f c).event = c.event) → Sanitized settings rid me w l →
      Sanitized settings rid me (w.setCall me f) l := by
    intro f w l hf h
    refine ⟨?_, h.2⟩
    rw [World.setCall_calls_self, hf]
    exact h.1
  refine wp_mono (fun reply w₁ l₁ h₁ => ?_) (fun e w₁ l₁ h₁ => ?_)
    (wp_deliver (C := fun _ => Sanitized settings rid me) (H := Sanitized settings rid me)
      (sanitized_neutral _ _ _ _) trivial trivial (fun ms => (Relays.firstByte ms).tidy)
      (fun counts hcounts => (Relays.usage counts hcounts).tidy) (fun w l _ _ h => hvars _ w l (fun _ => rfl) h)
      (fun w l h => hvars _ w l (fun _ => rfl) h) h)
  · rcases h₁ with ⟨headers, hreply, h₂⟩ | ⟨value, body, headers, hreply, hcompletes, hrender, h₂⟩
    · exact ⟨trivial, h₂⟩
    · exact ⟨trivial, h₂⟩
  · rcases h₁ with ⟨hno, h₂⟩ | ⟨value, e', hcompletes, hrender, he, h₂⟩
    · exact h₂
    · exact h₂

/-- What makes a call fail is known. -/
theorem Failing.known {e : Err} (h : Failing lib settings limit request me w l e) (hlib : Foreign lib)
    (hbody : ∀ e, request.body.ending = .raise e → Uncoded e) (hl : ∀ entry ∈ l, Adapted lib entry) :
    Known errors e := by
  cases h with
  | refused _ hrefused => exact (admission_known hlib hbody e hrefused).mono refusals_subset
  | unopened _ _ _ hcause => exact known_of_cause hcause hlib hl
  | undelivered _ _ _ hlast hanswer hverdict =>
    have hends := readsOut_of_adapted hl (List.mem_of_mem_head? hlast) hanswer
    exact (verdict_known hlib hends e hverdict).mono answerErrors_subset

/-- **The `try` of `chat`** keeps the invariant, and raises what is known. -/
theorem wp_chatTry_sanitized (hlib : Foreign lib) (hbody : ∀ e, request.body.ending = .raise e → Uncoded e)
    (hexchange : (w.calls me).exchange = none) (hhanded : (w.calls me).handedOff = false) :
    (adapted lib me).wp (chatTry lib settings limit me request rid)
      (fun _ w l => Sanitized settings rid me w l)
      (fun e w l => Guarded settings rid me w l ∧ Known errors e) w [] := by
  have hwaiting : Neutral (lone me) me Mute (fun _ => True)
      fun w l => (w.calls me).exchange = none ∧ Recording settings rid l :=
    .of_calls (P := fun c l => c.exchange = none ∧ Recording settings rid l)
      (fun _ _ _ _ _ hq h => ⟨h.1, h.2.cons fun record heq => (hq.ne_emit record heq).elim⟩) fun _ _ _ _ h => h
  have hkept : (adapted lib me).wp (chatTry lib settings limit me request rid)
      (fun _ w l => Sanitized settings rid me w l) (fun _ w l => Guarded settings rid me w l) w [] := by
    simp only [chatTry, wp_bind, setVars, wp_update]
    refine wp_mono (fun payload w₁ l₁ h₁ => ?_) (fun e w₁ l₁ h₁ => ⟨.inl h₁.1.1, h₁.1.2⟩) (wp_and
      (wp_adapted (preserves_readRequest hwaiting trivial request w [] ⟨hexchange, fun _ _ _ h => by cases h⟩))
      (wp_alone_allowed _ _ _ _ trivial))
    obtain ⟨⟨-, -, hrecording⟩, hallowed⟩ := h₁
    refine wp_mono (fun exchange w₂ l₂ h₂ => ?_) (fun _ _ _ h => h.1.guarded)
      (wp_open_sanitized hlib hrecording hallowed)
    have hheld : Sanitized settings rid me (w₂.setCall me fun c =>
        { c with exchange := some exchange, finished := false }) l₂ := by
      refine ⟨?_, h₂.2⟩
      rw [World.setCall_calls_self]
      exact h₂.1
    exact wp_mono (fun _ _ _ h => h.2) (fun _ _ _ h => h.guarded)
      (wp_adapted (preserves_deliver_sanitized exchange _ l₂ hheld))
  refine wp_mono (fun _ _ _ h => h.1) (fun e w₁ l₁ h₁ => ?_) (wp_and hkept (wp_and
    (wp_adapted (wp_chatTry_failing hexchange hhanded)) (wp_alone_allowed _ _ _ _ trivial)))
  obtain ⟨hguarded, hfailing, hallowed⟩ := h₁
  exact ⟨hguarded, hfailing.known hlib hbody hallowed.forall_mem⟩

/-- **Nothing else leaves the gateway.**  Among the adapters, over libraries that do
anything, every record of a call has labels, codes, counts and numbers only, and every
error that the client sees is a code and a status. -/
theorem serve_sanitized (hlib : Foreign lib) (hbody : ∀ e, request.body.ending = .raise e → Uncoded e)
    {w' : World} {r : Except Err Reply}
    (h : (adapted lib me).Run (serve lib settings limit me request rid) w [] r w' l) :
    Recording settings rid l ∧ ∀ reply, r = .ok reply → reply.isError = true → Coded rid reply := by
  have hfinally : ∀ {w l}, Guarded settings rid me w l → (adapted lib me).wp (chatFinally me)
      (fun _ w l => Guarded settings rid me w l) (fun _ w l => Guarded settings rid me w l) w l := fun h =>
    wp_adapted (wp_mono (fun _ _ _ h => h.2) (fun _ _ _ h => h) (preserves_chatFinally_sanitized _ _ h))
  have hchat : (adapted lib me).wp (chat lib settings limit me request rid)
      (fun reply w l => Guarded settings rid me w l ∧ (reply.isError = true → Coded rid reply))
      (fun _ w l => Guarded settings rid me w l) w [] := by
    simp only [chat, wp_bind, setVars, wp_update, wp_finallyDo, wp_tryCatch]
    refine wp_mono (fun reply w₁ l₁ h₁ => ?_) (fun e w₁ l₁ h₁ => ?_) (wp_and
      (wp_chatTry_sanitized hlib hbody (by rw [World.setCall_calls_self]) (by rw [World.setCall_calls_self]))
      (wp_adapted (wp_chatTry_made (by rw [World.setCall_calls_self]) rfl rfl)))
    · -- what was made from an exchange is no error
      obtain ⟨hsanitized, payload, exchange, a, -, hmade⟩ := h₁
      refine wp_mono (fun _ w₂ l₂ h₂ => ⟨h₂, fun herror => ?_⟩) (fun _ _ _ h => h) (hfinally hsanitized.guarded)
      cases reply with
      | error status body headers => exact hmade.made.elim
      | _ => cases herror
    · refine wp_mono (fun reply w₂ l₂ h₂ => ?_) (fun e' w₂ l₂ h₂ => ?_)
        (wp_adapted (wp_chatExcept_sanitized h₁.1.2 h₁.1.1))
      · exact wp_mono (fun _ _ _ h₃ => ⟨h₃, fun _ => h₂.2⟩) (fun _ _ _ h => h) (hfinally h₂.1)
      · exact wp_mono (fun _ _ _ h => h) (fun _ _ _ h => h) (hfinally h₂)
  have hserve : (adapted lib me).wp (serve lib settings limit me request rid)
      (fun reply _ l => Recording settings rid l ∧ (reply.isError = true → Coded rid reply))
      (fun _ _ l => Recording settings rid l) w [] := by
    simp only [serve, wp_bind, wp_read]
    refine wp_mono (fun reply w₁ l₁ h₁ => ?_) (fun _ _ _ h => h.2) hchat
    split
    · rename_i aliasName headers exchange hexchange
      have hsanitized : Sanitized settings rid me w₁ l₁ :=
        ⟨h₁.1.1.resolve_left (by rw [hexchange]; rintro ⟨⟩), h₁.1.2⟩
      rw [wp_bind]
      exact wp_mono (fun _ _ _ h => ⟨h.2.2, h₁.2⟩) (fun _ _ _ h => h.2)
        (wp_adapted (preserves_ownedStream_sanitized exchange aliasName w₁ l₁ hsanitized))
    · exact ⟨h₁.1.2, h₁.2⟩
  refine h.result (P := fun r _ l => Recording settings rid l ∧
    ∀ reply, r = .ok reply → reply.isError = true → Coded rid reply) ?_
  refine wp_mono (fun reply w₁ l₁ h₁ => ⟨h₁.1, fun reply' heq => ?_⟩)
    (fun e w₁ l₁ h₁ => ⟨h₁, fun _ heq => ?_⟩) hserve
  · obtain rfl := Except.ok.inj heq
    exact h₁.2
  · cases heq

namespace Demo

/-- A client that cannot connect the first time and is answered 500 the second. -/
def flaky (l : List Entry) (_ : Httpx.Request) : Except Httpx.Failure Upstream :=
  if (sends l).isEmpty then .error .connectError else .ok (Application.Demo.upstream 500)

/-- The adapters, over it and over a library that routes nothing. -/
def failing (l : List Entry) (q : Call) : ℚ × Answer q :=
  (Application.Demo.now l, match q with
    | .route request pair => Switchyard.route bodies (fun _ _ => .error (.exc .other)) request pair
    | .send _ endpoint request headers => Httpx.HttpxTransport.send (flaky l) endpoint request headers
    | q => Application.Demo.answer (fun _ => .ok (Application.Demo.upstream 500)) (.ok ())
        (Application.Demo.now l) q)

/-- The run of a call that fails over and fails. -/
def failedRun : Except Err Reply × World × List Entry :=
  exec failing (serve bodies Application.Demo.settings 1024 0 chatRequest (lit "r")) Application.Demo.world []

theorem foreign_bodies : Foreign bodies where
  loads _ _ := .error rfl
  loadsBytes _ data := by
    change RaisesOnly _ (if data = _ then _ else if data = _ then _ else if data = _ then _ else _)
    repeat' split
    all_goals first | exact .ok | exact .error rfl
  render value := by
    change RaisesOnly _ (render value)
    unfold render
    repeat' split
    all_goals first | exact .ok | exact .error rfl

theorem failing_adapted (l : List Entry) (q : Call) : Adapted bodies ⟨(failing l q).1, q, (failing l q).2⟩ := by
  cases q with
  | route request pair => exact ⟨_, fun _ _ => .error (show Uncoded (.exc .other) from rfl), rfl⟩
  | send model endpoint request headers =>
    refine ⟨flaky l, fun http e he => ?_, fun http upstream hsent => ?_, rfl⟩
    · unfold flaky at he
      split at he <;> cases he
    · unfold flaky at hsent
      split at hsent
      · cases hsent
      · obtain rfl := Except.ok.inj hsent
        exact fun e he => by cases he
  | _ => exact fun e he => by cases he

end Demo

/-- A call that fails over is answered 500, and its three records and its answer say so in
the gateway's own words. -/
theorem serve_sanitized_failing : (retries Demo.failedRun.2.2).length = 1 ∧
    (replicaFailures Demo.failedRun.2.2).length = 1 ∧
    Recording Application.Demo.settings (lit "r") Demo.failedRun.2.2 ∧
    ∃ reply, Demo.failedRun.1 = .ok reply ∧ reply.isError = true ∧ Coded (lit "r") reply := by
  have hrun : (adapted Demo.bodies 0).Run
      (serve Demo.bodies Application.Demo.settings 1024 0 Demo.chatRequest (lit "r")) Application.Demo.world []
      Demo.failedRun.1 Demo.failedRun.2.1 Demo.failedRun.2.2 :=
    run_of_exec Demo.failing Demo.failing_adapted rfl
  have hended : Demo.failedRun.1.toOption.map Reply.isError = some true := by decide +kernel
  obtain ⟨hrecording, hcoded⟩ := serve_sanitized Demo.foreign_bodies (fun e he => by cases he) hrun
  refine ⟨by decide +kernel, by decide +kernel, hrecording, ?_⟩
  cases hreply : Demo.failedRun.1 with
  | error e =>
    rw [hreply] at hended
    cases hended
  | ok reply =>
    rw [hreply] at hended
    have herror : reply.isError = true := Option.some.inj hended
    exact ⟨reply, rfl, herror, hcoded reply hreply herror⟩

end Ingress
end SwitchyardGateway
