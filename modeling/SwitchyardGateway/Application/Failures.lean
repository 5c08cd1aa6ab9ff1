/-
# Why an opening fails

An error of `Gateway.open` is what a port has answered, or one of the gateway's own.
Each of those has one cause, which is in the request, in the configuration, in what the
ports answered, or in the cooldown table (`Cause`): an unknown model was named by the
request, a tier by the router, and there is no available replica only if every replica
of the model was tried by this call or was cooling down when the clock was read.

`wp_open_caused` finds the cause of every failed opening.
-/

import SwitchyardGateway.Application.Sends

namespace SwitchyardGateway
namespace Application

open Coop Coop.Discipline Python

/-- The error that a port answered with. -/
def fault : Entry → Option Err
  | ⟨_, .emit _, .error e⟩ => some e
  | ⟨_, .route _ _, .error e⟩ => some e
  | ⟨_, .compress _ _, .error e⟩ => some e
  | ⟨_, .send _ _ _ _, .error e⟩ => some e
  | ⟨_, .close _, .error e⟩ => some e
  | ⟨_, .respond, .error e⟩ => some e
  | _ => none

/-- A port has answered with the error. -/
def Faulted (e : Err) (l : List Entry) : Prop := ∃ entry ∈ l, fault entry = some e

/-- The request was routed to a model: by its name, or by what the router answered. -/
inductive RoutedTo (settings : Settings) (request : Payload) (l : List Entry) : Payload → Model → Prop where
  | direct {name : Str} {model : Model} : request.lookup (lit "model") = some (.str name) →
      settings.pairs.lookup name = none → settings.models.lookup name = some model →
      RoutedTo settings request l request model
  | capable {name : Str} {pair : Pair} {decision : RoutingResult} {model : Model} {t : ℚ} :
      request.lookup (lit "model") = some (.str name) → settings.pairs.lookup name = some pair →
      (⟨t, .route request pair, .ok decision⟩ : Entry) ∈ l → decision.tier = lit "capable" →
      settings.models.lookup pair.capable = some model → RoutedTo settings request l decision.request model
  | efficient {name : Str} {pair : Pair} {decision : RoutingResult} {model : Model} {t : ℚ} :
      request.lookup (lit "model") = some (.str name) → settings.pairs.lookup name = some pair →
      (⟨t, .route request pair, .ok decision⟩ : Entry) ∈ l → decision.tier = lit "efficient" →
      settings.models.lookup pair.efficient = some model → RoutedTo settings request l decision.request model

/-- What is compressible in the request that is sent to a model. -/
def history (model : Model) (routed : Payload) : Except Exc (List ℕ) :=
  match ((Dict.merge model.defaults routed).set (lit "model") (.str model.modelId)).lookup (lit "messages") with
  | some messages => eligibleIndices messages
  | none => .error .keyError

/-- A replica was tried by this call. -/
def TriedBefore (model : Model) (endpoint : Endpoint) (l : List Entry) : Prop :=
  ∃ a ∈ sends l, a.model = model ∧ a.endpoint.name = endpoint.name

/-- A replica was cooling down at a reading of the clock. -/
def Resting (w : World) (model : Model) (endpoint : Endpoint) (l : List Entry) : Prop :=
  ∃ t now, (⟨t, .clock, now⟩ : Entry) ∈ l ∧ now < w.deadline (model.name, endpoint.name)

/-- Why `Gateway.open` raises: a port did, or the request, the configuration, the router
or the table is why the gateway did. -/
inductive Cause (settings : Settings) (request : Payload) (w : World) (l : List Entry) : Err → Prop where
  | port {e : Err} : Faulted e l → Cause settings request w l e
  | unnamed : request.lookup (lit "model") = none → Cause settings request w l (.exc .keyError)
  | misnamed {value : Json} : request.lookup (lit "model") = some value → (∀ name, value ≠ .str name) →
      Cause settings request w l
        (if hashable value then gatewayError "unknown_model" 404 else .exc .typeError)
  | unknown {name : Str} : request.lookup (lit "model") = some (.str name) →
      settings.pairs.lookup name = none → settings.models.lookup name = none →
      Cause settings request w l (gatewayError "unknown_model" 404)
  | misrouted {name : Str} {pair : Pair} {decision : RoutingResult} {t : ℚ} :
      request.lookup (lit "model") = some (.str name) → settings.pairs.lookup name = some pair →
      (⟨t, .route request pair, .ok decision⟩ : Entry) ∈ l →
      decision.tier ≠ lit "capable" → decision.tier ≠ lit "efficient" →
      Cause settings request w l (gatewayError "invalid_routing_result")
  | unlabelled {name : Str} {pair : Pair} : request.lookup (lit "model") = some (.str name) →
      settings.pairs.lookup name = some pair →
      (settings.models.lookup pair.capable = none ∨ settings.models.lookup pair.efficient = none) →
      Cause settings request w l (.exc .keyError)
  | unreadable {routed : Payload} {model : Model} {e : Exc} : RoutedTo settings request l routed model →
      settings.compression = true → history model routed = .error e → Cause settings request w l (.exc e)
  | unavailable {routed : Payload} {model : Model} : RoutedTo settings request l routed model →
      (∀ endpoint ∈ model.endpoints, TriedBefore model endpoint l ∨ Resting w model endpoint l) →
      Cause settings request w l (gatewayError "no_available_replica" 503)

section

variable {settings : Settings} {request routed : Payload} {model : Model} {endpoint : Endpoint} {w w' : World}
  {l l' : List Entry} {e : Err}

/-! ### Causes last -/

theorem Faulted.mono (h : Faulted e l) (hl : l <:+ l') : Faulted e l' := by
  obtain ⟨entry, hentry, hfault⟩ := h
  exact ⟨entry, hl.subset hentry, hfault⟩

theorem RoutedTo.mono (h : RoutedTo settings request l routed model) (hl : l <:+ l') :
    RoutedTo settings request l' routed model := by
  cases h with
  | direct hname hpair hmodel => exact .direct hname hpair hmodel
  | capable hname hpair hasked htier hmodel => exact .capable hname hpair (hl.subset hasked) htier hmodel
  | efficient hname hpair hasked htier hmodel => exact .efficient hname hpair (hl.subset hasked) htier hmodel

/-- Attempts are only added to a log. -/
theorem sends_subset (hl : l <:+ l') : sends l ⊆ sends l' := by
  obtain ⟨newer, rfl⟩ := hl
  induction newer with
  | nil => exact List.Subset.refl _
  | cons entry newer ih =>
    obtain ⟨t, q, a⟩ := entry
    cases q with
    | send model endpoint request headers => exact fun a ha => List.mem_cons_of_mem _ (ih ha)
    | _ => exact ih

theorem TriedBefore.mono (h : TriedBefore model endpoint l) (hl : l <:+ l') : TriedBefore model endpoint l' := by
  obtain ⟨a, ha, hmodel, hname⟩ := h
  exact ⟨a, sends_subset hl ha, hmodel, hname⟩

theorem Resting.mono (h : Resting w model endpoint l) (hl : l <:+ l') (hw : w'.cooldowns = w.cooldowns) :
    Resting w' model endpoint l' := by
  obtain ⟨t, now, hnow, hlt⟩ := h
  refine ⟨t, now, hl.subset hnow, ?_⟩
  unfold World.deadline at hlt ⊢
  rwa [hw]

/-- A cause stays one while the log grows and the cooldown table stays as it is. -/
theorem Cause.mono (h : Cause settings request w l e) (hl : l <:+ l') (hw : w'.cooldowns = w.cooldowns) :
    Cause settings request w' l' e := by
  cases h with
  | port hfault => exact .port (hfault.mono hl)
  | unnamed hname => exact .unnamed hname
  | misnamed hname htext => exact .misnamed hname htext
  | unknown hname hpair hmodel => exact .unknown hname hpair hmodel
  | misrouted hname hpair hasked hcapable hefficient =>
    exact .misrouted hname hpair (hl.subset hasked) hcapable hefficient
  | unlabelled hname hpair hlabel => exact .unlabelled hname hpair hlabel
  | unreadable hrouted hcompression he => exact .unreadable (hrouted.mono hl) hcompression he
  | unavailable hrouted hnone =>
    exact .unavailable (hrouted.mono hl) fun endpoint hendpoint =>
      (hnone endpoint hendpoint).imp (fun h => h.mono hl) fun h => h.mono hl hw

end

/-! ### Parts that only a port can fail -/

section

variable {rely : World → World → Prop} {ok : List Entry → Entry → Prop} {lib : Lib} {settings : Settings}
  {me : ℕ} {w : World} {l : List Entry}

/-- The sink has taken a record, or has raised. -/
theorem wp_emit_faulted (record : Record) :
    (alone rely ok).wp (emit record) (fun _ _ l' => l <:+ l') (fun e _ l' => Faulted e l') w l := by
  simp only [emit, wp_bind, wp_ask, wp_ofExcept]
  rintro a _ ⟨t, -, rfl⟩
  cases a with
  | ok _ => exact List.suffix_cons _ _
  | error e => exact ⟨_, List.mem_cons_self, rfl⟩

/-- A tier was chosen, and says which label the request goes to. -/
inductive Chosen (settings : Settings) (request : Payload) (name : Str) (l : List Entry) :
    Payload → Str → Prop where
  | direct : settings.pairs.lookup name = none → (settings.models.lookup name).isSome = true →
      Chosen settings request name l request name
  | capable {pair : Pair} {decision : RoutingResult} {t : ℚ} : settings.pairs.lookup name = some pair →
      (⟨t, .route request pair, .ok decision⟩ : Entry) ∈ l → decision.tier = lit "capable" →
      Chosen settings request name l decision.request pair.capable
  | efficient {pair : Pair} {decision : RoutingResult} {t : ℚ} : settings.pairs.lookup name = some pair →
      (⟨t, .route request pair, .ok decision⟩ : Entry) ∈ l → decision.tier = lit "efficient" →
      Chosen settings request name l decision.request pair.efficient

theorem wp_routeTier_caused {request : Payload} {name : Str}
    (hname : request.lookup (lit "model") = some (.str name)) :
    (alone rely ok).wp (routeTier settings me request name)
      (fun r _ l => Chosen settings request name l r.1 r.2.1)
      (fun e w l => Cause settings request w l e) w l := by
  unfold routeTier
  split
  · rename_i pair hpair
    simp only [wp_bind, updateEvent, wp_update, route, wp_askAwait, wp_ofExcept]
    refine ⟨trivial, ?_⟩
    rintro w₁ _ ⟨-, rfl⟩ answer _ ⟨t, -, rfl⟩
    cases answer with
    | error e => exact .port ⟨_, List.mem_cons_self, rfl⟩
    | ok decision =>
      simp only [ends_ok, wp_ite, wp_pure, wp_throw]
      split
      · rename_i hcapable
        exact .capable hpair List.mem_cons_self hcapable
      · rename_i hcapable
        split
        · rename_i hefficient
          exact .efficient hpair List.mem_cons_self hefficient
        · rename_i hefficient
          exact .misrouted hname hpair List.mem_cons_self hcapable hefficient
  · rename_i hpair
    split
    · rename_i hmodel
      simp only [wp_bind, updateEvent, wp_update, wp_pure]
      exact .direct hpair hmodel
    · rename_i hmodel
      exact .unknown hname hpair (Option.not_isSome_iff_eq_none.1 hmodel)

theorem Chosen.routed {request prepared : Payload} {name label : Str} {model : Model}
    (h : Chosen settings request name l prepared label)
    (hname : request.lookup (lit "model") = some (.str name)) (hmodel : settings.models.lookup label = some model) :
    RoutedTo settings request l prepared model := by
  cases h with
  | direct hpair _ => exact .direct hname hpair hmodel
  | capable hpair hasked htier => exact .capable hname hpair hasked htier hmodel
  | efficient hpair hasked htier => exact .efficient hname hpair hasked htier hmodel

/-- A label that no model has is the configuration's. -/
theorem Chosen.unlabelled {request prepared : Payload} {name label : Str}
    (h : Chosen settings request name l prepared label)
    (hname : request.lookup (lit "model") = some (.str name)) (hmodel : settings.models.lookup label = none) :
    Cause settings request w l (.exc .keyError) := by
  cases h with
  | direct _ hsome =>
    rw [hmodel] at hsome
    cases hsome
  | capable hpair _ _ => exact .unlabelled hname hpair (.inl hmodel)
  | efficient hpair _ _ => exact .unlabelled hname hpair (.inr hmodel)

/-- The request is routed, or there is a cause. -/
theorem wp_routeRequest_caused (request : Payload) :
    (alone rely ok).wp (routeRequest settings me request)
      (fun r _ l => RoutedTo settings request l r.1 r.2) (fun e w l => Cause settings request w l e) w l := by
  unfold routeRequest
  split
  · rename_i requested hrequested
    simp only [wp_bind, clock, wp_ask]
    rintro started _ ⟨t, -, rfl⟩
    split
    · rename_i name
      rw [wp_bind]
      refine wp_mono (fun r w₁ l₁ h₁ => ?_) (fun _ _ _ h => h)
        (wp_routeTier_caused (w := w) (l := ⟨t, .clock, started⟩ :: l) hrequested)
      obtain ⟨routed, label, tier⟩ := r
      dsimp only
      cases hmodel : settings.models.lookup label with
      | some model =>
        simp only [wp_bind, wp_ask, updateEvent, wp_update, wp_pure]
        rintro now _ ⟨t₁, -, rfl⟩
        exact (h₁.routed hrequested hmodel).mono (List.suffix_cons _ _)
      | none => exact h₁.unlabelled hrequested hmodel
    · rename_i htext
      split
      · rename_i hhash
        have hcause : Cause settings request w (⟨t, .clock, started⟩ :: l) _ := .misnamed hrequested htext
        rwa [if_pos hhash] at hcause
      · rename_i hhash
        have hcause : Cause settings request w (⟨t, .clock, started⟩ :: l) _ := .misnamed hrequested htext
        rwa [if_neg hhash] at hcause
  · rename_i hnone
    exact .unnamed (Option.eq_none_iff_forall_ne_some.2 hnone)

/-- Compressing raises only what is no `Exception`, and then it is the compressor's. -/
theorem wp_compressRows_faulted (model : Model) (messages : List Json) (indices : List ℕ) :
    (alone rely ok).wp (compressRows me model messages indices) (fun _ _ _ => True)
      (fun e _ l => (∃ x, e = .exc x) ∨ Faulted e l) w l := by
  simp only [compressRows, compress, wp_bind, wp_askAwait, wp_ofExcept]
  refine ⟨trivial, ?_⟩
  rintro w₁ _ ⟨-, rfl⟩ answer _ ⟨t, -, rfl⟩
  cases answer with
  | error e => exact .inr ⟨_, List.mem_cons_self, rfl⟩
  | ok result =>
    rw [ends_ok]
    split
    · simp only [lift, wp_bind, wp_ofExcept]
      cases sameStructure (indices.filterMap (messages[·]?)) result.messages with
      | error x => exact .inl ⟨x, rfl⟩
      | ok same =>
        cases same with
        | true =>
          simp only [Except.mapError, ends_ok, if_true, wp_bind, updateEvent, wp_update, wp_pure]
        | false => exact .inl ⟨_, rfl⟩
    · exact .inl ⟨_, rfl⟩

/-- The history is compressed or left as it is, or there is a cause. -/
theorem wp_compressHistory_caused {request routed : Payload} {model : Model} {headers : Headers}
    (h : RoutedTo settings request l routed model) :
    (alone rely ok).wp (compressHistory lib settings me model headers
        ((Dict.merge model.defaults routed).set (lit "model") (.str model.modelId)))
      (fun _ _ _ => True) (fun e w l => Cause settings request w l e) w l := by
  simp only [compressHistory, wp_bind, updateEvent, wp_update]
  split
  · rename_i hcompression
    split
    · rename_i messages hmessages
      have hhistory : history model routed = eligibleIndices messages := by rw [history, hmessages]
      simp only [lift, wp_bind, wp_ofExcept]
      cases heligible : eligibleIndices messages with
      | error e => exact .unreadable h hcompression.1 (hhistory.trans heligible)
      | ok indices =>
        simp only [Except.mapError, ends_ok, wp_update]
        split
        · rename_i index indices rows
          simp only [wp_tryCatch, wp_bind, wp_pure]
          refine wp_mono (fun _ _ _ _ => trivial) (fun e w₁ l₁ h₁ => ?_)
            (wp_compressRows_faulted model rows (index :: indices))
          rcases h₁ with ⟨x, rfl⟩ | hfault
          · simp only [wp_bind, wp_update, wp_pure]
          · cases e with
            | exc x => simp only [wp_bind, wp_update, wp_pure]
            | cancelled => exact .port hfault
            | exit => exact .port hfault
        · trivial
    · rename_i hnone
      refine .unreadable h hcompression.1 ?_
      rw [history, Option.eq_none_iff_forall_ne_some.2 hnone]
  · trivial

/-- **A request is prepared**, or there is a cause. -/
theorem wp_prepare_caused (request : Payload) (headers : Headers) :
    (alone rely ok).wp (prepare lib settings me request headers)
      (fun r _ l => ∃ routed, RoutedTo settings request l routed r.1)
      (fun e w l => Cause settings request w l e) w l := by
  simp only [prepare, wp_bind]
  refine wp_mono (fun r w₁ l₁ h₁ => ?_) (fun _ _ _ h => h) (wp_routeRequest_caused request)
  obtain ⟨routed, model⟩ := r
  simp only [clock, wp_ask]
  rintro compressStarted _ ⟨t, -, rfl⟩
  have h₂ : RoutedTo settings request (⟨t, .clock, compressStarted⟩ :: l₁) routed model :=
    h₁.mono (List.suffix_cons _ _)
  refine wp_mono (fun prepared w₃ l₃ h₃ => ?_) (fun _ _ _ h => h.1)
    (wp_and (wp_compressHistory_caused h₂) (wp_alone_suffix rely ok _ _ (List.suffix_refl _)))
  rintro now _ ⟨t₁, -, rfl⟩
  simp only [updateEvent, wp_update, wp_pure]
  exact ⟨routed, (h₂.mono h₃.2).mono (List.suffix_cons _ _)⟩

/-! ### Attempts -/

/-- A replica is passed over because it is excluded or cooling down. -/
def Passed (w : World) (model : Model) (excluded : List Str) (endpoint : Endpoint) (l : List Entry) : Prop :=
  endpoint.name ∈ excluded ∨ Resting w model endpoint l

/-- What a scan has passed over when it finds nothing. -/
theorem wp_selectFrom_passed (model : Model) (excluded : List Str) (start : ℕ)
    (offsets : List (Fin model.endpoints.length)) :
    (alone rely ok).wp (Gateway.selectFrom model excluded start offsets) (fun _ _ l' => l <:+ l')
      (fun e w' l' => e = gatewayError "no_available_replica" 503 ∧ w'.cooldowns = w.cooldowns ∧ l <:+ l' ∧
        ∀ offset ∈ offsets, ∀ i : Fin model.endpoints.length, (start + offset) % model.endpoints.length = i →
          Passed w' model excluded (model.endpoints.get i) l') w l := by
  induction offsets generalizing l with
  | nil => exact ⟨rfl, rfl, List.suffix_refl l, fun _ h => (List.not_mem_nil h).elim⟩
  | cons offset offsets ih =>
    have hindex : ∀ i : Fin model.endpoints.length, (start + (offset : ℕ)) % model.endpoints.length = i →
        (⟨(start + offset) % model.endpoints.length, Nat.mod_lt _ (Nat.zero_lt_of_lt offset.isLt)⟩ :
          Fin model.endpoints.length) = i := fun i hi => Fin.ext hi
    unfold Gateway.selectFrom
    dsimp only
    split
    · rename_i hmem
      refine wp_mono (fun _ _ _ h => h) (fun e w₁ l₁ h₁ => ⟨h₁.1, h₁.2.1, h₁.2.2.1, ?_⟩) ih
      intro o ho i hi
      rcases List.mem_cons.1 ho with rfl | ho
      · rw [← hindex i hi]
        exact .inl hmem
      · exact h₁.2.2.2 o ho i hi
    · simp only [wp_bind, wp_read, clock, wp_ask]
      rintro now _ ⟨t, -, rfl⟩
      split
      · simp only [wp_bind, wp_update, wp_ask, wp_pure]
        rintro _ _ ⟨t₁, -, rfl⟩
        exact (List.suffix_cons _ _).trans (List.suffix_cons _ _)
      · rename_i hlt
        have hgrown : l <:+ (⟨t, .clock, now⟩ : Entry) :: l := List.suffix_cons _ _
        refine wp_mono (fun _ _ _ h => hgrown.trans h) (fun e w₁ l₁ h₁ => ?_) ih
        obtain ⟨he, hcooldowns, hsuffix, hrest⟩ := h₁
        refine ⟨he, hcooldowns, hgrown.trans hsuffix, fun o ho i hi => ?_⟩
        rcases List.mem_cons.1 ho with rfl | ho
        · rw [← hindex i hi]
          have hresting : Resting w model (model.endpoints.get ⟨(start + o) % model.endpoints.length,
              Nat.mod_lt _ (Nat.zero_lt_of_lt o.isLt)⟩) (⟨t, .clock, now⟩ :: l) :=
            ⟨t, now, List.mem_cons_self, not_le.1 hlt⟩
          exact .inr (hresting.mono hsuffix hcooldowns)
        · exact hrest o ho i hi

/-- **A selection** fails only if every replica is excluded or cooling down. -/
theorem wp_select_passed (model : Model) (excluded : List Str) :
    (alone rely ok).wp (Gateway.select model excluded) (fun _ _ l' => l <:+ l')
      (fun e w' l' => e = gatewayError "no_available_replica" 503 ∧ l <:+ l' ∧
        ∀ endpoint ∈ model.endpoints, Passed w' model excluded endpoint l') w l := by
  simp only [Gateway.select, wp_bind, wp_read]
  refine wp_mono (fun _ _ _ h => h) (fun e w₁ l₁ h₁ => ?_) (wp_selectFrom_passed model excluded _ _)
  obtain ⟨he, -, hsuffix, hpassed⟩ := h₁
  refine ⟨he, hsuffix, fun endpoint hendpoint => ?_⟩
  obtain ⟨i, rfl⟩ := List.mem_iff_get.1 hendpoint
  obtain ⟨offset, hoffset⟩ := exists_offset ((w.positions model.name).getD 0) i
  exact hpassed offset (List.mem_finRange _) i hoffset

/-- Cooling a replica down does not fail, and recording its failure fails by the sink. -/
theorem wp_failover_faulted {model : Model} {endpoint : Endpoint} {cause : FailureCause} {retryAfter : Str} :
    (alone rely ok).wp (Gateway.cooldown lib settings (model.name, endpoint.name) retryAfter)
      (fun _ => (alone rely ok).wp (emitFailure me model endpoint cause) (fun _ _ l' => l <:+ l')
        (fun e _ l => Faulted e l)) (fun e _ l => Faulted e l) w l := by
  refine wp_cooldown fun date l₁ hdate now l₂ hnow => ?_
  have hgrown : l <:+ l₂ := by
    obtain ⟨t, -, rfl⟩ := hnow
    rcases hdate with ⟨rfl, -⟩ | ⟨t', -, rfl⟩
    · exact List.suffix_cons _ _
    · exact (List.suffix_cons _ _).trans (List.suffix_cons _ _)
  simp only [emitFailure, eventOf, wp_bind, wp_read, wp_pure]
  exact wp_mono (fun _ _ _ h => hgrown.trans h) (fun _ _ _ h => h) (wp_emit_faulted _)

theorem wp_coolRejected_faulted (model : Model) (endpoint : Endpoint) (upstream : Upstream) :
    (alone rely ok).wp (coolRejected lib settings me model endpoint upstream) (fun _ _ _ => True)
      (fun e _ l => Faulted e l) w l := by
  unfold coolRejected
  split
  · rw [wp_bind]
    exact wp_mono (fun _ _ _ h => wp_mono (fun _ _ _ _ => trivial) (fun _ _ _ h => h) h) (fun _ _ _ h => h)
      wp_failover_faulted
  · trivial

/-- A response is dealt with, or a port has raised; it is discarded only in the first
round. -/
theorem wp_answered_faulted (model : Model) (started upstreamStarted : ℚ) (attempt : ℕ)
    (endpoint : Endpoint) (excluded : List Str) (upstream : Upstream) :
    (alone rely ok).wp
      (answered lib settings me model started upstreamStarted attempt endpoint excluded upstream)
      (fun r _ _ => r = none → attempt = 0) (fun e _ l => Faulted e l) w l := by
  have htrue : Neutral (alone rely ok) me (fun _ => True) (fun _ => True) fun _ _ => True :=
    .of_alone (fun _ _ _ _ _ => trivial) (fun _ _ _ _ _ _ _ _ => trivial) fun _ _ _ _ _ => trivial
  simp only [answered, wp_bind, updateEvent, wp_update]
  refine wp_mono (fun _ w₁ l₁ _ => ?_) (fun _ _ _ h => h) (wp_coolRejected_faulted model endpoint upstream)
  refine wp_mono (fun discarded w₂ l₂ h₂ => ?_) (fun _ _ _ h => h)
    (htrue.discards trivial model excluded attempt upstream trivial)
  cases discarded with
  | true =>
    simp only [conclude, wp_bind, close, wp_askAwait, wp_ofExcept, wp_pure]
    refine ⟨trivial, ?_⟩
    rintro w₃ _ ⟨-, rfl⟩ closed _ ⟨t, -, rfl⟩
    cases closed with
    | ok _ => exact fun _ => (h₂.1 rfl).2
    | error e => exact ⟨_, List.mem_cons_self, rfl⟩
  | false =>
    simp only [conclude, wp_bind, clock, wp_ask, updateEvent, wp_update, wp_pure]
    rintro now _ ⟨t, -, rfl⟩ hnone
    cases hnone

/-- **A round** tries its replica and ends with an exchange or, the first one, without; or
a port has raised. -/
theorem wp_attemptOnce_faulted (model : Model) (prepared : Payload) (forwarded : Headers)
    (started upstreamStarted : ℚ) (attempt : ℕ) (endpoint : Endpoint) (excluded : List Str) :
    (alone rely ok).wp (attemptOnce lib settings me model prepared forwarded started upstreamStarted attempt
      endpoint excluded)
      (fun r _ l => r = none → attempt = 0 ∧ TriedBefore model endpoint l) (fun e _ l => Faulted e l) w l := by
  have htried : ∀ (answer : Except Err Upstream) t l', TriedBefore model endpoint
      (⟨t, .send model endpoint prepared forwarded, answer⟩ :: l') := fun answer t l' =>
    ⟨⟨t, model, endpoint, prepared, forwarded, answer⟩, List.mem_cons_self, rfl, rfl⟩
  have hretry : (alone rely ok).wp (emitRetry me model endpoint attempt) (fun _ _ _ => True)
      (fun e _ l => Faulted e l) (w.setCall me fun c => { c with event :=
        { c.event with endpoint := some endpoint.name, attempts := some (attempt + 1) } }) l := by
    unfold emitRetry
    split
    · trivial
    · simp only [eventOf, wp_bind, wp_read, wp_pure]
      exact wp_mono (fun _ _ _ _ => trivial) (fun _ _ _ h => h) (wp_emit_faulted _)
  simp only [attemptOnce, wp_bind, updateEvent, wp_update]
  refine wp_mono (fun _ w₁ l₁ _ => ?_) (fun _ _ _ h => h) hretry
  refine wp_trySend trivial ?_ ?_ ?_
  · rintro w₂ l₂ upstream _ ⟨-, rfl⟩ ⟨t, -, rfl⟩
    refine wp_mono (fun r w₃ l₃ h₃ hnone => ⟨h₃.1 hnone, (htried _ t _).mono h₃.2⟩) (fun _ _ _ h => h.1)
      (wp_and (wp_answered_faulted model started upstreamStarted attempt endpoint excluded upstream)
        (wp_alone_suffix rely ok _ _ (List.suffix_refl _)))
  · rintro w₂ l₂ _ ⟨-, rfl⟩ ⟨t, -, rfl⟩
    refine wp_mono (fun _ w₃ l₃ h₃ => wp_mono (fun _ w₄ l₄ hgrown => ?_) (fun _ _ _ h => h) h₃)
      (fun _ _ _ h => h) wp_failover_faulted
    split
    · rename_i hfirst
      exact fun _ => ⟨hfirst, (htried _ t _).mono hgrown⟩
    · exact Faulted.mono ⟨_, List.mem_cons_self, rfl⟩ hgrown
  · rintro w₂ l₂ e _ ⟨-, rfl⟩ - ⟨t, -, rfl⟩
    exact ⟨_, List.mem_cons_self, rfl⟩

/-- No replica is left to a call that has tried what it excludes. -/
theorem unavailable_of_passed {request routed : Payload} {model : Model} {excluded : List Str}
    (h : RoutedTo settings request l routed model)
    (htried : ∀ endpoint ∈ model.endpoints, endpoint.name ∈ excluded → TriedBefore model endpoint l)
    (hpassed : ∀ endpoint ∈ model.endpoints, Passed w model excluded endpoint l) :
    Cause settings request w l (gatewayError "no_available_replica" 503) :=
  .unavailable h fun endpoint hendpoint => (hpassed endpoint hendpoint).imp_left (htried endpoint hendpoint)

/-- **The two rounds** end with an exchange, or there is a cause. -/
theorem wp_attempts_caused {request routed : Payload} {model : Model} (h : RoutedTo settings request l routed model)
    (prepared : Payload) (forwarded : Headers) (started upstreamStarted : ℚ) :
    (alone rely ok).wp (attempts lib settings me model prepared forwarded started upstreamStarted [0, 1] [])
      (fun _ _ _ => True) (fun e w l => Cause settings request w l e) w l := by
  simp only [attempts, wp_bind]
  refine wp_mono (fun index w₁ l₁ hgrown₁ => ?_) (fun e w₁ l₁ h₁ => ?_) (wp_select_passed model [])
  · refine wp_mono (fun r w₂ l₂ h₂ => ?_) (fun _ _ _ h => .port h.1)
      (wp_and (wp_attemptOnce_faulted model prepared forwarded started upstreamStarted 0 _ _)
        (wp_alone_suffix rely ok _ _ hgrown₁))
    cases r with
    | some exchange => trivial
    | none =>
      obtain ⟨htried, hgrown₂⟩ := h₂
      simp only [wp_bind]
      refine wp_mono (fun index' w₃ l₃ _ => ?_) (fun e w₃ l₃ h₃ => ?_) (wp_select_passed model _)
      · refine wp_mono (fun r w₄ l₄ h₄ => ?_) (fun _ _ _ h => .port h)
          (wp_attemptOnce_faulted model prepared forwarded started upstreamStarted 1 _ _)
        cases r with
        | some exchange => trivial
        | none => exact absurd (h₄ rfl).1 Nat.one_ne_zero
      · obtain ⟨rfl, hgrown₃, hpassed⟩ := h₃
        refine unavailable_of_passed (h.mono (hgrown₂.trans hgrown₃)) (fun endpoint _ hmem => ?_) hpassed
        obtain ⟨a, ha, hmodel, hname⟩ := ((htried rfl).2.mono hgrown₃)
        exact ⟨a, ha, hmodel, hname.trans (List.mem_singleton.1 hmem).symm⟩
  · obtain ⟨rfl, hgrown₁, hpassed⟩ := h₁
    exact unavailable_of_passed (h.mono hgrown₁) (fun _ _ hmem => (List.not_mem_nil hmem).elim) hpassed

/-- The body of `Gateway.open` fails for a cause. -/
theorem wp_openInner_caused (request : Payload) (headers : Headers) (started : ℚ) :
    (alone rely ok).wp (Gateway.openInner lib settings me request headers started) (fun _ _ _ => True)
      (fun e w l => Cause settings request w l e) w l := by
  simp only [Gateway.openInner, wp_bind]
  refine wp_mono (fun r w₁ l₁ h₁ => ?_) (fun _ _ _ h => h) (wp_prepare_caused request headers)
  obtain ⟨routed, hrouted⟩ := h₁
  simp only [clock, wp_ask]
  rintro upstreamStarted _ ⟨t, -, rfl⟩
  exact wp_attempts_caused (hrouted.mono (List.suffix_cons _ _)) _ _ _ _

/-- **Every failed opening has a cause.** -/
theorem wp_open_caused (request : Payload) (headers : Headers) (rid : Str) :
    (alone rely ok).wp (Gateway.open lib settings me request headers rid) (fun _ _ _ => True)
      (fun e w l => Cause settings request w l e) w l := by
  simp only [Gateway.open, wp_bind, clock, wp_ask, wp_update, wp_tryCatch]
  rintro started _ ⟨t, -, rfl⟩
  refine wp_mono (fun _ _ _ h => h) (fun e w₁ l₁ h₁ => ?_) (wp_openInner_caused request headers started)
  -- the failure is recorded, which nothing else happens before
  simp only [updateEvent, eventOf, emit, wp_update, wp_read, wp_pure, wp_ask, wp_bind, wp_ofExcept, wp_throw]
  rintro now _ ⟨t₁, -, rfl⟩ a _ ⟨t₂, -, rfl⟩
  cases a with
  | ok _ => exact h₁.mono ((List.suffix_cons _ _).trans (List.suffix_cons _ _)) rfl
  | error e' => exact .port ⟨_, List.mem_cons_self, rfl⟩

end

end Application
end SwitchyardGateway
