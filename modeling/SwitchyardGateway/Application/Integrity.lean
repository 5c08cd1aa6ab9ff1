/-
# What becomes of a request on its way

A request is routed, completed with the defaults of its model, and its old history
may be compressed.  The router and the compressor are free to return anything.
`Intact` says what is kept of the routed request: every field but `model` and
`messages`, and of the messages all but the content of those that may be
compressed.  What the compressor returns is checked before any of it is written,
so a bad result leaves the messages as they were.

`payload_intact` carries this to the transport: every attempt of a call sends the
one request that was prepared, and the event says how its history was compressed.
-/

import SwitchyardGateway.Adapters.Config
import SwitchyardGateway.Application.Sends

namespace SwitchyardGateway
namespace Application

open Coop Coop.Discipline Python

/-! ### Rows -/

/-- Two rows that are equal, for Python, apart from their `"content"`: their fields may come
in another order, and `1`, `1.0` and `true` may stand for one another. -/
def SameRow (old new : Json) : Prop :=
  ∃ before after, old = .obj before ∧ new = .obj after ∧
    (Json.obj (withoutContent before)).pyEq (.obj (withoutContent after)) = true

/-- `after` is `before` with the content of some of the eligible rows rewritten. -/
structure Rewritten (before after : List Json) : Prop where
  length : after.length = before.length
  rows : ∃ indices, eligibleIndices (.list before) = .ok indices ∧
    (∀ i, i ∉ indices → after[i]? = before[i]?) ∧
    ∀ i ∈ indices, ∃ old new, before[i]? = some old ∧ after[i]? = some new ∧ SameRow old new

theorem sameStructure_ok {before after : List Json} (h : sameStructure before after = .ok true) :
    List.Forall₂ SameRow before after := by
  induction before generalizing after with
  | nil =>
    cases after with
    | nil => exact .nil
    | cons new after => cases h
  | cons old before ih =>
    cases after with
    | nil => cases h
    | cons new after =>
      unfold sameStructure at h
      split at h
      · cases h
      · obtain ⟨fields, hold, h⟩ := bind_ok h
        obtain ⟨fields', hnew, h⟩ := bind_ok h
        split at h
        · rename_i hsame
          refine .cons ⟨fields, fields', ?_, ?_, hsame⟩ (ih h)
          · cases old <;> cases hold
            rfl
          · cases new <;> cases hnew
            rfl
        · cases h

/-- The eligible rows, counted from `i`, come in order and are rows. -/
theorem compressible_sorted {i : ℕ} {rows : List Payload} {indices : List ℕ}
    (h : compressible i rows = .ok indices) :
    indices.Nodup ∧ ∀ j ∈ indices, i ≤ j ∧ j < i + rows.length := by
  induction rows generalizing i indices with
  | nil =>
    obtain rfl := Except.ok.inj h
    exact ⟨List.nodup_nil, nofun⟩
  | cons row rows ih =>
    unfold compressible at h
    obtain ⟨instruction, -, h⟩ := bind_ok h
    obtain ⟨rest, hrest, h⟩ := bind_ok h
    obtain ⟨hnodup, hbounds⟩ := ih hrest
    have hrest' : ∀ j ∈ rest, i ≤ j ∧ j < i + (row :: rows).length := by
      intro j hj
      obtain ⟨hle, hlt⟩ := hbounds j hj
      rw [List.length_cons]
      omega
    obtain rfl := Except.ok.inj h
    split
    · refine ⟨List.nodup_cons.2 ⟨fun hi => ?_, hnodup⟩, List.forall_mem_cons.2 ⟨?_, hrest'⟩⟩
      · have hle := (hbounds i hi).1
        omega
      · rw [List.length_cons]
        omega
    · exact ⟨hnodup, hrest'⟩

/-- Every eligible index is that of a row, and none is named twice. -/
theorem eligibleIndices_rows {rows : List Json} {indices : List ℕ}
    (h : eligibleIndices (.list rows) = .ok indices) :
    indices.Nodup ∧ ∀ i ∈ indices, i < rows.length := by
  unfold eligibleIndices at h
  obtain ⟨dicts, hdicts, h⟩ := bind_ok h
  obtain ⟨boundary, -, h⟩ := bind_ok h
  obtain ⟨hnodup, hbounds⟩ := compressible_sorted h
  have hlength : rows.length = dicts.length := (mapM_ok_iff.1 hdicts).length_eq
  refine ⟨hnodup, fun i hi => ?_⟩
  have hlt := (hbounds i hi).2
  rw [List.length_take] at hlt
  omega

/-- Rows that are not named stay. -/
theorem writeBack_of_notMem {indices : List ℕ} {messages rows : List Json} {i : ℕ} (hi : i ∉ indices) :
    (writeBack messages indices rows)[i]? = messages[i]? := by
  induction indices generalizing messages rows with
  | nil => rw [writeBack.eq_def]
  | cons j indices ih =>
    obtain ⟨hij, hi⟩ := not_or.1 (List.mem_cons.not.1 hi)
    cases rows with
    | nil => rfl
    | cons row rows => rw [writeBack, ih hi, List.getElem?_set_ne (Ne.symm hij)]

theorem writeBack_length (messages : List Json) (indices : List ℕ) (rows : List Json) :
    (writeBack messages indices rows).length = messages.length := by
  induction indices generalizing messages rows with
  | nil => rw [writeBack.eq_def]
  | cons j indices ih =>
    cases rows with
    | nil => rfl
    | cons row rows => rw [writeBack, ih, List.length_set]

/-- Rows that are named are replaced by the row that came back for them. -/
theorem writeBack_of_mem {R : Json → Json → Prop} {indices : List ℕ} {messages rows : List Json}
    (hnodup : indices.Nodup) (hlt : ∀ i ∈ indices, i < messages.length)
    (hrows : List.Forall₂ R (indices.filterMap (messages[·]?)) rows) :
    ∀ i ∈ indices, ∃ old new, messages[i]? = some old ∧
      (writeBack messages indices rows)[i]? = some new ∧ R old new := by
  induction indices generalizing messages rows with
  | nil => exact nofun
  | cons j indices ih =>
    obtain ⟨hj, hnodup⟩ := List.nodup_cons.1 hnodup
    obtain ⟨hjlt, hlt⟩ := List.forall_mem_cons.1 hlt
    rw [List.filterMap_cons_some (List.getElem?_eq_getElem hjlt)] at hrows
    obtain ⟨row, rows, hrow, hrest, rfl⟩ := List.forall₂_cons_left_iff.1 hrows
    -- the other rows do not see the one that was written
    have hother : ∀ i, i ≠ j → (messages.set j row)[i]? = messages[i]? :=
      fun i hij => List.getElem?_set_ne (Ne.symm hij)
    have hsame : indices.filterMap ((messages.set j row)[·]?) = indices.filterMap (messages[·]?) := by
      refine List.filterMap_congr fun i hi => hother i ?_
      rintro rfl
      exact hj hi
    refine List.forall_mem_cons.2 ⟨?_, fun i hi => ?_⟩
    · refine ⟨_, row, List.getElem?_eq_getElem hjlt, ?_, hrow⟩
      rw [writeBack, writeBack_of_notMem hj, List.getElem?_set_self hjlt]
    · have hij : i ≠ j := by
        rintro rfl
        exact hj hi
      rw [← hsame] at hrest
      have hlt' : ∀ i ∈ indices, i < (messages.set j row).length := fun i hi => by
        rw [List.length_set]
        exact hlt i hi
      obtain ⟨old, new, hold, hnew, hR⟩ := ih hnodup hlt' hrest i hi
      exact ⟨old, new, (hother i hij).symm.trans hold, hnew, hR⟩

/-- **Rows that pass the check** rewrite content only. -/
theorem rewritten_writeBack {messages rows : List Json} {indices : List ℕ}
    (hindices : eligibleIndices (.list messages) = .ok indices)
    (hsame : sameStructure (indices.filterMap (messages[·]?)) rows = .ok true) :
    Rewritten messages (writeBack messages indices rows) := by
  obtain ⟨hnodup, hlt⟩ := eligibleIndices_rows hindices
  exact ⟨writeBack_length messages indices rows, indices, hindices, fun i hi => writeBack_of_notMem hi,
    writeBack_of_mem hnodup hlt (sameStructure_ok hsame)⟩

/-! ### Requests -/

/-- The ways compression may end that leave the messages as they were. -/
def Bypassed (compression : Option Compression) : Prop :=
  compression = some .bypass ∨ compression = some .noEligibleHistory ∨ compression = some .failedUnknown

/-- A compressor reports that it saved something or nothing, or that it failed. -/
theorem not_bypassed {outcome : Str} {compression : Compression}
    (h : compressionOutcome outcome = some compression) (hwritten : compression ≠ .failedUnknown) :
    ¬Bypassed (some compression) := by
  unfold compressionOutcome at h
  unfold Bypassed
  split at h
  · obtain rfl := Option.some.inj h
    decide
  · split at h
    · obtain rfl := Option.some.inj h
      decide
    · split at h
      · exact absurd (Option.some.inj h).symm hwritten
      · cases h

/-- `after` is `before` with its history compressed, or not. -/
structure Compressed (before after : Payload) (compression : Option Compression) : Prop where
  others : ∀ key, key ≠ lit "messages" → after.lookup key = before.lookup key
  messages : after.lookup (lit "messages") = before.lookup (lit "messages") ∨ ∃ rows rows',
    before.lookup (lit "messages") = some (.list rows) ∧
    after.lookup (lit "messages") = some (.list rows') ∧ Rewritten rows rows'
  untouched : Bypassed compression → after.lookup (lit "messages") = before.lookup (lit "messages")

/-- What is kept of a routed request in the request that is sent to a model. -/
structure Intact (model : Model) (routed prepared : Payload) (compression : Option Compression) :
    Prop where
  addressed : prepared.lookup (lit "model") = some (.str model.modelId)
  keys : ∀ key, (prepared.lookup key).isSome ↔
    key = lit "model" ∨ (routed.lookup key).isSome ∨ (model.defaults.lookup key).isSome
  values : ∀ key, key ≠ lit "model" → key ≠ lit "messages" →
    prepared.lookup key = (routed.lookup key).or (model.defaults.lookup key)
  messages : prepared.lookup (lit "messages") = routed.lookup (lit "messages") ∨ ∃ rows rows',
    routed.lookup (lit "messages") = some (.list rows) ∧
    prepared.lookup (lit "messages") = some (.list rows') ∧ Rewritten rows rows'
  untouched : Bypassed compression → prepared.lookup (lit "messages") = routed.lookup (lit "messages")

theorem Compressed.refl (payload : Payload) (compression : Option Compression) :
    Compressed payload payload compression :=
  ⟨fun _ _ => rfl, .inl rfl, fun _ => rfl⟩

/-- **Completing a request** with defaults that name no messages, and compressing it,
keeps it intact. -/
theorem Compressed.intact {model : Model} {routed prepared : Payload} {compression : Option Compression}
    (hdefaults : model.defaults.lookup (lit "messages") = none)
    (h : Compressed ((Dict.merge model.defaults routed).set (lit "model") (.str model.modelId)) prepared
      compression) : Intact model routed prepared compression := by
  have hmodel : lit "model" ≠ lit "messages" := by decide
  have hbase : ∀ key, key ≠ lit "model" →
      ((Dict.merge model.defaults routed).set (lit "model") (.str model.modelId)).lookup key =
        (routed.lookup key).or (model.defaults.lookup key) := by
    intro key hkey
    rw [Dict.lookup_set_ne hkey, Dict.lookup_merge]
  have hmessages : ((Dict.merge model.defaults routed).set (lit "model") (.str model.modelId)).lookup
      (lit "messages") = routed.lookup (lit "messages") := by
    rw [hbase _ hmodel.symm, hdefaults, Option.or_none]
  have hkept := h.messages
  have huntouched := h.untouched
  rw [hmessages] at hkept huntouched
  refine ⟨?_, fun key => ?_, fun key hkey hother => ?_, hkept, huntouched⟩
  · rw [h.others _ hmodel, Dict.lookup_set_self]
  · by_cases hkey : key = lit "model"
    · subst hkey
      rw [h.others _ hmodel, Dict.lookup_set_self]
      exact iff_of_true rfl (.inl rfl)
    · by_cases hother : key = lit "messages"
      · subst hother
        have hsome : (prepared.lookup (lit "messages")).isSome ↔ (routed.lookup (lit "messages")).isSome := by
          rcases hkept with hsame | ⟨rows, rows', hrouted, hprepared, -⟩
          · rw [hsame]
          · rw [hrouted, hprepared]
            exact Iff.rfl
        rw [hsome, hdefaults]
        simp [hkey]
      · rw [h.others key hother, hbase key hkey, Option.isSome_or, Bool.or_eq_true]
        simp [hkey]
  · rw [h.others key hother, hbase key hkey]

/-- The request the router returned and the model it is for, or the client's own
request for the model it names. -/
def Routed (settings : Settings) (request : Payload) (l : List Entry) (model : Model) (routed : Payload) :
    Prop :=
  ∃ name, request.lookup (lit "model") = some (.str name) ∧
    ((settings.pairs.lookup name = none ∧ settings.models.lookup name = some model ∧ routed = request) ∨
      ∃ pair t decision, settings.pairs.lookup name = some pair ∧
        (⟨t, .route request pair, .ok decision⟩ : Entry) ∈ l ∧ routed = decision.request ∧
        (decision.tier = lit "capable" ∧ settings.models.lookup pair.capable = some model ∨
          decision.tier = lit "efficient" ∧ settings.models.lookup pair.efficient = some model))

theorem Routed.cons {settings : Settings} {request : Payload} {l : List Entry} {model : Model}
    {routed : Payload} (h : Routed settings request l model routed) (e : Entry) :
    Routed settings request (e :: l) model routed := by
  obtain ⟨name, hname, hdirect | ⟨pair, t, decision, hpair, hmem, hrest⟩⟩ := h
  · exact ⟨name, hname, .inl hdirect⟩
  · exact ⟨name, hname, .inr ⟨pair, t, decision, hpair, List.mem_cons_of_mem _ hmem, hrest⟩⟩

/-! ### Preparing a request -/

section

variable {rely : World → World → Prop} {ok : List Entry → Entry → Prop} {lib : Lib}
  {settings : Settings} {me : ℕ} {w : World} {l : List Entry}

/-- Compressed rows are the rows themselves, or a rewriting that the event reports. -/
theorem wp_compressRows {model : Model} {rows : List Json} {indices : List ℕ}
    (hindices : eligibleIndices (.list rows) = .ok indices) :
    (alone rely ok).wp (compressRows me model rows indices)
      (fun rows' w _ => rows' = rows ∨ Rewritten rows rows' ∧ ¬Bypassed (w.calls me).event.compression)
      (fun _ _ _ => True) w l := by
  simp only [compressRows, wp_bind, compress, wp_askAwait, wp_ofExcept]
  refine ⟨trivial, ?_⟩
  rintro w₁ l₁ - a l₂ -
  cases a with
  | error e => exact trivial
  | ok result =>
    rw [ends_ok]
    split
    · rename_i outcome houtcome
      rw [wp_bind, lift, wp_ofExcept]
      cases hsame : sameStructure (indices.filterMap (rows[·]?)) result.messages with
      | error e => exact trivial
      | ok same =>
        cases same with
        | false => exact trivial
        | true =>
          simp only [Except.mapError, ends_ok, if_true, wp_bind, updateEvent, wp_update, wp_pure]
          split
          · exact .inl rfl
          · rename_i hwritten
            refine .inr ⟨rewritten_writeBack hindices hsame, ?_⟩
            rw [World.setCall_calls_self]
            exact not_bypassed houtcome hwritten
    · exact trivial

/-- **Compression**, as the event reports it. -/
theorem wp_compressHistory {model : Model} {headers : Headers} {prepared : Payload} :
    (alone rely ok).wp (compressHistory lib settings me model headers prepared)
      (fun r w _ => Compressed prepared r (w.calls me).event.compression) (fun _ _ _ => True) w l := by
  simp only [compressHistory, wp_bind, updateEvent, wp_update]
  split
  · split
    · rename_i messages hmessages
      rw [wp_bind, lift, wp_ofExcept]
      cases hindices : eligibleIndices messages with
      | error e => exact trivial
      | ok indices =>
        simp only [Except.mapError, ends_ok, wp_bind, wp_update]
        split
        · rename_i index indices rows
          simp only [wp_tryCatch, wp_bind, wp_pure]
          refine wp_mono (fun rows' w₁ l₁ h₁ => ?_) (fun e w₁ l₁ _ => ?_) (wp_compressRows hindices)
          · refine ⟨fun key hkey => Dict.lookup_set_ne hkey _ _, ?_, fun hbypassed => ?_⟩
            · rcases h₁ with rfl | ⟨hrewritten, -⟩
              · exact .inl (by rw [Dict.lookup_set_self, hmessages])
              · exact .inr ⟨rows, rows', hmessages, Dict.lookup_set_self _ _ _, hrewritten⟩
            · rcases h₁ with rfl | ⟨-, hreported⟩
              · rw [Dict.lookup_set_self, hmessages]
              · exact absurd hbypassed hreported
          · cases e with
            | exc e =>
              simp only [wp_bind, wp_update, wp_pure]
              exact .refl _ _
            | _ => exact trivial
        · exact .refl _ _
    · exact trivial
  · exact .refl _ _

/-- What a name is routed to: a request and the label of its model. -/
def Directed (settings : Settings) (request : Payload) (name : Str) (l : List Entry) (routed : Payload)
    (label : Str) : Prop :=
  (settings.pairs.lookup name = none ∧ label = name ∧ routed = request) ∨
    ∃ pair t decision, settings.pairs.lookup name = some pair ∧
      (⟨t, .route request pair, .ok decision⟩ : Entry) ∈ l ∧ routed = decision.request ∧
      (decision.tier = lit "capable" ∧ label = pair.capable ∨
        decision.tier = lit "efficient" ∧ label = pair.efficient)

theorem Directed.routed {request : Payload} {name : Str} {routed : Payload} {label : Str} {model : Model}
    (h : Directed settings request name l routed label) (hname : request.lookup (lit "model") = some (.str name))
    (hmodel : settings.models.lookup label = some model) : Routed settings request l model routed := by
  rcases h with ⟨hnone, rfl, rfl⟩ | ⟨pair, t, decision, hpair, hmem, hrouted, htier⟩
  · exact ⟨label, hname, .inl ⟨hnone, hmodel, rfl⟩⟩
  · refine ⟨name, hname, .inr ⟨pair, t, decision, hpair, hmem, hrouted, ?_⟩⟩
    rcases htier with ⟨hcapable, rfl⟩ | ⟨hefficient, rfl⟩
    · exact .inl ⟨hcapable, hmodel⟩
    · exact .inr ⟨hefficient, hmodel⟩

theorem wp_routeTier {request : Payload} {name : Str} (h : sends l = []) :
    (alone rely ok).wp (routeTier settings me request name)
      (fun r _ l => Directed settings request name l r.1 r.2.1 ∧ sends l = []) (fun _ _ l => sends l = [])
      w l := by
  unfold routeTier
  split
  · rename_i pair hpair
    simp only [wp_bind, updateEvent, wp_update, route, wp_askAwait, wp_ofExcept]
    refine ⟨trivial, ?_⟩
    rintro w₁ l₁ ⟨-, rfl⟩ a _ ⟨t, -, rfl⟩
    cases a with
    | error e => exact h
    | ok decision =>
      rw [ends_ok]
      split
      · rename_i hcapable
        exact ⟨.inr ⟨pair, t, decision, hpair, List.mem_cons_self, rfl, .inl ⟨hcapable, rfl⟩⟩, h⟩
      · split
        · rename_i hefficient
          exact ⟨.inr ⟨pair, t, decision, hpair, List.mem_cons_self, rfl, .inr ⟨hefficient, rfl⟩⟩, h⟩
        · exact h
  · rename_i hpair
    split
    · exact ⟨.inl ⟨hpair, rfl, rfl⟩, h⟩
    · exact h

/-- **Routing** sends nothing. -/
theorem wp_routeRequest {request : Payload} (h : sends l = []) :
    (alone rely ok).wp (routeRequest settings me request)
      (fun r _ l => Routed settings request l r.2 r.1 ∧ sends l = []) (fun _ _ l => sends l = []) w l := by
  unfold routeRequest
  split
  · rename_i requested hrequested
    simp only [wp_bind, clock, wp_ask]
    rintro started _ ⟨t, -, rfl⟩
    split
    · rename_i name
      rw [wp_bind]
      refine wp_mono (fun r w₁ l₁ h₁ => ?_) (fun _ _ _ h => h) (wp_routeTier h)
      split
      · rename_i model hmodel
        simp only [wp_bind, wp_ask, updateEvent, wp_update, wp_pure]
        rintro now _ ⟨t₁, -, rfl⟩
        exact ⟨(h₁.1.routed hrequested hmodel).cons _, h₁.2⟩
      · exact h₁.2
    · split
      · exact h
      · exact h
  · exact h

/-- What was prepared: a routed request, intact as far as the event says. -/
def Prepared (settings : Settings) (me : ℕ) (request : Payload) (model : Model) (prepared : Payload)
    (w : World) (l : List Entry) : Prop :=
  ∃ routed, Routed settings request l model routed ∧
    Intact model routed prepared (w.calls me).event.compression

/-- **Preparing** sends nothing and keeps what was routed intact. -/
theorem wp_prepare_intact (hwf : Configuration.Wellformed settings) {request : Payload} {headers : Headers}
    (h : sends l = []) :
    (alone rely ok).wp (prepare lib settings me request headers)
      (fun r w l => Prepared settings me request r.1 r.2.1 w l ∧ sends l = []) (fun _ _ l => sends l = [])
      w l := by
  simp only [prepare, wp_bind, clock, wp_ask]
  refine wp_mono (fun routed w₁ l₁ h₁ => ?_) (fun _ _ _ h => h) (wp_routeRequest h)
  rintro started _ ⟨t, -, rfl⟩
  have hdefaults : routed.2.defaults.lookup (lit "messages") = none := by
    obtain ⟨name, -, ⟨-, hmodel, -⟩ | ⟨pair, _, _, -, -, -, ⟨-, hmodel⟩ | ⟨-, hmodel⟩⟩⟩ := h₁.1
    · exact hwf.defaults _ _ hmodel _ (by decide)
    · exact hwf.defaults _ _ hmodel _ (by decide)
    · exact hwf.defaults _ _ hmodel _ (by decide)
  have hlog : Neutral (alone rely ok) me Silent (fun _ => True) fun _ l =>
      Routed settings request l routed.2 routed.1 ∧ sends l = [] :=
    log_neutral fun _ t a l hq h => ⟨h.1.cons _, (sends_cons_of_silent hq t a l).trans h.2⟩
  refine wp_mono (fun prepared w₂ l₂ h₂ => ?_) (fun _ _ _ h => h.2.2) (wp_and wp_compressHistory
    (hlog.compressHistory (fun _ => Preparing.silent) (fun _ _ => trivial) routed.2 headers _ w₁ _
      ⟨h₁.1.cons _, h₁.2⟩))
  obtain ⟨hcompressed, -, hrouted, hunsent⟩ := h₂
  rintro now _ ⟨t₁, -, rfl⟩
  simp only [updateEvent, wp_update, wp_pure]
  refine ⟨⟨routed.1, hrouted.cons _, ?_⟩, hunsent⟩
  rw [World.setCall_calls_self]
  exact hcompressed.intact hdefaults

/-! ### Sending it -/

/-- Nothing was sent, or one request that was prepared. -/
def Dispatched (settings : Settings) (me : ℕ) (request : Payload) (w : World) (l : List Entry) : Prop :=
  sends l = [] ∨ ∃ model prepared forwarded, Prepared settings me request model prepared w l ∧
    Uniform model prepared forwarded l

/-- What was prepared stays what it is while it is sent, and so does what the event
says of its compression. -/
theorem prepared_neutral (hrely : ∀ w w', rely w w' → w'.calls me = w.calls me) (request : Payload)
    (model : Model) (prepared : Payload) (forwarded : Headers) :
    Neutral (alone rely ok) me (Sending model prepared forwarded)
      (fun f => ∀ ev, (f ev).compression = ev.compression)
      fun w l => Prepared settings me request model prepared w l ∧ Uniform model prepared forwarded l := by
  refine .of_alone ?_ ?_ ?_
  · rintro w w' l hothers ⟨⟨routed, hrouted, hintact⟩, huniform⟩
    exact ⟨⟨routed, hrouted, hrely w w' hothers ▸ hintact⟩, huniform⟩
  · rintro w q t a l hq - ⟨⟨routed, hrouted, hintact⟩, huniform⟩
    exact ⟨⟨routed, hrouted.cons _, hintact⟩, huniform.cons hq t a⟩
  · rintro w f l hf ⟨⟨routed, hrouted, hintact⟩, huniform⟩
    refine ⟨⟨routed, hrouted, ?_⟩, huniform⟩
    rw [World.setCall_calls_self]
    exact (hf (w.calls me).event).symm ▸ hintact

/-- So does what was dispatched, while a failure is recorded. -/
theorem dispatched_neutral (hrely : ∀ w w', rely w w' → w'.calls me = w.calls me) (request : Payload) :
    Neutral (alone rely ok) me Reporting (fun f => ∀ ev, (f ev).compression = ev.compression)
      (Dispatched settings me request) := by
  have hunsent : Neutral (alone rely ok) me Silent (fun _ => True) fun _ l => sends l = [] :=
    unsent_neutral
  have hsending : ∀ model prepared forwarded q, Reporting q → Sending model prepared forwarded q := by
    intro model prepared forwarded q hq
    cases q <;> first | exact hq.elim | trivial
  refine .or ((hunsent.mono fun _ => Reporting.silent).sparing fun _ _ => trivial) (.exists fun model =>
    .exists fun prepared => .exists fun forwarded => ?_)
  exact (prepared_neutral hrely request model prepared forwarded).mono (hsending model prepared forwarded)

/-- Neither reads the tables. -/
theorem prepared_tableFree (request : Payload) (model : Model) (prepared : Payload) (forwarded : Headers) :
    TableFree fun w l => Prepared settings me request model prepared w l ∧
      Uniform model prepared forwarded l := by
  rintro w w' l hcalls ⟨⟨routed, hrouted, hintact⟩, huniform⟩
  exact ⟨⟨routed, hrouted, hcalls.symm ▸ hintact⟩, huniform⟩

/-- **A call** dispatches what it prepared. -/
theorem wp_open_dispatched (hwf : Configuration.Wellformed settings)
    (hrely : ∀ w w', rely w w' → w'.calls me = w.calls me) {request : Payload} {headers : Headers}
    {rid : Str} (h : sends l = []) :
    (alone rely ok).wp (Gateway.open lib settings me request headers rid)
      (fun _ => Dispatched settings me request) (fun _ => Dispatched settings me request) w l := by
  have hunsent : Neutral (alone rely ok) me Silent (fun _ => True) fun _ l => sends l = [] :=
    unsent_neutral
  refine wp_open (hunsent.mono fun _ => Reporting.silent) (dispatched_neutral hrely request)
    (fun f hf ev => ?_) rid (fun started w l _ h => ?_) h
  · have hcompression := congrArg Event.compression (hf ev)
    exact hcompression
  · unfold Gateway.openInner
    rw [wp_bind]
    refine wp_mono (fun r w₁ l₁ h₁ => ?_) (fun _ _ _ h => .inl h) (wp_prepare_intact hwf h)
    have hn : Neutral (alone rely ok) me (Sending r.1 r.2.1 r.2.2)
        (fun f => ∀ ev, (f ev).compression = ev.compression) fun w l =>
          Prepared settings me request r.1 r.2.1 w l ∧ Uniform r.1 r.2.1 r.2.2 l :=
      prepared_neutral hrely request r.1 r.2.1 r.2.2
    have hattempting : ∀ f, Attempting f → ∀ ev, (f ev).compression = ev.compression :=
      fun f hf ev => by
        have hcompression := congrArg Event.compression (hf ev)
        exact hcompression
    have hsent : (alone rely ok).Preserves (fun w l => Prepared settings me request r.1 r.2.1 w l ∧
        Uniform r.1 r.2.1 r.2.2 l) (do
        let upstreamStarted ← clock
        attempts lib settings me r.1 r.2.1 r.2.2 started upstreamStarted [0, 1] []) fun _ => True :=
      (hn.call (q := .clock) trivial).bind fun _ _ =>
        hn.attempts (prepared_tableFree _ _ _ _) (fun _ hq => hq.sending _ _ _) hattempting _ _ _ _ _ _ _
          fun _ hmem => ⟨rfl, hmem, rfl, rfl⟩
    have hstart : Uniform r.1 r.2.1 r.2.2 l₁ := fun a ha => by simp [h₁.2] at ha
    exact wp_mono (fun _ _ _ h => .inr ⟨_, _, _, h.2⟩) (fun _ _ _ h => .inr ⟨_, _, _, h⟩)
      (hsent w₁ l₁ ⟨h₁.1, hstart⟩)

end

/-- **The request arrives intact.**  Under an accepted configuration every attempt of a
call sends one and the same request: what was routed, for the selected model, with its
defaults, and with the content of some of its old history rewritten, if the event says
that it was compressed. -/
theorem payload_intact (lib : Lib) (urlsplit : Str → Except String Configuration.SplitUrl)
    (config : Configuration.Config) (settings : Settings)
    (hconfig : Configuration.loadConfig lib urlsplit config = .ok settings) (me : ℕ) (request : Payload)
    (headers : Headers) (rid : Str) (rely : World → World → Prop) (ok : List Entry → Entry → Prop)
    (hrely : ∀ w w', rely w w' → w'.calls me = w.calls me) (w w' : World) (r : Except Err Exchange)
    (l : List Entry)
    (hrun : (alone rely ok).Run (Gateway.open lib settings me request headers rid) w [] r w' l) :
    sends l = [] ∨ ∃ model routed prepared, Routed settings request l model routed ∧
      Intact model routed prepared (w'.calls me).event.compression ∧
      ∀ a ∈ sends l, a.model = model ∧ a.request = prepared := by
  have hdispatched : Dispatched settings me request w' l :=
    hrun.result (P := fun _ => Dispatched settings me request)
      (wp_open_dispatched (Configuration.loadConfig_wellformed hconfig) hrely rfl)
  rcases hdispatched with hnone | ⟨model, prepared, forwarded, ⟨routed, hrouted, hintact⟩, huniform⟩
  · exact .inl hnone
  · exact .inr ⟨model, routed, prepared, hrouted, hintact, fun a ha =>
      ⟨(huniform a ha).1, (huniform a ha).2.2.1⟩⟩

namespace Demo

/-- The small deployment, with compression. -/
def compressing : Configuration.Config where
  server := { apiKey := lit "secret", maxRequestBytes := 1024 }
  models := [(lit "m", {
    modelId := lit "backend"
    endpoints := [⟨lit "a", lit "http://localhost/v1", []⟩, ⟨lit "b", lit "http://localhost/v1", []⟩]
    defaults := [(lit "temperature", .int 0)] })]
  forwardHeaders := []

/-- A row that somebody said. -/
def said (role content : String) : Json :=
  .obj [(lit "role", .str (lit role)), (lit "content", .str (lit content))]

/-- A request whose first row is old. -/
def longRequest : Payload :=
  [(lit "model", .str (lit "m")),
   (lit "messages", .list [said "user" "a long story", said "assistant" "ok", said "user" "hi"])]

/-- The first replica cannot be reached, and the compressor shortens what it is given. -/
def shortening (l : List Entry) : (q : Call) → ℚ × Answer q
  | .compress _ _ => (now l, .ok ⟨[said "user" "a story"], lit "savings", some 4, some 3, some 1⟩)
  | q => (now l, answer (fun endpoint => if endpoint.name = lit "a" then .error (.exc .connectFailure)
      else .ok (upstream 200)) (.ok ()) (now l) q)

/-- A call that compresses and fails over. -/
def shortened : Except Err Exchange × World × List Entry :=
  exec shortening (Gateway.open lib compressing.settings 0 longRequest [] (lit "r")) world []

end Demo

/-- Two attempts send one request, with a shorter history. -/
theorem payload_intact_two_attempts : (sends Demo.shortened.2.2).length = 2 ∧
    ∃ model routed prepared, Routed Demo.compressing.settings Demo.longRequest Demo.shortened.2.2 model routed ∧
      Intact model routed prepared (some .savings) ∧
      ∀ a ∈ sends Demo.shortened.2.2, a.model = model ∧ a.request = prepared := by
  have hrun : (alone (fun w w' : World => w'.calls 0 = w.calls 0) fun _ _ => True).Run
      (Gateway.open Demo.lib Demo.compressing.settings 0 Demo.longRequest [] (lit "r")) Demo.world []
      Demo.shortened.1 Demo.shortened.2.1 Demo.shortened.2.2 :=
    run_of_exec Demo.shortening (fun _ _ => trivial) rfl
  have hsends : (sends Demo.shortened.2.2).length = 2 := by decide +kernel
  have hcompression : (Demo.shortened.2.1.calls 0).event.compression = some .savings := by decide +kernel
  have hintact := payload_intact Demo.lib Configuration.localhost Demo.compressing Demo.compressing.settings
    (by with_unfolding_all rfl) 0 Demo.longRequest [] (lit "r") _ _ (fun _ _ h => h) _ _ _ _ hrun
  rw [hcompression] at hintact
  refine ⟨hsends, hintact.resolve_left fun hnone => ?_⟩
  rw [hnone] at hsends
  cases hsends

end Application
end SwitchyardGateway
