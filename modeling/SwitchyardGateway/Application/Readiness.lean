/-
# Readiness and routing

Three places of the code ask whether a replica is cooling down: `Gateway.ready`,
`Gateway._select`, and the test whether a response may be discarded for another
attempt.  At one instant of a clock that is not negative they all mean the same
replicas, those that are `Available`, and whatever position a selection starts from
(`Agrees`).

While no failure is recorded the cooldown table stays as it is, so a gateway that is not
ready becomes ready at the earliest recorded deadline of a configured replica
(`readiness_agrees_with_routing`).
-/

import SwitchyardGateway.Application.Cooldown
import Mathlib.Data.Finset.Max
import Mathlib.Order.Bounds.Basic

namespace SwitchyardGateway
namespace Application

open Coop Coop.Discipline Python

/-- A task at one instant: the clock reads `t`, and whoever else runs leaves the tables
as they are. -/
def atInstant (t : ℚ) : Discipline World Call Answer (List Entry) :=
  alone (fun w w' => w'.positions = w.positions ∧ w'.cooldowns = w.cooldowns)
    fun _ st => st.time = t ∧ Truthful st

/-- A replica has a recorded deadline that has not been reached. -/
def Cooling (w : World) (t : ℚ) (model : Model) (endpoint : Endpoint) : Prop :=
  ∃ deadline, w.cooldowns (model.name, endpoint.name) = some deadline ∧ t < deadline

/-- A replica of the model that is neither excluded nor cooling down. -/
def Available (w : World) (t : ℚ) (model : Model) (excluded : List Str) (endpoint : Endpoint) :
    Prop :=
  endpoint ∈ model.endpoints ∧ endpoint.name ∉ excluded ∧ ¬ Cooling w t model endpoint

/-- A replica of the model was selected. -/
def Given (model : Model) (l : List Entry) : Prop :=
  ∃ t endpoint, (⟨t, .selected model endpoint, ()⟩ : Entry) ∈ l

/-- The gateway says at `t` that it is ready. -/
def ReadyAt (settings : Settings) (w : World) (t : ℚ) : Prop :=
  ∃ w' l, (atInstant t).Run (Gateway.ready settings) w [] (.ok true) w' l

/-- The recorded deadlines of configured replicas. -/
def recordedDeadlines (settings : Settings) (w : World) : Set ℚ :=
  {deadline | ∃ p ∈ settings.models, ∃ endpoint ∈ p.2.endpoints,
    w.cooldowns (p.2.name, endpoint.name) = some deadline}

section

variable {t : ℚ} {w : World} {model : Model} {excluded : List Str} {endpoint : Endpoint}

/-- The default of the lookup has been reached by every clock that is not negative. -/
theorem deadline_le_iff (ht : 0 ≤ t) :
    w.deadline (model.name, endpoint.name) ≤ t ↔ ¬ Cooling w t model endpoint := by
  rw [World.deadline, Cooling]
  cases w.cooldowns (model.name, endpoint.name) with
  | none => simp [ht]
  | some deadline => simp

theorem admits_clock {l l' : List Entry} {now : ℚ}
    (h : (atInstant t).admits w l Call.clock now l') : now = t ∧ l' = ⟨t, .clock, t⟩ :: l := by
  obtain ⟨t', ⟨rfl, htrue⟩, rfl⟩ := h
  obtain rfl : now = t' := htrue
  exact ⟨rfl, rfl⟩

/-- Only a selection gives a replica. -/
theorem Given.of_cons {e : Entry} {l : List Entry} (h : Given model (e :: l))
    (he : ∀ model endpoint, e.call ≠ .selected model endpoint) : Given model l := by
  obtain ⟨t', endpoint, hmem⟩ := h
  rcases List.mem_cons.1 hmem with rfl | hmem
  · exact absurd rfl (he model endpoint)
  · exact ⟨t', endpoint, hmem⟩

theorem not_given_nil : ¬ Given model [] := by
  rintro ⟨_, _, hmem⟩
  cases hmem

/-! ### Selection -/

/-- **A selection** returns an available replica, or there is none and it gave none,
wherever it starts. -/
theorem wp_select_atInstant (ht : 0 ≤ t) (model : Model) (excluded : List Str) (l : List Entry) :
    (atInstant t).wp (Gateway.select model excluded)
      (fun i _ l => Available w t model excluded (model.endpoints.get i) ∧ Given model l)
      (fun e _ l' => e = gatewayError "no_available_replica" 503 ∧
        (∀ endpoint, ¬ Available w t model excluded endpoint) ∧
        ∀ model', Given model' l' → Given model' l) w l := by
  refine wp_select (J := fun w' l' => w' = w ∧ ∀ model', Given model' l' → Given model' l) ?_ ?_ ?_
    ⟨rfl, fun _ h => h⟩
  · rintro w' l₁ now l₂ ⟨rfl, hold⟩ hnow
    obtain ⟨_, rfl⟩ := admits_clock hnow
    exact ⟨rfl, fun model' h => hold model' (h.of_cons fun _ _ hq => by cases hq)⟩
  · rintro w' l i now l₁ l₂ ⟨rfl, _⟩ hname hnow hle ⟨t', _, rfl⟩
    obtain ⟨rfl, rfl⟩ := admits_clock hnow
    exact ⟨⟨List.get_mem .., hname, (deadline_le_iff ht).1 hle⟩, t', _, List.mem_cons_self⟩
  · rintro hrefused w' l' ⟨rfl, hold⟩
    refine ⟨rfl, ?_, hold⟩
    rintro endpoint ⟨hmem, hname, hcool⟩
    obtain ⟨i, rfl⟩ := List.mem_iff_get.1 hmem
    rcases hrefused i with hexcluded | ⟨_, l, now, l', ⟨rfl, _⟩, hnow, hlt⟩
    · exact hname hexcluded
    · obtain ⟨rfl, _⟩ := admits_clock hnow
      exact absurd ((deadline_le_iff ht).2 hcool) (not_le.2 hlt)

/-- The test before a response is discarded finds the replicas a selection would. -/
theorem wp_anyAvailable_atInstant (ht : 0 ≤ t) (model : Model) (excluded : List Str)
    (endpoints : List Endpoint) (l : List Entry) :
    (atInstant t).wp (anyAvailable model excluded endpoints)
      (fun b w' _ => w' = w ∧
        (b = true ↔ ∃ e ∈ endpoints, e.name ∉ excluded ∧ ¬ Cooling w t model e))
      (fun _ _ _ => False) w l := by
  induction endpoints generalizing l with
  | nil => exact ⟨rfl, by simp⟩
  | cons endpoint endpoints ih =>
    unfold anyAvailable
    split
    · rename_i hname
      refine wp_mono (fun b w' _ h => ⟨h.1, h.2.trans ?_⟩) (fun _ _ _ h => h) (ih l)
      simp [hname]
    · rename_i hname
      simp only [wp_bind, wp_read, clock, wp_ask]
      intro now l₁ hnow
      obtain ⟨rfl, _⟩ := admits_clock hnow
      split
      · rename_i hle
        exact ⟨rfl, by simp [hname, (deadline_le_iff ht).1 hle]⟩
      · rename_i hlt
        have hcooling := not_not.1 (mt (deadline_le_iff ht).2 hlt)
        refine wp_mono (fun b w' _ h => ⟨h.1, h.2.trans ?_⟩) (fun _ _ _ h => h) (ih l₁)
        simp [hcooling]

/-- Readiness finds them for every model, and changes nothing. -/
theorem wp_ready_atInstant (ht : 0 ≤ t) (settings : Settings) (l : List Entry) :
    (atInstant t).wp (Gateway.ready settings)
      (fun b w' _ => w' = w ∧
        (b = true ↔ ∃ p ∈ settings.models, ∃ endpoint, Available w t p.2 [] endpoint))
      (fun _ _ _ => False) w l := by
  simp only [Gateway.ready, wp_bind, wp_read, clock, wp_ask, wp_pure, true_and]
  intro now l₁ hnow
  obtain ⟨rfl, _⟩ := admits_clock hnow
  simp only [List.any_eq_true, decide_eq_true_eq, deadline_le_iff ht, Available, List.not_mem_nil,
    not_false_eq_true, true_and]

/-- A request that is prepared for a model is given a replica if there is one, whatever
is sent and however it is answered. -/
theorem wp_attempts_atInstant (ht : 0 ≤ t) (lib : Lib) (settings : Settings) (me : ℕ)
    (model : Model) (prepared : Payload) (forwarded : Headers) (started upstreamStarted : ℚ)
    (attempt : ℕ) (rest : List ℕ) (excluded : List Str) (l : List Entry) :
    (atInstant t).wp (attempts lib settings me model prepared forwarded started upstreamStarted
        (attempt :: rest) excluded)
      (fun _ _ l => Given model l ∧ ∃ endpoint, Available w t model excluded endpoint)
      (fun _ _ l' => (Given model l' ∧ ∃ endpoint, Available w t model excluded endpoint) ∨
        (∀ endpoint, ¬ Available w t model excluded endpoint) ∧
          ∀ model', Given model' l' → Given model' l) w l := by
  unfold attempts
  rw [wp_bind]
  refine wp_mono (fun i w' l₁ hselected => ?_) (fun e w' l₁ hrefused => .inr hrefused.2)
    (wp_select_atInstant ht model excluded l)
  obtain ⟨havailable, t', endpoint, hmem⟩ := hselected
  have hend : ∀ l', l₁ <:+ l' →
      Given model l' ∧ ∃ endpoint, Available w t model excluded endpoint := fun l' hsuffix =>
    ⟨⟨t', endpoint, hsuffix.subset hmem⟩, _, havailable⟩
  exact wp_mono (fun _ _ => hend) (fun _ _ l' h => .inl (hend l' h))
    (wp_alone_suffix _ _ _ w' (List.suffix_refl l₁))

end

/-- A replica is selected for a request that has been prepared for the model. -/
def Serves (lib : Lib) (settings : Settings) (w : World) (t : ℚ) (model : Model) : Prop :=
  ∃ me prepared forwarded started upstreamStarted r w' l,
    (atInstant t).Run (attempts lib settings me model prepared forwarded started upstreamStarted
      [0, 1] []) w [] r w' l ∧ Given model l

/-- At one instant, selection, the test before a response is discarded, the attempts of a
request and readiness agree on which replicas there are, and a gateway that is not ready
gives a replica to no request. -/
structure Agrees (lib : Lib) (settings : Settings) (w : World) (t : ℚ) : Prop where
  ends : ∀ {α : Type} (p : Py α), ∃ r w' l, (atInstant t).Run p w [] r w' l
  select : ∀ model excluded r w' l, (atInstant t).Run (Gateway.select model excluded) w [] r w' l →
    ((∃ i, r = .ok i) ↔ ∃ endpoint, Available w t model excluded endpoint) ∧
      ∀ i, r = .ok i → Available w t model excluded (model.endpoints.get i)
  discard : ∀ model excluded r w' l,
    (atInstant t).Run (anyAvailable model excluded model.endpoints) w [] r w' l →
      (r = .ok true ↔ ∃ endpoint, Available w t model excluded endpoint)
  attempt : ∀ me model prepared forwarded started upstreamStarted r w' l,
    (atInstant t).Run (attempts lib settings me model prepared forwarded started upstreamStarted
      [0, 1] []) w [] r w' l →
      (Given model l ↔ ∃ endpoint, Available w t model [] endpoint)
  refuse : ∀ me request headers rid r w' l,
    (atInstant t).Run (Gateway.open lib settings me request headers rid) w [] r w' l →
      (∃ model, Given model l) → ReadyAt settings w t
  ready : ∀ r w' l, (atInstant t).Run (Gateway.ready settings) w [] r w' l →
    w' = w ∧ ∃ b, r = .ok b ∧ (b = true ↔ ∃ p ∈ settings.models, Serves lib settings w t p.2)

section

variable {lib : Lib} {settings : Settings} {t : ℚ} {w : World} {model : Model}

/-- There is a run at every instant. -/
theorem ends_atInstant {α : Type} (p : Py α) (t : ℚ) (w : World) :
    ∃ r w' l, (atInstant t).Run p w [] r w' l := by
  let env : List Entry → (q : Call) → ℚ × Answer q := fun _ q =>
    (t, Demo.answer (fun _ => .ok (Demo.upstream 200)) (.ok ()) t q)
  have hrun := exec_run (fun w w' : World => w'.positions = w.positions ∧ w'.cooldowns = w.cooldowns)
    (fun _ st => st.time = t ∧ Truthful st) (fun _ => ⟨rfl, rfl⟩) env
    (fun _ q => ⟨rfl, (Demo.answer_behaves _ _ t q).1⟩) p w []
  exact ⟨_, _, _, hrun⟩

theorem given_iff_available (ht : 0 ≤ t) {me : ℕ} {prepared : Payload} {forwarded : Headers}
    {started upstreamStarted : ℚ} {r : Except Err Exchange} {w' : World} {l : List Entry}
    (hrun : (atInstant t).Run (attempts lib settings me model prepared forwarded started
      upstreamStarted [0, 1] []) w [] r w' l) :
    Given model l ↔ ∃ endpoint, Available w t model [] endpoint := by
  have h := hrun.ends (wp_attempts_atInstant ht lib settings me model prepared forwarded started
    upstreamStarted 0 [1] [] [])
  cases r with
  | ok exchange => exact iff_of_true h.1 h.2
  | error e =>
    rcases h with ⟨hgiven, havailable⟩ | ⟨hnone, hold⟩
    · exact iff_of_true hgiven havailable
    · exact iff_of_false (fun hgiven => not_given_nil (hold model hgiven))
        fun havailable => havailable.elim hnone

/-- A model serves a request if and only if it has a replica to give. -/
theorem serves_iff (ht : 0 ≤ t) :
    Serves lib settings w t model ↔ ∃ endpoint, Available w t model [] endpoint := by
  constructor
  · rintro ⟨me, prepared, forwarded, started, upstreamStarted, r, w', l, hrun, hgiven⟩
    exact (given_iff_available ht hrun).1 hgiven
  · intro havailable
    obtain ⟨r, w', l, hrun⟩ := ends_atInstant (attempts lib settings 0 model [] [] 0 0 [0, 1] []) t w
    exact ⟨0, [], [], 0, 0, r, w', l, hrun, (given_iff_available ht hrun).2 havailable⟩

/-- What the gateway says at an instant. -/
theorem readyAt_iff (ht : 0 ≤ t) :
    ReadyAt settings w t ↔ ∃ p ∈ settings.models, ∃ endpoint ∈ p.2.endpoints,
      ¬ Cooling w t p.2 endpoint := by
  have hsaid : ∀ {b w' l}, (atInstant t).Run (Gateway.ready settings) w [] (.ok b) w' l →
      (b = true ↔ ∃ p ∈ settings.models, ∃ endpoint ∈ p.2.endpoints,
        ¬ Cooling w t p.2 endpoint) := by
    intro b w' l hrun
    have h := (hrun.ends (wp_ready_atInstant ht settings [])).2
    simpa only [Available, List.not_mem_nil, not_false_eq_true, true_and] using h
  constructor
  · rintro ⟨w', l, hrun⟩
    exact (hsaid hrun).1 rfl
  · intro hexists
    obtain ⟨r, w', l, hrun⟩ := ends_atInstant (Gateway.ready settings) t w
    cases r with
    | ok b =>
      obtain rfl := (hsaid hrun).2 hexists
      exact ⟨w', l, hrun⟩
    | error e => exact (hrun.ends (wp_ready_atInstant ht settings [])).elim

/-- **A request is given a replica only by a gateway that is ready.** -/
theorem wp_open_atInstant (ht : 0 ≤ t) (me : ℕ) (request : Payload) (headers : Headers) (rid : Str) :
    (atInstant t).wp (Gateway.open lib settings me request headers rid)
      (fun _ _ l => (∀ model, ¬ Given model l) ∨ ReadyAt settings w t)
      (fun _ _ l => (∀ model, ¬ Given model l) ∨ ReadyAt settings w t) w [] := by
  have hnot : ∀ {q : Call} {t' : ℚ} {a : Answer q} {l : List Entry}, QuietCall q →
      (∀ model, ¬ Given model l) → ∀ model, ¬ Given model (⟨t', q, a⟩ :: l) :=
    fun hq hl model h => hl model (h.of_cons fun _ _ heq => by cases heq; exact hq)
  have hn : Neutral (atInstant t) me QuietCall (fun _ => True) fun w' l =>
      w'.cooldowns = w.cooldowns ∧ ∀ model, ¬ Given model l :=
    .of_alone (fun _ _ _ hrely h => ⟨hrely.2.trans h.1, h.2⟩)
      (fun _ _ _ _ _ hq _ h => ⟨h.1, hnot hq h.2⟩) fun _ _ _ _ h => h
  have hn' : Neutral (atInstant t) me QuietCall (fun _ => True) fun _ l =>
      (∀ model, ¬ Given model l) ∨ ReadyAt settings w t :=
    .of_alone (fun _ _ _ _ h => h) (fun _ _ _ _ _ hq _ h => h.imp_left (hnot hq)) fun _ _ _ _ h => h
  refine wp_open (hn.mono fun _ => Reporting.quietCall) (hn'.mono fun _ => Reporting.quietCall)
    (fun _ _ => trivial) rid (fun started w₁ l₁ _ h₁ => ?_) ⟨rfl, fun _ => not_given_nil⟩
  unfold Gateway.openInner
  rw [wp_bind]
  refine wp_mono (fun prepared w₂ l₂ h₂ => ?_) (fun _ _ _ h => .inl h.2)
    (hn.prepare (fun _ => Preparing.quietCall) (fun _ _ => trivial) request headers w₁ l₁ h₁)
  obtain ⟨⟨⟨label, hmodel⟩, _⟩, h₂⟩ := h₂
  rw [wp_bind]
  refine wp_mono (fun _ w₃ l₃ h₃ => ?_) (fun _ _ _ h => .inl h.2)
    (hn.call (q := .clock) trivial w₂ l₂ h₂)
  obtain ⟨_, hcooldowns, hnone⟩ := h₃
  have hready : (∃ endpoint, Available w₃ t prepared.1 [] endpoint) → ReadyAt settings w t := by
    rintro ⟨endpoint, hmem, _, hcool⟩
    refine (readyAt_iff ht).2 ⟨_, Dict.mem_of_lookup hmodel, endpoint, hmem, ?_⟩
    rwa [Cooling, ← hcooldowns]
  refine wp_mono (fun _ _ _ h => .inr (hready h.2)) (fun _ _ _ h => ?_)
    (wp_attempts_atInstant ht lib settings me prepared.1 prepared.2.1 prepared.2.2 started _ 0 [1] [] l₃)
  rcases h with ⟨_, havailable⟩ | ⟨_, hold⟩
  · exact .inr (hready havailable)
  · exact .inl fun model hgiven => hnone model (hold model hgiven)

/-- **The three tests agree** in every state of the tables. -/
theorem agrees (lib : Lib) (settings : Settings) (w : World) (ht : 0 ≤ t) :
    Agrees lib settings w t where
  ends p := ends_atInstant p t w
  select model excluded r w' l hrun := by
    have h := hrun.ends (wp_select_atInstant ht model excluded [])
    cases r with
    | ok i =>
      refine ⟨iff_of_true ⟨i, rfl⟩ ⟨_, h.1⟩, fun j hj => ?_⟩
      obtain rfl := Except.ok.inj hj
      exact h.1
    | error e => exact ⟨iff_of_false nofun fun havailable => havailable.elim h.2.1, nofun⟩
  discard model excluded r w' l hrun := by
    have h := hrun.ends (wp_anyAvailable_atInstant ht model excluded model.endpoints [])
    cases r with
    | ok b =>
      rw [Except.ok.injEq, h.2]
      rfl
    | error e => exact h.elim
  attempt _ _ _ _ _ _ _ _ _ hrun := given_iff_available ht hrun
  refuse me request headers rid r w' l hrun hgiven := by
    have h := hrun.result (P := fun _ _ l => (∀ model, ¬ Given model l) ∨ ReadyAt settings w t)
      (wp_open_atInstant ht me request headers rid)
    exact h.resolve_left fun hnone => hgiven.elim hnone
  ready r w' l hrun := by
    have h := hrun.ends (wp_ready_atInstant ht settings [])
    cases r with
    | ok b => exact ⟨h.1, b, rfl, by simp only [h.2, serves_iff ht]⟩
    | error e => exact h.elim

end

/-! ### While no failure is recorded -/

/-- The cooldown table is the one the log leads to, and no deadline is about to be
recorded. -/
structure Tabled (lib : Lib) (settings : Settings) (w₀ w : World) (l : PoolLog) : Prop where
  table : w.cooldowns = tableOf lib settings w₀.cooldowns l
  settled : pending? lib settings l = none

section

variable {lib : Lib} {settings : Settings} {w₀ w w' : World} {l : PoolLog} {i : ℕ}

theorem Tabled.quiet (h : Tabled lib settings w₀ w l) {e : Entry} (he : Quiet e)
    (hw : w'.cooldowns = w.cooldowns) : Tabled lib settings w₀ w' ((i, e) :: l) where
  table := by rw [hw, h.table, tableOf_of_settled h.settled]
  settled := he.pending

theorem wp_select_tabled (model : Model) (excluded : List Str) :
    (overlapping.member (Tabled lib settings w₀) i).Preserves (Tabled lib settings w₀)
      (Gateway.select model excluded) fun _ => True := by
  intro w l h
  refine wp_select (J := Tabled lib settings w₀) ?_ ?_ (fun _ _ _ h => h) h
  · rintro w l now _ h ⟨t, _, rfl⟩
    exact h.quiet (e := ⟨t, .clock, now⟩) rfl rfl
  · rintro w l j now _ _ h _ ⟨t, _, rfl⟩ _ ⟨t', _, rfl⟩
    have hquiet := h.quiet (i := i) (e := ⟨t, .clock, now⟩) rfl rfl
    exact ⟨trivial, by rw [World.setPosition_cooldowns, hquiet.table, tableOf_of_settled hquiet.settled],
      rfl⟩

theorem wp_cooldown_tabled {I : World → PoolLog → Prop} (h : Tabled lib settings w₀ w l)
    {model : Model} {endpoint : Endpoint} {request : Payload} {headers : Headers} {t : ℚ}
    {answer : Except Err Upstream} {cause : FailureCause} {retryAfter : Str}
    {err : Err → World → PoolLog → Prop} (hc : failureCause? answer = some (cause, retryAfter)) :
    (overlapping.member I i).wp
      (Gateway.cooldown lib settings (model.name, endpoint.name) retryAfter)
      (fun _ => Tabled lib settings w₀) err w
      ((i, ⟨t, .send model endpoint request headers, answer⟩) :: l) := by
  refine wp_cooldown_recording (S := overlapping) (fun _ _ _ _ h => h) hc fun seconds now l₁ hrec _ _ => ?_
  refine ⟨?_, rfl⟩
  rw [tableOf, hrec.pending, hrec.table, ← h.table]
  rfl

theorem tabled_rounds (me : ℕ) :
    Rounds (overlapping.member (Tabled lib settings w₀) i) lib settings me
      fun _ => Tabled lib settings w₀ where
  park _ _ _ _ h := h
  wake _ _ _ _ _ _ _ h := h.1
  ask := by
    rintro _ w l q a _ hq h ⟨t, _, rfl⟩
    exact h.quiet (hq.quiet t a) rfl
  call _ _ _ _ h := ⟨h.table, h.settled⟩
  select _ model tried w l _ h :=
    wp_mono (fun _ _ _ h => h.2) (fun _ _ _ h => h) (wp_select_tabled model tried w l h)
  failed := by
    rintro _ model endpoint request headers answer cause retryAfter _ w' l _ hc h ⟨t, _, rfl⟩
    exact wp_cooldown_tabled h hc
  answered := by
    rintro _ model endpoint request headers answer _ w' l _ hc h ⟨t, _, rfl⟩
    exact h.quiet (quiet_send hc) rfl

/-- **The cooldown table can be read off the log** in every reachable pool of
overlapping calls, whatever is configured. -/
theorem tabled_reachable {c : Pool World ℚ Call Answer Err Exchange}
    (hc : overlapping.Reachable (opens lib settings) w₀ c) :
    Tabled lib settings w₀ c.state c.log := by
  refine (System.Reachable.inv (I := Tabled lib settings w₀) (fun i p hp w l h _ => ?_) ⟨rfl, rfl⟩
    hc : overlapping.Inv _ (fun _ _ _ => True) c).shared
  obtain ⟨request, headers, rid, rfl⟩ := hp
  exact wp_mono (fun _ _ _ ⟨_, h⟩ => ⟨h, trivial⟩) (fun _ _ _ ⟨_, h⟩ => ⟨h, trivial⟩)
    ((tabled_rounds i).open request headers rid h)

/-- If no deadline is about to be recorded, the newest entry is no failure. -/
theorem failure_of_settled {e : Entry} (h : pending? lib settings ((i, e) :: l) = none) :
    failure? e = none := by
  obtain ⟨t, q, a⟩ := e
  cases q with
  | send model endpoint request headers => exact Option.map_eq_none_iff.1 h
  | _ => rfl

theorem settled_cons {e : Entry} (h : pending? lib settings l = none) (he : failure? e = none) :
    pending? lib settings ((i, e) :: l) = none := by
  obtain ⟨t, q, a⟩ := e
  cases q with
  | utcnow =>
    -- A reading of the date stands behind the entry before it.
    cases l with
    | nil => rfl
    | cons x l => exact Option.map_eq_none_iff.2 (failure_of_settled (i := x.1) (l := l) h)
  | send model endpoint request headers => exact Option.map_eq_none_iff.2 he
  | _ => rfl

/-- Without a failure no deadline is recorded. -/
theorem tableOf_of_no_failure {table : Str × Str → Option ℚ} {newer : PoolLog}
    (h : pending? lib settings l = none) (hnone : ∀ e ∈ newer, failure? e.2 = none) :
    tableOf lib settings table (newer ++ l) = tableOf lib settings table l ∧
      pending? lib settings (newer ++ l) = none := by
  induction newer with
  | nil => exact ⟨rfl, h⟩
  | cons e newer ih =>
    obtain ⟨htable, hsettled⟩ := ih fun x hx => hnone x (List.mem_cons_of_mem _ hx)
    exact ⟨(tableOf_of_settled hsettled).trans htable,
      settled_cons hsettled (hnone e List.mem_cons_self)⟩

/-- The recorded deadlines are finitely many, so if one has been reached, so has the
earliest. -/
theorem exists_earliest {t : ℚ} : (∃ d ∈ recordedDeadlines settings w, d ≤ t) ↔
    ∃ d, IsLeast (recordedDeadlines settings w) d ∧ d ≤ t := by
  let deadlines := settings.models.flatMap fun p => p.2.endpoints.filterMap fun endpoint =>
    w.cooldowns (p.2.name, endpoint.name)
  have hfinite : recordedDeadlines settings w = (deadlines.toFinset : Set ℚ) := by
    ext d
    simp [recordedDeadlines, deadlines]
  constructor
  · rintro ⟨d, hd, hle⟩
    rw [hfinite] at hd ⊢
    have hleast := deadlines.toFinset.isLeast_min' ⟨d, hd⟩
    exact ⟨_, hleast, le_trans (hleast.2 hd) hle⟩
  · rintro ⟨d, hleast, hle⟩
    exact ⟨d, hleast.1, hle⟩

/-- A gateway that is not ready becomes ready at the earliest recorded deadline, as long
as the cooldown table stays as it is. -/
theorem readyAt_iff_earliest {t t' : ℚ} (ht : 0 ≤ t) (ht' : 0 ≤ t')
    (hnot : ¬ ReadyAt settings w t) (hw : w'.cooldowns = w.cooldowns) :
    ReadyAt settings w' t' ↔ ∃ d, IsLeast (recordedDeadlines settings w) d ∧ d ≤ t' := by
  have hcooling : ∀ p ∈ settings.models, ∀ endpoint ∈ p.2.endpoints, Cooling w t p.2 endpoint := by
    intro p hp endpoint hendpoint
    by_contra hcool
    exact hnot ((readyAt_iff ht).2 ⟨p, hp, endpoint, hendpoint, hcool⟩)
  rw [← exists_earliest, readyAt_iff ht']
  constructor
  · rintro ⟨p, hp, endpoint, hendpoint, hcool⟩
    obtain ⟨d, hd, _⟩ := hcooling p hp endpoint hendpoint
    refine ⟨d, ⟨p, hp, endpoint, hendpoint, hd⟩, not_lt.1 fun hlt => hcool ⟨d, ?_, hlt⟩⟩
    rw [hw, hd]
  · rintro ⟨d, ⟨p, hp, endpoint, hendpoint, hd⟩, hle⟩
    refine ⟨p, hp, endpoint, hendpoint, ?_⟩
    rintro ⟨d', hd', hlt⟩
    rw [hw, hd] at hd'
    obtain rfl := Option.some.inj hd'
    exact absurd hle (not_le.2 hlt)

end

/-- **Readiness agrees with routing** in every reachable pool of overlapping calls and at
every instant, and a gateway that is not ready becomes ready at the earliest recorded
deadline of a configured replica, as long as no further failure is recorded. -/
theorem readiness_agrees_with_routing (lib : Lib) (settings : Settings) (w : World)
    (c : Pool World ℚ Call Answer Err Exchange)
    (hc : overlapping.Reachable (opens lib settings) w c) (t : ℚ) (ht : 0 ≤ t) :
    Agrees lib settings c.state t ∧
      (¬ ReadyAt settings c.state t →
        ∀ c' newer, Relation.ReflTransGen (overlapping.Step (opens lib settings)) c c' →
          c'.log = newer ++ c.log → (∀ e ∈ newer, failure? e.2 = none) → ∀ t', 0 ≤ t' →
            (ReadyAt settings c'.state t' ↔
              ∃ d, IsLeast (recordedDeadlines settings c.state) d ∧ d ≤ t')) := by
  refine ⟨agrees lib settings c.state ht, fun hnot c' newer hc' hlog hnone t' ht' => ?_⟩
  have h := tabled_reachable hc
  have h' := tabled_reachable (hc.trans hc')
  refine readyAt_iff_earliest ht ht' hnot ?_
  rw [h'.table, hlog, (tableOf_of_no_failure h.settled hnone).1, h.table]

/-- The only replica has answered 429 with `Retry-After: 120`, and its deadline is 165. -/
theorem ready_again_at_the_deadline : ∃ c,
    overlapping.Reachable (opens Demo.lib Demo.lone) Demo.world c ∧
      ¬ ReadyAt Demo.lone c.state 60 ∧ ReadyAt Demo.lone c.state 165 := by
  obtain ⟨c, hplay, hdeadline⟩ := (Option.any_eq_true _ _).1 (by decide +kernel :
    (System.play (Demo.overlap (Demo.upstream 429 [(lit "retry-after", lit "120")]))
      (fun w l i st => decide (overlapping.admits w l i st)) (Demo.call Demo.lone)
      [.start, .resume 0] ⟨Demo.world, [], []⟩).any
        fun c => c.state.cooldowns (lit "m", lit "a") = some 165)
  have hdeadline : c.state.cooldowns (lit "m", lit "a") = some 165 := of_decide_eq_true hdeadline
  have hc : overlapping.Reachable (opens Demo.lib Demo.lone) Demo.world c :=
    System.play_steps (fun _ _ _ _ hst => of_decide_eq_true hst)
      (fun i => ⟨Demo.request, [], lit "r", rfl⟩) _ hplay
  have hreplica : ∀ p ∈ Demo.lone.models, ∀ endpoint ∈ p.2.endpoints,
      c.state.cooldowns (p.2.name, endpoint.name) = some 165 := by
    intro p hp endpoint hendpoint
    obtain rfl := List.mem_singleton.1 hp
    obtain rfl := List.mem_singleton.1 hendpoint
    exact hdeadline
  have hnot : ¬ ReadyAt Demo.lone c.state 60 := by
    rw [readyAt_iff (by decide)]
    rintro ⟨p, hp, endpoint, hendpoint, hcool⟩
    exact hcool ⟨165, hreplica p hp endpoint hendpoint, by decide +kernel⟩
  have hleast : IsLeast (recordedDeadlines Demo.lone c.state) 165 := by
    refine ⟨⟨_, List.mem_singleton_self _, _, List.mem_singleton_self _, hdeadline⟩, ?_⟩
    rintro d ⟨p, hp, endpoint, hendpoint, hd⟩
    rw [hreplica p hp endpoint hendpoint] at hd
    exact (Option.some.inj hd).le
  have h := readiness_agrees_with_routing Demo.lib Demo.lone Demo.world c hc 60 (by decide)
  exact ⟨c, hc, hnot, (h.2 hnot c [] .refl rfl (by simp) 165 (by decide)).2 ⟨165, hleast, le_rfl⟩⟩

end Application
end SwitchyardGateway
