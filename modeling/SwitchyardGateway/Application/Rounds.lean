/-
# Rounds of attempts

`Gateway.open` touches the gateway's tables in two places only: a selection moves
a position, and a failed answer records a deadline before the next await.
Everything else it does is quiet.

`Rounds` says what an assertion has to survive for a call to keep it, one field
for each of these, and `Rounds.open` that this is enough.  The assertion may
speak of the replicas the call has tried so far, which only a selection adds to.
-/

import SwitchyardGateway.Application.Rules
import SwitchyardGateway.Application.Ledger

namespace SwitchyardGateway
namespace Application

open Coop Coop.Discipline Python

variable {L : Type}

/-- The questions that neither select, nor send, nor read the date. -/
def QuietCall : Call → Prop
  | .utcnow | .selected _ _ | .send _ _ _ _ => False
  | _ => True

theorem Preparing.quietCall {q : Call} (hq : Preparing q) : QuietCall q := by
  cases q <;> first | exact hq.elim | trivial

theorem Reporting.quietCall {q : Call} (hq : Reporting q) : QuietCall q := by
  cases q <;> first | exact hq.elim | trivial

/-- An assertion of call `me`, by the replicas it has tried, that survives every
part of an opening. -/
structure Rounds (D : Discipline World Call Answer L) (lib : Lib) (settings : Settings) (me : ℕ)
    (J : List Str → World → L → Prop) : Prop where
  park : ∀ tried w l q, J tried w l → D.park w l q
  wake : ∀ tried w l q w' l', J tried w l → D.wake w l q w' l' → J tried w' l'
  ask : ∀ tried w l q a l', QuietCall q → J tried w l → D.admits w l q a l' → J tried w l'
  call : ∀ tried w l f, J tried w l → J tried (w.setCall me f) l
  select : ∀ label model tried w l, settings.models.lookup label = some model → J tried w l →
    D.wp (Gateway.select model tried) (fun i => J ((model.endpoints.get i).name :: tried))
      (fun _ => J tried) w l
  failed : ∀ tried model endpoint request headers answer cause retryAfter w w' l l',
    failureCause? answer = some (cause, retryAfter) → J tried w' l →
      D.admits w l (.send model endpoint request headers) answer l' →
      D.wp (Gateway.cooldown lib settings (model.name, endpoint.name) retryAfter)
        (fun _ => J tried) (fun _ => J tried) w' l'
  answered : ∀ tried model endpoint request headers answer w w' l l', failureCause? answer = none →
    J tried w' l → D.admits w l (.send model endpoint request headers) answer l' → J tried w' l'

namespace Rounds

variable {D : Discipline World Call Answer L} {lib : Lib} {settings : Settings} {me : ℕ}
  {J : List Str → World → L → Prop} (h : Rounds D lib settings me J)

include h

/-- What neither selects nor sends is quiet. -/
theorem neutral (tried : List Str) : Neutral D me QuietCall (fun _ => True) (J tried) where
  park w l q _ hJ := h.park tried w l q hJ
  wake w l q w' l' _ hJ hw := h.wake tried w l q w' l' hJ hw
  ask w l q a l' hq hJ ha := h.ask tried w l q a l' hq hJ ha
  event w l _ _ hJ := h.call tried w l _ hJ

/-- A failed answer is recorded and reported. -/
theorem failover {tried : List Str} {model : Model} {endpoint : Endpoint} {request : Payload}
    {headers : Headers} {answer : Except Err Upstream} {cause : FailureCause} {retryAfter : Str}
    {w w' : World} {l l' : L} (hc : failureCause? answer = some (cause, retryAfter))
    (hJ : J tried w' l) (ha : D.admits w l (.send model endpoint request headers) answer l') :
    D.wp (Gateway.cooldown lib settings (model.name, endpoint.name) retryAfter)
      (fun _ => D.wp (emitFailure me model endpoint cause) (fun _ => J tried) fun _ => J tried)
      (fun _ => J tried) w' l' := by
  refine wp_mono (fun _ w l hJ => ?_) (fun _ _ _ h => h)
    (h.failed tried model endpoint request headers answer cause retryAfter w w' l l' hc hJ ha)
  exact wp_mono (fun _ _ _ h => h.2) (fun _ _ _ h => h)
    ((h.neutral tried).emitFailure (fun _ _ _ _ => trivial) model endpoint cause w l hJ)

/-- Once a failure has been recorded, the response is discarded or returned. -/
theorem concluded (tried : List Str) (model : Model) (started upstreamStarted : ℚ) (attempt : ℕ)
    (excluded : List Str) (upstream : Upstream) :
    D.Preserves (J tried) (do
      let discarded ← discards model excluded attempt upstream
      conclude me ⟨⟨attempt, upstream⟩, started, upstreamStarted⟩ discarded) fun _ => True := by
  have hn := h.neutral tried
  refine Preserves.bind (fun _ _ hJ => hn.discards trivial model excluded attempt upstream hJ)
    fun discarded _ => ?_
  cases discarded with
  | true => exact (hn.close trivial).bind fun _ _ => .ret trivial
  | false =>
    exact (hn.call (q := .clock) trivial).bind fun _ _ =>
      (hn.updateEvent _ trivial).bind fun _ _ => .ret trivial

/-- **One round** of the loop, from the replica that was selected for it. -/
theorem attemptOnce (tried : List Str) (model : Model) (prepared : Payload) (forwarded : Headers)
    (started upstreamStarted : ℚ) (attempt : ℕ) (endpoint : Endpoint) (excluded : List Str) :
    D.Preserves (J tried) (Application.attemptOnce lib settings me model prepared forwarded started
      upstreamStarted attempt endpoint excluded) fun _ => True := by
  have hn := h.neutral tried
  unfold Application.attemptOnce
  refine (hn.updateEvent _ trivial).bind fun _ _ => ?_
  refine (hn.emitRetry (fun _ _ _ => trivial) _ _ _).bind fun _ _ => ?_
  intro w l hJ
  rw [wp_bind]
  refine wp_trySend (h.park tried w l _ hJ) ?_ ?_ ?_
  · intro w₁ l₁ upstream l₂ hw ha
    have hJ₁ := h.wake tried w l _ w₁ l₁ hJ hw
    have hJ₂ := hn.event w₁ l₁ (fun ev => { ev with status := some upstream.status }) trivial hJ₁
    simp only [Application.answered, updateEvent, wp_bind, wp_update]
    unfold coolRejected
    split
    · rename_i hstatus
      have hc : failureCause? (.ok upstream) = some (.status upstream.status,
          (upstream.headers.lookup (lit "retry-after")).getD []) := by
        simp [failureCause?, hstatus]
      rw [wp_bind]
      refine wp_mono (fun _ _ _ hcooled => ?_) (fun _ _ _ h => h) (h.failover hc hJ₂ ha)
      refine wp_mono (fun _ w l hJ => ?_) (fun _ _ _ h => h) hcooled
      have hrest := h.concluded tried model started upstreamStarted attempt excluded upstream w l hJ
      rwa [wp_bind] at hrest
    · rename_i hstatus
      have hc : failureCause? (.ok upstream) = none := by simp [failureCause?, hstatus]
      have hrest := h.concluded tried model started upstreamStarted attempt excluded upstream _ _
        (h.answered tried model endpoint prepared forwarded _ w₁ _ l₁ l₂ hc hJ₂ ha)
      rwa [wp_bind] at hrest
  · intro w₁ l₁ l₂ hw ha
    have hJ₁ := h.wake tried w l _ w₁ l₁ hJ hw
    have hc : failureCause? (.error (.exc .connectFailure)) = some (.connect, []) := rfl
    refine wp_mono (fun _ _ _ hcooled => ?_) (fun _ _ _ h => h) (h.failover hc hJ₁ ha)
    refine wp_mono (fun _ _ _ hJ => ?_) (fun _ _ _ h => h) hcooled
    split
    · exact ⟨trivial, hJ⟩
    · exact hJ
  · intro w₁ l₁ e l₂ hw he ha
    have hJ₁ := h.wake tried w l _ w₁ l₁ hJ hw
    have hc : failureCause? (.error e) = none := by
      unfold failureCause?
      split <;> simp_all
    exact h.answered tried model endpoint prepared forwarded _ w₁ w₁ l₁ l₂ hc hJ₁ ha

/-- **The loop**, by induction on the rounds that are left. -/
theorem attempts {label : Str} {model : Model} (hmodel : settings.models.lookup label = some model)
    (prepared : Payload) (forwarded : Headers) (started upstreamStarted : ℚ) (rounds : List ℕ)
    (tried : List Str) {w : World} {l : L} (hJ : J tried w l) :
    D.wp (Application.attempts lib settings me model prepared forwarded started upstreamStarted
      rounds tried) (fun _ w l => ∃ tried, J tried w l) (fun _ w l => ∃ tried, J tried w l) w l := by
  induction rounds generalizing tried w l with
  | nil => exact ⟨tried, hJ⟩
  | cons attempt rounds ih =>
    unfold Application.attempts
    rw [wp_bind]
    refine wp_mono (fun index w l hJ => ?_) (fun _ _ _ hJ => ⟨tried, hJ⟩)
      (h.select label model tried w l hmodel hJ)
    rw [wp_bind]
    refine wp_mono (fun r w l hJ => ?_) (fun _ _ _ hJ => ⟨_, hJ⟩)
      (h.attemptOnce _ model prepared forwarded started upstreamStarted attempt _ _ w l hJ)
    cases r with
    | some exchange => exact ⟨_, hJ.2⟩
    | none => exact ih _ hJ.2

/-- **A call keeps what its rounds keep.** -/
theorem «open» (request : Payload) (headers : Headers) (rid : Str) {w : World} {l : L}
    (hJ : J [] w l) :
    D.wp (Gateway.open lib settings me request headers rid) (fun _ w l => ∃ tried, J tried w l)
      (fun _ w l => ∃ tried, J tried w l) w l := by
  have hsome : Neutral D me Reporting (fun _ => True) fun w l => ∃ tried, J tried w l :=
    .exists fun tried => (h.neutral tried).mono fun _ => Reporting.quietCall
  have hn := h.neutral []
  refine wp_open (hn.mono fun _ => Reporting.quietCall) hsome (fun _ _ => trivial) rid
    (fun started w l _ hJ => ?_) hJ
  unfold Gateway.openInner
  rw [wp_bind]
  refine wp_mono (fun r w l hJ => ?_) (fun _ _ _ h => ⟨[], h⟩)
    (hn.prepare (fun _ => Preparing.quietCall) (fun _ _ => trivial) request headers w l hJ)
  obtain ⟨⟨⟨label, hmodel⟩, _⟩, hJ⟩ := hJ
  rw [wp_bind]
  refine wp_mono (fun _ w l hJ => ?_) (fun _ _ _ h => ⟨[], h⟩) (hn.call (q := .clock) trivial w l hJ)
  exact h.attempts hmodel _ _ _ _ _ [] hJ.2

end Rounds

end Application
end SwitchyardGateway
