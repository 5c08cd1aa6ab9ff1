/-
# Bounded failover

What one `Gateway.open` does, from any cooldown table and rotation, whatever the
router, the compressor and the transport answer.

`Accounting` is the whole bill of a run: at most two attempts, to replicas with
different names that were not cooling down, the second only after the first
failed over; one `replica_failure` record and one deadline for each attempt that
failed over, and nothing else in the table; a `retry` record for each attempt but
the first.  The record of a retry is written before the attempt is sent: where the event
sink raises on it, there is a record, and a count, of an attempt that is never sent
(`unannounced_retry`).  `Tally` is the part that holds after every attempt of the loop.
One round of the loop extends it by the attempt it makes (`Tally.attempt`), and
the loop makes as many rounds as `range(2)` has items.
-/

import SwitchyardGateway.Application.Rules
import SwitchyardGateway.Application.Ledger

namespace SwitchyardGateway
namespace Application

open Coop Coop.Discipline Python

/-- One call alone on its gateway: the tables are its own and time goes forward. -/
def sequential : Discipline World Call Answer (List Entry) :=
  alone (fun w w' => w' = w) fun l st => Ordered l st ∧ Truthful st

/-- The event sink raised on a retry record. -/
def isUnannounced : Entry → Bool
  | ⟨_, .emit (.retry _ _ _), .error _⟩ => true
  | _ => false

/-- The event sink raised on no retry record. -/
def Announced (l : List Entry) : Prop := ∀ st ∈ l, isUnannounced st = false

instance (l : List Entry) : Decidable (Announced l) := inferInstanceAs (Decidable (∀ st ∈ l, _))

/-- The record of an attempt that failed over. -/
def Attempt.record? (rid : Str) (a : Attempt) : Option (Str × Str × Str × FailureCause) :=
  a.cause?.map fun cause => (rid, a.model.name, a.endpoint.name, cause)

/-- The retry record an attempt is announced with. -/
def Attempt.retryRecord (rid : Str) (a : Attempt) : Str × Str × Str :=
  (rid, a.model.name, a.endpoint.name)

/-- What a piece of a run adds to its log: attempts, failure records and retry
records. -/
structure Adds (l l' : List Entry) (sent : List Attempt)
    (failed : List (Str × Str × Str × FailureCause)) (retried : List (Str × Str × Str)) : Prop where
  sends : sends l' = sent ++ sends l
  failures : replicaFailures l' = failed ++ replicaFailures l
  retries : retries l' = retried ++ retries l
  keeps : ∀ e ∈ l, e ∈ l'

theorem Adds.trans {l l' l'' : List Entry} {sent sent' : List Attempt}
    {failed failed' : List (Str × Str × Str × FailureCause)} {retried retried' : List (Str × Str × Str)}
    (h : Adds l l' sent failed retried) (h' : Adds l' l'' sent' failed' retried') :
    Adds l l'' (sent' ++ sent) (failed' ++ failed) (retried' ++ retried) where
  sends := by rw [h'.sends, h.sends, List.append_assoc]
  failures := by rw [h'.failures, h.failures, List.append_assoc]
  retries := by rw [h'.retries, h.retries, List.append_assoc]
  keeps e he := h'.keeps e (h.keeps e he)

theorem Adds.refl (l : List Entry) : Adds l l [] [] [] := ⟨rfl, rfl, rfl, fun _ he => he⟩

theorem adds_cons {l : List Entry} {e : Entry} {sent : List Attempt}
    {failed : List (Str × Str × Str × FailureCause)} {retried : List (Str × Str × Str)}
    (hs : sends (e :: l) = sent ++ sends l)
    (hf : replicaFailures (e :: l) = failed ++ replicaFailures l)
    (hr : retries (e :: l) = retried ++ retries l) : Adds l (e :: l) sent failed retried :=
  ⟨hs, hf, hr, fun _ he => List.mem_cons_of_mem _ he⟩

theorem Announced.of_adds {l l' : List Entry} {sent : List Attempt}
    {failed : List (Str × Str × Str × FailureCause)} {retried : List (Str × Str × Str)}
    (h : Announced l') (hadds : Adds l l' sent failed retried) : Announced l :=
  fun st hst => h st (hadds.keeps st hst)

/-- What the attempts in a log add up to: `w` is the world before the call, `w'`
the world now, and every attempt sends `request` with `headers` to `model`. -/
structure Tally (settings : Settings) (me : ℕ) (rid : Str) (model : Model) (request : Payload)
    (headers : Headers) (w w' : World) (l : List Entry) : Prop where
  same : ∀ a ∈ sends l, a.model = model ∧ a.endpoint ∈ model.endpoints ∧ a.request = request ∧
    a.headers = headers
  eligible : ∀ a ∈ sends l, ∃ t ≤ a.time, ⟨t, .selected a.model a.endpoint, ()⟩ ∈ l ∧
    w.deadline a.replica ≤ t
  distinct : ((sends l).map fun a => a.endpoint.name).Nodup
  cooled : ∀ a ∈ sends l, a.cause?.isSome → ∃ d, w'.cooldowns a.replica = some d ∧
    a.time + settings.cooldownSeconds ≤ d
  untouched : ∀ replica, (∀ a ∈ sends l, a.cause?.isSome → a.replica ≠ replica) →
    w'.cooldowns replica = w.cooldowns replica
  recorded : replicaFailures l = (sends l).filterMap (Attempt.record? rid)
  retried : Announced l → retries l = (sends l).dropLast.map (Attempt.retryRecord rid)
  named : (w'.calls me).event.requestId = rid

namespace Tally

variable {settings : Settings} {me : ℕ} {rid : Str} {model : Model} {request : Payload}
  {headers : Headers} {w w' w'' : World} {l l' : List Entry}

/-- Entries that are neither attempts nor records, and worlds with the same table, change
nothing; a retry record on which the sink raised counts for nothing. -/
theorem quiet (h : Tally settings me rid model request headers w w' l)
    {retried : List (Str × Str × Str)} (hadds : Adds l l' [] [] retried)
    (hretried : Announced l' → retried = []) (htable : w''.cooldowns = w'.cooldowns)
    (hnamed : (w''.calls me).event.requestId = rid) :
    Tally settings me rid model request headers w w'' l' where
  same := by rw [hadds.sends]; exact h.same
  eligible a ha := by
    obtain ⟨t, ht, hmem, hle⟩ := h.eligible a (by rwa [hadds.sends] at ha)
    exact ⟨t, ht, hadds.keeps _ hmem, hle⟩
  distinct := by rw [hadds.sends]; exact h.distinct
  cooled := by rw [hadds.sends, htable]; exact h.cooled
  untouched := by rw [hadds.sends, htable]; exact h.untouched
  recorded := by rw [hadds.sends, hadds.failures]; exact h.recorded
  retried := fun hannounced => by
    rw [hadds.sends, hadds.retries, hretried hannounced]
    exact h.retried (hannounced.of_adds hadds)
  named := hnamed

/-- **One attempt** extends the tally: to a new replica that is not cooling down,
with its retry record unless it is the first, and, if it fails over, with its
failure record and its deadline. -/
theorem attempt (h : Tally settings me rid model request headers w w' l) {a : Attempt}
    (hadds : Adds l l' [a] (a.record? rid).toList
      (if sends l = [] then [] else [a.retryRecord rid]))
    (hsame : a.model = model ∧ a.endpoint ∈ model.endpoints ∧ a.request = request ∧
      a.headers = headers)
    (hsel : ∃ t ≤ a.time, ⟨t, .selected a.model a.endpoint, ()⟩ ∈ l' ∧ w'.deadline a.replica ≤ t)
    (hfresh : a.endpoint.name ∉ (sends l).map fun a => a.endpoint.name)
    (hcool : a.cause?.isSome → ∃ d, a.time + settings.cooldownSeconds ≤ d ∧
      w''.cooldowns = Function.update w'.cooldowns a.replica (some d))
    (hkeep : a.cause? = none → w''.cooldowns = w'.cooldowns)
    (hnamed : (w''.calls me).event.requestId = rid) :
    Tally settings me rid model request headers w w'' l' := by
  have hsends : sends l' = a :: sends l := hadds.sends
  have hother : ∀ b ∈ sends l, a.replica ≠ b.replica := by
    intro b hb heq
    exact hfresh (List.mem_map.2 ⟨b, hb, (congrArg Prod.snd heq).symm⟩)
  -- away from the replica of `a` the table is as it was
  have haway : ∀ replica, (a.cause?.isSome → a.replica ≠ replica) →
      w''.cooldowns replica = w'.cooldowns replica := by
    intro replica hne
    cases hc : a.cause? with
    | none => rw [hkeep hc]
    | some cause =>
      obtain ⟨d, _, hd⟩ := hcool (by rw [hc]; rfl)
      rw [hd, Function.update_of_ne (Ne.symm (hne (by rw [hc]; rfl)))]
  constructor
  case same =>
    rw [hsends]
    exact List.forall_mem_cons.2 ⟨hsame, h.same⟩
  case eligible =>
    rw [hsends]
    refine List.forall_mem_cons.2 ⟨?_, fun b hb => ?_⟩
    · obtain ⟨t, ht, hmem, hle⟩ := hsel
      refine ⟨t, ht, hmem, ?_⟩
      rwa [World.deadline, ← h.untouched a.replica fun b hb _ => Ne.symm (hother b hb)]
    · obtain ⟨t, ht, hmem, hle⟩ := h.eligible b hb
      exact ⟨t, ht, hadds.keeps _ hmem, hle⟩
  case distinct =>
    rw [hsends, List.map_cons, List.nodup_cons]
    exact ⟨hfresh, h.distinct⟩
  case cooled =>
    rw [hsends]
    refine List.forall_mem_cons.2 ⟨fun hc => ?_, fun b hb hc => ?_⟩
    · obtain ⟨d, hle, hd⟩ := hcool hc
      exact ⟨d, by rw [hd, Function.update_self], hle⟩
    · obtain ⟨d, hd, hle⟩ := h.cooled b hb hc
      exact ⟨d, by rw [haway _ fun _ => hother b hb, hd], hle⟩
  case untouched =>
    intro replica hne
    rw [hsends] at hne
    obtain ⟨hne_a, hne_l⟩ := List.forall_mem_cons.1 hne
    rw [haway replica hne_a]
    exact h.untouched replica hne_l
  case recorded =>
    rw [hsends, hadds.failures, h.recorded, List.filterMap_cons]
    cases a.record? rid <;> rfl
  case retried =>
    intro hannounced
    rw [hsends, hadds.retries, h.retried (hannounced.of_adds hadds)]
    cases sends l with
    | nil => rfl
    | cons b bs => simp
  case named => exact hnamed

end Tally

/-! ### The parts of a round -/

section Round

variable {lib : Lib} {settings : Settings} {me : ℕ} {model : Model} {endpoint : Endpoint}
  {w : World} {l : List Entry}

/-- One answered question of a sequential run. -/
theorem sequential_admits {q : Call} {a : Answer q} {l' : List Entry}
    (h : sequential.admits w l q a l') : ∃ t, l' = ⟨t, q, a⟩ :: l ∧ (∀ prev ∈ l.head?, prev.time ≤ t) ∧
      Truthful ⟨t, q, a⟩ := by
  obtain ⟨t, ⟨hord, htrue⟩, hl⟩ := h
  exact ⟨t, hl, hord, htrue⟩

/-- A record reaches the sink, which may raise. -/
theorem wp_emit {record : Record} {ok : Unit → World → List Entry → Prop}
    {err : Err → World → List Entry → Prop}
    (hok : ∀ t, (∀ prev ∈ l.head?, prev.time ≤ t) → ok () w (⟨t, .emit record, .ok ()⟩ :: l))
    (herr : ∀ t e, err e w (⟨t, .emit record, .error e⟩ :: l)) :
    sequential.wp (emit record) ok err w l := by
  simp only [emit, wp_bind, wp_ask, wp_ofExcept]
  intro a l₁ ha
  obtain ⟨t, rfl, hord, _⟩ := sequential_admits ha
  cases a with
  | ok _ => exact hok t hord
  | error e => exact herr t e

/-- A failure leaves a deadline and a record, also where the sink raises on it. -/
theorem wp_failover {retryAfter : Str} {cause : FailureCause}
    {ok : Unit → World → List Entry → Prop} {err : Err → World → List Entry → Prop}
    {e : Entry} {older : List Entry} (hl : l = e :: older)
    (h : ∀ d l₁, e.time + settings.cooldownSeconds ≤ d →
      Adds l l₁ [] [((w.calls me).event.requestId, model.name, endpoint.name, cause)] [] →
      ok () (w.setCooldown (model.name, endpoint.name) d) l₁ ∧
        ∀ e, err e (w.setCooldown (model.name, endpoint.name) d) l₁) :
    sequential.wp (Gateway.cooldown lib settings (model.name, endpoint.name) retryAfter)
      (fun _ => sequential.wp (emitFailure me model endpoint cause) ok err) err w l := by
  refine wp_cooldown fun date l₁ hdate now l₂ hnow => ?_
  have hdelay := cooldownSeconds_le_requestedDelay lib settings retryAfter date
  obtain ⟨t, rfl, hord, htrue⟩ := sequential_admits hnow
  obtain rfl : now = t := htrue
  simp only [emitFailure, eventOf, wp_bind, wp_read, wp_pure]
  have htime : e.time ≤ now := by
    rcases hdate with ⟨rfl, _⟩ | hdate
    · exact hord e (by rw [hl]; rfl)
    · obtain ⟨t₁, rfl, hord₁, _⟩ := sequential_admits hdate
      exact le_trans (hord₁ e (by rw [hl]; rfl)) (hord _ rfl)
  have hread : Adds l (⟨now, .clock, now⟩ :: l₁) [] [] [] := by
    rcases hdate with ⟨rfl, _⟩ | hdate
    · exact adds_cons rfl rfl rfl
    · obtain ⟨t₁, rfl, _⟩ := sequential_admits hdate
      have hutcnow : Adds l (⟨t₁, .utcnow, date⟩ :: l) [] [] [] := adds_cons rfl rfl rfl
      exact hutcnow.trans (adds_cons rfl rfl rfl : Adds _ _ [] [] [])
  have hle : e.time + settings.cooldownSeconds ≤ now + requestedDelay lib settings retryAfter date := by
    linarith
  refine wp_emit (fun t' _ => ?_) fun t' e' => ?_
  · exact (h _ _ hle (hread.trans (adds_cons rfl rfl rfl : Adds _ _ [] [_] []))).1
  · exact (h _ _ hle (hread.trans (adds_cons rfl rfl rfl : Adds _ _ [] [_] []))).2 e'

/-- Looking for another replica only reads the clock. -/
theorem wp_anyAvailable {excluded : List Str} (endpoints : List Endpoint)
    {ok : Bool → World → List Entry → Prop} {err : Err → World → List Entry → Prop}
    (h : ∀ b l₁, Adds l l₁ [] [] [] → ok b w l₁) :
    sequential.wp (anyAvailable model excluded endpoints) ok err w l := by
  induction endpoints generalizing l with
  | nil => exact h _ _ (.refl l)
  | cons endpoint endpoints ih =>
    unfold anyAvailable
    split
    · exact ih h
    · simp only [wp_bind, wp_read, clock, wp_ask]
      intro now l₁ hnow
      obtain ⟨t, rfl, _⟩ := sequential_admits hnow
      have hadds : Adds l (⟨t, .clock, now⟩ :: l) [] [] [] := adds_cons rfl rfl rfl
      split
      · exact h _ _ hadds
      · exact ih fun b l₁ hl₁ => h b l₁ (hadds.trans hl₁)

/-- The retry record is emitted for every attempt but the first; the sink may raise on it. -/
theorem wp_emitRetry {attempt : ℕ} {e : Entry} {older : List Entry} (hl : l = e :: older)
    {ok : Unit → World → List Entry → Prop} {err : Err → World → List Entry → Prop}
    (h : ∀ l₁, (∀ t, (∀ prev ∈ l₁.head?, prev.time ≤ t) → e.time ≤ t) →
      Adds l l₁ [] [] (if attempt = 0 then []
        else [((w.calls me).event.requestId, model.name, endpoint.name)]) → ok () w l₁)
    (herr : ∀ e l₁, Adds l l₁ [] [] [((w.calls me).event.requestId, model.name, endpoint.name)] →
      ¬ Announced l₁ → err e w l₁) :
    sequential.wp (emitRetry me model endpoint attempt) ok err w l := by
  subst hl
  unfold emitRetry
  split
  · rename_i h0
    exact h _ (fun t ht => ht e rfl) (by rw [if_pos h0]; exact .refl _)
  · rename_i h0
    simp only [eventOf, wp_bind, wp_read, wp_pure]
    refine wp_emit (fun t ht => ?_) fun t e' => ?_
    · refine h _ (fun t' ht' => ?_) (by rw [if_neg h0]; exact adds_cons rfl rfl rfl)
      exact le_trans (ht e rfl) (ht' _ rfl)
    · exact herr e' _ (adds_cons rfl rfl rfl) fun hannounced =>
        absurd (hannounced _ List.mem_cons_self) (by simp [isUnannounced])

/-- What a round of the loop leaves: a tally with one more attempt, counted, which
failed over if the loop goes on. -/
structure Extended (settings : Settings) (me : ℕ) (rid : Str) (model : Model) (request : Payload)
    (headers : Headers) (w : World) (l : List Entry) (endpoint : Endpoint) (again : Prop)
    (w' : World) (l' : List Entry) : Prop where
  tally : Tally settings me rid model request headers w w' l'
  counted : (w'.calls me).event.attempts = some (sends l').length
  one : ∃ a, sends l' = a :: sends l ∧ a.endpoint = endpoint ∧ (again → a.cause?.isSome)

/-- What a round leaves that the sink ended before its attempt was sent. -/
structure Unsent (settings : Settings) (me : ℕ) (rid : Str) (model : Model) (request : Payload)
    (headers : Headers) (w : World) (l : List Entry) (w' : World) (l' : List Entry) : Prop where
  tally : Tally settings me rid model request headers w w' l'
  none : sends l' = sends l
  unannounced : ¬ Announced l'

/-- The end of a round: the response is discarded or returned. -/
theorem wp_conclude {excluded : List Str} {attempt : ℕ} {upstream : Upstream}
    {started upstreamStarted : ℚ} {ok : Option Exchange → World → List Entry → Prop}
    {err : Err → World → List Entry → Prop}
    (hnone : retryable upstream.status → ∀ l', Adds l l' [] [] [] → ok none w l')
    (herr : ∀ e l', Adds l l' [] [] [] → err e w l')
    (hsome : ∀ now l', Adds l l' [] [] [] →
      ok (some ⟨⟨attempt, upstream⟩, started, upstreamStarted⟩) (w.setCall me fun c => { c with
        event := { c.event with upstreamHeadersMs := some ((now - upstreamStarted) * 1000) } }) l') :
    sequential.wp (discards model excluded attempt upstream) (fun b => sequential.wp
      (conclude me ⟨⟨attempt, upstream⟩, started, upstreamStarted⟩ b) ok err) err w l := by
  have hkept : ∀ l', Adds l l' [] [] [] → sequential.wp
      (conclude me ⟨⟨attempt, upstream⟩, started, upstreamStarted⟩ false) ok err w l' := by
    intro l' hadds
    simp only [conclude, wp_bind, clock, wp_ask, updateEvent, wp_update, wp_pure]
    intro now l₁ hnow
    obtain ⟨t, rfl, _⟩ := sequential_admits hnow
    exact hsome now _ (hadds.trans (adds_cons rfl rfl rfl : Adds _ _ [] [] []))
  unfold discards
  split
  · rename_i hretry
    refine wp_anyAvailable _ fun b l' hadds => ?_
    cases b with
    | false => exact hkept l' hadds
    | true =>
      simp only [conclude, close, wp_bind, wp_askAwait, wp_ofExcept]
      refine ⟨trivial, ?_⟩
      rintro _ l' ⟨rfl, rfl⟩ r l₁ hclose
      obtain ⟨t, rfl, _⟩ := sequential_admits hclose
      have hadds₁ := hadds.trans (adds_cons rfl rfl rfl : Adds l' (⟨t, .close attempt, r⟩ :: l')
        [] [] [])
      cases r with
      | ok _ => exact hnone hretry.1 _ hadds₁
      | error e => exact herr e _ hadds₁
  · exact hkept l (.refl l)

/-- An attempt that is answered, cooled down if it failed over and recorded then,
extends the tally. -/
theorem extended_of_attempt {rid : Str} {request : Payload} {headers : Headers} {w₀ w' : World}
    {l' : List Entry} {t₀ : ℚ} {a : Attempt} {again : Prop}
    (hT : Tally settings me rid model request headers w₀ w l)
    (hadds : Adds l l' [a] (a.record? rid).toList (if (sends l).length = 0 then []
      else [(rid, a.model.name, a.endpoint.name)]))
    (hsame : a.model = model ∧ a.endpoint ∈ model.endpoints ∧ a.request = request ∧
      a.headers = headers)
    (hfresh : a.endpoint.name ∉ (sends l).map fun a => a.endpoint.name)
    (hselected : ⟨t₀, .selected a.model a.endpoint, ()⟩ ∈ l) (ht₀ : t₀ ≤ a.time)
    (hsel : w.deadline a.replica ≤ t₀)
    (hcool : a.cause?.isSome → ∃ d, a.time + settings.cooldownSeconds ≤ d ∧
      w'.cooldowns = Function.update w.cooldowns a.replica (some d))
    (hkeep : a.cause? = none → w'.cooldowns = w.cooldowns)
    (hnamed : (w'.calls me).event.requestId = rid)
    (hcounted : (w'.calls me).event.attempts = some ((sends l).length + 1))
    (hagain : again → a.cause?.isSome) :
    Extended settings me rid model request headers w₀ l a.endpoint again w' l' where
  tally := by
    refine hT.attempt ?_ hsame ⟨t₀, ht₀, hadds.keeps _ hselected, hsel⟩ hfresh hcool hkeep hnamed
    simpa only [List.length_eq_zero_iff, Attempt.retryRecord] using hadds
  counted := by rw [hcounted, hadds.sends, List.singleton_append, List.length_cons]
  one := ⟨a, hadds.sends, rfl, hagain⟩

/-- A retry that is not announced leaves the tally as it was. -/
theorem Tally.unannounced {rid : Str} {request : Payload} {headers : Headers} {w₀ w' : World}
    {l' : List Entry} {retried : List (Str × Str × Str)}
    (hT : Tally settings me rid model request headers w₀ w l) (hadds : Adds l l' [] [] retried)
    (hnot : ¬ Announced l') (htable : w'.cooldowns = w.cooldowns)
    (hnamed : (w'.calls me).event.requestId = rid) :
    Unsent settings me rid model request headers w₀ l w' l' :=
  ⟨hT.quiet hadds (fun h => absurd h hnot) htable hnamed, hadds.sends, hnot⟩

/-- One round of the loop, after the selection. -/
theorem wp_attemptOnce {rid : Str} {request : Payload} {headers : Headers}
    {started upstreamStarted t₀ : ℚ} {attempt : ℕ} {excluded : List Str} {w₀ : World}
    {older : List Entry}
    (hT : Tally settings me rid model request headers w₀ w l) (hlen : (sends l).length = attempt)
    (hmem : endpoint ∈ model.endpoints)
    (hfresh : endpoint.name ∉ (sends l).map fun a => a.endpoint.name)
    (hl : l = ⟨t₀, .selected model endpoint, ()⟩ :: older)
    (hsel : w.deadline (model.name, endpoint.name) ≤ t₀) :
    sequential.wp (attemptOnce lib settings me model request headers started upstreamStarted attempt
        endpoint excluded)
      (fun r => Extended settings me rid model request headers w₀ l endpoint (r = none))
      (fun _ w' l' => Extended settings me rid model request headers w₀ l endpoint False w' l' ∨
        Unsent settings me rid model request headers w₀ l w' l') w l := by
  simp only [attemptOnce, wp_bind, updateEvent, wp_update]
  refine wp_emitRetry hl (fun l₁ htime hretry => ?_) fun e l₁ hadds hnot =>
    .inr (hT.unannounced hadds hnot rfl (by simp [hT.named]))
  simp only [World.setCall_calls_self, hT.named] at hretry
  -- how the round ends, once its answer is dealt with
  have hdone : ∀ (t : ℚ) (answer : Except Err Upstream) (w' : World) (l' : List Entry) (again : Prop),
      (∀ prev ∈ l₁.head?, prev.time ≤ t) →
      Adds (⟨t, .send model endpoint request headers, answer⟩ :: l₁) l' []
        ((failureCause? answer).map fun c => (rid, model.name, endpoint.name, c.1)).toList [] →
      ((failureCause? answer).isSome → ∃ d, t + settings.cooldownSeconds ≤ d ∧
        w'.cooldowns = Function.update w.cooldowns (model.name, endpoint.name) (some d)) →
      (failureCause? answer = none → w'.cooldowns = w.cooldowns) →
      (w'.calls me).event.requestId = rid → (w'.calls me).event.attempts = some (attempt + 1) →
      (again → (failureCause? answer).isSome) →
      Extended settings me rid model request headers w₀ l endpoint again w' l' := by
    intro t answer w' l' again hord hadds hcool hkeep hnamed hcounted hagain
    have hsent : Adds l (⟨t, .send model endpoint request headers, answer⟩ :: l₁)
        [⟨t, model, endpoint, request, headers, answer⟩] []
        (if attempt = 0 then [] else [(rid, model.name, endpoint.name)]) := by
      simpa using hretry.trans (adds_cons rfl rfl rfl : Adds l₁
        (⟨t, .send model endpoint request headers, answer⟩ :: l₁) [_] [] [])
    refine extended_of_attempt (a := ⟨t, model, endpoint, request, headers, answer⟩) hT ?_
      ⟨rfl, hmem, rfl, rfl⟩ hfresh (by rw [hl]; exact List.mem_cons_self) (htime t hord) hsel ?_ ?_
      hnamed (by rw [hcounted, hlen]) ?_
    · rw [hlen]
      simpa [Attempt.record?, Attempt.cause?, Function.comp_def] using hsent.trans hadds
    · simpa [Attempt.cause?, Attempt.replica] using hcool
    · simpa [Attempt.cause?] using hkeep
    · simpa [Attempt.cause?] using hagain
  refine wp_trySend trivial ?_ ?_ ?_
  · rintro w₁ l₁ upstream l₂ ⟨rfl, rfl⟩ hsend
    obtain ⟨t, rfl, hord, _⟩ := sequential_admits hsend
    simp only [answered, updateEvent, wp_bind, wp_update]
    -- the end of the round: the response is discarded or returned
    have hrest : ∀ (w' : World) (l' : List Entry),
        (∀ (w'' : World) (l'' : List Entry) (again : Prop), Adds l' l'' [] [] [] →
          w''.cooldowns = w'.cooldowns → (w''.calls me).event.requestId = (w'.calls me).event.requestId →
          (w''.calls me).event.attempts = (w'.calls me).event.attempts →
          (again → retryable upstream.status) →
          Extended settings me rid model request headers w₀ l endpoint again w'' l'') →
        sequential.wp (discards model excluded attempt upstream) (fun b => sequential.wp
          (conclude me ⟨⟨attempt, upstream⟩, started, upstreamStarted⟩ b)
          (fun r => Extended settings me rid model request headers w₀ l endpoint (r = none))
          (fun _ w' l' => Extended settings me rid model request headers w₀ l endpoint False w' l' ∨
            Unsent settings me rid model request headers w₀ l w' l'))
          (fun _ w' l' => Extended settings me rid model request headers w₀ l endpoint False w' l' ∨
            Unsent settings me rid model request headers w₀ l w' l') w' l' := by
      intro w' l' hend
      refine wp_conclude (fun hr l'' hadds => ?_) (fun e l'' hadds => ?_) fun now l'' hadds => ?_
      · exact hend _ _ _ hadds rfl rfl rfl fun _ => hr
      · exact .inl (hend _ _ _ hadds rfl rfl rfl False.elim)
      · exact hend _ _ _ hadds rfl (by simp) (by simp) (by simp)
    unfold coolRejected
    split
    · rename_i hstatus
      have hcause : failureCause? (.ok upstream) = some (.status upstream.status,
          (upstream.headers.lookup (lit "retry-after")).getD []) := by
        simp [failureCause?, hstatus]
      simp only [wp_bind]
      refine wp_failover rfl fun d l' hd hadds => ?_
      have hcooled : ∀ (w'' : World) (l'' : List Entry) (again : Prop), Adds l' l'' [] [] [] →
          w''.cooldowns = Function.update w.cooldowns (model.name, endpoint.name) (some d) →
          (w''.calls me).event.requestId = rid → (w''.calls me).event.attempts = some (attempt + 1) →
          Extended settings me rid model request headers w₀ l endpoint again w'' l'' := by
        intro w'' l'' again hadds' htable hrid hattempts
        refine hdone t (.ok upstream) _ _ _ hord ?_ ?_ ?_ hrid hattempts ?_
        · simpa [hcause, hT.named] using hadds.trans hadds'
        · exact fun _ => ⟨d, hd, htable⟩
        · simp [hcause]
        · simp [hcause]
      refine ⟨hrest _ _ fun w'' l'' again hadds' htable hrid hattempts _ => ?_, fun e => .inl ?_⟩
      · exact hcooled w'' l'' again hadds' (by rw [htable]; simp) (by rw [hrid]; simp [hT.named])
          (by rw [hattempts]; simp)
      · exact hcooled _ _ _ (.refl _) (by simp) (by simp [hT.named]) (by simp)
    · rename_i hstatus
      have hcause : failureCause? (.ok upstream) = none := by simp [failureCause?, hstatus]
      refine hrest _ _ ?_
      intro w'' l'' again hadds' htable hrid hattempts hagain
      refine hdone t (.ok upstream) _ _ _ hord ?_ ?_ ?_ ?_ ?_ ?_
      · rw [hcause]
        exact hadds'
      · simp [hcause]
      · intro _
        rw [htable]
        simp
      · rw [hrid]
        simp [hT.named]
      · rw [hattempts]
        simp
      · exact fun h => absurd (hagain h) hstatus
  · rintro w₁ l₁ l₂ ⟨rfl, rfl⟩ hsend
    obtain ⟨t, rfl, hord, _⟩ := sequential_admits hsend
    refine wp_failover rfl fun d l' hd hadds => ?_
    have hend : ∀ again, Extended settings me rid model request headers w₀ l endpoint again
        ((w.setCall me fun c => { c with event :=
          { c.event with endpoint := some endpoint.name, attempts := some (attempt + 1) } }).setCooldown
            (model.name, endpoint.name) d) l' := by
      intro again
      refine hdone t (.error (.exc .connectFailure)) _ _ _ hord ?_ ?_ ?_ ?_ ?_ ?_
      · simpa [failureCause?, hT.named] using hadds
      · exact fun _ => ⟨d, hd, by simp⟩
      · simp [failureCause?]
      · simp [hT.named]
      · simp
      · simp [failureCause?]
    refine ⟨?_, fun e => .inl (hend _)⟩
    split
    · exact hend _
    · exact .inl (hend _)
  · rintro w₁ l₁ e l₂ ⟨rfl, rfl⟩ he hsend
    obtain ⟨t, rfl, hord, _⟩ := sequential_admits hsend
    have hnone : failureCause? (.error e) = none := by
      unfold failureCause?
      split <;> simp_all
    refine .inl (hdone t (.error e) _ _ _ hord ?_ ?_ ?_ ?_ ?_ ?_)
    · rw [hnone]
      exact .refl _
    · simp [hnone]
    · simp
    · simp [hT.named]
    · simp
    · exact False.elim

end Round

/-! ### The loop -/

section Loop

variable {settings : Settings} {me : ℕ} {rid : Str} {model : Model} {request : Payload}
  {headers : Headers} {w₀ w : World} {l : List Entry}

/-- The bill of at most `n` attempts: all but the last failed over. -/
structure Billed (settings : Settings) (me : ℕ) (rid : Str) (model : Model) (request : Payload)
    (headers : Headers) (w₀ : World) (n : ℕ) (w : World) (l : List Entry) : Prop where
  tally : Tally settings me rid model request headers w₀ w l
  counted : Announced l → (w.calls me).event.attempts = some (sends l).length
  bounded : (sends l).length ≤ n
  provoked : ∀ a ∈ (sends l).tail, a.cause?.isSome

/-- Selection only reads the clock and moves the rotation. -/
theorem wp_select_sequential {excluded : List Str} {ok : Fin model.endpoints.length → World → List Entry → Prop}
    {err : Err → World → List Entry → Prop}
    (hok : ∀ (i : Fin model.endpoints.length) p t l', (model.endpoints.get i).name ∉ excluded →
      w.deadline (model.name, (model.endpoints.get i).name) ≤ t →
      Adds l (⟨t, .selected model (model.endpoints.get i), ()⟩ :: l') [] [] [] →
      ok i (w.setPosition model.name p) (⟨t, .selected model (model.endpoints.get i), ()⟩ :: l'))
    (herr : ∀ l', Adds l l' [] [] [] → err (gatewayError "no_available_replica" 503) w l') :
    sequential.wp (Gateway.select model excluded) ok err w l := by
  let J : World → List Entry → Prop := fun w' l' => w' = w ∧ Adds l l' [] [] []
  refine wp_select (J := J) ?_ ?_ ?_ ⟨rfl, .refl l⟩
  · rintro _ l₁ now l' ⟨rfl, hadds⟩ hnow
    obtain ⟨t, rfl, _⟩ := sequential_admits hnow
    exact ⟨rfl, hadds.trans (adds_cons rfl rfl rfl : Adds _ _ [] [] [])⟩
  · rintro _ l₁ i now l₂ l₃ ⟨rfl, hadds⟩ hfresh hnow hle hsel
    obtain ⟨t, rfl, _, htrue⟩ := sequential_admits hnow
    obtain rfl : now = t := htrue
    obtain ⟨t', rfl, hord, _⟩ := sequential_admits hsel
    have hle' : now ≤ t' := hord _ rfl
    have hclock := hadds.trans (adds_cons rfl rfl rfl : Adds l₁ (⟨now, .clock, now⟩ :: l₁) [] [] [])
    exact hok i _ t' _ hfresh (le_trans hle hle')
      (hclock.trans (adds_cons rfl rfl rfl : Adds _ _ [] [] []))
  · rintro _ _ l' ⟨rfl, hadds⟩
    exact herr l' hadds

/-- **The loop**: `n` more rounds make at most `n` more attempts. -/
theorem wp_attempts (lib : Lib) (started upstreamStarted : ℚ) (n : ℕ) {excluded : List Str}
    (hT : Tally settings me rid model request headers w₀ w l)
    (hcounted : (w.calls me).event.attempts = some (sends l).length)
    (hfailed : ∀ a ∈ sends l, a.cause?.isSome)
    (hexcluded : excluded = (sends l).map fun a => a.endpoint.name) :
    sequential.wp (attempts lib settings me model request headers started upstreamStarted
        (List.range' (sends l).length n) excluded)
      (fun _ => Billed settings me rid model request headers w₀ ((sends l).length + n))
      (fun _ => Billed settings me rid model request headers w₀ ((sends l).length + n)) w l := by
  induction n generalizing w l excluded with
  | zero => exact ⟨hT, fun _ => hcounted, by omega, fun a ha => hfailed a (List.mem_of_mem_tail ha)⟩
  | succ n ih =>
    simp only [List.range'_succ, attempts, wp_bind]
    refine wp_select_sequential (fun i p t l' hfresh hle hadds => ?_) fun l' hadds => ?_
    · have hlen : sends (⟨t, .selected model (model.endpoints.get i), ()⟩ :: l') = sends l := hadds.sends
      have hT' := hT.quiet hadds (fun _ => rfl) (World.setPosition_cooldowns w model.name p) hT.named
      -- what the round adds, whichever way it ends
      have hbill : ∀ {again : Prop} {w' : World} {l'' : List Entry},
          Extended settings me rid model request headers w₀
            (⟨t, .selected model (model.endpoints.get i), ()⟩ :: l') (model.endpoints.get i) again w' l'' →
          Billed settings me rid model request headers w₀ ((sends l).length + (n + 1)) w' l'' := by
        intro again w' l'' h
        obtain ⟨a, hsends, _, _⟩ := h.one
        rw [hlen] at hsends
        exact ⟨h.tally, fun _ => h.counted, by rw [hsends, List.length_cons]; omega,
          by rw [hsends]; exact hfailed⟩
      have hunsent : ∀ {w' : World} {l'' : List Entry},
          Unsent settings me rid model request headers w₀
            (⟨t, .selected model (model.endpoints.get i), ()⟩ :: l') w' l'' →
          Billed settings me rid model request headers w₀ ((sends l).length + (n + 1)) w' l'' := by
        intro w' l'' h
        have hsends : sends l'' = sends l := h.none.trans hlen
        exact ⟨h.tally, fun hannounced => absurd hannounced h.unannounced, by rw [hsends]; omega,
          by rw [hsends]; exact fun a ha => hfailed a (List.mem_of_mem_tail ha)⟩
      refine wp_mono (fun r w' l'' h => ?_) (fun e w' l'' h => h.elim hbill hunsent)
        (wp_attemptOnce hT' (by rw [hlen]) (List.get_mem _ i) (by rwa [hlen, ← hexcluded]) rfl hle)
      cases r with
      | some exchange => exact hbill h
      | none =>
        obtain ⟨a, hsends, hendpoint, hfail⟩ := h.one
        rw [hlen] at hsends
        have hlength : (sends l'').length = (sends l).length + 1 := by rw [hsends, List.length_cons]
        have hnext := ih h.tally h.counted
          (by rw [hsends]; exact List.forall_mem_cons.2 ⟨hfail rfl, hfailed⟩) rfl
        rw [hsends, List.map_cons, hendpoint, ← hexcluded, ← hsends] at hnext
        rw [hlength, Nat.add_assoc, Nat.add_comm 1 n] at hnext
        exact hnext
    · refine ⟨hT.quiet hadds (fun _ => rfl) rfl hT.named, fun _ => ?_, ?_, ?_⟩
      · rw [hcounted, hadds.sends, List.nil_append]
      · rw [hadds.sends, List.nil_append]
        omega
      · rw [hadds.sends, List.nil_append]
        exact fun a ha => hfailed a (List.mem_of_mem_tail ha)

end Loop

/-! ### A whole call -/

/-- **The bill of one call** that started in `w` and ended in `w'` with log `l`. -/
structure Accounting (settings : Settings) (me : ℕ) (rid : Str) (w w' : World) (l : List Entry) :
    Prop where
  /-- at most two attempts -/
  bounded : (sends l).length ≤ 2
  /-- each to a replica of a configured model -/
  configured : ∀ a ∈ sends l, (∃ label, settings.models.lookup label = some a.model) ∧
    a.endpoint ∈ a.model.endpoints
  /-- all to the one selected model, with the same payload and the same headers -/
  same : ∀ a ∈ sends l, ∀ b ∈ sends l,
    a.model = b.model ∧ a.request = b.request ∧ a.headers = b.headers
  /-- each selected before it was tried, at an instant at which it was not cooling down -/
  eligible : ∀ a ∈ sends l, ∃ t ≤ a.time, ⟨t, .selected a.model a.endpoint, ()⟩ ∈ l ∧
    w.deadline a.replica ≤ t
  /-- to replicas with different names -/
  distinct : ((sends l).map fun a => a.endpoint.name).Nodup
  /-- every attempt but the newest failed over -/
  provoked : ∀ a ∈ (sends l).tail, a.cause?.isSome
  /-- an attempt that failed over leaves its replica cooling down -/
  cooled : ∀ a ∈ sends l, a.cause?.isSome → ∃ d, w'.cooldowns a.replica = some d ∧
    a.time + settings.cooldownSeconds ≤ d
  /-- no other attempt touches the table -/
  untouched : ∀ replica, (∀ a ∈ sends l, a.cause?.isSome → a.replica ≠ replica) →
    w'.cooldowns replica = w.cooldowns replica
  /-- one `replica_failure` record for each attempt that failed over, and no others -/
  recorded : replicaFailures l = (sends l).filterMap (Attempt.record? rid)
  /-- one `retry` record for each attempt but the first, and no others, if the sink takes them -/
  retried : Announced l → retries l = (sends l).dropLast.map (Attempt.retryRecord rid)
  /-- the event counts the attempts begun, if the sink takes the records of retries -/
  counted : Announced l → (w'.calls me).event.attempts = some (sends l).length

section Call

variable {lib : Lib} {settings : Settings} {me : ℕ} {rid : Str} {w w' w'' : World}
  {l l' : List Entry}

/-- Entries and writes that have nothing to do with attempts change no bill. -/
theorem Accounting.quiet (h : Accounting settings me rid w w' l) (hadds : Adds l l' [] [] [])
    (htable : w''.cooldowns = w'.cooldowns)
    (hattempts : (w''.calls me).event.attempts = (w'.calls me).event.attempts) :
    Accounting settings me rid w w'' l' := by
  have hsends : sends l' = sends l := hadds.sends
  constructor
  case eligible =>
    intro a ha
    obtain ⟨t, ht, hmem, hle⟩ := h.eligible a (by rwa [hsends] at ha)
    exact ⟨t, ht, hadds.keeps _ hmem, hle⟩
  case counted =>
    intro hannounced
    rw [hattempts, h.counted (hannounced.of_adds hadds), hsends]
  case recorded => rw [hadds.failures, hsends]; exact h.recorded
  case retried =>
    intro hannounced
    rw [hadds.retries, hsends]
    exact h.retried (hannounced.of_adds hadds)
  all_goals rw [hsends]
  case bounded => exact h.bounded
  case configured => exact h.configured
  case same => exact h.same
  case distinct => exact h.distinct
  case provoked => exact h.provoked
  case cooled => rw [htable]; exact h.cooled
  case untouched => rw [htable]; exact h.untouched

/-- The bill of the loop is the bill of the call. -/
theorem Billed.accounting {model : Model} {request : Payload} {headers : Headers}
    (h : Billed settings me rid model request headers w 2 w' l)
    (hmodel : ∃ label, settings.models.lookup label = some model) :
    Accounting settings me rid w w' l where
  bounded := h.bounded
  configured a ha := by
    obtain ⟨rfl, hmem, _⟩ := h.tally.same a ha
    exact ⟨hmodel, hmem⟩
  same a ha b hb := by
    obtain ⟨hma, _, hpa, hha⟩ := h.tally.same a ha
    obtain ⟨hmb, _, hpb, hhb⟩ := h.tally.same b hb
    exact ⟨hma.trans hmb.symm, hpa.trans hpb.symm, hha.trans hhb.symm⟩
  eligible := h.tally.eligible
  distinct := h.tally.distinct
  provoked := h.provoked
  cooled := h.tally.cooled
  untouched := h.tally.untouched
  recorded := h.tally.recorded
  retried := h.tally.retried
  counted := h.counted

/-- No attempt has been made yet. -/
structure Untried (me : ℕ) (rid : Str) (w w' : World) (l : List Entry) : Prop where
  adds : Adds [] l [] [] []
  table : w'.cooldowns = w.cooldowns
  counted : (w'.calls me).event.attempts = some 0
  named : (w'.calls me).event.requestId = rid

theorem Untried.sends_eq (h : Untried me rid w w' l) : sends l = [] := h.adds.sends

theorem Untried.tally (h : Untried me rid w w' l) {model : Model} {request : Payload}
    {headers : Headers} : Tally settings me rid model request headers w w' l where
  same := by simp [h.sends_eq]
  eligible := by simp [h.sends_eq]
  distinct := by simp [h.sends_eq]
  cooled := by simp [h.sends_eq]
  untouched _ _ := by rw [h.table]
  recorded := by
    rw [h.sends_eq]
    exact h.adds.failures
  retried _ := by
    rw [h.sends_eq]
    exact h.adds.retries
  named := h.named

theorem Untried.accounting (h : Untried me rid w w' l) : Accounting settings me rid w w' l where
  bounded := by simp [h.sends_eq]
  configured := by simp [h.sends_eq]
  same := by simp [h.sends_eq]
  eligible := by simp [h.sends_eq]
  distinct := by simp [h.sends_eq]
  provoked := by simp [h.sends_eq]
  cooled := by simp [h.sends_eq]
  untouched _ _ := by rw [h.table]
  recorded := by
    rw [h.sends_eq]
    exact h.adds.failures
  retried _ := by
    rw [h.sends_eq]
    exact h.adds.retries
  counted _ := by rw [h.counted, h.sends_eq]; rfl

/-- Preparing a request makes no attempt. -/
theorem untried_neutral : Neutral sequential me Preparing Preparatory (Untried me rid w) := by
  refine .of_alone ?_ ?_ ?_
  · rintro w₁ _ l₁ rfl h
    exact h
  · intro w₁ q t a l₁ hq _ h
    refine ⟨?_, h.table, h.counted, h.named⟩
    have hone : Adds l₁ (⟨t, q, a⟩ :: l₁) [] [] [] := by
      cases q <;> first | exact adds_cons rfl rfl rfl | exact hq.elim
    exact h.adds.trans hone
  · intro w₁ f l₁ hf h
    have hev := hf (w₁.calls me).event
    refine ⟨h.adds, h.table, ?_, ?_⟩
    · rw [World.setCall_calls_self]
      exact (congrArg Event.attempts hev).trans h.counted
    · rw [World.setCall_calls_self]
      exact (congrArg Event.requestId hev).trans h.named

theorem wp_openInner {request : Payload} {headers : Headers} {started : ℚ}
    (h : Untried me rid w w' l) :
    sequential.wp (Gateway.openInner lib settings me request headers started)
      (fun _ => Accounting settings me rid w) (fun _ => Accounting settings me rid w) w' l := by
  simp only [Gateway.openInner, wp_bind]
  refine wp_mono ?_ (fun _ _ _ h => h.accounting)
    (untried_neutral.prepare (fun _ h => h) (fun _ h => h) request headers w' l h)
  rintro ⟨model, prepared, forwarded⟩ w₁ l₁ ⟨⟨hmodel, _⟩, h₁⟩
  simp only [clock, wp_ask]
  intro now l₂ hnow
  have h₂ := untried_neutral.ask _ _ Call.clock _ _ trivial h₁ hnow
  have hT : Tally settings me rid model prepared forwarded w w₁ l₂ := h₂.tally
  have hloop := wp_attempts lib started now 2 hT (by rw [h₂.counted, h₂.sends_eq]; rfl)
    (by simp [h₂.sends_eq]) rfl
  rw [h₂.sends_eq] at hloop
  exact wp_mono (fun _ _ _ h => h.accounting hmodel) (fun _ _ _ h => h.accounting hmodel) hloop

end Call

/-- **Bounded failover.**  From any tables, whatever the ports answer and wherever the event
sink raises, one `Gateway.open` runs up exactly this bill. -/
theorem open_accounting (lib : Lib) (settings : Settings) (me : ℕ) (request : Payload)
    (headers : Headers) (rid : Str) (w w' : World) (l : List Entry) (r : Except Err Exchange)
    (h : sequential.Run (Gateway.open lib settings me request headers rid) w [] r w' l) :
    Accounting settings me rid w w' l := by
  have hwp : sequential.wp (Gateway.open lib settings me request headers rid)
      (fun _ => Accounting settings me rid w) (fun _ => Accounting settings me rid w) w [] := by
    simp only [Gateway.open, wp_bind, clock, wp_ask, wp_update, wp_tryCatch]
    intro started l₁ hclock
    obtain ⟨t, rfl, _⟩ := sequential_admits hclock
    have hstart : Untried me rid w (w.setCall me fun c =>
        { c with event := { requestId := rid, attempts := some 0 } }) [⟨t, .clock, started⟩] :=
      ⟨adds_cons rfl rfl rfl, rfl, by simp, by simp⟩
    refine wp_mono (fun _ _ _ h => h) (fun e w₁ l₁ h₁ => ?_) (wp_openInner hstart)
    intro now l₂ hnow
    obtain ⟨t₂, rfl, _⟩ := sequential_admits hnow
    simp only [updateEvent, wp_update, eventOf, wp_bind, wp_read, wp_pure]
    have hadds : Adds l₁ (⟨t₂, .clock, now⟩ :: l₁) [] [] [] := adds_cons rfl rfl rfl
    refine wp_emit (fun t₃ _ => ?_) fun t₃ e₃ => ?_
    · exact h₁.quiet (hadds.trans (adds_cons rfl rfl rfl : Adds _ _ [] [] [])) rfl (by simp)
    · exact h₁.quiet (hadds.trans (adds_cons rfl rfl rfl : Adds _ _ [] [] [])) rfl (by simp)
  exact h.result (P := fun _ => Accounting settings me rid w) hwp

namespace Demo

/-- Surroundings in which the first replica cannot be reached and the second answers; `sink`
is what the event sink does with a retry record. -/
def failingOver (sink : Except Err Unit) (l : List Entry) (q : Call) : ℚ × Answer q :=
  (now l, match q with
    | .emit (.retry _ _ _) => sink
    | q => answer (fun endpoint => if endpoint.name = lit "a" then .error (.exc .connectFailure)
        else .ok (upstream 200)) (.ok ()) (now l) q)

/-- The run of a call in these surroundings. -/
def failover (sink : Except Err Unit) : Except Err Exchange × World × List Entry :=
  exec (failingOver sink) (Gateway.open lib settings 0 request [] (lit "r")) world []

theorem failover_run (sink : Except Err Unit) :
    sequential.Run (Gateway.open lib settings 0 request [] (lit "r")) world [] (failover sink).1
      (failover sink).2.1 (failover sink).2.2 := by
  refine exec_run (fun w w' => w' = w) (fun l st => Ordered l st ∧ Truthful st) (fun _ => rfl)
    (failingOver sink) (fun l q => ⟨now_ordered l q _, ?_⟩) _ world []
  cases q <;> trivial

end Demo

/-- Here the first replica cannot be reached and the second one answers. -/
theorem open_accounting_connect_failure : ∃ r w' l,
    sequential.Run (Gateway.open Demo.lib Demo.settings 0 Demo.request [] (lit "r"))
      Demo.world [] r w' l ∧ (sends l).length = 2 ∧ Announced l ∧
      Accounting Demo.settings 0 (lit "r") Demo.world w' l :=
  ⟨_, _, _, Demo.failover_run (.ok ()), by decide +kernel, by decide +kernel,
    open_accounting _ _ _ _ _ _ _ _ _ _ (Demo.failover_run (.ok ()))⟩

/-- **A retry may be announced and counted without an attempt**: here the sink raises on its
record. -/
theorem unannounced_retry : ∃ r w' l,
    sequential.Run (Gateway.open Demo.lib Demo.settings 0 Demo.request [] (lit "r"))
      Demo.world [] r w' l ∧ (sends l).length = 1 ∧ (retries l).length = 1 ∧
      (w'.calls 0).event.attempts = some 2 :=
  ⟨_, _, _, Demo.failover_run (.error (.exc .other)), by decide +kernel, by decide +kernel, by decide +kernel⟩

end Application
end SwitchyardGateway
