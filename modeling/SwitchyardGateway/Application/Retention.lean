/-
# A real answer is given up only for a second attempt

When the first attempt of a call is answered with a status that allows another
attempt, the answer is closed only if another replica looks eligible.  The close
is awaited, and the replica is chosen after it.

`Retains` is what a client is promised: such an answer is either returned, still
open, or a second replica is really tried.  The code does not keep it
(`answer_given_up`): the close can raise, or another call can cool the other
replica down while it is awaited, and then `Gateway.open` fails though it held an
answer.  In runs in which a discarded answer closes without an `Exception` and
leaves another replica eligible at that instant, the promise is kept
(`answers_retained`).
-/

import SwitchyardGateway.Application.Cooldown

namespace SwitchyardGateway
namespace Application

open Coop Coop.Discipline Python

/-- Calls overlap in any way, time goes forward and the event sink does not raise. -/
def busy : System World ℚ Call Answer where
  admits w l i st := overlapping.admits w l i st ∧ SinkOk st

/-- The first attempt was answered with a status that allows another one. -/
def Rejected (l : List Entry) (a : Attempt) (upstream : Upstream) : Prop :=
  (sends l).getLast? = some a ∧ a.answer = .ok upstream ∧ retryable upstream.status

/-- What an uncancelled call does with such an answer: it returns it, still open,
or sends the request to another replica of the model. -/
def Retains (r : Except Err Exchange) (l : List Entry) : Prop :=
  ∀ a upstream, Rejected l a upstream → (∀ e, r = .error e → ∃ x, e = .exc x) →
    (∃ exchange, r = .ok exchange ∧ exchange.response = ⟨0, upstream⟩ ∧ closes l = []) ∨
    ∃ b, sends l = [b, a] ∧ b.model = a.model ∧ b.endpoint ∈ a.model.endpoints ∧
      b.endpoint.name ≠ a.endpoint.name

/-- **No call gives up an answer for nothing**, in any run of the system. -/
def RetainsAnswers (lib : Lib) (settings : Settings) (S : System World ℚ Call Answer) (w : World) :
    Prop :=
  ∀ c : Pool World ℚ Call Answer Err Exchange, S.Reachable (opens lib settings) w c →
    ∀ i r, System.result c i = some r → Retains r (own i c.log)

/-- A discarded answer closes without an `Exception`, and once it is closed another
replica than the one that gave it is not cooling down. -/
def LeavesChoice (w : World) (l : List Entry) : Entry → Prop
  | ⟨t, .close _, .ok ()⟩ => ∀ a ∈ (sends l).head?, ∃ endpoint ∈ a.model.endpoints,
      endpoint.name ≠ a.endpoint.name ∧ w.deadline (a.model.name, endpoint.name) ≤ t
  | ⟨_, .close _, .error (.exc _)⟩ => False
  | _ => True

/-- Overlapping calls in which every discarded answer leaves a choice. -/
def choosing : System World ℚ Call Answer where
  admits w l i st := busy.admits w l i st ∧ LeavesChoice w (own i l) st

instance (w : World) (l : PoolLog) (i : ℕ) (st : Entry) : Decidable (busy.admits w l i st) :=
  inferInstanceAs (Decidable (overlapping.admits w l i st ∧ SinkOk st))

instance (w : World) (l : List Entry) : DecidablePred (LeavesChoice w l)
  | ⟨t, .close _, .ok ()⟩ => inferInstanceAs (Decidable (∀ a ∈ (sends l).head?,
      ∃ endpoint ∈ a.model.endpoints, endpoint.name ≠ a.endpoint.name ∧
        w.deadline (a.model.name, endpoint.name) ≤ t))
  | ⟨_, .close _, .error (.exc _)⟩ => isFalse id
  | ⟨_, .close _, .error .cancelled⟩ | ⟨_, .close _, .error .exit⟩ => isTrue trivial
  | ⟨_, .clock, _⟩ | ⟨_, .utcnow, _⟩ | ⟨_, .emit _, _⟩ | ⟨_, .route _ _, _⟩ | ⟨_, .compress _ _, _⟩
  | ⟨_, .send _ _ _ _, _⟩ | ⟨_, .receive, _⟩ | ⟨_, .read _, _⟩ | ⟨_, .iterate, _⟩
  | ⟨_, .yield _, _⟩ | ⟨_, .respond, _⟩ | ⟨_, .selected _ _, _⟩ => isTrue trivial

instance (w : World) (l : PoolLog) (i : ℕ) (st : Entry) : Decidable (choosing.admits w l i st) :=
  inferInstanceAs (Decidable (busy.admits w l i st ∧ LeavesChoice w (own i l) st))

section Calls

variable {lib : Lib} {settings : Settings} {i : ℕ} {w : World} {l : PoolLog}

/-- How call `i` lives among the others, of which it assumes nothing. -/
abbrev chooser (i : ℕ) : Discipline World Call Answer PoolLog :=
  choosing.member (fun _ _ => True) i

/-- An assertion about the attempts and the closes of call `i`. -/
def Own (i : ℕ) (P : List Attempt → List ℕ → Prop) (_ : World) (l : PoolLog) : Prop :=
  P (sends (own i l)) (closes (own i l))

/-- The questions that neither begin an attempt nor close an answer. -/
def Idle : Call → Prop
  | .send _ _ _ _ | .close _ => False
  | _ => True

theorem own_tableFree (P : List Attempt → List ℕ → Prop) : TableFree (Own i P) :=
  fun _ _ _ _ h => h

/-- What a call has sent and closed is not changed by what others do, nor by other
questions; an assertion about it survives an attempt or a close if it is meant to. -/
theorem own_neutral (P : List Attempt → List ℕ → Prop) {quiet : Call → Prop}
    (hsend : ∀ model endpoint request headers, quiet (.send model endpoint request headers) →
      ∀ a S C, P S C → P (a :: S) C)
    (hclose : ∀ n, quiet (.close n) → ∀ S C, P S C → P S (n :: C)) :
    Neutral (chooser i) i quiet (fun _ => True) (Own i P) where
  park _ _ _ _ _ := trivial
  wake := by
    rintro w l _ w' l' _ h ⟨_, hown, _⟩
    rwa [Own, hown]
  ask := by
    rintro w l q a _ hq h ⟨t, _, rfl⟩
    rw [Own, own_cons_self]
    cases q with
    | send model endpoint request headers => exact hsend _ _ _ _ hq _ _ _ h
    | close n => exact hclose n hq _ _ h
    | _ => exact h
  event _ _ _ _ h := h

theorem own_neutral_idle (P : List Attempt → List ℕ → Prop) :
    Neutral (chooser i) i Idle (fun _ => True) (Own i P) :=
  own_neutral P (fun _ _ _ _ hq => hq.elim) (fun _ hq => hq.elim)

/-- The event sink does not raise. -/
theorem wp_emit_chooser {record : Record} {ok : Unit → World → PoolLog → Prop}
    {err : Err → World → PoolLog → Prop}
    (h : ∀ l', (chooser i).admits w l (.emit record) (.ok ()) l' → ok () w l') :
    (chooser i).wp (emit record) ok err w l := by
  rw [emit, wp_bind, wp_ask]
  intro a l' ha
  obtain ⟨t, ⟨⟨_, hsink⟩, _⟩, _⟩ := id ha
  obtain rfl : a = .ok () := hsink
  exact h l' ha

/-- A failure is recorded without raising. -/
theorem wp_failover_chooser {P : List Attempt → List ℕ → Prop} {me : ℕ} {model : Model}
    {endpoint : Endpoint} {retryAfter : Str} {cause : FailureCause}
    {ok : Unit → World → PoolLog → Prop} {err : Err → World → PoolLog → Prop} {w' : World}
    (h : Own i P w' l) (hok : ∀ w l, Own i P w l → ok () w l) :
    (chooser i).wp (Gateway.cooldown lib settings (model.name, endpoint.name) retryAfter)
      (fun _ => (chooser i).wp (emitFailure me model endpoint cause) ok err) err w l := by
  refine wp_cooldown fun date l₁ hdate now l₂ hnow => ?_
  have h₁ : Own i P w l₁ := by
    rcases hdate with ⟨rfl, _⟩ | hdate
    · exact h
    · exact (own_neutral_idle P).ask w l Call.utcnow date l₁ trivial h hdate
  have h₂ := (own_neutral_idle P).ask w l₁ Call.clock now l₂ trivial h₁ hnow
  simp only [emitFailure, eventOf, wp_bind, wp_read, wp_pure]
  exact wp_emit_chooser fun l₃ ha => hok _ _ ((own_neutral_idle P).ask _ _ (Call.emit _) _ _ trivial h₂ ha)

/-! ### The three ways a promise is kept -/

/-- The first attempt was not answered with such a status. -/
def Otherwise (S : List Attempt) (_ : List ℕ) : Prop :=
  ∃ a, S.getLast? = some a ∧ ∀ upstream, a.answer = .ok upstream → ¬ retryable upstream.status

/-- After `a`, another replica of its model was tried. -/
def Tried (a : Attempt) (S : List Attempt) (_ : List ℕ) : Prop :=
  ∃ b, S = [b, a] ∧ b.model = a.model ∧ b.endpoint ∈ a.model.endpoints ∧
    b.endpoint.name ≠ a.endpoint.name

theorem Own.retains_of_otherwise {r : Except Err Exchange} (h : Own i Otherwise w l) :
    Retains r (own i l) := by
  obtain ⟨a, hlast, hnot⟩ := h
  rintro a' upstream ⟨hlast', hanswer, hretry⟩ _
  obtain rfl := Option.some.inj (hlast.symm.trans hlast')
  exact absurd hretry (hnot upstream hanswer)

theorem Own.retains_of_tried {a : Attempt} {r : Except Err Exchange} (h : Own i (Tried a) w l) :
    Retains r (own i l) := by
  obtain ⟨b, hsends, hb⟩ := h
  rintro a' upstream ⟨hlast, _, _⟩ _
  obtain rfl : a = a' := by
    rw [hsends] at hlast
    exact Option.some.inj hlast
  exact .inr ⟨b, hsends, hb⟩

theorem Own.retains_of_untried {r : Except Err Exchange}
    (h : Own i (fun S _ => S = []) w l) : Retains r (own i l) := by
  rintro a upstream ⟨hlast, _, _⟩ _
  rw [show sends (own i l) = [] from h] at hlast
  cases hlast

theorem otherwise_send (a : Attempt) (S : List Attempt) (C : List ℕ) (h : Otherwise S C) :
    Otherwise (a :: S) C := by
  obtain ⟨a', hlast, hnot⟩ := h
  refine ⟨a', ?_, hnot⟩
  rw [List.getLast?_cons, hlast, Option.getD_some]

/-! ### The two rounds -/

/-- An idle question changes nothing, in whatever world. -/
theorem Own.idle {P : List Attempt → List ℕ → Prop} {w w' w'' : World} {q : Call} {a : Answer q}
    {l' : PoolLog} (h : Own i P w l) (ha : (chooser i).admits w' l q a l') (hq : Idle q) :
    Own i P w'' l' :=
  (own_neutral_idle P).ask w' l q a l' hq h ha

variable {model : Model} {prepared : Payload} {forwarded : Headers} {started upstreamStarted : ℚ}

/-- Once another replica has been tried, that stays so to the end of the round. -/
theorem answered_tried {a : Attempt} (endpoint : Endpoint) (excluded : List Str) (upstream : Upstream) :
    (chooser i).Preserves (Own i (Tried a)) (answered lib settings i model started upstreamStarted 1
      endpoint excluded upstream) fun _ => True := by
  have hT : Neutral (chooser i) i (fun q => ∀ m e p f, q ≠ .send m e p f) (fun _ => True)
      (Own i (Tried a)) := own_neutral _ (fun m e p f h => absurd rfl (h m e p f)) fun _ _ _ _ h => h
  refine hT.answered (own_tableFree _) (fun q hq m e p f heq => ?_) (fun _ _ => trivial) _ _ _ _ _ _ _
  subst heq
  exact hq

/-- **The second round**, once another replica is known to be eligible: it is
selected, or another one is, and tried. -/
theorem wp_second {a : Attempt} {choice : Endpoint} (hsends : Own i (fun S _ => S = [a]) w l)
    (hmodel : a.model = model) (hmem : choice ∈ model.endpoints)
    (hne : choice.name ≠ a.endpoint.name)
    (hfree : ∃ prev ∈ l.head?, w.deadline (model.name, choice.name) ≤ prev.2.time) :
    (chooser i).wp (attempts lib settings i model prepared forwarded started upstreamStarted [1]
        [a.endpoint.name]) (fun _ => Own i (Tried a)) (fun _ => Own i (Tried a)) w l := by
  subst hmodel
  let J : World → PoolLog → Prop := fun w l => Own i (fun S _ => S = [a]) w l ∧
    ∃ prev ∈ l.head?, w.deadline (a.model.name, choice.name) ≤ prev.2.time
  have hlater : ∀ w l now l', J w l → (chooser i).admits w l Call.clock now l' →
      w.deadline (a.model.name, choice.name) ≤ now ∧ J w l' := by
    intro w l now l' ⟨h, prev, hprev, hle⟩ hnow
    have h' : Own i _ w l' := h.idle hnow trivial
    obtain ⟨t, ⟨⟨⟨hord, htrue⟩, _⟩, _⟩, rfl⟩ := hnow
    obtain rfl : now = t := htrue
    have hle' := le_trans hle (hord prev hprev)
    exact ⟨hle', h', _, rfl, hle'⟩
  simp only [attempts, wp_bind]
  refine wp_select (J := J) (fun w l now l' hJ hnow => (hlater w l now l' hJ hnow).2) ?_ ?_
    ⟨hsends, hfree⟩
  · intro w l index now l₁ l₂ hJ hfresh hnow _ hselected
    rw [List.mem_singleton] at hfresh
    simp only [attemptOnce, wp_bind, updateEvent, wp_update, emitRetry, one_ne_zero, if_false,
      eventOf, wp_read, wp_pure]
    refine wp_emit_chooser fun l₃ hemit => ?_
    have h₃ : Own i (fun S _ => S = [a]) w l₃ :=
      ((hlater w l now l₁ hJ hnow).2.1.idle hselected trivial : Own i _ w l₂).idle hemit trivial
    have htried : ∀ w₁ l₁ answer l₄, own i l₁ = own i l₃ →
        (chooser i).admits w₁ l₁ (.send a.model (a.model.endpoints.get index) prepared forwarded) answer l₄ →
          Own i (Tried a) w₁ l₄ := by
      rintro w₁ l₁ answer _ hown ⟨t, _, rfl⟩
      rw [Own, own_cons_self, hown]
      exact ⟨⟨t, a.model, a.model.endpoints.get index, prepared, forwarded, answer⟩,
        congrArg (_ :: ·) h₃, rfl, List.get_mem _ index, hfresh⟩
    refine wp_trySend trivial (fun w₁ l₁ upstream l₄ hwake ha => ?_) (fun w₁ l₁ l₄ hwake ha => ?_)
      (fun w₁ l₁ e l₄ hwake _ ha => htried w₁ l₁ _ l₄ hwake.2.1 ha)
    · refine wp_mono (fun r _ _ h => ?_) (fun _ _ _ h => h)
        (answered_tried _ _ upstream w₁ l₄ (htried w₁ l₁ _ l₄ hwake.2.1 ha))
      cases r with
      | some exchange => exact h.2
      | none => exact h.2
    · exact wp_failover_chooser (htried w₁ l₁ _ l₄ hwake.2.1 ha) fun _ _ h => h
  · intro hrefused
    obtain ⟨index, rfl⟩ := List.mem_iff_get.1 hmem
    rcases hrefused index with hexcluded | ⟨w, l, now, l', hJ, hnow, hlt⟩
    · exact absurd (List.mem_singleton.1 hexcluded) hne
    · exact absurd hlt (not_lt.2 (hlater w l now l' hJ hnow).1)

/-- **A rejected first answer**: it is returned, or closed for another replica. -/
theorem wp_rejected {a : Attempt} {endpoint : Endpoint} {upstream : Upstream}
    (h : Own i (fun S C => S = [a] ∧ C = []) w l) (hmodel : a.model = model)
    (hendpoint : a.endpoint = endpoint) (hanswer : a.answer = .ok upstream)
    (hretry : retryable upstream.status) :
    (chooser i).wp (answered lib settings i model started upstreamStarted 0 endpoint [endpoint.name]
        upstream)
      (fun r => (chooser i).wp (match r with
          | some exchange => return exchange
          | none => attempts lib settings i model prepared forwarded started upstreamStarted [1]
              [endpoint.name])
        (fun r _ l => Retains (.ok r) (own i l)) (fun e _ l => Retains (.error e) (own i l)))
      (fun e _ l => Retains (.error e) (own i l)) w l := by
  subst hmodel hendpoint
  have hidle : Neutral (chooser i) i Idle (fun _ => True) (Own i fun S C => S = [a] ∧ C = []) :=
    own_neutral_idle _
  simp only [answered, wp_bind, updateEvent, wp_update, coolRejected, hretry, if_true]
  refine wp_failover_chooser h fun w l h => ?_
  -- looking for another replica cannot fail
  have hlook : (chooser i).wp (discards a.model [a.endpoint.name] 0 upstream)
      (fun b w l => (b = true → _) ∧ Own i (fun S C => S = [a] ∧ C = []) w l)
      (fun _ _ _ => False) w l :=
    hidle.discards trivial a.model [a.endpoint.name] 0 upstream h
  refine wp_mono (fun discarded w l h => ?_) (fun _ _ _ h => h.elim) hlook
  replace h := h.2
  cases discarded with
  | false =>
    simp only [conclude, wp_bind, clock, wp_ask, updateEvent, wp_update, wp_pure]
    intro now l₁ hnow
    have h₁ : Own i (fun S C => S = [a] ∧ C = []) w l₁ := h.idle hnow trivial
    rintro a' upstream' ⟨hlast, hanswer', _⟩ _
    rw [h₁.1] at hlast
    obtain rfl := Option.some.inj hlast
    obtain rfl := Except.ok.inj (hanswer.symm.trans hanswer')
    exact .inl ⟨_, rfl, rfl, h₁.2⟩
  | true =>
    simp only [conclude, close, wp_bind, wp_askAwait, wp_ofExcept]
    refine ⟨trivial, ?_⟩
    rintro w₁ l₁ ⟨_, hown, _⟩ r l₂ ⟨t, ⟨_, hchoice⟩, rfl⟩
    have hsends : sends (own i l₁) = [a] := by rw [hown]; exact h.1
    have h₂ : Own i (fun S _ => S = [a]) w₁ ((i, ⟨t, .close 0, r⟩) :: l₁) := by
      rw [Own, own_cons_self]
      exact hsends
    cases r with
    | ok _ =>
      obtain ⟨choice, hmem, hne, hle⟩ := hchoice a (by rw [hsends]; rfl)
      rw [ends_ok, wp_pure]
      exact wp_mono (fun _ _ _ h => h.retains_of_tried) (fun _ _ _ h => h.retains_of_tried)
        (wp_second h₂ rfl hmem hne ⟨_, rfl, hle⟩)
    | error e =>
      cases e with
      | exc x => exact hchoice.elim
      | cancelled => exact fun _ _ _ h => by obtain ⟨x, hx⟩ := h _ rfl; cases hx
      | exit => exact fun _ _ _ h => by obtain ⟨x, hx⟩ := h _ rfl; cases hx

/-- **The first round**, and all that follows it. -/
theorem wp_rounds (h : Own i (fun S C => S = [] ∧ C = []) w l) :
    (chooser i).wp (attempts lib settings i model prepared forwarded started upstreamStarted [0, 1] [])
      (fun r _ l => Retains (.ok r) (own i l)) (fun e _ l => Retains (.error e) (own i l)) w l := by
  have hidle : Neutral (chooser i) i Idle (fun _ => True) (Own i fun S C => S = [] ∧ C = []) :=
    own_neutral_idle _
  have hother : Neutral (chooser i) i (fun _ => True) (fun _ => True) (Own i Otherwise) :=
    own_neutral _ (fun _ _ _ _ _ => otherwise_send) fun _ _ _ _ h => h
  rw [attempts, wp_bind]
  refine wp_mono (fun index w l h => ?_) (fun e w l h => ?_)
    (hidle.select (own_tableFree _) trivial (fun _ _ => trivial) model [] w l h)
  · -- an answer that is not rejected settles the matter
    have hsettled : ∀ (r : Option Exchange) (w : World) (l : PoolLog), Own i Otherwise w l →
        (chooser i).wp (match r with
          | some exchange => return exchange
          | none => attempts lib settings i model prepared forwarded started upstreamStarted [1]
              [(model.endpoints.get index).name])
          (fun r _ l => Retains (.ok r) (own i l)) (fun e _ l => Retains (.error e) (own i l)) w l := by
      intro r w l h
      cases r with
      | some exchange => exact h.retains_of_otherwise
      | none =>
        exact wp_mono (fun _ _ _ h => h.2.retains_of_otherwise) (fun _ _ _ h => h.retains_of_otherwise)
          (hother.attempts (own_tableFree _) (fun _ _ => trivial) (fun _ _ => trivial) _ _ _ _ _ _ _
            (fun _ _ => trivial) w l h)
    have hsent : ∀ w₁ l₁ answer l₂, own i l₁ = own i l → (chooser i).admits w₁ l₁
        (.send model (model.endpoints.get index) prepared forwarded) answer l₂ → ∃ t,
          Own i (fun S C => S = [⟨t, model, model.endpoints.get index, prepared, forwarded, answer⟩] ∧
            C = []) w₁ l₂ := by
      rintro w₁ l₁ answer _ hown ⟨t, _, rfl⟩
      refine ⟨t, ?_⟩
      rw [Own, own_cons_self, hown]
      exact ⟨congrArg (_ :: ·) h.2.1, h.2.2⟩
    simp only [attemptOnce, wp_bind, updateEvent, wp_update, emitRetry, if_true, wp_pure]
    refine wp_trySend trivial (fun w₁ l₁ upstream l₂ hwake ha => ?_) (fun w₁ l₁ l₂ hwake ha => ?_)
      (fun w₁ l₁ e l₂ hwake _ ha => ?_)
    · obtain ⟨t, hS⟩ := hsent w₁ l₁ _ l₂ hwake.2.1 ha
      by_cases hretry : retryable upstream.status
      · exact wp_rejected hS rfl rfl rfl hretry
      · have h₂ : Own i Otherwise w₁ l₂ := by
          refine ⟨_, by rw [hS.1]; rfl, fun upstream' heq => ?_⟩
          obtain rfl := Except.ok.inj heq
          exact hretry
        have hanswered : (chooser i).Preserves (Own i Otherwise) (answered lib settings i model
            started upstreamStarted 0 (model.endpoints.get index) [(model.endpoints.get index).name]
            upstream) fun _ => True :=
          hother.answered (own_tableFree _) (fun _ _ => trivial) (fun _ _ => trivial) _ _ _ _ _ _ _
        exact wp_mono (fun r w l h => hsettled r w l h.2) (fun _ _ _ h => h.retains_of_otherwise)
          (hanswered w₁ l₂ h₂)
    · obtain ⟨t, hS⟩ := hsent w₁ l₁ _ l₂ hwake.2.1 ha
      have h₂ : Own i Otherwise w₁ l₂ := ⟨_, by rw [hS.1]; rfl, fun _ heq => by cases heq⟩
      exact wp_failover_chooser h₂ fun w l h => hsettled none w l h
    · obtain ⟨t, hS⟩ := hsent w₁ l₁ _ l₂ hwake.2.1 ha
      have h₂ : Own i Otherwise w₁ l₂ := ⟨_, by rw [hS.1]; rfl, fun _ heq => by cases heq⟩
      exact h₂.retains_of_otherwise
  · have h₁ : Own i (fun S _ => S = []) w l := h.1
    exact h₁.retains_of_untried

/-- **Every call retains its answer**, whenever it runs. -/
theorem open_retains (p : Py Exchange) (hp : opens lib settings i p) (hfresh : own i l = []) :
    choosing.Keeps (fun _ _ => True) (fun _ r own => Retains r own) i p w l := by
  obtain ⟨request, headers, rid, rfl⟩ := hp
  have hidle : Neutral (chooser i) i Idle (fun _ => True) (Own i fun S C => S = [] ∧ C = []) :=
    own_neutral_idle _
  have hpreparing : ∀ q, Preparing q → Idle q := by
    intro q hq
    cases q <;> first | exact hq.elim | trivial
  have hstart : Own i (fun S C => S = [] ∧ C = []) w l := by
    rw [Own, hfresh]
    exact ⟨rfl, rfl⟩
  refine wp_mono (fun _ _ _ h => ⟨trivial, h⟩) (fun _ _ _ h => ⟨trivial, h⟩) ?_
  -- a question of the handler changes neither attempts nor closes
  have hkeep : ∀ {w : World} {l l' : PoolLog} {q : Call} {a : Answer q} {r : Except Err Exchange},
      (chooser i).admits w l q a l' → Idle q → Retains r (own i l) → Retains r (own i l') := by
    intro w l l' q a r ha hq h
    have hown : Own i (fun S C => S = sends (own i l) ∧ C = closes (own i l)) w l := ⟨rfl, rfl⟩
    have h' : Own i _ w l' := hown.idle ha hq
    unfold Retains Rejected at h ⊢
    rw [h'.1, h'.2]
    exact h
  simp only [Gateway.open, wp_bind, clock, wp_ask, wp_update, wp_tryCatch]
  intro started l₁ hclock
  have hinner : (chooser i).wp (Gateway.openInner lib settings i request headers started)
      (fun r _ l => Retains (.ok r) (own i l)) (fun e _ l => Retains (.error e) (own i l))
      (w.setCall i fun c => { c with event := { requestId := rid, attempts := some 0 } }) l₁ := by
    simp only [Gateway.openInner, wp_bind, clock, wp_ask]
    refine wp_mono (fun r w l h => ?_) (fun e w l h => ?_)
      (hidle.prepare hpreparing (fun _ _ => trivial) request headers _ l₁ (hstart.idle hclock trivial))
    · intro now l₂ hnow
      exact wp_rounds (h.2.idle hnow trivial)
    · have h₁ : Own i (fun S _ => S = []) w l := h.1
      exact h₁.retains_of_untried
  refine wp_mono (fun _ _ _ h => h) (fun e w₂ l₂ h => ?_) hinner
  intro now l₃ hnow
  simp only [updateEvent, wp_update, eventOf, wp_bind, wp_read, wp_pure]
  exact wp_emit_chooser fun l₄ ha => hkeep ha trivial (hkeep hnow trivial h)

end Calls

/-- **Answers are retained** in every run of overlapping calls in which every
discarded answer leaves a choice, from any tables. -/
theorem answers_retained (lib : Lib) (settings : Settings) (w : World)
    (c : Pool World ℚ Call Answer Err Exchange)
    (hc : choosing.Reachable (opens lib settings) w c) (i : ℕ) (r : Except Err Exchange)
    (hr : System.result c i = some r) : Retains r (own i c.log) := by
  have hinv : choosing.Inv (fun _ _ => True) (fun _ r own => Retains r own) c :=
    System.Reachable.inv (fun i p hp s l _ hfresh => open_retains p hp hfresh) trivial hc
  exact hinv.result_post hr

/-! ### A close that raises -/

/-- A single attempt, rejected, and a call that failed all the same. -/
def gaveUp (r : Except Err Exchange) (l : List Entry) : Bool :=
  match r, sends l with
  | .error (.exc _), [a] =>
    match a.answer with
    | .ok upstream => retryable upstream.status
    | .error _ => false
  | _, _ => false

theorem not_retains_of_gaveUp {r : Except Err Exchange} {l : List Entry} (h : gaveUp r l = true) :
    ¬ Retains r l := by
  intro hr
  unfold gaveUp at h
  split at h
  · rename_i x a hsends
    split at h
    · rename_i upstream hanswer
      have hrejected : Rejected l a upstream := ⟨by rw [hsends]; rfl, hanswer, h⟩
      rcases hr a upstream hrejected (fun e he => ⟨x, (Except.error.inj he).symm⟩) with
        ⟨_, hok, _⟩ | ⟨b, hb, _⟩
      · cases hok
      · rw [hsends] at hb
        cases hb
    · cases h
  · cases h

/-- The first replica answers 429 and the second one is never asked. -/
def Demo.rejecting (close : Except Err Unit) (l : PoolLog) (q : Call) : ℚ × Answer q :=
  let t := (l.head?.map fun e => e.2.time + 1).getD 0
  (t, Demo.answer (fun endpoint => .ok (Demo.upstream (if endpoint.name = lit "a" then 429 else 200)))
    close t q)

/-- The first replica answers 429, the second one is eligible, and closing the
first answer raises: the call fails, and the second replica is never tried. -/
theorem answer_given_up : ¬ RetainsAnswers Demo.lib Demo.settings busy Demo.world := by
  intro h
  obtain ⟨c, hplay, hbad⟩ := (Option.any_eq_true _ _).1 (by decide +kernel :
    (System.play (Demo.rejecting (.error (.exc .other)))
      (fun w l i st => decide (busy.admits w l i st)) (Demo.call Demo.settings)
      [.start, .resume 0, .resume 0] ⟨Demo.world, [], []⟩).any
        fun c => (System.result c 0).any fun r => gaveUp r (own 0 c.log))
  have hc : busy.Reachable (opens Demo.lib Demo.settings) Demo.world c :=
    System.play_steps (fun _ _ _ _ hst => of_decide_eq_true hst)
      (fun i => ⟨Demo.request, [], lit "r", rfl⟩) _ hplay
  obtain ⟨r, hr, hgave⟩ := (Option.any_eq_true _ _).1 hbad
  exact not_retains_of_gaveUp hgave (h c hc 0 r hr)

/-- When it closes, the second replica is tried. -/
theorem answers_retained_second : ∃ c r,
    choosing.Reachable (opens Demo.lib Demo.settings) Demo.world c ∧
      System.result c 0 = some r ∧ (sends (own 0 c.log)).length = 2 ∧ Retains r (own 0 c.log) := by
  obtain ⟨c, hplay, hres⟩ := (Option.any_eq_true _ _).1 (by decide +kernel :
    (System.play (Demo.rejecting (.ok ())) (fun w l i st => decide (choosing.admits w l i st))
      (Demo.call Demo.settings) [.start, .resume 0, .resume 0, .resume 0]
      ⟨Demo.world, [], []⟩).any
        fun c => (System.result c 0).isSome && (sends (own 0 c.log)).length = 2)
  have hc : choosing.Reachable (opens Demo.lib Demo.settings) Demo.world c :=
    System.play_steps (fun _ _ _ _ hst => of_decide_eq_true hst)
      (fun i => ⟨Demo.request, [], lit "r", rfl⟩) _ hplay
  rw [Bool.and_eq_true, decide_eq_true_iff] at hres
  obtain ⟨r, hr⟩ := Option.isSome_iff_exists.1 hres.1
  exact ⟨c, r, hc, hr, hres.2, answers_retained Demo.lib Demo.settings Demo.world c hc 0 r hr⟩

end Application
end SwitchyardGateway
