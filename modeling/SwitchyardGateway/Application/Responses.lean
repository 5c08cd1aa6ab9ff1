/-
# Which responses are open

`transport.send` opens a response and its owner has to close it, once.  Inside
`Gateway.open` a response is closed before another attempt, or handed to the
exchange that is returned (`wp_open_books`).  One statement in between can raise:
the `replica_failure` record of a response with a retryable status.  If the sink
raises there (`Dropped`), nobody owns the response any more.

`Books` keeps count: how many attempts were sent, which responses are open, and
whether a record was dropped.
-/

import SwitchyardGateway.Application.Sends
import Mathlib.Data.List.Nodup

namespace SwitchyardGateway
namespace Application

open Coop Coop.Discipline Python

/-- The sink raised on the failure of a replica that had answered. -/
def Dropped : Entry → Prop
  | ⟨_, .emit (.replicaFailure _ _ _ (.status _)), .error _⟩ => True
  | _ => False

/-- Every response that was opened was closed once. -/
def ClosedOnce (l : List Entry) : Prop := ∀ n ∈ opened l, (closes l).count n = 1

/-- One response is open when `Gateway.open` returns, and it is the exchange's; none
is when it raises. -/
def OneOpen : Except Err Exchange → List Entry → Prop
  | .ok exchange, l => exchange.response.attempt ∈ opened l ∧
    (closes l).count exchange.response.attempt = 0 ∧
    ∀ n ∈ opened l, n ≠ exchange.response.attempt → (closes l).count n = 1
  | .error _, l => ClosedOnce l

/-- `sent` attempts were made, the responses `still` are open, and a record was
dropped or not. -/
structure Books (sent : ℕ) (still : List ℕ) (dropped : Prop) (l : List Entry) : Prop where
  sent : (sends l).length = sent
  balance : (opened l).Perm (still ++ closes l)
  dropped : (∃ e ∈ l, Dropped e) ↔ dropped

/-- The questions that open nothing, close nothing and drop nothing. -/
def Uninvolved : Call → Prop
  | .send _ _ _ _ | .close _ | .emit (.replicaFailure _ _ _ (.status _)) => False
  | _ => True

section

variable {rely : World → World → Prop} {ok : List Entry → Entry → Prop} {lib : Lib}
  {settings : Settings} {me sent : ℕ} {still : List ℕ} {dropped : Prop} {w : World} {l : List Entry}

/-! ### Keeping the books -/

theorem opened_lt {n : ℕ} (h : n ∈ opened l) : n < (sends l).length := by
  induction l with
  | nil => cases h
  | cons e l ih =>
    obtain ⟨t, q, a⟩ := e
    cases q with
    | send model endpoint request headers =>
      cases a with
      | ok upstream =>
        rcases List.mem_cons.1 h with rfl | h
        · exact Nat.lt_succ_self _
        · exact Nat.lt_succ_of_lt (ih h)
      | error e => exact Nat.lt_succ_of_lt (ih h)
    | _ => exact ih h

/-- No two responses have one number. -/
theorem opened_nodup (l : List Entry) : (opened l).Nodup := by
  induction l with
  | nil => exact List.nodup_nil
  | cons e l ih =>
    obtain ⟨t, q, a⟩ := e
    cases q with
    | send model endpoint request headers =>
      cases a with
      | ok upstream => exact List.nodup_cons.2 ⟨fun h => Nat.lt_irrefl _ (opened_lt h), ih⟩
      | error e => exact ih
    | _ => exact ih

namespace Books

theorem nil : Books 0 [] False [] := ⟨rfl, .nil, by simp⟩

/-- Most questions change nothing. -/
theorem cons (h : Books sent still dropped l) {q : Call} (hq : Uninvolved q) (t : ℚ) (a : Answer q) :
    Books sent still dropped (⟨t, q, a⟩ :: l) := by
  have hkept : ¬Dropped ⟨t, q, a⟩ := by
    intro hdropped
    unfold Dropped at hdropped
    split at hdropped
    · rename_i heq
      cases heq
      exact hq
    · exact hdropped
  have hsame : sends (⟨t, q, a⟩ :: l) = sends l ∧ opened (⟨t, q, a⟩ :: l) = opened l ∧
      closes (⟨t, q, a⟩ :: l) = closes l := by
    cases q <;> first | exact hq.elim | exact ⟨rfl, rfl, rfl⟩
  obtain ⟨hsends, hopened, hcloses⟩ := hsame
  refine ⟨hsends ▸ h.sent, ?_, ?_⟩
  · rw [hopened, hcloses]
    exact h.balance
  · rw [← h.dropped]
    simp [hkept]

/-- An answer is open. -/
theorem answered (h : Books sent [] dropped l) {model : Model} {endpoint : Endpoint} {request : Payload}
    {headers : Headers} (t : ℚ) (upstream : Upstream) :
    Books (sent + 1) [sent] dropped (⟨t, .send model endpoint request headers, .ok upstream⟩ :: l) where
  sent := congrArg Nat.succ h.sent
  balance := by
    change ((sends l).length :: opened l).Perm (sent :: closes l)
    rw [h.sent]
    exact h.balance.cons sent
  dropped := by
    rw [← h.dropped]
    simp [Dropped]

/-- A failure opens nothing. -/
theorem unanswered (h : Books sent [] dropped l) {model : Model} {endpoint : Endpoint}
    {request : Payload} {headers : Headers} (t : ℚ) (e : Err) :
    Books (sent + 1) [] dropped (⟨t, .send model endpoint request headers, .error e⟩ :: l) where
  sent := congrArg Nat.succ h.sent
  balance := h.balance
  dropped := by
    rw [← h.dropped]
    simp [Dropped]

/-- A close, whatever comes of it, is the end of a response. -/
theorem closed {n : ℕ} (h : Books sent [n] dropped l) (t : ℚ) (result : Except Err Unit) :
    Books sent [] dropped (⟨t, .close n, result⟩ :: l) where
  sent := h.sent
  balance := h.balance
  dropped := by
    rw [← h.dropped]
    simp [Dropped]

/-- The failure of a replica that had answered is recorded. -/
theorem reported (h : Books sent still False l) (rid model endpoint : Str) (status : ℕ) (t : ℚ) :
    Books sent still False
      (⟨t, .emit (.replicaFailure rid model endpoint (.status status)), .ok ()⟩ :: l) where
  sent := h.sent
  balance := h.balance
  dropped := by
    rw [← h.dropped]
    simp [Dropped]

/-- Or the record is dropped. -/
theorem lost (h : Books sent still False l) (rid model endpoint : Str) (status : ℕ) (t : ℚ) (e : Err) :
    Books sent still True
      (⟨t, .emit (.replicaFailure rid model endpoint (.status status)), .error e⟩ :: l) where
  sent := h.sent
  balance := h.balance
  dropped := iff_of_true ⟨_, List.mem_cons_self, trivial⟩ trivial

/-- When nothing is open, every response was closed once. -/
theorem closedOnce (h : Books sent [] dropped l) : ClosedOnce l := by
  intro n hn
  have hperm : (opened l).Perm (closes l) := h.balance
  rw [← hperm.count_eq n]
  exact List.count_eq_one_of_mem (opened_nodup l) hn

/-- A response that is open was not closed, and it is the only one. -/
theorem oneOpen {n : ℕ} (h : Books sent [n] dropped l) : n ∈ opened l ∧ (closes l).count n = 0 ∧
    ∀ m ∈ opened l, m ≠ n → (closes l).count m = 1 := by
  have hperm : (opened l).Perm (n :: closes l) := h.balance
  have hnodup : (n :: closes l).Nodup := hperm.nodup (opened_nodup l)
  refine ⟨hperm.mem_iff.2 List.mem_cons_self, ?_, fun m hm hmn => ?_⟩
  · exact List.count_eq_zero_of_not_mem (List.nodup_cons.1 hnodup).1
  · rw [← List.count_cons_of_ne (Ne.symm hmn), ← hperm.count_eq m]
    exact List.count_eq_one_of_mem (opened_nodup l) hm

theorem not_closedOnce {n : ℕ} (h : Books sent [n] dropped l) : ¬ClosedOnce l := by
  intro hclosed
  obtain ⟨hn, hcount, -⟩ := h.oneOpen
  have hone := hclosed n hn
  omega

end Books

/-! ### Opening an exchange -/

theorem Preparing.uninvolved {q : Call} (hq : Preparing q) : Uninvolved q := by
  cases q <;> first | exact hq.elim | trivial

/-- An opening that has raised: nothing is open, or a record was dropped and a
response with it. -/
def Abandoned (l : List Entry) : Prop :=
  ∃ sent, Books sent [] False l ∨ ∃ n, Books sent [n] True l

theorem Abandoned.cons {q : Call} (hq : Uninvolved q) (t : ℚ) (a : Answer q) (h : Abandoned l) :
    Abandoned (⟨t, q, a⟩ :: l) := by
  obtain ⟨sent, h | ⟨n, h⟩⟩ := h
  · exact ⟨sent, .inl (h.cons hq t a)⟩
  · exact ⟨sent, .inr ⟨n, h.cons hq t a⟩⟩

theorem Abandoned.of_books (h : Books sent [] False l) : Abandoned l := ⟨sent, .inl h⟩

/-- What a round leaves: nothing open, or the response of the exchange it returns. -/
def Dealt (attempt : ℕ) : Option Exchange → List Entry → Prop
  | none, l => Books (attempt + 1) [] False l
  | some exchange, l => Books (attempt + 1) [exchange.response.attempt] False l

/-- The questions of an opening that do not use the transport. -/
def Aside : Call → Prop
  | .clock | .utcnow | .emit _ | .route _ _ | .compress _ _ | .selected _ _ => True
  | _ => False

theorem Preparing.aside {q : Call} (hq : Preparing q) : Aside q := by
  cases q <;> first | exact hq.elim | trivial

/-- A property of the log that an opening keeps: it sends when nothing is open, and
closes what is. -/
structure Orderly (K : List Entry → Prop) : Prop where
  aside : ∀ q t a l, Aside q → K l → K (⟨t, q, a⟩ :: l)
  send : ∀ sent model endpoint request headers t a l, Books sent [] False l → K l →
    K (⟨t, .send model endpoint request headers, a⟩ :: l)
  close : ∀ sent n t a l, Books sent [n] False l → K l → K (⟨t, .close n, a⟩ :: l)

theorem Orderly.true : Orderly fun _ => True := ⟨by simp, by simp, by simp⟩

section

variable {K : List Entry → Prop} (hK : Orderly K)

include hK

/-- What is neither asked of the transport nor a record that can be dropped leaves the
books and the property alone. -/
theorem booked_neutral (sent : ℕ) (still : List ℕ) (dropped : Prop) :
    Neutral (alone rely ok) me (fun q => Uninvolved q ∧ Aside q) (fun _ => True) fun _ l =>
      Books sent still dropped l ∧ K l :=
  log_neutral fun q t a l hq h => ⟨h.1.cons hq.1 t a, hK.aside q t a l hq.2 h.2⟩

/-- **A response is dealt with**: closed for another attempt, returned, or lost with a
dropped record. -/
theorem wp_answered_kept {model : Model} {started upstreamStarted : ℚ} {attempt : ℕ}
    {endpoint : Endpoint} {excluded : List Str} {upstream : Upstream}
    (h : Books (attempt + 1) [attempt] False l ∧ K l) :
    (alone rely ok).wp
      (answered lib settings me model started upstreamStarted attempt endpoint excluded upstream)
      (fun r _ l => Dealt attempt r l ∧ K l) (fun _ _ l => Abandoned l ∧ K l) w l := by
  have hopen : Neutral (alone rely ok) me _ (fun _ => True) _ :=
    booked_neutral hK (attempt + 1) [attempt] False
  -- what is left once the failure has been recorded
  have hconclude : ∀ w l, Books (attempt + 1) [attempt] False l ∧ K l → (alone rely ok).wp (do
      let discarded ← discards model excluded attempt upstream
      conclude me ⟨⟨attempt, upstream⟩, started, upstreamStarted⟩ discarded)
      (fun r _ l => Dealt attempt r l ∧ K l) (fun _ _ l => Abandoned l ∧ K l) w l := by
    intro w l h
    rw [wp_bind]
    refine wp_mono (fun discarded w₁ l₁ h₁ => ?_) (fun _ _ _ h => h)
      (hopen.discards ⟨trivial, trivial⟩ model excluded attempt upstream h)
    cases discarded with
    | true =>
      simp only [conclude, close, wp_bind, wp_askAwait, wp_ofExcept]
      refine ⟨trivial, ?_⟩
      rintro w₂ l₂ ⟨-, rfl⟩ result _ ⟨t, -, rfl⟩
      have hclosed := h₁.2.1.closed t result
      have hkept := hK.close _ _ t result l₂ h₁.2.1 h₁.2.2
      cases result with
      | ok u => exact ⟨hclosed, hkept⟩
      | error e => exact ⟨.of_books hclosed, hkept⟩
    | false =>
      simp only [conclude, clock, wp_bind, wp_ask, updateEvent, wp_update, wp_pure]
      rintro now _ ⟨t, -, rfl⟩
      exact ⟨h₁.2.1.cons (q := .clock) trivial t now, hK.aside .clock t now l₁ trivial h₁.2.2⟩
  -- the date and the clock are read for the cooldown
  have hcool : ∀ w, (alone rely ok).wp (Gateway.cooldown lib settings (model.name, endpoint.name)
      ((upstream.headers.lookup (lit "retry-after")).getD []))
      (fun _ _ l => Books (attempt + 1) [attempt] False l ∧ K l) (fun _ _ l => Abandoned l ∧ K l) w l := by
    intro w
    refine wp_cooldown ?_
    rintro date l₁ hdate now _ ⟨t, -, rfl⟩
    have h₁ : Books (attempt + 1) [attempt] False l₁ ∧ K l₁ := by
      rcases hdate with ⟨rfl, -⟩ | ⟨t', -, rfl⟩
      · exact h
      · exact ⟨h.1.cons (q := .utcnow) trivial t' date, hK.aside .utcnow t' date l trivial h.2⟩
    exact ⟨h₁.1.cons (q := .clock) trivial t now, hK.aside .clock t now l₁ trivial h₁.2⟩
  simp only [answered, wp_bind, updateEvent, wp_update]
  unfold coolRejected
  split
  · rw [wp_bind]
    refine wp_mono (fun _ w₁ l₁ h₁ => ?_) (fun _ _ _ h => h) (hcool _)
    simp only [emitFailure, eventOf, emit, wp_bind, wp_read, wp_pure, wp_ask, wp_ofExcept]
    rintro a _ ⟨t, -, rfl⟩
    have hkept := hK.aside (.emit (.replicaFailure (w₁.calls me).event.requestId model.name endpoint.name
      (.status upstream.status))) t a l₁ trivial h₁.2
    cases a with
    | ok u =>
      have hrest := hconclude w₁ _
        ⟨h₁.1.reported (w₁.calls me).event.requestId model.name endpoint.name upstream.status t, hkept⟩
      rwa [wp_bind] at hrest
    | error e =>
      exact ⟨⟨_, .inr ⟨_, h₁.1.lost (w₁.calls me).event.requestId model.name endpoint.name upstream.status t e⟩⟩,
        hkept⟩
  · rw [wp_pure]
    have hrest := hconclude
      (w.setCall me fun c => { c with event := { c.event with status := some upstream.status } }) l h
    rwa [wp_bind] at hrest

/-- **A round** of the loop. -/
theorem wp_attemptOnce_kept {model : Model} {prepared : Payload} {forwarded : Headers}
    {started upstreamStarted : ℚ} {attempt : ℕ} {endpoint : Endpoint} {excluded : List Str}
    (h : Books attempt [] False l ∧ K l) :
    (alone rely ok).wp (attemptOnce lib settings me model prepared forwarded started upstreamStarted
      attempt endpoint excluded) (fun r _ l => Dealt attempt r l ∧ K l) (fun _ _ l => Abandoned l ∧ K l)
      w l := by
  have hidle : Neutral (alone rely ok) me _ (fun _ => True) _ := booked_neutral hK attempt [] False
  have hafter : Neutral (alone rely ok) me _ (fun _ => True) _ := booked_neutral hK (attempt + 1) [] False
  have habandon : ∀ {sent l}, Books sent [] False l ∧ K l → Abandoned l ∧ K l :=
    fun h => ⟨.of_books h.1, h.2⟩
  simp only [attemptOnce, wp_bind, updateEvent, wp_update]
  refine wp_mono (fun _ w₁ l₁ h₁ => ?_) (fun _ _ _ h => habandon h)
    (hidle.emitRetry (fun _ _ _ => ⟨trivial, trivial⟩) model endpoint attempt _ l h)
  have hsend : ∀ t a, K (⟨t, .send model endpoint prepared forwarded, a⟩ :: l₁) :=
    fun t a => hK.send attempt model endpoint prepared forwarded t a l₁ h₁.2.1 h₁.2.2
  refine wp_trySend trivial ?_ ?_ ?_
  · rintro w₂ l₂ upstream _ ⟨-, rfl⟩ ⟨t, -, rfl⟩
    exact wp_answered_kept hK ⟨h₁.2.1.answered t upstream, hsend t _⟩
  · rintro w₂ l₂ _ ⟨-, rfl⟩ ⟨t, -, rfl⟩
    refine wp_mono (fun _ w₃ l₃ h₃ => ?_) (fun _ _ _ h => habandon h)
      (hafter.cooldown (fun _ _ _ _ h => h) ⟨trivial, trivial⟩ ⟨trivial, trivial⟩ _ [] w₂ _
        ⟨h₁.2.1.unanswered t (.exc .connectFailure), hsend t _⟩)
    simp only [emitFailure, eventOf, emit, wp_bind, wp_read, wp_pure, wp_ask, wp_ofExcept]
    rintro a _ ⟨t', -, rfl⟩
    have hnoted := h₃.2.1.cons (q := .emit (.replicaFailure (w₃.calls me).event.requestId model.name
      endpoint.name .connect)) trivial t' a
    have hkept := hK.aside (.emit (.replicaFailure (w₃.calls me).event.requestId model.name
      endpoint.name .connect)) t' a l₃ trivial h₃.2.2
    cases a with
    | ok u =>
      rw [ends_ok]
      split
      · exact ⟨hnoted, hkept⟩
      · exact habandon ⟨hnoted, hkept⟩
    | error e => exact habandon ⟨hnoted, hkept⟩
  · rintro w₂ l₂ e _ ⟨-, rfl⟩ - ⟨t, -, rfl⟩
    exact habandon ⟨h₁.2.1.unanswered t e, hsend t _⟩

/-- **The loop**, by induction on the rounds that are left. -/
theorem wp_attempts_kept {model : Model} {prepared : Payload} {forwarded : Headers}
    {started upstreamStarted : ℚ} (n : ℕ) (attempt : ℕ) {excluded : List Str}
    (h : Books attempt [] False l ∧ K l) :
    (alone rely ok).wp (attempts lib settings me model prepared forwarded started upstreamStarted
      (List.range' attempt n) excluded)
      (fun exchange _ l => (∃ sent, Books sent [exchange.response.attempt] False l) ∧ K l)
      (fun _ _ l => Abandoned l ∧ K l) w l := by
  induction n generalizing attempt excluded w l with
  | zero => exact ⟨.of_books h.1, h.2⟩
  | succ n ih =>
    have hidle : Neutral (alone rely ok) me _ (fun _ => True) _ := booked_neutral hK attempt [] False
    rw [List.range'_succ, attempts, wp_bind]
    refine wp_mono (fun index w₁ l₁ h₁ => ?_) (fun _ _ _ h => ⟨.of_books h.1, h.2⟩)
      (hidle.select (fun _ _ _ _ h => h) ⟨trivial, trivial⟩ (fun _ _ => ⟨trivial, trivial⟩) model excluded
        w l h)
    rw [wp_bind]
    refine wp_mono (fun r w₂ l₂ h₂ => ?_) (fun _ _ _ h => h) (wp_attemptOnce_kept hK h₁.2)
    cases r with
    | some exchange => exact ⟨⟨_, h₂.1⟩, h₂.2⟩
    | none => exact ih (attempt + 1) h₂

/-- **Opening an exchange** leaves its response open and no other, and a failed opening
leaves none, unless a record was dropped.  It keeps what its questions keep. -/
theorem wp_open_kept {payload : Payload} {headers : Headers} {rid : Str} (h : Books 0 [] False l ∧ K l) :
    (alone rely ok).wp (Gateway.open lib settings me payload headers rid)
      (fun exchange _ l => (∃ sent, Books sent [exchange.response.attempt] False l) ∧ K l)
      (fun _ _ l => Abandoned l ∧ K l) w l := by
  have hidle : Neutral (alone rely ok) me _ (fun _ => True) _ := booked_neutral hK 0 [] False
  simp only [Gateway.open, wp_bind, clock, wp_ask, wp_update, wp_tryCatch]
  rintro started _ ⟨t, -, rfl⟩
  have hstarted : Books 0 [] False (⟨t, .clock, started⟩ :: l) ∧ K (⟨t, .clock, started⟩ :: l) :=
    ⟨h.1.cons (q := .clock) trivial t started, hK.aside .clock t started l trivial h.2⟩
  refine wp_mono (fun _ _ _ h => h) (fun e w₁ l₁ h₁ => ?_) (?_ : (alone rely ok).wp
    (Gateway.openInner lib settings me payload headers started)
    (fun exchange _ l => (∃ sent, Books sent [exchange.response.attempt] False l) ∧ K l)
    (fun _ _ l => Abandoned l ∧ K l) _ _)
  · simp only [updateEvent, eventOf, emit, wp_update, wp_read, wp_pure, wp_ask, wp_bind, wp_ofExcept, wp_throw]
    rintro now _ ⟨t₁, -, rfl⟩ a _ ⟨t₂, -, rfl⟩
    have hfailed := (h₁.1.cons (q := .clock) trivial t₁ now).cons (q := .emit (.request _)) trivial t₂ a
    have hkept := hK.aside (.emit (.request _)) t₂ a _ trivial (hK.aside .clock t₁ now l₁ trivial h₁.2)
    cases a with
    | ok u => exact ⟨hfailed, hkept⟩
    | error e => exact ⟨hfailed, hkept⟩
  · unfold Gateway.openInner
    rw [wp_bind]
    refine wp_mono (fun r w₁ l₁ h₁ => ?_) (fun _ _ _ h => ⟨.of_books h.1, h.2⟩)
      (hidle.prepare (fun _ hq => ⟨hq.uninvolved, hq.aside⟩) (fun _ _ => trivial) payload headers _ _ hstarted)
    rw [wp_bind]
    rintro now _ ⟨t₁, -, rfl⟩
    exact wp_attempts_kept hK 2 0
      ⟨h₁.2.1.cons (q := .clock) trivial t₁ now, hK.aside .clock t₁ now l₁ trivial h₁.2.2⟩

end

/-- The books alone. -/
theorem wp_open_books {payload : Payload} {headers : Headers} {rid : Str} (h : Books 0 [] False l) :
    (alone rely ok).wp (Gateway.open lib settings me payload headers rid)
      (fun exchange _ l => ∃ sent, Books sent [exchange.response.attempt] False l)
      (fun _ _ l => Abandoned l) w l :=
  wp_mono (fun _ _ _ h => h.1) (fun _ _ _ h => h.1) (wp_open_kept .true ⟨h, trivial⟩)

end

end Application
end SwitchyardGateway
