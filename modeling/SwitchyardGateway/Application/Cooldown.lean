/-
# Cooldown promises among overlapping calls

An attempt that fails over promises that its replica will not be selected again
for the seconds it asks for.  The promise is kept in one table entry for each
replica, which any call in flight may overwrite.

`KeepsPromises` says that every promise is kept, over every interleaving of calls
of one gateway, and that no recorded deadline moves to an earlier instant.  As it
stands the code breaks it (`promise_broken`): a call that was already in flight
can fail later and ask for less, and its deadline replaces the longer one.  That
is the only way, replica by replica: a promise is kept unless a later failure of the
same replica cut it short (`promises_of_each_replica`).  In runs in which no failure
does so, every promise is kept (`promises_kept_unless_shortened`).

A deadline is written from two readings, of the date if the `Retry-After` header
is one and of the clock, in the section that begins with the failed answer.  So
the table is a function of the log (`tableOf`), and what a promise is worth can be
read off the log too (`promise?`).
-/

import SwitchyardGateway.Application.Rounds
import Mathlib.Data.List.Infix

namespace SwitchyardGateway
namespace Application

open Coop Coop.Discipline Python

/-- The entries of every call of a gateway, newest first. -/
abbrev PoolLog := Log ℚ Call Answer

/-- The tasks of a gateway: any calls of `Gateway.open`. -/
def opens (lib : Lib) (settings : Settings) (i : ℕ) (p : Py Exchange) : Prop :=
  ∃ request headers rid, p = Gateway.open lib settings i request headers rid

/-- Calls overlap in any way, and time goes forward. -/
def overlapping : System World ℚ Call Answer where
  admits _ l _ st := (∀ prev ∈ l.head?, prev.2.time ≤ st.time) ∧ Truthful st

/-- The replica an entry failed over on, and its `Retry-After`. -/
def failure? : Entry → Option ((Str × Str) × Str)
  | ⟨_, .send model endpoint _ _, a⟩ =>
    (failureCause? a).map fun c => ((model.name, endpoint.name), c.2)
  | _ => none

/-- What is asked for before the date has been read. -/
def promptDelay (lib : Lib) (settings : Settings) (retryAfter : Str) : ℚ :=
  match lib.float retryAfter with
  | some _ => requestedDelay lib settings retryAfter 0
  | none => settings.cooldownSeconds

section

variable (lib : Lib) (settings : Settings)

/-- The promise the newest entry makes: a replica and the instant until which it
is not to be selected.  A failed answer at `t` promises `t` and the seconds it
asks for, and if its header is a date, the reading of the date that follows says
how many these are. -/
def promise? : PoolLog → Option ((Str × Str) × ℚ)
  | (_, ⟨_, .utcnow, date⟩) :: (_, e) :: _ =>
    (failure? e).map fun f => (f.1, e.time + requestedDelay lib settings f.2 date)
  | (_, e) :: _ => (failure? e).map fun f => (f.1, e.time + promptDelay lib settings f.2)
  | [] => none

/-- The cooldown that the next reading of the clock records: a replica and the
seconds its failure asks for. -/
def pending? : PoolLog → Option ((Str × Str) × ℚ)
  | (_, ⟨_, .utcnow, date⟩) :: (_, e) :: _ =>
    (failure? e).map fun f => (f.1, requestedDelay lib settings f.2 date)
  | (_, e) :: _ => (failure? e).map fun f => (f.1, requestedDelay lib settings f.2 0)
  | [] => none

/-- The cooldown table a log leads to. -/
def tableOf (table : Str × Str → Option ℚ) : PoolLog → Str × Str → Option ℚ
  | [] => table
  | (_, ⟨_, .clock, now⟩) :: l =>
    match pending? lib settings l with
    | some (replica, seconds) => Function.update (tableOf table l) replica (some (now + seconds))
    | none => tableOf table l
  | _ :: l => tableOf table l

/-- The deadline that the newest entry records, and its replica. -/
def recorded? : PoolLog → Option ((Str × Str) × ℚ)
  | (_, ⟨_, .clock, now⟩) :: l => (pending? lib settings l).map fun f => (f.1, now + f.2)
  | _ => none

/-- Since `older`, a failure of the replica has recorded a deadline before an instant. -/
def CutShort (older l : PoolLog) (replica : Str × Str) (instant : ℚ) : Prop :=
  ∃ newer deadline, newer <:+ l ∧ older <:+ newer ∧ recorded? lib settings newer = some (replica, deadline) ∧
    deadline < instant

/-- No replica was selected before an instant it was promised until, unless a later
failure of the same replica had cut that promise short. -/
def HonouredUnlessCut (l : PoolLog) : Prop :=
  ∀ i t model endpoint rest, (i, ⟨t, .selected model endpoint, ()⟩) :: rest <:+ l →
    ∀ older, older <:+ rest → ∀ instant,
      promise? lib settings older = some ((model.name, endpoint.name), instant) →
        instant ≤ t ∨ CutShort lib settings older rest (model.name, endpoint.name) instant

/-- No replica was selected before an instant promised earlier in the log. -/
def Honoured (l : PoolLog) : Prop :=
  ∀ i t model endpoint rest, (i, ⟨t, .selected model endpoint, ()⟩) :: rest <:+ l →
    ∀ older, older <:+ rest → ∀ instant,
      promise? lib settings older = some ((model.name, endpoint.name), instant) → instant ≤ t

/-- Deadlines recorded in one world are recorded in the other, no earlier. -/
def NoEarlier (table table' : Str × Str → Option ℚ) : Prop :=
  ∀ replica d, table replica = some d → ∃ d', table' replica = some d' ∧ d ≤ d'

/-- **Cooldown promises are kept** in every run of the system. -/
def KeepsPromises (S : System World ℚ Call Answer) (w : World) : Prop :=
  ∀ c c' : Pool World ℚ Call Answer Err Exchange, S.Reachable (opens lib settings) w c →
    Relation.ReflTransGen (S.Step (opens lib settings)) c c' →
      Honoured lib settings c'.log ∧ NoEarlier c.state.cooldowns c'.state.cooldowns

/-- The entry is a reading of the clock that records a deadline earlier than the
one its replica already has. -/
def Shortens (w : World) (l : PoolLog) : Entry → Prop
  | ⟨_, .clock, now⟩ => ∃ failure ∈ pending? lib settings l, ∃ d ∈ w.cooldowns failure.1,
      now + failure.2 < d
  | _ => False

/-- Overlapping calls in which no failure asks for less than its replica already
owes. -/
def unshortened : System World ℚ Call Answer where
  admits w l i st := overlapping.admits w l i st ∧ ¬ Shortens lib settings w l st

instance (w : World) (l : PoolLog) (i : ℕ) (st : Entry) : Decidable (overlapping.admits w l i st) :=
  inferInstanceAs (Decidable ((∀ prev ∈ l.head?, prev.2.time ≤ st.time) ∧ Truthful st))

instance (w : World) (l : PoolLog) : DecidablePred (Shortens lib settings w l)
  | ⟨_, .clock, now⟩ => inferInstanceAs (Decidable (∃ failure ∈ pending? lib settings l,
      ∃ d ∈ w.cooldowns failure.1, now + failure.2 < d))
  | ⟨_, .utcnow, _⟩ | ⟨_, .emit _, _⟩ | ⟨_, .route _ _, _⟩ | ⟨_, .compress _ _, _⟩
  | ⟨_, .send _ _ _ _, _⟩ | ⟨_, .close _, _⟩ | ⟨_, .receive, _⟩ | ⟨_, .read _, _⟩
  | ⟨_, .iterate, _⟩ | ⟨_, .yield _, _⟩ | ⟨_, .respond, _⟩ | ⟨_, .selected _ _, _⟩ => isFalse id

instance (w : World) (l : PoolLog) (i : ℕ) (st : Entry) :
    Decidable ((unshortened lib settings).admits w l i st) :=
  inferInstanceAs (Decidable (overlapping.admits w l i st ∧ ¬ Shortens lib settings w l st))

end

/-! ### What one entry does -/

section Entries

variable {lib : Lib} {settings : Settings} {w₀ w w' : World} {l : PoolLog} {i : ℕ}

/-- An entry that neither makes a promise, nor selects, nor reads the date. -/
def Quiet : Entry → Prop
  | ⟨_, .utcnow, _⟩ | ⟨_, .selected _ _, _⟩ => False
  | e => failure? e = none

/-- The invariant between awaits.  The table is the one the log leads to, no deadline is
about to be recorded, every promise made so far is covered by a recorded deadline or has
been cut short, and has been honoured until then. -/
structure Kept (lib : Lib) (settings : Settings) (w₀ w : World) (l : PoolLog) : Prop where
  table : w.cooldowns = tableOf lib settings w₀.cooldowns l
  settled : pending? lib settings l = none
  covered : ∀ older, older <:+ l → ∀ replica instant,
    promise? lib settings older = some (replica, instant) →
      (∃ d, w.cooldowns replica = some d ∧ instant ≤ d) ∨ CutShort lib settings older l replica instant
  honoured : HonouredUnlessCut lib settings l

/-- The invariant where no failure cuts a promise short: deadlines have only moved later. -/
structure Lasting (lib : Lib) (settings : Settings) (w₀ w : World) (l : PoolLog) : Prop
    extends Kept lib settings w₀ w l where
  uncut : ∀ older, older <:+ l → ∀ replica instant,
    promise? lib settings older = some (replica, instant) → ¬ CutShort lib settings older l replica instant
  grows : ∀ older, older <:+ l → NoEarlier (tableOf lib settings w₀.cooldowns older) w.cooldowns

/-- Nothing has happened yet. -/
theorem Kept.nil (lib : Lib) (settings : Settings) (w : World) : Kept lib settings w w [] where
  table := rfl
  settled := rfl
  covered older h := by
    obtain rfl := List.suffix_nil.1 h
    intro _ _ hp
    cases hp
  honoured _ _ _ _ _ h := by cases List.suffix_nil.1 h

theorem Lasting.nil (lib : Lib) (settings : Settings) (w : World) : Lasting lib settings w w [] where
  toKept := Kept.nil lib settings w
  uncut older h := by
    obtain rfl := List.suffix_nil.1 h
    intro _ _ hp
    cases hp
  grows older h := by
    obtain rfl := List.suffix_nil.1 h
    exact fun _ d hd => ⟨d, hd, le_refl d⟩

/-- What has been cut short stays so. -/
theorem CutShort.mono {older l l' : PoolLog} {replica : Str × Str} {instant : ℚ}
    (h : CutShort lib settings older l replica instant) (hl : l <:+ l') :
    CutShort lib settings older l' replica instant := by
  obtain ⟨newer, deadline, hnewer, holder, hrecorded, hlt⟩ := h
  exact ⟨newer, deadline, hnewer.trans hl, holder, hrecorded, hlt⟩

/-- **Without cuts all promises are honoured.** -/
theorem Lasting.honours (h : Lasting lib settings w₀ w l) : Honoured lib settings l := by
  intro i t model endpoint rest hsuffix older holder instant hp
  have hrest : rest <:+ l := (List.suffix_cons _ _).trans hsuffix
  rcases h.honoured i t model endpoint rest hsuffix older holder instant hp with hle | hcut
  · exact hle
  · exact absurd (hcut.mono hrest) (h.uncut older (holder.trans hrest) _ instant hp)

theorem Quiet.pending {e : Entry} (he : Quiet e) : pending? lib settings ((i, e) :: l) = none := by
  obtain ⟨t, q, a⟩ := e
  cases q <;> first | exact he.elim | rfl | skip
  change Option.map _ (failure? _) = none
  rw [show failure? _ = none from he, Option.map_none]

theorem Quiet.promise {e : Entry} (he : Quiet e) : promise? lib settings ((i, e) :: l) = none := by
  obtain ⟨t, q, a⟩ := e
  cases q <;> first | exact he.elim | rfl | skip
  change Option.map _ (failure? _) = none
  rw [show failure? _ = none from he, Option.map_none]

theorem tableOf_of_settled {table : Str × Str → Option ℚ} {e : Entry}
    (h : pending? lib settings l = none) :
    tableOf lib settings table ((i, e) :: l) = tableOf lib settings table l := by
  obtain ⟨t, q, a⟩ := e
  cases q <;> first | rfl | skip
  rw [tableOf, h]

/-- Nothing is recorded where nothing is pending. -/
theorem recorded_of_settled {e : Entry} (h : pending? lib settings l = none) :
    recorded? lib settings ((i, e) :: l) = none := by
  obtain ⟨t, q, a⟩ := e
  cases q <;> first | rfl | skip
  rw [recorded?, h, Option.map_none]

theorem not_cutShort_cons {older : PoolLog} {replica : Str × Str} {instant : ℚ} {e : Entry}
    (hsettled : pending? lib settings l = none) (h : ¬ CutShort lib settings older l replica instant) :
    ¬ CutShort lib settings older ((i, e) :: l) replica instant := by
  rintro ⟨newer, deadline, hnewer, holder, hrecorded, hlt⟩
  rcases List.suffix_cons_iff.1 hnewer with rfl | hnewer
  · rw [recorded_of_settled hsettled] at hrecorded
    cases hrecorded
  · exact h ⟨newer, deadline, hnewer, holder, hrecorded, hlt⟩

/-- An entry that promises nothing and leads to no deadline leaves the table alone. -/
theorem Kept.extend (h : Kept lib settings w₀ w l) {e : Entry}
    (hpending : pending? lib settings ((i, e) :: l) = none)
    (hpromise : promise? lib settings ((i, e) :: l) = none)
    (hhonoured : HonouredUnlessCut lib settings ((i, e) :: l)) (hw : w'.cooldowns = w.cooldowns) :
    Kept lib settings w₀ w' ((i, e) :: l) where
  table := by rw [hw, h.table, tableOf_of_settled h.settled]
  settled := hpending
  covered older hsuffix replica instant hp := by
    rw [hw]
    rcases List.suffix_cons_iff.1 hsuffix with rfl | hsuffix
    · rw [hpromise] at hp
      cases hp
    · exact (h.covered older hsuffix replica instant hp).imp_right (·.mono (List.suffix_cons ..))
  honoured := hhonoured

theorem Lasting.extend (h : Lasting lib settings w₀ w l) {e : Entry} (hk : Kept lib settings w₀ w' ((i, e) :: l))
    (hpromise : promise? lib settings ((i, e) :: l) = none) (hw : w'.cooldowns = w.cooldowns) :
    Lasting lib settings w₀ w' ((i, e) :: l) where
  toKept := hk
  uncut older hsuffix replica instant hp := by
    rcases List.suffix_cons_iff.1 hsuffix with rfl | hsuffix
    · rw [hpromise] at hp
      cases hp
    · exact not_cutShort_cons h.settled (h.uncut older hsuffix replica instant hp)
  grows older hsuffix := by
    rw [hw]
    rcases List.suffix_cons_iff.1 hsuffix with rfl | hsuffix
    · rw [tableOf_of_settled h.settled, ← h.table]
      exact fun _ d hd => ⟨d, hd, le_refl d⟩
    · exact h.grows older hsuffix

/-- A quiet entry changes nothing. -/
theorem Kept.quiet (h : Kept lib settings w₀ w l) {e : Entry} (he : Quiet e)
    (hw : w'.cooldowns = w.cooldowns) : Kept lib settings w₀ w' ((i, e) :: l) := by
  refine h.extend he.pending he.promise (fun j t model endpoint rest hsuffix => ?_) hw
  rcases List.suffix_cons_iff.1 hsuffix with heq | hsuffix
  · cases heq
    exact he.elim
  · exact h.honoured j t model endpoint rest hsuffix

/-- Selecting a replica whose deadline has passed honours every promise. -/
theorem Kept.select (h : Kept lib settings w₀ w l) {model : Model} {endpoint : Endpoint} {t : ℚ}
    (ht : w.deadline (model.name, endpoint.name) ≤ t) (hw : w'.cooldowns = w.cooldowns) :
    Kept lib settings w₀ w' ((i, ⟨t, .selected model endpoint, ()⟩) :: l) := by
  refine h.extend rfl rfl (fun j t' model' endpoint' rest hsuffix => ?_) hw
  rcases List.suffix_cons_iff.1 hsuffix with heq | hsuffix
  · cases heq
    intro older holder instant hp
    rcases h.covered older holder _ instant hp with ⟨d, hd, hle⟩ | hcut
    · rw [World.deadline, hd, Option.getD_some] at ht
      exact .inl (le_trans hle ht)
    · exact .inr hcut
  · exact h.honoured j t' model' endpoint' rest hsuffix

/-- What stands between a settled log and the reading of the clock that records a
deadline: the failed answer and, if need be, a reading of the date. -/
structure Recording (lib : Lib) (settings : Settings) (replica : Str × Str) (seconds now : ℚ)
    (l l₁ : PoolLog) : Prop where
  pending : pending? lib settings l₁ = some (replica, seconds)
  suffix : l <:+ l₁
  unrecorded : ∀ newer, newer <:+ l₁ → newer <:+ l ∨ recorded? lib settings newer = none
  table : ∀ table, tableOf lib settings table l₁ = tableOf lib settings table l
  new : ∀ older, older <:+ l₁ → older <:+ l ∨
    (∀ table, tableOf lib settings table older = tableOf lib settings table l) ∧
      ∀ replica' instant, promise? lib settings older = some (replica', instant) →
        replica' = replica ∧ instant ≤ now + seconds
  selected : ∀ j t model endpoint rest, (j, ⟨t, .selected model endpoint, ()⟩) :: rest <:+ l₁ →
    (j, ⟨t, .selected model endpoint, ()⟩) :: rest <:+ l

section Record

variable {replica : Str × Str} {seconds now : ℚ} {l₁ : PoolLog}

theorem Recording.recorded (hr : Recording lib settings replica seconds now l l₁) :
    recorded? lib settings ((i, ⟨now, .clock, now⟩) :: l₁) = some (replica, now + seconds) := by
  rw [recorded?, hr.pending]
  rfl

theorem Recording.tableOf_cons (hr : Recording lib settings replica seconds now l l₁)
    (table : Str × Str → Option ℚ) : tableOf lib settings table ((i, ⟨now, .clock, now⟩) :: l₁) =
      Function.update (tableOf lib settings table l) replica (some (now + seconds)) := by
  rw [tableOf, hr.pending, hr.table]

/-- Recording a deadline keeps a promise of the replica, or cuts it short. -/
theorem Kept.record (h : Kept lib settings w₀ w l)
    (hr : Recording lib settings replica seconds now l l₁)
    (hw : w'.cooldowns = Function.update w.cooldowns replica (some (now + seconds))) :
    Kept lib settings w₀ w' ((i, ⟨now, .clock, now⟩) :: l₁) where
  table := by rw [hw, hr.tableOf_cons, h.table]
  settled := rfl
  covered older hsuffix replica' instant hp := by
    rcases List.suffix_cons_iff.1 hsuffix with rfl | hsuffix
    · cases hp
    · rcases hr.new older hsuffix with hold | ⟨_, hnew⟩
      · by_cases heq : replica' = replica
        · subst heq
          rcases le_or_gt instant (now + seconds) with hle | hlt
          · exact .inl ⟨now + seconds, by rw [hw, Function.update_self], hle⟩
          · exact .inr ⟨_, _, List.suffix_refl _, hsuffix.trans (List.suffix_cons ..), hr.recorded, hlt⟩
        · rcases h.covered older hold replica' instant hp with ⟨d, hd, hle⟩ | hcut
          · exact .inl ⟨d, by rw [hw, Function.update_of_ne heq, hd], hle⟩
          · exact .inr (hcut.mono (hr.suffix.trans (List.suffix_cons ..)))
      · obtain ⟨rfl, hle⟩ := hnew replica' instant hp
        exact .inl ⟨now + seconds, by rw [hw, Function.update_self], hle⟩
  honoured j t model endpoint rest hsuffix := by
    rcases List.suffix_cons_iff.1 hsuffix with heq | hsuffix
    · cases heq
    · exact h.honoured j t model endpoint rest (hr.selected _ _ _ _ _ hsuffix)

/-- A deadline that is not earlier than the one it replaces cuts nothing short. -/
theorem Lasting.record (h : Lasting lib settings w₀ w l)
    (hr : Recording lib settings replica seconds now l l₁)
    (hlater : ∀ d, w.cooldowns replica = some d → d ≤ now + seconds)
    (hw : w'.cooldowns = Function.update w.cooldowns replica (some (now + seconds))) :
    Lasting lib settings w₀ w' ((i, ⟨now, .clock, now⟩) :: l₁) where
  toKept := h.toKept.record hr hw
  uncut older hsuffix replica' instant hp := by
    rintro ⟨newer, deadline, hnewer, holder, hrecorded, hlt⟩
    rcases List.suffix_cons_iff.1 hnewer with rfl | hnewer
    · obtain ⟨rfl, rfl⟩ := Prod.mk.inj (Option.some.inj (hr.recorded.symm.trans hrecorded))
      rcases List.suffix_cons_iff.1 hsuffix with rfl | hsuffix
      · cases hp
      · rcases hr.new older hsuffix with hold | ⟨_, hnew⟩
        · rcases h.covered older hold _ instant hp with ⟨d, hd, hle⟩ | hcut
          · have hbound := hlater d hd
            exact absurd (le_trans hle hbound) (not_le.2 hlt)
          · exact h.uncut older hold _ instant hp hcut
        · exact absurd (hnew _ instant hp).2 (not_le.2 hlt)
    · rcases hr.unrecorded newer hnewer with hold | hnone
      · exact h.uncut older (holder.trans hold) replica' instant hp
          ⟨newer, deadline, hold, holder, hrecorded, hlt⟩
      · rw [hnone] at hrecorded
        cases hrecorded
  grows older hsuffix := by
    have hgrow : NoEarlier w.cooldowns w'.cooldowns := by
      intro replica' d hd
      rw [hw]
      by_cases heq : replica' = replica
      · subst heq
        exact ⟨now + seconds, Function.update_self .., hlater d hd⟩
      · exact ⟨d, by rw [Function.update_of_ne heq, hd], le_refl d⟩
    rcases List.suffix_cons_iff.1 hsuffix with rfl | hsuffix
    · rw [hr.tableOf_cons, hw, h.table]
      exact fun _ d hd => ⟨d, hd, le_refl d⟩
    · have hold : NoEarlier (tableOf lib settings w₀.cooldowns older) w.cooldowns := by
        rcases hr.new older hsuffix with hold | ⟨heq, _⟩
        · exact h.grows older hold
        · rw [heq, ← h.table]
          exact fun _ d hd => ⟨d, hd, le_refl d⟩
      intro replica' d hd
      obtain ⟨d', hd', hle⟩ := hold replica' d hd
      obtain ⟨d'', hd'', hle'⟩ := hgrow replica' d' hd'
      exact ⟨d'', hd'', le_trans hle hle'⟩

end Record

/-- The seconds do not depend on the date if the header is a number. -/
theorem promptDelay_le (retryAfter : Str) (date : ℚ) :
    promptDelay lib settings retryAfter ≤ requestedDelay lib settings retryAfter date := by
  unfold promptDelay
  cases hf : lib.float retryAfter with
  | none => exact cooldownSeconds_le_requestedDelay lib settings retryAfter date
  | some x =>
    have hsame : requestedDelay lib settings retryAfter 0 = requestedDelay lib settings retryAfter date := by
      cases x <;> simp only [requestedDelay, retryDelay, hf]
    exact le_of_eq hsame

section Recording

variable {model : Model} {endpoint : Endpoint} {request : Payload} {headers : Headers} {t now : ℚ}
  {answer : Except Err Upstream} {cause : FailureCause} {retryAfter : Str}

/-- Before the date is read a failed answer promises no more than what is recorded. -/
theorem promise_send (hc : failureCause? answer = some (cause, retryAfter)) (ht : t ≤ now) (date : ℚ)
    {replica : Str × Str} {instant : ℚ} (hp : promise? lib settings
      ((i, ⟨t, .send model endpoint request headers, answer⟩) :: l) = some (replica, instant)) :
    replica = (model.name, endpoint.name) ∧
      instant ≤ now + requestedDelay lib settings retryAfter date := by
  change Option.map _ (Option.map _ (failureCause? answer)) = _ at hp
  rw [hc] at hp
  obtain ⟨rfl, rfl⟩ := Prod.ext_iff.1 (Option.some.inj hp)
  exact ⟨rfl, add_le_add ht (promptDelay_le retryAfter date)⟩

/-- The clock is read right after the answer. -/
theorem Recording.prompt {date : ℚ} (hc : failureCause? answer = some (cause, retryAfter))
    (hdate : ∀ date', requestedDelay lib settings retryAfter date' =
      requestedDelay lib settings retryAfter date) (ht : t ≤ now) :
    Recording lib settings (model.name, endpoint.name) (requestedDelay lib settings retryAfter date)
      now l ((i, ⟨t, .send model endpoint request headers, answer⟩) :: l) where
  pending := by
    change Option.map _ (Option.map _ (failureCause? answer)) = _
    rw [hc, ← hdate 0]
    rfl
  suffix := List.suffix_cons ..
  unrecorded newer hsuffix := by
    rcases List.suffix_cons_iff.1 hsuffix with rfl | hsuffix
    · exact .inr rfl
    · exact .inl hsuffix
  table _ := rfl
  new older hsuffix := by
    rcases List.suffix_cons_iff.1 hsuffix with rfl | hsuffix
    · exact .inr ⟨fun _ => rfl, fun _ _ hp => promise_send hc ht date hp⟩
    · exact .inl hsuffix
  selected j t' model' endpoint' rest hsuffix := by
    rcases List.suffix_cons_iff.1 hsuffix with heq | hsuffix
    · cases heq
    · exact hsuffix

/-- The date is read in between. -/
theorem Recording.dated {date t₁ : ℚ} (hc : failureCause? answer = some (cause, retryAfter))
    (ht : t ≤ now) :
    Recording lib settings (model.name, endpoint.name) (requestedDelay lib settings retryAfter date)
      now l ((i, ⟨t₁, .utcnow, date⟩) ::
        (i, ⟨t, .send model endpoint request headers, answer⟩) :: l) where
  pending := by
    change Option.map _ (Option.map _ (failureCause? answer)) = _
    rw [hc]
    rfl
  suffix := (List.suffix_cons ..).trans (List.suffix_cons ..)
  unrecorded newer hsuffix := by
    rcases List.suffix_cons_iff.1 hsuffix with rfl | hsuffix
    · exact .inr rfl
    · rcases List.suffix_cons_iff.1 hsuffix with rfl | hsuffix
      · exact .inr rfl
      · exact .inl hsuffix
  table _ := rfl
  new older hsuffix := by
    rcases List.suffix_cons_iff.1 hsuffix with rfl | hsuffix
    · refine .inr ⟨fun _ => rfl, fun replica' instant hp => ?_⟩
      change Option.map _ (Option.map _ (failureCause? answer)) = _ at hp
      rw [hc] at hp
      obtain ⟨rfl, rfl⟩ := Prod.ext_iff.1 (Option.some.inj hp)
      exact ⟨rfl, add_le_add ht (le_refl _)⟩
    · rcases List.suffix_cons_iff.1 hsuffix with rfl | hsuffix
      · exact .inr ⟨fun _ => rfl, fun _ _ hp => promise_send hc ht date hp⟩
      · exact .inl hsuffix
  selected j t' model' endpoint' rest hsuffix := by
    rcases List.suffix_cons_iff.1 hsuffix with heq | hsuffix
    · cases heq
    · rcases List.suffix_cons_iff.1 hsuffix with heq | hsuffix
      · cases heq
      · exact hsuffix

end Recording

end Entries

/-! ### What a call does -/

section Calls

variable {lib : Lib} {settings : Settings} {w₀ w : World} {l : PoolLog} {i : ℕ}

/-- What an invariant of the cooldown table has to survive, in the runs of a system. -/
structure Survives (lib : Lib) (settings : Settings) (S : System World ℚ Call Answer)
    (I : World → PoolLog → Prop) : Prop where
  overlaps : ∀ w l i st, S.admits w l i st → overlapping.admits w l i st
  unmoved : ∀ w w' l, I w l → w'.cooldowns = w.cooldowns → I w' l
  quiet : ∀ i w l e, I w l → Quiet e → I w ((i, e) :: l)
  select : ∀ i w l (model : Model) (endpoint : Endpoint) t, I w l →
    w.deadline (model.name, endpoint.name) ≤ t → I w ((i, ⟨t, .selected model endpoint, ()⟩) :: l)
  record : ∀ i w l l₁ replica seconds now, I w l → Recording lib settings replica seconds now l l₁ →
    S.admits w l₁ i ⟨now, .clock, now⟩ →
    I (w.setCooldown replica (now + seconds)) ((i, ⟨now, .clock, now⟩) :: l₁)

/-- Promises survive, cut short or not. -/
theorem kept_survives (lib : Lib) (settings : Settings) (w₀ : World) :
    Survives lib settings overlapping (Kept lib settings w₀) where
  overlaps _ _ _ _ h := h
  unmoved _ _ _ h hw := ⟨hw ▸ h.table, h.settled, hw ▸ h.covered, h.honoured⟩
  quiet _ _ _ _ h he := h.quiet he rfl
  select _ _ _ _ _ _ h ht := h.select ht rfl
  record _ _ _ _ _ _ _ h hr _ := h.record hr rfl

/-- They last if no deadline is shortened. -/
theorem lasting_survives (lib : Lib) (settings : Settings) (w₀ : World) :
    Survives lib settings (unshortened lib settings) (Lasting lib settings w₀) where
  overlaps _ _ _ _ h := h.1
  unmoved _ _ _ h hw :=
    ⟨⟨hw ▸ h.table, h.settled, hw ▸ h.covered, h.honoured⟩, h.uncut, hw ▸ h.grows⟩
  quiet _ _ _ _ h he := h.extend (h.toKept.quiet he rfl) he.promise rfl
  select _ _ _ _ _ _ h ht := h.extend (h.toKept.select ht rfl) rfl rfl
  record i w l l₁ replica seconds now h hr hadmits := by
    refine h.record hr (fun d hd => ?_) rfl
    by_contra hlt
    exact hadmits.2 ⟨_, hr.pending, d, hd, not_le.1 hlt⟩

theorem QuietCall.quiet {q : Call} (hq : QuietCall q) (t : ℚ) (a : Answer q) : Quiet ⟨t, q, a⟩ := by
  cases q <;> first | exact hq.elim | rfl

/-- **What a recorded failure writes.**  After a failed answer the date is read if the
header is one, then the clock, and the deadline is written that the two lead to. -/
theorem wp_cooldown_recording {S : System World ℚ Call Answer} {I : World → PoolLog → Prop}
    (hS : ∀ w l i st, S.admits w l i st → overlapping.admits w l i st) {model : Model}
    {endpoint : Endpoint} {request : Payload} {headers : Headers} {t : ℚ}
    {answer : Except Err Upstream} {cause : FailureCause} {retryAfter : Str}
    {ok : Unit → World → PoolLog → Prop} {err : Err → World → PoolLog → Prop}
    (hc : failureCause? answer = some (cause, retryAfter))
    (hwrite : ∀ seconds now l₁, Recording lib settings (model.name, endpoint.name) seconds now l l₁ →
      (l₁ = (i, ⟨t, .send model endpoint request headers, answer⟩) :: l ∨ ∃ t₁ date,
        l₁ = (i, ⟨t₁, .utcnow, date⟩) :: (i, ⟨t, .send model endpoint request headers, answer⟩) :: l) →
      S.admits w l₁ i ⟨now, .clock, now⟩ →
      ok () (w.setCooldown (model.name, endpoint.name) (now + seconds)) ((i, ⟨now, .clock, now⟩) :: l₁)) :
    (S.member I i).wp (Gateway.cooldown lib settings (model.name, endpoint.name) retryAfter) ok err w
      ((i, ⟨t, .send model endpoint request headers, answer⟩) :: l) := by
  refine wp_cooldown fun date l₁ hdate now l₂ hnow => ?_
  obtain ⟨t₂, hadmits, rfl⟩ := hnow
  obtain ⟨hord, htrue⟩ := hS _ _ _ _ hadmits
  obtain rfl : now = t₂ := htrue
  rcases hdate with ⟨rfl, hdate⟩ | ⟨t₁, hadmits₁, rfl⟩
  · exact hwrite _ _ _ (.prompt hc hdate (hord _ rfl)) (.inl rfl) hadmits
  · have hle : t ≤ now := le_trans ((hS _ _ _ _ hadmits₁).1 _ rfl) (hord _ rfl)
    exact hwrite _ _ _ (.dated hc hle) (.inr ⟨t₁, date, rfl⟩) hadmits

/-- An answer that does not fail over is quiet. -/
theorem quiet_send {t : ℚ} {model : Model} {endpoint : Endpoint} {request : Payload}
    {headers : Headers} {answer : Except Err Upstream} (h : failureCause? answer = none) :
    Quiet ⟨t, .send model endpoint request headers, answer⟩ := by
  change Option.map _ (failureCause? answer) = none
  rw [h, Option.map_none]

section

variable {S : System World ℚ Call Answer} {I : World → PoolLog → Prop} (hS : Survives lib settings S I)

include hS

/-- Selection keeps what survives it. -/
theorem Survives.preserves_select (model : Model) (excluded : List Str) :
    (S.member I i).Preserves I (Gateway.select model excluded) fun _ => True := by
  intro w l h
  refine wp_select (J := I) ?_ ?_ (fun _ _ _ h => h) h
  · rintro w l now _ h ⟨t, _, rfl⟩
    exact hS.quiet i w l ⟨t, .clock, now⟩ h rfl
  · rintro w l j now _ _ h _ ⟨t, hnow, rfl⟩ hle ⟨t', hselected, rfl⟩
    obtain rfl : now = t := (hS.overlaps _ _ _ _ hnow).2
    have hquiet := hS.quiet i w l ⟨now, .clock, now⟩ h rfl
    refine ⟨trivial, hS.unmoved _ _ _ (hS.select i _ _ model (model.endpoints.get j) t' hquiet ?_) rfl⟩
    exact le_trans hle ((hS.overlaps _ _ _ _ hselected).1 _ rfl)

/-- **Every part of a call keeps what survives.** -/
theorem Survives.rounds (me : ℕ) : Rounds (S.member I i) lib settings me fun _ => I where
  park _ _ _ _ h := h
  wake _ _ _ _ _ _ _ h := h.1
  ask := by
    rintro _ w l q a _ hq h ⟨t, _, rfl⟩
    exact hS.quiet i w l _ h (hq.quiet t a)
  call _ w l f h := hS.unmoved w (w.setCall me f) l h rfl
  select _ model tried w l _ h :=
    wp_mono (fun _ _ _ h => h.2) (fun _ _ _ h => h) (hS.preserves_select model tried w l h)
  failed := by
    rintro _ model endpoint request headers answer cause retryAfter _ w' l _ hc h ⟨t, _, rfl⟩
    exact wp_cooldown_recording hS.overlaps hc fun seconds now l₁ hrec _ hadmits =>
      hS.record i w' l l₁ _ seconds now h hrec hadmits
  answered := by
    rintro _ model endpoint request headers answer _ w' l _ hc h ⟨t, _, rfl⟩
    exact hS.quiet i w' l _ h (quiet_send hc)

/-- It holds in every reachable pool. -/
theorem Survives.reachable (hnil : I w₀ []) {c : Pool World ℚ Call Answer Err Exchange}
    (hc : S.Reachable (opens lib settings) w₀ c) : I c.state c.log := by
  refine (System.Reachable.inv (I := I) (fun i p hp w l h _ => ?_) hnil hc :
    S.Inv I (fun _ _ _ => True) c).shared
  obtain ⟨request, headers, rid, rfl⟩ := hp
  exact wp_mono (fun _ _ _ ⟨_, h⟩ => ⟨h, trivial⟩) (fun _ _ _ ⟨_, h⟩ => ⟨h, trivial⟩)
    ((hS.rounds i).open request headers rid h)

end

end Calls

/-- **Cooldown promises are kept replica by replica** in every run of overlapping calls,
from any tables: only a later failure of the same replica cuts one short. -/
theorem promises_of_each_replica (lib : Lib) (settings : Settings) (w : World)
    (c : Pool World ℚ Call Answer Err Exchange) (hc : overlapping.Reachable (opens lib settings) w c) :
    HonouredUnlessCut lib settings c.log :=
  ((kept_survives lib settings w).reachable (Kept.nil lib settings w) hc).honoured

/-- **Cooldown promises are kept** in every run of overlapping calls in which no
failure asks for less than its replica already owes, from any tables. -/
theorem promises_kept_unless_shortened (lib : Lib) (settings : Settings) (w : World)
    (c c' : Pool World ℚ Call Answer Err Exchange)
    (hc : (unshortened lib settings).Reachable (opens lib settings) w c)
    (hc' : Relation.ReflTransGen ((unshortened lib settings).Step (opens lib settings)) c c') :
    Honoured lib settings c'.log ∧ NoEarlier c.state.cooldowns c'.state.cooldowns := by
  have hinv : ∀ c, (unshortened lib settings).Reachable (opens lib settings) w c →
      Lasting lib settings w c.state c.log := fun c hc =>
    (lasting_survives lib settings w).reachable (Lasting.nil lib settings w) hc
  have hlog : c.log <:+ c'.log := by
    induction hc' with
    | refl => exact List.suffix_refl _
    | tail _ hstep ih => exact ih.trans hstep.log_suffix
  have h' := hinv c' (hc.trans hc')
  refine ⟨h'.honours, ?_⟩
  rw [(hinv c hc).table]
  exact h'.grows c.log hlog

/-! ### Two overlapping failures -/

/-- A selection before an instant that was promised, found by going through the log. -/
def dishonours (lib : Lib) (settings : Settings) : PoolLog → Bool
  | [] => false
  | (_, ⟨t, .selected model endpoint, _⟩) :: l =>
    (l.tails.any fun older => (promise? lib settings older).any fun p =>
      p.1 = (model.name, endpoint.name) && t < p.2) || dishonours lib settings l
  | _ :: l => dishonours lib settings l

theorem not_honoured_of_dishonours {lib : Lib} {settings : Settings} {l : PoolLog}
    (h : dishonours lib settings l = true) : ¬ Honoured lib settings l := by
  have hcons : ∀ {x : ℕ × Entry} {l : PoolLog}, ¬ Honoured lib settings l →
      ¬ Honoured lib settings (x :: l) := fun hl hx =>
    hl fun i t model endpoint rest hrest =>
      hx i t model endpoint rest (hrest.trans (List.suffix_cons _ _))
  induction l with
  | nil => cases h
  | cons x l ih =>
    unfold dishonours at h
    split at h
    · cases h
    · rename_i i t model endpoint _ l' heq
      cases heq
      rcases Bool.or_eq_true_iff.1 h with h | h
      · obtain ⟨older, holder, hp⟩ := List.any_eq_true.1 h
        obtain ⟨⟨replica, instant⟩, hp, hlt⟩ := (Option.any_eq_true _ _).1 hp
        rw [Bool.and_eq_true, decide_eq_true_iff, decide_eq_true_iff] at hlt
        obtain ⟨rfl, hlt⟩ := hlt
        intro hl
        exact absurd (hl _ _ _ _ _ (List.suffix_refl _) older (List.mem_tails _ _ |>.1 holder) _ hp)
          (not_le.2 hlt)
      · exact hcons (ih h)
    · rename_i heq
      cases heq
      exact hcons (ih h)

/-- One model with one replica. -/
def Demo.lone : Settings :=
  { Demo.settings with models := [(lit "m", { Demo.model with endpoints := [Demo.endpoint "a"] })] }

/-- Five seconds pass between answers.  The first attempt is answered with `first`,
and every later one cannot connect. -/
def Demo.overlap (first : Upstream) (l : PoolLog) (q : Call) : ℚ × Answer q :=
  let t := (l.head?.map fun e => e.2.time + 5).getD 0
  (t, Demo.answer (fun _ => if sends (l.map Prod.snd) = [] then .ok first
    else .error (.exc .connectFailure)) (.ok ()) t q)

/-- Call `i` of the same request. -/
def Demo.call (settings : Settings) (i : ℕ) : Py Exchange :=
  Gateway.open Demo.lib settings i Demo.request [] (lit "r")

/-- Two calls are in flight.  The first is answered 429 with `Retry-After: 120`, the
second cannot connect after that, and a third one selects the replica while the
120 seconds last. -/
theorem promise_broken : ¬ KeepsPromises Demo.lib Demo.lone overlapping Demo.world := by
  intro h
  obtain ⟨c, hplay, hbad⟩ := (Option.any_eq_true _ _).1 (by decide +kernel :
    (System.play (Demo.overlap (Demo.upstream 429 [(lit "retry-after", lit "120")]))
      (fun w l i st => decide (overlapping.admits w l i st)) (Demo.call Demo.lone)
      [.start, .start, .resume 0, .resume 1, .start] ⟨Demo.world, [], []⟩).any
        fun c => dishonours Demo.lib Demo.lone c.log)
  have hc : overlapping.Reachable (opens Demo.lib Demo.lone) Demo.world c :=
    System.play_steps (fun _ _ _ _ hst => of_decide_eq_true hst)
      (fun i => ⟨Demo.request, [], lit "r", rfl⟩) _ hplay
  exact not_honoured_of_dishonours hbad (h c c hc .refl).1

/-- Without the header the second failure asks for no less than the first. -/
theorem promises_kept_two_failures : ∃ c,
    (unshortened Demo.lib Demo.lone).Reachable (opens Demo.lib Demo.lone) Demo.world c ∧
      (sends (c.log.map Prod.snd)).length = 2 ∧ Honoured Demo.lib Demo.lone c.log ∧
      NoEarlier c.state.cooldowns c.state.cooldowns := by
  obtain ⟨c, hplay, hlen⟩ := (Option.any_eq_true _ _).1 (by decide +kernel :
    (System.play (Demo.overlap (Demo.upstream 429))
      (fun w l i st => decide ((unshortened Demo.lib Demo.lone).admits w l i st))
      (Demo.call Demo.lone) [.start, .start, .resume 0, .resume 1, .start]
      ⟨Demo.world, [], []⟩).any fun c => (sends (c.log.map Prod.snd)).length = 2)
  have hc : (unshortened Demo.lib Demo.lone).Reachable (opens Demo.lib Demo.lone) Demo.world c :=
    System.play_steps (fun _ _ _ _ hst => of_decide_eq_true hst)
      (fun i => ⟨Demo.request, [], lit "r", rfl⟩) _ hplay
  exact ⟨c, hc, of_decide_eq_true hlen,
    promises_kept_unless_shortened Demo.lib Demo.lone Demo.world c c hc .refl⟩

end Application
end SwitchyardGateway
