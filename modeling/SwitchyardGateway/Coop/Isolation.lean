/-
# Tasks apart

A pool where every task leaves alone what the others rely on is, for each of its
tasks, a run of that task on its own: what happened in between is what a rely of
`alone` allows, and the task saw no more of the log than its own part of it
(`Reachable.isolated`).  So what is proved of one task on its own is true of every
task of such a pool.

That a task leaves the others alone is an obligation of its program, between one
await and the next (`Apart`).
-/

import SwitchyardGateway.Coop.Pool

namespace SwitchyardGateway
namespace Coop
namespace System

variable {σ T Q : Type} {A : Q → Type} {ε α : Type} {rely : ℕ → σ → σ → Prop} {i : ℕ}

/-- Since `since`, nothing was done that others do not expect. -/
def Unnoticed (rely : ℕ → σ → σ → Prop) (i : ℕ) (s since : σ) : Prop := ∀ j, j ≠ i → rely j since s

/-- Task `i` among others, with the state it was started or resumed in. -/
def among (rely : ℕ → σ → σ → Prop) (i : ℕ) : Discipline σ Q A σ where
  park s since _ := Unnoticed rely i s since
  wake s _ _ s₁ since₁ := rely i s s₁ ∧ since₁ = s₁
  admits _ since _ _ since₁ := since₁ = since

/-- A program that leaves alone what others rely on. -/
def Apart (rely : ℕ → σ → σ → Prop) (i : ℕ) (p : Prog σ Q A ε α) : Prop :=
  (among rely i).Preserves (Unnoticed rely i) p fun _ => True

variable (S : System σ T Q A)

/-- The answers of a pool as a task sees them, which has its own part of the log only. -/
def seen (i : ℕ) (o : List (Coop.Step T Q A)) (st : Coop.Step T Q A) : Prop :=
  ∃ s l, own i l = o ∧ S.admits s l i st

variable {S}

/-- A task that leaves the others alone complies with what they rely on, and delivers
what it does on its own. -/
theorem wp_under_among {C : Contract σ T Q A} (hinv : ∀ s l v, C.inv s l v) {post : Post σ T Q A ε α}
    {p : Prog σ Q A ε α} {s : σ} {x : View σ T Q A}
    (hp : (among C.rely i).wp p (fun _ => Unnoticed C.rely i) (fun _ => Unnoticed C.rely i) s x.since)
    (hpost : ∀ r s' o, (alone (C.rely i) (S.seen i)).Run p s (own i x.log) r s' o → post i r s' o) :
    S.Complies C post i p s x := by
  induction p generalizing s x with
  | ret a => exact ⟨hinv _ _ _, hp, hpost _ _ _ .ret⟩
  | raise e => exact ⟨hinv _ _ _, hp, hpost _ _ _ .raise⟩
  | get k ih => exact ih s hp fun r s' o h => hpost r s' o (.get h)
  | put s₁ k ih => exact ih hp fun r s' o h => hpost r s' o (.put h)
  | call q k ih =>
    rintro a _ ⟨t, ha, rfl⟩
    refine ih a (hp a _ rfl) fun r s' o h => hpost r s' o (.call a ⟨t, ⟨s, x.log, rfl, ha⟩, rfl⟩ ?_)
    rwa [own_cons_self] at h
  | await q k ih =>
    refine ⟨⟨hinv _ _ _, hp.1⟩, ?_⟩
    rintro s₁ x₁ ⟨v, -, -, hx₁, hrely, ho, -⟩ a _ ⟨t, ha, rfl⟩
    have hsince : x₁.since = s₁ := by rw [hx₁]
    refine ih a ?_ fun r s' o h => hpost r s' o
      (.await a ⟨hrely, rfl⟩ ⟨t, ⟨s₁, x₁.log, ho, ha⟩, rfl⟩ ?_)
    · rw [hsince]
      exact hp.2 s₁ s₁ ⟨hrely, rfl⟩ a _ rfl
    · rwa [own_cons_self, ho] at h

/-- **Every task of a pool runs on its own**, if every task leaves alone what the others
rely on: in a run that nobody else is part of, a task that ended has the same end, the
same log and, as far as it relies on it, the same state. -/
theorem Reachable.isolated (rely : ℕ → σ → σ → Prop) (hrefl : ∀ i s, rely i s s)
    (htrans : ∀ i s s' s'', rely i s s' → rely i s' s'' → rely i s s'')
    {starts : ℕ → Prog σ Q A ε α → Prop} (hapart : ∀ i p, starts i p → Apart rely i p) {s₀ : σ}
    {c : Pool σ T Q A ε α} (hc : S.Reachable starts s₀ c) {r : Except ε α} (hr : result c i = some r) :
    ∃ p s s', starts i p ∧ (alone (rely i) (S.seen i)).Run p s [] r s' (own i c.log) ∧ rely i s' c.state := by
  have hstable : ∀ (i : ℕ) (r : Except ε α) (s s' : σ) (o : List (Coop.Step T Q A)),
      (∃ p s₁ s₂, starts i p ∧ (alone (rely i) (S.seen i)).Run p s₁ [] r s₂ o ∧ rely i s₂ s) → rely i s s' →
      ∃ p s₁ s₂, starts i p ∧ (alone (rely i) (S.seen i)).Run p s₁ [] r s₂ o ∧ rely i s₂ s' := by
    rintro i r s s' o ⟨p, s₁, s₂, hp, hrun, hrely⟩ hstep
    exact ⟨p, s₁, s₂, hp, hrun, htrans i s₂ s s' hrely hstep⟩
  refine (hc.honours (C := ⟨fun _ _ _ => True, rely, hrefl, htrans⟩) hstable (fun i p hp s l v _ _ hfresh => ?_)
    trivial).result_post hr
  refine wp_under_among (fun _ _ _ => trivial) ?_ fun r s' o h => ?_
  · exact Discipline.wp_mono (fun _ _ _ h => h.2) (fun _ _ _ h => h) (hapart i p hp s s fun j _ => hrefl j s)
  · rw [hfresh] at h
    exact ⟨p, s, s', hp, h, hrefl i s'⟩

end System
end Coop
end SwitchyardGateway
