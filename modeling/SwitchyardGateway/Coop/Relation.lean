/-
# Two programs that ask alike

A statement about two runs is proved on the programs first.  `Alike` relates two
programs that read and write the state alike, ask questions related by `like`,
go on alike after related answers, and end in related results.  It is compositional
(`Alike.bind`, `Alike.tryCatch`), so two programs that differ in one place need
an argument about that place only.

An `Oracle` is the surroundings of one run: what they answer and what others do to
the state, both by the history.  If it does not tell related histories and
questions apart, then any two runs of related programs end in related results, in
the same state, with related histories (`Alike.runs`).
-/

import SwitchyardGateway.Coop.Logic

namespace SwitchyardGateway
namespace Coop

variable {σ Q T : Type} {A : Q → Type} {ε α α' β β' : Type}

/-- When two questions, and two answers to them, are related. -/
structure Likeness (Q : Type) (A : Q → Type) where
  like : Q → Q → Prop
  same : (q q' : Q) → A q → A q' → Prop
  refl : ∀ q, like q q
  eq : ∀ q a a', same q q a a' → a = a'

namespace Prog

/-- Programs that differ in nothing but related questions. -/
inductive Alike (E : Likeness Q A) (R : α → α' → Prop) :
    Prog σ Q A ε α → Prog σ Q A ε α' → Prop where
  | ret {a : α} {a' : α'} : R a a' → Alike E R (.ret a) (.ret a')
  | raise (e : ε) : Alike E R (.raise e) (.raise e)
  | get {k : σ → Prog σ Q A ε α} {k' : σ → Prog σ Q A ε α'} :
      (∀ s, Alike E R (k s) (k' s)) → Alike E R (.get k) (.get k')
  | put {s : σ} {k : Prog σ Q A ε α} {k' : Prog σ Q A ε α'} :
      Alike E R k k' → Alike E R (.put s k) (.put s k')
  | call {q q' : Q} {k : A q → Prog σ Q A ε α} {k' : A q' → Prog σ Q A ε α'} :
      E.like q q' → (∀ a a', E.same q q' a a' → Alike E R (k a) (k' a')) →
      Alike E R (.call q k) (.call q' k')
  | await {q q' : Q} {k : A q → Prog σ Q A ε α} {k' : A q' → Prog σ Q A ε α'} :
      E.like q q' → (∀ a a', E.same q q' a a' → Alike E R (k a) (k' a')) →
      Alike E R (.await q k) (.await q' k')

namespace Alike

variable {E : Likeness Q A} {R : α → α' → Prop} {R' : β → β' → Prop}

/-- A program is like itself. -/
theorem refl (p : Prog σ Q A ε α) : Alike E Eq p p := by
  induction p with
  | ret a => exact .ret rfl
  | raise e => exact .raise e
  | get k ih => exact .get ih
  | put s k ih => exact .put ih
  | call q k ih =>
    refine .call (E.refl q) fun a a' h => ?_
    obtain rfl := E.eq q a a' h
    exact ih a
  | await q k ih =>
    refine .await (E.refl q) fun a a' h => ?_
    obtain rfl := E.eq q a a' h
    exact ih a

theorem bind {p : Prog σ Q A ε α} {p' : Prog σ Q A ε α'} {f : α → Prog σ Q A ε β}
    {f' : α' → Prog σ Q A ε β'} (hp : Alike E R p p') (hf : ∀ a a', R a a' → Alike E R' (f a) (f' a')) :
    Alike E R' (p >>= f) (p' >>= f') := by
  induction hp with
  | ret h => exact hf _ _ h
  | raise e => exact .raise e
  | get _ ih => exact .get ih
  | put _ ih => exact .put ih
  | call hq _ ih => exact .call hq ih
  | await hq _ ih => exact .await hq ih

/-- The same program, then programs that are alike. -/
theorem seq (p : Prog σ Q A ε α) {f : α → Prog σ Q A ε β} {f' : α → Prog σ Q A ε β'}
    (hf : ∀ a, Alike E R' (f a) (f' a)) : Alike E R' (p >>= f) (p >>= f') := by
  refine (refl p).bind fun a a' h => ?_
  obtain rfl := h
  exact hf a

theorem tryCatch {p : Prog σ Q A ε α} {p' : Prog σ Q A ε α'} {handler : ε → Prog σ Q A ε α}
    {handler' : ε → Prog σ Q A ε α'} (hp : Alike E R p p')
    (hh : ∀ e, Alike E R (handler e) (handler' e)) :
    Alike E R (MonadExcept.tryCatch p handler) (MonadExcept.tryCatch p' handler') := by
  induction hp with
  | ret h => exact .ret h
  | raise e => exact hh e
  | get _ ih => exact .get ih
  | put _ ih => exact .put ih
  | call hq _ ih => exact .call hq ih
  | await hq _ ih => exact .await hq ih

theorem finallyDo {p p' : Prog σ Q A ε α} (hp : Alike E Eq p p') (f : Prog σ Q A ε Unit) :
    Alike E Eq (Prog.finallyDo p f) (Prog.finallyDo p' f) := by
  have hattempt : Alike E Eq p.attempt p'.attempt := by
    refine .tryCatch (hp.bind fun a a' h => ?_) fun e => .refl _
    obtain rfl := h
    exact .refl _
  refine hattempt.bind fun r r' h => ?_
  obtain rfl := h
  exact .refl _

end Alike
end Prog

/-! ### The surroundings of two runs -/

/-- What a run meets, by its history: the answer to a question and its instant, and
what others did to the state while it waited. -/
structure Oracle (σ T Q : Type) (A : Q → Type) where
  answers : List (Step T Q A) → (q : Q) → T × A q
  others : List (Step T Q A) → σ → σ

namespace Oracle

/-- The discipline of a task in these surroundings. -/
def discipline (O : Oracle σ T Q A) : Discipline σ Q A (List (Step T Q A)) where
  park _ _ _ := True
  wake s l _ s₁ l₁ := s₁ = O.others l s ∧ l₁ = l
  admits _ l q a l₁ := a = (O.answers l q).2 ∧ l₁ = ⟨(O.answers l q).1, q, a⟩ :: l

/-- Every program has a run in every surroundings. -/
theorem exists_run (O : Oracle σ T Q A) (p : Prog σ Q A ε α) (s : σ) (l : List (Step T Q A)) :
    ∃ r s' l', O.discipline.Run p s l r s' l' := by
  induction p generalizing s l with
  | ret a => exact ⟨_, _, _, .ret⟩
  | raise e => exact ⟨_, _, _, .raise⟩
  | get k ih =>
    obtain ⟨r, s', l', h⟩ := ih s s l
    exact ⟨r, s', l', .get h⟩
  | put s₁ k ih =>
    obtain ⟨r, s', l', h⟩ := ih s₁ l
    exact ⟨r, s', l', .put h⟩
  | call q k ih =>
    obtain ⟨r, s', l', h⟩ := ih (O.answers l q).2 s (⟨(O.answers l q).1, q, (O.answers l q).2⟩ :: l)
    exact ⟨r, s', l', .call _ ⟨rfl, rfl⟩ h⟩
  | await q k ih =>
    obtain ⟨r, s', l', h⟩ := ih (O.answers l q).2 (O.others l s)
      (⟨(O.answers l q).1, q, (O.answers l q).2⟩ :: l)
    exact ⟨r, s', l', .await _ ⟨rfl, rfl⟩ ⟨rfl, rfl⟩ h⟩

end Oracle

/-- Two answered questions that are related, at one instant. -/
structure Step.Like (E : Likeness Q A) (st st' : Step T Q A) : Prop where
  time : st.time = st'.time
  call : E.like st.call st'.call
  answer : E.same st.call st'.call st.answer st'.answer

/-- Surroundings that do not tell related histories and questions apart. -/
structure Oracle.Indifferent (O : Oracle σ T Q A) (E : Likeness Q A) : Prop where
  time : ∀ l l' q q', List.Forall₂ (Step.Like E) l l' → E.like q q' →
    (O.answers l q).1 = (O.answers l' q').1
  answer : ∀ l l' q q', List.Forall₂ (Step.Like E) l l' → E.like q q' →
    E.same q q' (O.answers l q).2 (O.answers l' q').2
  others : ∀ l l', List.Forall₂ (Step.Like E) l l' → O.others l = O.others l'

/-- Related ends of two runs: the same error, or related results. -/
def Ends₂ (R : α → α' → Prop) : Except ε α → Except ε α' → Prop
  | .ok a, .ok a' => R a a'
  | .error e, .error e' => e = e'
  | _, _ => False

/-- **Two runs of related programs** in surroundings that do not tell them apart. -/
theorem Prog.Alike.runs {E : Likeness Q A} {R : α → α' → Prop} {O : Oracle σ T Q A}
    (hO : O.Indifferent E) {p : Prog σ Q A ε α} {p' : Prog σ Q A ε α'} (h : Alike E R p p') {s s₁ s₁' : σ}
    {l l' l₁ l₁' : List (Step T Q A)} {r : Except ε α} {r' : Except ε α'}
    (hl : List.Forall₂ (Step.Like E) l l') (hrun : O.discipline.Run p s l r s₁ l₁)
    (hrun' : O.discipline.Run p' s l' r' s₁' l₁') :
    Ends₂ R r r' ∧ s₁ = s₁' ∧ List.Forall₂ (Step.Like E) l₁ l₁' := by
  induction h generalizing s l l' with
  | ret h =>
    cases hrun
    cases hrun'
    exact ⟨h, rfl, hl⟩
  | raise e =>
    cases hrun
    cases hrun'
    exact ⟨rfl, rfl, hl⟩
  | get _ ih =>
    cases hrun with
    | get hrun =>
      cases hrun' with
      | get hrun' => exact ih _ hl hrun hrun'
  | put _ ih =>
    cases hrun with
    | put hrun =>
      cases hrun' with
      | put hrun' => exact ih hl hrun hrun'
  | @call q q' _ _ hq _ ih =>
    cases hrun with
    | call a ha hrun =>
      cases hrun' with
      | call a' ha' hrun' =>
        obtain ⟨rfl, rfl⟩ := ha
        obtain ⟨rfl, rfl⟩ := ha'
        have hsame := hO.answer l l' q q' hl hq
        exact ih _ _ hsame (.cons ⟨hO.time l l' q q' hl hq, hq, hsame⟩ hl) hrun hrun'
  | @await q q' _ _ hq _ ih =>
    cases hrun with
    | await a hw ha hrun =>
      cases hrun' with
      | await a' hw' ha' hrun' =>
        obtain ⟨rfl, rfl⟩ := hw
        obtain ⟨rfl, rfl⟩ := hw'
        obtain ⟨rfl, rfl⟩ := ha
        obtain ⟨rfl, rfl⟩ := ha'
        have hsame := hO.answer _ _ q q' hl hq
        rw [hO.others _ _ hl] at hrun
        exact ih _ _ hsame (.cons ⟨hO.time _ _ q q' hl hq, hq, hsame⟩ hl) hrun hrun'

end Coop
end SwitchyardGateway
