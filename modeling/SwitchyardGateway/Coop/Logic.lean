/-
# Runs and weakest preconditions

A `Discipline` says how one task lives among others: what it owes when it parks
at an await, what may have changed when it wakes, and which answers the
surroundings may give.  The task also carries a log of type `L`, which every
answered question extends.

`Discipline.Run` is the resulting meaning of a program, one run at a time, and
`Discipline.wp` the condition under which every run ends well.  `wp` is defined
by recursion on the tree and is compositional (`wp_bind`, `wp_tryCatch`,
`wp_finallyDo`), so a proof about a large program is made from one lemma for each of
its parts.

`alone` is the discipline of a task whose surroundings are not modelled as
tasks: others may change the shared state within a rely relation while it
waits, and its log holds its own answered questions.  `exec` runs a program
against a scripted environment, so a run can be computed.
-/

import SwitchyardGateway.Coop.Program

namespace SwitchyardGateway
namespace Coop

variable {σ Q L : Type} {A : Q → Type} {ε α β : Type}

/-- How one task lives among others. -/
structure Discipline (σ Q : Type) (A : Q → Type) (L : Type) where
  /-- What the task has to establish before it gives up control to wait for an answer. -/
  park : σ → L → Q → Prop
  /-- From what it left to what it may find when it is resumed. -/
  wake : σ → L → Q → σ → L → Prop
  /-- The answers the surroundings may give, and the log after each. -/
  admits : σ → L → (q : Q) → A q → L → Prop

namespace Discipline

variable (D : Discipline σ Q A L)

/-- `D.Run p s l r s' l'`: started in state `s` with log `l`, the program `p`
can end with `r`, leaving `s'` and `l'`. -/
inductive Run : Prog σ Q A ε α → σ → L → Except ε α → σ → L → Prop where
  | ret {a : α} {s : σ} {l : L} : Run (.ret a) s l (.ok a) s l
  | raise {e : ε} {s : σ} {l : L} : Run (.raise e) s l (.error e) s l
  | get {k : σ → Prog σ Q A ε α} {s s' : σ} {l l' : L} {r : Except ε α} :
      Run (k s) s l r s' l' → Run (.get k) s l r s' l'
  | put {k : Prog σ Q A ε α} {s₁ s s' : σ} {l l' : L} {r : Except ε α} :
      Run k s₁ l r s' l' → Run (.put s₁ k) s l r s' l'
  | call {q : Q} {k : A q → Prog σ Q A ε α} {s s' : σ} {l l₁ l' : L} {r : Except ε α} (a : A q) :
      D.admits s l q a l₁ → Run (k a) s l₁ r s' l' → Run (.call q k) s l r s' l'
  | await {q : Q} {k : A q → Prog σ Q A ε α} {s s₁ s' : σ} {l l₁ l₂ l' : L} {r : Except ε α}
      (a : A q) : D.wake s l q s₁ l₁ → D.admits s₁ l₁ q a l₂ → Run (k a) s₁ l₂ r s' l' →
      Run (.await q k) s l r s' l'

/-- Every run of the program from here ends with `ok` of its result or `err`
of its error, and parks only where it has established what it owes. -/
def wp : Prog σ Q A ε α → (α → σ → L → Prop) → (ε → σ → L → Prop) → σ → L → Prop
  | .ret a, ok, _, s, l => ok a s l
  | .raise e, _, err, s, l => err e s l
  | .get k, ok, err, s, l => wp (k s) ok err s l
  | .put s' k, ok, err, _, l => wp k ok err s' l
  | .call q k, ok, err, s, l => ∀ a l₁, D.admits s l q a l₁ → wp (k a) ok err s l₁
  | .await q k, ok, err, s, l =>
    D.park s l q ∧ ∀ s₁ l₁, D.wake s l q s₁ l₁ → ∀ a l₂, D.admits s₁ l₁ q a l₂ → wp (k a) ok err s₁ l₂

/-- The end of a run, judged by the two postconditions. -/
def Ends (ok : α → σ → L → Prop) (err : ε → σ → L → Prop) : Except ε α → σ → L → Prop
  | .ok a => ok a
  | .error e => err e

variable {D}

/-- **`wp` is sound.**  What `wp` promises holds at the end of every run. -/
theorem Run.ends {p : Prog σ Q A ε α} {s s' : σ} {l l' : L} {r : Except ε α}
    {ok : α → σ → L → Prop} {err : ε → σ → L → Prop}
    (h : D.Run p s l r s' l') (hp : D.wp p ok err s l) : Ends ok err r s' l' := by
  induction h with
  | ret => exact hp
  | raise => exact hp
  | get _ ih => exact ih hp
  | put _ ih => exact ih hp
  | call a ha _ ih => exact ih (hp a _ ha)
  | await a hw ha _ ih => exact ih (hp.2 _ _ hw a _ ha)

/-- One assertion about how a run ends, whichever way it does. -/
theorem Run.result {p : Prog σ Q A ε α} {s s' : σ} {l l' : L} {r : Except ε α}
    {P : Except ε α → σ → L → Prop} (h : D.Run p s l r s' l')
    (hp : D.wp p (fun a => P (.ok a)) (fun e => P (.error e)) s l) : P r s' l' := by
  have hends := h.ends hp
  cases r with
  | ok a => exact hends
  | error e => exact hends

/-- Weaker postconditions are easier to reach. -/
theorem wp_mono {p : Prog σ Q A ε α} {ok ok' : α → σ → L → Prop} {err err' : ε → σ → L → Prop}
    (hok : ∀ a s l, ok a s l → ok' a s l) (herr : ∀ e s l, err e s l → err' e s l)
    {s : σ} {l : L} (h : D.wp p ok err s l) : D.wp p ok' err' s l := by
  induction p generalizing s l with
  | ret a => exact hok _ _ _ h
  | raise e => exact herr _ _ _ h
  | get k ih => exact ih s h
  | put s' k ih => exact ih h
  | call q k ih => exact fun a l₁ ha => ih a (h a l₁ ha)
  | await q k ih => exact ⟨h.1, fun s₁ l₁ hw a l₂ ha => ih a (h.2 s₁ l₁ hw a l₂ ha)⟩

@[simp] theorem wp_pure (a : α) (ok : α → σ → L → Prop) (err : ε → σ → L → Prop) :
    D.wp (pure a : Prog σ Q A ε α) ok err = ok a := rfl

@[simp] theorem wp_throw (e : ε) (ok : α → σ → L → Prop) (err : ε → σ → L → Prop) :
    D.wp (throw e : Prog σ Q A ε α) ok err = err e := rfl

@[simp] theorem wp_read (ok : σ → σ → L → Prop) (err : ε → σ → L → Prop) :
    D.wp (Prog.read : Prog σ Q A ε σ) ok err = fun s l => ok s s l := rfl

@[simp] theorem wp_update (f : σ → σ) (ok : Unit → σ → L → Prop) (err : ε → σ → L → Prop) :
    D.wp (Prog.update f : Prog σ Q A ε Unit) ok err = fun s l => ok () (f s) l := rfl

@[simp] theorem wp_ofExcept (r : Except ε α) (ok : α → σ → L → Prop) (err : ε → σ → L → Prop) :
    D.wp (Prog.ofExcept r : Prog σ Q A ε α) ok err = Ends ok err r := by
  cases r <;> rfl

@[simp] theorem ends_ok (a : α) (ok : α → σ → L → Prop) (err : ε → σ → L → Prop) :
    Ends ok err (.ok a) = ok a := rfl

@[simp] theorem ends_error (e : ε) (ok : α → σ → L → Prop) (err : ε → σ → L → Prop) :
    Ends ok err (.error e) = err e := rfl

/-- A question called: whatever the surroundings answer. -/
@[simp] theorem wp_ask (q : Q) (ok : A q → σ → L → Prop) (err : ε → σ → L → Prop) :
    D.wp (Prog.ask q : Prog σ Q A ε (A q)) ok err =
      fun s l => ∀ a l₁, D.admits s l q a l₁ → ok a s l₁ := rfl

/-- A question awaited: the debt is paid, and whatever happened meanwhile. -/
@[simp] theorem wp_askAwait (q : Q) (ok : A q → σ → L → Prop) (err : ε → σ → L → Prop) :
    D.wp (Prog.askAwait q : Prog σ Q A ε (A q)) ok err = fun s l =>
      D.park s l q ∧ ∀ s₁ l₁, D.wake s l q s₁ l₁ → ∀ a l₂, D.admits s₁ l₁ q a l₂ → ok a s₁ l₂ := rfl

/-- **Sequencing.** -/
@[simp] theorem wp_bind (p : Prog σ Q A ε α) (f : α → Prog σ Q A ε β) (ok : β → σ → L → Prop)
    (err : ε → σ → L → Prop) :
    D.wp (p >>= f) ok err = D.wp p (fun a => D.wp (f a) ok err) err := by
  funext s l
  induction p generalizing s l with
  | ret a => rfl
  | raise e => rfl
  | get k ih => exact ih s s l
  | put s' k ih => exact ih s' l
  | call q k ih =>
    change D.wp (.call q fun a => k a >>= f) ok err s l = _
    simp only [wp, ih]
  | await q k ih =>
    change D.wp (.await q fun a => k a >>= f) ok err s l = _
    simp only [wp, ih]

/-- **Handlers** run on the state and the log the error left. -/
@[simp] theorem wp_tryCatch (p : Prog σ Q A ε α) (h : ε → Prog σ Q A ε α) (ok : α → σ → L → Prop)
    (err : ε → σ → L → Prop) :
    D.wp (tryCatch p h) ok err = D.wp p ok (fun e => D.wp (h e) ok err) := by
  funext s l
  induction p generalizing s l with
  | ret a => rfl
  | raise e => rfl
  | get k ih => exact ih s s l
  | put s' k ih => exact ih s' l
  | call q k ih =>
    change D.wp (.call q fun a => tryCatch (k a) h) ok err s l = _
    simp only [wp, ih]
  | await q k ih =>
    change D.wp (.await q fun a => tryCatch (k a) h) ok err s l = _
    simp only [wp, ih]

/-- **Finalizers** run on both ends. -/
@[simp] theorem wp_finallyDo (p : Prog σ Q A ε α) (f : Prog σ Q A ε Unit) (ok : α → σ → L → Prop)
    (err : ε → σ → L → Prop) :
    D.wp (p.finallyDo f) ok err =
      D.wp p (fun a => D.wp f (fun _ => ok a) err) (fun e => D.wp f (fun _ => err e) err) := by
  change D.wp ((tryCatch (p >>= fun a => pure (Except.ok a)) fun e => pure (.error e)) >>= fun r =>
    f >>= fun _ => Prog.ofExcept r) ok err = _
  simp only [wp_bind, wp_tryCatch, wp_pure, wp_ofExcept, ends_ok, ends_error]

/-- Branching on a decidable condition. -/
theorem wp_ite (c : Prop) [Decidable c] (p p' : Prog σ Q A ε α) (ok : α → σ → L → Prop)
    (err : ε → σ → L → Prop) :
    D.wp (if c then p else p') ok err = if c then D.wp p ok err else D.wp p' ok err := by
  split <;> rfl

/-- What is proved of a program holds where fewer things may happen. -/
theorem wp_of_fewer {D' : Discipline σ Q A L} (hpark : ∀ s l q, D.park s l q → D'.park s l q)
    (hwake : ∀ s l q s₁ l₁, D'.wake s l q s₁ l₁ → D.wake s l q s₁ l₁)
    (hadmits : ∀ s l q a l₁, D'.admits s l q a l₁ → D.admits s l q a l₁) {p : Prog σ Q A ε α}
    {ok : α → σ → L → Prop} {err : ε → σ → L → Prop} {s : σ} {l : L} (h : D.wp p ok err s l) :
    D'.wp p ok err s l := by
  induction p generalizing s l with
  | ret a => exact h
  | raise e => exact h
  | get k ih => exact ih s h
  | put s' k ih => exact ih h
  | call q k ih => exact fun a l₁ ha => ih a (h a l₁ (hadmits s l q a l₁ ha))
  | await q k ih =>
    exact ⟨hpark s l q h.1, fun s₁ l₁ hw a l₂ ha =>
      ih a (h.2 s₁ l₁ (hwake s l q s₁ l₁ hw) a l₂ (hadmits s₁ l₁ q a l₂ ha))⟩

/-- Two proofs about one program make one. -/
theorem wp_and {p : Prog σ Q A ε α} {ok ok' : α → σ → L → Prop} {err err' : ε → σ → L → Prop}
    {s : σ} {l : L} (h : D.wp p ok err s l) (h' : D.wp p ok' err' s l) :
    D.wp p (fun a s l => ok a s l ∧ ok' a s l) (fun e s l => err e s l ∧ err' e s l) s l := by
  induction p generalizing s l with
  | ret a => exact ⟨h, h'⟩
  | raise e => exact ⟨h, h'⟩
  | get k ih => exact ih s h h'
  | put s' k ih => exact ih h h'
  | call q k ih => exact fun a l₁ ha => ih a (h a l₁ ha) (h' a l₁ ha)
  | await q k ih =>
    exact ⟨h.1, fun s₁ l₁ hw a l₂ ha => ih a (h.2 s₁ l₁ hw a l₂ ha) (h'.2 s₁ l₁ hw a l₂ ha)⟩

/-! ### Programs that keep an assertion -/

/-- `p` keeps `J`, whichever way it ends, and its result satisfies `post`. -/
def Preserves (D : Discipline σ Q A L) (J : σ → L → Prop) (p : Prog σ Q A ε α) (post : α → Prop) :
    Prop :=
  ∀ s l, J s l → D.wp p (fun a s l => post a ∧ J s l) (fun _ => J) s l

namespace Preserves

variable {J : σ → L → Prop} {post post' : α → Prop}

theorem ret {a : α} (ha : post a) : D.Preserves J (pure a : Prog σ Q A ε α) post :=
  fun _ _ hJ => ⟨ha, hJ⟩

theorem throw {e : ε} : D.Preserves J (MonadExcept.throw e : Prog σ Q A ε α) post :=
  fun _ _ hJ => hJ

theorem ofExcept {r : Except ε α} :
    D.Preserves J (Prog.ofExcept r : Prog σ Q A ε α) fun _ => True := by
  intro s l hJ
  rw [wp_ofExcept]
  cases r with
  | ok a => exact ⟨trivial, hJ⟩
  | error e => exact hJ

theorem bind {p : Prog σ Q A ε α} {f : α → Prog σ Q A ε β} {post' : β → Prop}
    (hp : D.Preserves J p post) (hf : ∀ a, post a → D.Preserves J (f a) post') :
    D.Preserves J (p >>= f) post' := by
  intro s l hJ
  rw [wp_bind]
  exact wp_mono (fun a s l h => hf a h.1 s l h.2) (fun _ _ _ h => h) (hp s l hJ)

theorem tryCatch {p : Prog σ Q A ε α} {handler : ε → Prog σ Q A ε α} (hp : D.Preserves J p post)
    (hh : ∀ e, D.Preserves J (handler e) post) :
    D.Preserves J (MonadExcept.tryCatch p handler) post := by
  intro s l hJ
  rw [wp_tryCatch]
  exact wp_mono (fun _ _ _ h => h) (fun e s l h => hh e s l h) (hp s l hJ)

theorem finallyDo {p : Prog σ Q A ε α} {f : Prog σ Q A ε Unit} (hp : D.Preserves J p post)
    (hf : D.Preserves J f fun _ => True) : D.Preserves J (p.finallyDo f) post := by
  intro s l hJ
  rw [wp_finallyDo]
  refine wp_mono (fun a s l h => ?_) (fun e s l h => ?_) (hp s l hJ)
  · exact wp_mono (fun _ _ _ h' => ⟨h.1, h'.2⟩) (fun _ _ _ h' => h') (hf s l h.2)
  · exact wp_mono (fun _ _ _ h' => h'.2) (fun _ _ _ h' => h') (hf s l h)

theorem weaken {p : Prog σ Q A ε α} (hp : D.Preserves J p post) (h : ∀ a, post a → post' a) :
    D.Preserves J p post' :=
  fun s l hJ => wp_mono (fun a _ _ ha => ⟨h a ha.1, ha.2⟩) (fun _ _ _ he => he) (hp s l hJ)

end Preserves

/-! ### A task on its own -/

end Discipline

/-- One answered question. -/
structure Step (T Q : Type) (A : Q → Type) where
  time : T
  call : Q
  answer : A call

variable {T : Type}

/-- A task on its own, its log newest first: `rely` is what others may do to
the shared state while it waits, and `ok` which answers may come after which. -/
def alone (rely : σ → σ → Prop) (ok : List (Step T Q A) → Step T Q A → Prop) :
    Discipline σ Q A (List (Step T Q A)) where
  park _ _ _ := True
  wake s l _ s₁ l₁ := rely s s₁ ∧ l₁ = l
  admits _ l q a l₁ := ∃ t, ok l ⟨t, q, a⟩ ∧ l₁ = ⟨t, q, a⟩ :: l

/-- A task on its own is never in the way. -/
theorem wp_alone (rely : σ → σ → Prop) (ok : List (Step T Q A) → Step T Q A → Prop)
    (p : Prog σ Q A ε α) (s : σ) (l : List (Step T Q A)) :
    (alone rely ok).wp p (fun _ _ _ => True) (fun _ _ _ => True) s l := by
  induction p generalizing s l with
  | ret a => exact trivial
  | raise e => exact trivial
  | get k ih => exact ih s s l
  | put s' k ih => exact ih s' l
  | call q k ih => exact fun a l₁ _ => ih a s l₁
  | await q k ih => exact ⟨trivial, fun s₁ l₁ _ a l₂ _ => ih a s₁ l₂⟩

/-- Its log only grows. -/
theorem wp_alone_suffix (rely : σ → σ → Prop) (ok : List (Step T Q A) → Step T Q A → Prop)
    (p : Prog σ Q A ε α) (s : σ) {l₀ l : List (Step T Q A)} (h : l₀ <:+ l) :
    (alone rely ok).wp p (fun _ _ l => l₀ <:+ l) (fun _ _ l => l₀ <:+ l) s l := by
  induction p generalizing s l with
  | ret a => exact h
  | raise e => exact h
  | get k ih => exact ih s s h
  | put s' k ih => exact ih s' h
  | call q k ih =>
    rintro a _ ⟨t, _, rfl⟩
    exact ih a s (h.trans (List.suffix_cons _ _))
  | await q k ih =>
    refine ⟨trivial, ?_⟩
    rintro s₁ _ ⟨_, rfl⟩ a _ ⟨t, _, rfl⟩
    exact ih a s₁ (h.trans (List.suffix_cons _ _))

/-- A log in which every answer was allowed after those before it. -/
def Allowed (ok : List (Step T Q A) → Step T Q A → Prop) : List (Step T Q A) → Prop
  | [] => True
  | e :: l => ok l e ∧ Allowed ok l

/-- What is allowed of every answer is true of every answer. -/
theorem Allowed.forall_mem {P : Step T Q A → Prop} {l : List (Step T Q A)}
    (h : Allowed (fun _ => P) l) : ∀ e ∈ l, P e := by
  induction l with
  | nil => exact fun _ he => absurd he List.not_mem_nil
  | cons e l ih => exact List.forall_mem_cons.2 ⟨h.1, ih h.2⟩

/-- Its log is allowed. -/
theorem wp_alone_allowed (rely : σ → σ → Prop) (ok : List (Step T Q A) → Step T Q A → Prop)
    (p : Prog σ Q A ε α) (s : σ) {l : List (Step T Q A)} (h : Allowed ok l) :
    (alone rely ok).wp p (fun _ _ => Allowed ok) (fun _ _ => Allowed ok) s l := by
  induction p generalizing s l with
  | ret a => exact h
  | raise e => exact h
  | get k ih => exact ih s s h
  | put s' k ih => exact ih s' h
  | call q k ih =>
    rintro a _ ⟨t, hok, rfl⟩
    exact ih a s ⟨hok, h⟩
  | await q k ih =>
    refine ⟨trivial, ?_⟩
    rintro s₁ _ ⟨_, rfl⟩ a _ ⟨t, hok, rfl⟩
    exact ih a s₁ ⟨hok, h⟩

/-- Run a program against an environment that answers by the log so far. -/
def exec (env : List (Step T Q A) → (q : Q) → T × A q) :
    Prog σ Q A ε α → σ → List (Step T Q A) → Except ε α × σ × List (Step T Q A)
  | .ret a, s, l => (.ok a, s, l)
  | .raise e, s, l => (.error e, s, l)
  | .get k, s, l => exec env (k s) s l
  | .put s' k, _, l => exec env k s' l
  | .call q k, s, l => exec env (k (env l q).2) s (⟨(env l q).1, q, (env l q).2⟩ :: l)
  | .await q k, s, l => exec env (k (env l q).2) s (⟨(env l q).1, q, (env l q).2⟩ :: l)

/-- **Computed runs are runs**, of any task on its own that the environment suits. -/
theorem exec_run (rely : σ → σ → Prop) (ok : List (Step T Q A) → Step T Q A → Prop)
    (hrely : ∀ s, rely s s) (env : List (Step T Q A) → (q : Q) → T × A q)
    (henv : ∀ l q, ok l ⟨(env l q).1, q, (env l q).2⟩) (p : Prog σ Q A ε α) (s : σ)
    (l : List (Step T Q A)) :
    (alone rely ok).Run p s l (exec env p s l).1 (exec env p s l).2.1 (exec env p s l).2.2 := by
  induction p generalizing s l with
  | ret a => exact .ret
  | raise e => exact .raise
  | get k ih => exact .get (ih s s l)
  | put s' k ih => exact .put (ih s' l)
  | call q k ih => exact .call (env l q).2 ⟨_, henv l q, rfl⟩ (ih _ s _)
  | await q k ih => exact .await (env l q).2 ⟨hrely s, rfl⟩ ⟨_, henv l q, rfl⟩ (ih _ s _)

end Coop
end SwitchyardGateway
