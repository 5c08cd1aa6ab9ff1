/-
# Interleavings

Any number of tasks on one event loop.  A task runs alone from the moment it is
started or answered until it reaches its next await (`Section`), so the code
between two awaits is atomic, and `System.Step` lets any suspended task be
answered next.  `System.Reachable` is every pool such steps lead to.

Logs are kept newest first and record who was answered what, and when.

The proof rule is rely and guarantee.  A `Contract` is an invariant of the shared
state, the log and what every task waits for, together with what each task may
rely on while the others run.  If every task keeps the contract from one await to
the next, so does every reachable pool (`System.Reachable.honours`), and a finished
task has achieved its postcondition (`System.Honours.result_post`).

Where the invariant is one of the state and the log alone and nothing else is
relied on, a task's obligation is simpler: `System.Keeps` and `System.Reachable.inv`.
-/

import SwitchyardGateway.Coop.Logic
import Mathlib.Logic.Relation

namespace SwitchyardGateway
namespace Coop

variable {σ T Q : Type} {A : Q → Type} {ε α : Type}

/-- The answered questions of every task, newest first. -/
abbrev Log (T Q : Type) (A : Q → Type) := List (ℕ × Step T Q A)

/-- The part of a log that belongs to task `i`. -/
def own (i : ℕ) (l : Log T Q A) : List (Step T Q A) :=
  (l.filter fun e => e.1 = i).map Prod.snd

@[simp] theorem own_nil (i : ℕ) : own i ([] : Log T Q A) = [] := rfl

@[simp] theorem own_cons_self (i : ℕ) (st : Step T Q A) (l : Log T Q A) :
    own i ((i, st) :: l) = st :: own i l := by
  simp [own]

theorem own_cons_of_ne {i j : ℕ} (h : j ≠ i) (st : Step T Q A) (l : Log T Q A) :
    own i ((j, st) :: l) = own i l := by
  simp [own, h]

/-- Which answers the surroundings of a pool may give to which task, in which
state, after which log. -/
structure System (σ T Q : Type) (A : Q → Type) where
  admits : σ → Log T Q A → ℕ → Step T Q A → Prop

/-- The shared state, the tasks in the order they were started, and the log. -/
structure Pool (σ T Q : Type) (A : Q → Type) (ε α : Type) where
  state : σ
  tasks : List (Prog σ Q A ε α)
  log : Log T Q A

namespace System

variable (S : System σ T Q A)

/-- Task `i` runs alone, from a program to where it parks: its next await, or
its end. -/
inductive Section (i : ℕ) : Prog σ Q A ε α → σ → Log T Q A → Prog σ Q A ε α → σ → Log T Q A → Prop where
  | ret {a : α} {s : σ} {l : Log T Q A} : Section i (.ret a) s l (.ret a) s l
  | raise {e : ε} {s : σ} {l : Log T Q A} : Section i (.raise e) s l (.raise e) s l
  | await {q : Q} {k : A q → Prog σ Q A ε α} {s : σ} {l : Log T Q A} :
      Section i (.await q k) s l (.await q k) s l
  | get {k : σ → Prog σ Q A ε α} {p' : Prog σ Q A ε α} {s s' : σ} {l l' : Log T Q A} :
      Section i (k s) s l p' s' l' → Section i (.get k) s l p' s' l'
  | put {k p' : Prog σ Q A ε α} {s₁ s s' : σ} {l l' : Log T Q A} :
      Section i k s₁ l p' s' l' → Section i (.put s₁ k) s l p' s' l'
  | call {q : Q} {k : A q → Prog σ Q A ε α} {p' : Prog σ Q A ε α} {s s' : σ} {l l' : Log T Q A}
      (t : T) (a : A q) : S.admits s l i ⟨t, q, a⟩ →
      Section i (k a) s ((i, ⟨t, q, a⟩) :: l) p' s' l' → Section i (.call q k) s l p' s' l'

/-- One turn of the event loop: a new task is started, or a suspended task is
answered, and that task runs until it parks. -/
inductive Step (starts : ℕ → Prog σ Q A ε α → Prop) : Pool σ T Q A ε α → Pool σ T Q A ε α → Prop where
  | start {c : Pool σ T Q A ε α} {p p' : Prog σ Q A ε α} {s' : σ} {l' : Log T Q A} :
      starts c.tasks.length p → S.Section c.tasks.length p c.state c.log p' s' l' →
      Step starts c ⟨s', c.tasks ++ [p'], l'⟩
  | resume {c : Pool σ T Q A ε α} {i : ℕ} {q : Q} {k : A q → Prog σ Q A ε α} {p' : Prog σ Q A ε α}
      {s' : σ} {l' : Log T Q A} (t : T) (a : A q) : c.tasks[i]? = some (.await q k) →
      S.admits c.state c.log i ⟨t, q, a⟩ →
      S.Section i (k a) c.state ((i, ⟨t, q, a⟩) :: c.log) p' s' l' →
      Step starts c ⟨s', c.tasks.set i p', l'⟩

/-- Every pool that turns of the loop lead to, from a state without tasks. -/
def Reachable (starts : ℕ → Prog σ Q A ε α → Prop) (s₀ : σ) (c : Pool σ T Q A ε α) : Prop :=
  Relation.ReflTransGen (S.Step starts) ⟨s₀, [], []⟩ c

/-- A section only extends the log, with entries of its own task. -/
theorem Section.log_suffix {S : System σ T Q A} {i : ℕ} {p p' : Prog σ Q A ε α} {s s' : σ}
    {l l' : Log T Q A} (h : S.Section i p s l p' s' l') : l <:+ l' ∧ ∀ j, j ≠ i → own j l' = own j l := by
  induction h with
  | ret => exact ⟨List.suffix_refl _, fun _ _ => rfl⟩
  | raise => exact ⟨List.suffix_refl _, fun _ _ => rfl⟩
  | await => exact ⟨List.suffix_refl _, fun _ _ => rfl⟩
  | get _ ih => exact ih
  | put _ ih => exact ih
  | call t a _ _ ih =>
    refine ⟨(List.suffix_cons _ _).trans ih.1, fun j hj => ?_⟩
    rw [ih.2 j hj, own_cons_of_ne (Ne.symm hj)]

/-- The result of a task that has ended. -/
def result (c : Pool σ T Q A ε α) (i : ℕ) : Option (Except ε α) :=
  match c.tasks[i]? with
  | some (.ret a) => some (.ok a)
  | some (.raise e) => some (.error e)
  | _ => none

/-! ### Contracts -/

/-- The question a parked program waits for. -/
def waiting : Prog σ Q A ε α → Option Q
  | .await q _ => some q
  | _ => none

/-- What every task of a pool waits for. -/
def waits (c : Pool σ T Q A ε α) (i : ℕ) : Option Q := c.tasks[i]?.bind waiting

/-- A task that waits has not ended. -/
theorem result_of_waits {c : Pool σ T Q A ε α} {i : ℕ} {q : Q} (h : waits c i = some q) :
    i < c.tasks.length ∧ result c i = none := by
  obtain ⟨p, hp, hwaiting⟩ := Option.bind_eq_some_iff.1 h
  refine ⟨(List.getElem?_eq_some_iff.1 hp).1, ?_⟩
  rw [result, hp]
  cases p with
  | ret a => cases hwaiting
  | raise e => cases hwaiting
  | _ => rfl

/-- An invariant of the state, the log and what every task waits for, and what
task `i` may rely on from one state to a later one while the others run. -/
structure Contract (σ T Q : Type) (A : Q → Type) where
  inv : σ → Log T Q A → (ℕ → Option Q) → Prop
  rely : ℕ → σ → σ → Prop
  rely_refl : ∀ i s, rely i s s
  rely_trans : ∀ i s s' s'', rely i s s' → rely i s' s'' → rely i s s''

/-- What a task sees of its pool: the log, what the others wait for, and the state
it was started or resumed in. -/
structure View (σ T Q : Type) (A : Q → Type) where
  log : Log T Q A
  waits : ℕ → Option Q
  since : σ

/-- How task `i` lives in a pool under a contract.  When it parks the invariant holds
and it has done nothing the others did not expect; when it wakes the invariant
holds, with the task still waiting, and the others have done nothing it does not
expect: its own part of the log is as it left it, and the rest has only grown. -/
def under (C : Contract σ T Q A) (i : ℕ) : Discipline σ Q A (View σ T Q A) where
  park s x q := C.inv s x.log (Function.update x.waits i (some q)) ∧
    ∀ j, j ≠ i → C.rely j x.since s
  wake s x q s₁ x₁ := ∃ v, v i = some q ∧ C.inv s₁ x₁.log v ∧
    x₁ = ⟨x₁.log, Function.update v i none, s₁⟩ ∧ C.rely i s s₁ ∧
    own i x₁.log = own i x.log ∧ x.log <:+ x₁.log
  admits s x q a x₁ := ∃ t, S.admits s x.log i ⟨t, q, a⟩ ∧ x₁ = { x with log := (i, ⟨t, q, a⟩) :: x.log }

/-- A postcondition of the tasks: of a result, a state and a task's own log. -/
abbrev Post (σ T Q : Type) (A : Q → Type) (ε α : Type) :=
  ℕ → Except ε α → σ → List (Coop.Step T Q A) → Prop

/-- What task `i` leaves behind under a contract. -/
def Delivers (C : Contract σ T Q A) (post : Post σ T Q A ε α) (i : ℕ) (r : Except ε α) (s : σ)
    (x : View σ T Q A) : Prop :=
  C.inv s x.log (Function.update x.waits i none) ∧ (∀ j, j ≠ i → C.rely j x.since s) ∧
    post i r s (own i x.log)

/-- The obligation of one task under a contract. -/
def Complies (C : Contract σ T Q A) (post : Post σ T Q A ε α) (i : ℕ) (p : Prog σ Q A ε α) (s : σ)
    (x : View σ T Q A) : Prop :=
  (S.under C i).wp p (fun a => Delivers C post i (.ok a)) (fun e => Delivers C post i (.error e)) s x

variable {S} {C : Contract σ T Q A} {post : Post σ T Q A ε α}

/-- What a parked task still owes, whatever the others do: nothing if it has
ended, and its obligation at every way of waking otherwise. -/
def Owes (S : System σ T Q A) (C : Contract σ T Q A) (post : Post σ T Q A ε α) (i : ℕ) (s : σ)
    (l : Log T Q A) : Prog σ Q A ε α → Prop
  | .ret a => post i (.ok a) s (own i l)
  | .raise e => post i (.error e) s (own i l)
  | .await q k => ∀ s₁ l₁ v, v i = some q → C.inv s₁ l₁ v → C.rely i s s₁ → own i l₁ = own i l →
      l <:+ l₁ → ∀ t a, S.admits s₁ l₁ i ⟨t, q, a⟩ →
        S.Complies C post i (k a) s₁ ⟨(i, ⟨t, q, a⟩) :: l₁, Function.update v i none, s₁⟩
  | _ => False

/-- Running a section discharges the obligation down to the next await. -/
theorem Section.complies {i : ℕ} {p p' : Prog σ Q A ε α} {s s' : σ} {l l' : Log T Q A}
    {v : ℕ → Option Q} {s₀ : σ} (h : S.Section i p s l p' s' l')
    (hp : S.Complies C post i p s ⟨l, v, s₀⟩) :
    C.inv s' l' (Function.update v i (waiting p')) ∧ (∀ j, j ≠ i → C.rely j s₀ s') ∧
      S.Owes C post i s' l' p' := by
  induction h with
  | ret => exact hp
  | raise => exact hp
  | await =>
    refine ⟨hp.1.1, hp.1.2, fun s₁ l₁ v' hv hI hrely ho hl t a ha => ?_⟩
    exact hp.2 s₁ ⟨l₁, Function.update v' i none, s₁⟩ ⟨v', hv, hI, rfl, hrely, ho, hl⟩ a _ ⟨t, ha, rfl⟩
  | get _ ih => exact ih hp
  | put _ ih => exact ih hp
  | call t a ha _ ih => exact ih (hp a _ ⟨t, ha, rfl⟩)

/-- What a task owes survives the turns of the others. -/
theorem Owes.grow (hstable : ∀ i r s s' o, post i r s o → C.rely i s s' → post i r s' o) {i : ℕ}
    {s s' : σ} {l l' : Log T Q A} {p : Prog σ Q A ε α} (h : S.Owes C post i s l p)
    (hrely : C.rely i s s') (hl : l <:+ l') (ho : own i l' = own i l) : S.Owes C post i s' l' p := by
  cases p with
  | ret a =>
    rw [Owes, ho]
    exact hstable _ _ _ _ _ h hrely
  | raise e =>
    rw [Owes, ho]
    exact hstable _ _ _ _ _ h hrely
  | get k => exact h
  | put s k => exact h
  | call q k => exact h
  | await q k =>
    intro s₁ l₁ v hv hI hrely' ho' hl'
    exact h s₁ l₁ v hv hI (C.rely_trans _ _ _ _ hrely hrely') (ho'.trans ho) (hl.trans hl')

/-- A pool that keeps a contract: the invariant holds, every task owes what it
should, and the log speaks of started tasks only. -/
structure Honours (S : System σ T Q A) (C : Contract σ T Q A) (post : Post σ T Q A ε α)
    (c : Pool σ T Q A ε α) : Prop where
  shared : C.inv c.state c.log (waits c)
  owes : ∀ i p, c.tasks[i]? = some p → S.Owes C post i c.state c.log p
  fresh : ∀ i, c.tasks.length ≤ i → own i c.log = []

/-- **One turn keeps the contract.** -/
theorem Honours.step (hstable : ∀ i r s s' o, post i r s o → C.rely i s s' → post i r s' o)
    {starts : ℕ → Prog σ Q A ε α → Prop} {c c' : Pool σ T Q A ε α}
    (hs : ∀ i p, starts i p → ∀ s l v, C.inv s l v → v i = none → own i l = [] →
      S.Complies C post i p s ⟨l, v, s⟩)
    (h : S.Honours C post c) (hc : S.Step starts c c') : S.Honours C post c' := by
  cases hc with
  | @start p p' s' l' hp hsec =>
    obtain ⟨hl, ho⟩ := hsec.log_suffix
    have hnone : waits c c.tasks.length = none := by simp [waits]
    obtain ⟨hI, hrely, howes⟩ := hsec.complies
      (hs _ p hp _ _ _ h.shared hnone (h.fresh _ (Nat.le_refl _)))
    refine ⟨?_, fun i p₁ hi => ?_, fun i hi => ?_⟩
    · have hwaits : waits ⟨s', c.tasks ++ [p'], l'⟩ =
          Function.update (waits c) c.tasks.length (waiting p') := by
        funext i
        by_cases hi : i = c.tasks.length
        · subst hi
          simp [waits]
        · rw [Function.update_of_ne hi]
          rcases Nat.lt_or_gt_of_ne hi with hlt | hgt
          · simp [waits, List.getElem?_append_left hlt]
          · rw [waits, waits, List.getElem?_eq_none (by simp; omega), List.getElem?_eq_none (by omega)]
      rw [hwaits]
      exact hI
    · rcases Nat.lt_or_ge i c.tasks.length with hlt | hge
      · rw [List.getElem?_append_left hlt] at hi
        have hne := Nat.ne_of_lt hlt
        exact (h.owes i p₁ hi).grow hstable (hrely i hne) hl (ho i hne)
      · rw [List.getElem?_append_right hge] at hi
        obtain ⟨h0, rfl⟩ : i - c.tasks.length = 0 ∧ p' = p₁ := by
          rcases hn : i - c.tasks.length with _ | n
          · rw [hn] at hi
            exact ⟨rfl, Option.some.inj hi⟩
          · rw [hn] at hi
            simp at hi
        obtain rfl : i = c.tasks.length := by omega
        exact howes
    · rw [List.length_append, List.length_singleton] at hi
      rw [ho i (by omega)]
      exact h.fresh i (by omega)
  | @resume i q k p' s' l' t a hi ha hsec =>
    obtain ⟨hl, ho⟩ := hsec.log_suffix
    have hlt : i < c.tasks.length := (List.getElem?_eq_some_iff.1 hi).1
    have hwait : waits c i = some q := by
      rw [waits, hi]
      rfl
    have hk := h.owes i _ hi c.state c.log (waits c) hwait h.shared (C.rely_refl _ _) rfl
      (List.suffix_refl _) t a ha
    obtain ⟨hI, hrely, howes⟩ := hsec.complies hk
    have hother : ∀ j, j ≠ i → own j l' = own j c.log := fun j hj => by
      rw [ho j hj, own_cons_of_ne (Ne.symm hj)]
    refine ⟨?_, fun j p₁ hj => ?_, fun j hj => ?_⟩
    · have hwaits : waits ⟨s', c.tasks.set i p', l'⟩ =
          Function.update (Function.update (waits c) i none) i (waiting p') := by
        rw [Function.update_idem]
        funext j
        by_cases hj : j = i
        · subst hj
          simp [waits, List.getElem?_set_self hlt]
        · rw [Function.update_of_ne hj, waits, waits, List.getElem?_set_ne (Ne.symm hj)]
      rw [hwaits]
      exact hI
    · by_cases hji : j = i
      · subst hji
        rw [List.getElem?_set_self hlt] at hj
        obtain rfl := Option.some.inj hj
        exact howes
      · rw [List.getElem?_set_ne (Ne.symm hji)] at hj
        exact (h.owes j p₁ hj).grow hstable (hrely j hji) ((List.suffix_cons _ _).trans hl) (hother j hji)
    · rw [List.length_set] at hj
      rw [hother j (by omega)]
      exact h.fresh j hj

/-- **Every reachable pool keeps the contract.** -/
theorem Reachable.honours (hstable : ∀ i r s s' o, post i r s o → C.rely i s s' → post i r s' o)
    {starts : ℕ → Prog σ Q A ε α → Prop} {s₀ : σ} {c : Pool σ T Q A ε α}
    (hs : ∀ i p, starts i p → ∀ s l v, C.inv s l v → v i = none → own i l = [] →
      S.Complies C post i p s ⟨l, v, s⟩)
    (h0 : C.inv s₀ [] fun _ => none) (h : S.Reachable starts s₀ c) : S.Honours C post c := by
  induction h with
  | refl => exact ⟨h0, fun i p hi => by simp at hi, fun i _ => rfl⟩
  | tail _ hc ih => exact ih.step hstable hs hc

/-- **What a finished task achieved**, in every reachable pool. -/
theorem Honours.result_post {c : Pool σ T Q A ε α} (h : S.Honours C post c) {i : ℕ}
    {r : Except ε α} (hr : result c i = some r) : post i r c.state (own i c.log) := by
  unfold result at hr
  split at hr
  · rename_i a hi
    obtain rfl := Option.some.inj hr
    exact h.owes i _ hi
  · rename_i e hi
    obtain rfl := Option.some.inj hr
    exact h.owes i _ hi
  · cases hr

/-! ### Invariants of the state and the log -/

/-- The contract that an invariant alone makes. -/
def Contract.ofInv (I : σ → Log T Q A → Prop) : Contract σ T Q A where
  inv s l _ := I s l
  rely _ _ _ := True
  rely_refl _ _ := trivial
  rely_trans _ _ _ _ _ _ := trivial

section Invariants

variable (S)

/-- How task `i` lives in a pool whose tasks all keep `I`: it owes `I` when it
parks, and when it wakes `I` holds again, its own part of the log is as it left
it, and the rest of the log has only grown. -/
def member (I : σ → Log T Q A → Prop) (i : ℕ) : Discipline σ Q A (Log T Q A) where
  park s l _ := I s l
  wake _ l _ s₁ l₁ := I s₁ l₁ ∧ own i l₁ = own i l ∧ l <:+ l₁
  admits s l q a l₁ := ∃ t, S.admits s l i ⟨t, q, a⟩ ∧ l₁ = (i, ⟨t, q, a⟩) :: l

/-- What task `i` leaves behind: the invariant, and `post` of its own log. -/
def Leaves (I : σ → Log T Q A → Prop) (post : ℕ → Except ε α → List (Coop.Step T Q A) → Prop) (i : ℕ)
    (r : Except ε α) (s : σ) (l : Log T Q A) : Prop :=
  I s l ∧ post i r (own i l)

/-- The obligation of one task in a pool that keeps `I`. -/
def Keeps (I : σ → Log T Q A → Prop) (post : ℕ → Except ε α → List (Coop.Step T Q A) → Prop) (i : ℕ)
    (p : Prog σ Q A ε α) (s : σ) (l : Log T Q A) : Prop :=
  (S.member I i).wp p (fun a => Leaves I post i (.ok a)) (fun e => Leaves I post i (.error e)) s l

/-- A pool that keeps `I`, and whose tasks owe what they should. -/
abbrev Inv (I : σ → Log T Q A → Prop) (post : ℕ → Except ε α → List (Coop.Step T Q A) → Prop)
    (c : Pool σ T Q A ε α) : Prop :=
  S.Honours (.ofInv I) (fun i r _ => post i r) c

variable {S} {I : σ → Log T Q A → Prop}

/-- A task that keeps an invariant complies with the contract it makes. -/
theorem wp_under_ofInv {i : ℕ} {p : Prog σ Q A ε α} {ok : α → σ → Log T Q A → Prop}
    {err : ε → σ → Log T Q A → Prop} {s : σ} {x : View σ T Q A}
    (h : (S.member I i).wp p ok err s x.log) :
    (S.under (.ofInv I) i).wp p (fun a s x => ok a s x.log) (fun e s x => err e s x.log) s x := by
  induction p generalizing s x with
  | ret a => exact h
  | raise e => exact h
  | get k ih => exact ih s h
  | put s' k ih => exact ih h
  | call q k ih =>
    rintro a _ ⟨t, ha, rfl⟩
    exact ih a (h a _ ⟨t, ha, rfl⟩)
  | await q k ih =>
    refine ⟨⟨h.1, fun _ _ => trivial⟩, ?_⟩
    rintro s₁ x₁ ⟨v, _, hI, -, -, ho, hl⟩ a _ ⟨t, ha, rfl⟩
    exact ih a (h.2 s₁ x₁.log ⟨hI, ho, hl⟩ a _ ⟨t, ha, rfl⟩)

/-- **Every reachable pool satisfies the invariant.** -/
theorem Reachable.inv {post : ℕ → Except ε α → List (Coop.Step T Q A) → Prop}
    {starts : ℕ → Prog σ Q A ε α → Prop} {s₀ : σ} {c : Pool σ T Q A ε α}
    (hs : ∀ i p, starts i p → ∀ s l, I s l → own i l = [] → S.Keeps I post i p s l)
    (h0 : I s₀ []) (h : S.Reachable starts s₀ c) : S.Inv I post c := by
  refine Reachable.honours (fun _ _ _ _ _ hpost _ => hpost) (fun i p hp s l v hI _ ho => ?_) h0 h
  exact Discipline.wp_mono (fun a s x hx => ⟨hx.1, fun _ _ => trivial, hx.2⟩)
    (fun e s x hx => ⟨hx.1, fun _ _ => trivial, hx.2⟩) (wp_under_ofInv (hs i p hp s l hI ho))

end Invariants

/-- The log of a pool only grows. -/
theorem Step.log_suffix {starts : ℕ → Prog σ Q A ε α → Prop} {c c' : Pool σ T Q A ε α}
    (h : S.Step starts c c') : c.log <:+ c'.log := by
  cases h with
  | start _ hsec => exact hsec.log_suffix.1
  | resume t a _ _ hsec => exact (List.suffix_cons _ _).trans hsec.log_suffix.1

/-! ### Computed pools -/

/-- What happens next in a scheduled run: a new task, or an answer to a task. -/
inductive Move where
  | start
  | resume (i : ℕ)

section Play

variable (env : Log T Q A → (q : Q) → T × A q) (check : σ → Log T Q A → ℕ → Coop.Step T Q A → Bool)

/-- Run a section against an environment; `none` if an answer fails the check. -/
def settle (i : ℕ) : Prog σ Q A ε α → σ → Log T Q A → Option (Prog σ Q A ε α × σ × Log T Q A)
  | .ret a, s, l => some (.ret a, s, l)
  | .raise e, s, l => some (.raise e, s, l)
  | .await q k, s, l => some (.await q k, s, l)
  | .get k, s, l => settle i (k s) s l
  | .put s' k, _, l => settle i k s' l
  | .call q k, s, l =>
    if check s l i ⟨(env l q).1, q, (env l q).2⟩ then
      settle i (k (env l q).2) s ((i, ⟨(env l q).1, q, (env l q).2⟩) :: l)
    else none

/-- One scheduled turn, where task `i` runs the program `prog i`. -/
def turn (prog : ℕ → Prog σ Q A ε α) (c : Pool σ T Q A ε α) : Move → Option (Pool σ T Q A ε α)
  | .start =>
    (settle env check c.tasks.length (prog c.tasks.length) c.state c.log).map fun r =>
      ⟨r.2.1, c.tasks ++ [r.1], r.2.2⟩
  | .resume i =>
    match c.tasks[i]? with
    | some (.await q k) =>
      if check c.state c.log i ⟨(env c.log q).1, q, (env c.log q).2⟩ then
        (settle env check i (k (env c.log q).2) c.state
          ((i, ⟨(env c.log q).1, q, (env c.log q).2⟩) :: c.log)).map fun r =>
            ⟨r.2.1, c.tasks.set i r.1, r.2.2⟩
      else none
    | _ => none

/-- A scheduled run. -/
def play (prog : ℕ → Prog σ Q A ε α) : List Move → Pool σ T Q A ε α → Option (Pool σ T Q A ε α)
  | [], c => some c
  | m :: ms, c => (turn env check prog c m).bind (play prog ms)

variable {env check}

theorem settle_section (hcheck : ∀ s l i st, check s l i st = true → S.admits s l i st) {i : ℕ}
    {p : Prog σ Q A ε α} {s : σ} {l : Log T Q A} {r : Prog σ Q A ε α × σ × Log T Q A}
    (h : settle env check i p s l = some r) : S.Section i p s l r.1 r.2.1 r.2.2 := by
  induction p generalizing s l with
  | ret a => obtain rfl := Option.some.inj h; exact .ret
  | raise e => obtain rfl := Option.some.inj h; exact .raise
  | await q k => obtain rfl := Option.some.inj h; exact .await
  | get k ih => exact .get (ih s h)
  | put s' k ih => exact .put (ih h)
  | call q k ih =>
    rw [settle] at h
    split at h
    · rename_i hc
      exact .call _ _ (hcheck _ _ _ _ hc) (ih _ h)
    · cases h

theorem turn_step {starts : ℕ → Prog σ Q A ε α → Prop} {prog : ℕ → Prog σ Q A ε α}
    (hcheck : ∀ s l i st, check s l i st = true → S.admits s l i st) (hprog : ∀ i, starts i (prog i))
    {c c' : Pool σ T Q A ε α} {m : Move} (h : turn env check prog c m = some c') :
    S.Step starts c c' := by
  cases m with
  | start =>
    obtain ⟨r, hr, rfl⟩ := Option.map_eq_some_iff.1 h
    exact .start (hprog _) (settle_section hcheck hr)
  | resume i =>
    rw [turn] at h
    split at h
    · rename_i q k hi
      split at h
      · rename_i hc
        obtain ⟨r, hr, rfl⟩ := Option.map_eq_some_iff.1 h
        exact .resume _ _ hi (hcheck _ _ _ _ hc) (settle_section hcheck hr)
      · cases h
    · cases h

/-- **Scheduled runs are reachable**, in any system whose surroundings may answer
what the check lets through. -/
theorem play_steps {starts : ℕ → Prog σ Q A ε α → Prop} {prog : ℕ → Prog σ Q A ε α}
    (hcheck : ∀ s l i st, check s l i st = true → S.admits s l i st) (hprog : ∀ i, starts i (prog i))
    (ms : List Move) {c c' : Pool σ T Q A ε α} (h : play env check prog ms c = some c') :
    Relation.ReflTransGen (S.Step starts) c c' := by
  induction ms generalizing c with
  | nil => obtain rfl := Option.some.inj h; exact .refl
  | cons m ms ih =>
    obtain ⟨c₁, hturn, hplay⟩ := Option.bind_eq_some_iff.1 h
    exact .head (turn_step hcheck hprog hturn) (ih hplay)

end Play

end System
end Coop
end SwitchyardGateway
