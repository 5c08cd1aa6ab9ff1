/-
# Code that raises

A function that may raise is one to `Except`.  What it says that sequencing, a loop
of checks or a list comprehension ended without an exception, part by part.
-/

import Mathlib.Data.List.Forall2
import Mathlib.Tactic.Common

namespace SwitchyardGateway
namespace Python

variable {ε α β : Type}

theorem ok_bind (a : α) (f : α → Except ε β) : (Except.ok a >>= f) = f a := rfl

theorem error_bind (e : ε) (f : α → Except ε β) :
    ((Except.error e : Except ε α) >>= f) = .error e := rfl

/-- The parts of a computation that does not raise. -/
theorem bind_ok {x : Except ε α} {f : α → Except ε β} {b : β} (h : (x >>= f) = .ok b) :
    ∃ a, x = .ok a ∧ f a = .ok b := by
  cases x with
  | error e => cases h
  | ok a => exact ⟨a, rfl, h⟩

/-- What does not raise does not raise something else either. -/
theorem mapError_ok {ε' : Type} {x : Except ε α} {f : ε → ε'} {a : α} (h : x.mapError f = .ok a) : x = .ok a := by
  cases x with
  | error e => cases h
  | ok b => exact congrArg _ (Except.ok.inj h)

/-- Sequencing succeeds when both parts do. -/
theorem seq_ok {p : Except ε Unit} {f : Unit → Except ε α} {a : α} :
    p >>= f = .ok a ↔ p = .ok () ∧ f () = .ok a := by
  cases p with
  | ok u =>
    constructor
    · exact fun h => ⟨rfl, h⟩
    · exact fun h => h.2
  | error e =>
    constructor
    · exact fun h => nomatch h
    · exact fun h => nomatch h.1

/-- A loop of checks succeeds when every check does. -/
theorem forM_ok {f : α → Except ε Unit} {xs : List α} :
    xs.forM f = .ok () ↔ ∀ x ∈ xs, f x = .ok () := by
  induction xs with
  | nil => simp [List.forM, pure, Except.pure]
  | cons x xs ih =>
    change (f x >>= fun _ => xs.forM f) = .ok () ↔ _
    rw [seq_ok, ih, List.forall_mem_cons]

/-- What a list is mapped to, item by item. -/
theorem mapM_ok_iff {f : α → Except ε β} {xs : List α} {ys : List β} :
    xs.mapM f = .ok ys ↔ List.Forall₂ (fun x y => f x = .ok y) xs ys := by
  induction xs generalizing ys with
  | nil =>
    cases ys
    · exact ⟨fun _ => .nil, fun _ => rfl⟩
    · exact ⟨nofun, nofun⟩
  | cons x xs ih =>
    rw [List.mapM_cons]
    constructor
    · intro h
      cases hx : f x with
      | error e =>
        rw [hx] at h
        cases h
      | ok y =>
        cases hxs : xs.mapM f with
        | error e =>
          rw [hx, hxs] at h
          cases h
        | ok rest =>
          rw [hx, hxs] at h
          obtain rfl := Except.ok.inj h
          exact .cons hx (ih.1 hxs)
    · rintro (_ | ⟨hx, hxs⟩)
      rw [hx, ih.2 hxs]
      rfl

/-- It succeeds if every item does, and fails as an item does. -/
theorem mapM_cases (f : α → Except ε β) (xs : List α) :
    ((∀ x ∈ xs, ∃ y, f x = .ok y) ∧ ∃ ys, xs.mapM f = .ok ys) ∨
      ∃ x ∈ xs, ∃ e, f x = .error e ∧ xs.mapM f = .error e := by
  induction xs with
  | nil => exact .inl ⟨nofun, [], rfl⟩
  | cons x xs ih =>
    cases hx : f x with
    | error e =>
      refine .inr ⟨x, List.mem_cons_self .., e, hx, ?_⟩
      rw [List.mapM_cons, hx]
      rfl
    | ok y =>
      rcases ih with ⟨hall, ys, hys⟩ | ⟨x', hx', e, he, hmapM⟩
      · refine .inl ⟨List.forall_mem_cons.2 ⟨⟨y, hx⟩, hall⟩, y :: ys, ?_⟩
        rw [List.mapM_cons, hx, hys]
        rfl
      · refine .inr ⟨x', List.mem_cons_of_mem _ hx', e, he, ?_⟩
        rw [List.mapM_cons, hx, hmapM]
        rfl

/-- A list of which no item raises is mapped. -/
theorem mapM_ok {f : α → Except ε β} {xs : List α} (h : ∀ x ∈ xs, ∃ y, f x = .ok y) :
    ∃ ys, xs.mapM f = .ok ys := by
  rcases mapM_cases f xs with ⟨-, hys⟩ | ⟨x, hx, e, he, -⟩
  · exact hys
  · obtain ⟨y, hy⟩ := h x hx
    exact nomatch hy.symm.trans he

/-- Functions that agree on the items of a list map it alike. -/
theorem mapM_congr {f g : α → Except ε β} {xs : List α} (h : ∀ x ∈ xs, f x = g x) :
    xs.mapM f = xs.mapM g := by
  induction xs with
  | nil => rfl
  | cons x xs ih =>
    rw [List.mapM_cons, List.mapM_cons, h x List.mem_cons_self,
      ih fun y hy => h y (List.mem_cons_of_mem _ hy)]

/-- What a computation raises, if it does. -/
def raised : Except ε α → Option ε
  | .ok _ => none
  | .error e => some e

theorem raised_eq_none {x : Except ε α} : raised x = none ↔ ∃ a, x = .ok a := by
  cases x <;> simp [raised]

theorem raised_eq_some {x : Except ε α} {e : ε} : raised x = some e ↔ x = .error e := by
  cases x <;> simp [raised]

theorem raised_return (x : Except ε α) (f : α → β) : raised (do return f (← x)) = raised x := by
  cases x <;> rfl

/-- A list comprehension raises what its first item to raise does. -/
theorem raised_mapM (f : α → Except ε β) (xs : List α) :
    raised (xs.mapM f) = xs.findSome? fun x => raised (f x) := by
  induction xs with
  | nil => rfl
  | cons x xs ih =>
    rw [List.mapM_cons, List.findSome?_cons, ← ih]
    cases f x with
    | error e => rfl
    | ok y => exact raised_return (xs.mapM f) (y :: ·)

theorem findSome?_congr {f g : α → Option β} {xs : List α} (h : ∀ x ∈ xs, f x = g x) :
    xs.findSome? f = xs.findSome? g := by
  induction xs with
  | nil => rfl
  | cons x xs ih =>
    rw [List.findSome?_cons, List.findSome?_cons, h x List.mem_cons_self,
      ih fun y hy => h y (List.mem_cons_of_mem _ hy)]

/-- What is first in a list of lists is first in one of them. -/
theorem findSome?_flatMap {γ : Type} (f : β → Option γ) (g : α → List β) (xs : List α) :
    (xs.flatMap g).findSome? f = xs.findSome? fun x => (g x).findSome? f := by
  induction xs with
  | nil => rfl
  | cons x xs ih =>
    rw [List.flatMap_cons, List.findSome?_append, ih, List.findSome?_cons]
    cases (g x).findSome? f <;> rfl

/-- All that is raised satisfies `P`. -/
def RaisesOnly (P : ε → Prop) (x : Except ε α) : Prop := ∀ e, x = .error e → P e

namespace RaisesOnly

variable {P P' : ε → Prop} {x : Except ε α}

theorem ok {a : α} : RaisesOnly P (.ok a : Except ε α) := fun _ h => by cases h

theorem error {e : ε} (h : P e) : RaisesOnly P (.error e : Except ε α) := fun e' h' => by
  obtain rfl := Except.error.inj h'
  exact h

theorem mono (h : RaisesOnly P x) (hP : ∀ e, P e → P' e) : RaisesOnly P' x := fun e he => hP e (h e he)

/-- A sequence raises what its parts raise. -/
theorem bind {f : α → Except ε β} (hx : RaisesOnly P x) (hf : ∀ a, RaisesOnly P (f a)) :
    RaisesOnly P (x >>= f) := by
  cases x with
  | error e => exact error (hx e rfl)
  | ok a => exact hf a

theorem map {f : α → β} (hx : RaisesOnly P x) : RaisesOnly P (x.map f) := by
  cases x with
  | error e => exact error (hx e rfl)
  | ok a => exact ok

/-- What is raised under another name. -/
theorem mapError {ε' : Type} {f : ε → ε'} {Q : ε' → Prop} (hx : RaisesOnly P x) (h : ∀ e, P e → Q (f e)) :
    RaisesOnly Q (x.mapError f) := by
  cases x with
  | error e => exact error (h e (hx e rfl))
  | ok a => exact ok

/-- A list comprehension raises what its items raise. -/
theorem mapM {f : α → Except ε β} (h : ∀ a, RaisesOnly P (f a)) (xs : List α) : RaisesOnly P (xs.mapM f) := by
  rcases mapM_cases f xs with ⟨-, ys, hys⟩ | ⟨a, -, e, he, hxs⟩
  · rw [hys]
    exact ok
  · rw [hxs]
    exact error (h a e he)

/-- So does a loop of checks. -/
theorem forM {f : α → Except ε Unit} (h : ∀ a, RaisesOnly P (f a)) (xs : List α) : RaisesOnly P (xs.forM f) := by
  induction xs with
  | nil => exact ok
  | cons x xs ih => exact (h x).bind fun _ => ih

end RaisesOnly

/-- A related item of a related list. -/
theorem exists_related {R : α → β → Prop} {xs : List α} {ys : List β} {x : α}
    (h : List.Forall₂ R xs ys) (hx : x ∈ xs) : ∃ y ∈ ys, R x y := by
  induction h with
  | nil => cases hx
  | cons hxy _ ih =>
    rcases List.mem_cons.1 hx with rfl | hx
    · exact ⟨_, List.mem_cons_self, hxy⟩
    · obtain ⟨y, hy, hxy⟩ := ih hx
      exact ⟨y, List.mem_cons_of_mem _ hy, hxy⟩

end Python
end SwitchyardGateway
