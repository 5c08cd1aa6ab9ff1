/-
# Scopes that nest

Handles are made one after the other and numbered in that order.  A handle is entered
and exited, several times over if need be, and scopes are exited in reverse entry order.
Histories are newest first.

A handle is `Active` from its making to its last exit, and again from a later entry on.
One of the active handles may be the `keeper`: the one that became active when there was
none, up to its outermost exit.  Whoever saves a global when it becomes active and
restores it at its outermost exit has saved the value from outside if and only if it is
the keeper.

In a history that has come to its end there is a keeper whenever a scope is open
(`Covered`) if and only if no handle is first entered at a wrong time (`Timely`,
`timely_iff_covered`).
-/

import Mathlib.Data.List.Basic
import Mathlib.Data.List.Infix
import Mathlib.Tactic.Common

namespace SwitchyardGateway
namespace Nesting

/-- What happens to handles. -/
inductive Event where
  | make
  | enter (h : ℕ)
  | exit (h : ℕ)
deriving DecidableEq

/-- How many handles have been made. -/
def made : List Event → ℕ
  | [] => 0
  | .make :: l => made l + 1
  | .enter _ :: l | .exit _ :: l => made l

/-- The open scopes, each as the handle it is of, the innermost first. -/
def scopes : List Event → List ℕ
  | [] => []
  | .make :: l => scopes l
  | .enter h :: l => h :: scopes l
  | .exit h :: l => (scopes l).erase h

/-- The handles that have never been entered. -/
def waiting : List Event → List ℕ
  | [] => []
  | .make :: l => made l :: waiting l
  | .enter h :: l => (waiting l).filter (· ≠ h)
  | .exit _ :: l => waiting l

/-- Only handles that have been made are entered and exited, and a handle with an open
scope is exited only if this scope is the innermost. -/
def Bracketed : List Event → Prop
  | [] => True
  | .make :: l => Bracketed l
  | .enter h :: l => h < made l ∧ Bracketed l
  | .exit h :: l => h < made l ∧ (h ∈ scopes l → (scopes l).head? = some h) ∧ Bracketed l

instance decidableBracketed : (l : List Event) → Decidable (Bracketed l)
  | [] => isTrue trivial
  | .make :: l => decidableBracketed l
  | .enter h :: l =>
    have := decidableBracketed l
    inferInstanceAs (Decidable (h < made l ∧ Bracketed l))
  | .exit h :: l =>
    have := decidableBracketed l
    inferInstanceAs
      (Decidable (h < made l ∧ (h ∈ scopes l → (scopes l).head? = some h) ∧ Bracketed l))

/-- Every handle has been entered, and every scope exited. -/
def Settled (l : List Event) : Prop := scopes l = [] ∧ waiting l = []

/-- Made or entered, and not exited for good. -/
def Active (l : List Event) (h : ℕ) : Prop := h ∈ scopes l ∨ h ∈ waiting l

instance (l : List Event) (h : ℕ) : Decidable (Active l h) := inferInstanceAs (Decidable (_ ∨ _))

instance (l : List Event) : Decidable (Settled l) := inferInstanceAs (Decidable (_ ∧ _))

/-- The making of a handle activates it, and so does an entry. -/
inductive Activates (l : List Event) : Event → ℕ → Prop where
  | make : Activates l .make (made l)
  | enter (h : ℕ) : Activates l (.enter h) h

/-- This is the exit from the outermost scope of the handle. -/
def Last (l : List Event) (h : ℕ) : Prop := h ∈ scopes l ∧ h ∉ (scopes l).erase h

instance (l : List Event) (h : ℕ) : Decidable (Last l h) := inferInstanceAs (Decidable (_ ∧ _))

/-- The handle that became active while there was no keeper, up to its outermost exit. -/
def keeper : List Event → Option ℕ
  | [] => none
  | .make :: l => some ((keeper l).getD (made l))
  | .enter h :: l => if keeper l = none ∧ ¬ Active l h then some h else keeper l
  | .exit h :: l => if keeper l = some h ∧ Last l h then none else keeper l

/-- A handle that was made and not entered yet is entered only while there is a keeper,
and the keeper itself only while no scope is open. -/
def Timely : List Event → Prop
  | [] => True
  | .make :: l | .exit _ :: l => Timely l
  | .enter h :: l =>
    (h ∈ waiting l → keeper l ≠ none ∧ (keeper l = some h → scopes l = [])) ∧ Timely l

instance decidableTimely : (l : List Event) → Decidable (Timely l)
  | [] => isTrue trivial
  | .make :: l | .exit _ :: l => decidableTimely l
  | .enter h :: l =>
    have := decidableTimely l
    inferInstanceAs (Decidable
      ((h ∈ waiting l → keeper l ≠ none ∧ (keeper l = some h → scopes l = [])) ∧ Timely l))

/-- There is a keeper whenever a scope is open. -/
def Covered (l : List Event) : Prop := ∀ l', l' <:+ l → scopes l' ≠ [] → keeper l' ≠ none

/-! ### Who is there -/

variable {l : List Event} {e : Event} {g h k : ℕ}

theorem Bracketed.tail (hl : Bracketed (e :: l)) : Bracketed l := by
  cases e with
  | make => exact hl
  | enter h => exact hl.2
  | exit h => exact hl.2.2

theorem Bracketed.suffix {l' : List Event} (hl : Bracketed l) (hl' : l' <:+ l) :
    Bracketed l' := by
  induction l with
  | nil => rwa [List.suffix_nil.1 hl']
  | cons e l ih =>
    rcases List.suffix_cons_iff.1 hl' with rfl | hl'
    · exact hl
    · exact ih hl.tail hl'

theorem Bracketed.scopes_lt (hl : Bracketed l) (hh : h ∈ scopes l) : h < made l := by
  induction l with
  | nil => cases hh
  | cons e l ih =>
    cases e with
    | make => exact Nat.lt_succ_of_lt (ih hl hh)
    | enter k =>
      rcases List.mem_cons.1 hh with rfl | hh
      · exact hl.1
      · exact ih hl.2 hh
    | exit k => exact ih hl.2.2 (List.mem_of_mem_erase hh)

theorem waiting_lt (hh : h ∈ waiting l) : h < made l := by
  induction l with
  | nil => cases hh
  | cons e l ih =>
    cases e with
    | make =>
      rcases List.mem_cons.1 hh with rfl | hh
      · exact Nat.lt_succ_self _
      · exact Nat.lt_succ_of_lt (ih hh)
    | enter k => exact ih (List.mem_filter.1 hh).1
    | exit k => exact ih hh

theorem Bracketed.active_lt (hl : Bracketed l) (hh : Active l h) : h < made l :=
  hh.elim hl.scopes_lt waiting_lt

/-- Who has a scope has been entered. -/
theorem Bracketed.not_waiting (hl : Bracketed l) (hh : h ∈ scopes l) : h ∉ waiting l := by
  induction l with
  | nil => cases hh
  | cons e l ih =>
    cases e with
    | make =>
      intro hw
      rcases List.mem_cons.1 hw with rfl | hw
      · exact absurd (Bracketed.scopes_lt (l := l) hl hh) (Nat.lt_irrefl _)
      · exact ih hl hh hw
    | enter k =>
      intro hw
      obtain ⟨hw, hne⟩ := List.mem_filter.1 hw
      rcases List.mem_cons.1 hh with rfl | hh
      · simp at hne
      · exact ih hl.2 hh hw
    | exit k => exact ih hl.2.2 (List.mem_of_mem_erase hh)

/-! ### What an event does to the active handles -/

theorem Activates.active (ha : Activates l e h) : Active (e :: l) k ↔ k = h ∨ Active l k := by
  cases ha with
  | make =>
    simp only [Active, scopes, waiting, List.mem_cons]
    tauto
  | enter =>
    simp only [Active, scopes, waiting, List.mem_cons, List.mem_filter, decide_eq_true_eq]
    tauto

/-- Only the exit from the outermost scope ends anything. -/
theorem active_exit_of_not_last (hlast : ¬ Last l h) : Active (.exit h :: l) k ↔ Active l k := by
  have hscopes : k ∈ (scopes l).erase h ↔ k ∈ scopes l := by
    by_cases hk : k = h
    · subst hk
      exact ⟨List.mem_of_mem_erase, fun hmem => by_contra fun hnot => hlast ⟨hmem, hnot⟩⟩
    · exact List.mem_erase_of_ne hk
  simp only [Active, scopes, waiting, hscopes]

theorem Bracketed.active_exit_last (hl : Bracketed l) (hlast : Last l h) :
    Active (.exit h :: l) k ↔ k ≠ h ∧ Active l k := by
  by_cases hk : k = h
  · subst hk
    simp [Active, scopes, waiting, hlast.2, hl.not_waiting hlast.1]
  · simp only [Active, scopes, waiting, List.mem_erase_of_ne hk, ne_eq, hk, not_false_eq_true,
      true_and]

/-- Scopes are exited in reverse entry order. -/
theorem Bracketed.exit (hl : Bracketed (.exit h :: l)) (hh : h ∈ scopes l) :
    scopes l = h :: scopes (.exit h :: l) := by
  obtain ⟨rest, hrest⟩ := List.head?_eq_some_iff.1 (hl.2.1 hh)
  rw [scopes, hrest, List.erase_cons_head]

/-! ### The keeper -/

theorem Activates.keeper (ha : Activates l e h) (hl : Bracketed l) : Nesting.keeper (e :: l) =
    if Nesting.keeper l = none ∧ ¬ Active l h then some h else Nesting.keeper l := by
  cases ha with
  | make =>
    have hfresh : ¬ Active l (made l) := fun hactive => Nat.lt_irrefl _ (hl.active_lt hactive)
    cases hk : Nesting.keeper l <;> simp [Nesting.keeper, hk, hfresh]
  | enter => rfl

theorem Bracketed.keeper_active (hl : Bracketed l) (hg : keeper l = some g) : Active l g := by
  induction l generalizing g with
  | nil => cases hg
  | cons e l ih =>
    have hactivated : ∀ {h}, Activates l e h → Active (e :: l) g := by
      intro h ha
      rw [ha.active]
      rw [ha.keeper hl.tail] at hg
      split at hg
      · exact .inl (Option.some.inj hg).symm
      · exact .inr (ih hl.tail hg)
    cases e with
    | make => exact hactivated .make
    | enter h => exact hactivated (.enter h)
    | exit h =>
      rw [keeper] at hg
      split at hg
      · cases hg
      · next hnot =>
        by_cases hlast : Last l h
        · refine (hl.tail.active_exit_last hlast).2 ⟨?_, ih hl.tail hg⟩
          rintro rfl
          exact hnot ⟨hg, hlast⟩
        · exact (active_exit_of_not_last hlast).2 (ih hl.tail hg)

/-- There is one as long as the history is timely and a scope is open, and its own
outermost scope is the outermost of all. -/
theorem Timely.bottom (hl : Bracketed l) (ht : Timely l) (hopen : scopes l ≠ []) :
    ∃ g, keeper l = some g ∧ (g ∈ scopes l → (scopes l).getLast? = some g) := by
  induction l with
  | nil => exact absurd rfl hopen
  | cons e l ih =>
    cases e with
    | make =>
      obtain ⟨g, hg, hbottom⟩ := ih hl ht hopen
      exact ⟨g, by simp [keeper, hg], hbottom⟩
    | enter h =>
      by_cases hnone : scopes l = []
      · -- The first scope after a while: the handle is the keeper, if there is none yet.
        have hlast : (scopes (.enter h :: l)).getLast? = some h := by simp [scopes, hnone]
        cases hk : keeper l with
        | none =>
          have hactive : ¬ Active l h := by
            rintro (hh | hh)
            · rw [hnone] at hh
              cases hh
            · exact (ht.1 hh).1 hk
          exact ⟨h, by simp [keeper, hk, hactive], fun _ => hlast⟩
        | some g =>
          refine ⟨g, by simp [keeper, hk], fun hg => ?_⟩
          have hgh : g = h := by simpa [scopes, hnone] using hg
          rw [hlast, hgh]
      · obtain ⟨g, hg, hbottom⟩ := ih hl.2 ht.2 hnone
        refine ⟨g, by simp [keeper, hg], fun hmem => ?_⟩
        rw [scopes, List.getLast?_cons_of_ne_nil hnone]
        apply hbottom
        rcases List.mem_cons.1 hmem with rfl | hmem
        · -- A keeper that is entered while a scope is open has been entered before.
          rcases hl.2.keeper_active hg with hmem | hwaiting
          · exact hmem
          · exact absurd ((ht.1 hwaiting).2 hg) hnone
        · exact hmem
    | exit h =>
      by_cases hmem : h ∈ scopes l
      · have hscopes := hl.exit hmem
        obtain ⟨g, hg, hbottom⟩ := ih hl.tail ht (by rw [hscopes]; exact List.cons_ne_nil _ _)
        rw [hscopes, List.getLast?_cons_of_ne_nil hopen] at hbottom
        refine ⟨g, ?_, fun hmem => hbottom (List.mem_cons_of_mem _ hmem)⟩
        have hnot : ¬ (keeper l = some h ∧ Last l h) := by
          rintro ⟨hh, hlast⟩
          obtain rfl : g = h := Option.some.inj (hg.symm.trans hh)
          exact hlast.2 (List.mem_of_getLast? (hbottom (List.mem_cons_self ..)))
        rw [keeper, if_neg hnot, hg]
      · have hscopes : scopes (.exit h :: l) = scopes l := List.erase_of_not_mem hmem
        rw [hscopes] at hopen ⊢
        obtain ⟨g, hg, hbottom⟩ := ih hl.tail ht hopen
        exact ⟨g, by simp [keeper, hg, Last, hmem], hbottom⟩

theorem Timely.tail (ht : Timely (e :: l)) : Timely l := by
  cases e with
  | make => exact ht
  | enter h => exact ht.2
  | exit h => exact ht

theorem Covered.suffix {l' : List Event} (hc : Covered l) (hl' : l' <:+ l) : Covered l' :=
  fun _ hl => hc _ (hl.trans hl')

theorem Covered.tail (hc : Covered (e :: l)) : Covered l := hc.suffix (List.suffix_cons e l)

/-- What holds of a history and of all before it. -/
theorem forall_suffix_cons {P : List Event → Prop} :
    (∀ l', l' <:+ e :: l → P l') ↔ P (e :: l) ∧ ∀ l', l' <:+ l → P l' := by
  simp only [List.suffix_cons_iff, forall_eq_or_imp]

theorem covered_nil : Covered [] := by
  intro l' hl' hopen
  rw [List.suffix_nil.1 hl'] at hopen
  exact absurd rfl hopen

theorem covered_cons :
    Covered (e :: l) ↔ (scopes (e :: l) ≠ [] → keeper (e :: l) ≠ none) ∧ Covered l :=
  forall_suffix_cons

theorem Timely.covered (hl : Bracketed l) (ht : Timely l) : Covered l := by
  induction l with
  | nil => exact covered_nil
  | cons e l ih =>
    refine covered_cons.2 ⟨fun hopen hnone => ?_, ih hl.tail ht.tail⟩
    obtain ⟨g, hg, _⟩ := ht.bottom hl hopen
    exact nomatch hnone.symm.trans hg

/-- The keeper has a scope, but not the outermost one: it is going to leave others behind. -/
def Leaving (l : List Event) : Prop :=
  ∃ g, keeper l = some g ∧ g ∈ scopes l ∧ (scopes l).getLast? ≠ some g

/-- Once it is so, it stays so as long as a scope is open. -/
theorem Leaving.cons (hl : Bracketed (e :: l)) (h : Leaving l)
    (hcovered : scopes (e :: l) ≠ [] → keeper (e :: l) ≠ none) : Leaving (e :: l) := by
  obtain ⟨g, hg, hmem, hlast⟩ := h
  have hopen : scopes l ≠ [] := List.ne_nil_of_mem hmem
  cases e with
  | make => exact ⟨g, by simp [keeper, hg], hmem, hlast⟩
  | enter h =>
    refine ⟨g, by simp [keeper, hg], List.mem_cons_of_mem _ hmem, ?_⟩
    rwa [scopes, List.getLast?_cons_of_ne_nil hopen]
  | exit h =>
    by_cases hh : h ∈ scopes l
    · have hscopes := hl.exit hh
      have hrest : scopes (.exit h :: l) ≠ [] := by
        intro hnil
        rw [hnil] at hscopes
        rw [hscopes] at hmem hlast
        exact hlast (congrArg some (List.mem_singleton.1 hmem).symm)
      have hnot : ¬ (keeper l = some h ∧ Last l h) := by
        intro hleave
        exact hcovered hrest (by rw [keeper, if_pos hleave])
      refine ⟨g, by rw [keeper, if_neg hnot, hg], ?_, ?_⟩
      · by_contra hgone
        obtain rfl : g = h := by simpa [hscopes, hgone] using hmem
        exact hnot ⟨hg, hh, hgone⟩
      · rwa [hscopes, List.getLast?_cons_of_ne_nil hrest] at hlast
    · have hscopes : scopes (.exit h :: l) = scopes l := List.erase_of_not_mem hh
      exact ⟨g, by simp [keeper, hg, Last, hh], by rwa [hscopes], by rwa [hscopes]⟩

theorem Covered.timely_or_leaving (hl : Bracketed l) (hc : Covered l) :
    Timely l ∨ Leaving l := by
  induction l with
  | nil => exact .inl trivial
  | cons e l ih =>
    obtain ⟨hcovered, hc⟩ := covered_cons.1 hc
    rcases ih hl.tail hc with ht | hleaving
    · cases e with
      | make => exact .inl ht
      | exit h => exact .inl ht
      | enter h =>
        refine or_iff_not_imp_right.2 fun hstay => ⟨fun hwaiting => ?_, ht⟩
        have hkeeper : keeper (.enter h :: l) = keeper l := by simp [keeper, Active, hwaiting]
        have hsome := hcovered (List.cons_ne_nil _ _)
        rw [hkeeper] at hsome
        refine ⟨hsome, fun hh => by_contra fun hopen => hstay ?_⟩
        refine ⟨h, hkeeper.trans hh, List.mem_cons_self .., fun hlast => ?_⟩
        rw [scopes, List.getLast?_cons_of_ne_nil hopen] at hlast
        exact hl.2.not_waiting (List.mem_of_getLast? hlast) hwaiting
    · exact .inr (hleaving.cons hl hcovered)

/-- **A keeper stays as long as some scope is open if and only if first entries are
timely.** -/
theorem timely_iff_covered (hl : Bracketed l) (hend : Settled l) : Timely l ↔ Covered l := by
  refine ⟨fun ht => ht.covered hl, fun hc => ?_⟩
  refine (hc.timely_or_leaving hl).resolve_right ?_
  rintro ⟨g, _, hmem, _⟩
  rw [hend.1] at hmem
  cases hmem

/-- At the end no handle is active. -/
theorem Settled.keeper (hl : Bracketed l) (hend : Settled l) : Nesting.keeper l = none := by
  rw [Option.eq_none_iff_forall_ne_some]
  intro g hg
  rcases hl.keeper_active hg with hmem | hmem
  · rw [hend.1] at hmem
    cases hmem
  · rw [hend.2] at hmem
    cases hmem

end Nesting
end SwitchyardGateway
