/-
# A list with others between

`Interspersed extra xs ys`: `ys` is `xs`, in its order, with items for which `extra`
holds at any places between, before and behind.
-/

import Mathlib.Data.List.Perm.Basic
import Mathlib.Tactic.Common

namespace SwitchyardGateway
namespace Matching

variable {α β : Type} {extra : α → Prop} {xs ys zs : List α}

/-- `ys` is `xs` with other items put in. -/
inductive Interspersed (extra : α → Prop) : List α → List α → Prop where
  | nil : Interspersed extra [] []
  | kept {x : α} {xs ys : List α} : Interspersed extra xs ys → Interspersed extra (x :: xs) (x :: ys)
  | added {y : α} {xs ys : List α} : extra y → Interspersed extra xs ys → Interspersed extra xs (y :: ys)

namespace Interspersed

theorem refl (xs : List α) : Interspersed extra xs xs := by
  induction xs with
  | nil => exact .nil
  | cons x xs ih => exact .kept ih

/-- Others may come first. -/
theorem after (h : Interspersed extra xs ys) (hzs : ∀ z ∈ zs, extra z) : Interspersed extra xs (zs ++ ys) := by
  induction zs with
  | nil => exact h
  | cons z zs ih =>
    obtain ⟨hz, hzs⟩ := List.forall_mem_cons.1 hzs
    exact .added hz (ih hzs)

theorem sublist (h : Interspersed extra xs ys) : xs.Sublist ys := by
  induction h with
  | nil => exact .slnil
  | kept _ ih => exact ih.cons_cons _
  | added _ _ ih => exact ih.cons _

end Interspersed

/-- Taking the first item that passes reorders a list. -/
theorem perm_cons_eraseP {p : α → Bool} {l : List α} {a : α} (h : l.find? p = some a) :
    (a :: l.eraseP p).Perm l := by
  obtain ⟨ha, before, after, rfl, hbefore⟩ := List.find?_eq_some_iff_append.1 h
  have hnone : ∀ b ∈ before, ¬p b = true := fun b hb => by simpa using hbefore b hb
  rw [List.eraseP_append_right _ hnone, List.eraseP_cons_of_pos ha]
  exact List.perm_middle.symm

end Matching
end SwitchyardGateway
