/-
# Taking turns

Members of a ring are served in turn.  The order in which they are looked at is a
list: a turn serves one of them, passes over those before it, and puts all of
these at the end, so the next turn looks first at whoever stood behind the one
served.

A member that is `steady` is never passed over.  Each turn that serves somebody
else brings it nearer to the front (`Turn.nearer`), so as many turns as there are
members serve it (`Turns.serves`), whatever happens to the others.  If all are
steady nobody is passed over, and how often each has been served can be read off
the order: those at the front one time less than those at the end
(`Turns.levels`).
-/

import Mathlib.Data.List.Basic
import Mathlib.Data.List.Count
import Mathlib.Data.List.Rotate
import Mathlib.Tactic.Common
import Mathlib.Tactic.Ring

namespace SwitchyardGateway
namespace Scheduling

variable {α : Type} {steady : α → Prop}

/-- One turn, from the order before it to the order after it. -/
inductive Turn (steady : α → Prop) : List α → α → List α → Prop where
  | mk (passed : List α) (x : α) (rest : List α) : (∀ y ∈ passed, ¬ steady y) →
      Turn steady (passed ++ x :: rest) x (rest ++ (passed ++ [x]))

/-- Any number of turns, the served newest first. -/
inductive Turns (steady : α → Prop) (order : List α) : List α → List α → Prop where
  | nil : Turns steady order [] order
  | cons {x : α} {xs mid order' : List α} : Turns steady order xs mid → Turn steady mid x order' →
      Turns steady order (x :: xs) order'

/-- A ring looked at from a position on: the turn that serves the member `d`
places further moves the position behind it. -/
theorem Turn.rotate {ring passed rest : List α} {x : α} {position : ℕ}
    (h : ring.rotate position = passed ++ x :: rest) (hpassed : ∀ y ∈ passed, ¬ steady y) :
    Turn steady (ring.rotate position) x (ring.rotate (position + passed.length + 1)) := by
  have hnext : ring.rotate (position + passed.length + 1) = rest ++ (passed ++ [x]) := by
    have hsplit : passed ++ x :: rest = (passed ++ [x]) ++ rest := by simp
    have hlength : passed.length + 1 = (passed ++ [x]).length := by simp
    rw [Nat.add_assoc, ← List.rotate_rotate, h, hsplit, hlength, List.rotate_append_length_eq]
  rw [hnext, h]
  exact .mk passed x rest hpassed

/-- Nobody joins or leaves. -/
theorem Turn.perm {order order' : List α} {x : α} (h : Turn steady order x order') :
    order'.Perm order := by
  cases h with
  | mk passed _ rest _ =>
    have h : (rest ++ (passed ++ [x])).Perm ((passed ++ [x]) ++ rest) := List.perm_append_comm
    simpa using h

theorem Turns.perm {order order' xs : List α} (h : Turns steady order xs order') :
    order'.Perm order := by
  induction h with
  | nil => exact .refl _
  | cons _ hturn ih => exact hturn.perm.trans ih

/-- **The ranking.**  A turn that serves somebody else brings a steady member
nearer to the front. -/
theorem Turn.nearer {before after order' : List α} {x y : α} (hy : steady y) (hne : x ≠ y)
    (h : Turn steady (before ++ y :: after) x order') :
    ∃ before' after', order' = before' ++ y :: after' ∧ before'.length < before.length := by
  generalize horder : before ++ y :: after = order at h
  cases h with
  | mk passed _ rest hpassed =>
    rcases List.append_eq_append_iff.1 horder with ⟨more, hpassed', hrest⟩ | ⟨more, hbefore, hrest⟩
    · -- `y` would be among the passed, or the one that is served
      cases more with
      | nil => exact absurd (List.cons.inj hrest).1.symm hne
      | cons z more =>
        obtain rfl : y = z := (List.cons.inj hrest).1
        exact absurd hy (hpassed y (by simp [hpassed']))
    · cases more with
      | nil => exact absurd (List.cons.inj hrest).1 hne
      | cons z more =>
        obtain ⟨rfl, rfl⟩ := List.cons.inj hrest
        refine ⟨more, after ++ (passed ++ [x]), by simp, ?_⟩
        rw [hbefore]
        simp
        omega

/-- As long as it is not served, a steady member comes nearer with every turn. -/
theorem Turns.nearer {before after order' xs : List α} {y : α} (hy : steady y)
    (h : Turns steady (before ++ y :: after) xs order') (hxs : y ∉ xs) :
    ∃ before' after', order' = before' ++ y :: after' ∧
      before'.length + xs.length ≤ before.length := by
  induction h with
  | nil => exact ⟨before, after, rfl, by simp⟩
  | cons _ hturn ih =>
    rw [List.mem_cons, not_or] at hxs
    obtain ⟨before₁, after₁, rfl, hle⟩ := ih hxs.2
    obtain ⟨before₂, after₂, horder, hlt⟩ := hturn.nearer hy (Ne.symm hxs.1)
    refine ⟨before₂, after₂, horder, ?_⟩
    rw [List.length_cons]
    omega

/-- **Nobody steady starves**: as many turns as there are members serve it. -/
theorem Turns.serves {order order' xs : List α} {y : α} (h : Turns steady order xs order')
    (hmem : y ∈ order) (hy : steady y) (hlength : order.length ≤ xs.length) : y ∈ xs := by
  by_contra hxs
  obtain ⟨before, after, rfl⟩ := List.append_of_mem hmem
  obtain ⟨before', after', -, hle⟩ := h.nearer hy hxs
  rw [List.length_append, List.length_cons] at hlength
  omega

section Even

variable [BEq α] [LawfulBEq α]

/-- How often each member has been served, read off the order: `k` times at the
front, and `k + 1` times from some place on. -/
structure Levels (xs order : List α) (k : ℕ) (front back : List α) : Prop where
  split : order = front ++ back
  early : ∀ y ∈ front, xs.count y = k
  late : ∀ y ∈ back, xs.count y = k + 1
  total : xs.length = k * order.length + back.length

/-- The first of the front is served. -/
theorem Levels.serve {xs front back : List α} {x : α} {k : ℕ}
    (h : Levels xs (x :: (front ++ back)) k (x :: front) back) (hx : x ∉ front ∧ x ∉ back) :
    Levels (x :: xs) (front ++ (back ++ [x])) k front (back ++ [x]) where
  split := rfl
  early y hy := by
    have hne : x ≠ y := fun heq => hx.1 (heq ▸ hy)
    rw [List.count_cons_of_ne hne]
    exact h.early y (List.mem_cons_of_mem _ hy)
  late y hy := by
    rcases List.mem_append.1 hy with hy | hy
    · have hne : x ≠ y := fun heq => hx.2 (heq ▸ hy)
      rw [List.count_cons_of_ne hne]
      exact h.late y hy
    · obtain rfl := List.mem_singleton.1 hy
      rw [List.count_cons_self, h.early y List.mem_cons_self]
  total := by
    have htotal := h.total
    simp only [List.length_cons, List.length_append, List.length_nil] at htotal ⊢
    rw [htotal]
    ring

/-- **Everybody steady is served evenly.** -/
theorem Turns.levels {order order' xs : List α} (h : Turns steady order xs order')
    (hnodup : order.Nodup) (hsteady : ∀ y ∈ order, steady y) :
    ∃ k front back, Levels xs order' k front back := by
  induction h with
  | nil => exact ⟨0, order, [], by simp, fun y _ => by simp, fun y hy => by simp at hy, by simp⟩
  | @cons x xs mid order' hturns hturn ih =>
    obtain ⟨k, front, back, hlevels⟩ := ih
    have hperm := hturns.perm
    have hnodup' : mid.Nodup := hperm.nodup_iff.2 hnodup
    cases hturn with
    | mk passed _ rest hpassed =>
      -- nobody is passed over
      obtain rfl : passed = [] := by
        refine List.eq_nil_iff_forall_not_mem.2 fun y hy => hpassed y hy (hsteady y ?_)
        exact hperm.subset (List.mem_append_left _ hy)
      obtain ⟨hx, -⟩ := List.nodup_cons.1 hnodup'
      cases front with
      | cons z front =>
        obtain ⟨rfl, hrest⟩ := List.cons.inj hlevels.split
        obtain rfl : rest = front ++ back := hrest
        rw [List.mem_append, not_or] at hx
        refine ⟨k, front, back ++ [x], ?_⟩
        rw [List.append_assoc]
        exact hlevels.serve hx
      | nil =>
        -- everybody has been served as often: a new round begins
        have hback : back = x :: rest := hlevels.split.symm
        subst hback
        refine ⟨k + 1, rest, [x], ?_⟩
        have hround : Levels xs (x :: (rest ++ [])) (k + 1) (x :: rest) [] := by
          refine ⟨by simp, hlevels.late, fun y hy => by simp at hy, ?_⟩
          have htotal := hlevels.total
          simp only [List.nil_append, List.append_nil, List.length_cons, List.length_nil] at htotal ⊢
          rw [htotal]
          ring
        exact hround.serve ⟨hx, List.not_mem_nil⟩

omit [LawfulBEq α] in
/-- No two members are served more than one time apart. -/
theorem Levels.even {xs order front back : List α} {k : ℕ} (h : Levels xs order k front back)
    {y z : α} (hy : y ∈ order) (hz : z ∈ order) : xs.count y ≤ xs.count z + 1 := by
  have hcount : ∀ y ∈ order, xs.count y = k ∨ xs.count y = k + 1 := by
    intro y hy
    rw [h.split, List.mem_append] at hy
    exact hy.imp (h.early y) (h.late y)
  have hy' := hcount y hy
  have hz' := hcount z hz
  omega

omit [LawfulBEq α] in
/-- As many turns as there are members serve each of them once. -/
theorem Levels.once {xs order front back : List α} {k : ℕ} (h : Levels xs order k front back)
    (hlength : xs.length = order.length) {y : α} (hy : y ∈ order) : xs.count y = 1 := by
  have htotal := h.total
  have horder := h.split
  have hsplit : order.length = front.length + back.length := by rw [horder, List.length_append]
  rw [horder, List.mem_append] at hy
  rw [hlength] at htotal
  rcases hy with hy | hy
  · -- `k` rounds and a front that is not empty
    have hpos : 0 < front.length := List.length_pos_of_mem hy
    rw [h.early y hy]
    rcases k with _ | _ | k
    · omega
    · rfl
    · rw [Nat.add_mul, Nat.add_mul] at htotal
      omega
  · have hpos : 0 < back.length := List.length_pos_of_mem hy
    rw [h.late y hy]
    rcases k with _ | k
    · rfl
    · rw [Nat.add_mul] at htotal
      omega

end Even

end Scheduling
end SwitchyardGateway
