/-
# Insertion-ordered dictionaries

A Python `dict` as the list of its items in insertion order.  A key is read
with `List.lookup`; `Dict.set` is `d[k] = v`, which keeps the place of a key
that is already there, and `Dict.merge` is `d | e`, which keeps the places of
`d`'s keys, takes `e`'s values and appends `e`'s other items.
-/

import Mathlib.Data.List.Basic
import Mathlib.Tactic.Common

namespace SwitchyardGateway
namespace Python

/-- The items of a dictionary, in insertion order. -/
abbrev Dict (κ ν : Type) := List (κ × ν)

namespace Dict

variable {κ ν : Type}

/-- `d[k] = v`. -/
def set [DecidableEq κ] : Dict κ ν → κ → ν → Dict κ ν
  | [], k, v => [(k, v)]
  | (k', v') :: d, k, v => if k' = k then (k', v) :: d else (k', v') :: set d k v

/-- `d | e`. -/
def merge [BEq κ] (d e : Dict κ ν) : Dict κ ν :=
  d.map (fun p => (p.1, (e.lookup p.1).getD p.2)) ++ e.filter fun p => (d.lookup p.1).isNone

variable [BEq κ] [LawfulBEq κ]

/-- The key just written reads back. -/
@[simp] theorem lookup_set_self [DecidableEq κ] (d : Dict κ ν) (k : κ) (v : ν) : (set d k v).lookup k = some v := by
  induction d with
  | nil => simp [set]
  | cons p d ih =>
    obtain ⟨k', v'⟩ := p
    by_cases h : k' = k
    · simp [set, h]
    · have hk : (k == k') = false := by simpa using Ne.symm h
      simp [set, h, List.lookup_cons, hk, ih]

/-- Every other key reads as before. -/
theorem lookup_set_ne [DecidableEq κ] {k k' : κ} (h : k' ≠ k) (d : Dict κ ν) (v : ν) :
    (set d k v).lookup k' = d.lookup k' := by
  induction d with
  | nil => simp [set, h]
  | cons p d ih =>
    obtain ⟨k₁, v₁⟩ := p
    by_cases h₁ : k₁ = k
    · have hk : (k' == k₁) = false := by simpa [h₁] using h
      simp [set, h₁, List.lookup_cons, h₁ ▸ hk]
    · simp [set, h₁, List.lookup_cons, ih]

/-- Dropping items at other keys does not change what a key reads. -/
theorem lookup_filter_of_pos (p : κ → Bool) {k : κ} (hp : p k = true) (e : Dict κ ν) :
    (e.filter fun x => p x.1).lookup k = e.lookup k := by
  induction e with
  | nil => rfl
  | cons x e ih =>
    obtain ⟨k', v'⟩ := x
    by_cases h : k = k'
    · subst h
      simp [hp]
    · have hk : (k == k') = false := by simpa using h
      by_cases hn : p k' <;> simp [hn, List.lookup_cons, hk, ih]

/-- Rewriting values key by key rewrites what a key reads. -/
theorem lookup_map_item {ν' : Type} (f : κ → ν → ν') (d : Dict κ ν) (k : κ) :
    (d.map fun x => (x.1, f x.1 x.2)).lookup k = (d.lookup k).map (f k) := by
  induction d with
  | nil => rfl
  | cons x d ih =>
    obtain ⟨k', v'⟩ := x
    by_cases h : k = k'
    · subst h
      simp
    · have hk : (k == k') = false := by simpa using h
      simpa [List.lookup_cons, hk] using ih

/-- A key of `d | e` reads from `e` first. -/
theorem lookup_merge (d e : Dict κ ν) (k : κ) :
    (merge d e).lookup k = (e.lookup k).or (d.lookup k) := by
  rw [merge, List.lookup_append, lookup_map_item fun k' v => (e.lookup k').getD v]
  cases hd : d.lookup k with
  | none =>
    rw [lookup_filter_of_pos (fun k' => (d.lookup k').isNone) (by simp [hd])]
    simp
  | some v => cases e.lookup k <;> simp

/-- A key that reads back is that of an item. -/
theorem mem_of_lookup {d : Dict κ ν} {k : κ} {v : ν} (h : d.lookup k = some v) : (k, v) ∈ d := by
  obtain ⟨l₁, l₂, rfl, _⟩ := List.lookup_eq_some_iff.1 h
  simp

end Dict
end Python
end SwitchyardGateway
