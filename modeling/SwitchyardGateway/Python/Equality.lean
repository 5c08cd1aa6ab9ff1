/-
# Python's equality is a partial equivalence

A `dict` has distinct keys, at every depth of a value (`Json.Proper`).  On such
values "identical or equal" is an equivalence, and Python's `==` is symmetric and
transitive.  It is not reflexive: a NaN equals nothing.  A list or a dictionary
equals itself all the same, whatever it holds (`pyEq_self`).  `Value` is the type of
the values Python builds, with `==` as its `BEq`.
-/

import SwitchyardGateway.Python.Json
import Mathlib.Data.List.Nodup
import Mathlib.Data.List.Perm.Subperm

namespace SwitchyardGateway
namespace Python
namespace Json

mutual

/-- Induction on a value: its items and its fields are values inside it. -/
theorem induct {P : Json → Prop} (null : P .null) (bool : ∀ b, P (.bool b)) (int : ∀ n, P (.int n))
    (float : ∀ x, P (.float x)) (str : ∀ s, P (.str s))
    (list : ∀ xs : List Json, (∀ v ∈ xs, P v) → P (.list xs))
    (obj : ∀ fields : List (Str × Json), (∀ p ∈ fields, P p.2) → P (.obj fields)) : ∀ v, P v
  | .null => null
  | .bool b => bool b
  | .int n => int n
  | .float x => float x
  | .str s => str s
  | .list xs => list xs (inductList null bool int float str list obj xs)
  | .obj fields => obj fields (inductFields null bool int float str list obj fields)

theorem inductList {P : Json → Prop} (null : P .null) (bool : ∀ b, P (.bool b)) (int : ∀ n, P (.int n))
    (float : ∀ x, P (.float x)) (str : ∀ s, P (.str s))
    (list : ∀ xs : List Json, (∀ v ∈ xs, P v) → P (.list xs))
    (obj : ∀ fields : List (Str × Json), (∀ p ∈ fields, P p.2) → P (.obj fields)) :
    ∀ xs : List Json, ∀ v ∈ xs, P v
  | [] => nofun
  | v :: vs => List.forall_mem_cons.2 ⟨induct null bool int float str list obj v,
      inductList null bool int float str list obj vs⟩

theorem inductFields {P : Json → Prop} (null : P .null) (bool : ∀ b, P (.bool b)) (int : ∀ n, P (.int n))
    (float : ∀ x, P (.float x)) (str : ∀ s, P (.str s))
    (list : ∀ xs : List Json, (∀ v ∈ xs, P v) → P (.list xs))
    (obj : ∀ fields : List (Str × Json), (∀ p ∈ fields, P p.2) → P (.obj fields)) :
    ∀ fields : List (Str × Json), ∀ p ∈ fields, P p.2
  | [] => nofun
  | (_, v) :: fields => List.forall_mem_cons.2 ⟨induct null bool int float str list obj v,
      inductFields null bool int float str list obj fields⟩

end

/-! ### Distinct keys -/

/-- An object with a key twice. -/
def repeats : Json → Bool
  | .obj fields => !decide (fields.map Prod.fst).Nodup
  | _ => false

/-- The keys of every object in the value are distinct. -/
def Proper (v : Json) : Prop := v.any repeats = false

instance (v : Json) : Decidable v.Proper := inferInstanceAs (Decidable (_ = _))

theorem anyList_eq (p : Json → Bool) (xs : List Json) : anyList p xs = xs.any (·.any p) := by
  induction xs with
  | nil => rfl
  | cons v vs ih => rw [anyList, ih, List.any_cons]

theorem anyFields_eq (p : Json → Bool) (fields : List (Str × Json)) :
    anyFields p fields = fields.any (·.2.any p) := by
  induction fields with
  | nil => rfl
  | cons field fields ih => rw [anyFields, ih, List.any_cons]

theorem proper_list {xs : List Json} : (list xs).Proper ↔ ∀ v ∈ xs, v.Proper := by
  change (false || anyList repeats xs) = false ↔ _
  rw [Bool.false_or, anyList_eq, List.any_eq_false]
  simp [Proper]

theorem proper_obj {fields : List (Str × Json)} :
    (obj fields).Proper ↔ (fields.map Prod.fst).Nodup ∧ ∀ p ∈ fields, p.2.Proper := by
  change (!decide (fields.map Prod.fst).Nodup || anyFields repeats fields) = false ↔ _
  rw [anyFields_eq, Bool.or_eq_false_iff, List.any_eq_false]
  simp [Proper]

/-- With distinct keys, every item is what its key reads. -/
theorem lookup_of_mem {fields : List (Str × Json)} (hnodup : (fields.map Prod.fst).Nodup) {k : Str}
    {v : Json} (hmem : (k, v) ∈ fields) : fields.lookup k = some v := by
  induction fields with
  | nil => cases hmem
  | cons field fields ih =>
    obtain ⟨k', v'⟩ := field
    rw [List.map_cons, List.nodup_cons] at hnodup
    rcases List.mem_cons.1 hmem with heq | hmem
    · obtain ⟨rfl, rfl⟩ := Prod.mk.inj heq
      rw [List.lookup_cons_self]
    · have hne : (k == k') = false := by
        refine Bool.eq_false_iff.2 fun heq => hnodup.1 ?_
        rw [← eq_of_beq heq]
        exact List.mem_map.2 ⟨_, hmem, rfl⟩
      rw [List.lookup_cons, hne]
      exact ih hnodup.2 hmem

/-! ### Equality of lists and of objects -/

variable {leaf : Json → Json → Bool}

theorem eqByList_iff {xs ys : List Json} :
    eqByList leaf xs ys = true ↔ List.Forall₂ (fun v w => v.eqBy leaf w = true) xs ys := by
  induction xs generalizing ys with
  | nil => cases ys <;> simp [eqByList]
  | cons v vs ih =>
    cases ys with
    | nil => simp [eqByList]
    | cons w ws => rw [eqByList, Bool.and_eq_true, ih, List.forall₂_cons]

theorem eqByFields_iff {fields fields' : List (Str × Json)} : eqByFields leaf fields fields' = true ↔
    ∀ p ∈ fields, ∃ w, fields'.lookup p.1 = some w ∧ p.2.eqBy leaf w = true := by
  induction fields with
  | nil => simp [eqByFields]
  | cons field fields ih =>
    obtain ⟨k, v⟩ := field
    rw [eqByFields, Bool.and_eq_true, ih, List.forall_mem_cons]
    refine and_congr_left fun _ => ?_
    cases fields'.lookup k <;> simp

/-- Objects are equal if they are as long as each other and every item of the one
equals what its key reads in the other. -/
theorem eqBy_obj_iff {fields fields' : List (Str × Json)} :
    (obj fields).eqBy leaf (.obj fields') = true ↔ fields.length = fields'.length ∧
      ∀ p ∈ fields, ∃ w, fields'.lookup p.1 = some w ∧ p.2.eqBy leaf w = true := by
  rw [eqBy, Bool.and_eq_true, beq_iff_eq, eqByFields_iff]

/-- Equal objects have the same keys. -/
theorem keys_subset {fields fields' : List (Str × Json)} (hnodup : (fields.map Prod.fst).Nodup)
    (hlength : fields.length = fields'.length)
    (h : ∀ p ∈ fields, ∃ w, fields'.lookup p.1 = some w ∧ p.2.eqBy leaf w = true) :
    ∀ p ∈ fields', ∃ v, (p.1, v) ∈ fields := by
  have hsubset : fields.map Prod.fst ⊆ fields'.map Prod.fst := by
    intro k hk
    obtain ⟨p, hp, rfl⟩ := List.mem_map.1 hk
    obtain ⟨w, hw, -⟩ := h p hp
    exact List.mem_map.2 ⟨_, Dict.mem_of_lookup hw, rfl⟩
  have hperm : (fields.map Prod.fst).Perm (fields'.map Prod.fst) :=
    (hnodup.subperm hsubset).perm_of_length_le (by simp [hlength])
  intro p hp
  obtain ⟨q, hq, heq⟩ := List.mem_map.1 (hperm.mem_iff.2 (List.mem_map.2 ⟨p, hp, rfl⟩))
  rw [← heq]
  exact ⟨q.2, hq⟩

/-- Does a value hold others? -/
def isContainer : Json → Bool
  | .list _ | .obj _ => true
  | _ => false

/-- A comparison of leaves that is an equivalence, and false of containers. -/
structure LeafEquiv (leaf : Json → Json → Bool) : Prop where
  refl : ∀ v : Json, v.isContainer = false → leaf v v = true
  symm : ∀ v w, leaf v w = true → leaf w v = true
  trans : ∀ u v w, leaf u v = true → leaf v w = true → leaf u w = true
  list : ∀ xs v, leaf (.list xs) v = false
  obj : ∀ fields v, leaf (.obj fields) v = false

/-- Equal values are equal leaves, equal lists or equal objects. -/
theorem eqBy_cases {v w : Json} (heq : v.eqBy leaf w = true) : leaf v w = true ∨
    (∃ xs ys, v = .list xs ∧ w = .list ys ∧ List.Forall₂ (fun v w => v.eqBy leaf w = true) xs ys) ∨
    ∃ fields fields', v = .obj fields ∧ w = .obj fields' := by
  cases v with
  | list xs =>
    cases w with
    | list ys => exact .inr (.inl ⟨xs, ys, rfl, rfl, eqByList_iff.1 heq⟩)
    | _ => exact .inl heq
  | obj fields =>
    cases w with
    | obj fields' => exact .inr (.inr ⟨fields, fields', rfl, rfl⟩)
    | _ => exact .inl heq
  | _ => cases w <;> exact .inl heq

theorem eqBy_of_leaf (h : LeafEquiv leaf) {v w : Json} (heq : leaf v w = true) :
    v.eqBy leaf w = true := by
  cases v with
  | list xs => exact Bool.noConfusion ((h.list xs w).symm.trans heq)
  | obj fields => exact Bool.noConfusion ((h.obj fields w).symm.trans heq)
  | _ => cases w <;> exact heq

/-- **Equality is reflexive** on values with distinct keys. -/
theorem eqBy_refl (h : LeafEquiv leaf) (v : Json) (hproper : v.Proper) : v.eqBy leaf v = true := by
  induction v using Json.induct with
  | list xs ih =>
    rw [proper_list] at hproper
    change eqByList leaf xs xs = true
    rw [eqByList_iff, List.forall₂_same]
    exact fun v hv => ih v hv (hproper v hv)
  | obj fields ih =>
    rw [proper_obj] at hproper
    rw [eqBy_obj_iff]
    exact ⟨rfl, fun p hp => ⟨p.2, lookup_of_mem hproper.1 hp, ih p hp (hproper.2 p hp)⟩⟩
  | null | bool | int | float | str => exact eqBy_of_leaf h (h.refl _ rfl)

/-- **Equality is symmetric** on values with distinct keys. -/
theorem eqBy_symm (h : LeafEquiv leaf) (v : Json) : ∀ w : Json, v.Proper → w.Proper →
    v.eqBy leaf w = true → w.eqBy leaf v = true := by
  induction v using Json.induct with
  | list xs ih =>
    intro w hv hw heq
    rcases eqBy_cases heq with hleaf | ⟨xs, ys, hxs, rfl, hall⟩ | ⟨fields, fields', hfields, -⟩
    · exact eqBy_of_leaf h (h.symm _ _ hleaf)
    · obtain rfl := Json.list.inj hxs
      rw [proper_list] at hv hw
      change eqByList leaf ys _ = true
      rw [eqByList_iff]
      clear heq hxs
      induction hall with
      | nil => exact .nil
      | @cons x y xs ys hxy _ ihall =>
        rw [List.forall_mem_cons] at hv hw ih
        exact .cons (ih.1 y hv.1 hw.1 hxy) (ihall ih.2 hv.2 hw.2)
    · cases hfields
  | obj fields ih =>
    intro w hv hw heq
    rcases eqBy_cases heq with hleaf | ⟨xs, ys, hxs, -⟩ | ⟨fields, fields', hfields, rfl⟩
    · exact eqBy_of_leaf h (h.symm _ _ hleaf)
    · cases hxs
    · obtain rfl := Json.obj.inj hfields
      rw [eqBy_obj_iff] at heq ⊢
      rw [proper_obj] at hv hw
      refine ⟨heq.1.symm, fun p hp => ?_⟩
      obtain ⟨v, hmem⟩ := keys_subset hv.1 heq.1 heq.2 p hp
      obtain ⟨w, hlookup, hvw⟩ := heq.2 _ hmem
      rw [lookup_of_mem hw.1 hp] at hlookup
      obtain rfl := Option.some.inj hlookup
      exact ⟨v, lookup_of_mem hv.1 hmem, ih _ hmem _ (hv.2 _ hmem) (hw.2 _ hp) hvw⟩
  | null | bool | int | float | str =>
    intro w _ _ heq
    rcases eqBy_cases heq with hleaf | ⟨xs, ys, hxs, -⟩ | ⟨fields, fields', hfields, -⟩
    · exact eqBy_of_leaf h (h.symm _ _ hleaf)
    · cases hxs
    · cases hfields

/-- **Equality is transitive.** -/
theorem eqBy_trans (h : LeafEquiv leaf) (u : Json) : ∀ v w : Json, u.eqBy leaf v = true →
    v.eqBy leaf w = true → u.eqBy leaf w = true := by
  -- a leaf equals leaves only
  have hleft : ∀ u v w : Json, leaf u v = true → v.eqBy leaf w = true → leaf u w = true := by
    intro u v w huv hvw
    rcases eqBy_cases hvw with hleaf | ⟨xs, ys, rfl, -⟩ | ⟨fields, fields', rfl, -⟩
    · exact h.trans u v w huv hleaf
    · exact Bool.noConfusion ((h.list xs u).symm.trans (h.symm _ _ huv))
    · exact Bool.noConfusion ((h.obj fields u).symm.trans (h.symm _ _ huv))
  induction u using Json.induct with
  | list xs ih =>
    intro v w huv hvw
    rcases eqBy_cases huv with hleaf | ⟨xs, ys, hxs, rfl, hall⟩ | ⟨fields, fields', hfields, -⟩
    · exact eqBy_of_leaf h (hleft _ _ _ hleaf hvw)
    · obtain rfl := Json.list.inj hxs
      rcases eqBy_cases hvw with hleaf | ⟨ys, zs, hys, rfl, hall'⟩ | ⟨fields, fields', hfields, -⟩
      · exact Bool.noConfusion ((h.list ys w).symm.trans hleaf)
      · obtain rfl := Json.list.inj hys
        change eqByList leaf _ zs = true
        rw [eqByList_iff]
        clear huv hvw hxs hys
        induction hall generalizing zs with
        | nil => exact hall'
        | @cons x y xs ys hxy _ ihall =>
          cases hall' with
          | @cons _ z _ zs hyz hrest =>
            rw [List.forall_mem_cons] at ih
            exact .cons (ih.1 y z hxy hyz) (ihall ih.2 _ hrest)
      · cases hfields
    · cases hfields
  | obj fields ih =>
    intro v w huv hvw
    rcases eqBy_cases huv with hleaf | ⟨xs, ys, hxs, -⟩ | ⟨fields, fields', hfields, rfl⟩
    · exact eqBy_of_leaf h (hleft _ _ _ hleaf hvw)
    · cases hxs
    · obtain rfl := Json.obj.inj hfields
      rcases eqBy_cases hvw with hleaf | ⟨xs, ys, hxs, -⟩ | ⟨fields', fields'', hfields', rfl⟩
      · exact Bool.noConfusion ((h.obj fields' w).symm.trans hleaf)
      · cases hxs
      · obtain rfl := Json.obj.inj hfields'
        rw [eqBy_obj_iff] at huv hvw ⊢
        refine ⟨huv.1.trans hvw.1, fun p hp => ?_⟩
        obtain ⟨v, hv, hpv⟩ := huv.2 p hp
        obtain ⟨w, hw, hvw'⟩ := hvw.2 _ (Dict.mem_of_lookup hv)
        exact ⟨w, hw, ih p hp v w hpv hvw'⟩
  | null | bool | int | float | str =>
    intro v w huv hvw
    rcases eqBy_cases huv with hleaf | ⟨xs, ys, hxs, -⟩ | ⟨fields, fields', hfields, -⟩
    · exact eqBy_of_leaf h (hleft _ _ _ hleaf hvw)
    · cases hxs
    · cases hfields

/-! ### Python's equality -/

/-- Leaves are equal as numbers, as `None` or as texts. -/
theorem itemLeaf_iff {v w : Json} : itemLeaf v w = true ↔
    (∃ x, v.number? = some x ∧ w.number? = some x) ∨ v = .null ∧ w = .null ∨
      ∃ s, v = .str s ∧ w = .str s := by
  constructor
  · intro h
    unfold itemLeaf at h
    split at h
    · rename_i x y hx hy
      obtain rfl := eq_of_beq h
      exact .inl ⟨x, hx, hy⟩
    · split at h
      · exact .inr (.inl ⟨rfl, rfl⟩)
      · rename_i s t _ _
        exact .inr (.inr ⟨s, rfl, by rw [eq_of_beq h]⟩)
      · cases h
    · cases h
  · rintro (⟨x, hv, hw⟩ | ⟨rfl, rfl⟩ | ⟨s, rfl, rfl⟩)
    · unfold itemLeaf
      simp only [hv, hw]
      exact beq_self_eq_true x
    · rfl
    · exact beq_self_eq_true s

theorem itemLeaf_equiv : LeafEquiv itemLeaf where
  refl v hv := by
    rw [itemLeaf_iff]
    cases v with
    | null => exact .inr (.inl ⟨rfl, rfl⟩)
    | str s => exact .inr (.inr ⟨s, rfl, rfl⟩)
    | bool | int | float => exact .inl ⟨_, rfl, rfl⟩
    | list | obj => cases hv
  symm v w h := by
    rw [itemLeaf_iff] at h ⊢
    rcases h with ⟨x, hv, hw⟩ | ⟨hv, hw⟩ | ⟨s, hv, hw⟩
    · exact .inl ⟨x, hw, hv⟩
    · exact .inr (.inl ⟨hw, hv⟩)
    · exact .inr (.inr ⟨s, hw, hv⟩)
  trans u v w huv hvw := by
    rw [itemLeaf_iff] at huv hvw ⊢
    rcases huv with ⟨x, hu, hv⟩ | ⟨rfl, rfl⟩ | ⟨s, rfl, rfl⟩
    · rcases hvw with ⟨y, hv', hw⟩ | ⟨rfl, -⟩ | ⟨s, rfl, -⟩
      · obtain rfl := Option.some.inj (hv.symm.trans hv')
        exact .inl ⟨x, hu, hw⟩
      · cases hv
      · cases hv
    · rcases hvw with ⟨y, hv', -⟩ | h | ⟨s, hs, -⟩
      · cases hv'
      · exact .inr (.inl h)
      · cases hs
    · rcases hvw with ⟨y, hv', -⟩ | ⟨hs, -⟩ | ⟨t, ht, hw⟩
      · cases hv'
      · cases hs
      · obtain rfl := Json.str.inj ht
        exact .inr (.inr ⟨s, rfl, hw⟩)
  list xs v := by cases v <;> rfl
  obj fields v := by cases v <;> rfl

/-- What a NaN is identical to is that NaN. -/
theorem isNan_congr {v w : Json} (h : v.itemEq w = true) : v.isNan = w.isNan := by
  rcases eqBy_cases h with hleaf | ⟨xs, ys, rfl, rfl, -⟩ | ⟨fields, fields', rfl, rfl⟩
  · rcases itemLeaf_iff.1 hleaf with ⟨x, hv, hw⟩ | ⟨rfl, rfl⟩ | ⟨s, rfl, rfl⟩
    · have hnumber : ∀ {u : Json}, u.number? = some x → u.isNan = (Json.float x).isNan := by
        intro u hu
        cases u with
        | bool | int | float =>
          obtain rfl := Option.some.inj hu
          rfl
        | _ => cases hu
      rw [hnumber hv, hnumber hw]
    · rfl
    · rfl
  · rfl
  · rfl

theorem itemEq_symm {v w : Json} (hv : v.Proper) (hw : w.Proper) (h : v.itemEq w = true) : w.itemEq v = true :=
  eqBy_symm itemLeaf_equiv v w hv hw h

theorem pyEq_iff {v w : Json} : v.pyEq w = true ↔ v.isNan = false ∧ v.itemEq w = true := by
  rw [pyEq, Bool.and_eq_true, Bool.not_eq_true']

/-- Whatever it holds, a value that is no NaN equals itself. -/
theorem pyEq_self {v : Json} (hproper : v.Proper) (hnan : v.isNan = false) : v.pyEq v = true :=
  pyEq_iff.2 ⟨hnan, eqBy_refl itemLeaf_equiv v hproper⟩

theorem pyEq_symm {v w : Json} (hv : v.Proper) (hw : w.Proper) (h : v.pyEq w = true) : w.pyEq v = true := by
  obtain ⟨hnan, heq⟩ := pyEq_iff.1 h
  exact pyEq_iff.2 ⟨(isNan_congr heq).symm.trans hnan, itemEq_symm hv hw heq⟩

theorem pyEq_trans {u v w : Json} (huv : u.pyEq v = true) (hvw : v.pyEq w = true) : u.pyEq w = true :=
  pyEq_iff.2 ⟨(pyEq_iff.1 huv).1, eqBy_trans itemLeaf_equiv u v w (pyEq_iff.1 huv).2 (pyEq_iff.1 hvw).2⟩

/-- Equal objects read equal values, or nothing, at a key. -/
theorem lookup_of_itemEq {fields fields' : List (Str × Json)} (hproper : (obj fields).Proper)
    (h : (obj fields).itemEq (.obj fields') = true) (k : Str) :
    fields.lookup k = none ∧ fields'.lookup k = none ∨
      ∃ v w, fields.lookup k = some v ∧ fields'.lookup k = some w ∧ v.itemEq w = true := by
  rw [itemEq, eqBy_obj_iff] at h
  rw [proper_obj] at hproper
  cases hlookup : fields.lookup k with
  | some v =>
    obtain ⟨w, hw, heq⟩ := h.2 _ (Dict.mem_of_lookup hlookup)
    exact .inr ⟨v, w, rfl, hw, heq⟩
  | none =>
    refine .inl ⟨rfl, ?_⟩
    cases hlookup' : fields'.lookup k with
    | none => rfl
    | some w =>
      obtain ⟨v, hv⟩ := keys_subset hproper.1 h.1 h.2 _ (Dict.mem_of_lookup hlookup')
      rw [lookup_of_mem hproper.1 hv] at hlookup
      cases hlookup

theorem Proper.of_lookup {fields : List (Str × Json)} (h : (obj fields).Proper) {k : Str} {v : Json}
    (hlookup : fields.lookup k = some v) : v.Proper :=
  (proper_obj.1 h).2 _ (Dict.mem_of_lookup hlookup)

theorem str_itemEq_iff {s : Str} {v : Json} : (str s).itemEq v = true ↔ v = .str s := by
  cases v with
  | str t =>
    simp only [itemEq, eqBy, itemLeaf, number?, beq_iff_eq, Json.str.injEq]
    exact eq_comm
  | _ => simp [itemEq, eqBy, itemLeaf, number?]

/-- What equals an object is an object. -/
theorem obj_of_itemEq {fields : List (Str × Json)} {v : Json} (h : (obj fields).itemEq v = true) :
    ∃ fields', v = .obj fields' := by
  rcases eqBy_cases h with hleaf | ⟨xs, ys, hs, -⟩ | ⟨_, fields', -, rfl⟩
  · exact Bool.noConfusion ((itemLeaf_equiv.obj fields v).symm.trans hleaf)
  · cases hs
  · exact ⟨fields', rfl⟩

/-- What equals a list is a list, of equal items. -/
theorem list_of_itemEq {xs : List Json} {v : Json} (h : (list xs).itemEq v = true) :
    ∃ ys, v = .list ys ∧ List.Forall₂ (fun v w => v.itemEq w = true) xs ys := by
  rcases eqBy_cases h with hleaf | ⟨_, ys, hs, rfl, hall⟩ | ⟨fields, _, hs, -⟩
  · exact Bool.noConfusion ((itemLeaf_equiv.list xs v).symm.trans hleaf)
  · obtain rfl := Json.list.inj hs
    exact ⟨ys, rfl, hall⟩
  · cases hs

end Json

/-- The values Python builds: their objects have distinct keys. -/
abbrev Value := {v : Json // v.Proper}

/-- Python's `==`. -/
instance : BEq Value := ⟨fun v w => v.1.pyEq w.1⟩

instance : PartialEquivBEq Value where
  symm {v w} h := Json.pyEq_symm v.2 w.2 h
  trans huv hvw := Json.pyEq_trans huv hvw

theorem itemEq_of_beq {v w : Value} (h : (v == w) = true) : v.1.itemEq w.1 = true := (Json.pyEq_iff.1 h).2

end Python
end SwitchyardGateway
