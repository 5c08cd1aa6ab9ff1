/-
# Cutting a stream at a terminator

A stream of symbols arrives in pieces and is cut wherever a terminator occurs.
A reader that keeps what it has not cut yet, and looks again whenever a piece
arrives, should find exactly the parts a reader of the whole stream finds.  It
does so for every terminator that is decided by the symbols it covers and that
no other match can hide behind: if a match at some position is still
incomplete, nothing in the symbols seen of it may match by itself
(`Terminator.unfinished`).  The field is what a leftmost search needs, because
the later match would be cut first and the earlier one lost.

`Terminator.ofWords` makes a terminator of a finite set of words that a decidable
check admits.  `Terminator.split` is the cutting of a whole stream and
`split_append` says what one more piece adds to it.
-/

import Mathlib.Data.List.Infix
import Mathlib.Tactic.Common

namespace SwitchyardGateway
namespace Wire

/-- A pattern that ends a part of a stream. -/
structure Terminator (α : Type) where
  /-- The length of the match at the head of the input, if there is one. -/
  matchAt : List α → Option ℕ
  pos : ∀ {xs : List α} {n : ℕ}, matchAt xs = some n → 0 < n
  le : ∀ {xs : List α} {n : ℕ}, matchAt xs = some n → n ≤ xs.length
  append : ∀ {xs : List α} {n : ℕ} (ys : List α), matchAt xs = some n →
    matchAt (xs ++ ys) = some n
  covered : ∀ {xs ys : List α} {n : ℕ}, matchAt (xs ++ ys) = some n → n ≤ xs.length →
    matchAt xs = some n
  unfinished : ∀ {xs ys zs : List α}, matchAt xs = none → (matchAt (xs ++ ys)).isSome →
    zs <:+ xs → matchAt zs = none

namespace Terminator

variable {α : Type} (t : Terminator α)

/-- The leftmost match: what stands before it and what stands after it. -/
def search : List α → Option (List α × List α)
  | [] => none
  | x :: xs =>
    match t.matchAt (x :: xs) with
    | some n => some ([], (x :: xs).drop n)
    | none => (search xs).map fun p => (x :: p.1, p.2)

/-- Cut at most `fuel` times: the parts, and what is left. -/
def splitWith : ℕ → List α → List (List α) × List α
  | 0, xs => ([], xs)
  | fuel + 1, xs =>
    match t.search xs with
    | none => ([], xs)
    | some (part, rest) => (part :: (splitWith fuel rest).1, (splitWith fuel rest).2)

/-- Cut wherever the terminator occurs: the parts, and what is left. -/
def split (xs : List α) : List (List α) × List α := t.splitWith xs.length xs

/-! ### Words -/

section Words

variable [DecidableEq α]

/-- A set of words fit to terminate: none is empty, none begins another, and no
part of an incomplete one holds another. -/
def Fit (words : List (List α)) : Prop :=
  (∀ w ∈ words, w ≠ []) ∧ (∀ w ∈ words, ∀ w' ∈ words, w <+: w' → w = w') ∧
    ∀ w ∈ words, ∀ p ∈ w.inits, p ≠ w → ∀ z ∈ p.tails, ∀ w' ∈ words, ¬w' <+: z

instance (words : List (List α)) : Decidable (Fit words) := by
  unfold Fit
  infer_instance

/-- The length of the word at the head of the input, if there is one. -/
def wordAt (words : List (List α)) (xs : List α) : Option ℕ :=
  (words.find? (·.isPrefixOf xs)).map List.length

theorem wordAt_eq_some {words : List (List α)} (hfit : Fit words) {xs : List α} {n : ℕ} :
    wordAt words xs = some n ↔ ∃ w ∈ words, w <+: xs ∧ w.length = n := by
  constructor
  · intro h
    obtain ⟨w, hw, hn⟩ := Option.map_eq_some_iff.1 h
    have hbegin := List.find?_some hw
    exact ⟨w, List.mem_of_find?_eq_some hw, List.isPrefixOf_iff_prefix.1 hbegin, hn⟩
  · rintro ⟨w, hw, hbegin, rfl⟩
    cases hfind : words.find? (·.isPrefixOf xs) with
    | none =>
      rw [List.find?_eq_none] at hfind
      exact absurd (List.isPrefixOf_iff_prefix.2 hbegin) (hfind w hw)
    | some w' =>
      have hw' := List.mem_of_find?_eq_some hfind
      have hfound := List.find?_some hfind
      have hbegin' : w' <+: xs := List.isPrefixOf_iff_prefix.1 hfound
      have heq : w' = w := by
        rcases List.prefix_or_prefix_of_prefix hbegin' hbegin with h | h
        · exact hfit.2.1 w' hw' w hw h
        · exact (hfit.2.1 w hw w' hw' h).symm
      rw [wordAt, hfind, heq]
      rfl

theorem wordAt_eq_none {words : List (List α)} {xs : List α} :
    wordAt words xs = none ↔ ∀ w ∈ words, ¬w <+: xs := by
  simp [wordAt, List.find?_eq_none]

/-- A finite set of words as a terminator. -/
def ofWords (words : List (List α)) (hfit : Fit words) : Terminator α where
  matchAt := wordAt words
  pos h := by
    obtain ⟨w, hw, -, rfl⟩ := (wordAt_eq_some hfit).1 h
    exact List.length_pos_of_ne_nil (hfit.1 w hw)
  le h := by
    obtain ⟨w, -, hbegin, rfl⟩ := (wordAt_eq_some hfit).1 h
    exact hbegin.length_le
  append ys h := by
    obtain ⟨w, hw, hbegin, rfl⟩ := (wordAt_eq_some hfit).1 h
    exact (wordAt_eq_some hfit).2 ⟨w, hw, hbegin.trans (List.prefix_append ..), rfl⟩
  covered {xs ys n} h hn := by
    obtain ⟨w, hw, hbegin, rfl⟩ := (wordAt_eq_some hfit).1 h
    have hxs := List.prefix_of_prefix_length_le hbegin (List.prefix_append xs ys) hn
    exact (wordAt_eq_some hfit).2 ⟨w, hw, hxs, rfl⟩
  unfinished {xs ys zs} h hys hzs := by
    obtain ⟨n, hn⟩ := Option.isSome_iff_exists.1 hys
    obtain ⟨w, hw, hbegin, -⟩ := (wordAt_eq_some hfit).1 hn
    have hnot := wordAt_eq_none.1 h w hw
    -- what was seen is a proper part of the word
    have hseen : xs <+: w := by
      rcases List.prefix_or_prefix_of_prefix hbegin (List.prefix_append xs ys) with h | h
      · exact absurd h hnot
      · exact h
    have hne : xs ≠ w := by
      rintro rfl
      exact hnot List.prefix_rfl
    exact wordAt_eq_none.2
      (hfit.2.2 w hw xs ((List.mem_inits ..).2 hseen) hne zs ((List.mem_tails ..).2 hzs))

end Words

/-! ### The search -/

variable {t} {xs ys part rest : List α}

theorem search_cons_some {x : α} {n : ℕ} (h : t.matchAt (x :: xs) = some n) :
    t.search (x :: xs) = some ([], (x :: xs).drop n) := by
  rw [search, h]

theorem search_cons_none {x : α} (h : t.matchAt (x :: xs) = none) :
    t.search (x :: xs) = (t.search xs).map fun p => (x :: p.1, p.2) := by
  rw [search, h]

/-- Nothing is found where nothing matches. -/
theorem search_eq_none (h : ∀ zs, zs <:+ xs → t.matchAt zs = none) : t.search xs = none := by
  induction xs with
  | nil => rfl
  | cons x xs ih =>
    rw [search_cons_none (h _ List.suffix_rfl), ih fun zs hzs => h zs (hzs.trans (List.suffix_cons ..))]
    rfl

/-- **A match**: a part, a terminator, and the rest. -/
theorem search_eq_some (h : t.search xs = some (part, rest)) :
    ∃ stop, xs = part ++ stop ++ rest ∧ t.matchAt (stop ++ rest) = some stop.length := by
  induction xs generalizing part with
  | nil => cases h
  | cons x xs ih =>
    cases hm : t.matchAt (x :: xs) with
    | some n =>
      rw [search_cons_some hm] at h
      obtain ⟨rfl, rfl⟩ := Prod.mk.inj (Option.some.inj h)
      have hn := t.le hm
      refine ⟨(x :: xs).take n, by simp, ?_⟩
      rw [List.take_append_drop, List.length_take, Nat.min_eq_left hn, hm]
    | none =>
      rw [search_cons_none hm, Option.map_eq_some_iff] at h
      obtain ⟨⟨part', rest'⟩, hsearch, heq⟩ := h
      obtain ⟨rfl, rfl⟩ := Prod.mk.inj heq
      obtain ⟨stop, hxs, hstop⟩ := ih hsearch
      exact ⟨stop, by simp [hxs], hstop⟩

/-- What is left is shorter. -/
theorem search_length_lt (h : t.search xs = some (part, rest)) : rest.length < xs.length := by
  obtain ⟨stop, rfl, hstop⟩ := search_eq_some h
  have := t.pos hstop
  simp only [List.length_append]
  omega

/-- **A match once found stays the leftmost one**, whatever arrives. -/
theorem search_append (h : t.search xs = some (part, rest)) (ys : List α) :
    t.search (xs ++ ys) = some (part, rest ++ ys) := by
  induction xs generalizing part with
  | nil => cases h
  | cons x xs ih =>
    cases hm : t.matchAt (x :: xs) with
    | some n =>
      rw [search_cons_some hm] at h
      obtain ⟨rfl, rfl⟩ := Prod.mk.inj (Option.some.inj h)
      have hm' : t.matchAt (x :: (xs ++ ys)) = some n := t.append ys hm
      rw [List.cons_append, search_cons_some hm', ← List.cons_append,
        List.drop_append_of_le_length (t.le hm)]
    | none =>
      -- a match that begins here only now would have hidden the one already found
      cases hm' : t.matchAt (x :: (xs ++ ys)) with
      | some n =>
        have hlate : (t.matchAt (x :: xs ++ ys)).isSome := Option.isSome_iff_exists.2 ⟨n, hm'⟩
        have hnone : t.search (x :: xs) = none := search_eq_none fun _ hzs => t.unfinished hm hlate hzs
        rw [hnone] at h
        cases h
      | none =>
        rw [search_cons_none hm, Option.map_eq_some_iff] at h
        obtain ⟨⟨part', rest'⟩, hsearch, heq⟩ := h
        obtain ⟨rfl, rfl⟩ := Prod.mk.inj heq
        rw [List.cons_append, search_cons_none hm', ih hsearch]
        rfl

/-- Symbols that hold no match of their own lie inside the first part and its
terminator. -/
theorem length_lt_of_search_append (hxs : t.search xs = none)
    (h : t.search (xs ++ ys) = some (part, rest)) : xs.length + rest.length < (xs ++ ys).length := by
  induction xs generalizing part with
  | nil =>
    have := search_length_lt h
    simpa using this
  | cons x xs ih =>
    have hm : t.matchAt (x :: xs) = none := by
      cases hm : t.matchAt (x :: xs) with
      | none => rfl
      | some n => rw [search_cons_some hm] at hxs; cases hxs
    rw [search_cons_none hm, Option.map_eq_none_iff] at hxs
    rw [List.cons_append] at h
    cases hm' : t.matchAt (x :: (xs ++ ys)) with
    | some n =>
      rw [search_cons_some hm'] at h
      obtain ⟨rfl, rfl⟩ := Prod.mk.inj (Option.some.inj h)
      have hn := t.le hm'
      have hlong : (x :: xs).length < n := by
        by_contra hle
        have hcovered : t.matchAt (x :: xs) = some n := t.covered hm' (Nat.le_of_not_lt hle)
        rw [hm] at hcovered
        cases hcovered
      simp only [List.length_cons, List.length_append, List.length_drop] at hn hlong ⊢
      omega
    | none =>
      rw [search_cons_none hm', Option.map_eq_some_iff] at h
      obtain ⟨⟨part', rest'⟩, hsearch, heq⟩ := h
      obtain ⟨rfl, rfl⟩ := Prod.mk.inj heq
      have := ih hxs hsearch
      simp only [List.length_cons, List.length_append] at this ⊢
      omega

/-! ### The parts of a stream -/

/-- More fuel than symbols changes nothing. -/
theorem splitWith_of_le {fuel fuel' : ℕ} (h : xs.length ≤ fuel) (h' : xs.length ≤ fuel') :
    t.splitWith fuel xs = t.splitWith fuel' xs := by
  induction fuel generalizing xs fuel' with
  | zero =>
    obtain rfl : xs = [] := List.eq_nil_of_length_eq_zero (Nat.le_zero.1 h)
    cases fuel' <;> rfl
  | succ fuel ih =>
    cases fuel' with
    | zero =>
      obtain rfl : xs = [] := List.eq_nil_of_length_eq_zero (Nat.le_zero.1 h')
      rfl
    | succ fuel' =>
      rw [splitWith, splitWith]
      cases hs : t.search xs with
      | none => rfl
      | some p =>
        obtain ⟨part, rest⟩ := p
        have hlt := search_length_lt hs
        have heq : t.splitWith fuel rest = t.splitWith fuel' rest := ih (by omega) (by omega)
        simp only [heq]

/-- A stream without a terminator is left as it is. -/
theorem split_none (h : t.search xs = none) : t.split xs = ([], xs) := by
  rw [split]
  cases hxs : xs.length with
  | zero => rfl
  | succ n => rw [splitWith, h]

/-- A terminator found: the part before it, and the parts of the rest. -/
theorem split_some (h : t.search xs = some (part, rest)) :
    t.split xs = (part :: (t.split rest).1, (t.split rest).2) := by
  have hlt := search_length_lt h
  obtain ⟨n, hn⟩ : ∃ n, xs.length = n + 1 := ⟨xs.length - 1, by omega⟩
  have heq : t.splitWith n rest = t.splitWith rest.length rest :=
    splitWith_of_le (by omega) (Nat.le_refl _)
  rw [split, hn, splitWith, h, split, ← heq]

/-- Induction along the cuts of a stream. -/
theorem split_induction {motive : List α → Prop}
    (none : ∀ xs, t.search xs = none → motive xs)
    (some : ∀ xs part rest, t.search xs = some (part, rest) → motive rest → motive xs)
    (xs : List α) : motive xs := by
  induction hn : xs.length using Nat.strongRecOn generalizing xs with
  | ind n ih =>
    cases hs : t.search xs with
    | none => exact none xs hs
    | some p => exact some xs p.1 p.2 hs (ih _ (hn ▸ search_length_lt hs) p.2 rfl)

theorem split_rest_length_le (xs : List α) : (t.split xs).2.length ≤ xs.length := by
  induction xs using split_induction (t := t) with
  | none xs h => rw [split_none h]
  | some xs part rest h ih =>
    have hlt := search_length_lt h
    rw [split_some h]
    dsimp only
    omega

/-- What is left holds no terminator. -/
theorem search_split_rest (xs : List α) : t.search (t.split xs).2 = none := by
  induction xs using split_induction (t := t) with
  | none xs h => rw [split_none h, h]
  | some xs part rest h ih => rw [split_some h, ih]

/-- **One more piece** leaves the parts found so far as they are, and adds those
found in what was left together with the piece. -/
theorem split_append (xs ys : List α) :
    t.split (xs ++ ys) = ((t.split xs).1 ++ (t.split ((t.split xs).2 ++ ys)).1,
      (t.split ((t.split xs).2 ++ ys)).2) := by
  induction xs using split_induction (t := t) with
  | none xs h => rw [split_none h]; rfl
  | some xs part rest h ih => rw [split_some (search_append h ys), split_some h, ih]; rfl

end Terminator
end Wire
end SwitchyardGateway
