/-
# First come, first served

Sources wait in a line, each with a key.  Rows are served in turn: a row takes the
first source in line whose key equals it, if there is one (`assign`).  Equality is
a partial equivalence: symmetric and transitive, but a key need not equal itself.

Keys that are equal form a class, and the classes do not interfere.  The `n`-th row
of a class gets the `n`-th source of the class (`assign_getElem?`), so a source's
place is the row at which its turn comes (`Turn`).  Nobody is left in line if and
only if every key equals itself and no class has more sources than rows
(`assign_left_eq_nil`).
-/

import Mathlib.Data.List.Basic
import Mathlib.Tactic.Common

namespace SwitchyardGateway
namespace Matching

variable {α β γ : Type} [BEq α]

/-- Serve the rows: what each is given, and who is left in line. -/
def assign : List (α × β) → List α → List (Option β) × List (α × β)
  | line, [] => ([], line)
  | line, row :: rows =>
    match line.find? (·.1 == row) with
    | none => (none :: (assign line rows).1, (assign line rows).2)
    | some source =>
      (some source.2 :: (assign (line.eraseP (·.1 == row)) rows).1,
        (assign (line.eraseP (·.1 == row)) rows).2)

/-- The sources in line whose key equals a row. -/
def classOf (line : List (α × β)) (row : α) : List β := (line.filter (·.1 == row)).map Prod.snd

@[simp] theorem assign_length (line : List (α × β)) (rows : List α) :
    (assign line rows).1.length = rows.length := by
  induction rows generalizing line with
  | nil => rfl
  | cons row rows ih =>
    rw [assign]
    split
    · rw [List.length_cons, List.length_cons, ih]
    · rw [List.length_cons, List.length_cons, ih]

/-- What is given does not depend on what the sources are. -/
theorem assign_map (f : β → γ) (line : List (α × β)) (rows : List α) :
    assign (line.map fun x => (x.1, f x.2)) rows =
      ((assign line rows).1.map (Option.map f), (assign line rows).2.map fun x => (x.1, f x.2)) := by
  induction rows generalizing line with
  | nil => rfl
  | cons row rows ih =>
    rw [assign, assign, List.find?_map]
    change (match (line.find? (·.1 == row)).map fun x => (x.1, f x.2) with
      | none => _
      | some source => _) = _
    cases line.find? (·.1 == row) with
    | none =>
      change (none :: _, _) = _
      rw [ih]
      rfl
    | some source =>
      change (some (f source.2) :: _, _) = _
      have herase : ((line.map fun x => (x.1, f x.2)).eraseP (·.1 == row)) =
          (line.eraseP (·.1 == row)).map fun x => (x.1, f x.2) := by
        rw [List.eraseP_map]
        rfl
      rw [herase, ih]
      rfl

section

variable [PartialEquivBEq α]

/-- Taking one out of a class leaves the others of the class. -/
theorem classOf_eraseP_of_beq {row row' : α} (h : (row == row') = true) (line : List (α × β)) :
    classOf (line.eraseP (·.1 == row)) row' = (classOf line row').tail := by
  induction line with
  | nil => rfl
  | cons x line ih =>
    have hcongr : (x.1 == row) = (x.1 == row') := BEq.congr_right h
    rw [List.eraseP_cons]
    cases hx : x.1 == row with
    | true =>
      rw [hx] at hcongr
      simp [classOf, ← hcongr]
    | false =>
      rw [hx] at hcongr
      have hrest : classOf (x :: line.eraseP (·.1 == row)) row' = classOf (line.eraseP (·.1 == row)) row' := by
        simp [classOf, ← hcongr]
      rw [cond_false, hrest, ih]
      simp [classOf, ← hcongr]

/-- It leaves the other classes alone. -/
theorem classOf_eraseP_of_not_beq {row row' : α} (h : (row == row') = false) (line : List (α × β)) :
    classOf (line.eraseP (·.1 == row)) row' = classOf line row' := by
  induction line with
  | nil => rfl
  | cons x line ih =>
    rw [List.eraseP_cons]
    cases hx : x.1 == row with
    | true =>
      have hx' : (x.1 == row') = false := by
        rw [BEq.congr_left hx]
        exact h
      simp [classOf, hx']
    | false =>
      rw [cond_false]
      unfold classOf at ih ⊢
      rw [List.filter_cons, List.filter_cons]
      split
      · rw [List.map_cons, List.map_cons, ih]
      · exact ih

theorem classOf_eq_nil {row row' : α} (h : (row == row') = true) {line : List (α × β)}
    (hnone : line.find? (·.1 == row) = none) : classOf line row' = [] := by
  rw [classOf, List.map_eq_nil_iff, List.filter_eq_nil_iff]
  intro x hx hbeq
  exact List.find?_eq_none.1 hnone x hx (BEq.trans hbeq (BEq.symm h))

omit [PartialEquivBEq α] in
theorem classOf_head? (line : List (α × β)) (row : α) :
    (classOf line row)[0]? = (line.find? (·.1 == row)).map Prod.snd := by
  rw [← List.head?_eq_getElem?, classOf, List.head?_map, List.head?_filter]

/-- **The `n`-th row of a class gets the `n`-th source of the class.** -/
theorem assign_getElem? (line : List (α × β)) (rows : List α) (j : ℕ) :
    (assign line rows).1[j]? =
      rows[j]?.map fun row => (classOf line row)[(rows.take j).countP (· == row)]? := by
  induction rows generalizing line j with
  | nil => rfl
  | cons row rows ih =>
    have hhead := classOf_head? line row
    rw [assign]
    cases hfind : line.find? (·.1 == row) with
    | none =>
      rw [hfind] at hhead
      cases j with
      | zero => exact congrArg some hhead.symm
      | succ j =>
        rw [List.getElem?_cons_succ, List.getElem?_cons_succ, List.take_succ_cons, ih]
        refine Option.map_congr fun row' _ => ?_
        rw [List.countP_cons]
        split
        · rename_i hbeq
          rw [classOf_eq_nil hbeq hfind]
          rfl
        · rw [Nat.add_zero]
    | some source =>
      rw [hfind] at hhead
      cases j with
      | zero => exact congrArg some hhead.symm
      | succ j =>
        rw [List.getElem?_cons_succ, List.getElem?_cons_succ, List.take_succ_cons, ih]
        refine Option.map_congr fun row' _ => ?_
        rw [List.countP_cons]
        split
        · rename_i hbeq
          rw [classOf_eraseP_of_beq hbeq, List.getElem?_tail]
        · rename_i hbeq
          rw [Nat.add_zero, classOf_eraseP_of_not_beq (Bool.eq_false_iff.2 hbeq)]

/-- How many sources a class has. -/
def size (line : List (α × β)) (row : α) : ℕ := line.countP (·.1 == row)

omit [PartialEquivBEq α] in
theorem classOf_length (line : List (α × β)) (row : α) : (classOf line row).length = size line row := by
  rw [classOf, List.length_map, ← List.countP_eq_length_filter, size]

/-- **Nobody is left in line** if and only if every key equals itself and no class has
more sources than rows. -/
theorem assign_left_eq_nil (line : List (α × β)) (rows : List α) :
    (assign line rows).2 = [] ↔ (∀ x ∈ line, (x.1 == x.1) = true) ∧
      ∀ row, size line row ≤ rows.countP (· == row) := by
  induction rows generalizing line with
  | nil =>
    constructor
    · intro h
      obtain rfl : line = [] := h
      exact ⟨nofun, fun _ => Nat.le_refl _⟩
    · rintro ⟨hself, hsize⟩
      refine List.eq_nil_iff_forall_not_mem.2 fun x hx => ?_
      have hpos : 0 < size line x.1 := List.countP_pos_iff.2 ⟨x, hx, hself x hx⟩
      have hle := hsize x.1
      rw [List.countP_nil] at hle
      omega
  | cons row rows ih =>
    rw [assign]
    cases hfind : line.find? (·.1 == row) with
    | none =>
      refine (ih line).trans (and_congr_right fun _ => forall_congr' fun row' => ?_)
      rw [List.countP_cons]
      split
      · rename_i hbeq
        have hzero : size line row' = 0 := by
          rw [← classOf_length, classOf_eq_nil hbeq hfind]
          rfl
        omega
      · rw [Nat.add_zero]
    | some source =>
      refine (ih _).trans (and_congr ⟨fun h x hx => ?_, fun h x hx => h x (List.mem_of_mem_eraseP hx)⟩
        (forall_congr' fun row' => ?_))
      · have hmem := List.mem_of_find?_eq_some hfind
        obtain ⟨first, before, after, -, hbeq, hline, herase⟩ :=
          List.exists_of_eraseP (p := fun x : α × β => x.1 == row) hmem
            (List.find?_some (p := fun x : α × β => x.1 == row) hfind)
        rw [hline, List.mem_append, List.mem_cons] at hx
        rw [herase] at h
        rcases hx with hx | rfl | hx
        · exact h x (List.mem_append_left _ hx)
        · exact BEq.trans hbeq (BEq.symm hbeq)
        · exact h x (List.mem_append_right _ hx)
      · rw [List.countP_cons]
        split
        · rename_i hbeq
          rw [← classOf_length, classOf_eraseP_of_beq hbeq, List.length_tail, classOf_length]
          omega
        · rename_i hbeq
          rw [← classOf_length, classOf_eraseP_of_not_beq (Bool.eq_false_iff.2 hbeq), classOf_length,
            Nat.add_zero]

end

/-! ### Turns -/

/-- The places of the items that satisfy a test, in order: the `n`-th is the one that
has `n` of them before it. -/
theorem filter_zipIdx_getElem? {δ : Type} (p : δ → Bool) (l : List δ) (k n i : ℕ) :
    (((l.zipIdx k).filter fun x => p x.1).map Prod.snd)[n]? = some i ↔
      ∃ j a, i = k + j ∧ l[j]? = some a ∧ p a = true ∧ (l.take j).countP p = n := by
  induction l generalizing k n with
  | nil => simp
  | cons b l ih =>
    rw [List.zipIdx_cons, List.filter_cons]
    cases hb : p b with
    | false =>
      rw [if_neg (Bool.false_ne_true), ih]
      constructor
      · rintro ⟨j, a, rfl, hget, ha, hcount⟩
        refine ⟨j + 1, a, by omega, hget, ha, ?_⟩
        rw [List.take_succ_cons, List.countP_cons_of_neg (by rw [hb]; exact Bool.false_ne_true), hcount]
      · rintro ⟨j, a, rfl, hget, ha, hcount⟩
        cases j with
        | zero =>
          obtain rfl := Option.some.inj hget
          rw [hb] at ha
          cases ha
        | succ j =>
          rw [List.take_succ_cons, List.countP_cons_of_neg (by rw [hb]; exact Bool.false_ne_true)] at hcount
          exact ⟨j, a, by omega, hget, ha, hcount⟩
    | true =>
      rw [if_pos rfl, List.map_cons]
      cases n with
      | zero =>
        constructor
        · intro h
          obtain rfl := Option.some.inj h
          exact ⟨0, b, rfl, rfl, hb, rfl⟩
        · rintro ⟨j, a, rfl, hget, ha, hcount⟩
          cases j with
          | zero => rfl
          | succ j =>
            rw [List.take_succ_cons, List.countP_cons_of_pos hb] at hcount
            omega
      | succ n =>
        rw [List.getElem?_cons_succ, ih]
        constructor
        · rintro ⟨j, a, rfl, hget, ha, hcount⟩
          refine ⟨j + 1, a, by omega, hget, ha, ?_⟩
          rw [List.take_succ_cons, List.countP_cons_of_pos hb, hcount]
        · rintro ⟨j, a, rfl, hget, ha, hcount⟩
          cases j with
          | zero => cases hcount
          | succ j =>
            rw [List.take_succ_cons, List.countP_cons_of_pos hb] at hcount
            exact ⟨j, a, by omega, hget, ha, by omega⟩

theorem exists_countP_take {δ : Type} {p : δ → Bool} {l : List δ} {n : ℕ} (h : n < l.countP p) :
    ∃ j a, l[j]? = some a ∧ p a = true ∧ (l.take j).countP p = n := by
  have hlength : (((l.zipIdx 0).filter fun x => p x.1).map Prod.snd).length = l.countP p := by
    rw [List.length_map, ← List.countP_eq_length_filter]
    have hmap : l.countP p = ((l.zipIdx 0).map Prod.fst).countP p := by rw [List.zipIdx_map_fst]
    rw [hmap, List.countP_map]
    rfl
  have hlt : n < (((l.zipIdx 0).filter fun x => p x.1).map Prod.snd).length := by omega
  obtain ⟨j, a, -, hget, ha, hcount⟩ :=
    (filter_zipIdx_getElem? p l 0 n _).1 (List.getElem?_eq_getElem hlt)
  exact ⟨j, a, hget, ha, hcount⟩

/-- Two places with the same number of items before them are one. -/
theorem countP_take_inj {δ : Type} {p : δ → Bool} {l : List δ} {i j : ℕ} {a b : δ}
    (hi : l[i]? = some a) (ha : p a = true) (hj : l[j]? = some b) (hb : p b = true)
    (h : (l.take i).countP p = (l.take j).countP p) : i = j := by
  have hplace := (filter_zipIdx_getElem? p l 0 _ i).2 ⟨i, a, (Nat.zero_add i).symm, hi, ha, rfl⟩
  have hplace' := (filter_zipIdx_getElem? p l 0 _ j).2 ⟨j, b, (Nat.zero_add j).symm, hj, hb, h.symm⟩
  exact Option.some.inj (hplace.symm.trans (h ▸ hplace'))

/-- The row at which the turn of the `i`-th source comes: its key is that of the source,
and as many rows of the class come before it as sources of the class do. -/
def Turn (keys rows : List α) (i j : ℕ) : Prop :=
  ∃ key row, keys[i]? = some key ∧ rows[j]? = some row ∧ (key == row) = true ∧
    (rows.take j).countP (· == key) = (keys.take i).countP (· == key)

section

variable [PartialEquivBEq α] {keys rows : List α} {i j k : ℕ}

omit [PartialEquivBEq α] in
theorem zipIdx_classOf (keys : List α) (row : α) (n i : ℕ) :
    (classOf keys.zipIdx row)[n]? = some i ↔
      ∃ key, keys[i]? = some key ∧ (key == row) = true ∧ (keys.take i).countP (· == row) = n := by
  rw [classOf, filter_zipIdx_getElem? (· == row) keys 0 n i]
  constructor
  · rintro ⟨j, key, rfl, h⟩
    rw [Nat.zero_add]
    exact ⟨key, h⟩
  · rintro ⟨key, h⟩
    exact ⟨i, key, (Nat.zero_add i).symm, h⟩

theorem countP_congr_of_beq {a b : α} (h : (a == b) = true) (l : List α) :
    l.countP (· == a) = l.countP (· == b) :=
  List.countP_congr fun x _ => by rw [BEq.congr_right h]

/-- **A row is given the source whose turn it is.** -/
theorem assign_eq_some_iff : (assign keys.zipIdx rows).1[j]? = some (some i) ↔ Turn keys rows i j := by
  rw [assign_getElem?, Option.map_eq_some_iff]
  constructor
  · rintro ⟨row, hrow, hclass⟩
    obtain ⟨key, hkey, hbeq, hcount⟩ := (zipIdx_classOf keys row _ i).1 hclass
    refine ⟨key, row, hkey, hrow, hbeq, ?_⟩
    rw [countP_congr_of_beq hbeq, countP_congr_of_beq hbeq, hcount]
  · rintro ⟨key, row, hkey, hrow, hbeq, hcount⟩
    refine ⟨row, hrow, (zipIdx_classOf keys row _ i).2 ⟨key, hkey, hbeq, ?_⟩⟩
    rw [← countP_congr_of_beq hbeq, ← countP_congr_of_beq hbeq, hcount]

omit [PartialEquivBEq α] in
theorem size_zipIdx (keys : List α) (row : α) : size keys.zipIdx row = keys.countP (· == row) := by
  have hmap : keys.countP (· == row) = (keys.zipIdx.map Prod.fst).countP (· == row) := by
    rw [List.zipIdx_map_fst]
  rw [hmap, List.countP_map]
  rfl

/-- A row is given nothing if its class has been served. -/
theorem assign_eq_none_iff : (assign keys.zipIdx rows).1[j]? = some none ↔
    ∃ row, rows[j]? = some row ∧ keys.countP (· == row) ≤ (rows.take j).countP (· == row) := by
  rw [assign_getElem?, Option.map_eq_some_iff]
  refine exists_congr fun row => and_congr_right fun _ => ?_
  rw [List.getElem?_eq_none_iff, classOf_length, size_zipIdx]

/-- A row has one source. -/
theorem Turn.source_inj (h : Turn keys rows i j) (h' : Turn keys rows k j) : i = k :=
  Option.some.inj (Option.some.inj ((assign_eq_some_iff.2 h).symm.trans (assign_eq_some_iff.2 h')))

/-- A source has one row. -/
theorem Turn.row_inj (h : Turn keys rows i j) (h' : Turn keys rows i k) : j = k := by
  obtain ⟨key, row, hkey, hrow, hbeq, hcount⟩ := h
  obtain ⟨key', row', hkey', hrow', hbeq', hcount'⟩ := h'
  obtain rfl := Option.some.inj (hkey.symm.trans hkey')
  exact countP_take_inj (p := (· == key)) hrow (BEq.symm hbeq) hrow' (BEq.symm hbeq') (hcount.trans hcount'.symm)

omit [PartialEquivBEq α] in
/-- A source of a class is one more before the sources that come later. -/
theorem countP_take_lt {i' : ℕ} {key : α} (hkey : keys[i]? = some key) (hself : (key == key) = true)
    (hlt : i < i') : (keys.take i).countP (· == key) < (keys.take i').countP (· == key) := by
  have hle : i + 1 ≤ i' := hlt
  have htake : keys.take (i + 1) = keys.take i ++ [key] := by
    rw [List.take_add_one, hkey]
    rfl
  have hstep : (keys.take (i + 1)).countP (· == key) = (keys.take i).countP (· == key) + 1 := by
    rw [htake, List.countP_append, List.countP_cons_of_pos (p := (· == key)) hself, List.countP_nil]
  have hmono := ((List.take_prefix_take_left (l := keys) hle).sublist).countP_le (p := (· == key))
  omega

/-- The turn of a source comes if its class has as many rows as sources. -/
theorem exists_turn {key : α} (hkey : keys[i]? = some key) (hself : (key == key) = true)
    (hcount : keys.countP (· == key) ≤ rows.countP (· == key)) : ∃ j, Turn keys rows i j := by
  have hlt : (keys.take i).countP (· == key) < rows.countP (· == key) := by
    have hbound := (List.getElem?_eq_some_iff.1 hkey).1
    have hbefore := countP_take_lt hkey hself hbound
    rw [List.take_length] at hbefore
    omega
  obtain ⟨j, row, hrow, hbeq, hplace⟩ := exists_countP_take hlt
  exact ⟨j, key, row, hkey, hrow, BEq.symm hbeq, hplace⟩

/-- Sources of one class are served in line. -/
theorem Turn.lt {i' j' : ℕ} {key key' : α} (h : Turn keys rows i j) (h' : Turn keys rows i' j')
    (hkey : keys[i]? = some key) (hkey' : keys[i']? = some key') (hbeq : (key == key') = true)
    (hlt : i < i') : j < j' := by
  obtain ⟨_, row, hget, hrow, hrowbeq, hcount⟩ := h
  obtain ⟨_, row', hget', hrow', hrowbeq', hcount'⟩ := h'
  obtain rfl := Option.some.inj (hkey.symm.trans hget)
  obtain rfl := Option.some.inj (hkey'.symm.trans hget')
  rw [← countP_congr_of_beq hbeq, ← countP_congr_of_beq hbeq] at hcount'
  -- the earlier source itself comes before the later one
  have hself : (key == key) = true := BEq.trans hrowbeq (BEq.symm hrowbeq)
  have hbefore := countP_take_lt hkey hself hlt
  rcases Nat.lt_or_ge j j' with h | hge
  · exact h
  · have hmono := ((List.take_prefix_take_left (l := rows) hge).sublist).countP_le (p := (· == key))
    omega

end

end Matching
end SwitchyardGateway
