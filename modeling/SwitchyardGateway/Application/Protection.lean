/-
# Which history is protected, exactly

What `eligible_indices` computes.  A boundary is `Closed` if no row before it
issues a tool call that a row from it on answers.  The loop pulls the boundary
back to the first row that issues such a call, and no closed boundary is passed
over on the way: it stops at the greatest closed boundary up to the last user and
assistant rows (`protect_eq`).  Nothing is left unprotected that the closure needs
and nothing is protected that it does not.

The loop puts every `tool_call_id` from the boundary on into a set.  It raises if
and only if one from the boundary it would stop at cannot be put there.
-/

import SwitchyardGateway.Application.History
import Mathlib.Order.Lattice.Nat
import Mathlib.Tactic.FinCases

namespace SwitchyardGateway
namespace Application

open Python

/-! ### What the probes of a row find -/

/-- The id of a tool call. -/
def callId? : Json → Option Str
  | .obj call =>
    match get call "id" with
    | .str id => some id
    | _ => none
  | _ => none

/-- The ids of the tool calls a row issues. -/
def callIds (row : Payload) : List Str :=
  match toolCalls row with
  | .ok calls => calls.filterMap callId?
  | .error _ => []

/-- The entries of `tool_calls` are objects with a `str` for an id. -/
def CallsNamed (row : Payload) : Prop :=
  ∃ calls, toolCalls row = .ok calls ∧
    ∀ call ∈ calls, ∃ fields id, call = .obj fields ∧ get fields "id" = .str id

/-- The row answers the tool call with this id. -/
def Answers (row : Payload) (id : Str) : Prop := get row "tool_call_id" = .str id

/-- No row before the boundary issues a call that a row from it on answers. -/
def Closed (rows : List Payload) (boundary : ℕ) : Prop :=
  ∀ i j row row' id, i < boundary → boundary ≤ j → rows[i]? = some row → rows[j]? = some row' →
    id ∈ callIds row → ¬Answers row' id

/-- The ids some of these rows answer. -/
def anyAnswers (rows : List Payload) (id : Str) : Bool :=
  rows.any fun row => (get row "tool_call_id").itemEq (.str id)

theorem anyAnswers_iff {rows : List Payload} {id : Str} :
    anyAnswers rows id = true ↔ ∃ row ∈ rows, Answers row id := by
  simp [anyAnswers, Json.itemEq_str_iff, Answers]

/-- The set of live ids, if every id can be put into a set. -/
theorem liveIds_eq (rows : List Payload) :
    liveIds rows = if rows.all fun row => hashable (get row "tool_call_id") then
      .ok (rows.map fun row => get row "tool_call_id") else .error .typeError := by
  induction rows with
  | nil => rfl
  | cons row rows ih =>
    rw [liveIds, ih, List.all_cons]
    cases hashable (get row "tool_call_id")
    · rfl
    · cases rows.all fun row => hashable (get row "tool_call_id") <;> rfl

/-- Whether one of some calls is live. -/
theorem anyCallLive_eq {rows : List Payload} {calls : List Json}
    (h : ∀ call ∈ calls, ∃ fields id, call = .obj fields ∧ get fields "id" = .str id) :
    anyCallLive (rows.map fun row => get row "tool_call_id") calls =
      .ok ((calls.filterMap callId?).any (anyAnswers rows)) := by
  induction calls with
  | nil => rfl
  | cons call calls ih =>
    obtain ⟨fields, id, rfl, hid⟩ := h call (List.mem_cons_self ..)
    have hset : inSet (get fields "id") (rows.map fun row => get row "tool_call_id") =
        .ok (anyAnswers rows id) := by
      rw [hid, inSet, List.any_map]
      rfl
    have hcall : callId? (.obj fields) = some id := by rw [callId?, hid]
    rw [List.filterMap_cons_some hcall, List.any_cons, anyCallLive, asDict]
    change (inSet (get fields "id") _ >>= _) = _
    rw [hset]
    cases hlive : anyAnswers rows id
    · exact ih fun call hmem => h call (List.mem_cons_of_mem _ hmem)
    · rfl

/-- The first row, if there is one, that issues a live call. -/
theorem firstLiveCall_eq (live : List Payload) {rows : List Payload}
    (h : ∀ row ∈ rows, CallsNamed row) (k : ℕ) :
    firstLiveCall (live.map fun row => get row "tool_call_id") k rows =
      .ok ((rows.findIdx? fun row => (callIds row).any (anyAnswers live)).map (· + k)) := by
  induction rows generalizing k with
  | nil => rfl
  | cons row rows ih =>
    obtain ⟨calls, hcalls, hnamed⟩ := h row (List.mem_cons_self ..)
    have hrest := ih (fun row hmem => h row (List.mem_cons_of_mem _ hmem)) (k + 1)
    have hids : callIds row = calls.filterMap callId? := by rw [callIds, hcalls]
    rw [firstLiveCall, hcalls]
    change (anyCallLive _ calls >>= _) = _
    rw [anyCallLive_eq hnamed, ← hids]
    change (firstLiveCall _ (k + 1) rows >>= _) = _
    rw [hrest, List.findIdx?_cons]
    cases (callIds row).any (anyAnswers live)
    · cases rows.findIdx? fun row => (callIds row).any (anyAnswers live) with
      | none => rfl
      | some i =>
        change Except.ok (some (i + (k + 1))) = Except.ok (some (i + 1 + k))
        rw [Nat.add_assoc, Nat.add_comm k 1]
    · change Except.ok (some k) = Except.ok (some (0 + k))
      rw [Nat.zero_add]

/-! ### The loop -/

theorem mem_take_iff {rows : List Payload} {boundary : ℕ} {row : Payload} :
    row ∈ rows.take boundary ↔ ∃ i < boundary, rows[i]? = some row := by
  rw [List.mem_iff_getElem?]
  constructor
  · rintro ⟨i, hi⟩
    rw [List.getElem?_take] at hi
    split at hi
    · exact ⟨i, ‹_›, hi⟩
    · cases hi
  · rintro ⟨i, hlt, hi⟩
    exact ⟨i, by rw [List.getElem?_take, if_pos hlt, hi]⟩

theorem mem_drop_iff {rows : List Payload} {boundary : ℕ} {row : Payload} :
    row ∈ rows.drop boundary ↔ ∃ j, boundary ≤ j ∧ rows[j]? = some row := by
  rw [List.mem_iff_getElem?]
  constructor
  · rintro ⟨j, hj⟩
    rw [List.getElem?_drop] at hj
    exact ⟨boundary + j, Nat.le_add_right _ _, hj⟩
  · rintro ⟨j, hle, hj⟩
    refine ⟨j - boundary, ?_⟩
    rw [List.getElem?_drop, Nat.add_sub_cancel' hle, hj]

/-- A boundary is closed if and only if the loop finds nothing before it. -/
theorem closed_iff_findIdx {rows : List Payload} {boundary : ℕ} :
    Closed rows boundary ↔ (rows.take boundary).findIdx? (fun row =>
      (callIds row).any (anyAnswers (rows.drop boundary))) = none := by
  rw [List.findIdx?_eq_none_iff]
  constructor
  · intro h row hrow
    rw [List.any_eq_false]
    intro id hid hanswered
    obtain ⟨i, hlt, hi⟩ := mem_take_iff.1 hrow
    obtain ⟨row', hrow', hanswers⟩ := anyAnswers_iff.1 hanswered
    obtain ⟨j, hle, hj⟩ := mem_drop_iff.1 hrow'
    exact h i j row row' id hlt hle hi hj hid hanswers
  · intro h i j row row' id hlt hle hi hj hid hanswers
    have hfalse := h row (mem_take_iff.2 ⟨i, hlt, hi⟩)
    rw [List.any_eq_false] at hfalse
    exact hfalse id hid (anyAnswers_iff.2 ⟨row', mem_drop_iff.2 ⟨j, hle, hj⟩, hanswers⟩)

/-- No closed boundary lies between the row the loop finds and where it looked from. -/
theorem Closed.le_findIdx {rows : List Payload} {boundary earlier b : ℕ} (hb : Closed rows b)
    (hle : b ≤ boundary) (h : (rows.take boundary).findIdx? (fun row =>
      (callIds row).any (anyAnswers (rows.drop boundary))) = some earlier) :
    b ≤ earlier ∧ earlier < boundary := by
  obtain ⟨hlt, hhit, -⟩ := List.findIdx?_eq_some_iff_getElem.1 h
  rw [List.length_take] at hlt
  refine ⟨Nat.le_of_not_lt fun hearlier => ?_, by omega⟩
  obtain ⟨id, hid, hanswered⟩ := List.any_eq_true.1 hhit
  obtain ⟨row', hrow', hanswers⟩ := anyAnswers_iff.1 hanswered
  obtain ⟨j, hj, hget⟩ := mem_drop_iff.1 hrow'
  have hrow : rows[earlier]? = some (rows.get ⟨earlier, by omega⟩) := List.getElem?_eq_getElem _
  rw [List.getElem_take] at hid
  exact hb earlier j _ row' id hearlier (hle.trans hj) hrow hget hid hanswers

/-- The greatest closed boundary up to a given one. -/
def IsBoundary (rows : List Payload) (recent boundary : ℕ) : Prop :=
  IsGreatest {b | b ≤ recent ∧ Closed rows b} boundary

theorem exists_isBoundary (rows : List Payload) (recent : ℕ) :
    ∃ boundary, IsBoundary rows recent boundary := by
  have hnonempty : {b | b ≤ recent ∧ Closed rows b}.Nonempty :=
    ⟨0, Nat.zero_le _, fun i _ _ _ _ hlt _ _ _ _ => absurd hlt (Nat.not_lt_zero i)⟩
  have hbounded : BddAbove {b | b ≤ recent ∧ Closed rows b} := ⟨recent, fun _ hb => hb.1⟩
  exact ⟨_, Nat.sSup_mem hnonempty hbounded, fun _ hb => le_csSup hbounded hb⟩

/-- **The loop stops at the greatest closed boundary**, unless an id from there on
cannot be put into a set. -/
theorem protect_eq {rows : List Payload} (hnamed : ∀ row ∈ rows, CallsNamed row)
    {rounds recent boundary : ℕ} (hrounds : recent < rounds) (h : IsBoundary rows recent boundary) :
    protect rows rounds recent =
      if (rows.drop boundary).all fun row => hashable (get row "tool_call_id") then .ok boundary
      else .error .typeError := by
  induction rounds generalizing recent with
  | zero => omega
  | succ rounds ih =>
    have hle : boundary ≤ recent := h.1.1
    rw [protect, liveIds_eq]
    cases hall : (rows.drop recent).all fun row => hashable (get row "tool_call_id") with
    | false =>
      -- the rows from `recent` on are among those from `boundary` on
      obtain ⟨row, hrow, hunhashable⟩ := List.all_eq_false.1 hall
      have hmem : row ∈ rows.drop boundary := by
        obtain ⟨j, hj, hget⟩ := mem_drop_iff.1 hrow
        exact mem_drop_iff.2 ⟨j, hle.trans hj, hget⟩
      have hfalse : ((rows.drop boundary).all fun row => hashable (get row "tool_call_id")) = false :=
        List.all_eq_false.2 ⟨row, hmem, hunhashable⟩
      rw [hfalse]
      rfl
    | true =>
      have hfirst := firstLiveCall_eq (rows.drop recent)
        (fun row (hrow : row ∈ rows.take recent) => hnamed row (List.mem_of_mem_take hrow)) 0
      change (firstLiveCall ((rows.drop recent).map fun row => get row "tool_call_id") 0
        (rows.take recent) >>= _) = _
      rw [hfirst]
      cases hfind : (rows.take recent).findIdx? fun row =>
          (callIds row).any (anyAnswers (rows.drop recent)) with
      | none =>
        have hclosed := closed_iff_findIdx.2 hfind
        obtain rfl : boundary = recent := Nat.le_antisymm hle (h.2 ⟨le_rfl, hclosed⟩)
        rw [hall]
        rfl
      | some earlier =>
        have hearlier := h.1.2.le_findIdx hle hfind
        change protect rows rounds earlier = _
        refine ih (by omega) ⟨⟨hearlier.1, h.1.2⟩, fun b hb => h.2 ⟨?_, hb.2⟩⟩
        exact hb.1.trans (Nat.le_of_lt hearlier.2)

/-! ### Where the loop starts -/

/-- The indices of the rows with a role. -/
def withRole (role : String) (rows : List Payload) : Set ℕ :=
  {i | ∃ row, rows[i]? = some row ∧ get row "role" = .str (lit role)}

theorem mem_indicesWhere {role : String} {rows : List Payload} {i : ℕ} :
    i ∈ indicesWhere (hasRole role) rows ↔ i ∈ withRole role rows := by
  simp only [indicesWhere, List.mem_map, List.mem_filter, List.mem_zipIdx_iff_getElem?, hasRole,
    Json.pyEq_str_iff, Prod.exists, exists_eq_right, withRole, Set.mem_ofPred_eq]

/-- The last row with a role. -/
theorem lastWithRole_isGreatest {role : String} {rows : List Payload}
    (h : (withRole role rows).Nonempty) : IsGreatest (withRole role rows) (lastWithRole role rows) := by
  obtain ⟨i, hi⟩ := h
  cases hmax : (indicesWhere (hasRole role) rows).max? with
  | none =>
    rw [List.max?_eq_none_iff] at hmax
    have hmem := mem_indicesWhere.2 hi
    rw [hmax] at hmem
    cases hmem
  | some last =>
    rw [lastWithRole, hmax, Option.getD_some]
    obtain ⟨hlast, hle⟩ := List.max?_eq_some_iff.1 hmax
    exact ⟨mem_indicesWhere.1 hlast, fun j hj => hle j (mem_indicesWhere.2 hj)⟩

theorem lastWithRole_eq_zero {role : String} {rows : List Payload}
    (h : ¬(withRole role rows).Nonempty) : lastWithRole role rows = 0 := by
  have hnone : indicesWhere (hasRole role) rows = [] :=
    List.eq_nil_iff_forall_not_mem.2 fun i hi => h ⟨i, mem_indicesWhere.1 hi⟩
  rw [lastWithRole, hnone]
  rfl

/-- The last user row or the last assistant row, whichever is first; `0` if there
are none of one kind. -/
def IsRecent (rows : List Payload) (recent : ℕ) : Prop :=
  (∃ user assistant, IsGreatest (withRole "user" rows) user ∧
    IsGreatest (withRole "assistant" rows) assistant ∧ recent = min user assistant) ∨
  ((withRole "user" rows = ∅ ∨ withRole "assistant" rows = ∅) ∧ recent = 0)

theorem isRecent (rows : List Payload) :
    IsRecent rows (min (lastWithRole "user" rows) (lastWithRole "assistant" rows)) := by
  by_cases huser : (withRole "user" rows).Nonempty
  · by_cases hassistant : (withRole "assistant" rows).Nonempty
    · exact .inl ⟨_, _, lastWithRole_isGreatest huser, lastWithRole_isGreatest hassistant, rfl⟩
    · refine .inr ⟨.inr (Set.not_nonempty_iff_eq_empty.1 hassistant), ?_⟩
      rw [lastWithRole_eq_zero hassistant, Nat.min_zero]
  · refine .inr ⟨.inl (Set.not_nonempty_iff_eq_empty.1 huser), ?_⟩
    rw [lastWithRole_eq_zero huser, Nat.zero_min]

/-- Where the last exchange begins is determined. -/
theorem IsRecent.unique {rows : List Payload} {m n : ℕ} (hm : IsRecent rows m) (hn : IsRecent rows n) :
    m = n := by
  rcases hm with ⟨user, assistant, huser, hassistant, rfl⟩ | ⟨hnone, rfl⟩
  · rcases hn with ⟨user', assistant', huser', hassistant', rfl⟩ | ⟨hnone, rfl⟩
    · rw [huser.unique huser', hassistant.unique hassistant']
    · rcases hnone with hnone | hnone
      · exact absurd (hnone ▸ huser.1) (Set.notMem_empty _)
      · exact absurd (hnone ▸ hassistant.1) (Set.notMem_empty _)
  · rcases hn with ⟨user', assistant', huser', hassistant', rfl⟩ | ⟨-, rfl⟩
    · rcases hnone with hnone | hnone
      · exact absurd (hnone ▸ huser'.1) (Set.notMem_empty _)
      · exact absurd (hnone ▸ hassistant'.1) (Set.notMem_empty _)
    · rfl

/-! ### Cached rows -/

/-- The value has the key, itself or in a value inside it. -/
inductive Carries (key : Str) : Json → Prop where
  | key {fields : Payload} {v : Json} : (key, v) ∈ fields → Carries key (.obj fields)
  | field {fields : Payload} {k : Str} {v : Json} : (k, v) ∈ fields → Carries key v →
      Carries key (.obj fields)
  | item {xs : List Json} {v : Json} : v ∈ xs → Carries key v → Carries key (.list xs)

/-- The test finds an object with the key. -/
def Finds (p : Json → Bool) (key : Str) : Prop :=
  ∀ v, p v = true ↔ ∃ fields w, v = .obj fields ∧ (key, w) ∈ fields

mutual

/-- Looking for the key at every depth. -/
theorem any_iff_carries {p : Json → Bool} {key : Str} (hp : Finds p key) : ∀ v : Json,
    v.any p = true ↔ Carries key v
  | .list xs => by
    have hlist : p (.list xs) = false := Bool.eq_false_iff.2 fun h => by
      obtain ⟨fields, w, heq, -⟩ := (hp _).1 h
      cases heq
    rw [Json.any, hlist, Bool.false_or, anyList_iff_carries hp xs]
    constructor
    · rintro ⟨v, hmem, hv⟩
      exact .item hmem hv
    · intro h
      cases h with
      | item hmem hv => exact ⟨_, hmem, hv⟩
  | .obj fields => by
    rw [Json.any, Bool.or_eq_true, anyFields_iff_carries hp fields, hp]
    constructor
    · rintro (⟨fields', w, heq, hmem⟩ | ⟨k, v, hmem, hv⟩)
      · obtain rfl := Json.obj.inj heq
        exact .key hmem
      · exact .field hmem hv
    · intro h
      cases h with
      | key hmem => exact .inl ⟨_, _, rfl, hmem⟩
      | field hmem hv => exact .inr ⟨_, _, hmem, hv⟩
  | .null | .bool _ | .int _ | .float _ | .str _ => by
    refine (hp _).trans ⟨?_, nofun⟩
    rintro ⟨fields, w, heq, -⟩
    cases heq

theorem anyList_iff_carries {p : Json → Bool} {key : Str} (hp : Finds p key) : ∀ xs : List Json,
    Json.anyList p xs = true ↔ ∃ v ∈ xs, Carries key v
  | [] => by simp [Json.anyList]
  | v :: vs => by
    rw [Json.anyList, Bool.or_eq_true, anyList_iff_carries hp vs, any_iff_carries hp v]
    simp

theorem anyFields_iff_carries {p : Json → Bool} {key : Str} (hp : Finds p key) : ∀ fields : Payload,
    Json.anyFields p fields = true ↔ ∃ k v, (k, v) ∈ fields ∧ Carries key v
  | [] => by simp [Json.anyFields]
  | (k, v) :: fields => by
    rw [Json.anyFields, Bool.or_eq_true, anyFields_iff_carries hp fields, any_iff_carries hp v]
    constructor
    · rintro (h | ⟨k', v', hmem, hv⟩)
      · exact ⟨k, v, List.mem_cons_self .., h⟩
      · exact ⟨k', v', List.mem_cons_of_mem _ hmem, hv⟩
    · rintro ⟨k', v', hmem, hv⟩
      rcases List.mem_cons.1 hmem with heq | hmem
      · obtain ⟨rfl, rfl⟩ := Prod.mk.inj heq
        exact .inl hv
      · exact .inr ⟨k', v', hmem, hv⟩

end

/-- `cached` looks for the key at every depth. -/
theorem cached_iff {v : Json} : cached v = true ↔ Carries (lit "cache_control") v := by
  refine any_iff_carries (fun v => ?_) v
  cases v with
  | obj fields =>
    simp only [Json.obj.injEq, exists_and_left, exists_eq_left', List.lookup_isSome_iff]
    constructor
    · rintro ⟨⟨k, w⟩, hmem, hk⟩
      obtain rfl : lit "cache_control" = k := by simpa using hk
      exact ⟨w, hmem⟩
    · rintro ⟨w, hmem⟩
      exact ⟨_, hmem, by simp⟩
  | _ => simp

/-! ### The result -/

/-- The row is an instruction. -/
def Instruction (row : Payload) : Prop :=
  get row "role" = .str (lit "system") ∨ get row "role" = .str (lit "developer")

theorem inSet_instruction {row : Payload} (h : hashable (get row "role") = true) :
    ∃ b, inSet (get row "role") [.str (lit "system"), .str (lit "developer")] = .ok b ∧
      (b = true ↔ Instruction row) := by
  refine ⟨_, if_pos h, ?_⟩
  unfold Instruction
  cases get row "role" with
  | str s =>
    rw [List.any_cons, List.any_cons, List.any_nil, Bool.or_false, Bool.or_eq_true, Json.itemEq_str_iff,
      Json.itemEq_str_iff, eq_comm, @eq_comm _ (Json.str (lit "developer"))]
  | _ => simp [Json.itemEq, Json.eqBy, Json.itemLeaf, Json.number?]

/-- The rows that are kept are those that are neither instructions nor cached. -/
theorem compressible_eq (rows : List Payload) (h : ∀ row ∈ rows, hashable (get row "role") = true)
    (k : ℕ) : ∃ indices, compressible k rows = .ok indices ∧ indices.Pairwise (· < ·) ∧
      ∀ i, i ∈ indices ↔ ∃ j row, i = k + j ∧ rows[j]? = some row ∧ ¬Instruction row ∧
        ¬Carries (lit "cache_control") (.obj row) := by
  induction rows generalizing k with
  | nil => exact ⟨[], rfl, .nil, by simp⟩
  | cons row rows ih =>
    obtain ⟨rest, hrest, hsorted, hmem⟩ :=
      ih (fun row hrow => h row (List.mem_cons_of_mem _ hrow)) (k + 1)
    obtain ⟨instruction, hset, hinstruction⟩ := inSet_instruction (h row (List.mem_cons_self ..))
    have hcompute : compressible k (row :: rows) =
        .ok (if !instruction && !cached (.obj row) then k :: rest else rest) := by
      rw [compressible, hset]
      change (compressible (k + 1) rows >>= _) = _
      rw [hrest]
      rfl
    have hkeep : (!instruction && !cached (.obj row)) = true ↔
        ¬Instruction row ∧ ¬Carries (lit "cache_control") (.obj row) := by
      rw [Bool.and_eq_true, Bool.not_eq_true', Bool.not_eq_true', ← Bool.not_eq_true, ← Bool.not_eq_true,
        hinstruction, cached_iff]
    -- the rows after this one are counted from `k + 1`
    have hlater : ∀ i, i ∈ rest ↔ ∃ j row', i = k + (j + 1) ∧ (row :: rows)[j + 1]? = some row' ∧
        ¬Instruction row' ∧ ¬Carries (lit "cache_control") (.obj row') := by
      intro i
      rw [hmem]
      simp only [List.getElem?_cons_succ, Nat.add_assoc, Nat.add_comm 1]
    refine ⟨_, hcompute, ?_, fun i => ?_⟩
    · split
      · refine List.pairwise_cons.2 ⟨fun i hi => ?_, hsorted⟩
        obtain ⟨j, row', rfl, -⟩ := (hlater i).1 hi
        omega
      · exact hsorted
    · constructor
      · intro hi
        split at hi
        · rename_i hk
          rcases List.mem_cons.1 hi with rfl | hi
          · exact ⟨0, row, rfl, rfl, hkeep.1 hk⟩
          · obtain ⟨j, row', hrow'⟩ := (hlater i).1 hi
            exact ⟨j + 1, row', hrow'⟩
        · obtain ⟨j, row', hrow'⟩ := (hlater i).1 hi
          exact ⟨j + 1, row', hrow'⟩
      · rintro ⟨j, row', hi, hget, hrow'⟩
        cases j with
        | zero =>
          obtain rfl := Option.some.inj hget
          rw [if_pos (hkeep.2 hrow'), hi]
          exact List.mem_cons_self ..
        | succ j =>
          have hmem' := (hlater i).2 ⟨j, row', hi, hget, hrow'⟩
          split
          · exact List.mem_cons_of_mem _ hmem'
          · exact hmem'

/-- Rows are read as rows. -/
theorem asRows_list (rows : List Payload) : asRows (.list (rows.map .obj)) = .ok rows := by
  change (rows.map Json.obj).mapM asDict = _
  induction rows with
  | nil => rfl
  | cons row rows ih =>
    rw [List.map_cons, List.mapM_cons, ih]
    rfl

/-- **History protection is exact.** -/
theorem eligibleIndices_exact (rows : List Payload) (hnamed : ∀ row ∈ rows, CallsNamed row)
    (hids : ∀ row ∈ rows, row.lookup (lit "tool_call_id") = none ∨
      ∃ id, row.lookup (lit "tool_call_id") = some (.str id))
    (hroles : ∀ row ∈ rows, hashable (get row "role") = true) :
    ∃ recent boundary indices, IsRecent rows recent ∧ IsBoundary rows recent boundary ∧
      eligibleIndices (.list (rows.map .obj)) = .ok indices ∧ indices.Pairwise (· < ·) ∧
      ∀ i, i ∈ indices ↔ i < boundary ∧ ∃ row, rows[i]? = some row ∧ ¬Instruction row ∧
        ¬Carries (lit "cache_control") (.obj row) := by
  obtain ⟨boundary, hboundary⟩ := exists_isBoundary rows
    (min (lastWithRole "user" rows) (lastWithRole "assistant" rows))
  obtain ⟨indices, hindices, hsorted, hmem⟩ := compressible_eq (rows.take boundary)
    (fun row hrow => hroles row (List.mem_of_mem_take hrow)) 0
  have hhashable : ((rows.drop boundary).all fun row => hashable (get row "tool_call_id")) = true := by
    rw [List.all_eq_true]
    intro row hrow
    rcases hids row (List.mem_of_mem_drop hrow) with h | ⟨id, h⟩
    · rw [get, h]
      rfl
    · rw [get, h]
      rfl
  refine ⟨_, boundary, indices, isRecent rows, hboundary, ?_, hsorted, fun i => ?_⟩
  · rw [eligibleIndices, asRows_list]
    change (protect rows _ _ >>= _) = _
    rw [protect_eq hnamed (Nat.lt_succ_self _) hboundary, if_pos hhashable]
    exact hindices
  · rw [hmem]
    constructor
    · rintro ⟨j, row, rfl, hget, hrow⟩
      rw [List.getElem?_take] at hget
      rw [Nat.zero_add]
      split at hget
      · exact ⟨‹_›, row, hget, hrow⟩
      · cases hget
    · rintro ⟨hlt, row, hget, hrow⟩
      exact ⟨i, row, (Nat.zero_add i).symm, by rw [List.getElem?_take, if_pos hlt, hget], hrow⟩

namespace Demo

/-- A row with a role and some more fields. -/
def row (role : String) (fields : Payload) : Payload := (lit "role", .str (lit role)) :: fields

/-- A call that is answered later, between an old exchange and the live one. -/
def history : List Payload :=
  [row "system" [], row "user" [], row "assistant" [],
   row "assistant" [(lit "tool_calls", .list [.obj [(lit "id", .str (lit "c1"))]])],
   row "user" [], row "assistant" [], row "tool" [(lit "tool_call_id", .str (lit "c1"))]]

/-- A row whose role is a list, before the last exchange. -/
def unhashable : List Payload := [[(lit "role", .list [])], row "user" [], row "assistant" []]

end Demo

/-- The call of the live answer is protected, and what comes before it is not. -/
theorem eligibleIndices_history : ∃ recent boundary indices, IsRecent Demo.history recent ∧
    IsBoundary Demo.history recent boundary ∧
    eligibleIndices (.list (Demo.history.map .obj)) = .ok indices ∧ indices.Pairwise (· < ·) ∧
    ∀ i, i ∈ indices ↔ i < boundary ∧ ∃ row, Demo.history[i]? = some row ∧ ¬Instruction row ∧
      ¬Carries (lit "cache_control") (.obj row) := by
  refine eligibleIndices_exact Demo.history (fun row hrow => ?_) (fun row hrow => ?_) (by decide)
  · fin_cases hrow
    any_goals exact ⟨[], rfl, nofun⟩
    exact ⟨_, rfl, fun call hcall => ⟨_, lit "c1", List.mem_singleton.1 hcall, rfl⟩⟩
  · fin_cases hrow
    any_goals exact .inl rfl
    exact .inr ⟨_, rfl⟩

/-- **A role that is a list** cannot be looked up in a set. -/
theorem unhashable_role_raises : (∀ row ∈ Demo.unhashable, CallsNamed row) ∧
    (∀ row ∈ Demo.unhashable, row.lookup (lit "tool_call_id") = none) ∧
    eligibleIndices (.list (Demo.unhashable.map .obj)) = .error .typeError := by
  refine ⟨fun row hrow => ?_, fun row hrow => ?_, by rfl⟩
  · fin_cases hrow <;> exact ⟨[], rfl, nofun⟩
  · fin_cases hrow <;> rfl

end Application
end SwitchyardGateway
