/-
# Routing loses no message

The captured rows are served with the messages, first come, first served
(`Matching.assign`): a row whose normal form is in line gets the message of that
normal form back, and any other row is restored as a text (`putBack_eq`).

A route succeeds if every normal form is captured as often as it was sent, and what
is captured beyond that is text (`route_exact`).  The messages then come back at the
rows where their turn comes, which are in their order as far as equal normal forms
go.  They need not be in order otherwise: a note that equals the normal form of a
later message takes its turn (`notes_keep_order_iff`).
-/

import SwitchyardGateway.Adapters.Switchyard
import SwitchyardGateway.Application.Ledger
import SwitchyardGateway.Matching.Greedy
import SwitchyardGateway.Python.Equality
import SwitchyardGateway.Python.Raising
import Mathlib.Data.List.NodupEquivFin
import Mathlib.Tactic.FinCases

namespace SwitchyardGateway
namespace Switchyard

open Python Application Matching

/-! ### Rows -/

/-- The blocks of a row. -/
def blocksOf : Json → List Json
  | .obj row =>
    match (row.lookup (lit "content")).getD (.list []) with
    | .list blocks => blocks
    | _ => []
  | _ => []

/-- A text block. -/
def isText : Json → Bool
  | .obj block => (get block "type").pyEq (.str (lit "text"))
  | _ => false

/-- A row without tool calls and tool results. -/
def TextOnly (row : Json) : Prop := ∀ block ∈ blocksOf row, isText block = true

instance (row : Json) : Decidable (TextOnly row) := inferInstanceAs (Decidable (∀ block ∈ blocksOf row, _))

/-- A block: a text block has a text. -/
def IsBlock (block : Json) : Prop :=
  ∃ fields, block = .obj fields ∧ (isText block = true → ∃ text, fields.lookup (lit "text") = some (.str text))

/-- A row as the library writes it: a role, and a list of blocks, which may be left out. -/
structure WellFormed (row : Json) : Prop where
  role : ∃ fields role, row = .obj fields ∧ fields.lookup (lit "role") = some role ∧
    (fields.lookup (lit "content")).getD (.list []) = .list (blocksOf row)
  blocks : ∀ block ∈ blocksOf row, IsBlock block

theorem allText_eq {blocks : List Json} (h : ∀ block ∈ blocks, IsBlock block) :
    allText blocks = .ok (blocks.all isText) := by
  induction blocks with
  | nil => rfl
  | cons block blocks ih =>
    rw [List.forall_mem_cons] at h
    obtain ⟨⟨fields, rfl, -⟩, hblocks⟩ := h
    rw [List.all_cons]
    change (if isText (.obj fields) = true then allText blocks else .ok false) = _
    rw [ih hblocks]
    cases isText (.obj fields) <;> rfl

/-! ### A row is restored as a text or not at all -/

/-- What `_restore` raises at a row that is not text. -/
abbrev unsupported : Exc := .gateway "unsupported_routing_rewrite" 502

theorem textOf_ok {block : Json} (h : IsBlock block) (htext : isText block = true) :
    ∃ text, textOf block = .ok text := by
  obtain ⟨fields, rfl, hlookup⟩ := h
  obtain ⟨text, htext⟩ := hlookup htext
  refine ⟨text, ?_⟩
  rw [textOf, item, htext]
  rfl

theorem restore_eq {row : Json} (h : WellFormed row) :
    (TextOnly row ∧ ∃ role text, restore row = .ok (textMessage role text)) ∨
      ¬TextOnly row ∧ restore row = .error unsupported := by
  obtain ⟨⟨fields, role, hrow, hrole, hcontent⟩, hblocks⟩ := h
  have hrestore : restore row = (if (blocksOf row).all isText = true then
      (blocksOf row).mapM textOf >>= fun texts => .ok (textMessage role ([10].intercalate texts))
      else .error unsupported) := by
    rw [restore, hrow]
    simp only [asDict, hcontent, iterate, item, hrole, bind, Except.bind, pure, Except.pure]
    rw [← hrow, allText_eq hblocks]
    cases (blocksOf row).all isText <;> rfl
  by_cases htext : TextOnly row
  · refine .inl ⟨htext, role, ?_⟩
    rw [hrestore, if_pos (List.all_eq_true.2 htext)]
    rcases mapM_cases textOf (blocksOf row) with ⟨-, texts, htexts⟩ | ⟨block, hmem, e, he, -⟩
    · rw [htexts]
      exact ⟨_, rfl⟩
    · obtain ⟨text, hok⟩ := textOf_ok (hblocks block hmem) (htext block hmem)
      rw [hok] at he
      cases he
  · refine .inr ⟨htext, ?_⟩
    rw [hrestore, if_neg fun hall => htext (List.all_eq_true.1 hall)]

theorem restore_ok_iff {row : Json} (h : WellFormed row) : (∃ m, restore row = .ok m) ↔ TextOnly row := by
  rcases restore_eq h with ⟨htext, role, text, hok⟩ | ⟨htext, herror⟩
  · exact ⟨fun _ => htext, fun _ => ⟨_, hok⟩⟩
  · refine ⟨fun ⟨m, hm⟩ => ?_, fun h => absurd h htext⟩
    rw [herror] at hm
    cases hm

/-! ### Serving the rows -/

/-- What a row is turned into: the message it is given, or its text. -/
def serve (row : Value) : Option Json → Except Exc Json
  | some message => .ok message
  | none => restore row.1

/-- **`_restore` and the messages, first come, first served.** -/
theorem putBack_eq (line : List (Value × Json)) (rows : List Value) :
    putBack (line.map fun x => (x.1.1, x.2)) (rows.map Subtype.val) =
      (((rows.zip (assign line rows).1).mapM fun p => serve p.1 p.2) >>= fun served =>
        .ok (served, (assign line rows).2.map fun x => (x.1.1, x.2))) := by
  induction rows generalizing line with
  | nil => rfl
  | cons row rows ih =>
    have hfind : (line.map fun x : Value × Json => (x.1.1, x.2)).find? (·.1.pyEq row.1) =
        (line.find? (·.1 == row)).map fun x => (x.1.1, x.2) := by
      rw [List.find?_map]
      rfl
    have herase : (line.map fun x : Value × Json => (x.1.1, x.2)).eraseP (·.1.pyEq row.1) =
        (line.eraseP (·.1 == row)).map fun x => (x.1.1, x.2) := by
      rw [List.eraseP_map]
      rfl
    rw [List.map_cons, putBack, hfind, assign]
    cases line.find? (·.1 == row) with
    | none =>
      change (restore row.1 >>= fun message => putBack (line.map fun x => (x.1.1, x.2)) (rows.map Subtype.val) >>=
        fun r => .ok (message :: r.1, r.2)) = _
      rw [ih, List.zip_cons_cons, List.mapM_cons]
      change _ = ((restore row.1 >>= fun message => ((rows.zip (assign line rows).1).mapM fun p => serve p.1 p.2) >>=
        fun served => .ok (message :: served)) >>= _)
      cases restore row.1 with
      | error e => rfl
      | ok message =>
        cases (rows.zip (assign line rows).1).mapM fun p => serve p.1 p.2 <;> rfl
    | some source =>
      change (putBack ((line.map fun x => (x.1.1, x.2)).eraseP (·.1.pyEq row.1)) (rows.map Subtype.val) >>=
        fun r => .ok (source.2 :: r.1, r.2)) = _
      rw [herase, ih, List.zip_cons_cons, List.mapM_cons]
      change _ = (((Except.ok source.2 : Except Exc Json) >>= fun message =>
        ((rows.zip (assign (line.eraseP (·.1 == row)) rows).1).mapM fun p => serve p.1 p.2) >>=
        fun served => .ok (message :: served)) >>= _)
      cases (rows.zip (assign (line.eraseP (·.1 == row)) rows).1).mapM fun p => serve p.1 p.2 <;> rfl

/-- The rows that are left when a normal form has been captured as often as it was
sent: as many of its class come before. -/
def Excess (originals rows : List Value) (j : ℕ) : Prop :=
  ∃ row, rows[j]? = some row ∧ originals.countP (· == row) ≤ (rows.take j).countP (· == row)

/-- Every normal form is captured at least as often as it was sent. -/
def Covers (originals rows : List Value) : Prop :=
  ∀ key ∈ originals, originals.countP (· == key) ≤ rows.countP (· == key)

/-- **What each row was turned into**: the message whose turn it is, or its text. -/
def Served (messages : List Json) (originals rows : List Value) (served : List Json) : Prop :=
  served.length = rows.length ∧
    (∀ i j, Turn originals rows i j → served[j]? = messages[i]?) ∧
    ∀ j, Excess originals rows j → ∃ row message, rows[j]? = some row ∧ restore row.1 = .ok message ∧
      served[j]? = some message

section

variable {messages : List Json} {originals rows : List Value}

/-- The line of the messages, by their places. -/
theorem zip_eq_map (h : messages.length = originals.length) :
    (originals.map Subtype.val).zip messages =
      (originals.zipIdx.map fun x => (x.1, messages.getD x.2 .null)).map fun x => (x.1.1, x.2) := by
  refine List.ext_getElem (by simp [h]) fun i hi hi' => ?_
  have hbound : i < messages.length := by
    simp at hi
    omega
  simp [List.getD_eq_getElem?_getD, List.getElem?_eq_getElem hbound]

theorem covers_iff (hself : ∀ key ∈ originals, (key == key) = true) :
    ((∀ x ∈ originals.zipIdx, (x.1 == x.1) = true) ∧
      ∀ row, size originals.zipIdx row ≤ rows.countP (· == row)) ↔ Covers originals rows := by
  constructor
  · rintro ⟨-, hsize⟩ key -
    have hcount := hsize key
    rwa [size_zipIdx] at hcount
  · intro h
    refine ⟨fun x hx => ?_, fun row => ?_⟩
    · exact hself x.1 (List.mem_of_getElem? (List.mem_zipIdx_iff_getElem?.1 hx))
    · rw [size_zipIdx]
      rcases Nat.eq_zero_or_pos (originals.countP (· == row)) with hzero | hpos
      · omega
      · obtain ⟨key, hkey, hbeq⟩ := List.countP_pos_iff.1 hpos
        rw [← countP_congr_of_beq hbeq, ← countP_congr_of_beq hbeq]
        exact h key hkey

/-- Every row has its turn or is in excess. -/
theorem turn_or_excess (originals : List Value) {j : ℕ} (hj : j < rows.length) :
    (∃ i, Turn originals rows i j) ∨ Excess originals rows j := by
  have hlt : j < (assign originals.zipIdx rows).1.length := by
    rw [assign_length]
    exact hj
  have hget := List.getElem?_eq_getElem hlt
  cases hgiven : (assign originals.zipIdx rows).1[j] with
  | some i =>
    rw [hgiven] at hget
    exact .inl ⟨i, assign_eq_some_iff.1 hget⟩
  | none =>
    rw [hgiven] at hget
    exact .inr (assign_eq_none_iff.1 hget)

theorem not_turn_of_excess {i j : ℕ} (h : Excess originals rows j) : ¬Turn originals rows i j := by
  intro hturn
  have hnone := assign_eq_none_iff.2 h
  rw [assign_eq_some_iff.2 hturn] at hnone
  cases hnone

/-- What is put back, and whether a message is left over: if every row in excess is
text. -/
theorem putBack_ok (hlength : messages.length = originals.length)
    (hself : ∀ key ∈ originals, (key == key) = true) (hwell : ∀ row ∈ rows, WellFormed row.1)
    (htext : ∀ j row, Excess originals rows j → rows[j]? = some row → TextOnly row.1) :
    ∃ served left, putBack ((originals.map Subtype.val).zip messages) (rows.map Subtype.val) =
      .ok (served, left) ∧ Served messages originals rows served ∧
      (left.isEmpty = true ↔ Covers originals rows) := by
  rw [zip_eq_map hlength, putBack_eq, assign_map fun i => messages.getD i .null]
  have hall : ∀ p ∈ rows.zip ((assign originals.zipIdx rows).1.map (Option.map fun i => messages.getD i .null)),
      ∃ message, serve p.1 p.2 = .ok message := by
    intro p hp
    obtain ⟨j, hj, rfl⟩ := List.getElem_of_mem hp
    rw [List.length_zip, List.length_map, assign_length, Nat.min_self] at hj
    have hassign : j < (assign originals.zipIdx rows).1.length := by rwa [assign_length]
    rw [List.getElem_zip, List.getElem_map]
    cases hgiven : (assign originals.zipIdx rows).1[j] with
    | some i => exact ⟨_, rfl⟩
    | none =>
      have hrow := List.getElem?_eq_getElem hj
      have hexcess : Excess originals rows j := by
        refine assign_eq_none_iff.1 ?_
        rw [List.getElem?_eq_getElem hassign, hgiven]
      exact (restore_ok_iff (hwell _ (List.getElem_mem hj))).2 (htext j _ hexcess hrow)
  rcases mapM_cases (fun p => serve p.1 p.2) (rows.zip ((assign originals.zipIdx rows).1.map
    (Option.map fun i => messages.getD i .null))) with ⟨-, served, hserved⟩ | ⟨p, hp, e, he, -⟩
  · rw [hserved]
    refine ⟨served, _, rfl, ?_, ?_⟩
    · have hforall := mapM_ok_iff.1 hserved
      have hcount : served.length = rows.length := by
        rw [← hforall.length_eq, List.length_zip, List.length_map, assign_length, Nat.min_self]
      -- what the row at `j` was turned into
      have hget : ∀ (j : ℕ) (given : Option ℕ), (assign originals.zipIdx rows).1[j]? = some given →
          ∃ row message, rows[j]? = some row ∧ served[j]? = some message ∧
            serve row (given.map fun i => messages.getD i .null) = .ok message := by
        intro j given hgiven
        have hj : j < rows.length := by
          have hlt := (List.getElem?_eq_some_iff.1 hgiven).1
          rwa [assign_length] at hlt
        refine ⟨rows[j], served[j], List.getElem?_eq_getElem hj, List.getElem?_eq_getElem (by omega), ?_⟩
        have hpair := hforall.get (i := j) (by simpa using hj) (by omega)
        rw [List.get_eq_getElem, List.get_eq_getElem, List.getElem_zip, List.getElem_map] at hpair
        rw [List.getElem?_eq_getElem (by simpa using hj)] at hgiven
        rw [← Option.some.inj hgiven]
        exact hpair
      refine ⟨hcount, fun i j hturn => ?_, fun j hexcess => ?_⟩
      · obtain ⟨row, message, -, hmessage, hserve⟩ := hget j _ (assign_eq_some_iff.2 hturn)
        obtain ⟨key, -, hkey, -⟩ := hturn
        have hi : i < messages.length := by
          rw [hlength]
          exact (List.getElem?_eq_some_iff.1 hkey).1
        have hgiven : messages.getD i .null = message := Except.ok.inj hserve
        rw [List.getD_eq_getElem?_getD, List.getElem?_eq_getElem hi, Option.getD_some] at hgiven
        rw [hmessage, List.getElem?_eq_getElem hi, hgiven]
      · obtain ⟨row, message, hrow, hmessage, hserve⟩ := hget j _ (assign_eq_none_iff.2 hexcess)
        exact ⟨row, message, hrow, hserve, hmessage⟩
    · rw [List.isEmpty_map, List.isEmpty_map, List.isEmpty_iff, assign_left_eq_nil, covers_iff hself]
  · obtain ⟨message, hok⟩ := hall p hp
    rw [hok] at he
    cases he

/-- A row in excess that is not text cannot be put back. -/
theorem putBack_error (hlength : messages.length = originals.length)
    (hwell : ∀ row ∈ rows, WellFormed row.1) {j : ℕ} {row : Value} (hexcess : Excess originals rows j)
    (hrow : rows[j]? = some row) (htext : ¬TextOnly row.1) :
    putBack ((originals.map Subtype.val).zip messages) (rows.map Subtype.val) = .error unsupported := by
  rw [zip_eq_map hlength, putBack_eq, assign_map fun i => messages.getD i .null]
  obtain ⟨hj, rfl⟩ := List.getElem?_eq_some_iff.1 hrow
  have hzip : j < (rows.zip ((assign originals.zipIdx rows).1.map
      (Option.map fun i => messages.getD i .null))).length := by
    rw [List.length_zip, List.length_map, assign_length, Nat.min_self]
    exact hj
  have hraise : serve (rows.zip ((assign originals.zipIdx rows).1.map
      (Option.map fun i => messages.getD i .null)))[j].1 (rows.zip ((assign originals.zipIdx rows).1.map
      (Option.map fun i => messages.getD i .null)))[j].2 = .error unsupported := by
    have hgiven := assign_eq_none_iff.2 hexcess
    rw [List.getElem?_eq_getElem (by simpa using hj)] at hgiven
    rw [List.getElem_zip, List.getElem_map, Option.some.inj hgiven]
    rcases restore_eq (hwell _ (List.getElem_mem hj)) with ⟨hok, -⟩ | ⟨-, herror⟩
    · exact absurd hok htext
    · exact herror
  rcases mapM_cases (fun p => serve p.1 p.2) (rows.zip ((assign originals.zipIdx rows).1.map
    (Option.map fun i => messages.getD i .null))) with ⟨hok, -⟩ | ⟨p, hp, e, he, hmapM⟩
  · obtain ⟨message, hmessage⟩ := hok _ (List.getElem_mem hzip)
    rw [hraise] at hmessage
    cases hmessage
  · -- whatever row raises first raises the same
    rw [hmapM]
    refine congrArg Except.error ?_
    obtain ⟨row, given⟩ := p
    cases given with
    | some message => cases he
    | none =>
      rcases restore_eq (hwell row (List.of_mem_zip hp).1) with ⟨-, role, text, hok⟩ | ⟨-, herror⟩
      · exact nomatch hok.symm.trans he
      · exact (Except.error.inj (herror.symm.trans he)).symm

end

/-! ### A route -/

section

variable {lib : Lib} {stage : Pair → List Json → Except Err Captures} {request : Payload} {pair : Pair}
  {messages instructions : List Json} {originals rows : List Value} {captures : Captures} {tier : Str}
  {captured : Payload}

theorem normalizeAll_ok {normalized : List Json} (h : normalizeAll lib request = .ok (messages, normalized)) :
    List.Forall₂ (fun message row => normalize lib message = .ok row) messages normalized := by
  unfold normalizeAll at h
  split at h
  · cases h
  · cases h
  · cases h
  · cases hitem : item (.obj request) "messages" with
    | error e =>
      rw [hitem, error_bind] at h
      cases h
    | ok value =>
      rw [hitem, ok_bind] at h
      cases hiterate : iterate value with
      | error e =>
        rw [hiterate, error_bind] at h
        cases h
      | ok xs =>
        rw [hiterate, ok_bind] at h
        cases hmapM : xs.mapM (normalize lib) with
        | error e =>
          rw [hmapM, error_bind] at h
          cases h
        | ok ys =>
          rw [hmapM] at h
          obtain ⟨rfl, rfl⟩ := Prod.mk.inj (Except.ok.inj h)
          exact mapM_ok_iff.1 hmapM

/-- A normal form is an object. -/
theorem obj_of_normalize {message row : Json} (h : normalize lib message = .ok row) :
    ∃ fields, row = .obj fields := by
  cases message with
  | obj message =>
    obtain ⟨role, -, h⟩ := bind_ok h
    obtain ⟨blocks, -, h⟩ := bind_ok h
    obtain ⟨calls, -, h⟩ := bind_ok h
    split at h
    · obtain ⟨result, -, h⟩ := bind_ok h
      exact ⟨_, (Except.ok.inj h).symm⟩
    · exact ⟨_, (Except.ok.inj h).symm⟩
  | _ => cases h

/-- The normal forms of the messages are no NaNs: each equals itself. -/
theorem forms_self (hnormal : normalizeAll lib request = .ok (messages, originals.map Subtype.val)) :
    ∀ key ∈ originals, (key == key) = true := by
  intro key hkey
  obtain ⟨message, -, hform⟩ :=
    exists_related (normalizeAll_ok hnormal).flip (List.mem_map.2 ⟨key, hkey, rfl⟩)
  obtain ⟨fields, hfields⟩ := obj_of_normalize hform
  exact Json.pyEq_self key.2 (by rw [hfields]; rfl)

/-- A route that captured one request turns its messages back. -/
theorem route_eq (hnormal : normalizeAll lib request = .ok (messages, originals.map Subtype.val))
    (hstage : stage pair (originals.map Subtype.val) = .ok captures)
    (hselected : selected captures = .ok (tier, captured)) :
    route lib stage request pair =
      ((rewritten messages (originals.map Subtype.val) captured).mapError Err.exc >>= fun output =>
        .ok ⟨tier, request.set (lit "messages") (.list output)⟩ : Except Err RoutingResult).mapError
          routingFailed := by
  unfold route
  rw [hnormal]
  change ((stage pair (originals.map Subtype.val) >>= fun captures =>
    (selected captures).mapError Err.exc >>= fun chosen =>
    (rewritten messages (originals.map Subtype.val) chosen.2).mapError Err.exc >>= fun output =>
    .ok ⟨chosen.1, request.set (lit "messages") (.list output)⟩ : Except Err RoutingResult).mapError
      routingFailed) = _
  rw [hstage]
  change (((selected captures).mapError Err.exc >>= _ : Except Err RoutingResult).mapError routingFailed) = _
  rw [hselected]
  rfl

theorem rewritten_eq (hinstructions : (captured.lookup (lit "instructions")).getD (.list []) = .list instructions)
    (hrows : captured.lookup (lit "messages") = some (.list (rows.map Subtype.val))) :
    rewritten messages (originals.map Subtype.val) captured =
      instructions.mapM restore >>= fun generated =>
      putBack ((originals.map Subtype.val).zip messages) (rows.map Subtype.val) >>= fun r =>
      if r.2.isEmpty = true then .ok (generated ++ r.1) else .error unsupported := by
  unfold rewritten
  rw [hinstructions]
  change (instructions.mapM restore >>= fun generated => item (.obj captured) "messages" >>= _) = _
  rw [item, hrows]
  rfl

/-- The condition under which every captured row can be turned back. -/
def Restorable (originals rows : List Value) (instructions : List Json) : Prop :=
  (∀ row ∈ instructions, TextOnly row) ∧
    ∀ j row, Excess originals rows j → rows[j]? = some row → TextOnly row.1

/-- **What a route returns**, and when. -/
theorem route_cases (hnormal : normalizeAll lib request = .ok (messages, originals.map Subtype.val))
    (hstage : stage pair (originals.map Subtype.val) = .ok captures)
    (hselected : selected captures = .ok (tier, captured))
    (hinstructions : (captured.lookup (lit "instructions")).getD (.list []) = .list instructions)
    (hrows : captured.lookup (lit "messages") = some (.list (rows.map Subtype.val)))
    (hinstruction : ∀ row ∈ instructions, WellFormed row) (hwell : ∀ row ∈ rows, WellFormed row.1) :
    (Covers originals rows ∧ Restorable originals rows instructions ∧ ∃ generated served,
      route lib stage request pair = .ok ⟨tier, request.set (lit "messages") (.list (generated ++ served))⟩ ∧
      List.Forall₂ (fun row message => restore row = .ok message) instructions generated ∧
      Served messages originals rows served) ∨
    ¬(Covers originals rows ∧ Restorable originals rows instructions) ∧
      route lib stage request pair = .error (.exc unsupported) := by
  have hlength : messages.length = originals.length := by
    rw [(normalizeAll_ok hnormal).length_eq, List.length_map]
  rw [route_eq hnormal hstage hselected, rewritten_eq hinstructions hrows]
  rcases mapM_cases restore instructions with ⟨hok, generated, hgenerated⟩ | ⟨row, hrow, e, he, hmapM⟩
  · rw [hgenerated, ok_bind]
    have htexts : ∀ row ∈ instructions, TextOnly row := fun row hrow =>
      (restore_ok_iff (hinstruction row hrow)).1 (hok row hrow)
    by_cases htext : ∀ j row, Excess originals rows j → rows[j]? = some row → TextOnly row.1
    · obtain ⟨served, left, hputBack, hserved, hleft⟩ := putBack_ok hlength (forms_self hnormal) hwell htext
      rw [hputBack, ok_bind]
      by_cases hcovers : Covers originals rows
      · rw [if_pos (hleft.2 hcovers)]
        exact .inl ⟨hcovers, ⟨htexts, htext⟩, generated, served, rfl, mapM_ok_iff.1 hgenerated, hserved⟩
      · rw [if_neg fun h => hcovers (hleft.1 h)]
        exact .inr ⟨fun h => hcovers h.1, rfl⟩
    · have hexcess : ∃ j row, Excess originals rows j ∧ rows[j]? = some row ∧ ¬TextOnly row.1 := by
        by_contra hno
        refine htext fun j row hexcess hrow => ?_
        by_contra hnot
        exact hno ⟨j, row, hexcess, hrow, hnot⟩
      obtain ⟨j, row, hexcess, hrow, hnot⟩ := hexcess
      rw [putBack_error hlength hwell hexcess hrow hnot, error_bind]
      exact .inr ⟨fun h => htext h.2.2, rfl⟩
  · rw [hmapM, error_bind]
    rcases restore_eq (hinstruction row hrow) with ⟨-, role, text, hok⟩ | ⟨hnot, herror⟩
    · exact nomatch hok.symm.trans he
    · obtain rfl := Except.error.inj (herror.symm.trans he)
      exact .inr ⟨fun h => hnot (h.2.1 row hrow), rfl⟩

/-- **Nothing is lost**: the messages are among the output, each at a row of its normal
form, and what else is there is text. -/
structure Restored (messages : List Json) (originals rows : List Value) (instructions output : List Json) :
    Prop where
  /-- One message for each instruction and each captured row. -/
  length : output.length = instructions.length + rows.length
  /-- Each message is at a row of its normal form, and no two are at one row. -/
  placed : ∃ place : ℕ → ℕ,
    (∀ i message, messages[i]? = some message → ∃ key row, originals[i]? = some key ∧
      rows[place i]? = some row ∧ (key == row) = true ∧
      output[instructions.length + place i]? = some message) ∧
    (∀ i i', i < messages.length → i' < messages.length → place i = place i' → i = i') ∧
    (∀ i i' key key', originals[i]? = some key → originals[i']? = some key' → (key == key') = true →
      i < i' → place i < place i') ∧
    ∀ p message, output[p]? = some message → (∀ i < messages.length, p ≠ instructions.length + place i) →
      ∃ row role text, (instructions ++ rows.map Subtype.val)[p]? = some row ∧
        restore row = .ok message ∧ message = textMessage role text

/-- Where the turn of a message comes. -/
theorem Covers.exists_place (hself : ∀ key ∈ originals, (key == key) = true) (hcovers : Covers originals rows) :
    ∃ place : ℕ → ℕ, ∀ i < originals.length, Turn originals rows i (place i) := by
  have hturn : ∀ i, ∃ j, i < originals.length → Turn originals rows i j := by
    intro i
    by_cases hi : i < originals.length
    · have hkey := List.getElem?_eq_getElem hi
      have hmem := List.getElem_mem hi
      obtain ⟨j, hj⟩ := exists_turn hkey (hself _ hmem) (hcovers _ hmem)
      exact ⟨j, fun _ => hj⟩
    · exact ⟨0, fun h => absurd h hi⟩
  choose place hplace using hturn
  exact ⟨place, hplace⟩

theorem restored_of_served {generated served : List Json} (hlength : messages.length = originals.length)
    (hself : ∀ key ∈ originals, (key == key) = true)
    (hwell : ∀ row ∈ instructions ++ rows.map Subtype.val, WellFormed row) (hcovers : Covers originals rows)
    (hgenerated : List.Forall₂ (fun row message => restore row = .ok message) instructions generated)
    (hserved : Served messages originals rows served) :
    Restored messages originals rows instructions (generated ++ served) := by
  obtain ⟨hcount, hturns, hexcesses⟩ := hserved
  have hgeneratedLength := hgenerated.length_eq
  obtain ⟨place, hplace⟩ := hcovers.exists_place hself
  -- whatever is restored is a text
  have htext : ∀ {p : ℕ} {row message : Json}, (instructions ++ rows.map Subtype.val)[p]? = some row →
      restore row = .ok message → ∃ row role text, (instructions ++ rows.map Subtype.val)[p]? = some row ∧
        restore row = .ok message ∧ message = textMessage role text := by
    intro p row message hrow hok
    rcases restore_eq (hwell row (List.mem_of_getElem? hrow)) with ⟨-, role, text, htext⟩ | ⟨-, herror⟩
    · exact ⟨row, role, text, hrow, hok, Except.ok.inj (hok.symm.trans htext)⟩
    · exact nomatch hok.symm.trans herror
  refine ⟨by rw [List.length_append, hcount, hgeneratedLength], place, fun i message hmessage => ?_,
    fun i i' hi hi' heq => ?_, fun i i' key key' hkey hkey' hbeq hlt => ?_, fun p message hmessage hother => ?_⟩
  · have hi : i < originals.length := by
      rw [← hlength]
      exact (List.getElem?_eq_some_iff.1 hmessage).1
    have hturn := hplace i hi
    have hget := hturns i _ hturn
    obtain ⟨key, row, hkey, hrow, hbeq, -⟩ := hturn
    refine ⟨key, row, hkey, hrow, hbeq, ?_⟩
    rw [hgeneratedLength, List.getElem?_append_right (Nat.le_add_right ..), Nat.add_sub_cancel_left, hget, hmessage]
  · have hturn := hplace i (hlength ▸ hi)
    rw [heq] at hturn
    exact hturn.source_inj (hplace i' (hlength ▸ hi'))
  · exact (hplace i (List.getElem?_eq_some_iff.1 hkey).1).lt
      (hplace i' (List.getElem?_eq_some_iff.1 hkey').1) hkey hkey' hbeq hlt
  · rcases Nat.lt_or_ge p generated.length with hp | hp
    · have hp' : p < instructions.length := hgeneratedLength ▸ hp
      rw [List.getElem?_append_left hp] at hmessage
      have hrow : (instructions ++ rows.map Subtype.val)[p]? = some instructions[p] := by
        rw [List.getElem?_append_left hp', List.getElem?_eq_getElem hp']
      refine htext hrow ?_
      have hok := hgenerated.get (i := p) hp' hp
      rw [List.getElem?_eq_getElem hp] at hmessage
      rw [← Option.some.inj hmessage]
      exact hok
    · rw [List.getElem?_append_right hp] at hmessage
      have hj : p - generated.length < rows.length := by
        rw [← hcount]
        exact (List.getElem?_eq_some_iff.1 hmessage).1
      rcases turn_or_excess originals hj with ⟨i, hturn⟩ | hexcess
      · have hi : i < originals.length := by
          obtain ⟨key, -, hkey, -⟩ := hturn
          exact (List.getElem?_eq_some_iff.1 hkey).1
        have hplaced := (hplace i hi).row_inj hturn
        exact absurd (by omega) (hother i (hlength ▸ hi))
      · obtain ⟨row, message', hrow, hok, hget⟩ := hexcesses _ hexcess
        obtain rfl := Option.some.inj (hmessage.symm.trans hget)
        have hcaptured : (instructions ++ rows.map Subtype.val)[p]? = some row.1 := by
          rw [List.getElem?_append_right (by omega), hgeneratedLength, List.getElem?_map, hrow, Option.map_some]
        exact htext hcaptured hok

/-- **Routing loses no message.**  With one captured request, a route succeeds if and
only if every normal form is captured as often as it was sent, and the instructions
and whatever is captured beyond that are text; otherwise it raises a `GatewayError`. -/
theorem route_exact (lib : Lib) (stage : Pair → List Json → Except Err Captures) (request : Payload)
    (pair : Pair) (messages instructions : List Json) (originals rows : List Value) (captures : Captures)
    (tier : Str) (captured : Payload)
    (hnormal : normalizeAll lib request = .ok (messages, originals.map Subtype.val))
    (hstage : stage pair (originals.map Subtype.val) = .ok captures)
    (hselected : selected captures = .ok (tier, captured))
    (hinstructions : (captured.lookup (lit "instructions")).getD (.list []) = .list instructions)
    (hrows : captured.lookup (lit "messages") = some (.list (rows.map Subtype.val)))
    (hwell : ∀ row ∈ instructions ++ rows.map Subtype.val, WellFormed row) :
    ((∃ result, route lib stage request pair = .ok result) ↔
      Covers originals rows ∧ Restorable originals rows instructions) ∧
    (∀ e, route lib stage request pair = .error e → ∃ code status, e = gatewayError code status) ∧
    ∀ result, route lib stage request pair = .ok result → result.tier = tier ∧
      ∃ output, result.request = request.set (lit "messages") (.list output) ∧
        Restored messages originals rows instructions output := by
  have hlength : messages.length = originals.length := by
    rw [(normalizeAll_ok hnormal).length_eq, List.length_map]
  have hinstruction : ∀ row ∈ instructions, WellFormed row := fun row hrow =>
    hwell row (List.mem_append_left _ hrow)
  have hcapturedRow : ∀ row ∈ rows, WellFormed row.1 := fun row hrow =>
    hwell row.1 (List.mem_append_right _ (List.mem_map.2 ⟨row, hrow, rfl⟩))
  rcases route_cases hnormal hstage hselected hinstructions hrows hinstruction hcapturedRow with
    ⟨hcovers, hrestorable, generated, served, hroute, hgenerated, hserved⟩ | ⟨hno, hroute⟩
  · refine ⟨⟨fun _ => ⟨hcovers, hrestorable⟩, fun _ => ⟨_, hroute⟩⟩, fun e he => ?_, fun result hresult => ?_⟩
    · exact nomatch hroute.symm.trans he
    · obtain rfl := Except.ok.inj (hroute.symm.trans hresult)
      exact ⟨rfl, _, rfl, restored_of_served hlength (forms_self hnormal) hwell hcovers hgenerated hserved⟩
  · refine ⟨⟨?_, fun h => absurd h hno⟩, fun e he => ?_, fun result hresult => ?_⟩
    · rintro ⟨result, hresult⟩
      exact nomatch hroute.symm.trans hresult
    · exact ⟨_, _, (Except.error.inj (hroute.symm.trans he)).symm⟩
    · exact nomatch hroute.symm.trans hresult

end

namespace Demo

/-- A user's message, and one with a name. -/
def message (text : String) : Json :=
  .obj [(lit "role", .str (lit "user")), (lit "content", .str (lit text))]

def named (text : String) : Json :=
  .obj [(lit "role", .str (lit "user")), (lit "content", .str (lit text)), (lit "name", .str (lit "n"))]

/-- The normal form of either. -/
def form (text : String) : Value :=
  ⟨.obj [(lit "role", .str (lit "user")), (lit "content", .list [textBlock (.str (lit text))])], rfl⟩

/-- Two messages, the second one with a name. -/
def conversation : Payload :=
  [(lit "model", .str (lit "pair")), (lit "messages", .list [message "a", named "b"])]

/-- A library that picks the efficient tier and sends `rows`. -/
def captured (rows : List Value) : Payload := [(lit "messages", .list (rows.map Subtype.val))]

def picks (rows : List Value) (_ : Pair) (_ : List Json) : Except Err Captures := .ok ⟨[], [captured rows]⟩

def pair : Pair := ⟨lit "pair", lit "m", lit "m"⟩

theorem normalizes : normalizeAll Application.Demo.lib conversation =
    .ok ([message "a", named "b"], [form "a", form "b"].map Subtype.val) := by
  rfl

theorem form_wellFormed (text : String) : WellFormed (form text).1 :=
  ⟨⟨_, _, rfl, rfl, rfl⟩, List.forall_mem_singleton.2 ⟨_, rfl, fun _ => ⟨_, rfl⟩⟩⟩

theorem form_textOnly (text : String) : TextOnly (form text).1 := List.forall_mem_singleton.2 rfl

end Demo

/-- Rows in another order, and one more. -/
theorem reordered_restored :
    ((∃ result, route Application.Demo.lib (Demo.picks [Demo.form "b", Demo.form "c", Demo.form "a"])
      Demo.conversation Demo.pair = .ok result) ↔
      Covers [Demo.form "a", Demo.form "b"] [Demo.form "b", Demo.form "c", Demo.form "a"] ∧
        Restorable [Demo.form "a", Demo.form "b"] [Demo.form "b", Demo.form "c", Demo.form "a"] []) ∧
    (∀ e, route Application.Demo.lib (Demo.picks [Demo.form "b", Demo.form "c", Demo.form "a"])
      Demo.conversation Demo.pair = .error e → ∃ code status, e = gatewayError code status) ∧
    ∀ result, route Application.Demo.lib (Demo.picks [Demo.form "b", Demo.form "c", Demo.form "a"])
      Demo.conversation Demo.pair = .ok result → result.tier = lit "efficient" ∧
        ∃ output, result.request = Demo.conversation.set (lit "messages") (.list output) ∧
          Restored [Demo.message "a", Demo.named "b"] [Demo.form "a", Demo.form "b"]
            [Demo.form "b", Demo.form "c", Demo.form "a"] [] output := by
  refine route_exact Application.Demo.lib _ Demo.conversation Demo.pair _ [] _ _ _ (lit "efficient")
    (Demo.captured [Demo.form "b", Demo.form "c", Demo.form "a"]) Demo.normalizes rfl rfl rfl rfl fun row hrow => ?_
  obtain ⟨row, hmem, rfl⟩ := List.mem_map.1 hrow
  fin_cases hmem
  · exact Demo.form_wellFormed "b"
  · exact Demo.form_wellFormed "c"
  · exact Demo.form_wellFormed "a"

end Switchyard
end SwitchyardGateway
