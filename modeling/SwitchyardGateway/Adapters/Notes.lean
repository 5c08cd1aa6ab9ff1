/-
# Notes among the messages

The library may add notes of its own to a conversation: rows of text, anywhere among
the normal forms of the messages (`Noted`).  Such a request can be turned back, with
every message in it.  A row is attributed by what it says, though: a note that equals
the normal form of a message takes the turn of that message, and if a message that
was sent earlier has its turn later, the two come back out of order.

A message that is nothing but a role and a text (`Bare`) is not missed: any row with
that text reads like it.  So the order is kept if and only if the captured rows hold the
conversation in order, with no note ahead of a message that has more to it and equals
the note in its normal form (`Undisturbed`, `notes_keep_order_iff`).
-/

import SwitchyardGateway.Adapters.Restoration
import Mathlib.Data.Fintype.EquivFin

namespace SwitchyardGateway
namespace Switchyard

open Python Application Matching

/-! ### Equal rows read alike -/

theorem isText_congr {v w : Value} (h : v.1.itemEq w.1 = true) : isText v.1 = isText w.1 := by
  have hone : ∀ {v w : Value}, v.1.itemEq w.1 = true → isText v.1 = true → isText w.1 = true := by
    rintro ⟨v, hv⟩ ⟨w, hw⟩ heq htext
    cases v with
    | obj block =>
      obtain ⟨block', rfl⟩ := Json.obj_of_itemEq heq
      change (get block "type").pyEq _ = true at htext
      change (get block' "type").pyEq _ = true
      rw [Json.pyEq_str_iff, Application.get] at htext ⊢
      rcases Json.lookup_of_itemEq hv heq (lit "type") with ⟨hnone, -⟩ | ⟨x, y, hx, hy, hxy⟩
      · rw [hnone] at htext
        cases htext
      · rw [hx, Option.getD_some] at htext
        rw [htext, Json.str_itemEq_iff] at hxy
        rw [hy, Option.getD_some, hxy]
    | _ => cases htext
  cases htext : isText w.1 with
  | true => exact hone (Json.itemEq_symm v.2 w.2 h) htext
  | false =>
    refine Bool.eq_false_iff.2 fun hv => ?_
    rw [hone h hv] at htext
    cases htext

theorem IsBlock.congr {v w : Value} (h : v.1.itemEq w.1 = true) (hv : IsBlock v.1) : IsBlock w.1 := by
  obtain ⟨fields, hfields, htext⟩ := hv
  obtain ⟨v, hproper⟩ := v
  obtain rfl : v = .obj fields := hfields
  obtain ⟨fields', hfields'⟩ := Json.obj_of_itemEq h
  refine ⟨fields', hfields', fun hw => ?_⟩
  obtain ⟨text, hlookup⟩ := htext ((isText_congr h).trans hw)
  have heq : (Json.obj fields).itemEq (.obj fields') = true := hfields' ▸ h
  rcases Json.lookup_of_itemEq hproper heq (lit "text") with ⟨hnone, -⟩ | ⟨x, y, hx, hy, hxy⟩
  · rw [hlookup] at hnone
    cases hnone
  · rw [hlookup] at hx
    obtain rfl := Option.some.inj hx
    rw [Json.str_itemEq_iff] at hxy
    exact ⟨text, hxy ▸ hy⟩

/-- The blocks of a row equal those of a row it equals. -/
theorem exists_block {v w : Value} (h : (v == w) = true) (hv : WellFormed v.1) :
    (∃ fields role, w.1 = .obj fields ∧ fields.lookup (lit "role") = some role ∧
      (fields.lookup (lit "content")).getD (.list []) = .list (blocksOf w.1)) ∧
    ∀ y ∈ blocksOf w.1, ∃ x y' : Value, y'.1 = y ∧ x.1 ∈ blocksOf v.1 ∧ x.1.itemEq y'.1 = true := by
  replace h := itemEq_of_beq h
  obtain ⟨⟨fields, role, hfields, hrole, hcontent⟩, -⟩ := hv
  obtain ⟨v, hproper⟩ := v
  obtain ⟨w, hproper'⟩ := w
  obtain rfl : v = .obj fields := hfields
  obtain ⟨fields', rfl⟩ := Json.obj_of_itemEq h
  obtain ⟨role', hrole'⟩ : ∃ role', fields'.lookup (lit "role") = some role' := by
    rcases Json.lookup_of_itemEq hproper h (lit "role") with ⟨hnone, -⟩ | ⟨x, y, -, hy, -⟩
    · rw [hrole] at hnone
      cases hnone
    · exact ⟨y, hy⟩
  rcases Json.lookup_of_itemEq hproper h (lit "content") with ⟨-, hnone'⟩ | ⟨x, y, hx, hy, hxy⟩
  · have hblocks : blocksOf (.obj fields') = [] := by
      rw [blocksOf, hnone']
      rfl
    refine ⟨⟨fields', role', rfl, hrole', ?_⟩, fun y hy => ?_⟩
    · rw [hblocks, hnone']
      rfl
    · rw [hblocks] at hy
      cases hy
  · rw [hx, Option.getD_some] at hcontent
    have hx' := hproper.of_lookup hx
    have hy' := hproper'.of_lookup hy
    rw [hcontent] at hxy hx'
    obtain ⟨ys, rfl, hall⟩ := Json.list_of_itemEq hxy
    rw [Json.proper_list] at hx' hy'
    have hblocks : blocksOf (.obj fields') = ys := by
      rw [blocksOf, hy]
      rfl
    refine ⟨⟨fields', role', rfl, hrole', ?_⟩, fun y hmem => ?_⟩
    · rw [hblocks, hy]
      rfl
    · rw [hblocks] at hmem
      obtain ⟨i, hi, rfl⟩ := List.getElem_of_mem hmem
      have hi' : i < (blocksOf (.obj fields)).length := hall.length_eq ▸ hi
      exact ⟨⟨_, hx' _ (List.getElem_mem hi')⟩, ⟨_, hy' _ hmem⟩, rfl, List.getElem_mem hi', hall.get hi' hi⟩

theorem WellFormed.congr {v w : Value} (h : (v == w) = true) (hv : WellFormed v.1) : WellFormed w.1 := by
  obtain ⟨hrow, hblocks⟩ := exists_block h hv
  refine ⟨hrow, fun y hy => ?_⟩
  obtain ⟨x, y', rfl, hx, hxy⟩ := hblocks y hy
  exact IsBlock.congr hxy (hv.blocks _ hx)

theorem TextOnly.congr {v w : Value} (h : (v == w) = true) (hv : WellFormed v.1) (htext : TextOnly v.1) :
    TextOnly w.1 := by
  obtain ⟨-, hblocks⟩ := exists_block h hv
  intro y hy
  obtain ⟨x, y', rfl, hx, hxy⟩ := hblocks y hy
  rw [← isText_congr hxy]
  exact htext _ hx

/-! ### Normal forms are well formed -/

theorem isBlock_textBlock (text : Str) : IsBlock (textBlock (.str text)) :=
  ⟨_, rfl, fun _ => ⟨text, rfl⟩⟩

theorem isBlock_of_content {value : Json} {blocks : List Json} (h : content value = .ok blocks) :
    ∀ block ∈ blocks, IsBlock block := by
  unfold content at h
  split at h
  · cases h
    rintro _ ⟨⟩
  · cases h
    rename_i text
    rw [List.forall_mem_singleton]
    exact isBlock_textBlock text
  · rename_i xs
    split at h
    · rename_i hall
      obtain rfl := Except.ok.inj h
      intro block hblock
      obtain ⟨x, hx, rfl⟩ := List.mem_map.1 hblock
      have htext := List.all_eq_true.1 hall x hx
      unfold Ingress.isTextBlock at htext
      split at htext
      · rename_i fields
        rw [Bool.and_eq_true] at htext
        cases hget : get fields "text" with
        | str text =>
          rw [plainBlock, hget]
          exact isBlock_textBlock text
        | _ =>
          rw [hget] at htext
          exact Bool.noConfusion htext.2
      · cases htext
    · cases h
  · cases h

theorem isBlock_of_normalizeCall {lib : Lib} {call block : Json} (h : normalizeCall lib call = .ok block) :
    IsBlock block := by
  obtain ⟨function, -, h⟩ := bind_ok h
  obtain ⟨text, -, h⟩ := bind_ok h
  obtain ⟨arguments, -, h⟩ := bind_ok h
  split at h
  · obtain ⟨id, -, h⟩ := bind_ok h
    obtain ⟨function', -, h⟩ := bind_ok h
    obtain ⟨name, -, h⟩ := bind_ok h
    obtain rfl := Except.ok.inj h
    exact ⟨_, rfl, nofun⟩
  · cases h

theorem isBlock_of_callBlocks {lib : Lib} {role : Json} {message : Payload} {blocks : List Json}
    (h : callBlocks lib role message = .ok blocks) : ∀ block ∈ blocks, IsBlock block := by
  unfold callBlocks at h
  split at h
  · obtain ⟨calls, -, h⟩ := bind_ok h
    have hall := mapM_ok_iff.1 h
    intro block hblock
    obtain ⟨i, hi, rfl⟩ := List.getElem_of_mem hblock
    exact isBlock_of_normalizeCall (hall.get (hall.length_eq ▸ hi) hi)
  · obtain rfl := Except.ok.inj h
    rintro _ ⟨⟩

/-- **The normal form of a message is well formed.** -/
theorem wellFormed_of_normalize {lib : Lib} {message row : Json} (h : normalize lib message = .ok row) :
    WellFormed row := by
  cases message with
  | obj message =>
    obtain ⟨role, -, h⟩ := bind_ok h
    obtain ⟨blocks, hblocks, h⟩ := bind_ok h
    obtain ⟨calls, hcalls, h⟩ := bind_ok h
    have hwell : ∀ blocks, (∀ block ∈ blocks, IsBlock block) →
        WellFormed (.obj [(lit "role", role), (lit "content", .list blocks)]) := fun blocks hblocks =>
      ⟨⟨_, role, rfl, rfl, rfl⟩, hblocks⟩
    split at h
    · obtain ⟨result, hresult, h⟩ := bind_ok h
      obtain ⟨id, -, hresult⟩ := bind_ok hresult
      obtain rfl := Except.ok.inj hresult
      obtain rfl := Except.ok.inj h
      refine hwell _ ?_
      rw [List.forall_mem_singleton]
      exact ⟨_, rfl, nofun⟩
    · obtain rfl := Except.ok.inj h
      refine hwell _ fun block hblock => ?_
      rcases List.mem_append.1 hblock with hblock | hblock
      · exact isBlock_of_content hblocks block hblock
      · exact isBlock_of_callBlocks hcalls block hblock
  | _ => cases h

/-! ### Notes among the normal forms -/

/-- The normal forms, in order, with rows of text anywhere among them. -/
inductive Noted : List Value → List Value → Prop
  | nil : Noted [] []
  | original {key row : Value} {keys rows : List Value} (h : (key == row) = true) :
    Noted keys rows → Noted (key :: keys) (row :: rows)
  | note {row : Value} {keys rows : List Value} (hwell : WellFormed row.1) (htext : TextOnly row.1) :
    Noted keys rows → Noted keys (row :: rows)

section

variable {keys rows : List Value}

theorem Noted.self (h : Noted keys rows) : ∀ key ∈ keys, (key == key) = true := by
  induction h with
  | nil => exact nofun
  | original hbeq _ ih => exact List.forall_mem_cons.2 ⟨BEq.trans hbeq (BEq.symm hbeq), ih⟩
  | note _ _ _ ih => exact ih

theorem Noted.wellFormed (h : Noted keys rows) (hkeys : ∀ key ∈ keys, WellFormed key.1) :
    ∀ row ∈ rows, WellFormed row.1 := by
  induction h with
  | nil => exact nofun
  | original hbeq _ ih =>
    rw [List.forall_mem_cons] at hkeys ⊢
    exact ⟨hkeys.1.congr hbeq, ih hkeys.2⟩
  | note hwell _ _ ih => exact List.forall_mem_cons.2 ⟨hwell, ih hkeys⟩

theorem Noted.countP_le (h : Noted keys rows) (row : Value) :
    keys.countP (· == row) ≤ rows.countP (· == row) := by
  induction h with
  | nil => exact Nat.le_refl _
  | @original key row' keys rows hbeq _ ih =>
    have hcongr : (key == row) = (row' == row) := BEq.congr_left hbeq
    rw [List.countP_cons, List.countP_cons, hcongr]
    omega
  | note _ _ _ ih =>
    rw [List.countP_cons]
    omega

/-- A row that is captured more often than it was sent has been noted. -/
theorem Noted.exists_note (h : Noted keys rows) {row : Value}
    (hlt : keys.countP (· == row) < rows.countP (· == row)) :
    ∃ note ∈ rows, WellFormed note.1 ∧ TextOnly note.1 ∧ (note == row) = true := by
  induction h with
  | nil => exact absurd hlt (lt_irrefl _)
  | @original key row' keys rows hbeq _ ih =>
    have hcongr : (key == row) = (row' == row) := BEq.congr_left hbeq
    rw [List.countP_cons, List.countP_cons, hcongr] at hlt
    obtain ⟨note, hmem, hnote⟩ := ih (by omega)
    exact ⟨note, List.mem_cons_of_mem _ hmem, hnote⟩
  | @note row' keys rows hwell htext _ ih =>
    by_cases hbeq : (row' == row) = true
    · exact ⟨row', List.mem_cons_self .., hwell, htext, hbeq⟩
    · rw [List.countP_cons, if_neg hbeq, Nat.add_zero] at hlt
      obtain ⟨note, hmem, hnote⟩ := ih hlt
      exact ⟨note, List.mem_cons_of_mem _ hmem, hnote⟩

theorem Noted.text_or_self (h : Noted keys rows) : ∀ row ∈ rows, TextOnly row.1 ∨ (row == row) = true := by
  induction h with
  | nil => exact nofun
  | original hbeq _ ih => exact List.forall_mem_cons.2 ⟨.inr (BEq.trans (BEq.symm hbeq) hbeq), ih⟩
  | note _ htext _ ih => exact List.forall_mem_cons.2 ⟨.inl htext, ih⟩

theorem Noted.covers (h : Noted keys rows) : Covers keys rows := fun key _ => h.countP_le key

/-- What is captured beyond the normal forms is text, whichever row it is. -/
theorem Noted.text_of_excess (h : Noted keys rows) {j : ℕ} {row : Value} (hexcess : Excess keys rows j)
    (hrow : rows[j]? = some row) : TextOnly row.1 := by
  rcases h.text_or_self row (List.mem_of_getElem? hrow) with htext | hself
  · exact htext
  · obtain ⟨row', hrow', hle⟩ := hexcess
    obtain rfl := Option.some.inj (hrow.symm.trans hrow')
    have hbefore := countP_take_lt hrow hself (List.getElem?_eq_some_iff.1 hrow).1
    rw [List.take_length] at hbefore
    obtain ⟨note, -, hwell, htext, hbeq⟩ := h.exists_note (lt_of_le_of_lt hle hbefore)
    exact htext.congr hbeq hwell

end

/-! ### The order of the messages -/

section

variable {messages instructions : List Json} {originals rows : List Value}

/-- The `p`-th captured row, instructions first, reads as the `i`-th message: the turn
of that message comes there, or of one that is the same, or nobody's does and the
message is a bare text with the text of the row. -/
def ReadsAs (messages instructions : List Json) (originals rows : List Value) (p i : ℕ) : Prop :=
  (∃ j k, p = instructions.length + j ∧ Turn originals rows k j ∧ messages[k]? = messages[i]?) ∨
    ∃ row message, (instructions ++ rows.map Subtype.val)[p]? = some row ∧
      (∀ j, p = instructions.length + j → Excess originals rows j) ∧ restore row = .ok message ∧
      messages[i]? = some message

/-- The messages can be read off the captured rows in their order. -/
def InOrder (messages instructions : List Json) (originals rows : List Value) : Prop :=
  ∃ f : Fin messages.length → ℕ, StrictMono f ∧ ∀ i, ReadsAs messages instructions originals rows (f i) i

/-- A message that comes before another has its turn before it. -/
def TurnsInOrder (originals rows : List Value) : Prop :=
  ∀ i i' j j', i < i' → Turn originals rows i j → Turn originals rows i' j' → j < j'

/-- A message that is a role and a text, and nothing else. -/
def Bare (message : Json) : Prop := ∃ role text, message = textMessage role text

/-- The `p`-th captured row, instructions first, holds the `i`-th message: it has the text
of a bare one.  Any other one it equals in its normal form, and as many rows before it
equal that form as messages before the `i`-th do: no note has got ahead of it. -/
structure Holds (messages instructions : List Json) (originals rows : List Value) (p i : ℕ) : Prop where
  bare : ∀ message, messages[i]? = some message → Bare message →
    ∃ row, (instructions ++ rows.map Subtype.val)[p]? = some row ∧ restore row = .ok message
  other : ∀ message, messages[i]? = some message → ¬Bare message →
    ∃ j, p = instructions.length + j ∧ Turn originals rows i j

/-- The captured rows hold the messages in their order. -/
def Undisturbed (messages instructions : List Json) (originals rows : List Value) : Prop :=
  ∃ f : Fin messages.length → ℕ, StrictMono f ∧ ∀ i, Holds messages instructions originals rows (f i) i

theorem readsAs_iff {generated served : List Json}
    (hgenerated : List.Forall₂ (fun row message => restore row = .ok message) instructions generated)
    (hserved : Served messages originals rows served) {p i : ℕ} (hi : i < messages.length) :
    (generated ++ served)[p]? = messages[i]? ↔ ReadsAs messages instructions originals rows p i := by
  obtain ⟨hcount, hturns, hexcesses⟩ := hserved
  have hgeneratedLength := hgenerated.length_eq
  have hmessage := List.getElem?_eq_getElem hi
  rcases Nat.lt_or_ge p instructions.length with hp | hp
  · -- an instruction is nobody's turn
    have hp' : p < generated.length := hgeneratedLength ▸ hp
    have hok := hgenerated.get hp hp'
    rw [List.getElem?_append_left hp', List.getElem?_eq_getElem hp', hmessage, Option.some.injEq]
    constructor
    · intro heq
      refine .inr ⟨instructions[p], generated[p], ?_, fun j hj => absurd hj (by omega), hok, ?_⟩
      · rw [List.getElem?_append_left hp, List.getElem?_eq_getElem hp]
      · rw [hmessage, heq]
    · rintro (⟨j, k, rfl, -⟩ | ⟨row, message, hrow, -, hrestore, hget⟩)
      · omega
      · rw [List.getElem?_append_left hp, List.getElem?_eq_getElem hp] at hrow
        obtain rfl := Option.some.inj hrow
        rw [hmessage] at hget
        rw [Option.some.inj hget]
        exact Except.ok.inj (hok.symm.trans hrestore)
  · obtain ⟨j, rfl⟩ := Nat.exists_eq_add_of_le hp
    rw [hgeneratedLength, List.getElem?_append_right (Nat.le_add_right ..), Nat.add_sub_cancel_left]
    have hrow : ∀ row : Value, rows[j]? = some row →
        (instructions ++ rows.map Subtype.val)[generated.length + j]? = some row.1 := by
      intro row hrow
      rw [← hgeneratedLength, List.getElem?_append_right (Nat.le_add_right ..), Nat.add_sub_cancel_left,
        List.getElem?_map, hrow, Option.map_some]
    rcases Nat.lt_or_ge j rows.length with hj | hj
    · rcases turn_or_excess originals hj with ⟨k, hturn⟩ | hexcess
      · rw [hturns k j hturn]
        constructor
        · exact fun heq => .inl ⟨j, k, by rw [hgeneratedLength], hturn, heq⟩
        · rintro (⟨j', k', hj', hturn', heq⟩ | ⟨-, -, -, hno, -⟩)
          · obtain rfl : j = j' := by omega
            rw [hturn.source_inj hturn']
            exact heq
          · exact absurd hturn (not_turn_of_excess (hno j (by rw [hgeneratedLength])))
      · obtain ⟨row, message, hget, hrestore, hplace⟩ := hexcesses j hexcess
        rw [hplace, hmessage]
        constructor
        · intro heq
          refine .inr ⟨row.1, message, hrow row hget, fun j' hj' => ?_, hrestore, by rw [hmessage, heq]⟩
          obtain rfl : j = j' := by omega
          exact hexcess
        · rintro (⟨j', k', hj', hturn', -⟩ | ⟨row', message', hrow', -, hrestore', heq⟩)
          · obtain rfl : j = j' := by omega
            exact absurd hturn' (not_turn_of_excess hexcess)
          · rw [hrow row hget] at hrow'
            obtain rfl := Option.some.inj hrow'
            obtain rfl := Except.ok.inj (hrestore.symm.trans hrestore')
            rw [← heq, hmessage]
    · rw [List.getElem?_eq_none (by omega : served.length ≤ j), hmessage]
      constructor
      · exact nofun
      · rintro (⟨j', k', hj', hturn', -⟩ | ⟨row', message', hrow', -⟩)
        · obtain rfl : j = j' := by omega
          obtain ⟨key, row, -, hget, -⟩ := hturn'
          have := (List.getElem?_eq_some_iff.1 hget).1
          omega
        · have := (List.getElem?_eq_some_iff.1 hrow').1
          rw [List.length_append, List.length_map] at this
          omega

/-- **The messages come back in order** if they can be read off in order. -/
theorem sublist_iff {generated served : List Json}
    (hgenerated : List.Forall₂ (fun row message => restore row = .ok message) instructions generated)
    (hserved : Served messages originals rows served) :
    messages.Sublist (generated ++ served) ↔ InOrder messages instructions originals rows := by
  rw [List.sublist_iff_exists_fin_orderEmbedding_get_eq]
  constructor
  · rintro ⟨f, hf⟩
    refine ⟨fun i => (f i).1, fun i i' hlt => f.strictMono hlt, fun i => ?_⟩
    rw [← readsAs_iff hgenerated hserved i.2, List.getElem?_eq_getElem (f i).2, List.getElem?_eq_getElem i.2]
    exact congrArg some (hf i).symm
  · rintro ⟨f, hmono, hf⟩
    have hget := fun i : Fin messages.length => (readsAs_iff hgenerated hserved i.2).2 (hf i)
    have hbound : ∀ i, f i < (generated ++ served).length := by
      intro i
      have h := hget i
      rw [List.getElem?_eq_getElem i.2] at h
      exact (List.getElem?_eq_some_iff.1 h).1
    refine ⟨OrderEmbedding.ofStrictMono (fun i => ⟨f i, hbound i⟩) fun i i' hlt => hmono hlt, fun i => ?_⟩
    have h := hget i
    rw [List.getElem?_eq_getElem i.2, List.getElem?_eq_getElem (hbound i)] at h
    exact (Option.some.inj h).symm

/-- A permutation that moves nothing down to a place that is moved up moves nothing. -/
theorem eq_self_of_injective {n : ℕ} {turn : Fin n → Fin n} (hinj : Function.Injective turn)
    (h : ∀ k, turn k < k → ¬turn k < turn (turn k)) : ∀ i, turn i = i := by
  -- by induction: all places before `i` stay
  have hall : ∀ m : ℕ, ∀ i : Fin n, i.1 = m → turn i = i := by
    intro m
    induction m using Nat.strong_induction_on with
    | _ m ih =>
      rintro i rfl
      rcases lt_trichotomy (turn i) i with hlt | heq | hgt
      · exact hinj (ih _ hlt _ rfl)
      · exact heq
      · obtain ⟨k, hk⟩ := (Finite.injective_iff_surjective.1 hinj) i
        rcases lt_trichotomy k i with hlt | rfl | hik
        · exact absurd ((ih _ hlt k rfl).symm.trans hk) (ne_of_lt hlt)
        · exact hk
        · rw [← hk] at hik hgt
          exact absurd hgt (h k hik)
  exact fun i => hall i.1 i rfl

/-- The normal form of a bare message. -/
theorem normalize_bare {lib : Lib} {name text : Str} {row : Json}
    (h : normalize lib (textMessage (.str name) text) = .ok row) :
    row = .obj [(lit "role", .str name), (lit "content", .list [textBlock (.str text)])] := by
  obtain ⟨role, hrole, h⟩ := bind_ok h
  obtain rfl : Json.str name = role := Except.ok.inj hrole
  obtain ⟨blocks, hblocks, h⟩ := bind_ok h
  obtain rfl : [textBlock (.str text)] = blocks := Except.ok.inj hblocks
  obtain ⟨calls, hcalls, h⟩ := bind_ok h
  obtain rfl : [] = calls := by
    unfold callBlocks at hcalls
    split at hcalls <;> exact Except.ok.inj hcalls
  split at h
  · -- the answer to a tool call is not bare
    obtain ⟨result, hresult, -⟩ := bind_ok h
    cases hresult
  · exact (Except.ok.inj h).symm

/-- A row that equals the normal form of a bare message is restored as that message. -/
theorem restore_of_form {name text : Str} {key row : Value} (h : (key == row) = true)
    (hkey : key.1 = .obj [(lit "role", .str name), (lit "content", .list [textBlock (.str text)])]) :
    restore row.1 = .ok (textMessage (.str name) text) := by
  replace h := itemEq_of_beq h
  obtain ⟨key, hproper⟩ := key
  obtain ⟨row, hproper'⟩ := row
  obtain rfl : key = _ := hkey
  obtain ⟨fields, rfl⟩ := Json.obj_of_itemEq h
  have hrole : fields.lookup (lit "role") = some (.str name) := by
    rcases Json.lookup_of_itemEq hproper h (lit "role") with ⟨hnone, -⟩ | ⟨x, y, hx, hy, hxy⟩
    · cases hnone
    · obtain rfl : Json.str name = x := Option.some.inj hx
      rw [hy, Json.str_itemEq_iff.1 hxy]
  obtain ⟨block, hcontent, hblock⟩ : ∃ block, fields.lookup (lit "content") = some (.list [.obj block]) ∧
      (textBlock (.str text)).itemEq (.obj block) = true := by
    rcases Json.lookup_of_itemEq hproper h (lit "content") with ⟨hnone, -⟩ | ⟨x, y, hx, hy, hxy⟩
    · cases hnone
    · obtain rfl : Json.list [textBlock (.str text)] = x := Option.some.inj hx
      obtain ⟨ys, rfl, hall⟩ := Json.list_of_itemEq hxy
      cases hall with
      | cons hfirst hrest =>
        cases hrest
        obtain ⟨block, rfl⟩ := Json.obj_of_itemEq hfirst
        exact ⟨block, hy, hfirst⟩
  have hlookup : ∀ {k : String} {t : Str}, (lit k, Json.str t) ∈ [(lit "type", .str (lit "text")),
      (lit "text", Json.str text)] → block.lookup (lit k) = some (.str t) := by
    intro k t hmem
    have hmine : (Json.obj [(lit "type", .str (lit "text")), (lit "text", Json.str text)]).Proper := rfl
    have hfield := Json.lookup_of_mem (Json.proper_obj.1 hmine).1 hmem
    rcases Json.lookup_of_itemEq hmine hblock (lit k) with ⟨hnone, -⟩ | ⟨x, y, hx, hy, hxy⟩
    · rw [hfield] at hnone
      cases hnone
    · rw [hfield] at hx
      obtain rfl := Option.some.inj hx
      rw [hy, Json.str_itemEq_iff.1 hxy]
  have htype : (get block "type").pyEq (.str (lit "text")) = true := by
    rw [Json.pyEq_str_iff, Application.get, hlookup (List.mem_cons_self ..), Option.getD_some]
  have htext : block.lookup (lit "text") = some (.str text) :=
    hlookup (List.mem_cons_of_mem _ (List.mem_cons_self ..))
  have hall : allText [.obj block] = .ok true := by
    rw [allText, asDict, ok_bind, if_pos htype]
    rfl
  have hblocks : [Json.obj block].mapM textOf = .ok [text] := by
    rw [List.mapM_cons, textOf, item, htext]
    rfl
  have hjoin : [10].intercalate [text] = text := by simp
  unfold restore
  rw [asDict, ok_bind, hcontent, Option.getD_some, iterate, ok_bind, hall, ok_bind, if_pos rfl, item, hrole,
    ok_bind, hblocks, ok_bind, hjoin]
  rfl

/-- What the order of the messages is about: they are as many as their normal forms, and
messages that are the same have the same form. -/
structure Forms (messages : List Json) (originals : List Value) : Prop where
  length : messages.length = originals.length
  self : ∀ key ∈ originals, (key == key) = true
  same : ∀ i k : ℕ, i < messages.length → messages[k]? = messages[i]? → originals[k]? = originals[i]?
  bare : ∀ (i : ℕ) (name text : Str), messages[i]? = some (textMessage (.str name) text) →
    ∃ key, originals[i]? = some key ∧
      key.1 = .obj [(lit "role", .str name), (lit "content", .list [textBlock (.str text)])]

theorem forms_of_normalizeAll {lib : Lib} {request : Payload}
    (hnormal : normalizeAll lib request = .ok (messages, originals.map Subtype.val)) : Forms messages originals := by
  have hforall := normalizeAll_ok hnormal
  have hlength : messages.length = originals.length := by rw [hforall.length_eq, List.length_map]
  have hform : ∀ {i : ℕ} {message : Json}, messages[i]? = some message →
      ∃ key : Value, originals[i]? = some key ∧ normalize lib message = .ok key.1 := by
    intro i message hmessage
    obtain ⟨hi, rfl⟩ := List.getElem?_eq_some_iff.1 hmessage
    have h := hforall.get hi (hforall.length_eq ▸ hi)
    rw [List.get_eq_getElem, List.get_eq_getElem, List.getElem_map] at h
    exact ⟨_, List.getElem?_eq_getElem (hlength ▸ hi), h⟩
  refine ⟨hlength, forms_self hnormal, fun i k hi heq => ?_, fun i name text hmessage => ?_⟩
  · obtain ⟨key, hkey, hnormal⟩ := hform (List.getElem?_eq_getElem hi)
    obtain ⟨key', hkey', hnormal'⟩ := hform (heq.trans (List.getElem?_eq_getElem hi))
    rw [hkey, hkey', Subtype.ext (Except.ok.inj (hnormal'.symm.trans hnormal))]
  · obtain ⟨key, hkey, hnormal⟩ := hform hmessage
    exact ⟨key, hkey, normalize_bare hnormal⟩

/-- A message that is not bare is read off where its own turn comes: messages that are
the same have their turns in their order. -/
theorem turn_of_readsAs (hforms : Forms messages originals)
    (hwell : ∀ row ∈ instructions ++ rows.map Subtype.val, WellFormed row) {f : Fin messages.length → ℕ}
    (hmono : StrictMono f) (hreads : ∀ i, ReadsAs messages instructions originals rows (f i) i)
    (i : Fin messages.length) (hbare : ¬Bare (messages.get i)) :
    ∃ j, f i = instructions.length + j ∧ Turn originals rows i j := by
  have hturns : ∀ i : Fin messages.length, ∃ k : Fin messages.length, (Bare (messages.get i) → k = i) ∧
      (¬Bare (messages.get i) → messages.get k = messages.get i ∧
        ∃ j, f i = instructions.length + j ∧ Turn originals rows k j) := by
    intro i
    by_cases hbare : Bare (messages.get i)
    · exact ⟨i, fun _ => rfl, fun h => absurd hbare h⟩
    · rcases hreads i with ⟨j, k, hj, hturn, heq⟩ | ⟨row, message, hrow, -, hrestore, hmessage⟩
      · rw [List.getElem?_eq_getElem i.2] at heq
        obtain ⟨hk, heq⟩ := List.getElem?_eq_some_iff.1 heq
        exact ⟨⟨k, hk⟩, fun h => absurd h hbare, fun _ => ⟨heq, j, hj, hturn⟩⟩
      · rw [List.getElem?_eq_getElem i.2] at hmessage
        rcases restore_eq (hwell row (List.mem_of_getElem? hrow)) with ⟨-, role, text, hok⟩ | ⟨-, herror⟩
        · exact absurd ⟨role, text, (Option.some.inj hmessage).trans (Except.ok.inj (hrestore.symm.trans hok))⟩ hbare
        · exact nomatch hrestore.symm.trans herror
  choose turn hstays hturn using hturns
  have hkind : ∀ i, Bare (messages.get (turn i)) ↔ Bare (messages.get i) := by
    intro i
    by_cases hbare : Bare (messages.get i)
    · rw [hstays i hbare]
    · rw [(hturn i hbare).1]
  have hinj : Function.Injective turn := by
    intro i i' heq
    by_cases hbare : Bare (messages.get i)
    · have hbare' := (hkind i').1 (heq ▸ (hkind i).2 hbare)
      rw [← hstays i hbare, ← hstays i' hbare', heq]
    · have hbare' : ¬Bare (messages.get i') := fun h => hbare ((hkind i).1 (heq ▸ (hkind i').2 h))
      obtain ⟨-, j, hj, hrow⟩ := hturn i hbare
      obtain ⟨-, j', hj', hrow'⟩ := hturn i' hbare'
      rw [heq] at hrow
      exact hmono.injective (by rw [hj, hj', hrow.row_inj hrow'])
  have hself : ∀ i, turn i = i := by
    refine eq_self_of_injective hinj fun k hlt hgt => ?_
    have hbare : ¬Bare (messages.get k) := fun h => absurd (hstays k h) (ne_of_lt hlt)
    have hbare' : ¬Bare (messages.get (turn k)) := fun h => hbare ((hkind k).1 h)
    obtain ⟨-, j, hj, hrow⟩ := hturn k hbare
    obtain ⟨hsame, j', hj', hrow'⟩ := hturn (turn k) hbare'
    have hrows := hmono hlt
    obtain ⟨key, hkey⟩ : ∃ key, originals[(turn k : ℕ)]? = some key :=
      ⟨_, List.getElem?_eq_getElem (hforms.length ▸ (turn k).2)⟩
    have hform : originals[(turn (turn k) : ℕ)]? = originals[(turn k : ℕ)]? := by
      refine hforms.same _ _ (turn k).2 ?_
      rw [List.getElem?_eq_getElem (turn (turn k)).2, List.getElem?_eq_getElem (turn k).2]
      exact congrArg some hsame
    have hback := hrow.lt hrow' hkey (hform.trans hkey) (hforms.self key (List.mem_of_getElem? hkey)) hgt
    omega
  obtain ⟨-, j, hj, hrow⟩ := hturn i hbare
  rw [hself] at hrow
  exact ⟨j, hj, hrow⟩

/-- **The messages can be read off in order** if the captured rows hold them in order. -/
theorem inOrder_iff (hforms : Forms messages originals)
    (hwell : ∀ row ∈ instructions ++ rows.map Subtype.val, WellFormed row)
    (hnames : ∀ role text, textMessage role text ∈ messages → ∃ name, role = .str name) :
    InOrder messages instructions originals rows ↔ Undisturbed messages instructions originals rows := by
  -- the message whose turn a row is, if it is bare, is what the row is restored as
  have hrestore : ∀ {k j : ℕ} {message : Json} {row : Value}, Turn originals rows k j → rows[j]? = some row →
      messages[k]? = some message → Bare message → restore row.1 = .ok message := by
    rintro k j _ row ⟨key, _, hkey, hrow', hbeq, -⟩ hrow hmessage ⟨role, text, rfl⟩
    obtain rfl := Option.some.inj (hrow.symm.trans hrow')
    obtain ⟨name, rfl⟩ := hnames role text (List.mem_of_getElem? hmessage)
    obtain ⟨key', hkey', hform⟩ := hforms.bare k name text hmessage
    obtain rfl := Option.some.inj (hkey.symm.trans hkey')
    exact restore_of_form hbeq hform
  have hplace : ∀ {j : ℕ} {row : Value}, rows[j]? = some row →
      (instructions ++ rows.map Subtype.val)[instructions.length + j]? = some row.1 := by
    intro j row hrow
    rw [List.getElem?_append_right (Nat.le_add_right ..), Nat.add_sub_cancel_left, List.getElem?_map, hrow,
      Option.map_some]
  constructor
  · rintro ⟨f, hmono, hreads⟩
    refine ⟨f, hmono, fun i => ⟨fun message hmessage hbare => ?_, fun message hmessage hbare => ?_⟩⟩
    · rcases hreads i with ⟨j, k, hj, hturn, heq⟩ | ⟨row, message', hrow, -, hok, hmessage'⟩
      · obtain ⟨key, row, -, hrow, -⟩ := id hturn
        exact ⟨row.1, hj ▸ hplace hrow, hrestore hturn hrow (heq.trans hmessage) hbare⟩
      · obtain rfl := Option.some.inj (hmessage.symm.trans hmessage')
        exact ⟨row, hrow, hok⟩
    · refine turn_of_readsAs hforms hwell hmono hreads i ?_
      rw [List.getElem?_eq_getElem i.2] at hmessage
      rwa [← Option.some.inj hmessage] at hbare
  · rintro ⟨f, hmono, hholds⟩
    refine ⟨f, hmono, fun i => ?_⟩
    have hmessage := List.getElem?_eq_getElem i.2
    by_cases hbare : Bare messages[(i : ℕ)]
    · obtain ⟨row, hrow, hok⟩ := (hholds i).bare _ hmessage hbare
      by_cases hexcess : ∀ j, f i = instructions.length + j → Excess originals rows j
      · exact .inr ⟨row, _, hrow, hexcess, hok, hmessage⟩
      · -- the row is the turn of a message, which is bare, or it would be read there itself
        obtain ⟨j, hj, hno⟩ : ∃ j, f i = instructions.length + j ∧ ¬Excess originals rows j := by
          by_contra hnone
          exact hexcess fun j hj => by_contra fun h => hnone ⟨j, hj, h⟩
        have hlt : j < rows.length := by
          have h := (List.getElem?_eq_some_iff.1 hrow).1
          rw [List.length_append, List.length_map] at h
          omega
        rcases turn_or_excess originals hlt with ⟨k, hturn⟩ | h
        · obtain ⟨key, row', hkey, hrow', -⟩ := id hturn
          have hk : k < messages.length := by
            rw [hforms.length]
            exact (List.getElem?_eq_some_iff.1 hkey).1
          have hmessage' := List.getElem?_eq_getElem hk
          refine .inl ⟨j, k, hj, hturn, ?_⟩
          by_cases hbare' : Bare messages[k]
          · have hok' := hrestore hturn hrow' hmessage' hbare'
            rw [hj, hplace hrow'] at hrow
            obtain rfl := Option.some.inj hrow
            rw [hmessage, hmessage', Except.ok.inj (hok.symm.trans hok')]
          · obtain ⟨j', hj', hturn'⟩ := (hholds ⟨k, hk⟩).other _ hmessage' hbare'
            have hsame : (⟨k, hk⟩ : Fin messages.length) = i :=
              hmono.injective (by rw [hj', hj, hturn.row_inj hturn'])
            rw [← hsame]
        · exact absurd h hno
    · obtain ⟨j, hj, hturn⟩ := (hholds i).other _ hmessage hbare
      exact .inl ⟨j, i, hj, hturn, rfl⟩

/-- If the turns are in order, the messages can be read off where their turns come. -/
theorem inOrder_of_turnsInOrder (hforms : Forms messages originals) (hcovers : Covers originals rows)
    (horder : TurnsInOrder originals rows) : InOrder messages instructions originals rows := by
  obtain ⟨place, hplace⟩ := hcovers.exists_place hforms.self
  refine ⟨fun i => instructions.length + place i, fun i i' hlt => ?_, fun i => ?_⟩
  · have h := horder i i' _ _ hlt (hplace i (hforms.length ▸ i.2)) (hplace i' (hforms.length ▸ i'.2))
    exact Nat.add_lt_add_left h _
  · exact .inl ⟨place i, i, rfl, hplace i (hforms.length ▸ i.2), rfl⟩

/-- If no message is bare, all turns have to be in order. -/
theorem inOrder_iff_turnsInOrder (hforms : Forms messages originals) (hcovers : Covers originals rows)
    (hwell : ∀ row ∈ instructions ++ rows.map Subtype.val, WellFormed row)
    (hbare : ∀ message ∈ messages, ¬Bare message) :
    InOrder messages instructions originals rows ↔ TurnsInOrder originals rows := by
  refine ⟨?_, inOrder_of_turnsInOrder hforms hcovers⟩
  rintro ⟨f, hmono, hreads⟩ i i' j j' hlt hturn hturn'
  have hown : ∀ {i j}, Turn originals rows i j → ∃ hi : i < messages.length, f ⟨i, hi⟩ = instructions.length + j := by
    intro i j h
    have hi : i < messages.length := by
      obtain ⟨key, -, hkey, -⟩ := h
      rw [hforms.length]
      exact (List.getElem?_eq_some_iff.1 hkey).1
    obtain ⟨j', hj', hturn⟩ := turn_of_readsAs hforms hwell hmono hreads ⟨i, hi⟩ (hbare _ (List.get_mem ..))
    exact ⟨hi, by rw [hj', hturn.row_inj h]⟩
  obtain ⟨hi, hj⟩ := hown hturn
  obtain ⟨hi', hj'⟩ := hown hturn'
  have h := hmono (show (⟨i, hi⟩ : Fin messages.length) < ⟨i', hi'⟩ from hlt)
  omega

end

/-- **Notes leave every message in place**, verbatim.  The messages come back in order if
their turns come in order.  If no message is bare, that is the only way.  In general, if
the roles are texts, they come back in order if and only if the captured rows hold them
in order, with no note ahead of a message that is not bare and equal in its form. -/
theorem notes_keep_order_iff (lib : Lib) (stage : Pair → List Json → Except Err Captures) (request : Payload)
    (pair : Pair) (messages instructions : List Json) (originals rows : List Value) (captures : Captures)
    (tier : Str) (captured : Payload)
    (hnormal : normalizeAll lib request = .ok (messages, originals.map Subtype.val))
    (hstage : stage pair (originals.map Subtype.val) = .ok captures)
    (hselected : selected captures = .ok (tier, captured))
    (hinstructions : (captured.lookup (lit "instructions")).getD (.list []) = .list instructions)
    (hinstruction : ∀ row ∈ instructions, WellFormed row ∧ TextOnly row)
    (hrows : captured.lookup (lit "messages") = some (.list (rows.map Subtype.val)))
    (hnoted : Noted originals rows) :
    ∃ output, route lib stage request pair = .ok ⟨tier, request.set (lit "messages") (.list output)⟩ ∧
      (TurnsInOrder originals rows → messages.Sublist output) ∧
      ((∀ role text, textMessage role text ∈ messages → ∃ name, role = .str name) →
        (messages.Sublist output ↔ Undisturbed messages instructions originals rows)) ∧
      ((∀ message ∈ messages, ¬Bare message) →
        (messages.Sublist output ↔ TurnsInOrder originals rows)) := by
  have hforms := forms_of_normalizeAll hnormal
  have hkeys : ∀ key ∈ originals, WellFormed key.1 := by
    intro key hkey
    obtain ⟨message, -, hform⟩ :=
      exists_related (normalizeAll_ok hnormal).flip (List.mem_map.2 ⟨key, hkey, rfl⟩)
    exact wellFormed_of_normalize hform
  have hwell := hnoted.wellFormed hkeys
  have hcaptured : ∀ row ∈ instructions ++ rows.map Subtype.val, WellFormed row := by
    intro row hrow
    rcases List.mem_append.1 hrow with hrow | hrow
    · exact (hinstruction row hrow).1
    · obtain ⟨row, hmem, rfl⟩ := List.mem_map.1 hrow
      exact hwell row hmem
  have hcovers := hnoted.covers
  rcases route_cases hnormal hstage hselected hinstructions hrows (fun row hrow => (hinstruction row hrow).1)
    hwell with ⟨-, -, generated, served, hroute, hgenerated, hserved⟩ | ⟨hno, -⟩
  · have hsublist := sublist_iff hgenerated hserved
    exact ⟨generated ++ served, hroute, fun horder => hsublist.2 (inOrder_of_turnsInOrder hforms hcovers horder),
      fun hnames => hsublist.trans (inOrder_iff hforms hcaptured hnames),
      fun hbare => hsublist.trans (inOrder_iff_turnsInOrder hforms hcovers hcaptured hbare)⟩
  · exact absurd ⟨hcovers, fun row hrow => (hinstruction row hrow).2, fun j row hexcess hrow =>
      hnoted.text_of_excess hexcess hrow⟩ hno

/-- A note before the messages leaves them in order. -/
theorem note_first : ∃ output, route Application.Demo.lib (Demo.picks [Demo.form "c", Demo.form "a", Demo.form "b"])
    Demo.conversation Demo.pair =
      .ok ⟨lit "efficient", Demo.conversation.set (lit "messages") (.list output)⟩ ∧
    (TurnsInOrder [Demo.form "a", Demo.form "b"] [Demo.form "c", Demo.form "a", Demo.form "b"] →
      [Demo.message "a", Demo.named "b"].Sublist output) ∧
    ((∀ role text, textMessage role text ∈ [Demo.message "a", Demo.named "b"] → ∃ name, role = .str name) →
      ([Demo.message "a", Demo.named "b"].Sublist output ↔ Undisturbed [Demo.message "a", Demo.named "b"] []
        [Demo.form "a", Demo.form "b"] [Demo.form "c", Demo.form "a", Demo.form "b"])) ∧
    ((∀ message ∈ [Demo.message "a", Demo.named "b"], ¬Bare message) →
      ([Demo.message "a", Demo.named "b"].Sublist output ↔
        TurnsInOrder [Demo.form "a", Demo.form "b"] [Demo.form "c", Demo.form "a", Demo.form "b"])) := by
  refine notes_keep_order_iff Application.Demo.lib _ Demo.conversation Demo.pair _ [] _ _ _ (lit "efficient")
    (Demo.captured [Demo.form "c", Demo.form "a", Demo.form "b"]) Demo.normalizes rfl rfl rfl (by rintro _ ⟨⟩) rfl ?_
  refine .note (Demo.form_wellFormed "c") (Demo.form_textOnly "c") ?_
  exact .original (by rfl) (.original (by rfl) .nil)

/-- **A note that says what a later message says** takes its place. -/
theorem note_takes_turn : Noted [Demo.form "a", Demo.form "b"] [Demo.form "b", Demo.form "a", Demo.form "b"] ∧
    route Application.Demo.lib (Demo.picks [Demo.form "b", Demo.form "a", Demo.form "b"]) Demo.conversation
      Demo.pair = .ok ⟨lit "efficient", Demo.conversation.set (lit "messages")
        (.list [Demo.named "b", Demo.message "a", Demo.message "b"])⟩ ∧
    ¬[Demo.message "a", Demo.named "b"].Sublist [Demo.named "b", Demo.message "a", Demo.message "b"] := by
  refine ⟨?_, by rfl, by simp [List.sublist_cons_iff, Demo.message, Demo.named, lit]⟩
  refine .note (Demo.form_wellFormed "b") (Demo.form_textOnly "b") ?_
  exact .original (by rfl) (.original (by rfl) .nil)

end Switchyard
end SwitchyardGateway
