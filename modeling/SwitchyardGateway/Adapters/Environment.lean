/-
# Environment references

`_resolve` of `adapters/config.py`.  A configuration may say `{"env": "NAME"}` wherever
it may hold a value, and reads the environment variable there.  An object is such a
reference if `env` is its only key, whatever it is an object of, and nothing inside a
reference is looked at.

A document is looked at by its places (`Reaches`): resolving it replaces each reference
by the text of its variable and leaves everything else where it is (`Filled`), or fails
as the first reference that cannot be read does (`resolve_exact`).

`os.environ` is not read by its text: a name is encoded first, and one that cannot be,
such as an unpaired surrogate, is a `UnicodeEncodeError`, which is a `ValueError`.
-/

import SwitchyardGateway.Domain
import SwitchyardGateway.Python.Equality
import SwitchyardGateway.Python.Raising

namespace SwitchyardGateway
namespace Configuration

open Python

/-- `value["env"]`, if `set(value) == {"env"}`. -/
def reference? : Json → Option Json
  | .obj [(key, name)] => if key = lit "env" then some name else none
  | _ => none

/-- What `os.environ.get` makes of a name. -/
inductive Variable where
  | unset
  | set (value : Str)
  | unencodable

section

variable (environ : Str → Variable)

/-- The text of a variable that is set and not empty. -/
def environValue (name : Json) : Except Exc Json :=
  match name with
  | .str name =>
    match environ name with
    | .set value =>
      if value = [] then .error (.gateway "missing_configuration_environment" 500) else .ok (.str value)
    | .unset => .error (.gateway "missing_configuration_environment" 500)
    | .unencodable => .error .valueError
  | _ => .error (.gateway "missing_configuration_environment" 500)

mutual

/-- `_resolve`. -/
def resolve : Json → Except Exc Json
  | .list items => do return .list (← resolveList items)
  | .obj fields =>
    match reference? (.obj fields) with
    | some name => environValue environ name
    | none => do return .obj (← resolveFields fields)
  | value => .ok value

/-- `[_resolve(item) for item in value]`. -/
def resolveList : List Json → Except Exc (List Json)
  | [] => .ok []
  | item :: items => do return (← resolve item) :: (← resolveList items)

/-- `{key: _resolve(item) for key, item in value.items()}`. -/
def resolveFields : List (Str × Json) → Except Exc (List (Str × Json))
  | [] => .ok []
  | (key, item) :: fields => do return (key, ← resolve item) :: (← resolveFields fields)

end

end

/-! ### Places -/

/-- A step into a value. -/
inductive Key where
  | item (index : ℕ)
  | field (key : Str)

/-- The value at a place that no reference hides. -/
inductive Reaches : Json → List Key → Json → Prop where
  | here (v : Json) : Reaches v [] v
  | item {items : List Json} {index : ℕ} {v w : Json} {place : List Key} :
      items[index]? = some v → Reaches v place w → Reaches (.list items) (.item index :: place) w
  | field {fields : List (Str × Json)} {key : Str} {v w : Json} {place : List Key} :
      reference? (.obj fields) = none → (key, v) ∈ fields → Reaches v place w →
      Reaches (.obj fields) (.field key :: place) w

/-- A document refers to a name. -/
def Refers (doc name : Json) : Prop := ∃ place v, Reaches doc place v ∧ reference? v = some name

/-! ### References in reading order -/

mutual

/-- The names that a document refers to, in the order in which they are read. -/
def references : Json → List Json
  | .list items => referencesList items
  | .obj fields =>
    match reference? (.obj fields) with
    | some name => [name]
    | none => referencesFields fields
  | _ => []

def referencesList : List Json → List Json
  | [] => []
  | item :: items => references item ++ referencesList items

def referencesFields : List (Str × Json) → List Json
  | [] => []
  | (_, item) :: fields => references item ++ referencesFields fields

end

/-- A variable that can be read. -/
def Readable (environ : Str → Variable) (name : Json) : Prop :=
  ∃ text value, name = .str text ∧ environ text = .set value ∧ value ≠ []

/-- How a name that cannot be read fails. -/
inductive Fails (environ : Str → Variable) : Json → Exc → Prop where
  /-- It is no text, or the text of no variable that is set and not empty. -/
  | missing {name : Json} :
      (∀ text, name = .str text → environ text = .unset ∨ environ text = .set []) →
      Fails environ name (.gateway "missing_configuration_environment" 500)
  | unencodable {text : Str} : environ text = .unencodable → Fails environ (.str text) .valueError

/-- What resolving puts at the place of a value: the text of the variable for a
reference, and otherwise the same value, up to what is inside it. -/
inductive Filled (environ : Str → Variable) : Json → Json → Prop where
  | reference {v : Json} {name value : Str} : reference? v = some (.str name) →
      environ name = .set value → value ≠ [] → Filled environ v (.str value)
  | list {items items' : List Json} : items.length = items'.length →
      Filled environ (.list items) (.list items')
  | obj {fields fields' : List (Str × Json)} : reference? (.obj fields) = none →
      fields.map Prod.fst = fields'.map Prod.fst → Filled environ (.obj fields) (.obj fields')
  | leaf {v : Json} : (∀ items, v ≠ .list items) → (∀ fields, v ≠ .obj fields) → Filled environ v v

section

variable {environ environ' : Str → Variable} {doc doc' name : Json}

/-! ### One value -/

theorem resolveList_eq (environ : Str → Variable) (items : List Json) :
    resolveList environ items = items.mapM (resolve environ) := by
  induction items with
  | nil => rfl
  | cons item items ih => rw [resolveList, List.mapM_cons, ih]

theorem resolveFields_eq (environ : Str → Variable) (fields : List (Str × Json)) :
    resolveFields environ fields =
      fields.mapM fun p => do return (p.1, ← resolve environ p.2) := by
  induction fields with
  | nil => rfl
  | cons field fields ih =>
    obtain ⟨key, item⟩ := field
    rw [resolveFields, List.mapM_cons, ih]
    simp only [bind_assoc, pure_bind]

theorem resolve_list (environ : Str → Variable) (items : List Json) :
    resolve environ (.list items) = do return .list (← items.mapM (resolve environ)) := by
  rw [resolve, resolveList_eq]

theorem resolve_obj {fields : List (Str × Json)} (h : reference? (.obj fields) = none) :
    resolve environ (.obj fields) =
      do return .obj (← fields.mapM fun p => do return (p.1, ← resolve environ p.2)) := by
  rw [resolve, h, resolveFields_eq]

theorem resolve_reference (h : reference? doc = some name) :
    resolve environ doc = environValue environ name := by
  cases doc with
  | obj fields => rw [resolve, h]
  | _ => cases h

/-- A variable is read, or its name fails. -/
theorem environValue_cases (environ : Str → Variable) (name : Json) :
    (∃ text value, name = .str text ∧ environ text = .set value ∧ value ≠ [] ∧
      environValue environ name = .ok (.str value)) ∨
    ∃ e, Fails environ name e ∧ environValue environ name = .error e := by
  cases name with
  | str text =>
    cases hvariable : environ text with
    | unset =>
      refine .inr ⟨_, .missing fun text' htext => ?_, by simp only [environValue, hvariable]⟩
      obtain rfl := Json.str.inj htext
      exact .inl hvariable
    | set value =>
      by_cases hempty : value = []
      · refine .inr ⟨_, .missing fun text' htext => ?_, by simp only [environValue, hvariable, hempty, if_true]⟩
        obtain rfl := Json.str.inj htext
        exact .inr (hempty ▸ hvariable)
      · exact .inl ⟨text, value, rfl, hvariable, hempty, by simp only [environValue, hvariable, hempty, if_false]⟩
    | unencodable => exact .inr ⟨_, .unencodable hvariable, by simp only [environValue, hvariable]⟩
  | _ => exact .inr ⟨_, .missing (by rintro _ ⟨⟩), rfl⟩

/-- What fails cannot be read, and fails in one way. -/
theorem Fails.environValue {e : Exc} (h : Fails environ name e) :
    ¬ Readable environ name ∧ environValue environ name = .error e := by
  cases h with
  | missing hmissing =>
    constructor
    · rintro ⟨text, value, rfl, hvalue, hne⟩
      rcases hmissing text rfl with hunset | hempty
      · cases hvalue.symm.trans hunset
      · exact hne (Variable.set.inj (hvalue.symm.trans hempty))
    · cases name with
      | str text =>
        rcases hmissing text rfl with hunset | hempty
        · simp only [Configuration.environValue, hunset]
        · simp only [Configuration.environValue, hempty, if_true]
      | _ => rfl
  | unencodable hvariable =>
    constructor
    · rintro ⟨text, value, htext, hvalue, -⟩
      obtain rfl := Json.str.inj htext
      cases hvalue.symm.trans hvariable
    · simp only [Configuration.environValue, hvariable]

theorem raised_environValue {e : Exc} :
    raised (environValue environ name) = some e ↔ Fails environ name e := by
  rw [raised_eq_some]
  constructor
  · intro h
    rcases environValue_cases environ name with ⟨_, _, _, _, _, hok⟩ | ⟨e', hfails, herror⟩
    · cases h.symm.trans hok
    · obtain rfl := Except.error.inj (h.symm.trans herror)
      exact hfails
  · exact fun h => h.environValue.2

theorem readable_iff : Readable environ name ↔ raised (environValue environ name) = none := by
  rcases environValue_cases environ name with ⟨text, value, hname, hvalue, hne, hok⟩ | ⟨e, hfails, herror⟩
  · exact iff_of_true ⟨text, value, hname, hvalue, hne⟩ (raised_eq_none.2 ⟨_, hok⟩)
  · refine iff_of_false hfails.environValue.1 ?_
    rw [raised_eq_some.2 herror]
    rintro ⟨⟩

/-- Whether an object is a reference can be read off its keys. -/
theorem reference?_eq_none {fields : List (Str × Json)} :
    reference? (.obj fields) = none ↔ fields.map Prod.fst ≠ [lit "env"] := by
  rcases fields with _ | ⟨⟨key, value⟩, _ | ⟨field, fields⟩⟩
  · simp [reference?]
  · by_cases hkey : key = lit "env"
    · simp [reference?, hkey]
    · simp [reference?, hkey]
  · simp [reference?]

/-! ### What a document refers to -/

theorem refers_reference (h : reference? doc = some name) (name' : Json) :
    Refers doc name' ↔ name' = name := by
  constructor
  · rintro ⟨place, v, hreach, href⟩
    cases hreach with
    | here => exact Option.some.inj (href.symm.trans h)
    | item => cases h
    | field hnone => exact absurd (hnone.symm.trans h) (by simp)
  · rintro rfl
    exact ⟨[], doc, .here doc, h⟩

theorem refers_list {items : List Json} :
    Refers (.list items) name ↔ ∃ item ∈ items, Refers item name := by
  constructor
  · rintro ⟨place, v, hreach, href⟩
    cases hreach with
    | here => cases href
    | item hitem hreach => exact ⟨_, List.mem_of_getElem? hitem, _, v, hreach, href⟩
  · rintro ⟨item, hitem, place, v, hreach, href⟩
    obtain ⟨index, hindex⟩ := List.getElem?_of_mem hitem
    exact ⟨_, v, .item hindex hreach, href⟩

theorem refers_obj {fields : List (Str × Json)} (h : reference? (.obj fields) = none) :
    Refers (.obj fields) name ↔ ∃ p ∈ fields, Refers p.2 name := by
  constructor
  · rintro ⟨place, v, hreach, href⟩
    cases hreach with
    | here => exact absurd (h.symm.trans href) (by simp)
    | field _ hmem hreach => exact ⟨_, hmem, _, v, hreach, href⟩
  · rintro ⟨p, hp, place, v, hreach, href⟩
    exact ⟨_, v, .field h hp hreach, href⟩

theorem not_refers_leaf (hlist : ∀ items, doc ≠ .list items) (hobj : ∀ fields, doc ≠ .obj fields)
    (name : Json) : ¬ Refers doc name := by
  rintro ⟨place, v, hreach, href⟩
  cases hreach with
  | here =>
    cases doc with
    | obj fields => exact hobj fields rfl
    | _ => cases href
  | item => exact hlist _ rfl
  | field => exact hobj _ rfl

theorem referencesList_eq (items : List Json) : referencesList items = items.flatMap references := by
  induction items with
  | nil => rfl
  | cons item items ih => rw [referencesList, List.flatMap_cons, ih]

theorem referencesFields_eq (fields : List (Str × Json)) :
    referencesFields fields = fields.flatMap fun p => references p.2 := by
  induction fields with
  | nil => rfl
  | cons field fields ih => rw [referencesFields, List.flatMap_cons, ih]

theorem references_reference (h : reference? doc = some name) : references doc = [name] := by
  cases doc with
  | obj fields => rw [references, h]
  | _ => cases h

theorem references_obj {fields : List (Str × Json)} (h : reference? (.obj fields) = none) :
    references (.obj fields) = fields.flatMap fun p => references p.2 := by
  rw [references, h, referencesFields_eq]

/-- The references are those of the places. -/
theorem mem_references : name ∈ references doc ↔ Refers doc name := by
  induction doc using Json.induct with
  | list items ih =>
    rw [references, referencesList_eq, List.mem_flatMap, refers_list]
    exact exists_congr fun item => and_congr_right fun hitem => ih item hitem
  | obj fields ih =>
    cases href : reference? (.obj fields) with
    | some name' => rw [references_reference href, List.mem_singleton, refers_reference href]
    | none =>
      rw [references_obj href, List.mem_flatMap, refers_obj href]
      exact exists_congr fun p => and_congr_right fun hp => ih p hp
  | _ => exact iff_of_false (List.not_mem_nil) (not_refers_leaf (by rintro _ ⟨⟩) (by rintro _ ⟨⟩) name)

/-! ### Success and failure -/

/-- **A document fails as its first reference that does.** -/
theorem raised_resolve (environ : Str → Variable) (doc : Json) :
    raised (resolve environ doc) =
      (references doc).findSome? fun name => raised (environValue environ name) := by
  induction doc using Json.induct with
  | list items ih =>
    rw [resolve_list, raised_return, raised_mapM, references, referencesList_eq, findSome?_flatMap]
    exact findSome?_congr ih
  | obj fields ih =>
    cases href : reference? (.obj fields) with
    | some name =>
      rw [resolve_reference href, references_reference href, List.findSome?_singleton]
    | none =>
      rw [resolve_obj href, raised_return, raised_mapM, references_obj href, findSome?_flatMap]
      refine findSome?_congr fun p hp => ?_
      rw [raised_return]
      exact ih p hp
  | _ => rfl

/-- A document is resolved if its variables can be read. -/
theorem resolve_ok_iff :
    (∃ doc', resolve environ doc = .ok doc') ↔ ∀ name, Refers doc name → Readable environ name := by
  rw [← raised_eq_none, raised_resolve, List.findSome?_eq_none_iff]
  exact forall_congr' fun name => imp_congr mem_references readable_iff.symm

/-- It fails as the first one that cannot be read. -/
theorem resolve_error_iff {e : Exc} :
    resolve environ doc = .error e ↔ ∃ before name after, references doc = before ++ name :: after ∧
      (∀ name' ∈ before, Readable environ name') ∧ Fails environ name e := by
  rw [← raised_eq_some, raised_resolve, List.findSome?_eq_some_iff]
  refine exists_congr fun before => exists_congr fun name => exists_congr fun after => and_congr_right fun _ => ?_
  rw [raised_environValue, and_comm]
  exact and_congr_left' (forall₂_congr fun name' _ => readable_iff.symm)

/-! ### What comes out -/

/-- The item of a field, resolved. -/
theorem resolve_field {p p' : Str × Json}
    (h : (do return (p.1, ← resolve environ p.2) : Except Exc (Str × Json)) = .ok p') :
    p'.1 = p.1 ∧ resolve environ p.2 = .ok p'.2 := by
  obtain ⟨item, hitem, h⟩ := bind_ok h
  obtain rfl := Except.ok.inj h
  exact ⟨rfl, hitem⟩

/-- The fields of a resolved object. -/
theorem resolve_fields {fields fields' : List (Str × Json)}
    (h : fields.mapM (fun p => do return (p.1, ← resolve environ p.2)) = .ok fields') :
    List.Forall₂ (fun p p' => p'.1 = p.1 ∧ resolve environ p.2 = .ok p'.2) fields fields' ∧
      fields.map Prod.fst = fields'.map Prod.fst := by
  have hfields := (mapM_ok_iff.1 h).imp fun _ _ => resolve_field
  refine ⟨hfields, ?_⟩
  rw [← List.forall₂_eq_eq_eq, List.forall₂_map_left_iff, List.forall₂_map_right_iff]
  exact hfields.imp fun _ _ h => h.1.symm

/-- How a document is resolved, by what it is. -/
theorem resolve_ok (h : resolve environ doc = .ok doc') :
    (∃ name value, reference? doc = some (.str name) ∧ environ name = .set value ∧ value ≠ [] ∧
      doc' = .str value) ∨
    (∃ items items', doc = .list items ∧ doc' = .list items' ∧
      List.Forall₂ (fun v v' => resolve environ v = .ok v') items items') ∨
    (∃ fields fields', doc = .obj fields ∧ doc' = .obj fields' ∧ reference? doc = none ∧
      fields.map Prod.fst = fields'.map Prod.fst ∧
      List.Forall₂ (fun p p' => p'.1 = p.1 ∧ resolve environ p.2 = .ok p'.2) fields fields') ∨
    (∀ items, doc ≠ .list items) ∧ (∀ fields, doc ≠ .obj fields) ∧ doc' = doc := by
  cases doc with
  | list items =>
    rw [resolve_list] at h
    obtain ⟨items', hitems, h⟩ := bind_ok h
    exact .inr (.inl ⟨items, items', rfl, (Except.ok.inj h).symm, mapM_ok_iff.1 hitems⟩)
  | obj fields =>
    cases href : reference? (.obj fields) with
    | some name =>
      rw [resolve_reference href] at h
      rcases environValue_cases environ name with ⟨text, value, rfl, hvalue, hne, hok⟩ | ⟨_, _, herror⟩
      · exact .inl ⟨text, value, rfl, hvalue, hne, Except.ok.inj (h.symm.trans hok)⟩
      · cases h.symm.trans herror
    | none =>
      rw [resolve_obj href] at h
      obtain ⟨fields', hfields, h⟩ := bind_ok h
      obtain ⟨hitems, hkeys⟩ := resolve_fields hfields
      exact .inr (.inr (.inl ⟨fields, fields', rfl, (Except.ok.inj h).symm, rfl, hkeys, hitems⟩))
  | _ => exact .inr (.inr (.inr ⟨by rintro _ ⟨⟩, by rintro _ ⟨⟩, (Except.ok.inj h).symm⟩))

/-- A resolved object is no reference. -/
theorem reference?_of_keys {fields fields' : List (Str × Json)}
    (hkeys : fields.map Prod.fst = fields'.map Prod.fst) (h : reference? (.obj fields) = none) :
    reference? (.obj fields') = none := by
  rw [reference?_eq_none] at h ⊢
  rwa [← hkeys]

/-- **Every place of a document** is filled. -/
theorem Reaches.filled {place : List Key} {v : Json} (hreach : Reaches doc place v)
    (h : resolve environ doc = .ok doc') : ∃ v', Reaches doc' place v' ∧ Filled environ v v' := by
  induction hreach generalizing doc' with
  | here v =>
    refine ⟨doc', .here doc', ?_⟩
    rcases resolve_ok h with ⟨name, value, href, hvalue, hne, rfl⟩ |
      ⟨items, items', rfl, rfl, hitems⟩ | ⟨fields, fields', rfl, rfl, href, hkeys, _⟩ |
      ⟨hlist, hobj, rfl⟩
    · exact .reference href hvalue hne
    · exact .list hitems.length_eq
    · exact .obj href hkeys
    · exact .leaf hlist hobj
  | item hitem _ ih =>
    rcases resolve_ok h with ⟨name, value, href, -⟩ | ⟨items, items', hdoc, rfl, hitems⟩ |
      ⟨fields, fields', hdoc, -⟩ | ⟨hlist, -⟩
    · cases href
    · obtain rfl := Json.list.inj hdoc
      obtain ⟨hlt, hget⟩ := List.getElem?_eq_some_iff.1 hitem
      have hlt' := hitems.length_eq ▸ hlt
      have hitem' := hitems.get hlt hlt'
      rw [List.get_eq_getElem, hget] at hitem'
      obtain ⟨v', hreach, hfilled⟩ := ih hitem'
      exact ⟨v', .item (List.getElem?_eq_getElem hlt') hreach, hfilled⟩
    · cases hdoc
    · exact absurd rfl (hlist _)
  | field href hmem _ ih =>
    rcases resolve_ok h with ⟨name, value, href', -⟩ | ⟨items, items', hdoc, -⟩ |
      ⟨fields, fields', hdoc, rfl, -, hkeys, hfields⟩ | ⟨-, hobj, -⟩
    · cases href.symm.trans href'
    · cases hdoc
    · obtain rfl := Json.obj.inj hdoc
      obtain ⟨⟨key, item⟩, hmem', hkey, hitem⟩ := exists_related hfields hmem
      obtain ⟨v', hreach, hfilled⟩ := ih hitem
      obtain rfl : key = _ := hkey
      exact ⟨v', .field (reference?_of_keys hkeys href) hmem' hreach, hfilled⟩
    · exact absurd rfl (hobj _)

/-- **A resolved document** refers to nothing: it is resolved already. -/
theorem resolve_resolved (environ' : Str → Variable) (h : resolve environ doc = .ok doc') :
    resolve environ' doc' = .ok doc' := by
  induction doc using Json.induct generalizing doc' with
  | list items ih =>
    rcases resolve_ok h with ⟨name, value, href, -⟩ | ⟨items, items', hdoc, rfl, hitems⟩ |
      ⟨fields, fields', hdoc, -⟩ | ⟨hlist, -⟩
    · cases href
    · obtain rfl := Json.list.inj hdoc
      have hsame : items'.mapM (resolve environ') = .ok items' := by
        refine mapM_ok_iff.2 (List.forall₂_same.2 fun v' hv' => ?_)
        obtain ⟨v, hv, hok⟩ := exists_related hitems.flip hv'
        exact ih v hv hok
      rw [resolve_list, hsame]
      rfl
    · cases hdoc
    · exact absurd rfl (hlist _)
  | obj fields ih =>
    rcases resolve_ok h with ⟨name, value, -, -, -, rfl⟩ | ⟨items, items', hdoc, -⟩ |
      ⟨fields, fields', hdoc, rfl, href, hkeys, hfields⟩ | ⟨-, hobj, -⟩
    · rfl
    · cases hdoc
    · obtain rfl := Json.obj.inj hdoc
      have hsame : (fields'.mapM fun p => do return (p.1, ← resolve environ' p.2)) = .ok fields' := by
        refine mapM_ok_iff.2 (List.forall₂_same.2 fun p' hp' => ?_)
        obtain ⟨p, hp, -, hok⟩ := exists_related hfields.flip hp'
        rw [ih p hp hok]
        rfl
      rw [resolve_obj (reference?_of_keys hkeys href), hsame]
      rfl
    · exact absurd rfl (hobj _)
  | _ =>
    obtain rfl := Except.ok.inj h
    rfl

theorem not_refers_resolved (h : resolve environ doc = .ok doc') (name : Json) : ¬ Refers doc' name := by
  -- without any variable it would not be resolved again
  intro hname
  obtain ⟨_, _, -, hvalue, -⟩ := resolve_ok_iff.1 ⟨doc', resolve_resolved (fun _ => .unset) h⟩ name hname
  cases hvalue

/-- A document that refers to nothing is left as it is. -/
theorem resolve_of_not_refers (environ : Str → Variable) (h : ∀ name, ¬ Refers doc name) :
    resolve environ doc = .ok doc := by
  induction doc using Json.induct with
  | list items ih =>
    have hsame : items.mapM (resolve environ) = .ok items :=
      mapM_ok_iff.2 (List.forall₂_same.2 fun item hitem =>
        ih item hitem fun name hname => h name (refers_list.2 ⟨item, hitem, hname⟩))
    rw [resolve_list, hsame]
    rfl
  | obj fields ih =>
    cases href : reference? (.obj fields) with
    | some name => exact absurd ((refers_reference href name).2 rfl) (h name)
    | none =>
      have hsame : (fields.mapM fun p => do return (p.1, ← resolve environ p.2)) = .ok fields := by
        refine mapM_ok_iff.2 (List.forall₂_same.2 fun p hp => ?_)
        rw [ih p hp fun name hname => h name ((refers_obj href).2 ⟨p, hp, hname⟩)]
        rfl
      rw [resolve_obj href, hsame]
      rfl
  | _ => rfl

/-- **Only the variables that are referred to are read.** -/
theorem resolve_congr (h : ∀ text, Refers doc (.str text) → environ' text = environ text) :
    resolve environ' doc = resolve environ doc := by
  induction doc using Json.induct with
  | list items ih =>
    have hitems : items.mapM (resolve environ') = items.mapM (resolve environ) :=
      mapM_congr fun item hitem =>
        ih item hitem fun text htext => h text (refers_list.2 ⟨item, hitem, htext⟩)
    rw [resolve_list, resolve_list, hitems]
  | obj fields ih =>
    cases href : reference? (.obj fields) with
    | some name =>
      rw [resolve_reference href, resolve_reference href]
      cases name with
      | str text =>
        rw [environValue, environValue, h text ((refers_reference href _).2 rfl)]
      | _ => rfl
    | none =>
      have hfields : (fields.mapM fun p => do return (p.1, ← resolve environ' p.2)) =
          fields.mapM fun p => do return (p.1, ← resolve environ p.2) :=
        mapM_congr fun p hp => by
          rw [ih p hp fun text htext => h text ((refers_obj href).2 ⟨p, hp, htext⟩)]
      rw [resolve_obj href, resolve_obj href, hfields]
  | _ => rfl

end

/-- **Resolving is exact.**  It succeeds if every name that is referred to is that of a
variable with a text, and otherwise fails as the first name, in reading order, that
cannot be read; it fills every place and leaves no reference; and no variable matters
that is not referred to. -/
theorem resolve_exact (environ : Str → Variable) (doc : Json) :
    ((∃ doc', resolve environ doc = .ok doc') ↔ ∀ name, Refers doc name → Readable environ name) ∧
    (∀ name, name ∈ references doc ↔ Refers doc name) ∧
    (∀ e, resolve environ doc = .error e ↔
      ∃ before name after, references doc = before ++ name :: after ∧
        (∀ name' ∈ before, Readable environ name') ∧ Fails environ name e) ∧
    (∀ doc', resolve environ doc = .ok doc' →
      (∀ place v, Reaches doc place v → ∃ v', Reaches doc' place v' ∧ Filled environ v v') ∧
      (∀ name, ¬ Refers doc' name)) ∧
    ∀ environ', (∀ text, Refers doc (.str text) → environ' text = environ text) →
      resolve environ' doc = resolve environ doc := by
  exact ⟨resolve_ok_iff, fun _ => mem_references, fun _ => resolve_error_iff,
    fun doc' h => ⟨fun place v hreach => hreach.filled h, not_refers_resolved h⟩, fun environ' => resolve_congr⟩

end Configuration
end SwitchyardGateway
