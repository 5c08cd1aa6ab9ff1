/-
# Replicas in turn

`Gateway._select` starts behind the replica it returned last and takes the first
one that is neither excluded nor cooling down.  Calls overlap, other models are
selected from in between, replicas fail and recover, and a second attempt excludes
the replica of the first.

The position a selection starts from, the names its call excludes, the cooldown
table it reads and its readings of the clock can all be read off the log, so
`Eligible` says of one selection in a log that a replica could have been returned.
A replica that was eligible at each of as many selections as its model has replicas
was selected at one of them, and if all were, they were selected in turn
(`replicas_in_turn`).

The order in which the next selection looks at the replicas is the list of
`Scheduling.Turns`: every selection in a log is one turn of it (`Turned`).
-/

import SwitchyardGateway.Application.Cooldown
import SwitchyardGateway.Adapters.Config
import SwitchyardGateway.Scheduling.RoundRobin

namespace SwitchyardGateway
namespace Application

open Coop Coop.Discipline Python Scheduling

/-- The replicas a call was given so far, latest first: what it excludes. -/
def tried : List Entry → List Str
  | [] => []
  | ⟨_, .selected _ endpoint, _⟩ :: l => endpoint.name :: tried l
  | _ :: l => tried l

/-- The labels of a model's replicas. -/
def labels (model : Model) : List Str := model.endpoints.map Endpoint.name

/-- The replicas of a model that were selected, latest first. -/
def picks (model : Model) : PoolLog → List Str
  | [] => []
  | (_, ⟨_, .selected model' endpoint, _⟩) :: l =>
    if model'.name = model.name then endpoint.name :: picks model l else picks model l
  | _ :: l => picks model l

/-- The stored position of a model: behind the replica selected last. -/
def positionOf (positions : Str → Option ℕ) (model : Model) : PoolLog → ℕ
  | [] => (positions model.name).getD 0
  | (_, ⟨_, .selected model' endpoint, _⟩) :: l =>
    if model'.name = model.name then
      ((labels model).idxOf endpoint.name + 1) % model.endpoints.length
    else positionOf positions model l
  | _ :: l => positionOf positions model l

/-- The order in which the next selection looks at the replicas. -/
def scanOrder (positions : Str → Option ℕ) (model : Model) (l : PoolLog) : List Str :=
  (labels model).rotate (positionOf positions model l)

/-- The replicas a selection that returned `name` looked at before. -/
def passedOver (positions : Str → Option ℕ) (model : Model) (l : PoolLog) (name : Str) : List Str :=
  (scanOrder positions model l).takeWhile fun n => n ≠ name

/-- The readings of the clock of a selection that call `i` made after the log `l`
and that returned `name`: one for each replica looked at that is not excluded. -/
def readings (positions : Str → Option ℕ) (model : Model) (i : ℕ) (name : Str) (l : PoolLog) :
    PoolLog :=
  l.take ((passedOver positions model l name).countP (· ∉ tried (own i l)) + 1)

section

variable (lib : Lib) (settings : Settings) (w : World)

/-- A replica that is neither excluded nor, at any reading of the clock, cooling
down while call `i` selects `chosen`. -/
def Eligible (model : Model) (i : ℕ) (chosen : Str) (l : PoolLog) (name : Str) : Prop :=
  name ∉ tried (own i l) ∧ ∀ e ∈ readings w.positions model i chosen l,
    (tableOf lib settings w.cooldowns l (model.name, name)).getD 0 ≤ e.2.time

/-- A replica that is eligible at every selection of its model in a stretch of the
log, which comes after `older`. -/
def Steady (model : Model) (older window : PoolLog) (name : Str) : Prop :=
  ∀ i t model' endpoint rest, (i, ⟨t, .selected model' endpoint, ()⟩) :: rest <:+ window →
    model'.name = model.name → Eligible lib settings w model i endpoint.name (rest ++ older) name

/-- One selection in a log: it is one of a configured model, and no replica that
was looked at before the one returned was eligible. -/
structure Turned (model : Model) (i : ℕ) (chosen : Str) (l : PoolLog) : Prop where
  configured : ∃ label, settings.models.lookup label = some model
  returned : chosen ∈ labels model
  passed : ∀ name ∈ passedOver w.positions model l chosen, ¬ Eligible lib settings w model i chosen l name

/-- The invariant between awaits: the tables are the ones the log leads to, no
deadline is about to be recorded, and every selection was a turn. -/
structure Traced (w' : World) (l : PoolLog) : Prop where
  table : w'.cooldowns = tableOf lib settings w.cooldowns l
  settled : pending? lib settings l = none
  positions : ∀ label model, settings.models.lookup label = some model →
    (w'.positions model.name).getD 0 = positionOf w.positions model l
  turns : ∀ i t model endpoint rest, (i, ⟨t, .selected model endpoint, ()⟩) :: rest <:+ l →
    Turned lib settings w model i endpoint.name rest

end

section Calls

variable {lib : Lib} {settings : Settings} {w₀ w w' : World} {l : PoolLog} {i : ℕ}

/-- Nothing has happened yet. -/
theorem Traced.nil (lib : Lib) (settings : Settings) (w : World) : Traced lib settings w w [] where
  table := rfl
  settled := rfl
  positions _ _ _ := rfl
  turns _ _ _ _ _ h := by cases List.suffix_nil.1 h

/-- Only selections move positions. -/
theorem positionOf_cons {positions : Str → Option ℕ} {model : Model} {e : Entry}
    (he : ∀ t model endpoint, e ≠ ⟨t, .selected model endpoint, ()⟩) :
    positionOf positions model ((i, e) :: l) = positionOf positions model l := by
  obtain ⟨t, q, a⟩ := e
  cases q with
  | selected model' endpoint => exact absurd rfl (he t model' endpoint)
  | _ => rfl

/-- An entry that selects nothing adds no turn. -/
theorem Traced.turns_cons (h : Traced lib settings w₀ w l) {e : Entry}
    (he : ∀ t model endpoint, e ≠ ⟨t, .selected model endpoint, ()⟩) (j : ℕ) (t : ℚ) (model : Model)
    (endpoint : Endpoint) (rest : PoolLog)
    (hsuffix : (j, ⟨t, .selected model endpoint, ()⟩) :: rest <:+ (i, e) :: l) :
    Turned lib settings w₀ model j endpoint.name rest := by
  rcases List.suffix_cons_iff.1 hsuffix with heq | hsuffix
  · cases heq
    exact absurd rfl (he t model endpoint)
  · exact h.turns j t model endpoint rest hsuffix

theorem Quiet.not_selected {e : Entry} (he : Quiet e) (t : ℚ) (model : Model) (endpoint : Endpoint) :
    e ≠ ⟨t, .selected model endpoint, ()⟩ := by
  rintro rfl
  exact he

/-- A quiet entry changes nothing. -/
theorem Traced.quiet (h : Traced lib settings w₀ w l) {e : Entry} (he : Quiet e)
    (hcooldowns : w'.cooldowns = w.cooldowns) (hpositions : w'.positions = w.positions) :
    Traced lib settings w₀ w' ((i, e) :: l) where
  table := by rw [hcooldowns, h.table, tableOf_of_settled h.settled]
  settled := he.pending
  positions label model hmodel := by
    rw [hpositions, positionOf_cons he.not_selected, h.positions label model hmodel]
  turns := h.turns_cons he.not_selected

/-! ### A selection -/

/-- What a scan has done that looked at `seen` and returned none of them: a
reading of the clock for each that is not excluded, and it was cooling down then. -/
structure Scanned (w : World) (model : Model) (i : ℕ) (excluded : List Str) (seen : List Endpoint)
    (looks : PoolLog) : Prop where
  clocks : ∀ e ∈ looks, ∃ t, e = (i, ⟨t, .clock, t⟩)
  length : looks.length = (seen.map Endpoint.name).countP (· ∉ excluded)
  refused : ∀ p ∈ seen, p.name ∈ excluded ∨
    ∃ e ∈ looks, e.2.time < w.deadline (model.name, p.name)

theorem Scanned.nil (w : World) (model : Model) (i : ℕ) (excluded : List Str) :
    Scanned w model i excluded [] [] :=
  ⟨fun _ h => (List.not_mem_nil h).elim, rfl, fun _ h => (List.not_mem_nil h).elim⟩

variable {model : Model} {excluded : List Str} {seen : List Endpoint} {looks : PoolLog}
  {endpoint : Endpoint}

/-- An excluded replica is passed over without a look at the clock. -/
theorem Scanned.exclude (h : Scanned w model i excluded seen looks)
    (hmem : endpoint.name ∈ excluded) : Scanned w model i excluded (seen ++ [endpoint]) looks where
  clocks := h.clocks
  length := by simp [h.length, hmem]
  refused p hp := by
    rcases List.mem_append.1 hp with hp | hp
    · exact h.refused p hp
    · obtain rfl := List.mem_singleton.1 hp
      exact .inl hmem

/-- A replica that is cooling down is passed over after one. -/
theorem Scanned.refuse (h : Scanned w model i excluded seen looks) {now : ℚ}
    (hmem : endpoint.name ∉ excluded) (hnow : now < w.deadline (model.name, endpoint.name)) :
    Scanned w model i excluded (seen ++ [endpoint]) ((i, ⟨now, .clock, now⟩) :: looks) where
  clocks e he := by
    rcases List.mem_cons.1 he with rfl | he
    · exact ⟨now, rfl⟩
    · exact h.clocks e he
  length := by simp [h.length, hmem]
  refused p hp := by
    rcases List.mem_append.1 hp with hp | hp
    · exact (h.refused p hp).imp_right fun ⟨e, he, hlt⟩ => ⟨e, List.mem_cons_of_mem _ he, hlt⟩
    · obtain rfl := List.mem_singleton.1 hp
      exact .inr ⟨_, List.mem_cons_self, hnow⟩

theorem offset_lt (model : Model) (start : ℕ) (offset : Fin model.endpoints.length) :
    (start + offset) % model.endpoints.length < model.endpoints.length :=
  Nat.mod_lt _ (Nat.zero_lt_of_lt offset.isLt)

/-- The replica at an offset from the start of a scan. -/
def replicaAt (model : Model) (start : ℕ) (offset : Fin model.endpoints.length) : Endpoint :=
  model.endpoints.get ⟨(start + offset) % model.endpoints.length, offset_lt model start offset⟩

/-- The offsets of a scan stand for the replicas from its start on. -/
theorem map_replicaAt (model : Model) (start : ℕ) :
    (List.finRange model.endpoints.length).map (replicaAt model start) =
      model.endpoints.rotate start := by
  refine List.ext_getElem (by simp) fun k hk hk' => ?_
  simp [replicaAt, List.getElem_rotate, Nat.add_comm]

/-- **A scan** returns a replica it looked at after others it had a reason to pass
over, or has a reason to pass over each. -/
theorem wp_scan {I : World → PoolLog → Prop} {start : ℕ}
    {ok : Fin model.endpoints.length → World → PoolLog → Prop} {err : Err → World → PoolLog → Prop}
    (hok : ∀ index seen rest looks now t, Scanned w model i excluded seen looks →
      model.endpoints.rotate start = seen ++ model.endpoints.get index :: rest →
      ok index (w.setPosition model.name ((index + 1) % model.endpoints.length))
        ((i, ⟨t, .selected model (model.endpoints.get index), ()⟩) ::
          ((i, ⟨now, .clock, now⟩) :: looks ++ l)))
    (herr : ∀ seen looks, Scanned w model i excluded seen looks →
      err (gatewayError "no_available_replica" 503) w (looks ++ l))
    (offsets : List (Fin model.endpoints.length)) (seen : List Endpoint) (looks : PoolLog)
    (horder : seen ++ offsets.map (replicaAt model start) = model.endpoints.rotate start)
    (h : Scanned w model i excluded seen looks) :
    (overlapping.member I i).wp (Gateway.selectFrom model excluded start offsets) ok err w
      (looks ++ l) := by
  induction offsets generalizing seen looks with
  | nil => exact herr seen looks h
  | cons offset offsets ih =>
    have hnext : (seen ++ [replicaAt model start offset]) ++ offsets.map (replicaAt model start) =
        model.endpoints.rotate start := by
      rw [← horder, List.append_assoc]
      rfl
    unfold Gateway.selectFrom
    dsimp only
    split
    · rename_i hmem
      exact ih _ looks hnext (h.exclude hmem)
    · rename_i hmem
      simp only [wp_bind, wp_read, clock, wp_ask]
      rintro now _ ⟨t, ⟨_, htrue⟩, rfl⟩
      obtain rfl : now = t := htrue
      split
      · simp only [wp_bind, wp_update, wp_ask, wp_pure]
        rintro _ _ ⟨t, _, rfl⟩
        exact hok _ seen _ looks now t h horder.symm
      · rename_i hlt
        exact ih _ _ hnext (h.refuse hmem (not_le.1 hlt))

/-! ### A selection is a turn -/

/-- Looking at the clock changes nothing. -/
theorem Traced.looked (h : Traced lib settings w₀ w l)
    (hclocks : ∀ e ∈ looks, ∃ t, e = (i, ⟨t, .clock, t⟩)) :
    Traced lib settings w₀ w (looks ++ l) := by
  induction looks with
  | nil => exact h
  | cons e looks ih =>
    obtain ⟨t, rfl⟩ := hclocks e List.mem_cons_self
    exact (ih fun e he => hclocks e (List.mem_cons_of_mem _ he)).quiet rfl rfl rfl

/-- Nor does it change what a call has tried, or the position of a model. -/
theorem looks_log (hclocks : ∀ e ∈ looks, ∃ t, e = (i, ⟨t, .clock, t⟩)) (l : PoolLog) :
    tried (own i (looks ++ l)) = tried (own i l) ∧
      ∀ positions model, positionOf positions model (looks ++ l) = positionOf positions model l := by
  induction looks with
  | nil => exact ⟨rfl, fun _ _ => rfl⟩
  | cons e looks ih =>
    obtain ⟨t, rfl⟩ := hclocks e List.mem_cons_self
    obtain ⟨htried, hposition⟩ := ih fun e he => hclocks e (List.mem_cons_of_mem _ he)
    rw [List.cons_append, own_cons_self]
    exact ⟨htried, hposition⟩

/-- Up to the one returned, the order of a scan is what was passed over. -/
theorem passedOver_eq {positions : Str → Option ℕ} {before after : List Str} {name : Str}
    (hdistinct : (labels model).Nodup)
    (horder : scanOrder positions model l = before ++ name :: after) :
    passedOver positions model l name = before := by
  have hnodup : (scanOrder positions model l).Nodup := List.nodup_rotate.2 hdistinct
  rw [horder, List.nodup_append] at hnodup
  have hbefore : ∀ n ∈ before, decide (n ≠ name) = true :=
    fun n hn => decide_eq_true (hnodup.2.2 n hn name List.mem_cons_self)
  rw [passedOver, horder, List.takeWhile_append_of_pos hbefore]
  simp

/-- The position behind a replica that is looked at is the one after its place. -/
theorem rotate_idxOf {positions : Str → Option ℕ} {before after : List Str} {name : Str}
    (hdistinct : (labels model).Nodup)
    (horder : scanOrder positions model l = before ++ name :: after) :
    (labels model).rotate (((labels model).idxOf name + 1) % model.endpoints.length) =
      (labels model).rotate (positionOf positions model l + before.length + 1) := by
  have hlength : (labels model).length = model.endpoints.length := by simp [labels]
  have hplace : before.length < ((labels model).rotate (positionOf positions model l)).length := by
    change before.length < (scanOrder positions model l).length
    rw [horder]
    simp
  have hget : ((labels model).rotate (positionOf positions model l))[before.length] = name := by
    simp [show (labels model).rotate (positionOf positions model l) = before ++ name :: after
      from horder]
  have hindex : (labels model).idxOf name =
      (before.length + positionOf positions model l) % (labels model).length := by
    rw [List.getElem_rotate] at hget
    rw [← hget]
    exact hdistinct.idxOf_getElem _ _
  rw [← hlength, List.rotate_mod, ← List.rotate_rotate, hindex, List.rotate_mod, List.rotate_rotate,
    Nat.add_comm before.length]

/-- Whatever a scan passed over was not eligible. -/
theorem Scanned.turned (hdistinct : (labels model).Nodup)
    (hmodel : ∃ label, settings.models.lookup label = some model)
    (h : Traced lib settings w₀ w l) (hscan : Scanned w model i (tried (own i l)) seen looks)
    {index : Fin model.endpoints.length} {rest : List Endpoint} (now : ℚ)
    (horder : model.endpoints.rotate (positionOf w₀.positions model l) =
      seen ++ model.endpoints.get index :: rest) :
    Turned lib settings w₀ model i (model.endpoints.get index).name
      ((i, ⟨now, .clock, now⟩) :: looks ++ l) := by
  have hclocks : ∀ e ∈ (i, ⟨now, .clock, now⟩) :: looks, ∃ t, e = (i, ⟨t, .clock, t⟩) := by
    intro e he
    rcases List.mem_cons.1 he with rfl | he
    · exact ⟨now, rfl⟩
    · exact hscan.clocks e he
  obtain ⟨htried, hposition⟩ := looks_log hclocks l
  have htable := (h.looked hclocks).table
  have hnames : scanOrder w₀.positions model ((i, ⟨now, .clock, now⟩) :: looks ++ l) =
      seen.map Endpoint.name ++ (model.endpoints.get index).name :: rest.map Endpoint.name := by
    rw [scanOrder, hposition, labels, ← List.map_rotate, horder, List.map_append, List.map_cons]
  have hpassed := passedOver_eq hdistinct hnames
  refine ⟨hmodel, List.mem_map.2 ⟨_, List.get_mem _ _, rfl⟩, fun name hname helig => ?_⟩
  rw [hpassed] at hname
  obtain ⟨p, hp, rfl⟩ := List.mem_map.1 hname
  obtain ⟨hfresh, hready⟩ := helig
  rw [htried] at hfresh
  rcases hscan.refused p hp with hmem | ⟨e, he, hlt⟩
  · exact hfresh hmem
  · -- the reading at which it was cooling down is one of the readings of this selection
    have hreading : e ∈ readings w₀.positions model i (model.endpoints.get index).name
        ((i, ⟨now, .clock, now⟩) :: looks ++ l) := by
      rw [readings, hpassed, htried, ← hscan.length, List.cons_append, List.take_succ_cons,
        List.take_left']
      · exact List.mem_cons_of_mem _ he
      · rfl
    have hle := hready e hreading
    rw [← htable] at hle
    exact absurd hlt (not_lt.2 hle)

/-- **A selection is a turn**, and the position moves behind the replica returned. -/
theorem Traced.select (hwf : Configuration.Wellformed settings) {label : Str}
    (hmodel : settings.models.lookup label = some model) (h : Traced lib settings w₀ w l)
    (index : Fin model.endpoints.length) {t : ℚ}
    (hturned : Turned lib settings w₀ model i (model.endpoints.get index).name l) :
    Traced lib settings w₀ (w.setPosition model.name ((index + 1) % model.endpoints.length))
      ((i, ⟨t, .selected model (model.endpoints.get index), ()⟩) :: l) := by
  constructor
  case table => rw [World.setPosition_cooldowns, h.table, tableOf_of_settled h.settled]
  case settled => rfl
  case positions =>
    intro label' model' hmodel'
    by_cases hname : model.name = model'.name
    · -- models of one name are one model
      have hlabel : label' = label := by
        rw [← hwf.labelled label' model' hmodel', ← hwf.labelled label model hmodel, hname]
      subst hlabel
      obtain rfl : model = model' := Option.some.inj (hmodel.symm.trans hmodel')
      have hindex : (labels model).idxOf (model.endpoints.get index).name = index := by
        have hlt : (index : ℕ) < (labels model).length := by simp [labels]
        have hget : (labels model)[(index : ℕ)] = (model.endpoints.get index).name := by simp [labels]
        rw [← hget]
        exact (hwf.distinct label' model hmodel).idxOf_getElem _ hlt
      rw [positionOf, if_pos rfl, hindex, World.setPosition_positions, Function.update_self, Option.getD_some]
    · rw [positionOf, if_neg hname, World.setPosition_positions, Function.update_of_ne (Ne.symm hname)]
      exact h.positions label' model' hmodel'
  case turns =>
    intro j t' model' endpoint rest hsuffix
    rcases List.suffix_cons_iff.1 hsuffix with heq | hsuffix
    · cases heq
      exact hturned
    · exact h.turns j t' model' endpoint rest hsuffix

theorem wp_select_traced (hwf : Configuration.Wellformed settings) {label : Str}
    (hmodel : settings.models.lookup label = some model) (h : Traced lib settings w₀ w l) :
    (overlapping.member (Traced lib settings w₀) i).wp (Gateway.select model (tried (own i l)))
      (fun index w' l' => Traced lib settings w₀ w' l' ∧
        tried (own i l') = (model.endpoints.get index).name :: tried (own i l))
      (fun _ w' l' => Traced lib settings w₀ w' l' ∧ tried (own i l') = tried (own i l)) w l := by
  have hstart := h.positions label model hmodel
  simp only [Gateway.select, wp_bind, wp_read]
  refine wp_scan (fun index seen rest looks now t hscan horder => ?_)
    (fun seen looks hscan => ⟨h.looked hscan.clocks, (looks_log hscan.clocks l).1⟩) _ [] []
    (map_replicaAt model _) (Scanned.nil w model i _)
  rw [hstart] at horder
  have hturned := hscan.turned (hwf.distinct label model hmodel) ⟨label, hmodel⟩ h now horder
  have hlooked : Traced lib settings w₀ w ((i, ⟨now, .clock, now⟩) :: looks ++ l) :=
    (h.looked hscan.clocks).quiet (e := ⟨now, .clock, now⟩) rfl rfl rfl
  refine ⟨hlooked.select hwf hmodel index hturned, ?_⟩
  rw [own_cons_self, List.cons_append, own_cons_self]
  exact congrArg _ (looks_log hscan.clocks l).1

/-! ### The rest of a call -/

/-- Recording a failure moves no position. -/
theorem wp_cooldown_traced {I : World → PoolLog → Prop} (h : Traced lib settings w₀ w l)
    {request : Payload} {headers : Headers} {t : ℚ} {answer : Except Err Upstream}
    {cause : FailureCause} {retryAfter : Str} {err : Err → World → PoolLog → Prop}
    (hc : failureCause? answer = some (cause, retryAfter)) :
    (overlapping.member I i).wp
      (Gateway.cooldown lib settings (model.name, endpoint.name) retryAfter)
      (fun _ w l' => Traced lib settings w₀ w l' ∧ tried (own i l') = tried (own i l)) err w
      ((i, ⟨t, .send model endpoint request headers, answer⟩) :: l) := by
  refine wp_cooldown_recording (S := overlapping) (fun _ _ _ _ h => h) hc fun seconds now l₁ hrec hl₁ _ => ?_
  have hlog : (∀ positions model', positionOf positions model' l₁ = positionOf positions model' l) ∧
      tried (own i l₁) = tried (own i l) := by
    rcases hl₁ with rfl | ⟨t₁, date, rfl⟩
    · exact ⟨fun _ _ => rfl, by rw [own_cons_self]; rfl⟩
    · exact ⟨fun _ _ => rfl, by rw [own_cons_self, own_cons_self]; rfl⟩
  refine ⟨⟨?_, rfl, fun label model' hmodel' => ?_, ?_⟩, ?_⟩
  · rw [tableOf, hrec.pending, hrec.table, ← h.table]
    rfl
  · change _ = positionOf w₀.positions model' l₁
    rw [hlog.1]
    exact h.positions label model' hmodel'
  · intro j t' model' endpoint' rest hsuffix
    rcases List.suffix_cons_iff.1 hsuffix with heq | hsuffix
    · cases heq
    · exact h.turns j t' model' endpoint' rest (hrec.selected _ _ _ _ _ hsuffix)
  · rw [own_cons_self]
    exact hlog.2

/-- Every part of a call leaves the tables as the log says. -/
theorem traced_rounds (hwf : Configuration.Wellformed settings) (me : ℕ) :
    Rounds (overlapping.member (Traced lib settings w₀) i) lib settings me
      fun xs w l => Traced lib settings w₀ w l ∧ tried (own i l) = xs where
  park _ _ _ _ h := h.1
  wake _ _ _ _ _ _ h hw := ⟨hw.1, by rw [hw.2.1, h.2]⟩
  ask := by
    rintro xs w l q a _ hq ⟨h, htried⟩ ⟨t, _, rfl⟩
    refine ⟨h.quiet (hq.quiet t a) rfl rfl, ?_⟩
    rw [own_cons_self, ← htried]
    cases q <;> first | exact hq.elim | rfl
  call _ _ _ _ h := ⟨⟨h.1.table, h.1.settled, h.1.positions, h.1.turns⟩, h.2⟩
  select := by
    rintro label model _ w l hmodel ⟨h, rfl⟩
    exact wp_select_traced hwf hmodel h
  failed := by
    rintro _ model endpoint request headers answer cause retryAfter _ w' l _ hc ⟨h, rfl⟩ ⟨t, _, rfl⟩
    exact wp_cooldown_traced h hc
  answered := by
    rintro _ model endpoint request headers answer _ w' l _ hc ⟨h, rfl⟩ ⟨t, _, rfl⟩
    exact ⟨h.quiet (quiet_send hc) rfl rfl, by rw [own_cons_self]; rfl⟩

/-- **The tables can be read off the log**, and every selection in it was a turn,
in every reachable pool of overlapping calls. -/
theorem traced_reachable (hwf : Configuration.Wellformed settings)
    {c : Pool World ℚ Call Answer Err Exchange}
    (hc : overlapping.Reachable (opens lib settings) w₀ c) :
    Traced lib settings w₀ c.state c.log := by
  refine (System.Reachable.inv (I := Traced lib settings w₀) (fun i p hp w l h hfresh => ?_)
    (Traced.nil lib settings w₀) hc : overlapping.Inv _ (fun _ _ _ => True) c).shared
  obtain ⟨request, headers, rid, rfl⟩ := hp
  have htried : tried (own i l) = [] := by rw [hfresh]; rfl
  exact wp_mono (fun _ _ _ ⟨_, h⟩ => ⟨h.1, trivial⟩) (fun _ _ _ ⟨_, h⟩ => ⟨h.1, trivial⟩)
    ((traced_rounds hwf i).open request headers rid ⟨h, htried⟩)

/-! ### A stretch of the log -/

/-- A stretch of the log is a sequence of turns of every model, in which whoever
was eligible throughout is steady. -/
theorem turns_of_log (hwf : Configuration.Wellformed settings) {label : Str}
    (hmodel : settings.models.lookup label = some model) (steady : Str → Prop) (older window : PoolLog)
    (hturns : ∀ i t model endpoint rest, (i, ⟨t, .selected model endpoint, ()⟩) :: rest <:+
      window ++ older → Turned lib settings w₀ model i endpoint.name rest)
    (hsteady : ∀ name, steady name → Steady lib settings w₀ model older window name) :
    Turns steady (scanOrder w₀.positions model older) (picks model window)
      (scanOrder w₀.positions model (window ++ older)) := by
  induction window with
  | nil => exact .nil
  | cons e window ih =>
    have ih := ih (fun i t model endpoint rest h => hturns i t model endpoint rest (h.trans (List.suffix_cons _ _)))
      fun name hname i t model' endpoint rest h =>
        hsteady name hname i t model' endpoint rest (h.trans (List.suffix_cons _ _))
    obtain ⟨i, t, q, a⟩ := e
    by_cases hother : ∀ model' endpoint, q = .selected model' endpoint → model'.name ≠ model.name
    · -- nothing is selected, or a replica of another model
      have hpicks : picks model ((i, ⟨t, q, a⟩) :: window) = picks model window := by
        cases q with
        | selected model' endpoint => rw [picks, if_neg (hother model' endpoint rfl)]
        | _ => rfl
      have horder : scanOrder w₀.positions model ((i, ⟨t, q, a⟩) :: window ++ older) =
          scanOrder w₀.positions model (window ++ older) := by
        rw [scanOrder, scanOrder, List.cons_append]
        cases q with
        | selected model' endpoint => rw [positionOf, if_neg (hother model' endpoint rfl)]
        | _ => rfl
      rw [hpicks, horder]
      exact ih
    · push Not at hother
      obtain ⟨model', endpoint, rfl, hname⟩ := hother
      have hturn := hturns i t model' endpoint (window ++ older) (List.suffix_refl _)
      obtain ⟨label', hmodel'⟩ := hturn.configured
      obtain rfl : label' = label := by
        rw [← hwf.labelled label' model' hmodel', ← hwf.labelled label model hmodel, hname]
      obtain rfl : model' = model := Option.some.inj (hmodel'.symm.trans hmodel)
      rw [picks, if_pos rfl]
      refine ih.cons ?_
      -- the order is what was passed over, then the one returned
      have hmem : endpoint.name ∈ scanOrder w₀.positions model' (window ++ older) :=
        List.mem_rotate.2 hturn.returned
      obtain ⟨before, after, horder⟩ := List.append_of_mem hmem
      have hdistinct := hwf.distinct label' model' hmodel
      have hnext : scanOrder w₀.positions model'
          ((i, ⟨t, .selected model' endpoint, a⟩) :: window ++ older) =
          (labels model').rotate (positionOf w₀.positions model' (window ++ older) + before.length + 1) := by
        rw [scanOrder, List.cons_append, positionOf, if_pos rfl]
        exact rotate_idxOf hdistinct horder
      rw [hnext]
      refine Turn.rotate horder fun name hname helig => ?_
      rw [← passedOver_eq hdistinct horder] at hname
      exact hturn.passed name hname
        (hsteady name helig i t model' endpoint window (List.suffix_refl _) rfl)

end Calls

/-- **Replicas are selected in turn.**  In any stretch of any run of overlapping
calls with as many selections of a model as it has replicas, every replica that was
eligible at each of them was returned.  If all were, each was returned once, and in
a stretch of any length no two were returned more than one time apart. -/
theorem replicas_in_turn (lib : Lib) (urlsplit : Str → Except String Configuration.SplitUrl)
    (config : Configuration.Config) (settings : Settings)
    (hconfig : Configuration.loadConfig lib urlsplit config = .ok settings) (w : World)
    (c : Pool World ℚ Call Answer Err Exchange) (hc : overlapping.Reachable (opens lib settings) w c)
    (newer window older : PoolLog) (hlog : c.log = newer ++ (window ++ older)) (label : Str)
    (model : Model) (hmodel : settings.models.lookup label = some model) :
    (∀ name ∈ labels model, Steady lib settings w model older window name →
      model.endpoints.length ≤ (picks model window).length → name ∈ picks model window) ∧
    ((∀ name ∈ labels model, Steady lib settings w model older window name) →
      ((picks model window).length = model.endpoints.length →
        ∀ name ∈ labels model, (picks model window).count name = 1) ∧
      ∀ name ∈ labels model, ∀ name' ∈ labels model,
        (picks model window).count name ≤ (picks model window).count name' + 1) := by
  have hwf := Configuration.loadConfig_wellformed hconfig
  have htraced := traced_reachable hwf hc
  have hlength : (labels model).length = model.endpoints.length := by simp [labels]
  have hturns := turns_of_log hwf hmodel (Steady lib settings w model older window) older window
    (fun i t model endpoint rest h => htraced.turns i t model endpoint rest
      (h.trans ⟨newer, hlog.symm⟩)) fun _ h => h
  have hscan : ∀ name, name ∈ scanOrder w.positions model older ↔ name ∈ labels model :=
    fun name => List.mem_rotate
  refine ⟨fun name hname hsteady hmany => ?_, fun hsteady => ?_⟩
  · refine hturns.serves ((hscan name).2 hname) hsteady ?_
    rw [scanOrder, List.length_rotate, hlength]
    exact hmany
  · have hnodup : (scanOrder w.positions model older).Nodup :=
      List.nodup_rotate.2 (hwf.distinct label model hmodel)
    obtain ⟨k, front, back, hlevels⟩ := hturns.levels hnodup
      fun name hname => hsteady name ((hscan name).1 hname)
    have hperm := hturns.perm
    have hmem : ∀ name ∈ labels model, name ∈ scanOrder w.positions model (window ++ older) :=
      fun name hname => List.mem_rotate.2 hname
    refine ⟨fun hmany name hname => hlevels.once ?_ (hmem name hname),
      fun name hname name' hname' => hlevels.even (hmem name hname) (hmem name' hname')⟩
    rw [hmany, scanOrder, List.length_rotate, hlength]

/-! ### Two replicas -/

section

variable (lib : Lib) (settings : Settings) (w : World) (model : Model)

instance (i : ℕ) (chosen : Str) (l : PoolLog) (name : Str) :
    Decidable (Eligible lib settings w model i chosen l name) :=
  inferInstanceAs (Decidable (_ ∧ _))

/-- `Steady`, of the newest entry. -/
def SteadyAt (older : PoolLog) (name : Str) : PoolLog → Prop
  | (i, ⟨_, .selected model' endpoint, _⟩) :: rest => model'.name = model.name →
      Eligible lib settings w model i endpoint.name (rest ++ older) name
  | _ => True

instance (older : PoolLog) (name : Str) : DecidablePred (SteadyAt lib settings w model older name)
  | [] => isTrue trivial
  | (i, ⟨_, .selected model' endpoint, _⟩) :: rest => inferInstanceAs (Decidable (model'.name =
      model.name → Eligible lib settings w model i endpoint.name (rest ++ older) name))
  | (_, ⟨_, .clock, _⟩) :: _ | (_, ⟨_, .utcnow, _⟩) :: _ | (_, ⟨_, .emit _, _⟩) :: _
  | (_, ⟨_, .route _ _, _⟩) :: _ | (_, ⟨_, .compress _ _, _⟩) :: _ | (_, ⟨_, .send _ _ _ _, _⟩) :: _
  | (_, ⟨_, .close _, _⟩) :: _ | (_, ⟨_, .receive, _⟩) :: _ | (_, ⟨_, .read _, _⟩) :: _
  | (_, ⟨_, .iterate, _⟩) :: _ | (_, ⟨_, .yield _, _⟩) :: _ | (_, ⟨_, .respond, _⟩) :: _ => isTrue trivial

/-- Whether a replica was eligible throughout a stretch of a log can be computed. -/
instance (older window : PoolLog) (name : Str) :
    Decidable (Steady lib settings w model older window name) :=
  decidable_of_iff (∀ l ∈ window.tails, SteadyAt lib settings w model older name l) <| by
    constructor
    · intro h i t model' endpoint rest hsuffix
      exact h _ ((List.mem_tails _ _).2 hsuffix)
    · intro h l hl
      unfold SteadyAt
      split
      · exact h _ _ _ _ _ ((List.mem_tails _ _).1 hl)
      · trivial

end

/-- The document of a deployment with two replicas of one model. -/
def Demo.config : Configuration.Config where
  server := { apiKey := lit "secret", maxRequestBytes := 1024 }
  models := [(lit "m", {
    modelId := lit "backend"
    endpoints := [⟨lit "a", lit "http://localhost/v1", []⟩, ⟨lit "b", lit "http://localhost/v1", []⟩] })]
  compression := { enabled := false }
  forwardHeaders := []

theorem Demo.config_accepted :
    Configuration.loadConfig Demo.lib Configuration.localhost Demo.config = .ok Demo.settings := by
  with_unfolding_all rfl

/-- Two calls that overlap are given one replica each. -/
theorem two_calls_two_replicas : ∃ c,
    overlapping.Reachable (opens Demo.lib Demo.settings) Demo.world c ∧
      ∀ name ∈ labels Demo.model, (picks Demo.model c.log).count name = 1 := by
  obtain ⟨c, hplay, hc⟩ := (Option.any_eq_true _ _).1 (by decide +kernel :
    (System.play (Demo.overlap (Demo.upstream 200))
      (fun w l i st => decide (overlapping.admits w l i st)) (Demo.call Demo.settings)
      [.start, .start] ⟨Demo.world, [], []⟩).any fun c =>
        decide ((∀ name ∈ labels Demo.model,
          Steady Demo.lib Demo.settings Demo.world Demo.model [] c.log name) ∧
          (picks Demo.model c.log).length = Demo.model.endpoints.length))
  have hreach : overlapping.Reachable (opens Demo.lib Demo.settings) Demo.world c :=
    System.play_steps (fun _ _ _ _ hst => of_decide_eq_true hst)
      (fun i => ⟨Demo.request, [], lit "r", rfl⟩) _ hplay
  obtain ⟨hsteady, hlength⟩ := of_decide_eq_true hc
  exact ⟨c, hreach, ((replicas_in_turn Demo.lib Configuration.localhost Demo.config Demo.settings
    Demo.config_accepted Demo.world c hreach [] c.log [] (by simp) (lit "m") Demo.model (by rfl)).2
      hsteady).1 hlength⟩

end Application
end SwitchyardGateway
