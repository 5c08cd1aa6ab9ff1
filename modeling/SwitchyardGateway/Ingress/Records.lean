/-
# One record for each call

A call is recorded once, by whoever owes the record at that moment: `chat` for a
request it refuses, `Gateway.open` for an opening that fails, and for an exchange
whoever finishes it first.  Other tasks may finish the same exchange any number
of times, before, during and after the call's own `finish`.

`Stage` is where the record of a call has got to, and `Tracks` what a pool looks
like at each stage: while an exchange is being closed one task is waiting for the
close, and only that task will record it.  `one_record` is what follows.
-/

import SwitchyardGateway.Coop.Pool
import SwitchyardGateway.Ingress.Serving
import SwitchyardGateway.Ingress.Answers

namespace SwitchyardGateway
namespace Ingress

open Coop Coop.Discipline Python Application System

/-- The request records of a pool, newest first. -/
def records (l : Log ℚ Call Answer) : List Event := requests (l.map Prod.snd)

/-- Another `gateway.finish(exchange, outcome)` on the exchange of a call, if there
is one by now. -/
def finishAgain (me : ℕ) (outcome : Outcome) : Py Unit := do
  match ((← Prog.read).calls me).exchange with
  | some exchange => Gateway.finish me exchange outcome
  | none => return ()

/-- The tasks of a pool around call `me`: the call and its stream, other finishes of
its exchange, and whatever leaves the call's own objects alone. -/
def involved (lib : Lib) (settings : Settings) (limit me i : ℕ) (p : Py Unit) : Prop :=
  if i = me then ∃ request rid, p = do
    let _ ← serve lib settings limit me request rid
    return ()
  else (∃ outcome, p = finishAgain me outcome) ∨
    ∃ f, (∀ w, (f w).calls me = w.calls me) ∧ p = Prog.update f

/-- Surroundings whose event sink does not raise. -/
def attending : System World ℚ Call Answer where
  admits _ _ _ st := SinkOk st

/-! ### Stages -/

/-- A task that waits for a close. -/
def Closing (v : ℕ → Option Call) (i : ℕ) : Prop := ∃ attempt, v i = some (.close attempt)

/-- Where the record of a call has got to: there is no exchange, nobody has begun to
finish it, task `i` is closing it, or it is recorded. -/
inductive Stage where
  | unopened
  | held
  | closing (i : ℕ)
  | recorded

/-- What a pool looks like at each stage. -/
def Tracks (me : ℕ) (w : World) (l : Log ℚ Call Answer) (v : ℕ → Option Call) : Stage → Prop
  | .unopened => (w.calls me).exchange = none ∧ (∀ i, i ≠ me → v i = none) ∧
    records l = requests (own me l) ∧ (records l).length ≤ 1
  | .held => (w.calls me).exchange.isSome ∧ (w.calls me).finished = false ∧ records l = [] ∧
    ∀ i, ¬Closing v i
  | .closing i => (w.calls me).exchange.isSome ∧ (w.calls me).finished = true ∧ records l = [] ∧
    ∀ j, Closing v j ↔ j = i
  | .recorded => (w.calls me).exchange.isSome ∧ (w.calls me).finished = true ∧
    (records l).length = 1 ∧ ∀ i, ¬Closing v i

/-- What task `i` may rely on: an exchange stays, and stays finished.  The variables
of the call are its own. -/
structure Steady (me i : ℕ) (w w' : World) : Prop where
  exchange : ∀ exchange, (w.calls me).exchange = some exchange →
    (w'.calls me).exchange = some exchange ∧
      ((w.calls me).finished = true → (w'.calls me).finished = true)
  mine : i = me → (w'.calls me).exchange = (w.calls me).exchange ∧
    (w'.calls me).opened = (w.calls me).opened ∧ (w'.calls me).handedOff = (w.calls me).handedOff

/-- The contract of the tasks around a call. -/
def accounted (me : ℕ) : Contract World ℚ Call Answer where
  inv w l v := ((w.calls me).exchange.isSome → own me l ≠ []) ∧ ∃ stage, Tracks me w l v stage
  rely := Steady me
  rely_refl _ _ := ⟨fun _ h => ⟨h, id⟩, fun _ => ⟨rfl, rfl, rfl⟩⟩
  rely_trans i w w' w'' h h' := by
    refine ⟨fun exchange hexchange => ?_, fun hi => ?_⟩
    · obtain ⟨hexchange', hfinished⟩ := h.exchange exchange hexchange
      obtain ⟨hexchange'', hfinished'⟩ := h'.exchange exchange hexchange'
      exact ⟨hexchange'', fun hw => hfinished' (hfinished hw)⟩
    · obtain ⟨hexchange, hopened, hhanded⟩ := h.mine hi
      obtain ⟨hexchange', hopened', hhanded'⟩ := h'.mine hi
      exact ⟨hexchange'.trans hexchange, hopened'.trans hopened, hhanded'.trans hhanded⟩

/-- How task `i` stands between two awaits: the contract holds, and `P` of the objects
of the call and of what the task itself has asked. -/
structure Stands (me i : ℕ) (P : CallState → List Entry → Prop) (w : World)
    (x : View World ℚ Call Answer) : Prop where
  running : x.waits i = none
  inv : (accounted me).inv w x.log x.waits
  others : ∀ j, j ≠ i → Steady me j x.since w
  here : P (w.calls me) (own i x.log)

section

variable {me i : ℕ} {P Q : CallState → List Entry → Prop} {w w' : World}
  {l l' : Log ℚ Call Answer} {v v' : ℕ → Option Call} {x : View World ℚ Call Answer} {stage : Stage}

theorem records_cons {q : Call} (hq : Unrecorded q) (t : ℚ) (a : Answer q) (l : Log ℚ Call Answer) :
    records ((i, ⟨t, q, a⟩) :: l) = records l :=
  requests_cons hq t a _

/-- Only the task that waits for something else may change. -/
theorem closing_congr (hother : ∀ j, j ≠ i → v' j = v j) (hi : ¬Closing v i) (hi' : ¬Closing v' i)
    (j : ℕ) : Closing v' j ↔ Closing v j := by
  by_cases hj : j = i
  · subst hj
    exact iff_of_false hi' hi
  · rw [Closing, Closing, hother j hj]

theorem not_closing_of_none (h : v i = none) : ¬Closing v i := by
  rintro ⟨attempt, hattempt⟩
  rw [h] at hattempt
  cases hattempt

theorem closing_update_none (j : ℕ) :
    Closing (Function.update v i none) j ↔ j ≠ i ∧ Closing v j := by
  by_cases hj : j = i
  · subst hj
    exact iff_of_false (not_closing_of_none (Function.update_self ..)) fun h => h.1 rfl
  · rw [Closing, Function.update_of_ne hj]
    exact (and_iff_right hj).symm

/-- A stage depends on the exchange, the records and the closes that are waited for. -/
theorem Tracks.congr (h : Tracks me w l v stage)
    (hexchange : (w'.calls me).exchange = (w.calls me).exchange)
    (hfinished : (w'.calls me).finished = (w.calls me).finished) (hrecords : records l' = records l)
    (hown : requests (own me l') = requests (own me l)) (hclosing : ∀ j, Closing v' j ↔ Closing v j)
    (hwaits : (w.calls me).exchange = none → ∀ j, j ≠ me → v j = none → v' j = none) :
    Tracks me w' l' v' stage := by
  cases stage with
  | unopened =>
    obtain ⟨hnone, hidle, hrec, hle⟩ := h
    refine ⟨hexchange.trans hnone, fun j hj => hwaits hnone j hj (hidle j hj), ?_, ?_⟩
    · rw [hrecords, hrec, hown]
    · rwa [hrecords]
  | held =>
    obtain ⟨hsome, hopen, hrec, hidle⟩ := h
    exact ⟨hexchange ▸ hsome, hfinished.trans hopen, hrecords.trans hrec,
      fun j hj => hidle j ((hclosing j).1 hj)⟩
  | closing k =>
    obtain ⟨hsome, hdone, hrec, hone⟩ := h
    exact ⟨hexchange ▸ hsome, hfinished.trans hdone, hrecords.trans hrec,
      fun j => (hclosing j).trans (hone j)⟩
  | recorded =>
    obtain ⟨hsome, hdone, hrec, hidle⟩ := h
    exact ⟨hexchange ▸ hsome, hfinished.trans hdone, hrecords ▸ hrec,
      fun j hj => hidle j ((hclosing j).1 hj)⟩

/-- Without an exchange, only the call itself is waiting. -/
theorem Tracks.of_none (h : Tracks me w l v stage) (hnone : (w.calls me).exchange = none) :
    Tracks me w l v .unopened := by
  have hfalse : ¬(w.calls me).exchange.isSome := by simp [hnone]
  cases stage with
  | unopened => exact h
  | held => exact absurd h.1 hfalse
  | closing k => exact absurd h.1 hfalse
  | recorded => exact absurd h.1 hfalse

/-- What others leave alone, and what asking for anything but a record does. -/
structure Lasting (P : CallState → List Entry → Prop) : Prop where
  call : ∀ c c' o, c'.exchange = c.exchange → c'.opened = c.opened → c'.handedOff = c.handedOff →
    (c.exchange.isSome → c.finished = true → c'.finished = true) → P c o → P c' o
  ask : ∀ c o q t a, Unrecorded q → P c o → P c (⟨t, q, a⟩ :: o)

/-- A task may rewrite the objects of the call as long as an exchange stays and stays
finished, and the variables of the call are left to it. -/
theorem Steady.setCall {j : ℕ} {f : CallState → CallState} (h : Steady me j w w')
    (hf : ∀ exchange, (w'.calls me).exchange = some exchange → (f (w'.calls me)).exchange = some exchange ∧
      ((w'.calls me).finished = true → (f (w'.calls me)).finished = true))
    (hmine : j = me → (f (w'.calls me)).exchange = (w'.calls me).exchange ∧
      (f (w'.calls me)).opened = (w'.calls me).opened ∧
      (f (w'.calls me)).handedOff = (w'.calls me).handedOff) : Steady me j w (w'.setCall me f) := by
  refine (accounted me).rely_trans j w w' _ h ⟨fun exchange hexchange => ?_, fun hj => ?_⟩
  · rw [World.setCall_calls_self]
    exact hf exchange hexchange
  · rw [World.setCall_calls_self]
    exact hmine hj

/-- The call rewrites its own objects, all but the exchange. -/
theorem Stands.setCall {f : CallState → CallState} (h : Stands me me P w x)
    (hf : (f (w.calls me)).exchange = (w.calls me).exchange ∧
      (f (w.calls me)).finished = (w.calls me).finished)
    (hPQ : ∀ c o, P c o → Q (f c) o) : Stands me me Q (w.setCall me f) x := by
  obtain ⟨hrunning, ⟨hasked, stage, htracks⟩, hothers, hP⟩ := h
  obtain ⟨hexchange, hfinished⟩ := hf
  refine ⟨hrunning, ⟨?_, stage, htracks.congr ?_ ?_ rfl rfl (fun _ => Iff.rfl) fun _ _ _ => id⟩,
    fun j hj => (hothers j hj).setCall (fun exchange hsome => ?_) fun hmine => absurd hmine hj, ?_⟩
  · rw [World.setCall_calls_self, hexchange]
    exact hasked
  · rw [World.setCall_calls_self, hexchange]
  · rw [World.setCall_calls_self, hfinished]
  · rw [hexchange, hfinished]
    exact ⟨hsome, id⟩
  · rw [World.setCall_calls_self]
    exact hPQ _ _ hP

/-- The call itself, while it neither records nor closes anything. -/
theorem stands_neutral (hP : Lasting P) {quiet : Call → Prop}
    (hquiet : ∀ q, quiet q → Unrecorded q ∧
      ((∀ attempt, q ≠ .close attempt) ∨ ∀ c o, P c o → c.exchange = none)) :
    Neutral (attending.under (accounted me) me) me quiet (fun _ => True) (Stands me me P) where
  park := by
    rintro w x q hq ⟨hrunning, ⟨hasked, stage, htracks⟩, hothers, hP'⟩
    refine ⟨⟨hasked, ?_⟩, hothers⟩
    have hother : ∀ j, j ≠ me → Function.update x.waits me (some q) j = x.waits j :=
      fun j hj => Function.update_of_ne hj _ _
    rcases (hquiet q hq).2 with hclose | hnone
    · refine ⟨stage, htracks.congr rfl rfl rfl rfl (closing_congr hother (not_closing_of_none hrunning) ?_)
        fun _ j hj hidle => (hother j hj).trans hidle⟩
      rintro ⟨attempt, hattempt⟩
      rw [Function.update_self] at hattempt
      exact hclose attempt (Option.some.inj hattempt)
    · obtain ⟨hnone, hidle, hrest⟩ := htracks.of_none (hnone _ _ hP')
      exact ⟨.unopened, hnone, fun j hj => (hother j hj).trans (hidle j hj), hrest⟩
  wake := by
    rintro w x q w₁ x₁ hq ⟨hrunning, -, -, hP'⟩ ⟨v, hv, ⟨hasked, stage, htracks⟩, hx₁, hrely, hown, -⟩
    obtain ⟨hexchange, hopened, hhanded⟩ := hrely.mine rfl
    have hhere : P (w₁.calls me) (own me x₁.log) := by
      rw [hown]
      refine hP.call _ _ _ hexchange hopened hhanded (fun hsome hfinished => ?_) hP'
      obtain ⟨exchange, hexchange⟩ := Option.isSome_iff_exists.1 hsome
      exact (hrely.exchange exchange hexchange).2 hfinished
    have hother : ∀ j, j ≠ me → Function.update v me none j = v j :=
      fun j hj => Function.update_of_ne hj _ _
    rw [hx₁]
    refine ⟨Function.update_self .., ⟨hasked, ?_⟩, fun j _ => (accounted me).rely_refl j w₁, hhere⟩
    rcases (hquiet q hq).2 with hclose | hnone
    · refine ⟨stage, htracks.congr rfl rfl rfl rfl (closing_congr hother ?_
        (not_closing_of_none (Function.update_self ..))) fun _ j hj hidle => (hother j hj).trans hidle⟩
      rintro ⟨attempt, hattempt⟩
      rw [hv] at hattempt
      exact hclose attempt (Option.some.inj hattempt)
    · obtain ⟨hnone, hidle, hrest⟩ := htracks.of_none (hnone _ _ hhere)
      exact ⟨.unopened, hnone, fun j hj => (hother j hj).trans (hidle j hj), hrest⟩
  ask := by
    rintro w x q a _ hq ⟨hrunning, ⟨hasked, stage, htracks⟩, hothers, hP'⟩ ⟨t, -, rfl⟩
    have hunrecorded := (hquiet q hq).1
    refine ⟨hrunning, ⟨fun _ => ?_, stage, htracks.congr rfl rfl (records_cons hunrecorded t a _) ?_
      (fun _ => Iff.rfl) fun _ _ _ => id⟩, hothers, ?_⟩
    · simp
    · rw [own_cons_self, requests_cons hunrecorded]
    · rw [own_cons_self]
      exact hP.ask _ _ q t a hunrecorded hP'
  event w x f _ h := h.setCall ⟨rfl, rfl⟩ fun c o => hP.call c _ o rfl rfl rfl fun _ => id

/-- What a task has asked is not forgotten. -/
theorem own_ne_nil (h : own me l ≠ []) (e : Entry) : own me ((i, e) :: l) ≠ [] := by
  by_cases hi : i = me
  · subst hi
    simp
  · rwa [own_cons_of_ne hi]

/-- **Finishing** an exchange records it, unless it is finished already. -/
theorem wp_finish_stands {exchange : Exchange} {outcome : Outcome}
    (h : Stands me i (fun c _ => c.exchange = some exchange) w x) :
    (attending.under (accounted me) i).wp (Gateway.finish me exchange outcome)
      (fun _ => Stands me i fun c _ => c.exchange.isSome ∧ c.finished = true)
      (fun _ => Stands me i fun c _ => c.exchange.isSome ∧ c.finished = true) w x := by
  obtain ⟨hrunning, ⟨hasked, stage, htracks⟩, hothers, hexchange⟩ := h
  have hsome : (w.calls me).exchange.isSome := by rw [hexchange]; rfl
  refine wp_finish (fun hdone => ?_) (fun hfresh => ?_) ?_
  · exact ⟨hrunning, ⟨hasked, stage, htracks⟩, hothers, hsome, hdone⟩
  · -- nobody was closing it, and now task `i` is
    have hheld : records x.log = [] ∧ ∀ j, ¬Closing x.waits j := by
      cases stage with
      | unopened =>
        rw [htracks.1] at hsome
        cases hsome
      | held => exact htracks.2.2
      | closing k =>
        rw [htracks.2.1] at hfresh
        cases hfresh
      | recorded =>
        rw [htracks.2.1] at hfresh
        cases hfresh
    refine ⟨⟨?_, .closing i, ?_, ?_, hheld.1, fun j => ?_⟩, fun j hj =>
      (hothers j hj).setCall (fun _ h => ⟨h, fun _ => rfl⟩) fun _ => ⟨rfl, rfl, rfl⟩⟩
    · rw [World.setCall_calls_self]
      exact hasked
    · rw [World.setCall_calls_self]
      exact hsome
    · rw [World.setCall_calls_self]
    · by_cases hj : j = i
      · subst hj
        exact iff_of_true ⟨_, Function.update_self ..⟩ rfl
      · rw [Closing, Function.update_of_ne hj]
        exact iff_of_false (hheld.2 j) hj
  · rintro hfresh w₁ x₁ ⟨v, hv, ⟨hasked₁, stage₁, htracks₁⟩, hx₁, hrely, -, -⟩ closed _ ⟨t₁, -, rfl⟩
      w₂ - now _ ⟨t₂, -, rfl⟩ ms w₃ rfl a _ ⟨t₃, hok, rfl⟩
    obtain rfl : a = .ok () := hok
    obtain ⟨hexchange₁, hfinished₁⟩ := hrely.exchange exchange (by rw [World.setCall_calls_self]; exact hexchange)
    have hdone : (w₁.calls me).finished = true := hfinished₁ (by rw [World.setCall_calls_self])
    have hsome₁ : (w₁.calls me).exchange.isSome := by rw [hexchange₁]; rfl
    -- the close has kept everyone else from recording
    have hclosing : records x₁.log = [] ∧ ∀ j, Closing v j ↔ j = i := by
      have hi : Closing v i := ⟨_, hv⟩
      cases stage₁ with
      | unopened =>
        rw [htracks₁.1] at hsome₁
        cases hsome₁
      | held => exact absurd hi (htracks₁.2.2.2 i)
      | closing k =>
        obtain rfl := (htracks₁.2.2.2 i).1 hi
        exact htracks₁.2.2
      | recorded => exact absurd hi (htracks₁.2.2.2 i)
    have hstands : ∀ event, Stands me i (fun c _ => c.exchange.isSome ∧ c.finished = true)
        (w₁.setCall me fun c => { c with event := closedEvent c.event outcome closed ms })
        ⟨(i, ⟨t₃, .emit (.request event), .ok ()⟩) :: (i, ⟨t₂, .clock, now⟩) ::
          (i, ⟨t₁, .close exchange.response.attempt, closed⟩) :: x₁.log, x₁.waits, x₁.since⟩ := by
      intro event
      rw [hx₁]
      refine ⟨Function.update_self .., ⟨fun _ => ?_, .recorded, ?_, ?_, ?_, fun j hj => ?_⟩,
        fun j _ => ((accounted me).rely_refl j w₁).setCall (fun _ h => ⟨h, id⟩) fun _ => ⟨rfl, rfl, rfl⟩, ?_⟩
      · exact own_ne_nil (own_ne_nil (own_ne_nil (hasked₁ hsome₁) _) _) _
      · rw [World.setCall_calls_self]
        exact hsome₁
      · rw [World.setCall_calls_self]
        exact hdone
      · change (_ :: records x₁.log).length = 1
        rw [hclosing.1]
        rfl
      · obtain ⟨hji, hj⟩ := (closing_update_none j).1 hj
        exact hji ((hclosing.2 j).1 hj)
      · rw [World.setCall_calls_self]
        exact ⟨hsome₁, hdone⟩
    cases closed with
    | ok u => exact hstands _
    | error e => cases e <;> exact hstands _

/-! ### The call -/

/-- There is no exchange yet; `Gateway.open` was entered or not, and so much was
recorded. -/
def Before (opened : Bool) (count : ℕ) (c : CallState) (o : List Entry) : Prop :=
  c.exchange = none ∧ c.opened = opened ∧ c.handedOff = false ∧ (requests o).length = count

/-- There is an exchange, and it was handed over or not. -/
def During (exchange : Exchange) (handedOff : Bool) (c : CallState) (_ : List Entry) : Prop :=
  c.exchange = some exchange ∧ c.handedOff = handedOff

/-- The exchange is finished. -/
def After (c : CallState) (_ : List Entry) : Prop := c.exchange.isSome ∧ c.finished = true

theorem before_lasting (opened : Bool) (count : ℕ) : Lasting (Before opened count) where
  call := by
    rintro c c' o hexchange hopened hhanded - ⟨hnone, hentered, hkept, hcount⟩
    exact ⟨hexchange.trans hnone, hopened.trans hentered, hhanded.trans hkept, hcount⟩
  ask := by
    rintro c o q t a hq ⟨hnone, hentered, hkept, hcount⟩
    exact ⟨hnone, hentered, hkept, by rwa [requests_cons hq]⟩

theorem during_lasting (exchange : Exchange) (handedOff : Bool) : Lasting (During exchange handedOff) where
  call := by
    rintro c c' o hexchange - hhanded - ⟨hsome, hkept⟩
    exact ⟨hexchange.trans hsome, hhanded.trans hkept⟩
  ask _ _ _ _ _ _ h := h

/-- A task that has asked something has done so for good. -/
theorem Lasting.asked (hP : Lasting P) : Lasting fun c o => P c o ∧ o ≠ [] where
  call c c' o hexchange hopened hhanded hfinished h :=
    ⟨hP.call c c' o hexchange hopened hhanded hfinished h.1, h.2⟩
  ask c o q t a hq h := ⟨hP.ask c o q t a hq h.1, List.cons_ne_nil _ _⟩

/-- Who owes the record of call `me`. -/
def recorders (me : ℕ) : Owners (View World ℚ Call Answer) where
  waiting := Stands me me (Before false 0)
  refused := Stands me me (Before false 1)
  opening := Stands me me (Before true 0)
  failed := Stands me me (Before true 1)
  held exchange b := Stands me me (During exchange b)
  settled := Stands me me After

theorem tableFree_stands : TableFree (Stands me i P) := by
  rintro ⟨positions, cooldowns, calls⟩ ⟨positions', cooldowns', _⟩ x rfl h
  exact ⟨h.running, h.inv, fun j hj => ⟨(h.others j hj).exchange, (h.others j hj).mine⟩, h.here⟩

/-- A record that the call emits before it has an exchange. -/
theorem Stands.emit {opened : Bool} {event : Event} {a : Answer (.emit (.request event))}
    {x' : View World ℚ Call Answer} (h : Stands me me (Before opened 0) w x)
    (ha : (attending.under (accounted me) me).admits w x (.emit (.request event)) a x') :
    a = .ok () ∧ Stands me me (Before opened 1) w x' := by
  obtain ⟨t, hok, rfl⟩ := ha
  obtain ⟨hrunning, ⟨hasked, stage, htracks⟩, hothers, hnone, hopened, hhanded, hcount⟩ := h
  obtain ⟨-, hidle, hrec, -⟩ := htracks.of_none hnone
  have hrecords : records ((me, ⟨t, .emit (.request event), a⟩) :: x.log) = event :: records x.log := rfl
  have hown : requests (own me ((me, ⟨t, .emit (.request event), a⟩) :: x.log)) =
      event :: requests (own me x.log) := by
    rw [own_cons_self]
    rfl
  refine ⟨hok, hrunning, ⟨fun _ => ?_, .unopened, hnone, hidle, ?_, ?_⟩, hothers, hnone, hopened, hhanded, ?_⟩
  · simp
  · rw [hrecords, hown, hrec]
  · rw [hrecords, List.length_cons, hrec, hcount]
  · rw [hown, List.length_cons, hcount]

variable {lib : Lib} {settings : Settings} {limit : ℕ}

/-- **Opening** records a failure, and nothing else. -/
theorem wp_open_stands {payload : Payload} {headers : Headers} {rid : Str}
    (h : Stands me me (Before true 0) w x) :
    (attending.under (accounted me) me).wp (Gateway.open lib settings me payload headers rid)
      (fun exchange w x => Stands me me (During exchange false)
        (w.setCall me fun c => { c with exchange := some exchange, finished := false }) x)
      (fun _ => Stands me me (Before true 1)) w x := by
  have hasked : Lasting fun c o => Before true 0 c o ∧ o ≠ [] := (before_lasting true 0).asked
  have hneutral : Neutral (attending.under (accounted me) me) me Unrecorded (fun _ => True)
      (Stands me me fun c o => Before true 0 c o ∧ o ≠ []) :=
    stands_neutral hasked fun q hq => ⟨hq, .inr fun _ _ h => h.1.1⟩
  have hfirst : Neutral (attending.under (accounted me) me) me Unrecorded (fun _ => True)
      (Stands me me (Before true 0)) :=
    stands_neutral (before_lasting true 0) fun q hq => ⟨hq, .inr fun _ _ h => h.1⟩
  simp only [Gateway.open, wp_bind, clock, wp_ask, wp_update, wp_tryCatch]
  rintro started _ ⟨t, hadmits, rfl⟩
  have hstart : Stands me me (fun c o => Before true 0 c o ∧ o ≠ []) w
      { x with log := (me, ⟨t, .clock, started⟩) :: x.log } := by
    obtain ⟨hrunning, hinv, hothers, hhere⟩ := hfirst.ask w x Call.clock started _ trivial h ⟨t, hadmits, rfl⟩
    exact ⟨hrunning, hinv, hothers, hhere, by simp⟩
  refine wp_mono (fun exchange w₁ x₁ h₁ => ?_) (fun e w₁ x₁ h₁ => ?_)
    (hneutral.openInner tableFree_stands (fun q => unrecorded_of_opening) (fun _ _ => trivial) (fun _ _ => trivial)
      payload headers started _ _ (hstart.setCall ⟨rfl, rfl⟩ fun c o => hasked.call c _ o rfl rfl rfl fun _ => id))
  · obtain ⟨-, hrunning, ⟨-, stage, htracks⟩, hothers, ⟨hnone, hopened, hhanded, hcount⟩, hasked⟩ := h₁
    obtain ⟨-, hidle, hrec, -⟩ := htracks.of_none hnone
    refine ⟨hrunning, ⟨fun _ => hasked, .held, ?_, ?_, ?_, fun j => not_closing_of_none ?_⟩,
      fun j hj => (hothers j hj).setCall (fun exchange' hsome => ?_) fun hmine => absurd hmine hj, ?_⟩
    · rw [World.setCall_calls_self]
      rfl
    · rw [World.setCall_calls_self]
    · rw [hrec]
      exact List.eq_nil_of_length_eq_zero hcount
    · by_cases hj : j = me
      · rw [hj]
        exact hrunning
      · exact hidle j hj
    · rw [hnone] at hsome
      cases hsome
    · rw [World.setCall_calls_self]
      exact ⟨rfl, hhanded⟩
  · simp only [updateEvent, eventOf, emit, wp_update, wp_read, wp_pure, wp_ask, wp_bind, wp_ofExcept, wp_throw]
    intro now x₂ hnow a x₃ hemit
    have h₂ := hneutral.ask w₁ x₁ Call.clock now x₂ trivial h₁ hnow
    obtain ⟨rfl, h₃⟩ := Stands.emit (by
      exact h₂.setCall ⟨rfl, rfl⟩
        fun c o h => (before_lasting true 0).call c _ o rfl rfl rfl (fun _ => id) h.1) hemit
    exact h₃

/-- Relaying keeps what lasts. -/
theorem relaying_neutral (hP : Lasting P) :
    Neutral (attending.under (accounted me) me) me Relaying (fun _ => True) (Stands me me P) :=
  stands_neutral hP fun q hq => by cases q <;> first | exact hq.elim | exact ⟨trivial, .inl nofun⟩

/-- The record of a call passes from one owner to the next. -/
theorem recorders_serving :
    Serving (attending.under (accounted me) me) lib settings me (recorders me) where
  waiting := (relaying_neutral (before_lasting false 0)).mono fun _ => Receiving.relaying
  held exchange b := ((relaying_neutral (during_lasting exchange b)).mono fun _ => Relayed.relaying).sparing
    fun _ _ => trivial
  refuse _ _ _ _ _ h ha := (Stands.emit h ha).2
  enter _ _ h := h.setCall ⟨rfl, rfl⟩ fun _ _ ⟨hnone, _, hkept, hcount⟩ => ⟨hnone, rfl, hkept, hcount⟩
  «open» _ _ _ _ _ h := wp_open_stands h
  hand _ _ _ h := h.setCall ⟨rfl, rfl⟩ fun _ _ ⟨hsome, _⟩ => ⟨hsome, rfl⟩
  finish _ _ _ _ _ h := wp_finish_stands ⟨h.running, h.inv, h.others, h.here.1⟩
  fresh _ _ h := ⟨h.here.1, h.here.2.1⟩
  denied _ _ h := h.here.1
  entered _ _ h := ⟨h.here.1, h.here.2.1⟩
  holds _ _ _ _ h := h.here
  outcome _ _ _ := ⟨fun h => h.setCall ⟨rfl, rfl⟩ fun _ _ => id,
    fun h => h.setCall ⟨rfl, rfl⟩ fun _ _ => id,
    fun _ _ h => h.setCall ⟨rfl, rfl⟩ fun _ _ => id⟩

/-- What the call leaves: its record, if it had no exchange, and a finished exchange
otherwise. -/
def Accounts (me : ℕ) : Post World ℚ Call Answer Err Unit := fun i r w o => i = me →
  ((w.calls me).exchange = none →
    (r = .ok () ∨ (w.calls me).handedOff = true ∨ (w.calls me).opened = true) →
    (requests o).length = 1) ∧
  ((w.calls me).exchange.isSome → (w.calls me).finished = true)

/-- What the call leaves is there to stay. -/
theorem accounts_stable (i : ℕ) (r : Except Err Unit) (w w' : World) (o : List Entry)
    (h : Accounts me i r w o) (hrely : Steady me i w w') : Accounts me i r w' o := by
  intro hi
  obtain ⟨hexchange, hopened, hhanded⟩ := hrely.mine hi
  rw [hexchange, hopened, hhanded]
  refine ⟨(h hi).1, fun hsome => ?_⟩
  obtain ⟨exchange, hsome'⟩ := Option.isSome_iff_exists.1 hsome
  exact (hrely.exchange exchange hsome').2 ((h hi).2 hsome)

/-- A task that stands at its end delivers what it accounts for. -/
theorem Stands.delivers {r : Except Err Unit} (h : Stands me i P w x)
    (hP : P (w.calls me) (own i x.log) → Accounts me i r w (own i x.log)) :
    Delivers (accounted me) (Accounts me) i r w x := by
  refine ⟨?_, h.others, hP h.here⟩
  rw [← h.running, Function.update_eq_self]
  exact h.inv

/-- A call that is over accounts for its record. -/
theorem Over.delivers {r : Except Err Reply} (h : (recorders me).Over r w x) :
    Delivers (accounted me) (Accounts me) me (r.map fun _ => ()) w x := by
  rcases h with ⟨⟨e, rfl⟩, hwaiting⟩ | hrefused | hfailed | hsettled
  · refine hwaiting.delivers fun ⟨hnone, hopened, hhanded, _⟩ _ => ⟨fun _ hended => ?_, fun hsome => ?_⟩
    · rw [hopened, hhanded] at hended
      rcases hended with h | h | h <;> cases h
    · rw [hnone] at hsome
      cases hsome
  · refine hrefused.delivers fun ⟨hnone, _, _, hcount⟩ _ => ⟨fun _ _ => hcount, fun hsome => ?_⟩
    rw [hnone] at hsome
    cases hsome
  · refine hfailed.delivers fun ⟨hnone, _, _, hcount⟩ _ => ⟨fun _ _ => hcount, fun hsome => ?_⟩
    rw [hnone] at hsome
    cases hsome
  · refine hsettled.delivers fun ⟨hsome, hfinished⟩ _ => ⟨fun hnone => ?_, fun _ => hfinished⟩
    rw [hnone] at hsome
    cases hsome

/-- **Every task around a call complies.** -/
theorem involved_complies {p : Py Unit} (hp : involved lib settings limit me i p)
    (hinv : (accounted me).inv w l v) (hi : v i = none) (hfresh : own i l = []) :
    attending.Complies (accounted me) (Accounts me) i p w ⟨l, v, w⟩ := by
  unfold involved at hp
  split at hp
  · rename_i hme
    subst hme
    obtain ⟨request, rid, rfl⟩ := hp
    have hnone : (w.calls i).exchange = none := by
      by_contra hsome
      exact hinv.1 (Option.isSome_iff_ne_none.2 hsome) hfresh
    have hstart : Stands i i (fun c o => c.exchange = none ∧ requests o = []) w ⟨l, v, w⟩ :=
      ⟨hi, hinv, fun j _ => (accounted i).rely_refl j w, hnone, by rw [hfresh]; rfl⟩
    rw [Complies, wp_bind]
    refine wp_mono (fun reply w₁ x₁ h₁ => ?_) (fun e w₁ x₁ h₁ => ?_)
      (recorders_serving.serve request rid (hstart.setCall ⟨hnone.symm, rfl⟩ fun c o h =>
        ⟨rfl, rfl, rfl, by rw [h.2]; rfl⟩))
    · exact Over.delivers h₁
    · exact Over.delivers h₁
  · rename_i hother
    have hstart : ∀ {P}, P (w.calls me) (own i l) → Stands me i P w ⟨l, v, w⟩ :=
      fun hP => ⟨hi, hinv, fun j _ => (accounted me).rely_refl j w, hP⟩
    rcases hp with ⟨outcome, rfl⟩ | ⟨f, hf, rfl⟩
    · simp only [Complies, finishAgain, wp_bind, wp_read]
      split
      · rename_i exchange hexchange
        refine wp_mono (fun _ w₁ x₁ h₁ => ?_) (fun e w₁ x₁ h₁ => ?_) (wp_finish_stands (hstart hexchange))
        · exact h₁.delivers fun _ hme => absurd hme hother
        · exact h₁.delivers fun _ hme => absurd hme hother
      · exact (hstart (P := fun _ _ => True) trivial).delivers fun _ hme => absurd hme hother
    · rw [Complies, wp_update]
      obtain ⟨hasked, stage, htracks⟩ := hinv
      have hsteady : ∀ j, Steady me j w (f w) := fun j =>
        ⟨fun exchange hexchange => by rw [hf w]; exact ⟨hexchange, id⟩,
          fun _ => by rw [hf w]; exact ⟨rfl, rfl, rfl⟩⟩
      refine Stands.delivers (P := fun _ _ => True) ⟨hi, ⟨?_, stage, htracks.congr ?_ ?_ rfl rfl
        (fun _ => Iff.rfl) fun _ _ _ => id⟩, fun j _ => hsteady j, trivial⟩ fun _ hme => absurd hme hother
      · rw [hf w]
        exact hasked
      · rw [hf w]
      · rw [hf w]

/-- **Exactly one record.**  Whatever else finishes the exchange of a call, at any time
and any number of times, the call is never recorded twice, and once all have ended it
is recorded, if it returned a response or entered `Gateway.open`. -/
theorem one_record (lib : Lib) (settings : Settings) (limit me : ℕ) (w : World)
    (hnone : (w.calls me).exchange = none) (c : Pool World ℚ Call Answer Err Unit)
    (hc : attending.Reachable (involved lib settings limit me) w c) :
    (records c.log).length ≤ 1 ∧
    ∀ r, result c me = some r → (∀ i, i < c.tasks.length → (result c i).isSome) →
      (r = .ok () ∨ (c.state.calls me).handedOff = true ∨ (c.state.calls me).opened = true) →
      (records c.log).length = 1 := by
  have h0 : (accounted me).inv w [] fun _ => none :=
    ⟨fun hsome => absurd hnone (Option.isSome_iff_ne_none.1 hsome), .unopened, hnone, fun _ _ => rfl, rfl,
      Nat.zero_le 1⟩
  have hhonours := Reachable.honours accounts_stable
    (fun i p hp w l v hinv hi hfresh => involved_complies hp hinv hi hfresh) h0 hc
  obtain ⟨-, stage, htracks⟩ := hhonours.shared
  constructor
  · cases stage with
    | unopened => exact htracks.2.2.2
    | held => rw [htracks.2.2.1]; exact Nat.zero_le 1
    | closing k => rw [htracks.2.2.1]; exact Nat.zero_le 1
    | recorded => exact htracks.2.2.1.le
  · intro r hr hended hreturned
    obtain ⟨hcount, hfinished⟩ := hhonours.result_post hr rfl
    cases stage with
    | unopened => rw [htracks.2.2.1]; exact hcount htracks.1 hreturned
    | held =>
      have hdone := hfinished htracks.1
      rw [htracks.2.1] at hdone
      cases hdone
    | closing k =>
      -- the task that is closing the exchange has not ended
      obtain ⟨attempt, hwaits⟩ := (htracks.2.2.2 k).2 rfl
      obtain ⟨hlt, hnoresult⟩ := result_of_waits hwaits
      have hresult := hended k hlt
      rw [hnoresult] at hresult
      cases hresult
    | recorded => exact htracks.2.2.1

end

/-- A call, and two other finishes of its exchange. -/
def Demo.tasks (i : ℕ) : Py Unit :=
  if i = 0 then do
    let _ ← serve bodies Application.Demo.settings 1024 0 chatRequest (lit "r")
    return ()
  else finishAgain 0 .cancelled

/-- Both start while the call is reading the body.  The first is still closing the
response when the call ends. -/
def Demo.overlapping : List Move :=
  [.start, .resume 0, .resume 0, .resume 0, .start, .start, .resume 0, .resume 0, .resume 1]

/-- Three tasks finish one exchange, and it is recorded once. -/
theorem one_record_three_finishes : ∃ c,
    attending.Reachable (involved Demo.bodies Application.Demo.settings 1024 0)
      Application.Demo.world c ∧ c.tasks.length = 3 ∧ (records c.log).length = 1 := by
  obtain ⟨c, hplay, hended⟩ := (Option.any_eq_true _ _).1 (by decide +kernel :
    (System.play (fun l q => Demo.upstreams Demo.completion (l.map Prod.snd) q)
      (fun _ _ _ st => decide (SinkOk st)) Demo.tasks Demo.overlapping
      ⟨Application.Demo.world, [], []⟩).any fun c =>
        c.tasks.length = 3 && ((List.range 3).all fun i => (result c i).isSome) &&
          (c.state.calls 0).opened)
  simp only [Bool.and_eq_true, decide_eq_true_eq, List.all_eq_true, List.mem_range] at hended
  obtain ⟨⟨htasks, hall⟩, hopened⟩ := hended
  have hc : attending.Reachable (involved Demo.bodies Application.Demo.settings 1024 0)
      Application.Demo.world c := by
    refine System.play_steps (fun _ _ _ st hst => (of_decide_eq_true hst : SinkOk st)) (fun i => ?_) _ hplay
    unfold involved Demo.tasks
    split
    · exact ⟨Demo.chatRequest, lit "r", rfl⟩
    · exact .inl ⟨.cancelled, rfl⟩
  obtain ⟨r, hr⟩ := Option.isSome_iff_exists.1 (hall 0 (by omega))
  exact ⟨c, hc, htasks, (one_record Demo.bodies Application.Demo.settings 1024 0 Application.Demo.world rfl
    c hc).2 r hr (fun i hi => hall i (by omega)) (.inr (.inr hopened))⟩

end Ingress
end SwitchyardGateway
