/-
# No response is left open

A response belongs to `Gateway.open` until it is returned in an exchange, then to
`chat`, then to the stream it may be handed to; whoever has it closes it once.
Every port may raise or be cancelled: the router, the compressor, the transport,
the chunks, the close itself and the event sink.

The code keeps this but for one statement: `Gateway.open` records the failure of a
replica that has answered before it owns the answer in any `try`.
`closed_once_iff` says that a response is left open exactly if the sink raised there.
-/

import SwitchyardGateway.Application.Responses
import SwitchyardGateway.Ingress.Serving
import SwitchyardGateway.Ingress.Outcomes

namespace SwitchyardGateway
namespace Ingress

open Coop Coop.Discipline Python Application

variable {lib : Lib} {settings : Settings} {limit me : ℕ}

theorem Relaying.uninvolved {q : Call} (hq : Relaying q) : Uninvolved q := by
  cases q <;> first | exact hq.elim | trivial

/-- A call before its exchange. -/
def Without (opened : Bool) (c : CallState) : Prop := c.exchange = none ∧ c.opened = opened

/-- A call that has one, and has not begun to finish it. -/
def With (exchange : Exchange) (handedOff : Bool) (c : CallState) : Prop :=
  c.exchange = some exchange ∧ c.handedOff = handedOff ∧ c.finished = false

/-- Who has to close the response of call `me`. -/
def closers (me : ℕ) : Owners (List Entry) where
  waiting w l := (Without false (w.calls me) ∧ (w.calls me).handedOff = false) ∧ Books 0 [] False l
  refused w l := (w.calls me).exchange = none ∧ Books 0 [] False l
  opening w l := (Without true (w.calls me) ∧ (w.calls me).handedOff = false) ∧ Books 0 [] False l
  failed w l := Without true (w.calls me) ∧ Abandoned l
  held exchange b w l := With exchange b (w.calls me) ∧ ∃ sent, Books sent [exchange.response.attempt] False l
  settled _ l := ∃ sent, Books sent [] False l

/-- **Opening** leaves the variables of the call alone. -/
theorem wp_open_without {payload : Payload} {headers : Headers} {rid : Str} {w : World} {l : List Entry}
    (h : Without true (w.calls me) ∧ (w.calls me).handedOff = false) :
    (lone me).wp (Gateway.open lib settings me payload headers rid)
      (fun _ w _ => Without true (w.calls me) ∧ (w.calls me).handedOff = false)
      (fun _ w _ => Without true (w.calls me) ∧ (w.calls me).handedOff = false) w l := by
  have hvars : Neutral (lone me) me (fun _ => True) (fun _ => True) fun w _ =>
      Without true (w.calls me) ∧ (w.calls me).handedOff = false :=
    .of_calls (P := fun c _ => Without true c ∧ c.handedOff = false) (fun _ _ _ _ _ _ h => h)
      fun _ _ _ _ h => h
  refine wp_open (hvars.mono fun _ _ => trivial) (hvars.mono fun _ _ => trivial)
    (fun _ _ => trivial) rid (fun started w l _ h => ?_) h
  exact wp_mono (fun _ _ _ h => h.2) (fun _ _ _ h => h)
    (hvars.openInner (fun w w' _ hcalls h => by simpa only [hcalls] using h) (fun _ _ => trivial)
      (fun _ _ => trivial) (fun _ _ => trivial) payload headers started w l h)

/-- It leaves its response in the exchange. -/
theorem wp_open_lone {payload : Payload} {headers : Headers} {rid : Str} {w : World} {l : List Entry}
    (h : (closers me).opening w l) :
    (lone me).wp (Gateway.open lib settings me payload headers rid)
      (fun exchange w l => (closers me).held exchange false
        (w.setCall me fun c => { c with exchange := some exchange, finished := false }) l)
      (fun _ => (closers me).failed) w l := by
  refine wp_mono (fun exchange w₁ l₁ h₁ => ?_) (fun e w₁ l₁ h₁ => ⟨h₁.1.1, h₁.2⟩)
    (wp_and (wp_open_without h.1) (wp_open_books h.2))
  refine ⟨?_, h₁.2⟩
  rw [World.setCall_calls_self]
  exact ⟨rfl, h₁.1.2, rfl⟩

/-- **Finishing** closes the response. -/
theorem wp_finish_lone {exchange : Exchange} {b : Bool} {outcome : Outcome} {w : World} {l : List Entry}
    (h : (closers me).held exchange b w l) :
    (lone me).wp (Gateway.finish me exchange outcome) (fun _ => (closers me).settled)
      (fun _ => (closers me).settled) w l := by
  obtain ⟨⟨-, -, hfresh⟩, sent, hbooks⟩ := h
  refine wp_finish (fun hdone => ?_) (fun _ => trivial) ?_
  · rw [hfresh] at hdone
    cases hdone
  · rintro - w₁ l₁ ⟨-, rfl⟩ closed _ ⟨t₁, -, rfl⟩ w₂ - now _ ⟨t₂, -, rfl⟩ ms w₃ rfl a _ ⟨t₃, -, rfl⟩
    have hsettled := ((hbooks.closed t₁ closed).cons (q := .clock) trivial t₂ now).cons
      (q := .emit (.request _)) trivial t₃ a
    cases a with
    | error e => exact ⟨sent, hsettled⟩
    | ok u =>
      cases closed with
      | ok u => exact ⟨sent, hsettled⟩
      | error e => cases e <;> exact ⟨sent, hsettled⟩

/-- The response of a call passes from one owner to the next. -/
theorem closers_serving : Serving (lone me) lib settings me (closers me) where
  waiting := .of_calls (P := fun c l => (Without false c ∧ c.handedOff = false) ∧ Books 0 [] False l)
    (fun _ _ t a _ hq h => ⟨h.1, h.2.cons hq.relaying.uninvolved t a⟩) fun _ _ _ _ h => h
  held exchange b := .of_calls
    (P := fun c l => With exchange b c ∧ ∃ sent, Books sent [exchange.response.attempt] False l)
    (fun _ _ t a _ hq h => ⟨h.1, h.2.imp fun _ h => h.cons hq.relaying.uninvolved t a⟩) fun _ _ _ _ h => h
  refuse := by
    rintro w l event a _ h ⟨t, -, rfl⟩
    exact ⟨h.1.1.1, h.2.cons (q := .emit (.request event)) trivial t a⟩
  enter w l h := by
    refine ⟨?_, h.2⟩
    rw [World.setCall_calls_self]
    exact ⟨⟨h.1.1.1, rfl⟩, h.1.2⟩
  «open» payload headers rid w l h := wp_open_lone h
  hand exchange w l h := by
    refine ⟨?_, h.2⟩
    rw [World.setCall_calls_self]
    exact ⟨h.1.1, rfl, h.1.2.2⟩
  finish exchange b outcome w l h := wp_finish_lone h
  fresh w l h := h.1.1
  denied w l h := h.1
  entered w l h := h.1
  holds exchange b w l h := ⟨h.1.1, h.1.2.1⟩
  outcome outcome w l := by
    refine ⟨fun h => ⟨?_, h.2⟩, fun h => ⟨?_, h.2⟩, fun exchange b h => ⟨?_, h.2⟩⟩ <;>
      rw [World.setCall_calls_self]
    · exact h.1
    · exact h.1
    · exact h.1

/-- **No response is left open**, by a whole call or by `Gateway.open`, unless the sink
raises on the failure of a replica that had answered. -/
theorem closed_once_iff (lib : Lib) (settings : Settings) (limit me : ℕ) :
    (∀ request rid w w' r l, (lone me).Run (serve lib settings limit me request rid) w [] r w' l →
      (ClosedOnce l ↔ ∀ e ∈ l, ¬Dropped e)) ∧
    ∀ payload headers rid w w' r l,
      (lone me).Run (Gateway.open lib settings me payload headers rid) w [] r w' l →
      (OneOpen r l ↔ ∀ e ∈ l, ¬Dropped e) := by
  -- what the books say when nothing is owed, or a record was dropped
  have hkept : ∀ {sent still} {l : List Entry}, Books sent still False l → ∀ e ∈ l, ¬Dropped e :=
    fun h e he hd => h.dropped.1 ⟨e, he, hd⟩
  have hfailed : ∀ l, Abandoned l → (ClosedOnce l ↔ ∀ e ∈ l, ¬Dropped e) := by
    rintro l ⟨sent, h | ⟨n, h⟩⟩
    · exact iff_of_true h.closedOnce (hkept h)
    · obtain ⟨e, he, hd⟩ := h.dropped.2 trivial
      exact iff_of_false h.not_closedOnce fun hall => hall e he hd
  constructor
  · intro request rid w w' r l hrun
    have hover : (closers me).Over r w' l :=
      hrun.result (P := (closers me).Over) (closers_serving.serve request rid ⟨by simp [Without], .nil⟩)
    rcases hover with ⟨-, -, hbooks⟩ | ⟨-, hbooks⟩ | ⟨-, h⟩ | ⟨sent, hbooks⟩
    · exact iff_of_true hbooks.closedOnce (hkept hbooks)
    · exact iff_of_true hbooks.closedOnce (hkept hbooks)
    · exact hfailed l h
    · exact iff_of_true hbooks.closedOnce (hkept hbooks)
  · intro payload headers rid w w' r l hrun
    have hends := hrun.ends (wp_open_books .nil)
    cases r with
    | ok exchange =>
      obtain ⟨sent, hbooks⟩ := hends
      exact iff_of_true hbooks.oneOpen (hkept hbooks)
    | error e => exact hfailed l hends

instance (l : List Entry) : Decidable (ClosedOnce l) :=
  inferInstanceAs (Decidable (∀ n ∈ opened l, (closes l).count n = 1))

/-- The run of a call whose upstream answers with a completion. -/
def Demo.servedRun : Except Err Reply × World × List Entry :=
  exec (upstreams completion)
    (serve bodies Application.Demo.settings 1024 0 chatRequest (lit "r")) Application.Demo.world []

/-- A completion is read and its response closed. -/
theorem completion_closed : ClosedOnce Demo.servedRun.2.2 := by
  have hrun : (lone 0).Run (serve Demo.bodies Application.Demo.settings 1024 0 Demo.chatRequest (lit "r"))
      Application.Demo.world [] Demo.servedRun.1 Demo.servedRun.2.1 Demo.servedRun.2.2 :=
    run_of_exec (Demo.upstreams Demo.completion) (fun _ _ => trivial) rfl
  refine ((closed_once_iff Demo.bodies Application.Demo.settings 1024 0).1 _ _ _ _ _ _ hrun).2 ?_
  have hsink : Demo.servedRun.2.2.all (fun e => decide (SinkOk e)) = true := by decide +kernel
  intro e he hdropped
  have hok : SinkOk e := of_decide_eq_true (List.all_eq_true.1 hsink e he)
  unfold Dropped at hdropped
  split at hdropped
  · cases hok
  · exact hdropped

/-- A replica that is not ready, and a sink that is broken. -/
def Demo.broken (l : List Entry) : (q : Call) → ℚ × Answer q
  | .emit _ => (Application.Demo.now l, .error (.exc .other))
  | q => (Application.Demo.now l, Application.Demo.answer (fun _ => .ok (Application.Demo.upstream 503))
      (.ok ()) (Application.Demo.now l) q)

/-- **A response is left open**: it was answered 503, and recording that raised. -/
theorem dropped_record_leaks : ∃ r w' l,
    (lone 0).Run (serve Demo.bodies Application.Demo.settings 1024 0 Demo.chatRequest (lit "r"))
      Application.Demo.world [] r w' l ∧ opened l = [0] ∧ closes l = [] ∧ ¬ClosedOnce l := by
  refine ⟨_, _, _, exec_run (fun w w' : World => w'.calls 0 = w.calls 0) _ (fun _ => rfl)
    Demo.broken (fun _ _ => trivial) _ _ _, ?_⟩
  exact ⟨by decide +kernel, by decide +kernel, by decide +kernel⟩

end Ingress
end SwitchyardGateway
