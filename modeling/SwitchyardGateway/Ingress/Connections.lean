/-
# One open response at a time

A call holds the response of its last attempt open, or none.  It sends when nothing
is open, reads, relays and closes what is open, and does not touch a response again
once it was closed.

`Disciplined` says this of every question of a log, by the log before it.  An opening
keeps it because it keeps the books (`Orderly`), and the rest of a call because the
response has one owner at a time (`holders`).
-/

import SwitchyardGateway.Ingress.Leaks

namespace SwitchyardGateway
namespace Ingress

open Coop Coop.Discipline Python Application

variable {lib : Lib} {settings : Settings} {limit me : ℕ} {w : World} {l : List Entry}

/-- A response that was opened and not closed. -/
def Open (l : List Entry) (n : ℕ) : Prop := n ∈ opened l ∧ n ∉ closes l

/-- What a question finds open. -/
def Proper (l : List Entry) : Call → Prop
  | .send _ _ _ _ => ∀ n, ¬Open l n
  | .read n | .close n => Open l n
  | .iterate | .yield _ | .respond => ∃ n, Open l n
  | _ => True

/-- A log in which every question finds open what it should. -/
def Disciplined : List Entry → Prop
  | [] => True
  | e :: l => Proper l e.call ∧ Disciplined l

theorem Disciplined.suffix {l' : List Entry} (h : Disciplined l) (hl : l' <:+ l) : Disciplined l' := by
  induction l with
  | nil =>
    obtain rfl := List.suffix_nil.1 hl
    exact h
  | cons e l ih =>
    rcases List.suffix_cons_iff.1 hl with rfl | hl
    · exact h
    · exact ih h.2 hl

/-- **Only the response of the last attempt** can be open. -/
theorem Disciplined.last (h : Disciplined l) {n : ℕ} (hopen : Open l n) : n + 1 = (sends l).length := by
  induction l with
  | nil => cases hopen.1
  | cons e l ih =>
    obtain ⟨t, q, a⟩ := e
    cases q with
    | send model endpoint request headers =>
      cases a with
      | ok upstream =>
        rcases List.mem_cons.1 hopen.1 with rfl | hmem
        · rfl
        · exact absurd ⟨hmem, hopen.2⟩ (h.1 n)
      | error e => exact absurd hopen (h.1 n)
    | close m => exact ih h.2 ⟨hopen.1, fun hmem => hopen.2 (List.mem_cons_of_mem m hmem)⟩
    | _ => exact ih h.2 hopen

theorem open_of_books {sent n : ℕ} {dropped : Prop} (h : Books sent [n] dropped l) : Open l n :=
  ⟨h.oneOpen.1, List.count_eq_zero.1 h.oneOpen.2.1⟩

theorem not_open_of_books {sent : ℕ} {dropped : Prop} (h : Books sent [] dropped l) (n : ℕ) : ¬Open l n :=
  fun hopen => hopen.2 ((h.balance : (opened l).Perm (closes l)).mem_iff.1 hopen.1)

/-- An opening is disciplined. -/
theorem disciplined_orderly : Orderly Disciplined where
  aside q t a l hq h := by
    refine ⟨?_, h⟩
    cases q <;> first | exact hq.elim | trivial
  send sent model endpoint request headers t a l hbooks h := ⟨not_open_of_books hbooks, h⟩
  close sent n t a l hbooks h := ⟨open_of_books hbooks, h⟩

/-- A question that finds what it should. -/
theorem Disciplined.cons (h : Disciplined l) {q : Call} (hq : Proper l q) (t : ℚ) (a : Answer q) :
    Disciplined (⟨t, q, a⟩ :: l) := ⟨hq, h⟩

/-- What is asked while a response is relayed finds it open. -/
theorem Relayed.proper {attempt : ℕ} {q : Call} (hq : Relayed attempt q) (hopen : Open l attempt) :
    Proper l q := by
  cases q with
  | read n =>
    obtain rfl : n = attempt := hq
    exact hopen
  | yield _ | iterate | respond => exact ⟨attempt, hopen⟩
  | clock => trivial
  | _ => exact hq.elim

/-- What is asked while a request is read uses no response. -/
theorem Receiving.proper {q : Call} (hq : Receiving q) : Proper l q := by
  cases q <;> first | exact hq.elim | trivial

/-- Who holds the response of call `me`, in a disciplined log. -/
def holders (me : ℕ) : Owners (List Entry) where
  waiting w l := (closers me).waiting w l ∧ Disciplined l
  refused w l := (w.calls me).exchange = none ∧ Disciplined l
  opening w l := (closers me).opening w l ∧ Disciplined l
  failed w l := Without true (w.calls me) ∧ Disciplined l
  held exchange b w l := (closers me).held exchange b w l ∧ Disciplined l
  settled _ l := Disciplined l

/-- **Finishing** closes the response, which is open, and asks nothing more of it. -/
theorem wp_finish_disciplined {exchange : Exchange} {b : Bool} {outcome : Outcome}
    (h : (holders me).held exchange b w l) :
    (lone me).wp (Gateway.finish me exchange outcome) (fun _ => (holders me).settled)
      (fun _ => (holders me).settled) w l := by
  obtain ⟨⟨⟨-, -, hfresh⟩, sent, hbooks⟩, hdisciplined⟩ := h
  refine wp_finish (fun hdone => ?_) (fun _ => trivial) ?_
  · rw [hfresh] at hdone
    cases hdone
  · rintro - w₁ l₁ ⟨-, rfl⟩ closed _ ⟨t₁, -, rfl⟩ w₂ - now _ ⟨t₂, -, rfl⟩ ms w₃ rfl a _ ⟨t₃, -, rfl⟩
    have hsettled := ((hdisciplined.cons (q := .close _) (open_of_books hbooks) t₁ closed).cons (q := .clock) trivial t₂ now).cons
      (q := .emit (.request _)) trivial t₃ a
    cases a with
    | error e => exact hsettled
    | ok u =>
      cases closed with
      | ok u => exact hsettled
      | error e => cases e <;> exact hsettled

/-- **Opening** is disciplined. -/
theorem wp_open_disciplined {payload : Payload} {headers : Headers} {rid : Str}
    (h : (holders me).opening w l) :
    (lone me).wp (Gateway.open lib settings me payload headers rid)
      (fun exchange w l => (holders me).held exchange false
        (w.setCall me fun c => { c with exchange := some exchange, finished := false }) l)
      (fun _ => (holders me).failed) w l := by
  refine wp_mono (fun exchange w₁ l₁ h₁ => ?_) (fun e w₁ l₁ h₁ => ⟨h₁.1.1, h₁.2.2⟩)
    (wp_and (wp_open_without h.1.1) (wp_open_kept disciplined_orderly ⟨h.1.2, h.2⟩))
  refine ⟨⟨?_, h₁.2.1⟩, h₁.2.2⟩
  rw [World.setCall_calls_self]
  exact ⟨rfl, h₁.1.2, rfl⟩

/-- The response of a call passes from one holder to the next. -/
theorem holders_serving : Serving (lone me) lib settings me (holders me) where
  waiting := .of_calls
    (P := fun c l => ((Without false c ∧ c.handedOff = false) ∧ Books 0 [] False l) ∧ Disciplined l)
    (fun _ q t a _ hq h => ⟨⟨h.1.1, h.1.2.cons hq.relaying.uninvolved t a⟩, h.2.cons hq.proper t a⟩)
    fun _ _ _ _ h => h
  held exchange b := .of_calls
    (P := fun c l => (With exchange b c ∧ ∃ sent, Books sent [exchange.response.attempt] False l) ∧ Disciplined l)
    (fun _ _ t a _ hq h => ⟨⟨h.1.1, h.1.2.imp fun _ h => h.cons hq.relaying.uninvolved t a⟩,
      h.2.cons (hq.proper (open_of_books h.1.2.choose_spec)) t a⟩)
    fun _ _ _ _ h => h
  refuse := by
    rintro w l event a _ h ⟨t, -, rfl⟩
    exact ⟨h.1.1.1.1, h.2.cons (q := .emit (.request event)) trivial t a⟩
  enter w l h := by
    have hclosers : Serving (lone me) lib settings me (closers me) := closers_serving
    exact ⟨hclosers.enter w l h.1, h.2⟩
  «open» payload headers rid w l h := wp_open_disciplined h
  hand exchange w l h := by
    have hclosers : Serving (lone me) lib settings me (closers me) := closers_serving
    exact ⟨hclosers.hand exchange w l h.1, h.2⟩
  finish exchange b outcome w l h := wp_finish_disciplined h
  fresh w l h := h.1.1.1
  denied w l h := h.1
  entered w l h := h.1
  holds exchange b w l h := ⟨h.1.1.1, h.1.1.2.1⟩
  outcome outcome w l := by
    refine ⟨fun h => ⟨⟨?_, h.1.2⟩, h.2⟩, fun h => ⟨?_, h.2⟩, fun exchange b h => ⟨⟨?_, h.1.2⟩, h.2⟩⟩ <;>
      rw [World.setCall_calls_self]
    · exact h.1.1
    · exact h.1
    · exact h.1.1

/-- **Every call is disciplined**: whatever its ports, the sink and the framework do, it
sends when nothing is open, uses and closes a response only while that is open, and
never has another open than that of its last attempt. -/
theorem serve_disciplined {request : Request} {rid : Str} {w' : World} {r : Except Err Reply}
    (h : (lone me).Run (serve lib settings limit me request rid) w [] r w' l) :
    Disciplined l ∧ ∀ l', l' <:+ l → ∀ n, Open l' n → n + 1 = (sends l').length := by
  have hover : (holders me).Over r w' l :=
    h.result (P := (holders me).Over) (holders_serving.serve request rid ⟨⟨by simp [Without], .nil⟩, trivial⟩)
  have hdisciplined : Disciplined l := by
    rcases hover with ⟨-, hover⟩ | hover | hover | hover
    · exact hover.2
    · exact hover.2
    · exact hover.2
    · exact hover
  exact ⟨hdisciplined, fun l' hl n hopen => (hdisciplined.suffix hl).last hopen⟩

/-- One replica is not ready, the other completes. -/
def Demo.failover (l : List Entry) (q : Call) : ℚ × Answer q :=
  (Application.Demo.now l, Application.Demo.answer (fun endpoint =>
      .ok (if endpoint.name = lit "a" then Application.Demo.upstream 503 else answered completion))
    (.ok ()) (Application.Demo.now l) q)

/-- The run of a call that fails over. -/
def Demo.failoverRun : Except Err Reply × World × List Entry :=
  exec failover (serve bodies Application.Demo.settings 1024 0 chatRequest (lit "r")) Application.Demo.world []

/-- A call that fails over opens two responses, and the second after it closed the first. -/
theorem serve_disciplined_failover : Disciplined Demo.failoverRun.2.2 ∧
    opened Demo.failoverRun.2.2 = [1, 0] ∧ closes Demo.failoverRun.2.2 = [1, 0] := by
  have hrun : (lone 0).Run (serve Demo.bodies Application.Demo.settings 1024 0 Demo.chatRequest (lit "r"))
      Application.Demo.world [] Demo.failoverRun.1 Demo.failoverRun.2.1 Demo.failoverRun.2.2 :=
    run_of_exec Demo.failover (fun _ _ => trivial) rfl
  exact ⟨(serve_disciplined hrun).1, by decide +kernel, by decide +kernel⟩

end Ingress
end SwitchyardGateway
