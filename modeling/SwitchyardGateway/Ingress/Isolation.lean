/-
# Calls that overlap

The gateway serves any number of calls on one loop, and what they share is its two
tables.  A call writes its own variables, and besides them nothing but the tables
(`apart_serve`).  So whatever else the gateway serves, a call that has ended is a run
of its own, in which others have rewritten the tables wherever it waited and have not
touched its variables (`calls_isolated`): what is proved of a call on its own is true
of every call of a gateway that serves many.
-/

import SwitchyardGateway.Coop.Isolation
import SwitchyardGateway.Ingress.Records

namespace SwitchyardGateway
namespace Ingress

open Coop Coop.Discipline Coop.System Python Application

/-! ### What survives a call -/

/-- An assertion that survives every question, and every write of the call's own
variables and of the tables, survives the call. -/
theorem preserves_serve {L : Type} {D : Discipline World Call Answer L} {lib : Lib} {settings : Settings}
    {limit me : ℕ} {J : World → L → Prop} (h : Neutral D me (fun _ => True) (fun _ => True) J)
    (hvars : ∀ w l f, J w l → J (w.setCall me f) l) (htable : TableFree J) (request : Request) (rid : Str) :
    D.Preserves J (serve lib settings limit me request rid) fun _ => True := by
  intro w l hJ
  have hbesides : Neutral D me Besides (fun _ => True) J := h.mono fun _ _ => trivial
  refine wp_mono (fun _ _ _ h => ⟨trivial, h.elim id id⟩) (fun _ _ _ h => h.elim id id)
    (wp_serve_around hbesides hvars hbesides hvars (fun payload _ w l hJ => ?_) hJ)
  refine wp_open (h.mono fun _ _ => trivial) (h.mono fun _ _ => trivial) (fun _ _ => trivial) rid ?_ hJ
  intro started w₁ l₁ _ h₁
  exact wp_mono (fun _ _ _ h => h.2) (fun _ _ _ h => h)
    (h.openInner htable (fun _ _ => trivial) (fun _ _ => trivial) (fun _ _ => trivial) payload request.headers
      started w₁ l₁ h₁)

/-! ### Calls apart -/

/-- What a call relies on: its variables are its own. -/
def ownCall (i : ℕ) (w w' : World) : Prop := w'.calls i = w.calls i

theorem among_neutral (i : ℕ) :
    Neutral (among ownCall i) i (fun _ => True) (fun _ => True) (Unnoticed ownCall i) where
  park _ _ _ _ hJ := hJ
  wake := by
    rintro w since q w₁ since₁ - - ⟨-, rfl⟩ j -
    rfl
  ask := by
    rintro w since q a since₁ - hJ rfl
    exact hJ
  event w since f _ hJ j hj := (Function.update_of_ne hj ..).trans (hJ j hj)

/-- A call leaves the variables of the others alone. -/
theorem apart_serve (lib : Lib) (settings : Settings) (limit i : ℕ) (request : Request) (rid : Str) :
    Apart ownCall i (serve lib settings limit i request rid) := by
  have hvars : ∀ (w since : World) f, Unnoticed ownCall i w since → Unnoticed ownCall i (w.setCall i f) since :=
    fun w since f hJ j hj => (Function.update_of_ne hj ..).trans (hJ j hj)
  have htable : TableFree (Unnoticed ownCall i) := fun w w' since hcalls hJ j hj => by
    rw [ownCall, hcalls]
    exact hJ j hj
  exact preserves_serve (among_neutral i) hvars htable request rid

/-- The tasks of a gateway: the calls of some requests. -/
def serves (lib : Lib) (settings : Settings) (limit : ℕ) (requests : ℕ → Request × Str) (i : ℕ)
    (p : Py Reply) : Prop :=
  p = serve lib settings limit i (requests i).1 (requests i).2

/-- **A call among others is a call on its own.**  Whatever else a gateway serves, a call
that has ended is a run of its own, with the same end, log and variables, in which
others have rewritten the tables and left its variables alone. -/
theorem calls_isolated (lib : Lib) (settings : Settings) (limit : ℕ) (requests : ℕ → Request × Str)
    (S : System World ℚ Call Answer) (w₀ : World) (c : Pool World ℚ Call Answer Err Reply)
    (hc : S.Reachable (serves lib settings limit requests) w₀ c)
    (i : ℕ) (r : Except Err Reply) (hr : result c i = some r) :
    ∃ w w', (alone (ownCall i) (S.seen i)).Run
        (serve lib settings limit i (requests i).1 (requests i).2) w [] r w' (own i c.log) ∧
      w'.calls i = c.state.calls i := by
  have hapart : ∀ i p, serves lib settings limit requests i p → Apart ownCall i p := by
    rintro i p rfl
    exact apart_serve lib settings limit i _ _
  have htrans : ∀ (i : ℕ) (w w' w'' : World), ownCall i w w' → ownCall i w' w'' → ownCall i w w'' :=
    fun i w w' w'' h h' => Eq.trans h' h
  obtain ⟨p, w, w', rfl, hrun, hown⟩ := hc.isolated ownCall (fun _ _ => rfl) htrans hapart hr
  exact ⟨w, w', hrun, Eq.symm hown⟩

/-- Two calls on one gateway.  The second is served while the first waits for its body. -/
def Demo.interleaved : List Move :=
  [.start, .resume 0, .start, .resume 1, .resume 1, .resume 0, .resume 1, .resume 0, .resume 1, .resume 0,
   .resume 1, .resume 0, .resume 1, .resume 0]

/-- The calls of one request over and over. -/
def Demo.requests (_ : ℕ) : Request × Str := (chatRequest, lit "r")

/-- The first of two calls that overlap has ended, and is a run of its own. -/
theorem calls_isolated_interleaved : ∃ c w w' r,
    attending.Reachable (serves Demo.bodies Application.Demo.settings 1024 Demo.requests)
      Application.Demo.world c ∧ c.tasks.length = 2 ∧
    (alone (ownCall 0) (attending.seen 0)).Run (serve Demo.bodies Application.Demo.settings 1024 0
      Demo.chatRequest (lit "r")) w [] r w' (own 0 c.log) ∧ r.toOption.isSome = true := by
  obtain ⟨c, hplay, hended⟩ := (Option.any_eq_true _ _).1 (by decide +kernel :
    (System.play (fun l q => Demo.upstreams Demo.completion (l.map Prod.snd) q)
      (fun _ _ _ st => decide (SinkOk st))
      (fun i => serve Demo.bodies Application.Demo.settings 1024 i Demo.chatRequest (lit "r"))
      Demo.interleaved ⟨Application.Demo.world, [], []⟩).any fun c =>
        c.tasks.length = 2 && ((result c 0).any fun r => r.toOption.isSome))
  simp only [Bool.and_eq_true, decide_eq_true_eq] at hended
  obtain ⟨htasks, hended⟩ := hended
  obtain ⟨r, hr, hok⟩ := (Option.any_eq_true _ _).1 hended
  have hstarts : ∀ i, serves Demo.bodies Application.Demo.settings 1024 Demo.requests i
      (serve Demo.bodies Application.Demo.settings 1024 i Demo.chatRequest (lit "r")) := fun _ => rfl
  have hc : attending.Reachable (serves Demo.bodies Application.Demo.settings 1024 Demo.requests)
      Application.Demo.world c :=
    System.play_steps (fun _ _ _ st hst => (of_decide_eq_true hst : SinkOk st)) hstarts _ hplay
  obtain ⟨w, w', hrun, -⟩ := calls_isolated Demo.bodies Application.Demo.settings 1024 Demo.requests
    attending Application.Demo.world c hc 0 r hr
  exact ⟨c, w, w', r, hc, htasks, hrun, hok⟩

end Ingress
end SwitchyardGateway
