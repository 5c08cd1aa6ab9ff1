/-
# Startup and shutdown

`lifespan` of `build_app` in `bootstrap.py`, as a program.

The adapters are constructed one after the other, and each is pushed onto an exit
stack once it is there, so a startup that fails half way releases exactly what it
has.  `release` keeps an `Exception` of a close from the rest of the shutdown and
remembers it in a flag that the last record reports; a cancellation goes on.  The
`yield` is asked as `serve`: it ends when the server wants to stop, or raises.

Another task can run at the `yield` and at every close, and none writes the
variables of `lifespan` (`Local`).
-/

import SwitchyardGateway.Coop.Cleanup
import SwitchyardGateway.Application.Ledger

namespace SwitchyardGateway
namespace Bootstrap

open Coop Coop.Discipline Python Application

/-- What has to be released: the client of the transport, and the compressor. -/
inductive Adapter where
  | client | compressor
  deriving DecidableEq

/-- `Gateway(settings, …)`: what it is configured with, and its tables. -/
structure Installed where
  settings : Settings
  positions : Str → Option ℕ
  cooldowns : Str × Str → Option ℚ

/-- `Gateway.__init__`. -/
def Installed.new (settings : Settings) : Installed := ⟨settings, fun _ => none, fun _ => none⟩

/-- What `lifespan` asks of its surroundings: the constructors and closes of the
adapters, its two records, and to be served with `app.state.gateway`. -/
inductive Ask where
  | construct (adapter : Adapter)
  | close (adapter : Adapter)
  | startup (models pairs : ℕ)
  | shutdown (failed : Bool)
  | serve (gateway : Option Installed)

/-- Each may raise. -/
abbrev Reply (_ : Ask) : Type := Except Err Unit

/-- An answered question. -/
abbrev Entry := Step ℚ Ask Reply

/-- `cleanup_failed` and `app.state.gateway`. -/
structure App where
  cleanupFailed : Bool := false
  gateway : Option Installed := none

/-- A coroutine of the lifespan. -/
abbrev Life := Prog (Stacked Adapter App) Ask Reply Err

/-- Call a question. -/
def call (q : Ask) : Life Unit := do Prog.ofExcept (← Prog.ask q)

/-- Await a question. -/
def await (q : Ask) : Life Unit := do Prog.ofExcept (← Prog.askAwait q)

/-- Rewrite the variables of `lifespan`. -/
def modify (f : App → App) : Life Unit := Prog.update fun s => { s with rest := f s.rest }

/-- `release(close)` of an adapter. -/
def release (adapter : Adapter) : Life Unit :=
  tryCatch (await (.close adapter)) fun
    | .exc _ => modify fun app => { app with cleanupFailed := true }
    | e => throw e

section

variable (settings : Settings)

/-- The body of the `async with`. -/
def running : Life Unit := do
  call (.construct .client)
  Prog.push .client
  call (.construct .compressor)
  Prog.push .compressor
  modify fun app => { app with gateway := some (.new settings) }
  call (.startup settings.models.length settings.pairs.length)
  await (.serve (← Prog.read).rest.gateway)

/-- The `finally` of `lifespan`. -/
def reportShutdown : Life Unit := do
  call (.shutdown (← Prog.read).rest.cleanupFailed)

/-- `lifespan`. -/
def lifespan : Life Unit := do
  modify fun app => { app with cleanupFailed := false }
  (Prog.withStack release (running settings)).finallyDo reportShutdown

end

/-! ### Reading a log -/

/-- The adapters that were constructed. -/
def constructed : List Entry → List Adapter
  | [] => []
  | ⟨_, .construct adapter, .ok _⟩ :: l => adapter :: constructed l
  | _ :: l => constructed l

/-- The adapters whose close was awaited. -/
def closed : List Entry → List Adapter
  | [] => []
  | ⟨_, .close adapter, _⟩ :: l => adapter :: closed l
  | _ :: l => closed l

/-- Whether a close raised an `Exception`. -/
def closeFailed : List Entry → Bool
  | [] => false
  | ⟨_, .close _, .error (.exc _)⟩ :: _ => true
  | _ :: l => closeFailed l

/-- The records of the shutdown. -/
def shutdowns : List Entry → List Bool
  | [] => []
  | ⟨_, .shutdown failed, _⟩ :: l => failed :: shutdowns l
  | _ :: l => shutdowns l

/-- The error an answer raises in `lifespan`: `release` keeps the `Exception` of a
close to itself. -/
def raised? (e : Entry) : Option Err :=
  match e.call, e.answer with
  | .close _, .error (.exc _) => none
  | _, .error e => some e
  | _, .ok _ => none

/-- The last error raised, or none. -/
def verdict (l : List Entry) : Except Err Unit := (l.findSome? raised?).elim (.ok ()) .error

/-- The questions of a startup that `lifespan` serves after, newest first. -/
def startupAsks (settings : Settings) : List Ask :=
  [.startup settings.models.length settings.pairs.length, .construct .compressor, .construct .client]

/-- A log in which every startup question, and no other, has been answered well. -/
def Started (settings : Settings) (l : List Entry) : Prop :=
  l.map (·.call) = startupAsks settings ∧ ∀ e ∈ l, e.answer = .ok ()

/-- The variables of `lifespan` are its own. -/
def Local (s s' : Stacked Adapter App) : Prop :=
  s'.stack = s.stack ∧ s'.rest.cleanupFailed = s.rest.cleanupFailed

/-- A question is `serve`, with a new gateway, exactly after a complete startup. -/
def Served (settings : Settings) (l : List Entry) : Prop :=
  ∀ e l', e :: l' <:+ l → ∀ gateway,
    e.call = .serve gateway ↔ Started settings l' ∧ gateway = some (.new settings)

/-- What is true of the log of a lifespan that has ended. -/
structure Lifecycle (settings : Settings) (r : Except Err Unit) (l : List Entry) : Prop where
  /-- The adapters that were constructed are released, each once, the newest first. -/
  released : closed l = (constructed l).reverse
  inOrder : constructed l <:+ [.compressor, .client]
  served : Served settings l
  /-- The shutdown is recorded once, after everything else, and the record says
  whether a close failed. -/
  reported : ∃ t a l', l = ⟨t, .shutdown (closeFailed l'), a⟩ :: l' ∧ shutdowns l' = []
  /-- The lifespan raises what was raised last. -/
  raised : r = verdict l

/-! ### Steps -/

section

variable {settings : Settings} {ok : List Entry → Entry → Prop} {t : ℚ} {l : List Entry}
  {s : Stacked Adapter App} {names : List Adapter} {r : Except Err Unit}

theorem wp_call {q : Ask} {good : Unit → Stacked Adapter App → List Entry → Prop}
    {bad : Err → Stacked Adapter App → List Entry → Prop}
    (h : ∀ t a, Ends good bad a s (⟨t, q, a⟩ :: l)) :
    (alone Local ok).wp (call q) good bad s l := by
  simp only [call, wp_bind, wp_ask, wp_ofExcept]
  rintro a _ ⟨t, -, rfl⟩
  exact h t a

theorem wp_await {q : Ask} {good : Unit → Stacked Adapter App → List Entry → Prop}
    {bad : Err → Stacked Adapter App → List Entry → Prop}
    (h : ∀ s₁, Local s s₁ → ∀ t a, Ends good bad a s₁ (⟨t, q, a⟩ :: l)) :
    (alone Local ok).wp (await q) good bad s l := by
  simp only [await, wp_bind, wp_askAwait, wp_ofExcept]
  refine ⟨trivial, ?_⟩
  rintro s₁ _ ⟨hlocal, rfl⟩ a _ ⟨t, -, rfl⟩
  exact h s₁ hlocal t a

/-- No question comes after a log that is not a complete startup but those that are
not `serve`. -/
theorem Served.cons {e : Entry} (h : Served settings l) (hdown : ¬Started settings l)
    (he : ∀ gateway, e.call ≠ .serve gateway) : Served settings (e :: l) := by
  intro e' l' hsuffix gateway
  obtain hsame | hsuffix := List.suffix_cons_iff.1 hsuffix
  · obtain ⟨rfl, rfl⟩ := List.cons.inj hsame
    exact ⟨fun hcall => absurd hcall (he gateway), fun hs => absurd hs.1 hdown⟩
  · exact h e' l' hsuffix gateway

/-- The `serve` itself. -/
theorem Served.serve (h : Served settings l) (hup : Started settings l) (t : ℚ) (a : Except Err Unit) :
    Served settings (⟨t, .serve (some (.new settings)), a⟩ :: l) := by
  intro e' l' hsuffix gateway
  obtain hsame | hsuffix := List.suffix_cons_iff.1 hsuffix
  · obtain ⟨rfl, rfl⟩ := List.cons.inj hsame
    exact ⟨fun hcall => ⟨hup, (Ask.serve.inj hcall).symm⟩, fun hs => by rw [hs.2]⟩
  · exact h e' l' hsuffix gateway

/-- Only the first record completes a startup. -/
theorem not_started_cons {e : Entry} (he : ∀ models pairs, e.call ≠ .startup models pairs) :
    ¬Started settings (e :: l) :=
  fun h => he _ _ (List.cons.inj h.1).1

/-- A failed question does not either. -/
theorem not_started_error {q : Ask} {e : Err} : ¬Started settings (⟨t, q, .error e⟩ :: l) := by
  intro h
  cases h.2 _ List.mem_cons_self

/-- Between the body of the `async with` and its end: `names` are still to be released,
and `r` is about to be raised. -/
structure Unwinding (settings : Settings) (names : List Adapter) (r : Except Err Unit)
    (s : Stacked Adapter App) (l : List Entry) : Prop where
  released : constructed l = (closed l).reverse ++ names
  inOrder : constructed l <:+ [.compressor, .client]
  served : Served settings l
  unstarted : ¬Started settings l
  unreported : shutdowns l = []
  flagged : s.rest.cleanupFailed = closeFailed l
  raised : r = verdict l

/-- **Releasing an adapter** takes it off the list, whatever its close does. -/
theorem wp_release (adapter : Adapter) (h : Unwinding settings (adapter :: names) r s l) :
    (alone Local ok).wp (release adapter) (fun _ => Unwinding settings names r)
      (fun e => Unwinding settings names (.error e)) s l := by
  simp only [release, wp_tryCatch]
  refine wp_await fun s₁ hlocal t a => ?_
  have hserved : Served settings (⟨t, .close adapter, a⟩ :: l) := h.served.cons h.unstarted (by rintro _ ⟨⟩)
  have hover : ¬Started settings (⟨t, .close adapter, a⟩ :: l) := not_started_cons (by rintro _ _ ⟨⟩)
  have hreleased : constructed l = (adapter :: closed l).reverse ++ names := by
    rw [h.released, List.reverse_cons, List.append_assoc, List.singleton_append]
  rcases a with e | ⟨⟩
  · cases e with
    | exc e => exact ⟨hreleased, h.inOrder, hserved, hover, h.unreported, rfl, h.raised⟩
    | cancelled =>
      exact ⟨hreleased, h.inOrder, hserved, hover, h.unreported, hlocal.2.trans h.flagged, rfl⟩
    | exit =>
      exact ⟨hreleased, h.inOrder, hserved, hover, h.unreported, hlocal.2.trans h.flagged, rfl⟩
  · exact ⟨hreleased, h.inOrder, hserved, hover, h.unreported, hlocal.2.trans h.flagged, h.raised⟩

/-- On the way up: every question so far was answered well, and `names` were constructed. -/
structure Rising (settings : Settings) (names : List Adapter) (s : Stacked Adapter App)
    (l : List Entry) : Prop where
  fine : ∀ e ∈ l, e.answer = .ok ()
  stacked : s.stack = names
  built : constructed l = names
  unclosed : closed l = []
  quiet : verdict l = .ok () ∧ closeFailed l = false ∧ shutdowns l = []
  flagged : s.rest.cleanupFailed = false
  served : Served settings l

/-- A startup that fails at its next question, which is no close, begins to unwind. -/
theorem Rising.failed {q : Ask} {e : Err} (h : Rising settings names s l) (hdown : ¬Started settings l)
    (hinOrder : names <:+ [.compressor, .client])
    (hq : (∃ adapter, q = .construct adapter) ∨ ∃ models pairs, q = .startup models pairs) :
    Unwinding settings s.stack (.error e) s (⟨t, q, .error e⟩ :: l) := by
  have hserved : Served settings (⟨t, q, .error e⟩ :: l) := by
    refine h.served.cons hdown fun gateway hserve => ?_
    obtain ⟨adapter, rfl⟩ | ⟨models, pairs, rfl⟩ := hq <;> cases hserve
  have hbuilt : constructed l = (closed l).reverse ++ s.stack := by
    rw [h.built, h.unclosed, h.stacked, List.reverse_nil, List.nil_append]
  have hflag := h.flagged.trans h.quiet.2.1.symm
  obtain ⟨adapter, rfl⟩ | ⟨models, pairs, rfl⟩ := hq
  · exact ⟨hbuilt, h.built ▸ hinOrder, hserved, not_started_error, h.quiet.2.2, hflag, rfl⟩
  · exact ⟨hbuilt, h.built ▸ hinOrder, hserved, not_started_error, h.quiet.2.2, hflag, rfl⟩

/-- An adapter that was constructed is pushed. -/
theorem Rising.constructed (h : Rising settings names s l) (hdown : ¬Started settings l) (t : ℚ)
    (adapter : Adapter) :
    Rising settings (adapter :: names) { s with stack := adapter :: s.stack }
      (⟨t, .construct adapter, .ok ()⟩ :: l) where
  fine := List.forall_mem_cons.2 ⟨rfl, h.fine⟩
  stacked := congrArg (adapter :: ·) h.stacked
  built := congrArg (adapter :: ·) h.built
  unclosed := h.unclosed
  quiet := h.quiet
  flagged := h.flagged
  served := h.served.cons hdown (by rintro _ ⟨⟩)

/-- Installing a gateway asks nothing. -/
theorem Rising.install (h : Rising settings names s l) (gateway : Option Installed) :
    Rising settings names { s with rest := { s.rest with gateway := gateway } } l :=
  ⟨h.fine, h.stacked, h.built, h.unclosed, h.quiet, h.flagged, h.served⟩

/-- A complete startup is served, and however that ends both adapters are to be released. -/
theorem Rising.serve {s₁ : Stacked Adapter App} (hlocal : Local s s₁)
    (h : Rising settings [.compressor, .client] s l) (hdown : ¬Started settings l)
    (hasked : l.map (·.call) = [.construct .compressor, .construct .client]) (t t₁ : ℚ)
    (a : Except Err Unit) :
    Unwinding settings s₁.stack a s₁ (⟨t₁, .serve (some (.new settings)), a⟩ ::
      ⟨t, .startup settings.models.length settings.pairs.length, .ok ()⟩ :: l) where
  released := by
    change Bootstrap.constructed l = (closed l).reverse ++ s₁.stack
    rw [h.built, h.unclosed, hlocal.1, h.stacked]
    rfl
  inOrder := h.built ▸ List.suffix_refl _
  served := by
    have hup : Started settings (⟨t, .startup settings.models.length settings.pairs.length, .ok ()⟩ :: l) :=
      ⟨congrArg (_ :: ·) hasked, List.forall_mem_cons.2 ⟨rfl, h.fine⟩⟩
    exact (h.served.cons hdown (by rintro _ ⟨⟩)).serve hup t₁ a
  unstarted := not_started_cons (by rintro _ _ ⟨⟩)
  unreported := h.quiet.2.2
  flagged := hlocal.2.trans (h.flagged.trans h.quiet.2.1.symm)
  raised := by
    rcases a with e | ⟨⟩
    · rfl
    · exact h.quiet.1.symm

/-- **The body of the `async with`** leaves on the stack what it has constructed. -/
theorem wp_running (hflag : s.rest.cleanupFailed = false) (hempty : s.stack = []) :
    (alone Local ok).wp (running settings) (fun _ s l => Unwinding settings s.stack (.ok ()) s l)
      (fun e s l => Unwinding settings s.stack (.error e) s l) s [] := by
  have hnone : Rising settings [] s [] :=
    ⟨by rintro _ ⟨⟩, hempty, rfl, rfl, ⟨rfl, rfl, rfl⟩, hflag,
      fun e l' h => by cases List.suffix_nil.1 h⟩
  have hdown : ¬Started settings [] := by
    rintro ⟨h, -⟩
    cases h
  simp only [running, wp_bind]
  refine wp_call fun t₁ a => ?_
  rcases a with e | ⟨⟩
  · exact hnone.failed hdown List.nil_suffix (.inl ⟨_, rfl⟩)
  have hclient := hnone.constructed hdown t₁ .client
  have hdown : ¬Started settings [⟨t₁, .construct .client, .ok ()⟩] := not_started_cons (by rintro _ _ ⟨⟩)
  simp only [ends_ok, Prog.push, wp_update]
  refine wp_call fun t₂ a => ?_
  rcases a with e | ⟨⟩
  · exact hclient.failed hdown (List.suffix_cons _ _) (.inl ⟨_, rfl⟩)
  have hboth := hclient.constructed hdown t₂ .compressor
  have hdown : ¬Started settings
      [⟨t₂, .construct .compressor, .ok ()⟩, ⟨t₁, .construct .client, .ok ()⟩] :=
    not_started_cons (by rintro _ _ ⟨⟩)
  simp only [ends_ok, modify, wp_update]
  refine wp_call fun t₃ a => ?_
  have hinstalled := hboth.install (some (.new settings))
  rcases a with e | ⟨⟩
  · exact hinstalled.failed hdown (List.suffix_refl _) (.inr ⟨_, _, rfl⟩)
  simp only [ends_ok, wp_read]
  refine wp_await fun s₁ hlocal t₄ a => ?_
  have hend := hinstalled.serve hlocal hdown rfl t₃ t₄ a
  rcases a with e | ⟨⟩
  · exact hend
  · exact hend

/-- **Every lifespan** releases what it constructed and reports its shutdown: whatever
its constructors, closes and records do, and however serving ends. -/
theorem lifespan_lifecycle {settings : Settings} {ok : List Entry → Entry → Prop}
    {s s' : Stacked Adapter App} {l : List Entry} {r : Except Err Unit}
    (h : (alone Local ok).Run (lifespan settings) s [] r s' l) : Lifecycle settings r l := by
  refine h.result (P := fun r _ l => Lifecycle settings r l) ?_
  have hreport : ∀ r s l, Unwinding settings [] r s l → (alone Local ok).wp reportShutdown
      (fun _ _ l => Lifecycle settings r l) (fun e _ l => Lifecycle settings (.error e) l) s l := by
    intro r s l hend
    simp only [reportShutdown, wp_bind, wp_read]
    refine wp_call fun t a => ?_
    have hreleased : closed l = (constructed l).reverse := by
      rw [hend.released, List.append_nil, List.reverse_reverse]
    have hserved : Served settings (⟨t, .shutdown s.rest.cleanupFailed, a⟩ :: l) :=
      hend.served.cons hend.unstarted (by rintro _ ⟨⟩)
    have hreported : ∃ t' a' l', (⟨t, .shutdown s.rest.cleanupFailed, a⟩ : Entry) :: l =
        ⟨t', .shutdown (closeFailed l'), a'⟩ :: l' ∧ shutdowns l' = [] :=
      ⟨t, a, l, by rw [hend.flagged], hend.unreported⟩
    rcases a with e | ⟨⟩
    · exact ⟨hreleased, hend.inOrder, hserved, hreported, rfl⟩
    · exact ⟨hreleased, hend.inOrder, hserved, hreported, hend.raised⟩
  simp only [lifespan, modify, wp_bind, wp_update, wp_finallyDo]
  refine wp_mono (fun _ s l => hreport (.ok ()) s l) (fun e s l => hreport (.error e) s l)
    (wp_withStack (J := Unwinding settings) (fun adapter names r s l => wp_release adapter) ?_)
  exact wp_running rfl rfl

namespace Demo

/-- Serving is cancelled, and the compressor does not close. -/
def broken (_ : List Entry) : (q : Ask) → ℚ × Reply q
  | .serve _ => (0, .error .cancelled)
  | .close .compressor => (0, .error (.exc .other))
  | .construct _ | .close .client | .startup _ _ | .shutdown _ => (0, .ok ())

/-- The lifespan of the small deployment among them. -/
def ended : Except Err Unit × Stacked Adapter App × List Entry :=
  exec broken (lifespan Application.Demo.settings) ⟨[], {}⟩ []

end Demo

/-- A cancelled server releases both adapters, the newer first, and reports the failed close. -/
theorem lifespan_lifecycle_cancelled :
    Lifecycle Application.Demo.settings (.error .cancelled) Demo.ended.2.2 ∧
      closed Demo.ended.2.2 = [.client, .compressor] ∧ shutdowns Demo.ended.2.2 = [true] :=
  ⟨lifespan_lifecycle (exec_run Local (fun _ _ => True) (fun _ => ⟨rfl, rfl⟩) Demo.broken
    (fun _ _ => trivial) (lifespan Application.Demo.settings) ⟨[], {}⟩ []), rfl, rfl⟩

end

end Bootstrap
end SwitchyardGateway
