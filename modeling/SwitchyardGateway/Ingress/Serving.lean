/-
# A whole call, from what its parts keep

The record of a call and its response pass from one owner to the next: `chat`
until it enters `Gateway.open`, `Gateway.open` until it returns an exchange,
`chat` again, and `OwnedStream` once the exchange was handed over.  `Serving` has
an assertion for each of these and says what takes one to the next, and
`Serving.serve` that this is enough, whichever statement raises.

Between two owners a call waits for chunks, reads the clock and writes its own
event.  Streaming does nothing else (`preserves_callStream`).
-/

import SwitchyardGateway.Ingress.ChatRules

namespace SwitchyardGateway
namespace Ingress

open Coop Coop.Discipline Python Application

variable {L : Type} {D : Discipline World Call Answer L} {lib : Lib} {settings : Settings}
  {limit me : ℕ} {quiet : Call → Prop} {J : World → L → Prop}

/-- The questions asked while a request is read and a response relayed. -/
def Relaying : Call → Prop
  | .receive | .read _ | .clock | .yield _ | .iterate | .respond => True
  | _ => False

/-- The questions asked while a request is read. -/
def Receiving : Call → Prop
  | .receive => True
  | _ => False

/-- The questions asked while the response of an attempt is relayed. -/
def Relayed (attempt : ℕ) : Call → Prop
  | .read n => n = attempt
  | .clock | .yield _ | .iterate | .respond => True
  | _ => False

/-- What is written on an event while a response is relayed. -/
inductive Relays : (Event → Event) → Prop where
  | firstByte (ms : Option ℚ) : Relays fun ev => { ev with firstBodyByteMs := ms }
  | usage (counts : Payload) : Counts counts → Relays fun ev => { ev with usage := some counts }
  | outcome (outcome : Option Outcome) : Relays fun ev => { ev with streamOutcome := outcome }

/-- The part of an event that is written while a response is relayed. -/
def Noting (f : Event → Event) : Prop :=
  ∀ ev, { f ev with
    firstBodyByteMs := ev.firstBodyByteMs, usage := ev.usage, streamOutcome := ev.streamOutcome } = ev

/-- The part of it that is written until the exchange is finished. -/
def Amending (f : Event → Event) : Prop :=
  ∀ ev, { f ev with
    firstBodyByteMs := ev.firstBodyByteMs, usage := ev.usage, streamOutcome := ev.streamOutcome,
    status := ev.status, error := ev.error } = ev

theorem Receiving.relaying {q : Call} (hq : Receiving q) : Relaying q := by
  cases q <;> first | exact hq.elim | trivial

theorem Relayed.relaying {attempt : ℕ} {q : Call} (hq : Relayed attempt q) : Relaying q := by
  cases q <;> first | exact hq.elim | trivial

theorem Relays.noting {f : Event → Event} (h : Relays f) : Noting f := by
  cases h <;> exact fun _ => by rfl

theorem Noting.amending {f : Event → Event} (h : Noting f) : Amending f := fun ev =>
  congrArg (fun ev' : Event => { ev' with status := ev.status, error := ev.error }) (h ev)

/-! ### Streams -/

section Streams

variable {writes : (Event → Event) → Prop} {exchange : Exchange} (h : Neutral D me quiet writes J)
  (hquiet : ∀ q, Relayed exchange.response.attempt q → quiet q) (hwrites : ∀ f, Relays f → writes f)

include h hquiet

theorem preserves_yieldFrame (frame : Bytes) :
    D.Preserves J (yieldFrame frame) fun _ => True := by
  unfold yieldFrame
  refine (h.await (hquiet (Call.yield frame) trivial)).bind fun resumed _ => ?_
  split
  · exact .ret trivial
  · exact .throw

include hwrites

omit hquiet in
theorem preserves_noteUsage (value : Payload) :
    D.Preserves J (noteUsage me value) fun _ => True := by
  unfold noteUsage
  split
  · rename_i counts hcounts
    exact h.updateEvent _ (hwrites _ (.usage counts (usage_counts hcounts)))
  · exact .ret trivial

variable {aliasName : Str}

theorem preserves_sseEvent (frame : Bytes) :
    D.Preserves J (sseEvent lib aliasName limit me frame) fun _ => True := by
  unfold sseEvent
  split
  · exact fun _ _ hJ => hJ
  · refine Preserves.ofExcept.bind fun parsed _ => ?_
    cases parsed with
    | done =>
      exact (preserves_yieldFrame h hquiet _).bind fun _ _ =>
        (h.updateEvent _ (hwrites _ (.outcome _))).bind fun _ _ => .ret trivial
    | plain lines => exact (preserves_yieldFrame h hquiet _).bind fun _ _ => .ret trivial
    | object others value =>
      exact (preserves_noteUsage h hwrites value).bind fun _ _ => Preserves.ofExcept.bind fun _ _ =>
        (preserves_yieldFrame h hquiet _).bind fun _ _ => .ret trivial

theorem preserves_drain (rounds : ℕ) (buffer : Bytes) :
    D.Preserves J (drain lib aliasName limit me rounds buffer) fun _ => True := by
  induction rounds generalizing buffer with
  | zero => exact .ret trivial
  | succ rounds ih =>
    unfold drain
    split
    · exact .ret trivial
    · refine (preserves_sseEvent h hquiet hwrites _).bind fun more _ => ?_
      split
      · exact ih _
      · exact .ret trivial

theorem preserves_sseChunk (state : Bytes × Bool) (chunk : Bytes) :
    D.Preserves J (sseChunk lib aliasName limit me state chunk) fun _ => True := by
  unfold sseChunk
  refine (preserves_drain h hquiet hwrites _ _).bind fun (rest, more) _ => ?_
  dsimp only
  split
  · split
    · exact fun _ _ hJ => hJ
    · exact .ret trivial
  · exact .ret trivial

/-- Reading a body keeps what each of its rounds keeps. -/
theorem preserves_body {β : Type} (step : β → Bytes → Py (β × Bool))
    (hstep : ∀ acc chunk, D.Preserves J (step acc chunk) fun _ => True) (acc : β) :
    D.Preserves J (Gateway.body me exchange step acc) fun _ => True := by
  intro w l hJ
  have hread := hquiet (Call.read exchange.response.attempt) rfl
  refine wp_bodyFrom (I := fun _ _ => J) (fun _ _ w l => h.park w l _ hread) ?_ ?_ _ acc hJ
  · intro chunk rest acc w l w₁ l₁ l₂ hJ hw ha
    have hJ₁ := h.ask _ _ _ _ _ hread (h.wake _ _ _ _ _ hread hJ hw) ha
    rw [wp_bind]
    refine wp_mono (fun _ w₂ l₃ hJ₂ => ?_) (fun _ _ _ h => h)
      (h.noteFirstByte (hquiet Call.clock trivial) (fun ms => hwrites _ (.firstByte ms)) exchange chunk hJ₁)
    refine wp_mono (fun r w₃ l₄ h₃ => ?_) (fun _ _ _ h => h) (hstep acc chunk w₂ l₃ hJ₂)
    split
    · exact h₃.2
    · exact ⟨trivial, h₃.2⟩
  · intro acc w l w₁ l₁ l₂ hJ hw ha
    have hJ₁ := h.ask _ _ _ _ _ hread (h.wake _ _ _ _ _ hread hJ hw) ha
    split
    · exact ⟨trivial, hJ₁⟩
    · exact hJ₁

/-- **Relaying a stream** keeps what survives its questions. -/
theorem preserves_sseBody :
    D.Preserves J (sseBody lib aliasName limit me exchange) fun _ => True := by
  unfold sseBody
  refine Preserves.tryCatch ?_ fun e => ?_
  · refine (preserves_body h hquiet hwrites _ (preserves_sseChunk h hquiet hwrites) _).bind
      fun (_, returned) _ => ?_
    dsimp only
    split
    · exact .ret trivial
    · exact .throw
  · cases e with
    | cancelled => exact (h.updateEvent _ (hwrites _ (.outcome _))).bind fun _ _ => .throw
    | exc e => exact (h.updateEvent _ (hwrites _ (.outcome _))).bind fun _ _ => preserves_yieldFrame h hquiet _
    | exit => exact .throw

/-- So does what the framework does with it. -/
theorem preserves_callStream :
    D.Preserves J (callStream lib limit me exchange aliasName) fun _ => True := by
  have hrespond : D.Preserves J (do Prog.ofExcept (← Prog.askAwait Call.respond) : Py Unit)
      fun _ => True := (h.await (hquiet Call.respond trivial)).bind fun _ _ => .ofExcept
  unfold callStream
  refine (h.await (hquiet Call.iterate trivial)).bind fun iterated _ => ?_
  split
  · have hbody : D.Preserves J (sseBody lib aliasName limit me exchange).attempt fun _ => True :=
      ((preserves_sseBody h hquiet hwrites).bind fun _ _ => .ret trivial).tryCatch fun _ => .ret trivial
    exact hbody.bind fun _ _ => hrespond
  · exact hrespond

end Streams

/-! ### The end of an exchange -/

section Finish

variable {writes : (Event → Event) → Prop}

/-- The questions asked while an exchange is finished. -/
def Finishing : Call → Prop
  | .close _ | .clock | .emit (.request _) => True
  | _ => False

theorem preserves_setVars (hvars : ∀ w l f, J w l → J (w.setCall me f) l) (f : CallState → CallState) :
    D.Preserves J (setVars me f) fun _ => True := by
  intro w l hJ
  rw [setVars, wp_update]
  exact ⟨trivial, hvars w l f hJ⟩

/-- **Finishing an exchange** keeps what survives its questions and every write of the
call's own variables. -/
theorem preserves_finish (h : Neutral D me quiet writes J) (hquiet : ∀ q, Finishing q → quiet q)
    (hwrites : ∀ f, writes f) (hvars : ∀ w l f, J w l → J (w.setCall me f) l) (exchange : Exchange)
    (outcome : Outcome) : D.Preserves J (Gateway.finish me exchange outcome) fun _ => True := by
  have hclosed : D.Preserves J (close exchange.response).attempt fun _ => True :=
    ((h.close (hquiet (Call.close _) trivial)).bind fun _ _ => .ret trivial).tryCatch fun _ => .ret trivial
  have hnote : ∀ r, D.Preserves J (noteClose me outcome r) fun _ => True := by
    intro r
    cases r with
    | ok _ => exact .ret trivial
    | error e => exact (h.updateEvent _ (hwrites _)).bind fun _ _ => .ret trivial
  have hraise : ∀ r, D.Preserves J (raiseUnlessException r) fun _ => True := by
    intro r
    cases r with
    | ok _ => exact .ret trivial
    | error e =>
      cases e with
      | exc e => exact .ret trivial
      | cancelled => exact .throw
      | exit => exact .throw
  unfold Gateway.finish
  refine h.read.bind fun w _ => ?_
  split
  · exact .ret trivial
  · refine (preserves_setVars hvars _).bind fun _ _ => hclosed.bind fun r _ => (hnote r).bind fun _ _ => ?_
    refine (h.call (hquiet Call.clock trivial)).bind fun now _ => (h.updateEvent _ (hwrites _)).bind fun _ _ => ?_
    exact h.eventOf.bind fun ev _ => (h.emit (hquiet (Call.emit (.request ev)) trivial)).bind fun _ _ => hraise r

end Finish

/-! ### Before and after an opening -/

/-- The questions of a call besides those of `Gateway.open`. -/
def Besides : Call → Prop
  | .receive | .read _ | .clock | .yield _ | .iterate | .respond | .close _ | .emit (.request _) => True
  | _ => False

theorem Relayed.besides {attempt : ℕ} {q : Call} (hq : Relayed attempt q) : Besides q := by
  cases q <;> first | exact hq.elim | trivial

theorem Finishing.besides {q : Call} (hq : Finishing q) : Besides q := by
  cases q with
  | emit record => cases record <;> first | exact hq.elim | trivial
  | _ => first | exact hq.elim | trivial

section Halves

variable (h : Neutral D me Besides (fun _ => True) J)

include h

theorem preserves_refuse (rid : Str) (code : String) (status : ℕ) (outcome : Outcome) :
    D.Preserves J (refuse me rid code status outcome) fun _ => True := by
  unfold refuse
  refine h.read.bind fun w _ => ?_
  dsimp only
  split
  · exact (h.updateEvent _ trivial).bind fun _ _ => .ret trivial
  · split
    · have hemit : Besides (.emit (.request
          { requestId := rid, status := some status, outcome := some outcome, error := some code })) := trivial
      exact (h.emit hemit).bind fun _ _ => .ret trivial
    · exact .ret trivial

variable (hvars : ∀ w l f, J w l → J (w.setCall me f) l)

include hvars

theorem preserves_ownedStream (exchange : Exchange) (aliasName : Str) :
    D.Preserves J (OwnedStream.call lib limit me exchange aliasName) fun _ => True := by
  have hstream : D.Preserves J (callStream lib limit me exchange aliasName) fun _ => True :=
    preserves_callStream h (fun _ hq => hq.besides) fun _ _ => trivial
  have hfinish : D.Preserves J (do
      let outcome ← popStreamOutcome me ((← Prog.read).calls me).outcome
      Gateway.finish me exchange outcome : Py Unit) fun _ => True := by
    have hpop : ∀ outcome, D.Preserves J (popStreamOutcome me outcome) fun _ => True := fun outcome =>
      h.eventOf.bind fun _ _ => (h.updateEvent _ trivial).bind fun _ _ => .ret trivial
    exact h.read.bind fun w _ => (hpop _).bind fun outcome _ =>
      preserves_finish h (fun _ hq => hq.besides) (fun _ => trivial) hvars exchange outcome
  unfold OwnedStream.call
  refine (preserves_setVars hvars _).bind fun _ _ => (hstream.tryCatch fun e => ?_).finallyDo hfinish
  cases e with
  | cancelled => exact (preserves_setVars hvars _).bind fun _ _ => .throw
  | exc e => exact .throw
  | exit => exact .throw

theorem preserves_deliver (payload : Payload) (rid : Str) (exchange : Exchange) :
    D.Preserves J (deliver lib limit me payload rid exchange) fun _ => True := by
  intro w l hJ
  refine wp_mono (fun reply w₁ l₁ h₁ => ?_) (fun e w₁ l₁ h₁ => ?_)
    (wp_deliver (C := fun _ => J) (H := J) h trivial trivial (fun _ => trivial) (fun _ _ => trivial)
      (fun w l _ _ hJ => hvars w l _ hJ) (fun w l hJ => hvars w l _ hJ) hJ)
  · rcases h₁ with ⟨headers, hreply, hJ₁⟩ | ⟨value, body, headers, hreply, hcompletes, hrender, hJ₁⟩
    · exact ⟨trivial, hJ₁⟩
    · exact ⟨trivial, hJ₁⟩
  · rcases h₁ with ⟨hno, hJ₁⟩ | ⟨value, e', hcompletes, hrender, he, hJ₁⟩
    · exact hJ₁
    · exact hJ₁

theorem preserves_chatExcept (rid : Str) (e : Err) :
    D.Preserves J (chatExcept me rid e) fun _ => True := by
  cases e with
  | exc e =>
    simp only [chatExcept]
    split
    · exact preserves_refuse h _ _ _ _
    · exact preserves_refuse h _ _ _ _
  | cancelled => exact (preserves_setVars hvars _).bind fun _ _ => .throw
  | exit => exact .throw

theorem preserves_chatFinally : D.Preserves J (chatFinally me) fun _ => True := by
  unfold chatFinally
  refine h.read.bind fun w _ => ?_
  dsimp only
  split
  · exact preserves_finish h (fun _ hq => hq.besides) (fun _ => trivial) hvars _ _
  · exact .ret trivial

/-- **A call around its opening**: if an opening takes one assertion to another and the
call does nothing else to either, then the first holds at its end, or the second. -/
theorem wp_serve_around {J' : World → L → Prop} (h' : Neutral D me Besides (fun _ => True) J')
    (hvars' : ∀ w l f, J' w l → J' (w.setCall me f) l) {request : Request} {rid : Str}
    (hopen : ∀ payload, parseRequest lib request.body.chunks.flatten = .ok payload → ∀ w l, J w l →
      D.wp (Gateway.open lib settings me payload request.headers rid) (fun _ => J') (fun _ => J') w l)
    {w : World} {l : L} (hJ : J w l) :
    D.wp (serve lib settings limit me request rid) (fun _ w l => J w l ∨ J' w l)
      (fun _ w l => J w l ∨ J' w l) w l := by
  have hor : Neutral D me Besides (fun _ => True) fun w l => J w l ∨ J' w l := h.or h'
  have horvars : ∀ w l f, J w l ∨ J' w l → J (w.setCall me f) l ∨ J' (w.setCall me f) l :=
    fun w l f hJ => hJ.imp (hvars w l f) (hvars' w l f)
  have htry : ∀ w l, J w l → D.wp (chatTry lib settings limit me request rid)
      (fun _ w l => J w l ∨ J' w l) (fun _ w l => J w l ∨ J' w l) w l := by
    intro w l hJ
    simp only [chatTry, wp_bind, setVars, wp_update]
    refine wp_mono (fun payload w₁ l₁ h₁ => ?_) (fun _ _ _ h => .inl h)
      (preserves_readRequest h trivial request w l hJ)
    refine wp_mono (fun exchange w₂ l₂ h₂ => ?_) (fun _ _ _ h => .inr h)
      (hopen payload h₁.1 _ l₁ (hvars w₁ l₁ _ h₁.2))
    exact wp_mono (fun _ _ _ h => .inr h.2) (fun _ _ _ h => .inr h)
      (preserves_deliver h' hvars' payload rid exchange _ l₂ (hvars' w₂ l₂ _ h₂))
  have hfinally : ∀ w l, J w l ∨ J' w l → D.wp (chatFinally me) (fun _ w l => J w l ∨ J' w l)
      (fun _ w l => J w l ∨ J' w l) w l := fun w l hJ =>
    wp_mono (fun _ _ _ h => h.2) (fun _ _ _ h => h) (preserves_chatFinally hor horvars w l hJ)
  have hchat : D.wp (chat lib settings limit me request rid) (fun _ w l => J w l ∨ J' w l)
      (fun _ w l => J w l ∨ J' w l) w l := by
    simp only [chat, wp_bind, setVars, wp_update, wp_finallyDo, wp_tryCatch]
    refine wp_mono (fun _ w₁ l₁ h₁ => hfinally w₁ l₁ h₁) (fun e w₁ l₁ h₁ => ?_) (htry _ l (hvars w l _ hJ))
    exact wp_mono (fun _ w₂ l₂ h₂ => hfinally w₂ l₂ h₂.2) (fun _ w₂ l₂ h₂ => hfinally w₂ l₂ h₂)
      (preserves_chatExcept hor horvars rid e w₁ l₁ h₁)
  simp only [serve, wp_bind, wp_read]
  refine wp_mono (fun reply w₁ l₁ h₁ => ?_) (fun _ _ _ h => h) hchat
  split
  · rename_i aliasName _ exchange _
    rw [wp_bind]
    exact wp_mono (fun _ _ _ h => h.2) (fun _ _ _ h => h)
      (preserves_ownedStream hor horvars exchange aliasName w₁ l₁ h₁)
  · exact h₁

end Halves

/-! ### Owners -/

/-- The assertions of a call by who owes what: nobody yet (`waiting`), `Gateway.open`
(`opening`), `chat` or a stream, which holds the exchange (`held`), or nobody any
more, because the request was refused, the opening failed or the exchange was
finished. -/
structure Owners (L : Type) where
  waiting : World → L → Prop
  refused : World → L → Prop
  opening : World → L → Prop
  failed : World → L → Prop
  held : Exchange → (streams : Bool) → World → L → Prop
  settled : World → L → Prop

/-- What takes a call from one owner to the next.  The variables of the call say
which owner that is. -/
structure Serving (D : Discipline World Call Answer L) (lib : Lib) (settings : Settings) (me : ℕ)
    (O : Owners L) : Prop where
  waiting : Neutral D me Receiving (fun _ => True) O.waiting
  held : ∀ exchange b, Neutral D me (Relayed exchange.response.attempt) Amending (O.held exchange b)
  refuse : ∀ w l event a l', O.waiting w l → D.admits w l (.emit (.request event)) a l' →
    O.refused w l'
  enter : ∀ w l, O.waiting w l → O.opening (w.setCall me fun c => { c with opened := true }) l
  «open» : ∀ payload headers rid w l, O.opening w l →
    D.wp (Gateway.open lib settings me payload headers rid)
      (fun exchange w l => O.held exchange false
        (w.setCall me fun c => { c with exchange := some exchange, finished := false }) l)
      (fun _ => O.failed) w l
  hand : ∀ exchange w l, O.held exchange false w l →
    O.held exchange true (w.setCall me fun c => { c with handedOff := true }) l
  finish : ∀ exchange b outcome w l, O.held exchange b w l →
    D.wp (Gateway.finish me exchange outcome) (fun _ => O.settled) (fun _ => O.settled) w l
  fresh : ∀ w l, O.waiting w l → (w.calls me).exchange = none ∧ (w.calls me).opened = false
  denied : ∀ w l, O.refused w l → (w.calls me).exchange = none
  entered : ∀ w l, O.failed w l → (w.calls me).exchange = none ∧ (w.calls me).opened = true
  holds : ∀ exchange b w l, O.held exchange b w l →
    (w.calls me).exchange = some exchange ∧ (w.calls me).handedOff = b
  outcome : ∀ outcome w l, (O.waiting w l → O.waiting (w.setCall me fun c => { c with outcome := outcome }) l) ∧
    (O.failed w l → O.failed (w.setCall me fun c => { c with outcome := outcome }) l) ∧
    ∀ exchange b, O.held exchange b w l →
      O.held exchange b (w.setCall me fun c => { c with outcome := outcome }) l

/-- A reply that is a stream. -/
def streams : Except Err Reply → Bool
  | .ok (.stream _ _) => true
  | _ => false

namespace Owners

variable (O : Owners L)

/-- The owner when the body of `chat` has ended with `r`, and its handlers have run. -/
def Due (r : Except Err Reply) (w : World) (l : L) : Prop :=
  (∃ e, r = .error e) ∧ O.waiting w l ∨ O.refused w l ∨ O.failed w l ∨
    ∃ exchange, O.held exchange (streams r) w l

/-- The owner when `chat` has ended with `r`. -/
def Left (r : Except Err Reply) (w : World) (l : L) : Prop :=
  (∃ e, r = .error e) ∧ O.waiting w l ∨ O.refused w l ∨ O.failed w l ∨
    streams r = false ∧ O.settled w l ∨ streams r = true ∧ ∃ exchange, O.held exchange true w l

/-- Nobody owes anything any more. -/
def Over (r : Except Err Reply) (w : World) (l : L) : Prop :=
  (∃ e, r = .error e) ∧ O.waiting w l ∨ O.refused w l ∨ O.failed w l ∨ O.settled w l

end Owners

namespace Serving

variable {O : Owners L} (h : Serving D lib settings me O)

include h

/-- The `try` of `chat`: it raises in the hands of `chat`, or before it has any. -/
theorem chatTry (request : Request) (requestId : Str) {w : World} {l : L} (hw : O.waiting w l) :
    D.wp (Ingress.chatTry lib settings limit me request requestId)
      (fun reply w l => ∃ exchange, O.held exchange (streams (.ok reply)) w l)
      (fun _ w l => O.waiting w l ∨ O.failed w l ∨ ∃ exchange, O.held exchange false w l) w l := by
  simp only [Ingress.chatTry, wp_bind, setVars, wp_update]
  refine wp_mono (fun payload w₁ l₁ h₁ => ?_) (fun _ _ _ h => .inl h)
    (preserves_readRequest h.waiting trivial request w l hw)
  refine wp_mono (fun exchange w₂ l₂ h₂ => ?_) (fun _ _ _ h => .inr (.inl h))
    (h.open payload request.headers requestId _ l₁ (h.enter w₁ l₁ h₁.2))
  refine wp_mono (fun reply w₃ l₃ h₃ => ⟨exchange, ?_⟩) (fun e w₃ l₃ h₃ => .inr (.inr ⟨exchange, ?_⟩))
    (wp_deliver (C := fun _ => O.held exchange false) (H := O.held exchange true) (h.held exchange false)
      rfl trivial (fun _ _ => by rfl) (fun _ _ _ => by rfl)
      (fun w l _ _ hheld => (h.outcome .completed w l).2.2 exchange false hheld) (h.hand exchange) h₂)
  · rcases h₃ with ⟨headers, rfl, hheld⟩ | ⟨value, body, headers, rfl, -, -, hheld⟩
    · exact hheld
    · exact hheld
  · rcases h₃ with ⟨-, hheld⟩ | ⟨value, e', -, -, -, hheld⟩
    · exact hheld
    · exact hheld

/-- An error is a reply, in the same hands. -/
theorem refusal {requestId : Str} {code : String} {status : ℕ} {outcome : Outcome} {w : World} {l : L}
    (hw : O.waiting w l ∨ O.failed w l ∨ ∃ exchange, O.held exchange false w l) :
    D.wp (Ingress.refuse me requestId code status outcome) (fun reply => O.Due (.ok reply))
      (fun e => O.Due (.error e)) w l := by
  refine wp_refuse (fun hsome => ?_) (fun hnone hopened => ?_) (fun hnone hclosed a l₁ ha => ?_)
  · rcases hw with hwaiting | hfailed | ⟨exchange, hheld⟩
    · rw [(h.fresh w l hwaiting).1] at hsome
      cases hsome
    · rw [(h.entered w l hfailed).1] at hsome
      cases hsome
    · exact .inr (.inr (.inr ⟨exchange, (h.held exchange false).event w l
        (fun ev => { ev with status := some status, error := some code }) (fun _ => by rfl) hheld⟩))
  · rcases hw with hwaiting | hfailed | ⟨exchange, hheld⟩
    · rw [(h.fresh w l hwaiting).2] at hopened
      cases hopened
    · exact .inr (.inr (.inl hfailed))
    · rw [(h.holds exchange false w l hheld).1] at hnone
      cases hnone
  · rcases hw with hwaiting | hfailed | ⟨exchange, hheld⟩
    · have hrefused := h.refuse w l _ a l₁ hwaiting ha
      cases a with
      | ok _ => exact .inr (.inl hrefused)
      | error e => exact .inr (.inl hrefused)
    · rw [(h.entered w l hfailed).2] at hclosed
      cases hclosed
    · rw [(h.holds exchange false w l hheld).1] at hnone
      cases hnone

/-- The `except` arms of `chat`. -/
theorem chatExcept {requestId : Str} {e : Err} {w : World} {l : L}
    (hw : O.waiting w l ∨ O.failed w l ∨ ∃ exchange, O.held exchange false w l) :
    D.wp (Ingress.chatExcept me requestId e) (fun reply => O.Due (.ok reply))
      (fun e => O.Due (.error e)) w l := by
  -- what is raised again stays in the same hands
  have hraise : ∀ e w l, (O.waiting w l ∨ O.failed w l ∨ ∃ exchange, O.held exchange false w l) →
      O.Due (.error e) w l := by
    rintro e w l (hwaiting | hfailed | hheld)
    · exact .inl ⟨⟨e, rfl⟩, hwaiting⟩
    · exact .inr (.inr (.inl hfailed))
    · exact .inr (.inr (.inr hheld))
  cases e with
  | exc e =>
    simp only [Ingress.chatExcept]
    split
    · exact h.refusal hw
    · exact h.refusal hw
  | cancelled =>
    simp only [Ingress.chatExcept, wp_bind, setVars, wp_update, wp_throw]
    have houtcome := h.outcome .cancelled w l
    exact hraise _ _ _ (hw.imp houtcome.1 (.imp houtcome.2.1 fun hheld =>
      hheld.imp fun exchange => houtcome.2.2 exchange false))
  | exit => exact hraise _ _ _ hw

/-- The `finally` of `chat` finishes what was not handed over. -/
theorem chatFinally {r : Except Err Reply} {w : World} {l : L} (hw : O.Due r w l) :
    D.wp (Ingress.chatFinally me) (fun _ => O.Left r) (fun e => O.Left (.error e)) w l := by
  simp only [Ingress.chatFinally, wp_bind, wp_read]
  rcases hw with ⟨he, hwaiting⟩ | hrefused | hfailed | ⟨exchange, hheld⟩
  · rw [(h.fresh w l hwaiting).1]
    exact .inl ⟨he, hwaiting⟩
  · rw [h.denied w l hrefused]
    exact .inr (.inl hrefused)
  · rw [(h.entered w l hfailed).1]
    exact .inr (.inr (.inl hfailed))
  · obtain ⟨hexchange, hhanded⟩ := h.holds exchange _ w l hheld
    rw [hexchange, hhanded]
    cases hstream : streams r with
    | true =>
      rw [hstream] at hheld
      exact .inr (.inr (.inr (.inr ⟨hstream, exchange, hheld⟩)))
    | false =>
      exact wp_mono (fun _ _ _ hsettled => .inr (.inr (.inr (.inl ⟨hstream, hsettled⟩))))
        (fun _ _ _ hsettled => .inr (.inr (.inr (.inl ⟨rfl, hsettled⟩))))
        (h.finish exchange _ _ w l hheld)

/-- **`chat`** ends with nothing owed, or with a stream that holds the exchange. -/
theorem chat (request : Request) (requestId : Str) {w : World} {l : L}
    (hw : O.waiting (w.setCall me fun c => { c with
      exchange := none, handedOff := false, opened := false, outcome := .failed }) l) :
    D.wp (Ingress.chat lib settings limit me request requestId) (fun reply => O.Left (.ok reply))
      (fun e => O.Left (.error e)) w l := by
  simp only [Ingress.chat, wp_bind, setVars, wp_update, wp_finallyDo, wp_tryCatch]
  refine wp_mono (fun reply w₁ l₁ h₁ => ?_) (fun e w₁ l₁ h₁ => ?_) (h.chatTry request requestId hw)
  · exact h.chatFinally (.inr (.inr (.inr h₁)))
  · refine wp_mono (fun reply w₂ l₂ h₂ => ?_) (fun e' w₂ l₂ h₂ => ?_) (h.chatExcept h₁)
    · exact h.chatFinally h₂
    · exact h.chatFinally h₂

/-- A stream finishes the exchange it holds. -/
theorem ownedStream {exchange : Exchange} {b : Bool} {aliasName : Str} {w : World} {l : L}
    (hw : O.held exchange b w l) :
    D.wp (OwnedStream.call lib limit me exchange aliasName) (fun _ => O.settled) (fun _ => O.settled) w l := by
  have hfinish : ∀ w l, O.held exchange b w l → D.wp (do
      let outcome ← popStreamOutcome me ((← Prog.read).calls me).outcome
      Gateway.finish me exchange outcome) (fun _ => O.settled) (fun _ => O.settled) w l := by
    intro w l hheld
    simp only [popStreamOutcome, eventOf, updateEvent, wp_bind, wp_read, wp_update, wp_pure]
    exact h.finish exchange b _ _ l
      ((h.held exchange b).event w l (fun ev => { ev with streamOutcome := none }) (fun _ => by rfl) hheld)
  simp only [OwnedStream.call, setVars, wp_bind, wp_update, wp_finallyDo, wp_tryCatch]
  have hstart := (h.outcome .interrupted w l).2.2 exchange b hw
  refine wp_mono (fun _ w₁ l₁ h₁ => ?_) (fun e w₁ l₁ h₁ => ?_)
    (preserves_callStream (h.held exchange b) (fun _ hq => hq) (fun _ hf => hf.noting.amending) _ l hstart)
  · exact hfinish w₁ l₁ h₁.2
  · cases e with
    | cancelled =>
      simp only [wp_bind, wp_update, wp_throw]
      exact hfinish _ l₁ ((h.outcome .cancelled w₁ l₁).2.2 exchange b h₁)
    | exc e => exact hfinish w₁ l₁ h₁
    | exit => exact hfinish w₁ l₁ h₁

/-- **A whole call** ends with nothing owed. -/
theorem serve (request : Request) (requestId : Str) {w : World} {l : L}
    (hw : O.waiting (w.setCall me fun c => { c with
      exchange := none, handedOff := false, opened := false, outcome := .failed }) l) :
    D.wp (Ingress.serve lib settings limit me request requestId) (fun reply => O.Over (.ok reply))
      (fun e => O.Over (.error e)) w l := by
  simp only [Ingress.serve, wp_bind, wp_read]
  refine wp_mono (fun reply w₁ l₁ h₁ => ?_) (fun e w₁ l₁ h₁ => ?_) (h.chat request requestId hw)
  · split
    · rename_i aliasName headers exchange hexchange
      have hheld : O.held exchange true w₁ l₁ := by
        rcases h₁ with ⟨⟨e, he⟩, -⟩ | hrefused | hfailed | ⟨hstream, -⟩ | ⟨-, exchange', hheld⟩
        · cases he
        · rw [h.denied w₁ l₁ hrefused] at hexchange
          cases hexchange
        · rw [(h.entered w₁ l₁ hfailed).1] at hexchange
          cases hexchange
        · cases hstream
        · obtain rfl := Option.some.inj ((h.holds exchange' true w₁ l₁ hheld).1.symm.trans hexchange)
          exact hheld
      simp only [wp_bind, wp_pure]
      exact wp_mono (fun _ _ _ hsettled => .inr (.inr (.inr hsettled)))
        (fun _ _ _ hsettled => .inr (.inr (.inr hsettled))) (h.ownedStream hheld)
    · rename_i reply _ _ hother
      rcases h₁ with ⟨⟨e, he⟩, -⟩ | hrefused | hfailed | ⟨-, hsettled⟩ | ⟨hstream, exchange, hheld⟩
      · cases he
      · exact .inr (.inl hrefused)
      · exact .inr (.inr (.inl hfailed))
      · exact .inr (.inr (.inr hsettled))
      · cases reply with
        | stream aliasName headers =>
          exact (hother aliasName headers exchange rfl (h.holds exchange true w₁ l₁ hheld).1).elim
        | completion body headers => cases hstream
        | error status body headers => cases hstream
  · rcases h₁ with hwaiting | hrefused | hfailed | ⟨-, hsettled⟩ | ⟨hstream, -⟩
    · exact .inl hwaiting
    · exact .inr (.inl hrefused)
    · exact .inr (.inr (.inl hfailed))
    · exact .inr (.inr (.inr hsettled))
    · cases hstream

end Serving

end Ingress
end SwitchyardGateway
