/-
# Rules for the parts of a chat call

One rule for each part of `chat` and `OwnedStream`, over any discipline, as
`Application.Rules` has them for `Gateway.open`.  Reading a request and reading a
body ask for chunks only (`preserves_readRequest`, `wp_readBody`).  `wp_deliver`
says what the statements after `Gateway.open` come to: a completion or a stream,
or an error, which is no `Completes` unless rendering the completion raised it.
`wp_finish` is the one rule of `Gateway.finish`.
-/

import SwitchyardGateway.Ingress.Chat
import SwitchyardGateway.Application.Rules

namespace SwitchyardGateway
namespace Ingress

open Coop Coop.Discipline Python Application

variable {L : Type} {D : Discipline World Call Answer L} {lib : Lib} {settings : Settings}
  {limit me : ℕ} {quiet : Call → Prop} {writes : (Event → Event) → Prop} {J : World → L → Prop}

/-! ### Requests -/

theorem preserves_receiveFrom (h : Neutral D me quiet writes J) (hreceive : quiet .receive)
    (ending : Ending) (chunks : List Bytes) (data : Bytes) :
    D.Preserves J (Ingress.receiveFrom settings ending chunks data)
      fun received => ending = .eof ∧ received = data ++ chunks.flatten := by
  induction chunks generalizing data with
  | nil =>
    unfold Ingress.receiveFrom
    refine (h.await hreceive).bind fun _ _ => ?_
    split
    · exact .ret ⟨rfl, by simp⟩
    · exact .throw
  | cons chunk chunks ih =>
    unfold Ingress.receiveFrom
    refine (h.await hreceive).bind fun _ _ => ?_
    split
    · exact .throw
    · refine (ih (data ++ chunk)).weaken fun received hreceived => ⟨hreceived.1, ?_⟩
      rw [hreceived.2, List.append_assoc, List.flatten_cons]

/-- **Reading a request** asks for its chunks and writes nothing. -/
theorem preserves_readRequest (h : Neutral D me quiet writes J) (hreceive : quiet .receive)
    (request : Request) : D.Preserves J (Ingress.readRequest lib settings request)
      fun payload => parseRequest lib request.body.chunks.flatten = .ok payload := by
  unfold Ingress.readRequest
  refine Preserves.ofExcept.bind fun _ _ => ?_
  refine (preserves_receiveFrom h hreceive _ _ _).bind fun data hdata => ?_
  intro w l hJ
  rw [hdata.2, List.nil_append, lift, wp_ofExcept]
  cases parseRequest lib request.body.chunks.flatten with
  | ok payload => exact ⟨rfl, hJ⟩
  | error e => exact hJ

/-- What is parsed has passed the validation. -/
theorem validate_of_parseRequest {payload : Payload} {data : Bytes} (h : parseRequest lib data = .ok payload) :
    ∃ v, validate lib v = .ok payload := by
  unfold parseRequest at h
  split at h
  · cases h
  · obtain ⟨v, -, hvalid⟩ := bind_ok h
    exact ⟨v, hvalid⟩

/-! ### Completions -/

/-- The body of the upstream's answer can be read, and is short enough. -/
def Readable (limit : ℕ) (exchange : Exchange) : Prop :=
  exchange.response.upstream.body.ending = .eof ∧
    exchange.response.upstream.body.chunks.flatten.length ≤ limit

/-- **Reading a body** collects all of it, or fails because it cannot be read. -/
theorem wp_readBody {exchange : Exchange} (h : Neutral D me quiet writes J)
    (hread : quiet (.read exchange.response.attempt)) (hclock : quiet .clock)
    (hwrites : ∀ ms, writes fun ev => { ev with firstBodyByteMs := ms }) {w : World} {l : L} (hJ : J w l) :
    D.wp (readBody limit me exchange)
      (fun body w l => body = exchange.response.upstream.body.chunks.flatten ∧ Readable limit exchange ∧ J w l)
      (fun _ w l => ¬Readable limit exchange ∧ J w l) w l := by
  have hstart : J w l ∧ [] ++ exchange.response.upstream.body.chunks.flatten =
      exchange.response.upstream.body.chunks.flatten ∧ ([] : Bytes).length ≤ limit :=
    ⟨hJ, rfl, Nat.zero_le _⟩
  refine wp_bodyFrom (I := fun rest data w l => J w l ∧
    data ++ rest.flatten = exchange.response.upstream.body.chunks.flatten ∧ data.length ≤ limit)
    (fun _ _ w l hI => h.park w l (Call.read _) hread hI.1) ?_ ?_ _ _ hstart
  · rintro chunk rest data w l w₁ l₁ l₂ ⟨hJ, hdata, -⟩ hw ha
    have hJ₁ := h.ask _ _ (Call.read _) _ _ hread (h.wake _ _ (Call.read _) _ _ hread hJ hw) ha
    rw [wp_bind]
    refine wp_mono (fun _ w₂ l₃ hJ₂ => ?_) (fun _ _ _ h => h)
      (h.noteFirstByte hclock hwrites exchange chunk hJ₁)
    rw [wp_ite]
    split
    · rename_i hlong
      refine ⟨fun hreadable => ?_, hJ₂⟩
      have hlength := hreadable.2
      rw [← hdata, List.flatten_cons, ← List.append_assoc, List.length_append] at hlength
      omega
    · rename_i hshort
      refine ⟨hJ₂, ?_, Nat.le_of_not_lt hshort⟩
      rw [← hdata, List.flatten_cons, List.append_assoc]
  · rintro data w l w₁ l₁ l₂ ⟨hJ, hdata, hlength⟩ hw ha
    have hJ₁ := h.ask _ _ (Call.read _) _ _ hread (h.wake _ _ (Call.read _) _ _ hread hJ hw) ha
    rw [List.flatten_nil, List.append_nil] at hdata
    subst hdata
    split
    · rename_i heof
      exact ⟨rfl, ⟨heof, hlength⟩, hJ₁⟩
    · rename_i e heof
      refine ⟨fun hreadable => ?_, hJ₁⟩
      exact Ending.noConfusion (heof.symm.trans hreadable.1)

/-- What the upstream answered is a completion, and `value` is what the gateway
makes of it: the same object under the requested model. -/
structure Completes (lib : Lib) (limit : ℕ) (payload : Payload) (exchange : Exchange)
    (value : Payload) : Prop where
  accepted : exchange.response.upstream.status < 400
  unary : truthy (get payload "stream") = false
  json : contains (lit "json") (lib.lower (contentType exchange)) = true
  readable : Readable limit exchange
  parsed : ∃ read, parseCompletion lib exchange.response.upstream.body.chunks.flatten = .ok read ∧
    value = read.set (lit "model") (get payload "model")

/-- The event names the model and the replica. -/
def Labelled (me : ℕ) (w : World) : Prop :=
  (w.calls me).event.model.isSome ∧ (w.calls me).event.endpoint.isSome

section Deliver

variable {C : Payload → World → L → Prop} {H : World → L → Prop} {payload : Payload} {exchange : Exchange}
  (h : Neutral D me quiet writes J) (hread : quiet (.read exchange.response.attempt)) (hclock : quiet .clock)
  (hfirst : ∀ ms, writes fun ev => { ev with firstBodyByteMs := ms })
  (husage : ∀ counts, Counts counts → writes fun ev => { ev with usage := some counts })
  (hcompleted : ∀ w l value, Completes lib limit payload exchange value → J w l →
    C value (w.setCall me fun c => { c with outcome := .completed }) l)

include h husage hcompleted

/-- A completion is rendered, or cannot be. -/
theorem wp_complete {headers : Headers} {read : Payload}
    (hcompletes : Completes lib limit payload exchange (read.set (lit "model") (get payload "model")))
    {w : World} {l : L} (hJ : J w l) :
    D.wp (complete lib me payload headers read)
      (fun reply w l => ∃ value body, reply = .completion body headers ∧
        Completes lib limit payload exchange value ∧ lib.render (.obj value) = .ok body ∧ C value w l)
      (fun e w l => ∃ value e', Completes lib limit payload exchange value ∧
        lib.render (.obj value) = .error e' ∧ e = .exc e' ∧ C value w l) w l := by
  have hnote : ∀ value, D.wp (noteUsage me value) (fun _ => J) (fun _ _ _ => False) w l := by
    intro value
    unfold noteUsage
    split
    · rename_i counts hcounts
      exact h.event w l _ (husage counts (usage_counts hcounts)) hJ
    · exact hJ
  simp only [complete, wp_bind, setVars, wp_update, lift, wp_ofExcept, wp_pure]
  refine wp_mono (fun _ w₁ l₁ h₁ => ?_) (fun _ _ _ h => h.elim) (hnote _)
  have hC := hcompleted w₁ l₁ _ hcompletes h₁
  cases hrender : lib.render (.obj (read.set (lit "model") (get payload "model"))) with
  | ok body => exact ⟨_, body, rfl, hcompletes, hrender, hC⟩
  | error e' => exact ⟨_, e', hcompletes, hrender, rfl, hC⟩

include hread hclock hfirst

/-- **The statements after `Gateway.open`** end with a completion or a stream, or
with an error: of rendering a completion, or for want of one. -/
theorem wp_deliver
    (hhanded : ∀ w l, J w l → H (w.setCall me fun c => { c with handedOff := true }) l)
    {requestId : Str} {w : World} {l : L} (hJ : J w l) :
    D.wp (deliver lib limit me payload requestId exchange)
      (fun reply w l => (∃ headers, reply = .stream (modelOf payload) headers ∧ H w l) ∨
        ∃ value body headers, reply = .completion body headers ∧
          Completes lib limit payload exchange value ∧ lib.render (.obj value) = .ok body ∧ C value w l)
      (fun e w' l => ((Labelled me w → ∀ value, ¬Completes lib limit payload exchange value) ∧ J w' l) ∨
        ∃ value e', Completes lib limit payload exchange value ∧
          lib.render (.obj value) = .error e' ∧ e = .exc e' ∧ C value w' l) w l := by
  simp only [deliver, responseHeaders, eventOf, wp_bind, wp_read, wp_pure]
  split
  · rename_i model hmodel
    split
    · rename_i endpoint hendpoint
      simp only [wp_pure, wp_ite]
      split
      · rename_i hstatus
        exact .inl ⟨fun _ value hcompletes => absurd hcompletes.accepted (by omega), hJ⟩
      · rename_i hstatus
        split
        · rename_i hstream
          have hno : ∀ value, ¬Completes lib limit payload exchange value := fun value hcompletes =>
            Bool.noConfusion (hcompletes.unary.symm.trans hstream)
          simp only [handOver, wp_ite]
          split
          · exact .inl ⟨_, rfl, hhanded w l hJ⟩
          · exact .inl ⟨fun _ => hno, hJ⟩
        · rename_i hunary
          simp only [collect, wp_ite]
          split
          · rename_i hjson
            simp only [wp_bind]
            refine wp_mono (fun body w₁ l₁ h₁ => ?_) (fun e w₁ l₁ h₁ => ?_)
              (wp_readBody h hread hclock hfirst hJ)
            · obtain ⟨rfl, hreadable, hJ₁⟩ := h₁
              rw [lift, wp_ofExcept]
              cases hparse : parseCompletion lib exchange.response.upstream.body.chunks.flatten with
              | ok read =>
                have hcompletes : Completes lib limit payload exchange
                    (read.set (lit "model") (get payload "model")) :=
                  ⟨by omega, by simpa using hunary, hjson, hreadable, read, hparse, rfl⟩
                refine wp_mono (fun reply w₂ l₂ h₂ => ?_) (fun _ _ _ h => .inr h)
                  (wp_complete h husage hcompleted hcompletes hJ₁)
                obtain ⟨value, body, rfl, hvalue⟩ := h₂
                exact .inr ⟨value, body, _, rfl, hvalue⟩
              | error e =>
                refine .inl ⟨fun _ value hcompletes => ?_, hJ₁⟩
                obtain ⟨read, hread, -⟩ := hcompletes.parsed
                rw [hparse] at hread
                cases hread
            · exact .inl ⟨fun _ value hcompletes => h₁.1 hcompletes.readable, h₁.2⟩
          · rename_i hjson
            exact .inl ⟨fun _ value hcompletes => hjson hcompletes.json, hJ⟩
    · rename_i hendpoint
      refine .inl ⟨fun hlabelled => ?_, hJ⟩
      obtain ⟨endpoint, hsome⟩ := Option.isSome_iff_exists.1 hlabelled.2
      exact absurd hsome (hendpoint endpoint)
  · rename_i hmodel
    refine .inl ⟨fun hlabelled => ?_, hJ⟩
    obtain ⟨model, hsome⟩ := Option.isSome_iff_exists.1 hlabelled.1
    exact absurd hsome (hmodel model)

end Deliver

/-! ### Errors -/

/-- **An error** is noted on the event of the exchange, or recorded if nothing was
opened. -/
theorem wp_refuse {requestId : Str} {code : String} {status : ℕ} {outcome : Outcome}
    {ok : Reply → World → L → Prop} {err : Err → World → L → Prop} {w : World} {l : L}
    (hheld : (w.calls me).exchange.isSome = true → ok (errorReply code status requestId)
      (w.setCall me fun c => { c with event := { c.event with status := some status, error := some code } }) l)
    (hopened : (w.calls me).exchange = none → (w.calls me).opened = true →
      ok (errorReply code status requestId) w l)
    (hrecorded : (w.calls me).exchange = none → (w.calls me).opened = false → ∀ a l₁,
      D.admits w l (.emit (.request
        { requestId := requestId, status := some status, outcome := some outcome,
          error := some code })) a l₁ →
      Ends (fun _ => ok (errorReply code status requestId)) err a w l₁) :
    D.wp (refuse me requestId code status outcome) ok err w l := by
  simp only [refuse, wp_bind, wp_read, wp_ite]
  split
  · rename_i hsome
    exact hheld hsome
  · rename_i hnone
    rw [Option.not_isSome_iff_eq_none] at hnone
    split
    · rename_i hfresh
      simp only [emit, wp_bind, wp_ask, wp_ofExcept]
      intro a l₁ ha
      have hends := hrecorded hnone (by simpa using hfresh) a l₁ ha
      cases a with
      | ok _ => exact hends
      | error e => exact hends
    · rename_i hopen
      exact hopened hnone (by simpa using hopen)

/-! ### Completion -/

/-- The outcome that is recorded after a close. -/
def closedOutcome (outcome : Outcome) : Except Err Unit → Outcome
  | .ok _ => outcome
  | .error _ => if outcome = .completed then .failed else outcome

/-- The terminal event of an exchange, after its close. -/
def closedEvent (ev : Event) (outcome : Outcome) (closed : Except Err Unit) (ms : ℚ) : Event :=
  { ev with
    closeFailed := match closed with
      | .ok _ => ev.closeFailed
      | .error _ => true
    outcome := some (closedOutcome outcome closed)
    totalMs := some ms }

/-- How `Gateway.finish` ends after its record, given how the close ended. -/
def finished : Except Err Unit → Except Err Unit
  | .ok () | .error (.exc _) => .ok ()
  | .error e => .error e

/-- **Finishing** a finished exchange does nothing.  An exchange that is not is marked,
closed and recorded, and only a close that ended with no `Exception` raises. -/
theorem wp_finish {exchange : Exchange} {outcome : Outcome} {ok : Unit → World → L → Prop}
    {err : Err → World → L → Prop} {w : World} {l : L}
    (hdone : (w.calls me).finished = true → ok () w l)
    (hpark : (w.calls me).finished = false →
      D.park (w.setCall me fun c => { c with finished := true }) l (.close exchange.response.attempt))
    (hclose : (w.calls me).finished = false → ∀ w₁ l₁,
      D.wake (w.setCall me fun c => { c with finished := true }) l (.close exchange.response.attempt) w₁ l₁ →
      ∀ closed l₂, D.admits w₁ l₁ (.close exchange.response.attempt) closed l₂ →
      ∀ w₂, (w₂ = w₁ ∨ w₂ = w₁.setCall me fun c => { c with event := { c.event with closeFailed := true } }) →
      ∀ now l₃, D.admits w₂ l₂ .clock now l₃ → ∀ ms w₃,
      w₃ = w₁.setCall me (fun c => { c with event := closedEvent c.event outcome closed ms }) →
      ∀ a l₄, D.admits w₃ l₃ (.emit (.request (w₃.calls me).event)) a l₄ →
      Ends (fun _ => Ends ok err (finished closed)) err a w₃ l₄) :
    D.wp (Gateway.finish me exchange outcome) ok err w l := by
  simp only [Gateway.finish, wp_bind, wp_read, wp_ite]
  split
  · rename_i hfinished
    exact hdone hfinished
  · rename_i hfresh
    rw [Bool.not_eq_true] at hfresh
    simp only [Prog.attempt, wp_bind, wp_update, wp_tryCatch, close, wp_askAwait, wp_ofExcept, wp_pure]
    refine ⟨hpark hfresh, fun w₁ l₁ hw closed l₂ ha => ?_⟩
    have hrest := hclose hfresh w₁ l₁ hw closed l₂ ha
    cases closed with
    | ok u =>
      simp only [ends_ok, noteClose, wp_bind, wp_pure, clock, wp_ask, updateEvent, wp_update, eventOf,
        wp_read, emit, wp_ofExcept]
      intro now l₃ hnow a l₄ hemit
      have hends := hrest w₁ (.inl rfl) now l₃ hnow _ _ rfl a l₄ hemit
      cases a with
      | ok _ => exact hends
      | error e => exact hends
    | error e =>
      simp only [ends_error, noteClose, wp_bind, wp_pure, clock, wp_ask, updateEvent, wp_update, eventOf,
        wp_read, emit, wp_ofExcept]
      intro now l₃ hnow a l₄ hemit
      rw [World.setCall_setCall] at hemit ⊢
      have hends := hrest _ (.inr rfl) now l₃ hnow _ _ rfl a l₄ hemit
      cases a with
      | ok _ => cases e <;> exact hends
      | error e => exact hends

end Ingress
end SwitchyardGateway
