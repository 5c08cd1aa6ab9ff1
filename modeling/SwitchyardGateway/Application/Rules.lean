/-
# Rules for the parts of the gateway

One rule for each part of `Gateway`, over any discipline, so that a proof about
`Gateway.open` cites them and never unfolds the parts again.

Routing, merging and compressing a request ask for the time and wait for two
ports, and write nothing but the event of their own call.  An assertion that is
`Neutral` to this much survives the first half of `Gateway.open`
(`Neutral.prepare`).  The rules of the tables say which replica `Gateway.select`
returns and when it finds none (`wp_select`), and which deadline
`Gateway.cooldown` writes (`wp_cooldown`).
-/

import SwitchyardGateway.Application.Ledger

namespace SwitchyardGateway
namespace Application

open Coop Coop.Discipline Python

variable {L α : Type} {D : Discipline World Call Answer L}

/-- The questions asked while a request is prepared. -/
def Preparing : Call → Prop
  | .clock | .route _ _ | .compress _ _ => True
  | _ => False

/-- The part of an event that is written while a request is prepared. -/
def Preparatory (f : Event → Event) : Prop :=
  ∀ ev, { f ev with
    route := ev.route, tier := ev.tier, model := ev.model, routingMs := ev.routingMs,
    compression := ev.compression, tokens := ev.tokens, compressionMs := ev.compressionMs } = ev

/-- The part of it that is written while the history is compressed. -/
def Compressing (f : Event → Event) : Prop :=
  ∀ ev, { f ev with
    compression := ev.compression, tokens := ev.tokens, compressionMs := ev.compressionMs } = ev

/-- The part of an event that is written while attempts are made. -/
def Attempting (f : Event → Event) : Prop :=
  ∀ ev, { f ev with
    endpoint := ev.endpoint, attempts := ev.attempts, status := ev.status,
    upstreamHeadersMs := ev.upstreamHeadersMs } = ev

/-- The part of it that is written once an attempt is answered. -/
def Concluding (f : Event → Event) : Prop :=
  ∀ ev, { f ev with status := ev.status, upstreamHeadersMs := ev.upstreamHeadersMs } = ev

theorem Concluding.attempting {f : Event → Event} (h : Concluding f) : Attempting f := fun ev =>
  congrArg (fun ev' : Event => { ev' with endpoint := ev.endpoint, attempts := ev.attempts }) (h ev)

theorem Compressing.preparatory {f : Event → Event} (h : Compressing f) : Preparatory f := fun ev =>
  congrArg (fun ev' : Event => { ev' with
    route := ev.route, tier := ev.tier, model := ev.model, routingMs := ev.routingMs }) (h ev)

/-- An assertion of call `me` that survives some questions, some writes to the
event of the call, and whatever others do while the call waits. -/
structure Neutral (D : Discipline World Call Answer L) (me : ℕ) (quiet : Call → Prop)
    (writes : (Event → Event) → Prop) (J : World → L → Prop) : Prop where
  park : ∀ w l q, quiet q → J w l → D.park w l q
  wake : ∀ w l q w' l', quiet q → J w l → D.wake w l q w' l' → J w' l'
  ask : ∀ w l q a l', quiet q → J w l → D.admits w l q a l' → J w l'
  event : ∀ w l f, writes f → J w l → J (w.setCall me fun c => { c with event := f c.event }) l

namespace Neutral

variable {lib : Lib} {settings : Settings} {me : ℕ} {quiet : Call → Prop}
  {writes : (Event → Event) → Prop} {J : World → L → Prop}

/-- What survives some questions survives fewer. -/
theorem mono (h : Neutral D me quiet writes J) {quiet' : Call → Prop}
    (hquiet : ∀ q, quiet' q → quiet q) : Neutral D me quiet' writes J where
  park w l q hq := h.park w l q (hquiet q hq)
  wake w l q w' l' hq := h.wake w l q w' l' (hquiet q hq)
  ask w l q a l' hq := h.ask w l q a l' (hquiet q hq)
  event := h.event

/-- What survives some writes survives fewer. -/
theorem sparing (h : Neutral D me quiet writes J) {writes' : (Event → Event) → Prop}
    (hwrites : ∀ f, writes' f → writes f) : Neutral D me quiet writes' J :=
  { h with event := fun w l f hf => h.event w l f (hwrites f hf) }

/-- One of two assertions survives what both do. -/
theorem or {J' : World → L → Prop} (h : Neutral D me quiet writes J)
    (h' : Neutral D me quiet writes J') : Neutral D me quiet writes fun w l => J w l ∨ J' w l where
  park w l q hq hJ := hJ.elim (h.park w l q hq) (h'.park w l q hq)
  wake w l q w' l' hq hJ hw := hJ.imp (h.wake w l q w' l' hq · hw) (h'.wake w l q w' l' hq · hw)
  ask w l q a l' hq hJ ha := hJ.imp (h.ask w l q a l' hq · ha) (h'.ask w l q a l' hq · ha)
  event w l f hf hJ := hJ.imp (h.event w l f hf) (h'.event w l f hf)

/-- So does one of a family. -/
theorem «exists» {ι : Type} {J : ι → World → L → Prop} (h : ∀ i, Neutral D me quiet writes (J i)) :
    Neutral D me quiet writes fun w l => ∃ i, J i w l where
  park w l q hq := fun ⟨i, hJ⟩ => (h i).park w l q hq hJ
  wake w l q w' l' hq := fun ⟨i, hJ⟩ hw => ⟨i, (h i).wake w l q w' l' hq hJ hw⟩
  ask w l q a l' hq := fun ⟨i, hJ⟩ ha => ⟨i, (h i).ask w l q a l' hq hJ ha⟩
  event w l f hf := fun ⟨i, hJ⟩ => ⟨i, (h i).event w l f hf hJ⟩

/-- An assertion about a call with a log of its own. -/
theorem of_alone {rely : World → World → Prop} {ok : List Entry → Entry → Prop}
    {J : World → List Entry → Prop} (hrely : ∀ w w' l, rely w w' → J w l → J w' l)
    (hask : ∀ w q t a l, quiet q → ok l ⟨t, q, a⟩ → J w l → J w (⟨t, q, a⟩ :: l))
    (hevent : ∀ w f l, writes f → J w l → J (w.setCall me fun c => { c with event := f c.event }) l) :
    Neutral (alone rely ok) me quiet writes J where
  park _ _ _ _ _ := trivial
  wake := by
    rintro w l _ w' _ _ hJ ⟨hothers, rfl⟩
    exact hrely w w' _ hothers hJ
  ask := by
    rintro w l q a _ hq hJ ⟨t, hok, rfl⟩
    exact hask w q t a l hq hok hJ
  event w l f hf hJ := hevent w f l hf hJ

/-- An assertion about the objects and the log of a call that others leave alone. -/
theorem of_calls {ok : List Entry → Entry → Prop} {P : CallState → List Entry → Prop}
    (hask : ∀ c q t a l, quiet q → P c l → P c (⟨t, q, a⟩ :: l))
    (hevent : ∀ c f l, writes f → P c l → P { c with event := f c.event } l) :
    Neutral (alone (fun w w' => w'.calls me = w.calls me) ok) me quiet writes
      fun w l => P (w.calls me) l := by
  refine of_alone (fun w w' l hcalls hP => ?_) (fun w q t a l hq _ hP => hask _ q t a l hq hP)
    fun w f l hf hP => ?_
  · rwa [hcalls]
  · rw [World.setCall_calls_self]
    exact hevent _ f l hf hP

theorem call (h : Neutral D me quiet writes J) {q : Call} (hq : quiet q) :
    D.Preserves J (Prog.ask q : Py (Answer q)) fun _ => True := by
  intro w l hJ
  rw [wp_ask]
  exact fun a l₁ ha => ⟨trivial, h.ask w l q a l₁ hq hJ ha⟩

theorem await (h : Neutral D me quiet writes J) {q : Call} (hq : quiet q) :
    D.Preserves J (Prog.askAwait q : Py (Answer q)) fun _ => True := by
  intro w l hJ
  rw [wp_askAwait]
  refine ⟨h.park w l q hq hJ, fun w₁ l₁ hw a l₂ ha => ⟨trivial, ?_⟩⟩
  exact h.ask _ _ _ _ _ hq (h.wake _ _ _ _ _ hq hJ hw) ha

theorem read (_ : Neutral D me quiet writes J) :
    D.Preserves J (Prog.read : Py World) fun _ => True :=
  fun _ _ hJ => ⟨trivial, hJ⟩

theorem eventOf (h : Neutral D me quiet writes J) :
    D.Preserves J (Application.eventOf me) fun _ => True :=
  h.read.bind fun _ _ => .ret trivial

theorem updateEvent (h : Neutral D me quiet writes J) (f : Event → Event) (hf : writes f) :
    D.Preserves J (Application.updateEvent me f) fun _ => True := by
  intro w l hJ
  rw [Application.updateEvent, wp_update]
  exact ⟨trivial, h.event w l f hf hJ⟩

theorem emit (h : Neutral D me quiet writes J) {record : Record} (hq : quiet (.emit record)) :
    D.Preserves J (Application.emit record) fun _ => True :=
  (h.call hq).bind fun _ _ => .ofExcept

theorem close (h : Neutral D me quiet writes J) {response : Response}
    (hq : quiet (.close response.attempt)) :
    D.Preserves J (Application.close response) fun _ => True :=
  (h.await hq).bind fun _ _ => .ofExcept

section Prepare

variable (h : Neutral D me quiet writes J) (hquiet : ∀ q, Preparing q → quiet q)
  (hwrites : ∀ f, Preparatory f → writes f)

include h hquiet

theorem clock : D.Preserves J Application.clock fun _ => True :=
  h.call (hquiet Call.clock trivial)

theorem route (request : Payload) (pair : Pair) :
    D.Preserves J (Application.route request pair) fun _ => True :=
  (h.await (hquiet (Call.route request pair) trivial)).bind fun _ _ => .ofExcept

theorem compress (messages : List Json) (model : Model) :
    D.Preserves J (Application.compress messages model) fun _ => True :=
  (h.await (hquiet (Call.compress messages model) trivial)).bind fun _ _ => .ofExcept

theorem compressRows (hcompress : ∀ f, Compressing f → writes f) (model : Model) (messages : List Json)
    (indices : List ℕ) :
    D.Preserves J (Application.compressRows me model messages indices) fun _ => True := by
  unfold Application.compressRows
  refine (h.compress hquiet _ _).bind fun result _ => ?_
  split
  · refine Preserves.ofExcept.bind fun same _ => ?_
    split
    · exact (h.updateEvent _ (hcompress _ fun _ => by rfl)).bind fun _ _ => .ret trivial
    · exact .throw
  · exact .throw

theorem compressHistory (hcompress : ∀ f, Compressing f → writes f) (model : Model) (headers : Headers)
    (prepared : Payload) :
    D.Preserves J (Application.compressHistory lib settings me model headers prepared)
      fun _ => True := by
  have hnote : ∀ compression, D.Preserves J
      (Application.updateEvent me fun ev => { ev with compression := compression }) fun _ => True :=
    fun _ => h.updateEvent _ (hcompress _ fun _ => by rfl)
  unfold Application.compressHistory
  refine (hnote _).bind fun _ _ => ?_
  split
  · split
    · refine Preserves.ofExcept.bind fun indices _ => (hnote _).bind fun _ _ => ?_
      split
      · refine ((h.compressRows hquiet hcompress _ _ _).bind fun _ _ => .ret trivial).tryCatch
          fun e => ?_
        split
        · exact (hnote _).bind fun _ _ => .ret trivial
        · exact .throw
      · exact .ret trivial
    · exact .throw
  · exact .ret trivial

include hwrites

theorem routeTier (request : Payload) (name : Str) :
    D.Preserves J (Application.routeTier settings me request name) fun _ => True := by
  have hroute : ∀ route, D.Preserves J
      (Application.updateEvent me fun ev => { ev with route := route }) fun _ => True :=
    fun _ => h.updateEvent _ (hwrites _ fun _ => by rfl)
  unfold Application.routeTier
  split
  · refine (hroute _).bind fun _ _ => (h.route hquiet _ _).bind fun decision _ => ?_
    split
    · exact .ret trivial
    · split
      · exact .ret trivial
      · exact .throw
  · split
    · exact (hroute _).bind fun _ _ => .ret trivial
    · exact .throw

/-- The model a request is routed to is a configured one. -/
theorem routeRequest (request : Payload) :
    D.Preserves J (Application.routeRequest settings me request)
      fun r => ∃ label, settings.models.lookup label = some r.2 := by
  unfold Application.routeRequest
  split
  · refine (h.clock hquiet).bind fun _ _ => ?_
    split
    · refine (h.routeTier hquiet hwrites _ _).bind fun (_, label, _) _ => ?_
      dsimp only
      cases hm : settings.models.lookup label with
      | some model =>
        refine (h.clock hquiet).bind fun _ _ => ?_
        exact (h.updateEvent _ (hwrites _ fun _ => by rfl)).bind fun _ _ => .ret ⟨_, hm⟩
      | none => exact .throw
    · split
      · exact .throw
      · exact .throw
  · exact .throw

/-- **Preparing a request** asks and writes no more than this, picks a configured
model and forwards configured headers. -/
theorem prepare (request : Payload) (headers : Headers) :
    D.Preserves J (Application.prepare lib settings me request headers) fun r =>
      (∃ label, settings.models.lookup label = some r.1) ∧
        r.2.2 = headers.filter fun p => p.1 ∈ settings.forwardHeaders := by
  unfold Application.prepare
  refine (h.routeRequest hquiet hwrites request).bind fun r hr => (h.clock hquiet).bind fun _ _ => ?_
  refine (h.compressHistory hquiet (fun f hf => hwrites f hf.preparatory) _ _ _).bind fun prepared _ => ?_
  refine (h.clock hquiet).bind fun _ _ => ?_
  exact (h.updateEvent _ (hwrites _ fun _ => by rfl)).bind fun _ _ => .ret ⟨hr, rfl⟩

end Prepare

/-! The parts of a round that ask nothing of the transport. -/

theorem emitRetry (h : Neutral D me quiet writes J)
    (hemit : ∀ rid model endpoint, quiet (.emit (.retry rid model endpoint))) (model : Model)
    (endpoint : Endpoint) (attempt : ℕ) :
    D.Preserves J (Application.emitRetry me model endpoint attempt) fun _ => True := by
  unfold Application.emitRetry
  split
  · exact .ret trivial
  · exact h.eventOf.bind fun _ _ => h.emit (hemit _ _ _)

theorem emitFailure (h : Neutral D me quiet writes J)
    (hemit : ∀ rid model endpoint cause, quiet (.emit (.replicaFailure rid model endpoint cause)))
    (model : Model) (endpoint : Endpoint) (cause : FailureCause) :
    D.Preserves J (Application.emitFailure me model endpoint cause) fun _ => True := by
  unfold Application.emitFailure
  exact h.eventOf.bind fun _ _ => h.emit (hemit _ _ _ _)

/-- Looking for another replica does not fail. -/
theorem anyAvailable (h : Neutral D me quiet writes J) (hclock : quiet .clock) (model : Model)
    (excluded : List Str) (endpoints : List Endpoint) {err : Err → World → L → Prop} {w : World}
    {l : L} (hJ : J w l) :
    D.wp (Application.anyAvailable model excluded endpoints) (fun _ => J) err w l := by
  induction endpoints generalizing l with
  | nil => exact hJ
  | cons endpoint endpoints ih =>
    unfold Application.anyAvailable
    split
    · exact ih hJ
    · simp only [wp_bind, wp_read, Application.clock, wp_ask]
      intro now l₁ hnow
      have hJ₁ := h.ask w l Call.clock now l₁ hclock hJ hnow
      split
      · exact hJ₁
      · exact ih hJ₁

/-- A response is only discarded if its status is retryable and it is the first. -/
theorem discards (h : Neutral D me quiet writes J) (hclock : quiet .clock) (model : Model)
    (excluded : List Str) (attempt : ℕ) (upstream : Upstream) {err : Err → World → L → Prop}
    {w : World} {l : L} (hJ : J w l) :
    D.wp (Application.discards model excluded attempt upstream)
      (fun b w l => (b = true → retryable upstream.status = true ∧ attempt = 0) ∧ J w l) err w l := by
  unfold Application.discards
  split
  · rename_i hretry
    exact wp_mono (fun _ _ _ hJ => ⟨fun _ => hretry, hJ⟩) (fun _ _ _ he => he)
      (h.anyAvailable hclock model excluded _ hJ)
  · exact ⟨by simp, hJ⟩

/-- Noting the first byte does not fail. -/
theorem noteFirstByte (h : Neutral D me quiet writes J) (hclock : quiet .clock)
    (hwrites : ∀ ms, writes fun ev => { ev with firstBodyByteMs := ms }) (exchange : Exchange)
    (chunk : Bytes) {err : Err → World → L → Prop} {w : World} {l : L} (hJ : J w l) :
    D.wp (Application.noteFirstByte me exchange chunk) (fun _ => J) err w l := by
  simp only [Application.noteFirstByte, Application.eventOf, wp_bind, wp_read, wp_pure]
  split
  · simp only [wp_bind, Application.clock, wp_ask, Application.updateEvent, wp_update]
    intro now l₁ hnow
    exact h.event w l₁ _ (hwrites _) (h.ask w l Call.clock now l₁ hclock hJ hnow)
  · exact hJ

end Neutral

/-! ### Selection and cooldowns -/

section Tables

variable {J : World → L → Prop} {err : Err → World → L → Prop} {w : World} {l : L}

/-- Counting from any stored position, the offsets reach every replica. -/
theorem exists_offset {n : ℕ} (start : ℕ) (i : Fin n) :
    ∃ offset : Fin n, (start + offset) % n = i := by
  have hn : 0 < n := Nat.zero_lt_of_lt i.isLt
  refine ⟨⟨(i + (n - start % n)) % n, Nat.mod_lt _ hn⟩, ?_⟩
  have hs : start % n < n := Nat.mod_lt _ hn
  have hstart : start = n * (start / n) + start % n := (Nat.div_add_mod start n).symm
  calc (start + (i + (n - start % n)) % n) % n = (start + (i + (n - start % n))) % n := by
        rw [Nat.add_mod_mod]
    _ = (i + n * (start / n + 1)) % n := by
        congr 1
        rw [Nat.mul_add, Nat.mul_one]
        omega
    _ = i := by rw [Nat.add_mul_mod_self_left, Nat.mod_eq_of_lt i.isLt]

/-- A replica that a scan under `J` may pass over: excluded, or cooling down at
some reading of the clock. -/
def Refused (D : Discipline World Call Answer L) (J : World → L → Prop) (model : Model)
    (excluded : List Str) (endpoint : Endpoint) : Prop :=
  endpoint.name ∈ excluded ∨ ∃ w l now l', J w l ∧ D.admits w l Call.clock now l' ∧
    now < w.deadline (model.name, endpoint.name)

theorem wp_selectFrom {model : Model} {excluded : List Str} {start : ℕ}
    {ok : Fin model.endpoints.length → World → L → Prop}
    (hclock : ∀ w l now l', J w l → D.admits w l Call.clock now l' → J w l')
    (hsel : ∀ w l (i : Fin model.endpoints.length) now l₁ l₂, J w l →
      (model.endpoints.get i).name ∉ excluded → D.admits w l Call.clock now l₁ →
      w.deadline (model.name, (model.endpoints.get i).name) ≤ now →
      D.admits (w.setPosition model.name ((i + 1) % model.endpoints.length)) l₁
        (Call.selected model (model.endpoints.get i)) () l₂ →
      ok i (w.setPosition model.name ((i + 1) % model.endpoints.length)) l₂)
    (hnone : (∀ i, Refused D J model excluded (model.endpoints.get i)) → ∀ w l, J w l →
      err (gatewayError "no_available_replica" 503) w l)
    (offsets : List (Fin model.endpoints.length))
    (hrest : ∀ i, Refused D J model excluded (model.endpoints.get i) ∨
      ∃ offset ∈ offsets, (start + offset) % model.endpoints.length = i) (hJ : J w l) :
    D.wp (Gateway.selectFrom model excluded start offsets) ok err w l := by
  induction offsets generalizing w l with
  | nil =>
    refine hnone (fun i => ?_) w l hJ
    rcases hrest i with h | ⟨offset, h, _⟩
    · exact h
    · cases h
  | cons offset offsets ih =>
    unfold Gateway.selectFrom
    -- the replica this offset stands for is passed over for a reason
    have hskip : ∀ w l, J w l →
        Refused D J model excluded (model.endpoints.get ⟨(start + offset) % model.endpoints.length,
          Nat.mod_lt _ (Nat.zero_lt_of_lt offset.isLt)⟩) →
        D.wp (Gateway.selectFrom model excluded start offsets) ok err w l := by
      intro w l hJ hrefused
      refine ih (fun i => ?_) hJ
      rcases hrest i with h | ⟨o, ho, hi⟩
      · exact .inl h
      · rcases List.mem_cons.1 ho with rfl | ho
        · left
          have : i = ⟨(start + o) % model.endpoints.length,
              Nat.mod_lt _ (Nat.zero_lt_of_lt o.isLt)⟩ := Fin.ext hi.symm
          rw [this]
          exact hrefused
        · exact .inr ⟨o, ho, hi⟩
    dsimp only
    split
    · rename_i hmem
      exact hskip w l hJ (.inl hmem)
    · rename_i hmem
      simp only [wp_bind, wp_read, clock, wp_ask]
      intro now l₁ hnow
      split
      · rename_i hle
        simp only [wp_bind, wp_update, wp_ask, wp_pure]
        exact fun _ l₂ hadm => hsel w l _ now l₁ l₂ hJ hmem hnow hle hadm
      · rename_i hlt
        exact hskip w l₁ (hclock w l now l₁ hJ hnow)
          (.inr ⟨w, l, now, l₁, hJ, hnow, not_le.1 hlt⟩)

/-- **Selection** returns a replica that is neither excluded nor cooling down at
a reading of the clock, and fails only if every replica is one of the two. -/
theorem wp_select {model : Model} {excluded : List Str}
    {ok : Fin model.endpoints.length → World → L → Prop}
    (hclock : ∀ w l now l', J w l → D.admits w l Call.clock now l' → J w l')
    (hsel : ∀ w l (i : Fin model.endpoints.length) now l₁ l₂, J w l →
      (model.endpoints.get i).name ∉ excluded → D.admits w l Call.clock now l₁ →
      w.deadline (model.name, (model.endpoints.get i).name) ≤ now →
      D.admits (w.setPosition model.name ((i + 1) % model.endpoints.length)) l₁
        (Call.selected model (model.endpoints.get i)) () l₂ →
      ok i (w.setPosition model.name ((i + 1) % model.endpoints.length)) l₂)
    (hnone : (∀ i, Refused D J model excluded (model.endpoints.get i)) → ∀ w l, J w l →
      err (gatewayError "no_available_replica" 503) w l) (hJ : J w l) :
    D.wp (Gateway.select model excluded) ok err w l := by
  simp only [Gateway.select, wp_bind, wp_read]
  refine wp_selectFrom hclock hsel hnone _ (fun i => .inr ?_) hJ
  obtain ⟨offset, hoffset⟩ := exists_offset ((w.positions model.name).getD 0) i
  exact ⟨offset, List.mem_finRange _, hoffset⟩

/-- The seconds a failure asks for: the configured ones, or the finite delay of
its `Retry-After` header if that is longer. -/
def requestedDelay (lib : Lib) (settings : Settings) (retryAfter : Str) (now : ℚ) : ℚ :=
  match retryDelay lib retryAfter now with
  | some delay => max settings.cooldownSeconds delay
  | none => settings.cooldownSeconds

theorem cooldownSeconds_le_requestedDelay (lib : Lib) (settings : Settings) (retryAfter : Str)
    (now : ℚ) : settings.cooldownSeconds ≤ requestedDelay lib settings retryAfter now := by
  unfold requestedDelay
  split
  · exact le_max_left _ _
  · exact le_refl _

/-- **A cooldown** reads the date only if the header needs it, then the clock,
and writes the deadline the requested delay leads to. -/
theorem wp_cooldown {lib : Lib} {settings : Settings} {replica : Str × Str} {retryAfter : Str}
    {ok : Unit → World → L → Prop}
    (hwrite : ∀ date l₁, (l₁ = l ∧ (∀ date', requestedDelay lib settings retryAfter date' =
        requestedDelay lib settings retryAfter date) ∨ D.admits w l Call.utcnow date l₁) →
      ∀ now l₂, D.admits w l₁ Call.clock now l₂ →
      ok () (w.setCooldown replica (now + requestedDelay lib settings retryAfter date)) l₂) :
    D.wp (Gateway.cooldown lib settings replica retryAfter) ok err w l := by
  -- the date does not matter unless the header is one
  have hplain : ∀ seconds, (∀ date, requestedDelay lib settings retryAfter date = seconds) →
      ∀ now l₂, D.admits w l Call.clock now l₂ → ok () (w.setCooldown replica (now + seconds)) l₂ := by
    intro seconds hs now l₂ hnow
    have h := hwrite 0 l (.inl ⟨rfl, fun date' => (hs date').trans (hs 0).symm⟩) now l₂ hnow
    rwa [hs 0] at h
  simp only [Gateway.cooldown, Gateway.cooldownSeconds, wp_bind, clock, wp_ask, wp_update]
  split
  · rename_i x hx
    exact hplain _ fun date => by simp only [requestedDelay, retryDelay, hx]
  · rename_i x hne hx
    refine hplain _ fun date => ?_
    cases x with
    | fin q => exact (hne q rfl).elim
    | inf b => simp only [requestedDelay, retryDelay, hx]
    | nan => simp only [requestedDelay, retryDelay, hx]
  · rename_i hx
    split
    · rename_i hd
      exact hplain _ fun date => by simp only [requestedDelay, retryDelay, hx, hd, Option.map_none]
    · rename_i d hd
      simp only [wp_bind, utcnow, wp_ask, wp_pure]
      intro date l₁ hdate now l₂ hnow
      have h := hwrite date l₁ (.inr hdate) now l₂ hnow
      simpa only [requestedDelay, retryDelay, hx, hd, Option.map_some] using h

end Tables

/-! ### Reading a response -/

/-- **A loop over the chunks of a response**, from what one round does to its
invariant: the chunk is waited for, the first byte noted, the chunk handled. -/
theorem wp_bodyFrom {β : Type} {me : ℕ} {exchange : Exchange} {step : β → Bytes → Py (β × Bool)}
    {I : List Bytes → β → World → L → Prop} {ok : β → World → L → Prop} {err : Err → World → L → Prop}
    (hpark : ∀ rest acc w l, I rest acc w l → D.park w l (.read exchange.response.attempt))
    (hchunk : ∀ chunk rest acc w l w₁ l₁ l₂, I (chunk :: rest) acc w l →
      D.wake w l (.read exchange.response.attempt) w₁ l₁ →
      D.admits w₁ l₁ (.read exchange.response.attempt) () l₂ →
      D.wp (do noteFirstByte me exchange chunk; step acc chunk)
        (fun r => if r.2 then I rest r.1 else ok r.1) err w₁ l₂)
    (hend : ∀ acc w l w₁ l₁ l₂, I [] acc w l →
      D.wake w l (.read exchange.response.attempt) w₁ l₁ →
      D.admits w₁ l₁ (.read exchange.response.attempt) () l₂ →
      match exchange.response.upstream.body.ending with
      | .eof => ok acc w₁ l₂
      | .raise e => err e w₁ l₂)
    (chunks : List Bytes) (acc : β) {w : World} {l : L} (h : I chunks acc w l) :
    D.wp (Gateway.bodyFrom me exchange step chunks acc) ok err w l := by
  induction chunks generalizing acc w l with
  | nil =>
    simp only [Gateway.bodyFrom, wp_bind, wp_askAwait]
    refine ⟨hpark _ _ w l h, fun w₁ l₁ hw a l₂ ha => ?_⟩
    have hends := hend acc w l w₁ l₁ l₂ h hw ha
    split
    · rename_i heof
      rw [heof] at hends
      exact hends
    · rename_i e heof
      rw [heof] at hends
      exact hends
  | cons chunk chunks ih =>
    simp only [Gateway.bodyFrom, wp_bind, wp_askAwait]
    refine ⟨hpark _ _ w l h, fun w₁ l₁ hw a l₂ ha => ?_⟩
    have hround := hchunk chunk chunks acc w l w₁ l₁ l₂ h hw ha
    rw [wp_bind] at hround
    refine wp_mono (fun _ w₂ l₃ h₂ => ?_) (fun _ _ _ h => h) hround
    refine wp_mono (fun r w₃ l₄ h₃ => ?_) (fun _ _ _ h => h) h₂
    obtain ⟨acc', more⟩ := r
    cases more with
    | true => exact ih acc' h₃
    | false => exact h₃

/-! ### The loop, for assertions that do not speak of the tables -/

/-- **An attempt is sent**: what its answer leads to. -/
theorem wp_trySend {lib : Lib} {settings : Settings} {me : ℕ} {model : Model} {prepared : Payload}
    {forwarded : Headers} {attempt : ℕ} {endpoint : Endpoint} {w : World} {l : L}
    {ok : Option Upstream → World → L → Prop} {err : Err → World → L → Prop}
    (hpark : D.park w l (.send model endpoint prepared forwarded))
    (hok : ∀ w₁ l₁ upstream l₂, D.wake w l (.send model endpoint prepared forwarded) w₁ l₁ →
      D.admits w₁ l₁ (.send model endpoint prepared forwarded) (.ok upstream) l₂ →
      ok (some upstream) w₁ l₂)
    (hconnect : ∀ w₁ l₁ l₂, D.wake w l (.send model endpoint prepared forwarded) w₁ l₁ →
      D.admits w₁ l₁ (.send model endpoint prepared forwarded) (.error (.exc .connectFailure)) l₂ →
      D.wp (Gateway.cooldown lib settings (model.name, endpoint.name) [])
        (fun _ => D.wp (emitFailure me model endpoint .connect)
          (fun _ => if attempt = 0 then ok none else err (.exc .connectFailure)) err) err w₁ l₂)
    (herr : ∀ w₁ l₁ e l₂, D.wake w l (.send model endpoint prepared forwarded) w₁ l₁ → e ≠ .exc .connectFailure →
      D.admits w₁ l₁ (.send model endpoint prepared forwarded) (.error e) l₂ → err e w₁ l₂) :
    D.wp (trySend lib settings me model prepared forwarded attempt endpoint) ok err w l := by
  simp only [trySend, wp_bind, wp_tryCatch, send, wp_askAwait, wp_ofExcept, wp_pure]
  refine ⟨hpark, fun w₁ l₁ hw answer l₂ ha => ?_⟩
  cases answer with
  | ok upstream => exact hok w₁ l₁ upstream l₂ hw ha
  | error e =>
    rw [ends_error]
    split
    · simp only [wp_bind, wp_ite]
      exact hconnect w₁ l₁ l₂ hw ha
    · rename_i he
      exact herr w₁ l₁ e l₂ hw (fun h => he h) ha

/-- The questions asked once an attempt has been answered. -/
def Answering : Call → Prop
  | .clock | .utcnow | .emit (.replicaFailure _ _ _ _) | .close _ => True
  | _ => False

/-- The questions asked while attempts are made, besides the attempts. -/
def Trying : Call → Prop
  | .clock | .utcnow | .emit (.retry _ _ _) | .emit (.replicaFailure _ _ _ _) | .close _
  | .selected _ _ => True
  | _ => False

/-- The questions asked while an exchange is opened. -/
def Opening : Call → Prop
  | .clock | .utcnow | .emit (.retry _ _ _) | .emit (.replicaFailure _ _ _ _) | .route _ _
  | .compress _ _ | .send _ _ _ _ | .close _ | .selected _ _ => True
  | _ => False

theorem Preparing.opening {q : Call} (hq : Preparing q) : Opening q := by
  cases q <;> first | exact hq.elim | trivial

theorem Answering.trying {q : Call} (hq : Answering q) : Trying q := by
  cases q with
  | emit record => cases record <;> first | exact hq.elim | trivial
  | _ => first | exact hq.elim | trivial

theorem Trying.opening {q : Call} (hq : Trying q) : Opening q := by
  cases q with
  | emit record => cases record <;> first | exact hq.elim | trivial
  | _ => first | exact hq.elim | trivial

/-- An assertion about the log and the calls: it does not read the tables. -/
def TableFree (J : World → L → Prop) : Prop := ∀ w w' l, w'.calls = w.calls → J w l → J w' l

namespace Neutral

variable {lib : Lib} {settings : Settings} {me : ℕ} {quiet : Call → Prop} {J : World → L → Prop}

section Tables

variable {writes : (Event → Event) → Prop} (h : Neutral D me quiet writes J) (htable : TableFree J)
  (hclock : quiet .clock)

include h htable hclock

theorem cooldown (hutcnow : quiet .utcnow) (replica : Str × Str) (retryAfter : Str) :
    D.Preserves J (Gateway.cooldown lib settings replica retryAfter) fun _ => True := by
  intro w l hJ
  refine wp_cooldown fun date l₁ hdate now l₂ hnow => ⟨trivial, htable w _ l₂ rfl ?_⟩
  have hJ₁ : J w l₁ := by
    rcases hdate with ⟨rfl, _⟩ | hdate
    · exact hJ
    · exact h.ask _ _ _ _ _ hutcnow hJ hdate
  exact h.ask _ _ _ _ _ hclock hJ₁ hnow

theorem select (hselected : ∀ model endpoint, quiet (.selected model endpoint)) (model : Model)
    (excluded : List Str) :
    D.Preserves J (Gateway.select model excluded)
      fun i => (model.endpoints.get i).name ∉ excluded := by
  intro w l hJ
  refine wp_select (J := J) (fun w l now l' hJ hnow => h.ask w l Call.clock now l' hclock hJ hnow)
    (fun w l i now l₁ l₂ hJ hfresh hnow _ hsel => ⟨hfresh, ?_⟩) (fun _ _ _ hJ => hJ) hJ
  have hJ₁ := h.ask w l Call.clock now l₁ hclock hJ hnow
  exact h.ask _ _ _ _ _ (hselected model _) (htable w _ l₁ rfl hJ₁) hsel

theorem failover (hutcnow : quiet .utcnow)
    (hemit : ∀ rid model endpoint cause, quiet (.emit (.replicaFailure rid model endpoint cause)))
    (model : Model) (endpoint : Endpoint) (retryAfter : Str) (cause : FailureCause) :
    D.Preserves J (do
      Gateway.cooldown lib settings (model.name, endpoint.name) retryAfter
      Application.emitFailure me model endpoint cause) fun _ => True :=
  (h.cooldown htable hclock hutcnow _ _).bind fun _ _ => h.emitFailure hemit model endpoint cause

theorem coolRejected (hutcnow : quiet .utcnow)
    (hemit : ∀ rid model endpoint cause, quiet (.emit (.replicaFailure rid model endpoint cause)))
    (model : Model) (endpoint : Endpoint) (upstream : Upstream) :
    D.Preserves J (Application.coolRejected lib settings me model endpoint upstream)
      fun _ => True := by
  unfold Application.coolRejected
  split
  · exact h.failover htable hclock hutcnow hemit model endpoint _ _
  · exact .ret trivial

end Tables

section Answered

variable {writes : (Event → Event) → Prop} (h : Neutral D me quiet writes J) (htable : TableFree J)
  (hquiet : ∀ q, Answering q → quiet q) (hwrites : ∀ f, Concluding f → writes f)

include h hquiet hwrites

theorem conclude (exchange : Exchange) (discarded : Bool) :
    D.Preserves J (Application.conclude me exchange discarded) fun _ => True := by
  unfold Application.conclude
  split
  · exact (h.close (hquiet (Call.close _) trivial)).bind fun _ _ => .ret trivial
  · refine (h.call (hquiet Call.clock trivial)).bind fun _ _ => ?_
    exact (h.updateEvent _ (hwrites _ fun _ => by rfl)).bind fun _ _ => .ret trivial

include htable

theorem answered (model : Model) (started upstreamStarted : ℚ) (attempt : ℕ) (endpoint : Endpoint)
    (excluded : List Str) (upstream : Upstream) :
    D.Preserves J (Application.answered lib settings me model started upstreamStarted attempt
      endpoint excluded upstream) fun _ => True := by
  unfold Application.answered
  refine (h.updateEvent _ (hwrites _ fun _ => by rfl)).bind fun _ _ => ?_
  refine (h.coolRejected htable (hquiet Call.clock trivial) (hquiet Call.utcnow trivial)
    (fun _ _ _ _ => hquiet (Call.emit _) trivial) _ _ _).bind fun _ _ => ?_
  refine Preserves.bind (fun _ _ hJ => h.discards (hquiet Call.clock trivial) _ _ _ _ hJ)
    fun discarded _ => ?_
  exact h.conclude hquiet hwrites _ _

end Answered

section Trying

variable {writes : (Event → Event) → Prop} (h : Neutral D me quiet writes J) (htable : TableFree J)
  (hquiet : ∀ q, Trying q → quiet q) (hwrites : ∀ f, Attempting f → writes f)

include h htable hquiet

theorem trySend (model : Model) (prepared : Payload) (forwarded : Headers) (attempt : ℕ)
    (endpoint : Endpoint) (hsend : quiet (.send model endpoint prepared forwarded)) :
    D.Preserves J (Application.trySend lib settings me model prepared forwarded attempt endpoint)
      fun _ => True := by
  intro w l hJ
  have hanswer : ∀ w₁ l₁ a l₂, D.wake w l (.send model endpoint prepared forwarded) w₁ l₁ →
      D.admits w₁ l₁ (.send model endpoint prepared forwarded) a l₂ → J w₁ l₂ :=
    fun w₁ l₁ a l₂ hw ha => h.ask w₁ l₁ (Call.send model endpoint prepared forwarded) a l₂
      hsend (h.wake _ _ (Call.send model endpoint prepared forwarded) _ _ hsend hJ hw) ha
  refine wp_trySend (h.park w l (Call.send model endpoint prepared forwarded) hsend hJ) (fun w₁ l₁ upstream l₂ hw ha => ⟨trivial, hanswer _ _ _ _ hw ha⟩)
    (fun w₁ l₁ l₂ hw ha => ?_) (fun w₁ l₁ e l₂ hw _ ha => hanswer _ _ _ _ hw ha)
  have hfailed : D.wp (do
      Gateway.cooldown lib settings (model.name, endpoint.name) []
      Application.emitFailure me model endpoint .connect) (fun _ w l => True ∧ J w l) (fun _ => J) w₁ l₂ :=
    h.failover htable (hquiet Call.clock trivial) (hquiet Call.utcnow trivial)
      (fun _ _ _ _ => hquiet (Call.emit _) trivial) model endpoint [] .connect w₁ l₂
      (hanswer _ _ _ _ hw ha)
  rw [wp_bind] at hfailed
  refine wp_mono (fun _ _ _ h => ?_) (fun _ _ _ h => h) hfailed
  refine wp_mono (fun _ _ _ h => ?_) (fun _ _ _ h => h) h
  split
  · exact h
  · exact h.2

include hwrites

theorem attemptOnce (model : Model) (prepared : Payload) (forwarded : Headers)
    (started upstreamStarted : ℚ) (attempt : ℕ) (endpoint : Endpoint) (excluded : List Str)
    (hsend : quiet (.send model endpoint prepared forwarded)) :
    D.Preserves J (Application.attemptOnce lib settings me model prepared forwarded started
      upstreamStarted attempt endpoint excluded) fun _ => True := by
  unfold Application.attemptOnce
  refine (h.updateEvent _ (hwrites _ fun _ => by rfl)).bind fun _ _ => ?_
  refine (h.emitRetry (fun _ _ _ => hquiet (Call.emit _) trivial) _ _ _).bind fun _ _ => ?_
  refine (h.trySend htable hquiet _ _ _ _ _ hsend).bind fun answer _ => ?_
  cases answer with
  | none => exact .ret trivial
  | some upstream => exact h.answered htable (fun q hq => hquiet q hq.trying) (fun f hf => hwrites f hf.attempting) _ _ _ _ _ _ _

theorem attempts (model : Model) (prepared : Payload) (forwarded : Headers)
    (started upstreamStarted : ℚ) (rounds : List ℕ) (excluded : List Str)
    (hsend : ∀ endpoint ∈ model.endpoints, quiet (.send model endpoint prepared forwarded)) :
    D.Preserves J (Application.attempts lib settings me model prepared forwarded started
      upstreamStarted rounds excluded) fun _ => True := by
  induction rounds generalizing excluded with
  | nil => exact .throw
  | cons attempt rounds ih =>
    unfold Application.attempts
    refine (h.select htable (hquiet Call.clock trivial) (fun _ _ => hquiet (Call.selected _ _) trivial)
      model excluded).bind fun index _ => ?_
    refine (h.attemptOnce htable hquiet hwrites _ _ _ _ _ _ _ _
      (hsend _ (List.get_mem _ _))).bind fun r _ => ?_
    cases r with
    | some exchange => exact .ret trivial
    | none => exact ih _

end Trying

section Opening

variable {writes : (Event → Event) → Prop} (h : Neutral D me quiet writes J) (htable : TableFree J)
  (hquiet : ∀ q, Opening q → quiet q) (hwrites : ∀ f, Attempting f → writes f)

include h htable hquiet hwrites

/-- **Opening an exchange** keeps what survives its questions. -/
theorem openInner (hprepare : ∀ f, Preparatory f → writes f) (request : Payload) (headers : Headers)
    (started : ℚ) :
    D.Preserves J (Gateway.openInner lib settings me request headers started) fun _ => True := by
  unfold Gateway.openInner
  refine (h.prepare (fun q hq => hquiet q hq.opening) hprepare request headers).bind fun r _ => ?_
  refine (h.call (hquiet Call.clock trivial)).bind fun _ _ => ?_
  exact h.attempts htable (fun q hq => hquiet q hq.opening) hwrites _ _ _ _ _ _ _
    fun _ _ => hquiet (Call.send _ _ _ _) trivial

end Opening

end Neutral

/-! ### Opening an exchange, from its two halves -/

/-- The questions that `Gateway.open` asks itself. -/
def Reporting : Call → Prop
  | .clock | .emit (.request _) => True
  | _ => False

/-- The part of an event that is written when a failure is recorded. -/
def Failing (f : Event → Event) : Prop :=
  ∀ ev, { f ev with
    outcome := ev.outcome, status := ev.status, error := ev.error, totalMs := ev.totalMs } = ev

/-- **`Gateway.open`**, from what its body makes of an assertion: the clock is read
and the event begun before it, and a failure is recorded after it. -/
theorem wp_open {lib : Lib} {settings : Settings} {me : ℕ} {writes : (Event → Event) → Prop}
    {J J' : World → L → Prop} (h : Neutral D me Reporting (fun _ => True) J)
    (h' : Neutral D me Reporting writes J') (hwrites : ∀ f, Failing f → writes f)
    {request : Payload} {headers : Headers} (rid : Str)
    (hinner : ∀ started w l, (w.calls me).event = { requestId := rid, attempts := some 0 } → J w l →
      D.wp (Gateway.openInner lib settings me request headers started) (fun _ => J') (fun _ => J') w l)
    {w : World} {l : L} (hJ : J w l) :
    D.wp (Gateway.open lib settings me request headers rid) (fun _ => J') (fun _ => J') w l := by
  -- what a failed opening records
  have hrecord : ∀ started e, D.Preserves J' (do
      let now ← clock
      updateEvent me fun ev =>
        { ev with
          outcome := some (if e = .cancelled then .cancelled else .failed)
          status := some (failureOf e).1
          error := some (failureOf e).2
          totalMs := some ((now - started) * 1000) }
      emit (.request (← eventOf me))
      (throw e : Py Exchange)) fun _ => True := by
    intro started e
    refine (h'.call (q := .clock) trivial).bind fun _ _ =>
      (h'.updateEvent _ (hwrites _ fun _ => by rfl)).bind fun _ _ => ?_
    exact h'.eventOf.bind fun ev _ =>
      (h'.emit (show Reporting (.emit (.request ev)) from trivial)).bind fun _ _ => .throw
  unfold Gateway.open
  rw [wp_bind, clock, wp_ask]
  intro started l₁ hstarted
  rw [wp_bind, wp_update, wp_tryCatch]
  have hJ₁ := h.ask w l Call.clock started l₁ trivial hJ hstarted
  have hbegun := h.event w l₁ (fun _ => { requestId := rid, attempts := some 0 }) trivial hJ₁
  refine wp_mono (fun _ _ _ hJ => hJ) (fun e w l hJ => ?_) (hinner started _ l₁ ?_ hbegun)
  · exact wp_mono (fun _ _ _ h => h.2) (fun _ _ _ h => h) (hrecord started e w l hJ)
  · rw [World.setCall_calls_self]

end Application
end SwitchyardGateway
