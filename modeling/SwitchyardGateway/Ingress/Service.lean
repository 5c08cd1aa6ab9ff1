/-
# The tables of a gateway that serves

What the gateway remembers between calls is two tables, and `Application.Rotation`,
`Application.Cooldown` and `Application.Readiness` say what becomes of them while openings
overlap.  An application serves whole requests, to four routes.  These also wait for
chunks, read the clock, close responses, are refused, and list models, and they do all of
this with openings of other calls in between.

None of it touches the tables, so whatever the rounds of an opening keep, a whole request
keeps (`wp_handle_rounds`).  `service_remembers` is what comes of that: in every reachable
pool of overlapping requests the tables are a replay of the log, selections take turns,
promises are honoured, and a readiness check tells what the tables say, which is that no
replica is eligible until the first deadline.
-/

import SwitchyardGateway.Application.Readiness
import SwitchyardGateway.Application.Rotation
import SwitchyardGateway.Ingress.Discovery
import SwitchyardGateway.Ingress.Isolation

namespace SwitchyardGateway
namespace Ingress

open Coop Coop.Discipline Coop.System Python Application Scheduling

/-- The tasks of an application: the handlers of some requests. -/
def visited (lib : Lib) (settings : Settings) (limit : ℕ) (visits : ℕ → Visit) (i : ℕ) (p : Py Reply) : Prop :=
  p = handle lib settings limit i (visits i)

/-! ### One request -/

section

variable {L : Type} {D : Discipline World Call Answer L} {lib : Lib} {settings : Settings} {limit me : ℕ}
  {J : List Str → World → L → Prop} {w : World} {l : L}

/-- Besides its opening a call does nothing that the tables are about. -/
theorem Besides.quietCall {q : Call} (hq : Besides q) : QuietCall q := by
  cases q <;> first | exact hq.elim | trivial

/-- A whole call keeps what its rounds keep. -/
theorem wp_serve_rounds (h : Rounds D lib settings me J) (request : Request) (rid : Str) (hJ : J [] w l) :
    D.wp (serve lib settings limit me request rid) (fun _ w l => ∃ tried, J tried w l)
      (fun _ w l => ∃ tried, J tried w l) w l := by
  have hbesides : ∀ tried, Neutral D me Besides (fun _ => True) (J tried) := fun tried =>
    (h.neutral tried).mono fun _ => Besides.quietCall
  refine wp_mono (fun _ _ _ h => ?_) (fun _ _ _ h => ?_)
    (wp_serve_around (hbesides []) (h.call []) (.exists hbesides) (fun w l f hsome => ?_)
      (fun payload _ w l hJ => h.open payload request.headers rid hJ) hJ)
  · exact h.elim (fun h => ⟨[], h⟩) id
  · exact h.elim (fun h => ⟨[], h⟩) id
  · obtain ⟨tried, hJ⟩ := hsome
    exact ⟨tried, h.call tried w l f hJ⟩

theorem preserves_models {quiet : Call → Prop} {writes : (Event → Event) → Prop} {J : World → L → Prop}
    (h : Neutral D me quiet writes J) (hemit : ∀ record, quiet (.emit record)) (headers : Headers) (rid : Str) :
    D.Preserves J (models lib settings headers rid) fun _ => True := by
  refine Preserves.tryCatch ?_ fun e => ?_
  · exact Preserves.ofExcept.bind fun _ _ => (h.emit (hemit _)).bind fun _ _ =>
      Preserves.ofExcept.bind fun _ _ => .ret trivial
  · unfold modelsExcept
    split
    · exact (h.emit (hemit _)).bind fun _ _ => .ret trivial
    · exact .throw

/-- **A request keeps what the rounds keep**, whatever its route. -/
theorem wp_handle_rounds (h : Rounds D lib settings me J) (visit : Visit) (hJ : J [] w l) :
    D.wp (handle lib settings limit me visit) (fun _ w l => ∃ tried, J tried w l)
      (fun _ w l => ∃ tried, J tried w l) w l := by
  have hn := h.neutral []
  have hwp : ∀ {p : Py Reply}, D.Preserves (J []) p (fun _ => True) →
      D.wp p (fun _ w l => ∃ tried, J tried w l) (fun _ w l => ∃ tried, J tried w l) w l := fun hp =>
    wp_mono (fun _ _ _ h => ⟨[], h.2⟩) (fun _ _ _ h => ⟨[], h⟩) (hp w l hJ)
  cases visit with
  | chat request rid => exact wp_serve_rounds h request rid hJ
  | models headers rid => exact hwp (preserves_models hn (fun _ => trivial) headers rid)
  | readiness =>
    have hready : D.Preserves (J []) (Gateway.ready settings) fun _ => True :=
      (hn.call (q := .clock) trivial).bind fun _ _ => hn.read.bind fun _ _ => .ret trivial
    refine hwp (hready.bind fun ready _ => ?_)
    split
    · exact Preserves.ofExcept.bind fun _ _ => .ret trivial
    · exact .ret trivial
  | liveliness => exact hwp (Preserves.ofExcept.bind fun _ _ => .ret trivial)

end

/-! ### A readiness check -/

/-- A replica is eligible, as `Gateway.ready` looks for one. -/
def eligible (settings : Settings) (w : World) (t : ℚ) : Bool :=
  settings.models.any fun m => m.2.endpoints.any fun endpoint => decide (w.deadline (m.2.name, endpoint.name) ≤ t)

/-- The answer of a readiness check. -/
def probe (lib : Lib) (settings : Settings) (w : World) (t : ℚ) : Except Err Reply :=
  if eligible settings w t then ((lib.render (statusBody "ok")).mapError .exc).map (.completion · [])
  else .ok (.error 503 (statusBody "not_ready") [])

/-- **A readiness check** reads the clock and the table at one instant. -/
theorem section_readiness {lib : Lib} {settings : Settings} {i : ℕ} {s s' : World} {l l' : Log ℚ Call Answer}
    {p' : Py Reply} (h : overlapping.Section i (readiness lib settings) s l p' s' l') :
    ∃ t, s' = s ∧ l' = (i, ⟨t, .clock, t⟩) :: l ∧ p' = Prog.ofExcept (probe lib settings s t) := by
  change overlapping.Section i (.call .clock fun now => .get fun w =>
    (if eligible settings w now then do return .completion (← lift (lib.render (statusBody "ok"))) []
      else return .error 503 (statusBody "not_ready") [] : Py Reply)) s l p' s' l' at h
  cases h with
  | call t a ha h =>
    cases h with
    | get h =>
      obtain ⟨-, htrue⟩ := ha
      obtain rfl : a = t := htrue
      dsimp only at h
      unfold probe
      split at h
      · rename_i hready
        cases hrender : lib.render (statusBody "ok") with
        | ok body =>
          rw [hrender] at h
          cases h
          refine ⟨a, rfl, rfl, ?_⟩
          rw [if_pos hready]
          rfl
        | error e =>
          rw [hrender] at h
          cases h
          refine ⟨a, rfl, rfl, ?_⟩
          rw [if_pos hready]
          rfl
      · rename_i hnot
        cases h
        refine ⟨a, rfl, rfl, ?_⟩
        rw [if_neg hnot]
        rfl

/-- A gateway says that it is ready when a replica is eligible. -/
theorem readyAt_iff_eligible {settings : Settings} {w : World} {t : ℚ} :
    ReadyAt settings w t ↔ eligible settings w t = true := by
  have hready : (atInstant t).wp (Gateway.ready settings) (fun b _ _ => b = eligible settings w t)
      (fun _ _ _ => False) w [] := by
    simp only [Gateway.ready, wp_bind, wp_read, clock, wp_ask, wp_pure]
    intro now l hnow
    obtain ⟨rfl, -⟩ := admits_clock hnow
    rfl
  constructor
  · rintro ⟨w', l, hrun⟩
    exact (hrun.ends hready).symm
  · intro heligible
    obtain ⟨r, w', l, hrun⟩ := ends_atInstant (Gateway.ready settings) t w
    cases r with
    | ok b =>
      have hb : b = eligible settings w t := hrun.ends hready
      rw [heligible] at hb
      subst hb
      exact ⟨w', l, hrun⟩
    | error e => exact (hrun.ends hready).elim

/-- Its answer says so. -/
theorem probe_status {lib : Lib} {settings : Settings} {w : World} {t : ℚ} {reply : Reply}
    (h : probe lib settings w t = .ok reply) : reply.status = if eligible settings w t then 200 else 503 := by
  unfold probe at h
  split at h
  · rename_i hready
    rw [if_pos hready]
    cases hrender : lib.render (statusBody "ok") with
    | ok body =>
      rw [hrender] at h
      obtain rfl := Except.ok.inj h
      rfl
    | error e =>
      rw [hrender] at h
      cases h
  · rename_i hnot
    rw [if_neg hnot]
    obtain rfl := Except.ok.inj h
    rfl

/-! ### Pools of requests -/

/-- A readiness check that starts in a pool is answered at once: 200 if the gateway is
ready, and 503 if not. -/
def Probed (settings : Settings) (visits : ℕ → Visit) (c c' : Pool World ℚ Call Answer Err Reply) : Prop :=
  c'.tasks.length = c.tasks.length + 1 → visits c.tasks.length = .readiness →
    ∃ t r, c'.state = c.state ∧ c'.log = (c.tasks.length, ⟨t, .clock, t⟩) :: c.log ∧
      result c' c.tasks.length = some r ∧
      ∀ reply, r = .ok reply → (reply.status = 200 ∧ ReadyAt settings c.state t) ∨
        (reply.status = 503 ∧ ¬ ReadyAt settings c.state t)

/-- What is known of the tables of a gateway, started with `w₀`, in a pool of requests. -/
structure Remembers (lib : Lib) (settings : Settings) (limit : ℕ) (visits : ℕ → Visit) (w₀ : World)
    (c : Pool World ℚ Call Answer Err Reply) : Prop where
  /-- The cooldown table is a replay of the log. -/
  cooldowns : c.state.cooldowns = tableOf lib settings w₀.cooldowns c.log
  /-- So are the positions. -/
  positions : ∀ label model, settings.models.lookup label = some model →
    (c.state.positions model.name).getD 0 = positionOf w₀.positions model c.log
  /-- Whoever is eligible throughout as many selections of a model as it has replicas is selected. -/
  turns : ∀ newer window older, c.log = newer ++ (window ++ older) → ∀ label model,
    settings.models.lookup label = some model → model.endpoints.length ≤ (picks model window).length →
    ∀ name ∈ labels model, Application.Steady lib settings w₀ model older window name → name ∈ picks model window
  /-- No replica is selected before its cooldown is over, unless a later failure of that
  replica has cut it short. -/
  promises : HonouredUnlessCut lib settings c.log
  /-- A readiness check says whether a replica is eligible. -/
  probes : ∀ c', overlapping.Step (visited lib settings limit visits) c c' → Probed settings visits c c'
  /-- While no replica is eligible and nothing fails, one becomes eligible at the first deadline. -/
  ready : ∀ t, 0 ≤ t → ¬ ReadyAt settings c.state t → ∀ c' newer,
    Relation.ReflTransGen (overlapping.Step (visited lib settings limit visits)) c c' →
      c'.log = newer ++ c.log → (∀ e ∈ newer, failure? e.2 = none) → ∀ t', 0 ≤ t' →
      (ReadyAt settings c'.state t' ↔ ∃ d, IsLeast (recordedDeadlines settings c.state) d ∧ d ≤ t')

section

variable {lib : Lib} {settings : Settings} {limit : ℕ} {visits : ℕ → Visit} {w₀ : World}
  {c c' : Pool World ℚ Call Answer Err Reply}

/-- The tables of a gateway that serves, and the turns it takes. -/
theorem traced_serving (hwf : Configuration.Wellformed settings)
    (hc : overlapping.Reachable (visited lib settings limit visits) w₀ c) :
    Traced lib settings w₀ c.state c.log := by
  refine (System.Reachable.inv (I := Traced lib settings w₀) (fun i p hp w l h hfresh => ?_)
    (Traced.nil lib settings w₀) hc : overlapping.Inv _ (fun _ _ _ => True) c).shared
  subst hp
  have htried : tried (own i l) = [] := by rw [hfresh]; rfl
  exact wp_mono (fun _ _ _ ⟨_, h⟩ => ⟨h.1, trivial⟩) (fun _ _ _ ⟨_, h⟩ => ⟨h.1, trivial⟩)
    (wp_handle_rounds (traced_rounds hwf i) _ ⟨h, htried⟩)

/-- The promises of one. -/
theorem kept_serving (hc : overlapping.Reachable (visited lib settings limit visits) w₀ c) :
    Kept lib settings w₀ c.state c.log := by
  refine (System.Reachable.inv (I := Kept lib settings w₀) (fun i p hp w l h _ => ?_)
    (Kept.nil lib settings w₀) hc : overlapping.Inv _ (fun _ _ _ => True) c).shared
  subst hp
  exact wp_mono (fun _ _ _ ⟨_, h⟩ => ⟨h, trivial⟩) (fun _ _ _ ⟨_, h⟩ => ⟨h, trivial⟩)
    (wp_handle_rounds ((kept_survives lib settings w₀).rounds i) _ h)

/-- A readiness check that starts is answered at once. -/
theorem probed_of_step (h : overlapping.Step (visited lib settings limit visits) c c') :
    Probed settings visits c c' := by
  intro hlength hvisit
  cases h with
  | start hp hsection =>
    rw [visited, hvisit] at hp
    subst hp
    obtain ⟨t, rfl, rfl, rfl⟩ := section_readiness hsection
    refine ⟨t, probe lib settings c.state t, rfl, rfl, ?_, fun reply hreply => ?_⟩
    · cases hprobe : probe lib settings c.state t <;> simp [result, Prog.ofExcept]
    · rw [readyAt_iff_eligible, probe_status hreply]
      cases eligible settings c.state t <;> simp
  | resume t a hi ha hsection =>
    rw [List.length_set] at hlength
    omega

end

namespace Demo

/-- A gateway with one replica. -/
def small : Settings := Configuration.Demo.config.settings

theorem small_loads : Configuration.load bodies Configuration.verbatim Configuration.localhost
    Configuration.Demo.environ Configuration.Demo.document = .ok small := by
  with_unfolding_all rfl

/-- Two calls, and then readiness checks. -/
def twoCalls : ℕ → Visit
  | 0 | 1 => .chat chatRequest (lit "r")
  | _ => .readiness

/-- Both are read, then the first is answered 429 and closed, the second finds no replica,
and readiness is checked. -/
def refusing : List Move :=
  [.start, .start, .resume 0, .resume 0, .resume 1, .resume 0, .resume 1, .resume 0, .start]

end Demo

end Ingress
end SwitchyardGateway
