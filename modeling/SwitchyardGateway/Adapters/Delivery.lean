/-
# Results of the pipeline

The pipeline is not reentrant, so its jobs must run one at a time, and calls share one
worker thread, so none may be given what another asked for.  Both hold in every
interleaving (`results_belong`), of an executor with one thread that takes queued jobs
oldest first: no job runs twice and no two at a time, a job that is passed over was
dropped by a shutdown, and a call that returns has submitted the messages it was called
with, once, and has what the pipeline makes of these.

The list of jobs only grows, and a job keeps its messages: this is what a call relies
on between its submission and its result (`Kept`).
-/

import SwitchyardGateway.Adapters.Headroom

namespace SwitchyardGateway
namespace Headroom

open Coop Coop.Discipline Coop.System Python

/-! ### What a log says of the worker thread -/

/-- The jobs that the worker thread has taken, the last one first. -/
def taken : Entries → List ℕ
  | [] => []
  | (_, ⟨_, .take j, _⟩) :: l => j :: taken l
  | _ :: l => taken l

/-- The jobs that it has ended. -/
def ended : Entries → List ℕ
  | [] => []
  | (_, ⟨_, .finish j _, _⟩) :: l => j :: ended l
  | _ :: l => ended l

/-- The jobs that a shutdown has dropped. -/
def dropped : Entries → List ℕ
  | [] => []
  | (_, ⟨_, .drop j, _⟩) :: l => j :: dropped l
  | _ :: l => dropped l

/-- Whose turn it is: nobody's, or that of the job that was taken last. -/
def Turn (w : Slots) (l : Entries) : Option ℕ → Prop
  | none => taken l = ended l ∧ ∀ job ∈ w.jobs, job.isRunning = false
  | some j => taken l = j :: ended l ∧
      ∀ k job, w.jobs[k]? = some job → (job.isRunning = true ↔ k = j)

/-- The invariant between awaits. -/
structure Serial (sdk : List Json → Model → Except Err Compressed) (w : Slots) (l : Entries) : Prop where
  thread : w.threads = 1
  order : (taken l).Pairwise (· > ·)
  begun : ∀ j ∈ taken l, ∀ k job, k ≤ j → w.jobs[k]? = some job → job.isQueued = false
  known : ∀ j ∈ taken l, j < w.jobs.length
  passed : ∀ k job, w.jobs[k]? = some job → job.isQueued = false → k ∈ taken l ∨ k ∈ dropped l
  turn : ∃ j, Turn w l j
  sound : ∀ job ∈ w.jobs, ∀ a, job.stage = .done (.ok a) →
    compressMessages sdk job.messages job.model = .ok a

/-- Jobs stay where they are, with the messages they were submitted with. -/
def Kept (w w' : Slots) : Prop :=
  ∀ (j : ℕ) (job : Job), w.jobs[j]? = some job →
    ∃ job', w'.jobs[j]? = some job' ∧ job'.messages = job.messages ∧ job'.model = job.model

theorem Kept.refl (w : Slots) : Kept w w := fun _ job h => ⟨job, h, rfl, rfl⟩

theorem Kept.trans {w w' w'' : Slots} (h : Kept w w') (h' : Kept w' w'') : Kept w w'' := by
  intro j job hjob
  obtain ⟨job', hjob', hmessages, hmodel⟩ := h j job hjob
  obtain ⟨job'', hjob'', hmessages', hmodel'⟩ := h' j job' hjob'
  exact ⟨job'', hjob'', hmessages'.trans hmessages, hmodel'.trans hmodel⟩

/-- A job that is rewritten keeps its messages. -/
theorem kept_setJob (w : Slots) (j : ℕ) (f : Job → Job)
    (hf : ∀ job, (f job).messages = job.messages ∧ (f job).model = job.model) : Kept w (w.setJob j f) := by
  intro k job hjob
  refine ⟨if j = k then f job else job, ?_, ?_, ?_⟩
  · rw [Slots.setJob, List.getElem?_modify, hjob]
    rfl
  · split
    · exact (hf job).1
    · rfl
  · split
    · exact (hf job).2
    · rfl

section

variable {sdk : List Json → Model → Except Err Compressed} {w : Slots} {l : Entries} {i : ℕ}

/-! ### One entry -/

theorem Serial.init (workers : ℕ) : Serial sdk (.init workers) [] where
  thread := rfl
  order := .nil
  begun _ h := (List.not_mem_nil h).elim
  known _ h := (List.not_mem_nil h).elim
  passed _ _ h := by cases h
  turn := ⟨none, rfl, fun _ h => (List.not_mem_nil h).elim⟩
  sound _ h := (List.not_mem_nil h).elim

/-- Questions that are not about the worker thread. -/
def Aside : Ask → Prop
  | .acquire | .submit _ _ | .outcome _ | .callback _ | .shutdown => True
  | _ => False

theorem Aside.same {q : Ask} (hq : Aside q) (k : ℕ) (a : Reply q) (l : Entries) :
    taken ((k, ⟨(), q, a⟩) :: l) = taken l ∧ ended ((k, ⟨(), q, a⟩) :: l) = ended l ∧
      dropped ((k, ⟨(), q, a⟩) :: l) = dropped l := by
  cases q <;> first | exact hq.elim | exact ⟨rfl, rfl, rfl⟩

/-- The invariant is one of the jobs, and of what the log says of the worker thread. -/
theorem Serial.congr (h : Serial sdk w l) {w' : Slots} {l' : Entries} (hjobs : w'.jobs = w.jobs)
    (hthreads : w'.threads = w.threads) (htaken : taken l' = taken l) (hended : ended l' = ended l)
    (hdropped : dropped l' = dropped l) : Serial sdk w' l' := by
  obtain ⟨hthread, horder, hbegun, hknown, hpassed, ⟨j, hturn⟩, hsound⟩ := h
  refine ⟨hthreads.trans hthread, ?_, ?_, ?_, ?_, ⟨j, ?_⟩, ?_⟩
  · rwa [htaken]
  · rwa [htaken, hjobs]
  · rwa [htaken, hjobs]
  · rwa [htaken, hdropped, hjobs]
  · cases j with
    | none => rwa [Turn, htaken, hended, hjobs]
    | some j => rwa [Turn, htaken, hended, hjobs]
  · rwa [hjobs]

/-- A rewriting that queues nothing leaves begun what was begun. -/
theorem Serial.begun_setJob (h : Serial sdk w l) (j : ℕ) {f : Job → Job}
    (hf : ∀ job, job.isQueued = false → (f job).isQueued = false) :
    ∀ t ∈ taken l, ∀ k job, k ≤ t → (w.setJob j f).jobs[k]? = some job → job.isQueued = false := by
  intro t ht k job hk hjob
  obtain ⟨old, hold, rfl⟩ := getElem?_setJob hjob
  have hbegun := h.begun t ht k old hk hold
  split
  · exact hf old hbegun
  · exact hbegun

theorem Serial.known_setJob (h : Serial sdk w l) (j : ℕ) (f : Job → Job) :
    ∀ t ∈ taken l, t < (w.setJob j f).jobs.length := by
  intro t ht
  rw [Slots.setJob, List.length_modify]
  exact h.known t ht

/-- A rewriting that leaves the stages as they are changes nothing. -/
theorem Serial.rewrite (h : Serial sdk w l) (j : ℕ) (f : Job → Job)
    (hf : ∀ job, (f job).stage = job.stage ∧ (f job).messages = job.messages ∧ (f job).model = job.model) :
    Serial sdk (w.setJob j f) l := by
  have hqueued : ∀ job, (f job).isQueued = job.isQueued := fun job => by
    rw [Job.isQueued, (hf job).1]
    rfl
  have hrunning : ∀ job, (f job).isRunning = job.isRunning := fun job => by
    rw [Job.isRunning, (hf job).1]
    rfl
  have hbegun := h.begun_setJob j fun job hjob => (hqueued job).trans hjob
  have hknown := h.known_setJob j f
  obtain ⟨hthread, horder, -, -, hpassed, ⟨running, hturn⟩, hsound⟩ := h
  refine ⟨hthread, horder, hbegun, hknown, ?_, ⟨running, ?_⟩, ?_⟩
  · intro k job hjob hleft
    obtain ⟨old, hold, rfl⟩ := getElem?_setJob hjob
    split at hleft
    · exact hpassed k old hold (by rwa [hqueued] at hleft)
    · exact hpassed k old hold hleft
  · cases running with
    | none =>
      refine ⟨hturn.1, forall_setJob hturn.2 fun job hjob => ?_⟩
      rw [hrunning]
      exact hturn.2 job (List.mem_iff_getElem?.2 ⟨j, hjob⟩)
    | some t =>
      refine ⟨hturn.1, fun k job hjob => ?_⟩
      obtain ⟨old, hold, rfl⟩ := getElem?_setJob hjob
      have := hturn.2 k old hold
      split
      · rwa [hrunning]
      · exact this
  · refine forall_setJob hsound fun job hjob a ha => ?_
    rw [(hf job).1] at ha
    rw [(hf job).2.1, (hf job).2.2]
    exact hsound job (List.mem_iff_getElem?.2 ⟨j, hjob⟩) a ha

/-- A job is added to the queue. -/
theorem Serial.append (h : Serial sdk w l) {job : Job} (hstage : job.stage = .queued) :
    Serial sdk { w with jobs := w.jobs ++ [job] } l := by
  have hread : ∀ (k : ℕ) old, (w.jobs ++ [job])[k]? = some old →
      w.jobs[k]? = some old ∨ k = w.jobs.length ∧ old = job := by
    intro k old hold
    rcases Nat.lt_or_ge k w.jobs.length with hlt | hge
    · rw [List.getElem?_append_left hlt] at hold
      exact .inl hold
    · rw [List.getElem?_append_right hge, List.getElem?_singleton] at hold
      split at hold
      · exact .inr ⟨by omega, (Option.some.inj hold).symm⟩
      · cases hold
  have hidle : job.isQueued = true ∧ job.isRunning = false := by
    rw [Job.isQueued, Job.isRunning, hstage]
    exact ⟨rfl, rfl⟩
  obtain ⟨hthread, horder, hbegun, hknown, hpassed, ⟨running, hturn⟩, hsound⟩ := h
  refine ⟨hthread, horder, ?_, ?_, ?_, ⟨running, ?_⟩, ?_⟩
  · intro t ht k old hk hold
    rcases hread k old hold with hold | ⟨rfl, rfl⟩
    · exact hbegun t ht k old hk hold
    · have := hknown t ht
      omega
  · intro t ht
    rw [List.length_append, List.length_singleton]
    have := hknown t ht
    omega
  · intro k old hold hleft
    rcases hread k old hold with hold | ⟨rfl, rfl⟩
    · exact hpassed k old hold hleft
    · rw [hidle.1] at hleft
      cases hleft
  · cases running with
    | none =>
      refine ⟨hturn.1, fun old hmem => ?_⟩
      rcases List.mem_append.1 hmem with hmem | hmem
      · exact hturn.2 old hmem
      · rw [List.mem_singleton.1 hmem]
        exact hidle.2
    | some t =>
      refine ⟨hturn.1, fun k old hold => ?_⟩
      rcases hread k old hold with hold | ⟨rfl, rfl⟩
      · exact hturn.2 k old hold
      · have ht := hknown t (by rw [hturn.1]; exact List.mem_cons_self)
        rw [hidle.2]
        exact ⟨fun h => (Bool.false_ne_true h).elim, fun h => by omega⟩
  · intro old hmem a ha
    rcases List.mem_append.1 hmem with hmem | hmem
    · exact hsound old hmem a ha
    · rw [List.mem_singleton.1 hmem, hstage] at ha
      cases ha

/-- The worker thread takes the first job that is queued. -/
theorem Serial.take (h : Serial sdk w l) (i : ℕ) {j : ℕ} {job : Job} (hjob : w.jobs[j]? = some job)
    (hqueued : job.isQueued = true) (hfree : w.running < w.threads)
    (hfirst : ∀ job ∈ w.jobs.take j, job.isQueued = false) :
    Serial sdk (w.setJob j fun job => { job with stage := .running }) ((i, ⟨(), .take j, ()⟩) :: l) := by
  have hbegun' := h.begun_setJob j (f := fun job => { job with stage := .running }) fun _ _ => rfl
  have hknown' := h.known_setJob j fun job => { job with stage := .running }
  obtain ⟨hthread, horder, hbegun, hknown, hpassed, ⟨running, hturn⟩, hsound⟩ := h
  -- the only thread is free
  have hidle : ∀ job ∈ w.jobs, job.isRunning = false := by
    have hnone : w.running = 0 := by omega
    simpa [Slots.running] using hnone
  refine ⟨hthread, ?_, ?_, ?_, ?_, ⟨some j, ?_, ?_⟩, ?_⟩
  · -- a job that was taken is not queued any more, and neither is any before it
    refine List.pairwise_cons.2 ⟨fun t ht => ?_, horder⟩
    by_contra hle
    have hdone := hbegun t ht j job (by omega) hjob
    rw [hqueued] at hdone
    cases hdone
  · refine List.forall_mem_cons.2 ⟨fun k new hk hget => ?_, hbegun'⟩
    obtain ⟨old, hold, rfl⟩ := getElem?_setJob hget
    split
    · rfl
    · rename_i hne
      have hmem : (w.jobs.take j)[k]? = some old := by rw [List.getElem?_take_of_lt (by omega), hold]
      exact hfirst old (List.mem_iff_getElem?.2 ⟨k, hmem⟩)
  · refine List.forall_mem_cons.2 ⟨?_, hknown'⟩
    rw [Slots.setJob, List.length_modify]
    exact (List.getElem?_eq_some_iff.1 hjob).1
  · intro k new hget hleft
    obtain ⟨old, hold, rfl⟩ := getElem?_setJob hget
    split at hleft
    · rename_i hk
      exact .inl (hk ▸ List.mem_cons_self)
    · exact (hpassed k old hold hleft).imp_left (List.mem_cons_of_mem _)
  · cases running with
    | none => exact congrArg _ hturn.1
    | some t =>
      have hjobt := List.getElem?_eq_getElem (hknown t (by rw [hturn.1]; exact List.mem_cons_self))
      have hrun := (hturn.2 t _ hjobt).2 rfl
      rw [hidle _ (List.mem_iff_getElem?.2 ⟨t, hjobt⟩)] at hrun
      cases hrun
  · intro k new hget
    obtain ⟨old, hold, rfl⟩ := getElem?_setJob hget
    split
    · rename_i hk
      exact ⟨fun _ => hk.symm, fun _ => rfl⟩
    · rename_i hk
      rw [hidle old (List.mem_iff_getElem?.2 ⟨k, hold⟩)]
      exact ⟨fun h => (Bool.false_ne_true h).elim, fun h => absurd h.symm hk⟩
  · refine forall_setJob hsound fun old hold a ha => ?_
    cases ha

/-- It ends the job it has taken. -/
theorem Serial.finish (h : Serial sdk w l) (i : ℕ) {j : ℕ} {job : Job} (hjob : w.jobs[j]? = some job)
    (hrunning : job.isRunning = true) {result : Except Err CompressionResult}
    (hresult : ∀ a, result = .ok a → compressMessages sdk job.messages job.model = .ok a) :
    Serial sdk (w.setJob j fun job => { job with stage := .done result })
      ((i, ⟨(), .finish j result, ()⟩) :: l) := by
  have hbegun := h.begun_setJob j (f := fun job => { job with stage := .done result }) fun _ _ => rfl
  have hknown := h.known_setJob j fun job => { job with stage := .done result }
  obtain ⟨hthread, horder, -, -, hpassed, ⟨running, hturn⟩, hsound⟩ := h
  obtain rfl : running = some j := by
    cases running with
    | none =>
      have hnone := hturn.2 job (List.mem_iff_getElem?.2 ⟨j, hjob⟩)
      rw [hrunning] at hnone
      cases hnone
    | some t => rw [(hturn.2 j job hjob).1 hrunning]
  refine ⟨hthread, horder, hbegun, hknown, ?_, ⟨none, hturn.1, ?_⟩, ?_⟩
  · intro k new hget hleft
    obtain ⟨old, hold, rfl⟩ := getElem?_setJob hget
    split at hleft
    · rename_i hk
      refine .inl ?_
      rw [← hk]
      change j ∈ taken l
      rw [hturn.1]
      exact List.mem_cons_self
    · exact hpassed k old hold hleft
  · intro old hmem
    obtain ⟨k, hk⟩ := List.mem_iff_getElem?.1 hmem
    obtain ⟨old, hold, rfl⟩ := getElem?_setJob hk
    split
    · rfl
    · rename_i hne
      exact Bool.eq_false_iff.2 fun hrun => hne ((hturn.2 k old hold).1 hrun).symm
  · refine forall_setJob hsound fun old hold a ha => ?_
    obtain rfl : job = old := Option.some.inj (hjob.symm.trans hold)
    exact hresult a (Stage.done.inj ha)

/-- A shutdown drops a queued job. -/
theorem Serial.drop (h : Serial sdk w l) (i : ℕ) {j : ℕ} {job : Job} (hjob : w.jobs[j]? = some job)
    (hqueued : job.isQueued = true) :
    Serial sdk (w.setJob j fun job => { job with stage := .done (.error .cancelled) })
      ((i, ⟨(), .drop j, ()⟩) :: l) := by
  have hidle : job.isRunning = false := by
    unfold Job.isQueued at hqueued
    unfold Job.isRunning
    cases hstage : job.stage with
    | running =>
      rw [hstage] at hqueued
      cases hqueued
    | _ => rfl
  have hbegun := h.begun_setJob j (f := fun job => { job with stage := .done (.error .cancelled) }) fun _ _ => rfl
  have hknown := h.known_setJob j fun job => { job with stage := .done (.error .cancelled) }
  obtain ⟨hthread, horder, -, -, hpassed, ⟨running, hturn⟩, hsound⟩ := h
  refine ⟨hthread, horder, hbegun, hknown, ?_, ⟨running, ?_⟩, ?_⟩
  · intro k new hget hleft
    obtain ⟨old, hold, rfl⟩ := getElem?_setJob hget
    split at hleft
    · rename_i hk
      exact .inr (hk ▸ List.mem_cons_self)
    · exact (hpassed k old hold hleft).imp_right (List.mem_cons_of_mem _)
  · cases running with
    | none =>
      refine ⟨hturn.1, forall_setJob hturn.2 fun _ _ => ?_⟩
      rfl
    | some t =>
      refine ⟨hturn.1, fun k new hget => ?_⟩
      obtain ⟨old, hold, rfl⟩ := getElem?_setJob hget
      have hwas := hturn.2 k old hold
      split
      · rename_i hk
        obtain rfl : job = old := Option.some.inj (hjob.symm.trans (hk ▸ hold))
        rw [hidle] at hwas
        exact ⟨fun h => (Bool.false_ne_true h).elim, fun h => (Bool.false_ne_true (hwas.2 h)).elim⟩
      · exact hwas
  · refine forall_setJob hsound fun old hold a ha => ?_
    cases ha

/-! ### The tasks -/

/-- The contract of the tasks. -/
def serially (sdk : List Json → Model → Except Err Compressed) : Contract Slots Unit Ask Reply where
  inv w l _ := Serial sdk w l
  rely _ := Kept
  rely_refl _ := .refl
  rely_trans _ _ _ _ := .trans

/-- What a call that returned has asked for, and been given: what the pipeline makes of
the messages it was called with. -/
def Delivered (sdk : List Json → Model → Except Err Compressed) (requests : ℕ → List Json × Model) :
    Post Slots Unit Ask Reply Err (Option CompressionResult) := fun i r _ o => ∀ a, r = .ok (some a) →
  (∃ j, o = [⟨(), .outcome j, .ok a⟩, ⟨(), .submit (requests i).1 (requests i).2, .ok ()⟩,
    ⟨(), .acquire, .ok ()⟩]) ∧
    compressMessages sdk (requests i).1 (requests i).2 = .ok a

variable {requests : ℕ → List Json × Model} {v : ℕ → Option Ask}

/-- Something happens to the executor. -/
theorem happen_complies {q : Ask} {f : Slots → Slots}
    (hq : ∀ a, Permitted sdk w ⟨(), q, a⟩ → Serial sdk (f w) ((i, ⟨(), q, a⟩) :: l) ∧ Kept w (f w)) :
    (executor sdk).Complies (serially sdk) (Delivered sdk requests) i (happen q f) w ⟨l, v, w⟩ := by
  simp only [Complies, happen, wp_bind, wp_ask, wp_update, wp_pure]
  rintro a _ ⟨_, ha, rfl⟩
  exact ⟨(hq a ha).1, fun _ _ => (hq a ha).2, fun _ h => by cases h⟩

theorem compress_complies (h : Serial sdk w l) (hfresh : own i l = []) :
    (executor sdk).Complies (serially sdk) (Delivered sdk requests) i
      (do return some (← compress i (requests i).1 (requests i).2)) w ⟨l, v, w⟩ := by
  obtain ⟨messages, model, hrequest⟩ : ∃ messages model, requests i = (messages, model) := ⟨_, _, rfl⟩
  rw [hrequest]
  simp only [Complies, compress, acquire, wp_bind, wp_askAwait, wp_ofExcept, wp_update, wp_tryCatch, wp_pure]
  refine ⟨⟨h, fun _ _ => .refl w⟩, ?_⟩
  rintro w₁ ⟨l₁, v₁, since₁⟩ ⟨v₁', -, h₁, hview₁, -, hown₁, -⟩ granted _ ⟨_, -, rfl⟩
  obtain ⟨-, -, rfl⟩ := View.mk.inj hview₁
  have hacquired := Aside.same (q := .acquire) trivial i granted l₁
  cases granted with
  | error e =>
    exact ⟨h₁.congr rfl rfl hacquired.1 hacquired.2.1 hacquired.2.2, fun _ _ => .refl _, fun _ h => by cases h⟩
  | ok _ =>
    simp only [ends_ok, submit, wp_bind, wp_ask, wp_ofExcept, wp_read, wp_update, wp_pure, wp_throw]
    rintro accepted _ ⟨_, -, rfl⟩
    have hsubmitted := Aside.same (q := .submit messages model) trivial i accepted
      ((i, ⟨(), .acquire, .ok ()⟩) :: l₁)
    cases accepted with
    | error e =>
      exact ⟨h₁.congr rfl rfl (hsubmitted.1.trans hacquired.1) (hsubmitted.2.1.trans hacquired.2.1)
        (hsubmitted.2.2.trans hacquired.2.2), fun _ _ => .refl _, fun _ h => by cases h⟩
    | ok _ =>
      simp only [ends_ok, Slots.setJob, modify_last]
      -- the job is the last of the list, and stays there
      have happended : Serial sdk
          { since₁ with jobs := since₁.jobs ++ [⟨i, messages, model, .queued, true, false⟩] } l₁ := h₁.append rfl
      have h₂ : Serial sdk
          ⟨since₁.free - 1, since₁.threads, since₁.jobs ++ [⟨i, messages, model, .queued, true, false⟩], since₁.closed⟩
          ((i, ⟨(), .submit messages model, .ok ()⟩) :: (i, ⟨(), .acquire, .ok ()⟩) :: l₁) :=
        happended.congr rfl rfl (hsubmitted.1.trans hacquired.1) (hsubmitted.2.1.trans hacquired.2.1)
          (hsubmitted.2.2.trans hacquired.2.2)
      refine ⟨⟨h₂, fun _ _ j job hjob => ⟨job, ?_, rfl, rfl⟩⟩, ?_⟩
      · rw [List.getElem?_append_left (List.getElem?_eq_some_iff.1 hjob).1]
        exact hjob
      rintro w₃ ⟨l₃, v₃, since₃⟩ ⟨v₃', -, h₃, hview₃, hkept, hown₃, -⟩ outcome _ ⟨_, houtcome, rfl⟩
      obtain ⟨-, -, rfl⟩ := View.mk.inj hview₃
      have hasked := Aside.same (q := .outcome since₁.jobs.length) trivial i outcome l₃
      have h₄ := h₃.congr rfl rfl hasked.1 hasked.2.1 hasked.2.2
      cases outcome with
      | error e => exact ⟨h₄, fun _ _ => .refl _, fun _ h => by cases h⟩
      | ok result =>
        refine ⟨h₄, fun _ _ => .refl _, fun a ha => ?_⟩
        obtain rfl := Option.some.inj (Except.ok.inj ha)
        obtain ⟨job, hjob, hmessages, hmodel⟩ := hkept since₁.jobs.length
          ⟨i, messages, model, .queued, true, false⟩ (by simp)
        rw [hrequest]
        refine ⟨⟨since₁.jobs.length, ?_⟩, ?_⟩
        · rw [own_cons_self, hown₃, own_cons_self, own_cons_self, hown₁, hfresh]
        · rcases houtcome with hcancelled | ⟨job', hjob', hdone⟩
          · cases hcancelled
          · obtain rfl : job = job' := Option.some.inj (hjob.symm.trans hjob')
            have hsound := h₃.sound job (List.mem_iff_getElem?.2 ⟨_, hjob⟩) result hdone
            rwa [hmessages, hmodel] at hsound

/-- **Every task complies.** -/
theorem Tasks.serial {p : Task (Option CompressionResult)} (hp : Tasks requests i p) (h : Serial sdk w l)
    (hfresh : own i l = []) :
    (executor sdk).Complies (serially sdk) (Delivered sdk requests) i p w ⟨l, v, w⟩ := by
  cases hp with
  | compress => exact compress_complies h hfresh
  | take j =>
    refine happen_complies fun _ ha => ?_
    obtain ⟨job, hjob, hqueued, hthread, hfirst⟩ := ha
    exact ⟨h.take i hjob hqueued hthread hfirst, kept_setJob w j _ fun _ => ⟨rfl, rfl⟩⟩
  | finish j result =>
    refine happen_complies fun _ ha => ?_
    obtain ⟨job, hjob, hrunning, hresult⟩ := ha
    exact ⟨h.finish i hjob hrunning hresult, kept_setJob w j _ fun _ => ⟨rfl, rfl⟩⟩
  | drop j =>
    refine happen_complies fun _ ha => ?_
    obtain ⟨-, job, hjob, hqueued⟩ := ha
    exact ⟨h.drop i hjob hqueued, kept_setJob w j _ fun _ => ⟨rfl, rfl⟩⟩
  | callback j =>
    refine happen_complies fun a _ => ?_
    have hsame := Aside.same (q := .callback j) trivial i a l
    exact ⟨(h.rewrite j (fun job => { job with released := true }) fun _ => ⟨rfl, rfl, rfl⟩).congr rfl rfl
      hsame.1 hsame.2.1 hsame.2.2, kept_setJob w j _ fun _ => ⟨rfl, rfl⟩⟩
  | shutdown =>
    refine happen_complies fun a _ => ?_
    have hsame := Aside.same (q := .shutdown) trivial i a l
    exact ⟨h.congr rfl rfl hsame.1 hsame.2.1 hsame.2.2, .refl w⟩

end

/-- **Results belong to the calls that asked for them**, in every interleaving of calls,
cancellations, the worker thread, callbacks and shutdowns.  No job runs twice and no two
at a time, and one is passed over only if a shutdown drops it; a call that returns has
taken one permit, submitted the messages it was called with, once, and has the result of
these. -/
theorem results_belong (sdk : List Json → Model → Except Err Compressed)
    (requests : ℕ → List Json × Model) (workers : ℕ)
    (c : Pool Slots Unit Ask Reply Err (Option CompressionResult))
    (hc : (executor sdk).Reachable (Tasks requests) (.init workers) c) :
    (taken c.log).Pairwise (· > ·) ∧
    (taken c.log = ended c.log ∨ ∃ j, taken c.log = j :: ended c.log) ∧
    (∀ j ∈ taken c.log, ∀ k ≤ j, k ∈ taken c.log ∨ k ∈ dropped c.log) ∧
    ∀ i a, result c i = some (.ok (some a)) →
      (∃ j, own i c.log = [⟨(), .outcome j, .ok a⟩, ⟨(), .submit (requests i).1 (requests i).2, .ok ()⟩,
        ⟨(), .acquire, .ok ()⟩]) ∧
      compressMessages sdk (requests i).1 (requests i).2 = .ok a := by
  have hhonours : (executor sdk).Honours (serially sdk) (Delivered sdk requests) c := Reachable.honours
    (fun _ _ _ _ _ h _ => h) (fun i p hp w l v h _ hfresh => Tasks.serial hp h hfresh) (Serial.init workers) hc
  obtain ⟨-, horder, hbegun, hknown, hpassed, ⟨running, hturn⟩, -⟩ := hhonours.shared
  refine ⟨horder, ?_, fun j hj k hk => ?_, fun i a ha => hhonours.result_post ha a rfl⟩
  · cases running with
    | none => exact .inl hturn.1
    | some j => exact .inr ⟨j, hturn.1⟩
  · have hjob := List.getElem?_eq_getElem (Nat.lt_of_le_of_lt hk (hknown j hj))
    exact hpassed k _ hjob (hbegun j hj k _ hk hjob)

namespace Demo

/-- A pipeline with nothing to save. -/
def plain (messages : List Json) (_ : Model) : Except Err Compressed := .ok ⟨messages, 1, 1, 0⟩

/-- What it makes of no messages. -/
def unsaved : CompressionResult := ⟨[], lit "no_savings", some 1, some 1, some 0⟩

/-- A job that has been given that. -/
def isUnsaved : Stage → Bool
  | .done (.ok a) => a.messages.isEmpty && a.outcome == lit "no_savings" && a.tokensBefore == some 1 &&
      a.tokensAfter == some 1 && a.tokensSaved == some 0
  | _ => false

theorem isUnsaved_iff {stage : Stage} (h : isUnsaved stage = true) : stage = .done (.ok unsaved) := by
  unfold isUnsaved at h
  split at h
  · rename_i a
    obtain ⟨messages, outcome, before, after, saved⟩ := a
    simp only [Bool.and_eq_true, List.isEmpty_iff, beq_iff_eq] at h
    obtain ⟨⟨⟨⟨rfl, rfl⟩, rfl⟩, rfl⟩, rfl⟩ := h
    rfl
  · cases h

/-- Permits and jobs are granted, and every call that waits gets what the pipeline makes
of no messages. -/
def reply (_ : Entries) : (q : Ask) → Unit × Reply q
  | .acquire => ((), .ok ())
  | .submit _ _ => ((), .ok ())
  | .outcome _ => ((), .ok unsaved)
  | .take _ | .finish _ _ | .drop _ | .callback _ | .shutdown => ((), ())

/-- `Permitted`, of those answers. -/
def allowed (w : Slots) (_ : Entries) (_ : ℕ) : Entry → Bool
  | ⟨_, .acquire, .ok ()⟩ => 0 < w.free
  | ⟨_, .submit _ _, .ok ()⟩ => !w.closed
  | ⟨_, .outcome j, .ok a⟩ => (w.jobs[j]?.any fun job => isUnsaved job.stage) && isUnsaved (.done (.ok a))
  | ⟨_, .take j, _⟩ => (w.jobs[j]?.any Job.isQueued) && decide (w.running < w.threads) &&
      (w.jobs.take j).all fun job => !job.isQueued
  | ⟨_, .finish j result, _⟩ => (w.jobs[j]?.any fun job => job.isRunning && job.messages.isEmpty) &&
      isUnsaved (.done result)
  | _ => false

theorem allowed_sound (w : Slots) (l : Entries) (i : ℕ) (st : Entry) (h : allowed w l i st = true) :
    (executor plain).admits w l i st := by
  unfold allowed at h
  split at h
  · have hfree : 0 < w.free := of_decide_eq_true h
    exact hfree
  · have hopen : w.closed = false := by simpa using h
    exact hopen
  · simp only [Bool.and_eq_true, Option.any_eq_true] at h
    obtain ⟨⟨job, hjob, hstage⟩, ha⟩ := h
    obtain rfl := Except.ok.inj (Stage.done.inj (isUnsaved_iff ha))
    exact .inr ⟨job, hjob, isUnsaved_iff hstage⟩
  · simp only [Bool.and_eq_true, List.all_eq_true, Bool.not_eq_true', Option.any_eq_true,
      decide_eq_true_eq] at h
    obtain ⟨⟨⟨job, hjob, hqueued⟩, hthread⟩, hfirst⟩ := h
    exact ⟨job, hjob, hqueued, hthread, hfirst⟩
  · simp only [Bool.and_eq_true, Option.any_eq_true, List.isEmpty_iff] at h
    obtain ⟨⟨job, hjob, hrunning, hempty⟩, hresult⟩ := h
    obtain rfl := Stage.done.inj (isUnsaved_iff hresult)
    refine ⟨job, hjob, hrunning, fun a ha => ?_⟩
    rw [hempty, ← Except.ok.inj ha]
    rfl
  · cases h

/-- The first call has nothing to compress, the others have. -/
def asked : ℕ → List Json × Model
  | 0 => ([], model)
  | _ => ([.null], model)

/-- Two calls, and what happens to the job of the first. -/
def twoCalls : ℕ → Task (Option CompressionResult)
  | 2 => take 0
  | 3 => finish 0 (.ok unsaved)
  | i => do return some (← compress i (asked i).1 (asked i).2)

theorem twoCalls_allowed : ∀ i, Tasks asked i (twoCalls i)
  | 2 => .take 0
  | 3 => .finish 0 _
  | 0 | 1 | _ + 4 => .compress

end Demo

/-- Two calls have submitted their messages, and the first has the result of its own. -/
theorem results_belong_first : ∃ c,
    (executor Demo.plain).Reachable (Tasks Demo.asked) (.init 2) c ∧ c.state.jobs.length = 2 ∧
      taken c.log = [0] ∧ ended c.log = [0] ∧ (∃ j, own 0 c.log =
        [⟨(), .outcome j, .ok Demo.unsaved⟩, ⟨(), .submit [] Demo.model, .ok ()⟩, ⟨(), .acquire, .ok ()⟩]) ∧
      compressMessages Demo.plain [] Demo.model = .ok Demo.unsaved := by
  obtain ⟨c, hplay, hended⟩ := (Option.any_eq_true _ _).1 (by decide +kernel :
    (System.play Demo.reply Demo.allowed Demo.twoCalls
      [.start, .resume 0, .start, .resume 1, .start, .start, .resume 0] ⟨.init 2, [], []⟩).any fun c =>
        c.state.jobs.length = 2 && taken c.log = [0] && ended c.log = [0] &&
          (result c 0).any fun r => r.toOption.any fun a => a.any fun a => Demo.isUnsaved (.done (.ok a)))
  simp only [Bool.and_eq_true, decide_eq_true_eq, Option.any_eq_true] at hended
  obtain ⟨⟨⟨hlength, htaken⟩, hdone⟩, r, hr, _, hr', a, rfl, ha⟩ := hended
  obtain rfl := Except.ok.inj (Stage.done.inj (Demo.isUnsaved_iff ha))
  have hc : (executor Demo.plain).Reachable (Tasks Demo.asked) (.init 2) c :=
    System.play_steps Demo.allowed_sound Demo.twoCalls_allowed _ hplay
  cases r with
  | error e => cases hr'
  | ok result =>
    obtain rfl := Option.some.inj hr'
    exact ⟨c, hc, hlength, htaken, hdone,
      (results_belong Demo.plain Demo.asked 2 c hc).2.2.2 0 Demo.unsaved hr⟩

end Headroom
end SwitchyardGateway
