/-
# Compression capacity

`HeadroomCompressor` of `adapters/headroom.py`.  A call takes a permit of a semaphore,
submits a job to an executor with one worker thread, and leaves it to a callback of
the job's future to give the permit back, so that a caller that is cancelled does not
free capacity which its job still occupies.

Calls, the worker thread, the callbacks and a shutdown are tasks of one pool, and any
of them may take the next turn.  What the semaphore, the futures, `shield` and the
executor do is `executor`, as they document it: a permit is granted if there is a free
one, a job is refused after a shutdown, a thread takes the oldest queued job, no more
jobs run than there are threads, only queued jobs are dropped by a shutdown, and a
callback runs once, if it was added and its future is done.  A call may be cancelled wherever it waits.  A turn of the worker
thread that falls between two awaits of a call is here a turn before or after it: it
touches the job only, and no code between two awaits looks at one.

`_compress` is what the worker thread runs.
-/

import SwitchyardGateway.Domain
import Mathlib.Data.List.Infix

namespace SwitchyardGateway
namespace Headroom

open Coop Coop.Discipline Python

/-! ### The pipeline -/

/-- What `headroom.compress` returns. -/
structure Compressed where
  messages : List Json
  tokensBefore : ℤ
  tokensAfter : ℤ
  tokensSaved : ℤ

/-- `HeadroomCompressor._compress`, given `headroom.compress`. -/
def compressMessages (sdk : List Json → Model → Except Err Compressed) (messages : List Json)
    (model : Model) : Except Err CompressionResult :=
  let failed : CompressionResult := ⟨messages, lit "failed_unknown", none, none, none⟩
  match sdk messages model with
  | .ok result =>
    if result.tokensBefore = 0 then .ok failed
    else if result.tokensAfter > result.tokensBefore then .ok failed
    else .ok {
      messages := result.messages
      outcome := if result.tokensSaved ≠ 0 then lit "savings" else lit "no_savings"
      tokensBefore := some result.tokensBefore
      tokensAfter := some result.tokensAfter
      tokensSaved := some result.tokensSaved }
  | .error (.exc _) => .ok failed
  | .error e => .error e

/-! ### The executor -/

/-- Where a job is: its future is done in the last case only. -/
inductive Stage where
  | queued
  | running
  | done (result : Except Err CompressionResult)

/-- A submitted job and its future: who submitted it, whether a callback was added, and
whether the callback has run. -/
structure Job where
  owner : ℕ
  messages : List Json
  model : Model
  stage : Stage := .queued
  watched : Bool := false
  released : Bool := false

/-- `self._slots` and `self._executor`: the permits, the worker threads, and the jobs in
the order they were submitted. -/
structure Slots where
  free : ℕ
  threads : ℕ
  jobs : List Job
  closed : Bool

/-- `HeadroomCompressor(workers)`: `Semaphore(workers)` and `ThreadPoolExecutor(max_workers=1)`. -/
def Slots.init (workers : ℕ) : Slots where
  free := workers
  threads := 1
  jobs := []
  closed := false

/-- What a call asks for, and what the worker thread, a callback or a shutdown does. -/
inductive Ask where
  | acquire
  | submit (messages : List Json) (model : Model)
  | outcome (job : ℕ)
  | take (job : ℕ)
  | finish (job : ℕ) (result : Except Err CompressionResult)
  | drop (job : ℕ)
  | callback (job : ℕ)
  | shutdown

abbrev Reply : Ask → Type
  | .acquire => Except Err Unit
  | .submit _ _ => Except Err Unit
  | .outcome _ => Except Err CompressionResult
  | .take _ | .finish _ _ | .drop _ | .callback _ | .shutdown => Unit

abbrev Task (α : Type) := Prog Slots Ask Reply Err α

abbrev Entry := Step Unit Ask Reply

abbrev Entries := Log Unit Ask Reply

namespace Slots

/-- `self._slots.release()`. -/
def release (w : Slots) : Slots := { w with free := w.free + 1 }

/-- Rewrite a job. -/
def setJob (w : Slots) (j : ℕ) (f : Job → Job) : Slots := { w with jobs := w.jobs.modify j f }

end Slots

def Job.isRunning (job : Job) : Bool :=
  match job.stage with
  | .running => true
  | _ => false

def Job.isQueued (job : Job) : Bool :=
  match job.stage with
  | .queued => true
  | _ => false

/-! ### Tasks -/

/-- `await self._slots.acquire()`. -/
def acquire : Task Unit := do
  Prog.ofExcept (← Prog.askAwait Ask.acquire)
  Prog.update fun w => { w with free := w.free - 1 }

/-- `run_in_executor(self._executor, self._compress, messages, model)`. -/
def submit (me : ℕ) (messages : List Json) (model : Model) : Task ℕ := do
  Prog.ofExcept (← Prog.ask (Ask.submit messages model))
  let w ← Prog.read
  Prog.update fun w =>
    { w with jobs := w.jobs ++ [{ owner := me, messages := messages, model := model }] }
  return w.jobs.length

/-- `HeadroomCompressor.compress`. -/
def compress (me : ℕ) (messages : List Json) (model : Model) : Task CompressionResult := do
  acquire
  let future ← tryCatch (submit me messages model) fun e => do
    Prog.update Slots.release
    throw e
  Prog.update fun w => w.setJob future fun job => { job with watched := true }
  Prog.ofExcept (← Prog.askAwait (Ask.outcome future))

/-- Something that happens to the executor. -/
def happen (q : Ask) (f : Slots → Slots) : Task (Option CompressionResult) := do
  let _ ← Prog.ask q
  Prog.update f
  return none

/-- The worker thread takes a job. -/
def take (j : ℕ) : Task (Option CompressionResult) :=
  happen (.take j) fun w => w.setJob j fun job => { job with stage := .running }

/-- The worker thread ends a job, with what `_compress` returned or raised. -/
def finish (j : ℕ) (result : Except Err CompressionResult) : Task (Option CompressionResult) :=
  happen (.finish j result) fun w => w.setJob j fun job => { job with stage := .done result }

/-- A shutdown cancels a queued job. -/
def drop (j : ℕ) : Task (Option CompressionResult) :=
  happen (.drop j) fun w => w.setJob j fun job => { job with stage := .done (.error .cancelled) }

/-- The callback of a future: `lambda _: self._slots.release()`. -/
def callback (j : ℕ) : Task (Option CompressionResult) :=
  happen (.callback j) fun w => (w.setJob j fun job => { job with released := true }).release

/-- `self._executor.shutdown(cancel_futures=True)`. -/
def shutdown : Task (Option CompressionResult) := happen .shutdown fun w => { w with closed := true }

/-- Everything that may take a turn.  A call `i` is asked to compress `requests i`. -/
inductive Tasks (requests : ℕ → List Json × Model) (i : ℕ) : Task (Option CompressionResult) → Prop where
  | compress : Tasks requests i (do return some (← compress i (requests i).1 (requests i).2))
  | take (j : ℕ) : Tasks requests i (take j)
  | finish (j : ℕ) (result : Except Err CompressionResult) : Tasks requests i (finish j result)
  | drop (j : ℕ) : Tasks requests i (drop j)
  | callback (j : ℕ) : Tasks requests i (callback j)
  | shutdown : Tasks requests i shutdown

/-- The jobs that a thread runs. -/
def Slots.running (w : Slots) : ℕ := w.jobs.countP Job.isRunning

/-- What the semaphore, the futures and the executor may do. -/
def Permitted (sdk : List Json → Model → Except Err Compressed) (w : Slots) : Entry → Prop
  | ⟨_, .acquire, .ok ()⟩ => 0 < w.free
  | ⟨_, .acquire, .error e⟩ => e = .cancelled
  | ⟨_, .submit _ _, .ok ()⟩ => w.closed = false
  | ⟨_, .submit _ _, .error _⟩ => True
  | ⟨_, .outcome j, a⟩ => a = .error .cancelled ∨ ∃ job, w.jobs[j]? = some job ∧ job.stage = .done a
  | ⟨_, .take j, _⟩ => ∃ job, w.jobs[j]? = some job ∧ job.isQueued ∧
      w.running < w.threads ∧ ∀ job ∈ w.jobs.take j, job.isQueued = false
  | ⟨_, .finish j result, _⟩ => ∃ job, w.jobs[j]? = some job ∧ job.isRunning ∧
      ∀ a, result = .ok a → compressMessages sdk job.messages job.model = .ok a
  | ⟨_, .drop j, _⟩ => w.closed = true ∧ ∃ job, w.jobs[j]? = some job ∧ job.isQueued
  | ⟨_, .callback j, _⟩ => ∃ job, w.jobs[j]? = some job ∧ job.watched = true ∧
      (∃ result, job.stage = .done result) ∧ job.released = false
  | ⟨_, .shutdown, _⟩ => True

/-- The surroundings of the pool. -/
def executor (sdk : List Json → Model → Except Err Compressed) : System Slots Unit Ask Reply where
  admits w _ _ st := Permitted sdk w st

/-! ### What a log says -/

/-- The permits a call was granted. -/
def acquired : List Entry → ℕ
  | [] => 0
  | ⟨_, .acquire, .ok ()⟩ :: l => acquired l + 1
  | _ :: l => acquired l

/-- The jobs of a call that were refused. -/
def refused : List Entry → ℕ
  | [] => 0
  | ⟨_, .submit _ _, .error _⟩ :: l => refused l + 1
  | _ :: l => refused l

/-- How often the callback of a job has run. -/
def callbacks (j : ℕ) : Entries → ℕ
  | [] => 0
  | (_, ⟨_, .callback k, _⟩) :: l => callbacks j l + if k = j then 1 else 0
  | _ :: l => callbacks j l

/-- A job leaves the executor: it has run, or a shutdown has dropped it. -/
def Leaves (j : ℕ) : Entry → Prop
  | ⟨_, .finish k _, _⟩ | ⟨_, .drop k, _⟩ => k = j
  | _ => False

/-- A job has left the executor. -/
def Left (j : ℕ) (l : Entries) : Prop := ∃ e ∈ l, Leaves j e.2

/-- A job that the executor has, or whose callback was added and has not run. -/
def Job.isOutstanding (job : Job) : Bool :=
  job.isQueued || job.isRunning || (job.watched && !job.released)

/-- Jobs that occupy a permit. -/
def Slots.outstanding (w : Slots) : ℕ := w.jobs.countP Job.isOutstanding

/-- Jobs that the executor still has. -/
def Slots.active (w : Slots) : ℕ := w.jobs.countP fun job => job.isQueued || job.isRunning

/-- Jobs that a call submitted. -/
def Slots.ownedBy (w : Slots) (i : ℕ) : ℕ := w.jobs.countP fun job => job.owner = i

/-- The invariant between awaits: every permit is free or held by one outstanding job,
every job has its callback, every granted permit went to a job or was given back with a
refusal, and a callback runs once, after its job has left. -/
structure Conserved (workers : ℕ) (w : Slots) (l : Entries) : Prop where
  permits : w.free + w.outstanding = workers
  watched : ∀ job ∈ w.jobs, job.watched = true
  granted : ∀ i, acquired (own i l) = refused (own i l) + w.ownedBy i
  called : ∀ j job, w.jobs[j]? = some job → callbacks j l = if job.released then 1 else 0
  unknown : ∀ j, w.jobs.length ≤ j → callbacks j l = 0
  left : ∀ j job result, w.jobs[j]? = some job → job.stage = .done result → Left j l
  finished : ∀ job ∈ w.jobs, job.released = true → ∃ result, job.stage = .done result
  late : ∀ i j rest, (i, ⟨(), .callback j, ()⟩) :: rest <:+ l → Left j rest
  single : w.threads = 1 ∧ w.running ≤ w.threads

/-! ### One entry -/

section Entries

variable {workers : ℕ} {w : Slots} {l : Entries} {i : ℕ}

theorem Conserved.init (workers : ℕ) : Conserved workers (.init workers) [] where
  permits := rfl
  watched _ h := (List.not_mem_nil h).elim
  granted _ := rfl
  called _ _ h := by cases h
  unknown _ _ := rfl
  left _ _ _ h := by cases h
  finished _ h := (List.not_mem_nil h).elim
  late _ _ _ h := by cases List.suffix_nil.1 h
  single := ⟨rfl, Nat.zero_le 1⟩

/-- Rewriting one member of a list changes a count by what it changes in that member. -/
theorem countP_modify {α : Type} {p : α → Bool} {f : α → α} {xs : List α} {j : ℕ} {x : α}
    (h : xs[j]? = some x) : (xs.modify j f).countP p + (if p x then 1 else 0) =
      xs.countP p + if p (f x) then 1 else 0 := by
  induction xs generalizing j with
  | nil => cases h
  | cons y xs ih =>
    cases j with
    | zero =>
      obtain rfl : y = x := Option.some.inj h
      rw [List.modify_zero_cons, List.countP_cons, List.countP_cons]
      omega
    | succ j =>
      rw [List.modify_succ_cons, List.countP_cons, List.countP_cons]
      have := ih (j := j) h
      omega

/-- A log of one more entry, as one call sees it. -/
theorem own_cons (k i : ℕ) (e : Entry) (l : Entries) :
    own i ((k, e) :: l) = if k = i then e :: own i l else own i l := by
  split
  · rename_i h
    rw [h, own_cons_self]
  · rename_i h
    exact own_cons_of_ne h e l

/-- The jobs after one was rewritten. -/
theorem getElem?_setJob {w : Slots} {f : Job → Job} {i j : ℕ} {job : Job}
    (h : (w.setJob j f).jobs[i]? = some job) :
    ∃ old, w.jobs[i]? = some old ∧ job = if j = i then f old else old := by
  rw [Slots.setJob, List.getElem?_modify] at h
  obtain ⟨old, hold, rfl⟩ := Option.map_eq_some_iff.1 h
  exact ⟨old, hold, rfl⟩

/-- A job of the rewritten list is one of the old, or the one that was rewritten. -/
theorem mem_setJob {w : Slots} {f : Job → Job} {j : ℕ} {job : Job} (h : job ∈ (w.setJob j f).jobs) :
    job ∈ w.jobs ∨ ∃ old, w.jobs[j]? = some old ∧ job = f old := by
  obtain ⟨k, hk⟩ := List.mem_iff_getElem?.1 h
  obtain ⟨old, hold, rfl⟩ := getElem?_setJob hk
  split
  · rename_i hj
    exact .inr ⟨old, hj ▸ hold, rfl⟩
  · exact .inl (List.mem_iff_getElem?.2 ⟨k, hold⟩)

/-- What holds of every job still does, if it survives the rewriting. -/
theorem forall_setJob {w : Slots} {f : Job → Job} {j : ℕ} {P : Job → Prop}
    (h : ∀ job ∈ w.jobs, P job) (hf : ∀ job, w.jobs[j]? = some job → P (f job)) :
    ∀ job ∈ (w.setJob j f).jobs, P job := by
  intro job hmem
  rcases mem_setJob hmem with hmem | ⟨old, hold, rfl⟩
  · exact h job hmem
  · exact hf old hold

/-- Jobs stay with the calls that submitted them. -/
theorem ownedBy_setJob {w : Slots} {f : Job → Job} {j : ℕ} {job : Job} (h : w.jobs[j]? = some job)
    (hf : (f job).owner = job.owner) (i : ℕ) : (w.setJob j f).ownedBy i = w.ownedBy i := by
  have hcount := countP_modify (p := fun job => decide (job.owner = i)) (f := f) h
  rw [hf] at hcount
  exact Nat.add_right_cancel hcount

/-- An entry that grants nothing, refuses nothing and runs no callback. -/
structure Idle (e : Entry) : Prop where
  acquired : ∀ l, acquired (e :: l) = acquired l
  refused : ∀ l, refused (e :: l) = refused l
  callback : ∀ j, e.call ≠ .callback j

/-- The questions whose entries are idle whatever they are answered. -/
def Plain : Ask → Prop
  | .outcome _ | .take _ | .finish _ _ | .drop _ | .shutdown => True
  | _ => False

theorem Plain.idle {q : Ask} (hq : Plain q) (a : Reply q) : Idle ⟨(), q, a⟩ := by
  cases q <;> first | exact hq.elim | exact ⟨fun _ => rfl, fun _ => rfl, nofun⟩

/-- A cancelled wait for a permit is idle. -/
theorem idle_cancelled (e : Err) : Idle ⟨(), .acquire, .error e⟩ :=
  ⟨fun _ => rfl, fun _ => rfl, nofun⟩

theorem Left.cons {j : ℕ} (h : Left j l) (e : ℕ × Entry) : Left j (e :: l) := by
  obtain ⟨e', he', hleaves⟩ := h
  exact ⟨e', List.mem_cons_of_mem _ he', hleaves⟩

/-- Only a callback has anything to be late for. -/
theorem late_cons (h : ∀ i j rest, (i, ⟨(), .callback j, ()⟩) :: rest <:+ l → Left j rest) (k : ℕ)
    {e : Entry} (he : ∀ j, e.call ≠ .callback j) (i j : ℕ) (rest : Entries)
    (hsuffix : (i, ⟨(), .callback j, ()⟩) :: rest <:+ (k, e) :: l) : Left j rest := by
  rcases List.suffix_cons_iff.1 hsuffix with heq | hsuffix
  · cases heq
    exact absurd rfl (he j)
  · exact h i j rest hsuffix

theorem Idle.callbacks {e : Entry} (he : Idle e) (j k : ℕ) (l : Entries) :
    callbacks j ((k, e) :: l) = callbacks j l := by
  obtain ⟨t, q, a⟩ := e
  cases q <;> first | exact absurd rfl (he.callback _) | rfl

/-- An idle entry changes nothing, a shutdown nothing that is counted. -/
theorem Conserved.idle (h : Conserved workers w l) {e : Entry} (he : Idle e) (k : ℕ)
    (closed : Bool) : Conserved workers { w with closed := closed } ((k, e) :: l) where
  permits := h.permits
  watched := h.watched
  granted i := by
    rw [own_cons]
    split
    · rw [he.acquired, he.refused]
      exact h.granted i
    · exact h.granted i
  called j job hjob := by
    rw [he.callbacks]
    exact h.called j job hjob
  unknown j hj := by
    rw [he.callbacks]
    exact h.unknown j hj
  left j job result hjob hdone := (h.left j job result hjob hdone).cons _
  finished := h.finished
  late := late_cons h.late k he.callback
  single := h.single

/-- A job that the executor has goes on to its next stage. -/
theorem Conserved.advance (h : Conserved workers w l) {q : Ask} (hq : Plain q) (a : Reply q) (k : ℕ)
    {j : ℕ} {job : Job} (hjob : w.jobs[j]? = some job) (hheld : ∀ result, job.stage ≠ .done result)
    (stage : Stage) (hleaves : ∀ result, stage = .done result → Leaves j ⟨(), q, a⟩)
    (hrunning : stage = .running → w.running < w.threads) :
    Conserved workers (w.setJob j fun job => { job with stage := stage })
      ((k, ⟨(), q, a⟩) :: l) := by
  have hidle := h.idle (hq.idle a) k w.closed
  have hmem : job ∈ w.jobs := List.mem_iff_getElem?.2 ⟨j, hjob⟩
  constructor
  case permits =>
    have hcount := countP_modify (p := Job.isOutstanding) (f := fun job => { job with stage := stage }) hjob
    have hpermits := h.permits
    -- its callback is pending, before and after
    have hpending : (job.watched && !job.released) = true := by
      have hreleased : job.released = false := Bool.eq_false_iff.2 fun hreleased => by
        obtain ⟨result, hdone⟩ := h.finished job hmem hreleased
        exact hheld result hdone
      rw [h.watched job hmem, hreleased]
      rfl
    have hbefore : job.isOutstanding = true := by rw [Job.isOutstanding, hpending, Bool.or_true]
    have hafter : ({ job with stage := stage } : Job).isOutstanding = true := by
      rw [Job.isOutstanding, hpending, Bool.or_true]
    rw [hbefore, hafter] at hcount
    unfold Slots.outstanding at hpermits ⊢
    simp only [Slots.setJob] at hcount ⊢
    omega
  case watched =>
    exact forall_setJob h.watched fun job hjob => h.watched job (List.mem_iff_getElem?.2 ⟨j, hjob⟩)
  case granted =>
    intro i
    rw [ownedBy_setJob (f := fun job => { job with stage := stage }) hjob rfl]
    exact hidle.granted i
  case called =>
    intro i job' hi
    obtain ⟨old, hold, rfl⟩ := getElem?_setJob hi
    have hsame : (if j = i then { old with stage := stage } else old).released = old.released := by
      split <;> rfl
    rw [hidle.called i old hold, hsame]
  case unknown =>
    intro i hi
    rw [Slots.setJob, List.length_modify] at hi
    exact hidle.unknown i hi
  case left =>
    intro i job' result hi hdone
    obtain ⟨old, hold, rfl⟩ := getElem?_setJob hi
    split at hdone
    · rename_i hj
      exact ⟨_, List.mem_cons_self, hj ▸ hleaves result hdone⟩
    · exact (h.left i old result hold hdone).cons _
  case finished =>
    refine forall_setJob h.finished fun old hold hreleased => ?_
    obtain rfl : job = old := Option.some.inj (hjob.symm.trans hold)
    obtain ⟨result, hdone⟩ := h.finished job hmem hreleased
    exact absurd hdone (hheld result)
  case late => exact hidle.late
  case single =>
    have hcount := countP_modify (p := Job.isRunning)
      (f := fun job => { job with stage := stage }) hjob
    obtain ⟨hthreads, hsingle⟩ := h.single
    refine ⟨hthreads, ?_⟩
    unfold Slots.running at hsingle hrunning ⊢
    by_cases hs : stage = .running
    · have hnone := hrunning hs
      simp only [Slots.setJob] at hcount ⊢
      split at hcount <;> split at hcount <;> omega
    · have hstage : ({ job with stage := stage } : Job).isRunning = false := by
        unfold Job.isRunning
        cases stage <;> first | rfl | exact absurd rfl hs
      rw [hstage] at hcount
      simp only [Slots.setJob, Bool.false_eq_true, if_false] at hcount ⊢
      omega

/-- The callback of a job that has left gives its permit back. -/
theorem Conserved.release (h : Conserved workers w l) (k : ℕ) {j : ℕ} {job : Job}
    (hjob : w.jobs[j]? = some job) (hwatched : job.watched = true) {result : Except Err CompressionResult}
    (hdone : job.stage = .done result) (hheld : job.released = false) :
    Conserved workers (w.setJob j fun job => { job with released := true }).release
      ((k, ⟨(), .callback j, ()⟩) :: l) := by
  constructor
  case permits =>
    have hcount := countP_modify (p := Job.isOutstanding) (f := fun job => { job with released := true }) hjob
    have hpermits := h.permits
    have hbefore : job.isOutstanding = true := by simp [Job.isOutstanding, hwatched, hheld]
    have hafter : ({ job with released := true } : Job).isOutstanding = false := by
      simp [Job.isOutstanding, Job.isQueued, Job.isRunning, hdone]
    rw [hbefore, hafter] at hcount
    unfold Slots.outstanding at hpermits ⊢
    simp only [Bool.false_eq_true, if_true, if_false] at hcount
    simp only [Slots.setJob, Slots.release]
    omega
  case watched =>
    exact forall_setJob h.watched fun job hjob => h.watched job (List.mem_iff_getElem?.2 ⟨j, hjob⟩)
  case granted =>
    intro i
    have howned := ownedBy_setJob (f := fun job => { job with released := true }) hjob rfl i
    have hown : acquired (own i ((k, ⟨(), .callback j, ()⟩) :: l)) = acquired (own i l) ∧
        refused (own i ((k, ⟨(), .callback j, ()⟩) :: l)) = refused (own i l) := by
      rw [own_cons]
      split
      · exact ⟨rfl, rfl⟩
      · exact ⟨rfl, rfl⟩
    rw [hown.1, hown.2]
    exact (h.granted i).trans (congrArg _ howned.symm)
  case called =>
    intro i job' hi
    obtain ⟨old, hold, rfl⟩ := getElem?_setJob hi
    have hcalled := h.called i old hold
    rw [callbacks, hcalled]
    by_cases hj : j = i
    · subst hj
      obtain rfl : job = old := Option.some.inj (hjob.symm.trans hold)
      simp [hheld]
    · simp [hj]
  case unknown =>
    intro i hi
    rw [Slots.release, Slots.setJob, List.length_modify] at hi
    have hlt : j < w.jobs.length := (List.getElem?_eq_some_iff.1 hjob).1
    have hne : j ≠ i := by omega
    rw [callbacks, h.unknown i hi, if_neg hne]
  case left =>
    intro i job' result' hi hdone'
    obtain ⟨old, hold, rfl⟩ := getElem?_setJob hi
    have hdone'' : old.stage = .done result' := by
      split at hdone' <;> exact hdone'
    exact (h.left i old result' hold hdone'').cons _
  case finished =>
    refine forall_setJob h.finished fun old hold _ => ?_
    obtain rfl : job = old := Option.some.inj (hjob.symm.trans hold)
    exact ⟨result, hdone⟩
  case late =>
    intro i j' rest hsuffix
    rcases List.suffix_cons_iff.1 hsuffix with heq | hsuffix
    · cases heq
      exact h.left j job result hjob hdone
    · exact h.late i j' rest hsuffix
  case single =>
    have hcount := countP_modify (p := Job.isRunning)
      (f := fun job => { job with released := true }) hjob
    obtain ⟨hthreads, hsingle⟩ := h.single
    refine ⟨hthreads, ?_⟩
    have hstage : ({ job with released := true } : Job).isRunning = job.isRunning := rfl
    rw [hstage] at hcount
    unfold Slots.running at hsingle ⊢
    simp only [Slots.setJob, Slots.release]
    omega

/-- A granted permit goes to a job. -/
theorem Conserved.submit (h : Conserved workers w l) (hfree : 0 < w.free) (i : ℕ)
    (messages : List Json) (model : Model) :
    Conserved workers
      ⟨w.free - 1, w.threads, w.jobs ++ [⟨i, messages, model, .queued, true, false⟩], w.closed⟩
      ((i, ⟨(), .submit messages model, .ok ()⟩) :: (i, ⟨(), .acquire, .ok ()⟩) :: l) := by
  -- the last job is the new one
  have hread : ∀ j job, (w.jobs ++ [⟨i, messages, model, .queued, true, false⟩])[j]? = some job →
      w.jobs[j]? = some job ∨
        j = w.jobs.length ∧ job = ⟨i, messages, model, .queued, true, false⟩ := by
    intro j job hj
    rcases Nat.lt_or_ge j w.jobs.length with hlt | hge
    · rw [List.getElem?_append_left hlt] at hj
      exact .inl hj
    · rw [List.getElem?_append_right hge, List.getElem?_singleton] at hj
      split at hj
      · rename_i hzero
        exact .inr ⟨by omega, (Option.some.inj hj).symm⟩
      · cases hj
  constructor
  case permits =>
    have hpermits := h.permits
    unfold Slots.outstanding at hpermits ⊢
    rw [List.countP_append, List.countP_singleton]
    simp only [Job.isOutstanding, Job.isQueued, Bool.true_or, if_true]
    omega
  case watched =>
    intro job hmem
    rcases List.mem_append.1 hmem with hmem | hmem
    · exact h.watched job hmem
    · rw [List.mem_singleton.1 hmem]
  case granted =>
    intro k
    have hgranted := h.granted k
    unfold Slots.ownedBy at hgranted ⊢
    rw [List.countP_append, List.countP_singleton, own_cons, own_cons]
    by_cases hk : i = k
    · simp only [hk, decide_true, if_true, acquired, refused]
      omega
    · simp only [hk, decide_false, Bool.false_eq_true, if_false]
      exact hgranted
  case called =>
    intro j job hj
    change callbacks j l = _
    rcases hread j job hj with hj | ⟨rfl, rfl⟩
    · exact h.called j job hj
    · exact h.unknown _ (Nat.le_refl _)
  case unknown =>
    intro j hj
    rw [List.length_append, List.length_singleton] at hj
    exact h.unknown j (by omega)
  case left =>
    intro j job result hj hdone
    rcases hread j job hj with hj | ⟨-, rfl⟩
    · exact ((h.left j job result hj hdone).cons _).cons _
    · cases hdone
  case finished =>
    intro job hmem hreleased
    rcases List.mem_append.1 hmem with hmem | hmem
    · exact h.finished job hmem hreleased
    · rw [List.mem_singleton.1 hmem] at hreleased
      cases hreleased
  case late => exact late_cons (late_cons h.late i fun _ hq => by cases hq) i fun _ hq => by cases hq
  case single =>
    rw [Slots.running, List.countP_append, List.countP_singleton]
    exact h.single

/-- A refused job gives the permit back at once. -/
theorem Conserved.refuse (h : Conserved workers w l) (hfree : 0 < w.free) (i : ℕ)
    (messages : List Json) (model : Model) (e : Err) :
    Conserved workers ⟨w.free - 1 + 1, w.threads, w.jobs, w.closed⟩
      ((i, ⟨(), .submit messages model, .error e⟩) :: (i, ⟨(), .acquire, .ok ()⟩) :: l) where
  permits := by
    have hpermits := h.permits
    change w.free - 1 + 1 + w.outstanding = workers
    omega
  watched := h.watched
  granted k := by
    have hgranted : acquired (own k l) = refused (own k l) + w.ownedBy k := h.granted k
    change _ = _ + w.ownedBy k
    rw [own_cons, own_cons]
    by_cases hk : i = k
    · simp only [hk, if_true, acquired, refused]
      omega
    · simp only [hk, if_false]
      exact hgranted
  called := h.called
  unknown := h.unknown
  left j job result hjob hdone := ((h.left j job result hjob hdone).cons _).cons _
  finished := h.finished
  late := late_cons (late_cons h.late i fun _ hq => by cases hq) i fun _ hq => by cases hq
  single := h.single

end Entries

/-! ### The tasks -/

section Tasks

variable {sdk : List Json → Model → Except Err Compressed} {requests : ℕ → List Json × Model} {workers : ℕ}
  {w : Slots} {l : Entries} {i : ℕ}

/-- How task `i` lives among tasks that conserve the permits. -/
abbrev sharer (sdk : List Json → Model → Except Err Compressed) (workers i : ℕ) :
    Discipline Slots Ask Reply Entries :=
  (executor sdk).member (Conserved workers) i

theorem modify_last {α : Type} (xs : List α) (x : α) (f : α → α) :
    (xs ++ [x]).modify xs.length f = xs ++ [f x] := by
  induction xs with
  | nil => rfl
  | cons y xs ih =>
    rw [List.cons_append, List.length_cons, List.modify_succ_cons, ih]
    rfl

/-- A call, from its first await to its end. -/
theorem wp_compress (messages : List Json) (model : Model) (h : Conserved workers w l) :
    (sharer sdk workers i).wp (compress i messages model) (fun _ => Conserved workers)
      (fun _ => Conserved workers) w l := by
  simp only [compress, acquire, wp_bind, wp_askAwait, wp_ofExcept, wp_update, wp_tryCatch]
  refine ⟨h, ?_⟩
  rintro w₁ l₁ ⟨h₁, -, -⟩ granted _ ⟨_, hgranted, rfl⟩
  cases granted with
  | error e => exact h₁.idle (idle_cancelled e) i w₁.closed
  | ok _ =>
    have hfree : 0 < w₁.free := hgranted
    simp only [ends_ok, submit, wp_bind, wp_ask, wp_ofExcept, wp_read, wp_update, wp_pure, wp_throw]
    rintro accepted _ ⟨_, -, rfl⟩
    cases accepted with
    | error e => exact h₁.refuse hfree i messages model e
    | ok _ =>
      have h₂ := h₁.submit hfree i messages model
      simp only [ends_ok, Slots.setJob, modify_last]
      refine ⟨h₂, ?_⟩
      rintro w₃ l₃ ⟨h₃, -, -⟩ outcome _ ⟨_, -, rfl⟩
      have h₄ := h₃.idle (Plain.idle (q := .outcome w₁.jobs.length) trivial outcome) i w₃.closed
      cases outcome with
      | ok result => exact h₄
      | error e => exact h₄

/-- Something happens, and the permits are conserved if it does so where it may. -/
theorem wp_happen {q : Ask} {f : Slots → Slots}
    (hq : ∀ a, Permitted sdk w ⟨(), q, a⟩ → Conserved workers (f w) ((i, ⟨(), q, a⟩) :: l)) :
    (sharer sdk workers i).wp (happen q f) (fun _ => Conserved workers) (fun _ => Conserved workers)
      w l := by
  simp only [happen, wp_bind, wp_ask, wp_update, wp_pure]
  rintro a _ ⟨_, ha, rfl⟩
  exact hq a ha

theorem not_done_of_queued {job : Job} (h : job.isQueued = true) (result : Except Err CompressionResult) :
    job.stage ≠ .done result := by
  intro hdone
  rw [Job.isQueued, hdone] at h
  cases h

theorem not_done_of_running {job : Job} (h : job.isRunning = true)
    (result : Except Err CompressionResult) : job.stage ≠ .done result := by
  intro hdone
  rw [Job.isRunning, hdone] at h
  cases h

/-- **Every task conserves the permits.** -/
theorem Tasks.keeps {p : Task (Option CompressionResult)} (hp : Tasks requests i p) (h : Conserved workers w l) :
    (executor sdk).Keeps (Conserved workers) (fun _ _ _ => True) i p w l := by
  have hkept : (sharer sdk workers i).wp p (fun _ => Conserved workers) (fun _ => Conserved workers)
      w l := by
    cases hp with
    | compress =>
      rw [wp_bind]
      exact wp_mono (fun _ _ _ h => h) (fun _ _ _ h => h) (wp_compress _ _ h)
    | take j =>
      refine wp_happen fun _ ha => ?_
      obtain ⟨job, hjob, hqueued, hthread, -⟩ := ha
      exact h.advance (q := .take j) trivial () i hjob (not_done_of_queued hqueued) .running nofun
        fun _ => hthread
    | finish j result =>
      refine wp_happen fun _ ha => ?_
      obtain ⟨job, hjob, hrunning, -⟩ := ha
      exact h.advance (q := .finish j result) trivial () i hjob (not_done_of_running hrunning)
        (.done result) (fun _ _ => rfl) nofun
    | drop j =>
      refine wp_happen fun _ ha => ?_
      obtain ⟨-, job, hjob, hqueued⟩ := ha
      exact h.advance (q := .drop j) trivial () i hjob (not_done_of_queued hqueued)
        (.done (.error .cancelled)) (fun _ _ => rfl) nofun
    | callback j =>
      refine wp_happen fun _ ha => ?_
      obtain ⟨job, hjob, hwatched, ⟨result, hdone⟩, hheld⟩ := ha
      exact h.release i hjob hwatched hdone hheld
    | shutdown => exact wp_happen fun _ _ => h.idle (Plain.idle (q := .shutdown) trivial ()) i true
  exact wp_mono (fun _ _ _ h => ⟨h, trivial⟩) (fun _ _ _ h => ⟨h, trivial⟩) hkept

end Tasks

/-- What the executor has occupies a permit. -/
theorem Slots.active_le (w : Slots) : w.active ≤ w.outstanding :=
  List.countP_mono_left fun job _ hactive => by rw [Job.isOutstanding, hactive, Bool.true_or]

/-- **Compression capacity is conserved**, in every interleaving of calls, cancellations,
the worker thread, callbacks and shutdowns.  Every job has its callback whenever another
task may run, so that once none is queued or running and no callback is pending all
permits are free. -/
theorem capacity_conserved (sdk : List Json → Model → Except Err Compressed)
    (requests : ℕ → List Json × Model) (workers : ℕ)
    (c : Pool Slots Unit Ask Reply Err (Option CompressionResult))
    (hc : (executor sdk).Reachable (Tasks requests) (.init workers) c) :
    c.state.free + c.state.outstanding = workers ∧
    (∀ job ∈ c.state.jobs, job.watched = true) ∧
    c.state.active ≤ workers ∧
    c.state.running ≤ 1 ∧
    (∀ i, acquired (own i c.log) = refused (own i c.log) + c.state.ownedBy i) ∧
    (∀ j job, c.state.jobs[j]? = some job → callbacks j c.log = if job.released then 1 else 0) ∧
    (∀ i j rest, (i, ⟨(), .callback j, ()⟩) :: rest <:+ c.log → Left j rest) ∧
    ((∀ job ∈ c.state.jobs, job.isQueued = false ∧ job.isRunning = false ∧
      (job.watched = true → job.released = true)) → c.state.free = workers) := by
  have h : Conserved workers c.state c.log :=
    (System.Reachable.inv (fun i p hp w l h _ => Tasks.keeps hp h) (Conserved.init workers) hc :
      (executor sdk).Inv _ (fun _ _ _ => True) c).shared
  have hpermits := h.permits
  have hactive := c.state.active_le
  obtain ⟨hthreads, hsingle⟩ := h.single
  refine ⟨hpermits, h.watched, by omega, by omega, h.granted, h.called, h.late, fun hall => ?_⟩
  have hnone : c.state.outstanding = 0 := List.countP_eq_zero.2 fun job hmem => by
    obtain ⟨hqueued, hrunning, hreleased⟩ := hall job hmem
    simp [Job.isOutstanding, hqueued, hrunning, hreleased (h.watched job hmem)]
  omega

/-! ### A cancelled call -/

namespace Demo

/-- Permits and jobs are granted, and every call that waits for its job is cancelled. -/
def answer (_ : Entries) : (q : Ask) → Unit × Reply q
  | .acquire => ((), .ok ())
  | .submit _ _ => ((), .ok ())
  | .outcome _ => ((), .error .cancelled)
  | .take _ | .finish _ _ | .drop _ | .callback _ | .shutdown => ((), ())

/-- `Permitted`, of the answers above, jobs that raise, and callbacks. -/
def permitted (w : Slots) (_ : Entries) (_ : ℕ) : Entry → Bool
  | ⟨_, .acquire, .ok ()⟩ => 0 < w.free
  | ⟨_, .submit _ _, .ok ()⟩ => !w.closed
  | ⟨_, .outcome _, .error .cancelled⟩ => true
  | ⟨_, .take j, _⟩ => (w.jobs[j]?.any Job.isQueued) && decide (w.running < w.threads) &&
      (w.jobs.take j).all fun job => !job.isQueued
  | ⟨_, .finish j (.error _), _⟩ => w.jobs[j]?.any Job.isRunning
  | ⟨_, .callback j, _⟩ => w.jobs[j]?.any fun job =>
      job.watched && !job.isQueued && !job.isRunning && !job.released
  | _ => false

/-- A pipeline that cannot compress. -/
def sdk (_ : List Json) (_ : Model) : Except Err Compressed := .error (.exc .other)

theorem permitted_sound (w : Slots) (l : Entries) (i : ℕ) (st : Entry)
    (h : permitted w l i st = true) : (executor sdk).admits w l i st := by
  unfold permitted at h
  split at h
  · have hfree : 0 < w.free := of_decide_eq_true h
    exact hfree
  · have hopen : w.closed = false := by simpa using h
    exact hopen
  · exact .inl rfl
  · simp only [Bool.and_eq_true, List.all_eq_true, Bool.not_eq_true', Option.any_eq_true,
      decide_eq_true_eq] at h
    obtain ⟨⟨⟨job, hjob, hqueued⟩, hthread⟩, hfirst⟩ := h
    exact ⟨job, hjob, hqueued, hthread, hfirst⟩
  · obtain ⟨job, hjob, hrunning⟩ := (Option.any_eq_true _ _).1 h
    exact ⟨job, hjob, hrunning, nofun⟩
  · obtain ⟨job, hjob, hready⟩ := (Option.any_eq_true _ _).1 h
    simp only [Bool.and_eq_true, Bool.not_eq_true'] at hready
    obtain ⟨⟨⟨hwatched, hqueued⟩, hrunning⟩, hheld⟩ := hready
    refine ⟨job, hjob, hwatched, ?_, hheld⟩
    cases hstage : job.stage with
    | queued => simp [Job.isQueued, hstage] at hqueued
    | running => simp [Job.isRunning, hstage] at hrunning
    | done result => exact ⟨result, rfl⟩
  · cases h

/-- A model. -/
def model : Model where
  name := lit "m"
  modelId := lit "backend"
  endpoints := []
  defaults := []

/-- Nothing to compress. -/
def requests (_ : ℕ) : List Json × Model := ([], model)

/-- Two calls, and what happens to the job of the first. -/
def tasks : ℕ → Task (Option CompressionResult)
  | 2 => take 0
  | 3 => finish 0 (.error (.exc .other))
  | 4 => callback 0
  | i => do return some (← compress i [] model)

theorem tasks_allowed : ∀ i, Tasks requests i (tasks i)
  | 2 => .take 0
  | 3 => .finish 0 _
  | 4 => .callback 0
  | 0 | 1 | _ + 5 => .compress

end Demo

/-- With one permit, a call is cancelled while its job runs, the job ends and its
callback runs, and only then does a second call submit a job. -/
theorem cancelled_call_keeps_permit : ∃ c,
    (executor Demo.sdk).Reachable (Tasks Demo.requests) (.init 1) c ∧ c.state.jobs.length = 2 ∧
      c.state.free + c.state.outstanding = 1 ∧ c.state.active ≤ 1 := by
  obtain ⟨c, hplay, hlength⟩ := (Option.any_eq_true _ _).1 (by decide +kernel :
    (System.play Demo.answer Demo.permitted Demo.tasks
      [.start, .start, .resume 0, .start, .resume 0, .start, .start, .resume 1]
      ⟨.init 1, [], []⟩).any fun c => c.state.jobs.length = 2)
  have hc : (executor Demo.sdk).Reachable (Tasks Demo.requests) (.init 1) c :=
    System.play_steps Demo.permitted_sound Demo.tasks_allowed _ hplay
  have h := capacity_conserved Demo.sdk Demo.requests 1 c hc
  exact ⟨c, hc, of_decide_eq_true hlength, h.1, h.2.2.1⟩

end Headroom
end SwitchyardGateway
