/-
# What a log says

A log holds the answered questions of a run, newest first.  The functions below
read off what the properties of the gateway are about: the attempts that were
begun (`sends`), the responses they opened (`opened`) and that were closed
(`closes`), and the records that were emitted (`requests`, `retries`,
`replicaFailures`), each newest first like the log.

An attempt has failed over if it ended in `ConnectFailure` or in one of the
statuses that allow another attempt; `Attempt.cause?` is the reason.
-/

import SwitchyardGateway.Application.Gateway
import Mathlib.Algebra.Order.Field.Rat
import Mathlib.Tactic.Linarith

namespace SwitchyardGateway
namespace Application

open Coop Python

/-- An answered question of the gateway, with the instant of the answer. -/
abbrev Entry := Step ℚ Call Answer

/-- One `transport.send` and how it ended. -/
structure Attempt where
  time : ℚ
  model : Model
  endpoint : Endpoint
  request : Payload
  headers : Headers
  answer : Except Err Upstream

namespace Attempt

/-- The key of its replica in the cooldown table. -/
def replica (a : Attempt) : Str × Str := (a.model.name, a.endpoint.name)

end Attempt

/-- Why an answer of the transport cools its replica down, and the `Retry-After`
that came with it: `""` if there was none. -/
def failureCause? : Except Err Upstream → Option (FailureCause × Str)
  | .error (.exc .connectFailure) => some (.connect, [])
  | .ok upstream =>
    if retryable upstream.status then
      some (.status upstream.status, (upstream.headers.lookup (lit "retry-after")).getD [])
    else none
  | _ => none

/-- Why the attempt failed over, if it did. -/
def Attempt.cause? (a : Attempt) : Option FailureCause := (failureCause? a.answer).map Prod.fst

/-- The attempts begun. -/
def sends : List Entry → List Attempt
  | [] => []
  | ⟨t, .send model endpoint request headers, a⟩ :: l =>
    ⟨t, model, endpoint, request, headers, a⟩ :: sends l
  | _ :: l => sends l

/-- The `replica_failure` records. -/
def replicaFailures : List Entry → List (Str × Str × Str × FailureCause)
  | [] => []
  | ⟨_, .emit (.replicaFailure rid model endpoint cause), _⟩ :: l =>
    (rid, model, endpoint, cause) :: replicaFailures l
  | _ :: l => replicaFailures l

/-- The `retry` records. -/
def retries : List Entry → List (Str × Str × Str)
  | [] => []
  | ⟨_, .emit (.retry rid model endpoint), _⟩ :: l => (rid, model, endpoint) :: retries l
  | _ :: l => retries l

/-- The `request` records. -/
def requests : List Entry → List Event
  | [] => []
  | ⟨_, .emit (.request event), _⟩ :: l => event :: requests l
  | _ :: l => requests l

/-- The responses `close()` was called on, by the attempt that opened them. -/
def closes : List Entry → List ℕ
  | [] => []
  | ⟨_, .close attempt, _⟩ :: l => attempt :: closes l
  | _ :: l => closes l

/-- The responses the transport returned, by their attempt. -/
def opened : List Entry → List ℕ
  | [] => []
  | ⟨_, .send _ _ _ _, .ok _⟩ :: l => (sends l).length :: opened l
  | _ :: l => opened l

/-! ### Surroundings that behave -/

/-- Time does not run backwards along the log. -/
def Ordered (l : List Entry) (st : Entry) : Prop := ∀ prev ∈ l.head?, prev.time ≤ st.time

/-- The clock tells the time. -/
def Truthful : Entry → Prop
  | ⟨t, .clock, now⟩ => now = t
  | _ => True

/-- The event sink does not raise. -/
def SinkOk : Entry → Prop
  | ⟨_, .emit _, r⟩ => r = .ok ()
  | _ => True

instance : DecidablePred Truthful
  | ⟨t, .clock, now⟩ => inferInstanceAs (Decidable (now = t))
  | ⟨_, .utcnow, _⟩ | ⟨_, .emit _, _⟩ | ⟨_, .route _ _, _⟩ | ⟨_, .compress _ _, _⟩
  | ⟨_, .send _ _ _ _, _⟩ | ⟨_, .close _, _⟩ | ⟨_, .receive, _⟩ | ⟨_, .read _, _⟩
  | ⟨_, .iterate, _⟩ | ⟨_, .yield _, _⟩ | ⟨_, .respond, _⟩ | ⟨_, .selected _ _, _⟩ => isTrue trivial

instance : DecidablePred SinkOk
  | ⟨_, .emit _, .ok ()⟩ => isTrue rfl
  | ⟨_, .emit _, .error _⟩ => isFalse nofun
  | ⟨_, .clock, _⟩ | ⟨_, .utcnow, _⟩ | ⟨_, .route _ _, _⟩ | ⟨_, .compress _ _, _⟩
  | ⟨_, .send _ _ _ _, _⟩ | ⟨_, .close _, _⟩ | ⟨_, .receive, _⟩ | ⟨_, .read _, _⟩
  | ⟨_, .iterate, _⟩ | ⟨_, .yield _, _⟩ | ⟨_, .respond, _⟩ | ⟨_, .selected _ _, _⟩ => isTrue trivial

/-! ### A small deployment -/

namespace Demo

/-- The instant of the next answer: a second after the last one. -/
def now : List Entry → ℚ
  | [] => 0
  | e :: _ => e.time + 1

/-- `float` on the texts met here: the empty text is no number, and a text of
digits is one. -/
def float (text : Str) : Option Flt :=
  if text = [] ∨ text.any (fun c => c < 48 || 57 < c) then none
  else some (.fin (text.foldl (fun n c => 10 * n + (c - 48)) 0 : ℕ))

/-- The libraries, on the texts met here. -/
def lib : Lib where
  lower := id
  float := float
  parsedate _ := none
  loads _ _ := .error .valueError
  loadsBytes _ _ := .error .valueError
  dumps _ := .error .valueError
  render _ := .error .valueError

/-- A replica. -/
def endpoint (name : String) : Endpoint := ⟨lit name, lit "http://localhost/v1", []⟩

/-- A model with two replicas. -/
def model : Model where
  name := lit "m"
  modelId := lit "backend"
  endpoints := [endpoint "a", endpoint "b"]
  defaults := []

/-- One model, no pairs, no compression, thirty seconds of cooldown. -/
def settings : Settings where
  models := [(lit "m", model)]
  pairs := []
  apiKey := lit "secret"
  compression := false
  cooldownSeconds := 30
  forwardHeaders := []
  maxRequestBytes := 1024

/-- A request to the model. -/
def request : Payload :=
  [(lit "model", .str (lit "m")),
   (lit "messages", .list [.obj [(lit "role", .str (lit "user")), (lit "content", .str (lit "hi"))]])]

/-- A gateway that has served nothing yet. -/
def world : World := ⟨fun _ => none, fun _ => none, fun _ => { event := { requestId := [] } }⟩

/-- An upstream answer without a body. -/
def upstream (status : ℕ) (headers : Headers := []) : Upstream := ⟨status, headers, ⟨[], .eof⟩⟩

/-- Surroundings in which all is well, but for the transport and the closes. -/
def answer (send : Endpoint → Except Err Upstream) (close : Except Err Unit) (now : ℚ) :
    (q : Call) → Answer q
  | .clock | .utcnow => now
  | .emit _ => .ok ()
  | .route request _ => .ok ⟨lit "capable", request⟩
  | .compress messages _ => .ok ⟨messages, lit "no_savings", none, none, none⟩
  | .send _ endpoint _ _ => send endpoint
  | .close _ => close
  | .receive | .read _ => ()
  | .iterate => true
  | .yield _ => true
  | .respond => .ok ()
  | .selected _ _ => ()

/-- They behave: the clock tells the time and the sink does not raise. -/
theorem answer_behaves (send : Endpoint → Except Err Upstream) (close : Except Err Unit) (t : ℚ)
    (q : Call) : Truthful ⟨t, q, answer send close t q⟩ ∧ SinkOk ⟨t, q, answer send close t q⟩ := by
  cases q <;> exact ⟨by trivial, by trivial⟩

/-- Time goes on from one answer to the next. -/
theorem now_ordered (l : List Entry) (q : Call) (a : Answer q) : Ordered l ⟨now l, q, a⟩ := by
  cases l with
  | nil => intro prev h; cases h
  | cons e l =>
    intro prev h
    obtain rfl := Option.some.inj h
    change e.time ≤ e.time + 1
    linarith

end Demo

/-- A computed run, by its name, is a run of a call that others leave alone. -/
theorem run_of_exec {α : Type} {me : ℕ} {ok : List Entry → Entry → Prop}
    (env : List Entry → (q : Call) → ℚ × Answer q) (henv : ∀ l q, ok l ⟨(env l q).1, q, (env l q).2⟩)
    {p : Py α} {w : World} {l : List Entry} {run : Except Err α × World × List Entry}
    (hrun : run = exec env p w l) :
    (alone (fun w w' : World => w'.calls me = w.calls me) ok).Run p w l run.1 run.2.1 run.2.2 := by
  subst hrun
  exact exec_run (fun w w' : World => w'.calls me = w.calls me) ok (fun _ => rfl) env henv p w l

end Application
end SwitchyardGateway
