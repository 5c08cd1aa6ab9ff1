/-
# Exit stacks

A program that acquires resources one after the other pushes a callback for each onto
a stack.  However its body ends, the callbacks run then, the newest first, and an error
of one of them does not keep the others from running: it takes the place of whatever
was about to be raised.

The stack is part of the state and holds the names of the callbacks, so the callbacks
themselves are a function of the name.  `wp_withStack` is the rule of the construction:
an assertion that speaks of what is still on the stack and of what is about to be
raised, and that every callback keeps, holds at the end with nothing on the stack.
-/

import SwitchyardGateway.Coop.Logic

namespace SwitchyardGateway
namespace Coop

/-- A state with an exit stack: the names that were pushed, the newest first. -/
structure Stacked (κ σ : Type) where
  stack : List κ
  rest : σ

variable {κ σ Q L : Type} {A : Q → Type} {ε α : Type}

namespace Prog

/-- Push a callback. -/
def push (name : κ) : Prog (Stacked κ σ) Q A ε Unit :=
  update fun s => { s with stack := name :: s.stack }

/-- Run the callbacks of a stack, each whatever the others raise, from what is about to
be raised to what is raised in the end. -/
def unwind (callback : κ → Prog (Stacked κ σ) Q A ε Unit) :
    List κ → Except ε α → Prog (Stacked κ σ) Q A ε (Except ε α)
  | [], r => return r
  | name :: names, r => do
    match ← (callback name).attempt with
    | .ok () => unwind callback names r
    | .error e => unwind callback names (.error e)

/-- `async with AsyncExitStack() as stack`, with callbacks that push no others. -/
def withStack (callback : κ → Prog (Stacked κ σ) Q A ε Unit) (body : Prog (Stacked κ σ) Q A ε α) :
    Prog (Stacked κ σ) Q A ε α := do
  update fun s => { s with stack := [] }
  let r ← body.attempt
  let r ← unwind callback (← read).stack r
  ofExcept r

end Prog

namespace Discipline

open Prog

variable {D : Discipline (Stacked κ σ) Q A L} {callback : κ → Prog (Stacked κ σ) Q A ε Unit}
  {J : List κ → Except ε α → Stacked κ σ → L → Prop} {s : Stacked κ σ} {l : L}

/-- **Unwinding** keeps what every callback keeps, however it ends. -/
theorem wp_unwind
    (hstep : ∀ name names r s l, J (name :: names) r s l →
      D.wp (callback name) (fun _ => J names r) (fun e => J names (.error e)) s l)
    (names : List κ) {r : Except ε α} {err : ε → Stacked κ σ → L → Prop} (h : J names r s l) :
    D.wp (unwind callback names r) (fun r => J [] r) err s l := by
  induction names generalizing r s l with
  | nil => exact h
  | cons name names ih =>
    simp only [unwind, Prog.attempt, wp_bind, wp_tryCatch, wp_pure]
    exact wp_mono (fun _ _ _ h => ih h) (fun _ _ _ h => ih h) (hstep name names r s l h)

/-- **An exit stack**: what the body leaves on it is unwound. -/
theorem wp_withStack {body : Prog (Stacked κ σ) Q A ε α}
    (hstep : ∀ name names r s l, J (name :: names) r s l →
      D.wp (callback name) (fun _ => J names r) (fun e => J names (.error e)) s l)
    (hbody : D.wp body (fun a s l => J s.stack (.ok a) s l) (fun e s l => J s.stack (.error e) s l)
      { s with stack := [] } l) :
    D.wp (withStack callback body) (fun a => J [] (.ok a)) (fun e => J [] (.error e)) s l := by
  have hunwind : ∀ (r : Except ε α) s l, J s.stack r s l → D.wp (unwind callback s.stack r)
      (fun r => D.wp (ofExcept r) (fun a => J [] (.ok a)) (fun e => J [] (.error e)))
      (fun e => J [] (.error e)) s l := by
    intro r s l h
    refine wp_mono (fun r s l h => ?_) (fun _ _ _ h => h) (wp_unwind hstep _ h)
    rw [wp_ofExcept]
    cases r with
    | ok a => exact h
    | error e => exact h
  simp only [withStack, Prog.attempt, wp_bind, wp_update, wp_tryCatch, wp_pure, wp_read]
  exact wp_mono (fun a s l h => hunwind (.ok a) s l h) (fun e s l h => hunwind (.error e) s l h) hbody

end Discipline
end Coop
end SwitchyardGateway
