/-
# Cooperative programs

A program of a single-threaded event loop, as a tree.  It reads and writes a
state that other programs share, it asks its surroundings (a clock, a socket,
another library) and it ends by returning or by raising.  A question hands its
answer to the rest of the program, and which answer that is the surroundings
decide, so one tree holds every behaviour of the code it models.  A question
may be called, which keeps control, or awaited, which lets others run until
the answer is there.

Nothing here fixes what the state, the calls or the errors are.  `Prog` is a
monad in its results and carries the exception discipline of an imperative
language: `tryCatch` and `finallyDo` see the writes made before the error,
because a write is a step of the tree and is never undone.
-/

import Mathlib.Data.List.Basic
import Mathlib.Tactic.Common

namespace SwitchyardGateway
namespace Coop

/-- A program over a shared state `σ` that asks its surroundings questions
`q : Q`, is answered in `A q`, and ends in an `α` or an error `ε`. -/
inductive Prog (σ Q : Type) (A : Q → Type) (ε α : Type) where
  | ret (a : α)
  | raise (e : ε)
  | get (k : σ → Prog σ Q A ε α)
  | put (s : σ) (k : Prog σ Q A ε α)
  | call (q : Q) (k : A q → Prog σ Q A ε α)
  | await (q : Q) (k : A q → Prog σ Q A ε α)

namespace Prog

variable {σ Q : Type} {A : Q → Type} {ε α β γ : Type}

/-- Run `p`, then `f` on its result; an error of `p` ends both. -/
def bind : Prog σ Q A ε α → (α → Prog σ Q A ε β) → Prog σ Q A ε β
  | .ret a, f => f a
  | .raise e, _ => .raise e
  | .get k, f => .get fun s => (k s).bind f
  | .put s k, f => .put s (k.bind f)
  | .call q k, f => .call q fun a => (k a).bind f
  | .await q k, f => .await q fun a => (k a).bind f

/-- Run `p`; on an error run the handler, on the state the error left. -/
def handle : Prog σ Q A ε α → (ε → Prog σ Q A ε α) → Prog σ Q A ε α
  | .ret a, _ => .ret a
  | .raise e, h => h e
  | .get k, h => .get fun s => (k s).handle h
  | .put s k, h => .put s (k.handle h)
  | .call q k, h => .call q fun a => (k a).handle h
  | .await q k, h => .await q fun a => (k a).handle h

instance : Monad (Prog σ Q A ε) where
  pure := .ret
  bind := bind

instance : MonadExceptOf ε (Prog σ Q A ε) where
  throw := .raise
  tryCatch := handle

/-- Read the shared state. -/
def read : Prog σ Q A ε σ := .get .ret

/-- Rewrite the shared state. -/
def update (f : σ → σ) : Prog σ Q A ε Unit := .get fun s => .put (f s) (.ret ())

/-- Ask, and keep control. -/
def ask (q : Q) : Prog σ Q A ε (A q) := .call q .ret

/-- Ask, and let others run until the answer is there. -/
def askAwait (q : Q) : Prog σ Q A ε (A q) := .await q .ret

/-- A result that may already be an error. -/
def ofExcept : Except ε α → Prog σ Q A ε α
  | .ok a => .ret a
  | .error e => .raise e

/-- Run `p` and keep how it ended. -/
def attempt (p : Prog σ Q A ε α) : Prog σ Q A ε (Except ε α) :=
  tryCatch (p >>= fun a => pure (.ok a)) fun e => pure (.error e)

/-- `try p finally f`: `f` runs however `p` ended, and an error of `f`
replaces the end of `p`. -/
def finallyDo (p : Prog σ Q A ε α) (f : Prog σ Q A ε Unit) : Prog σ Q A ε α := do
  let r ← p.attempt
  f
  ofExcept r

end Prog
end Coop
end SwitchyardGateway
