import Turnstile.Dialogue
/-!
# Calls that interleave

Any number of calls that work on one shared state. Each call runs the program of its request, and between two
questions of it anything may happen: other calls are answered, new ones are made, and the surroundings act of
their own accord. A question is answered in one step. A call that has been given up is one that is not answered
any more; a call remembers what it has asked and been answered.
-/

namespace Turnstile

/-- What is called, and what answers: a turn says what an answer depends on besides the shared state, and an
act is something that happens to the state without being asked for. -/
structure Interleaving (R : Type) (B : R → Type) (Q : Type) (A : Q → Type) (σ X W : Type) where
  program : (r : R) → Dialogue Q A (B r)
  answer : X → (q : Q) → σ → A q × σ
  act : W → σ → σ

namespace Interleaving

variable {R : Type} {B : R → Type} {Q : Type} {A : Q → Type} {σ X W : Type}

structure Call (R : Type) (B : R → Type) (Q : Type) (A : Q → Type) where
  request : R
  rest : Dialogue Q A (B request)
  /-- The questions so far with their answers, in order. -/
  asked : List ((q : Q) × A q) := []

/-- The question that a call waits to have answered. -/
def Call.question? (c : Call R B Q A) : Option Q :=
  match c.rest with
  | .done _ => none
  | .ask q _ => some q

structure State (R : Type) (B : R → Type) (Q : Type) (A : Q → Type) (σ : Type) where
  shared : σ
  /-- The calls, numbered from zero. -/
  calls : List (Call R B Q A) := []

inductive Event (R X W : Type) where
  | call (request : R)
  /-- The question of a call is answered. -/
  | serve (call : Nat) (turn : X)
  | act (w : W)

def serve (m : Interleaving R B Q A σ X W) (s : State R B Q A σ) (i : Nat) (x : X) : State R B Q A σ :=
  match s.calls[i]? with
  | some { request, rest := .ask q next, asked } =>
    let (a, shared) := m.answer x q s.shared
    { shared, calls := s.calls.set i { request, rest := next a, asked := asked ++ [⟨q, a⟩] } }
  | _ => s

/-- What an event does; one that cannot happen does nothing. -/
def step (m : Interleaving R B Q A σ X W) (s : State R B Q A σ) : Event R X W → State R B Q A σ
  | .call request => { s with calls := s.calls ++ [{ request, rest := m.program request }] }
  | .serve i x => m.serve s i x
  | .act w => { s with shared := m.act w s.shared }

/-- The state after a history of events, whose latest comes first. -/
def after (m : Interleaving R B Q A σ X W) (s : State R B Q A σ) : List (Event R X W) → State R B Q A σ
  | [] => s
  | e :: past => m.step (m.after s past) e

end Interleaving

end Turnstile
