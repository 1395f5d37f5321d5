/-!
# Dialogues

A computation that asks questions of its surroundings and goes on from the answers. The gateway's
decisions are written as dialogues, so what they ask, in which order and how often, is part of what they
are, and the same decision can be run against stores in memory, against a server, or against answers
chosen at will. `run` answers every question from a state; `runUntil` also keeps time and breaks off at
a deadline.
-/

namespace Turnstile

/-- A computation that asks questions `q : Q` and is answered in `A q`. -/
inductive Dialogue (Q : Type) (A : Q → Type) (α : Type) where
  | done (a : α)
  | ask (q : Q) (next : A q → Dialogue Q A α)

namespace Dialogue

variable {Q Q' σ ε α β : Type} {A : Q → Type} {A' : Q' → Type}

def bind (d : Dialogue Q A α) (f : α → Dialogue Q A β) : Dialogue Q A β :=
  match d with
  | done a => f a
  | ask q next => ask q fun a => (next a).bind f

instance : Monad (Dialogue Q A) where
  pure := done
  bind := bind

/-- Puts the questions of a dialogue into a wider dialogue. -/
def embed (put : Q → Q') (get : (q : Q) → A' (put q) → A q) : Dialogue Q A α → Dialogue Q' A' α
  | done a => done a
  | ask q next => ask (put q) fun a => (next (get q a)).embed put get

def run (answer : (q : Q) → σ → Except ε (A q × σ)) : Dialogue Q A α → σ → Except ε (α × σ)
  | done a, s => .ok (a, s)
  | ask q next, s =>
    match answer q s with
    | .error e => .error e
    | .ok (a, s) => (next a).run answer s

inductive Ending (α : Type) where
  | finished (a : α)
  | cut
deriving Repr

/-- Answers questions from a state until a deadline; `wait` says how long an answer was waited for. A
dialogue with no time at all is not begun, and one that is still waiting at the deadline is broken off;
the state is that after the question it was waiting for. -/
def runUntil (answer : (q : Q) → σ → Except ε (A q × σ)) (wait : (q : Q) → A q → Nat) :
    Nat → Dialogue Q A α → σ → Except ε (Ending α × σ)
  | 0, _, s => .ok (.cut, s)
  | _ + 1, done a, s => .ok (.finished a, s)
  | left + 1, ask q next, s =>
    match answer q s with
    | .error e => .error e
    | .ok (a, s) => runUntil answer wait (left + 1 - wait q a) (next a) s

end Dialogue

structure Timed (α : Type) where
  value : α
  delay : Nat := 0
deriving DecidableEq, Repr

namespace Timed

variable {α : Type}

/-- The answer, if it comes within a time limit; one that comes at the limit does. -/
def within? (limit : Nat) (t : Timed α) : Option α :=
  if t.delay ≤ limit then some t.value else none

/-- How long is waited for an answer under a time limit. -/
def waited (limit : Nat) (t : Timed α) : Nat := min t.delay limit

end Timed

end Turnstile
