import Turnstile.Interleaving
import Turnstile.Proofs.Dialogue
/-!
# What calls have come to

However calls interleave, each of them is its program as far as its answers have led it (`sound_after`). So what
a call asks is read off its program and its own record, and a property of the state is followed along a history
by looking at the question that an event answers (`keeps`).
-/

namespace Turnstile

/-! ### Lists of calls -/

theorem of_getElem?_set {α : Type} {l : List α} {a b : α} {i j : Nat} (h : (l.set i a)[j]? = some b) :
    (i ≠ j ∧ l[j]? = some b) ∨ (i = j ∧ b = a) := by
  rw [List.getElem?_set] at h
  split at h
  · next hi =>
    split at h
    · cases h
      exact .inr ⟨hi, rfl⟩
    · cases h
  · next hi => exact .inl ⟨hi, h⟩

theorem eq_of_getElem?_snoc {α : Type} {l : List α} {a b : α} {i : Nat} (h : (l ++ [a])[i]? = some b) :
    l[i]? = some b ∨ b = a := by
  rw [List.getElem?_append] at h
  split at h
  · exact .inl h
  · refine .inr ?_
    rw [List.getElem?_singleton] at h
    split at h
    · cases h
      rfl
    · cases h

namespace Interleaving

open Dialogue

variable {R : Type} {B : R → Type} {Q : Type} {A : Q → Type} {σ X W : Type}
variable {m : Interleaving R B Q A σ X W} {s : State R B Q A σ}

/-! ### Calls and their questions -/

theorem Call.question?_eq_some_iff {c : Call R B Q A} {q : Q} :
    c.question? = some q ↔ ∃ next, c.rest = .ask q next := by
  unfold Call.question?
  split
  · next h => simp [h]
  · next q' next h =>
    constructor
    · intro hq
      cases hq
      exact ⟨next, h⟩
    · rintro ⟨next', h'⟩
      rw [h] at h'
      cases h'
      rfl

namespace State

/-- A call with a request waits for an answer to a question. -/
def Asks (s : State R B Q A σ) (i : Nat) (r : R) (q : Q) : Prop :=
  ∃ c : Call R B Q A, s.calls[i]? = some c ∧ c.request = r ∧ c.question? = some q

/-- A call has asked something and been answered. -/
def Heard (s : State R B Q A σ) (i : Nat) (x : Exchange A) : Prop :=
  ∃ c : Call R B Q A, s.calls[i]? = some c ∧ x ∈ c.asked

/-- A call waits for one answer at a time. -/
theorem Asks.unique {i : Nat} {r r' : R} {q q' : Q} (h : s.Asks i r q) (h' : s.Asks i r' q') :
    r' = r ∧ q' = q := by
  obtain ⟨c, hc, hrequest, hq⟩ := h
  obtain ⟨c', hc', hrequest', hq'⟩ := h'
  cases hc.symm.trans hc'
  exact ⟨hrequest'.symm.trans hrequest, Option.some.inj (hq'.symm.trans hq)⟩

/-- A call has been given an answer. -/
def answered (s : State R B Q A σ) (i : Nat) (c : Call R B Q A) (q : Q) (next : A q → Dialogue Q A (B c.request))
    (a : A q) (shared : σ) : State R B Q A σ where
  shared := shared
  calls := s.calls.set i { c with rest := next a, asked := c.asked ++ [⟨q, a⟩] }

end State

theorem serve_of_rest (m : Interleaving R B Q A σ X W) {i : Nat} {c : Call R B Q A} {q : Q}
    {next : A q → Dialogue Q A (B c.request)} (hc : s.calls[i]? = some c) (hrest : c.rest = .ask q next) (x : X) :
    m.serve s i x = s.answered i c q next (m.answer x q s.shared).1 (m.answer x q s.shared).2 := by
  unfold serve
  split
  · next hc' =>
    rw [hc] at hc'
    cases hc'
    cases hrest
    rfl
  · next hnone => exact absurd (by rw [hc, ← hrest]) (hnone c.request q next c.asked)

/-- An event answers the question of some call, or finds none. -/
theorem serve_cases (m : Interleaving R B Q A σ X W) (s : State R B Q A σ) (i : Nat) (x : X) :
    m.serve s i x = s ∨ ∃ (c : Call R B Q A) (q : Q) (next : A q → Dialogue Q A (B c.request)),
      s.calls[i]? = some c ∧ c.rest = .ask q next ∧
        m.serve s i x = s.answered i c q next (m.answer x q s.shared).1 (m.answer x q s.shared).2 := by
  unfold serve
  split
  · next request q next asked hc => exact .inr ⟨_, q, next, hc, rfl, rfl⟩
  · exact .inl rfl

/-! ### How far calls have come -/

/-- Each call is its program after the answers that it has been given. -/
def Sound (m : Interleaving R B Q A σ X W) (s : State R B Q A σ) : Prop :=
  ∀ (i : Nat) (c : Call R B Q A), s.calls[i]? = some c → Reaches (m.program c.request) c.asked c.rest

theorem Sound.answered (h : m.Sound s) {i : Nat} {c : Call R B Q A} {q : Q}
    {next : A q → Dialogue Q A (B c.request)} (hc : s.calls[i]? = some c) (hrest : c.rest = .ask q next)
    (a : A q) (shared : σ) : m.Sound (s.answered i c q next a shared) := by
  intro j d hd
  rcases of_getElem?_set hd with ⟨-, hd⟩ | ⟨-, rfl⟩
  · exact h j d hd
  · have hreaches := h i c hc
    rw [hrest] at hreaches
    exact hreaches.snoc a

theorem Sound.step (h : m.Sound s) (e : Event R X W) : m.Sound (m.step s e) := by
  cases e with
  | call request =>
    intro i c hc
    rcases eq_of_getElem?_snoc hc with hc | rfl
    · exact h i c hc
    · exact Reaches.refl _
  | serve i x =>
    show m.Sound (m.serve s i x)
    rcases m.serve_cases s i x with heq | ⟨c, q, next, hc, hrest, heq⟩
    · rwa [heq]
    · rw [heq]
      exact h.answered hc hrest _ _
  | act w => exact h

theorem Sound.after (h : m.Sound s) (past : List (Event R X W)) : m.Sound (m.after s past) := by
  induction past with
  | nil => exact h
  | cons e past ih => exact ih.step e

theorem sound_start (m : Interleaving R B Q A σ X W) (shared : σ) : m.Sound { shared } := by
  intro i c hc
  cases hc

/-- The answer to a question of a call, seen from the state that it meets. -/
structure Served (m : Interleaving R B Q A σ X W) (s : State R B Q A σ) (i : Nat) (x : X) (request : R)
    (asked : List (Exchange A)) (q : Q) : Prop where
  asks : s.Asks i request q
  heard : ∀ y ∈ asked, s.Heard i y
  reaches : ∃ next, Reaches (m.program request) asked (.ask q next)
  shared : (m.serve s i x).shared = (m.answer x q s.shared).2
  /-- Only the call learns something by it, and nothing but the answer. -/
  learned : ∀ j y, (m.serve s i x).Heard j y →
    s.Heard j y ∨ (j = i ∧ y = ⟨q, (m.answer x q s.shared).1⟩)

theorem Sound.served_of_asks (h : m.Sound s) {i : Nat} {request : R} {q : Q} (hasks : s.Asks i request q)
    (x : X) : ∃ asked, m.Served s i x request asked q := by
  obtain ⟨c, hc, rfl, hq⟩ := hasks
  obtain ⟨next, hrest⟩ := Call.question?_eq_some_iff.1 hq
  have hreaches := h i c hc
  rw [hrest] at hreaches
  have heq := m.serve_of_rest hc hrest x
  refine ⟨c.asked, ⟨c, hc, rfl, hq⟩, fun y hy => ⟨c, hc, hy⟩, ⟨next, hreaches⟩, ?_, ?_⟩
  · rw [heq]
    rfl
  · rintro j y ⟨d, hd, hy⟩
    rw [heq] at hd
    rcases of_getElem?_set hd with ⟨-, hd⟩ | ⟨rfl, rfl⟩
    · exact .inl ⟨d, hd, hy⟩
    · rcases List.mem_append.1 hy with hy | hy
      · exact .inl ⟨c, hc, hy⟩
      · exact .inr ⟨rfl, List.mem_singleton.1 hy⟩

theorem Sound.served (h : m.Sound s) (i : Nat) (x : X) :
    m.serve s i x = s ∨ ∃ request asked q, m.Served s i x request asked q := by
  rcases m.serve_cases s i x with heq | ⟨c, q, next, hc, hrest, -⟩
  · exact .inl heq
  · have hasks : s.Asks i c.request q := ⟨c, hc, rfl, Call.question?_eq_some_iff.2 ⟨next, hrest⟩⟩
    obtain ⟨asked, hserved⟩ := h.served_of_asks hasks x
    exact .inr ⟨c.request, asked, q, hserved⟩

/-- A new call has learned nothing yet. -/
theorem heard_of_call {request : R} {i : Nat} {y : Exchange A} (h : (m.step s (.call request)).Heard i y) :
    s.Heard i y := by
  obtain ⟨c, hc, hy⟩ := h
  rcases eq_of_getElem?_snoc hc with hc | rfl
  · exact ⟨c, hc, hy⟩
  · cases hy

/-! ### Along a history -/

/-- No event of a history is of a kind, in the state that it meets. -/
def Avoids (m : Interleaving R B Q A σ X W) (kind : State R B Q A σ → Event R X W → Prop)
    (s : State R B Q A σ) : List (Event R X W) → Prop
  | [] => True
  | e :: past => m.Avoids kind s past ∧ ¬ kind (m.after s past) e

/-- What each event keeps that is not of a kind, a history without such events keeps. -/
theorem keeps {kind : State R B Q A σ → Event R X W → Prop} {P : State R B Q A σ → Prop} (hsound : m.Sound s)
    (hstart : P s) (hstep : ∀ s e, m.Sound s → P s → ¬ kind s e → P (m.step s e))
    {past : List (Event R X W)} (havoids : m.Avoids kind s past) : P (m.after s past) := by
  induction past with
  | nil => exact hstart
  | cons e past ih => exact hstep _ e (hsound.after past) (ih havoids.1) havoids.2

end Interleaving

end Turnstile
