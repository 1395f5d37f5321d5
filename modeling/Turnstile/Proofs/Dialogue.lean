import Turnstile.Dialogue
/-!
# What is asked and answered

A run of a dialogue leaves a record: the questions with their answers, in order. The record says how far
the dialogue has come (`Reaches`), whatever the surroundings were, and a property of all records is proved
by following the dialogue alone (`Keeps`): what holds at every question and at the end holds for every
run, also one that is broken off at its deadline or by a fault of its surroundings (`Keeps.runUntil`).
-/

namespace Turnstile.Dialogue

variable {Q Q' σ ε α β : Type} {A : Q → Type} {A' : Q' → Type}

/-! ### Records -/

abbrev Exchange (A : Q → Type) := (q : Q) × A q

/-- How far a dialogue has come after some exchanges. -/
inductive Reaches : Dialogue Q A α → List (Exchange A) → Dialogue Q A α → Prop where
  | refl (d : Dialogue Q A α) : Reaches d [] d
  | step {q : Q} {a : A q} {next : A q → Dialogue Q A α} {t : List (Exchange A)}
      {d : Dialogue Q A α} (h : Reaches (next a) t d) : Reaches (.ask q next) (⟨q, a⟩ :: t) d

namespace Reaches

variable {d d₁ d₂ : Dialogue Q A α} {t : List (Exchange A)}

/-- The record decides how far the dialogue has come. -/
theorem unique (h₁ : Reaches d t d₁) (h₂ : Reaches d t d₂) : d₁ = d₂ := by
  induction h₁ with
  | refl d =>
    cases h₂
    rfl
  | step _ ih =>
    cases h₂ with
    | step h => exact ih h

theorem snoc {q : Q} {next : A q → Dialogue Q A α} (h : Reaches d t (.ask q next)) (a : A q) :
    Reaches d (t ++ [⟨q, a⟩]) (next a) := by
  generalize hd : Dialogue.ask q next = e at h
  induction h with
  | refl d =>
    subst hd
    exact step (refl _)
  | step _ ih => exact step (ih hd)

end Reaches

/-- A dialogue still stands at its question, or has been answered and gone on from there. -/
theorem Reaches.of_ask {q q' : Q} {next : A q → Dialogue Q A α} {next' : A q' → Dialogue Q A α}
    {t : List (Exchange A)} (h : Reaches (.ask q next) t (.ask q' next')) :
    (t = [] ∧ q' = q) ∨ ∃ a t', t = ⟨q, a⟩ :: t' ∧ Reaches (next a) t' (.ask q' next') := by
  cases h with
  | refl => exact .inl ⟨rfl, rfl⟩
  | step h => exact .inr ⟨_, _, rfl, h⟩

/-- What is done asks nothing more. -/
theorem not_reaches_done {a : α} {q : Q} {next : A q → Dialogue Q A α} {t : List (Exchange A)} :
    ¬ Reaches (.done a) t (.ask q next) := by
  intro h
  cases h

/-- A last question is all that is left to ask. -/
theorem Reaches.of_last {q q' : Q} {next : A q → Dialogue Q A α} {next' : A q' → Dialogue Q A α}
    {t : List (Exchange A)} (h : Reaches (.ask q next) t (.ask q' next'))
    (hlast : ∀ a, ∃ b, next a = .done b) : t = [] ∧ q' = q := by
  rcases h.of_ask with hstands | ⟨a, t', rfl, hrest⟩
  · exact hstands
  · obtain ⟨b, hb⟩ := hlast a
    rw [hb] at hrest
    exact absurd hrest not_reaches_done

/-- Surroundings that keep the record of what they are asked, also of a question that breaks the run. -/
def recorded (answer : (q : Q) → σ → Except ε (A q × σ)) (q : Q) (s : σ × List (Exchange A)) :
    Except (ε × List (Exchange A) × Q) (A q × σ × List (Exchange A)) :=
  match answer q s.1 with
  | .error e => .error (e, s.2, q)
  | .ok (a, s') => .ok (a, s', s.2 ++ [⟨q, a⟩])

theorem runUntil_zero (answer : (q : Q) → σ → Except ε (A q × σ)) (wait : (q : Q) → A q → Nat)
    (d : Dialogue Q A α) (s : σ) : d.runUntil answer wait 0 s = .ok (.cut, s) := by
  cases d with
  | done a => rfl
  | ask q next => rfl

/-- How long all answers of a record were waited for. -/
def waited (wait : (q : Q) → A q → Nat) (t : List (Exchange A)) : Nat :=
  t.foldr (fun x n => wait x.1 x.2 + n) 0

theorem waited_snoc (wait : (q : Q) → A q → Nat) (t : List (Exchange A)) (q : Q) (a : A q) :
    waited wait (t ++ [⟨q, a⟩]) = waited wait t + wait q a := by
  induction t with
  | nil => simp [waited]
  | cons x rest ih =>
    simp only [waited, List.cons_append, List.foldr_cons] at ih ⊢
    omega

def forget {T T' : Type} : Except (ε × T') (β × σ × T) → Except ε (β × σ)
  | .error (e, _) => .error e
  | .ok (b, s, _) => .ok (b, s)

theorem forget_runUntil_recorded (answer : (q : Q) → σ → Except ε (A q × σ))
    (wait : (q : Q) → A q → Nat) (d : Dialogue Q A α) (left : Nat) (s : σ) (t : List (Exchange A)) :
    forget (d.runUntil (recorded answer) wait left (s, t)) = d.runUntil answer wait left s := by
  induction d generalizing left s t with
  | done a => cases left <;> rfl
  | ask q next ih =>
    cases left with
    | zero => rfl
    | succ left =>
      simp only [runUntil, recorded]
      cases answer q s with
      | error e => rfl
      | ok a => exact ih a.1 _ a.2 _

/-- Whatever comes on the record was answered by the surroundings, from some state. -/
theorem answered_of_mem_record {answer : (q : Q) → σ → Except ε (A q × σ)} {wait : (q : Q) → A q → Nat}
    {d : Dialogue Q A α} {left : Nat} {s s' : σ} {t t' : List (Exchange A)} {ending : Ending α}
    (h : d.runUntil (recorded answer) wait left (s, t) = .ok (ending, s', t')) {x : Exchange A} (hx : x ∈ t') :
    x ∈ t ∨ ∃ s₁ s₂, answer x.1 s₁ = .ok (x.2, s₂) := by
  induction d generalizing left s t with
  | done a =>
    cases left with
    | zero =>
      cases h
      exact Or.inl hx
    | succ left =>
      cases h
      exact Or.inl hx
  | ask q next ih =>
    cases left with
    | zero =>
      cases h
      exact Or.inl hx
    | succ left =>
      cases hans : answer q s with
      | error e =>
        simp only [runUntil, recorded, hans] at h
        cases h
      | ok a =>
        obtain ⟨a, s₁⟩ := a
        simp only [runUntil, recorded, hans] at h
        rcases ih a h with hx | hx
        · rcases List.mem_append.1 hx with hx | hx
          · exact Or.inl hx
          · rw [List.mem_singleton.1 hx]
            exact Or.inr ⟨s, s₁, hans⟩
        · exact Or.inr hx

/-! ### Properties of all records -/

/-- At every question that can come up `ok` holds of the record and the question, and at the end `post`
of the record and the result. -/
def Keeps (ok : List (Exchange A) → Q → Prop) (post : List (Exchange A) → α → Prop) :
    Dialogue Q A α → List (Exchange A) → Prop
  | done a, t => post t a
  | ask q next, t => ok t q ∧ ∀ a, (next a).Keeps ok post (t ++ [⟨q, a⟩])

namespace Keeps

variable {ok : List (Exchange A) → Q → Prop} {post : List (Exchange A) → α → Prop}

theorem bind {post' : List (Exchange A) → β → Prop} {d : Dialogue Q A α}
    {f : α → Dialogue Q A β} {t : List (Exchange A)} (h : d.Keeps ok post t)
    (hf : ∀ t a, post t a → (f a).Keeps ok post' t) : (d >>= f).Keeps ok post' t := by
  change (d.bind f).Keeps ok post' t
  induction d generalizing t with
  | done a => exact hf t a h
  | ask q next ih => exact ⟨h.1, fun a => ih a (h.2 a)⟩

/-- What a record comes to when its dialogue has been run: the result, a deadline that has passed while
waiting, or a fault at a question that was due. -/
theorem runUntil {d : Dialogue Q A α} {t : List (Exchange A)} (h : d.Keeps ok post t)
    (answer : (q : Q) → σ → Except ε (A q × σ)) (wait : (q : Q) → A q → Nat) (left : Nat) (s : σ) :
    match d.runUntil (recorded answer) wait left (s, t) with
    | .ok (.finished a, _, t') => post t' a
    | .ok (.cut, _, t') =>
      waited wait t + left ≤ waited wait t' ∧ ∃ d' : Dialogue Q A α, d'.Keeps ok post t'
    | .error (e, t', q) => ok t' q ∧ ∃ s', answer q s' = .error e := by
  induction d generalizing left s t with
  | done a =>
    cases left with
    | zero => exact ⟨Nat.le_refl _, _, h⟩
    | succ left => exact h
  | ask q next ih =>
    cases left with
    | zero => exact ⟨Nat.le_refl _, _, h⟩
    | succ left =>
      simp only [Dialogue.runUntil, recorded]
      cases hans : answer q s with
      | error e => exact ⟨h.1, s, hans⟩
      | ok a =>
        obtain ⟨a, s'⟩ := a
        have hrest := ih a (h.2 a) (left + 1 - wait q a) s'
        rcases hrun : (next a).runUntil (recorded answer) wait (left + 1 - wait q a)
          (s', t ++ [⟨q, a⟩]) with ⟨e, t', q'⟩ | ⟨_ | _, s'', t'⟩
        · simpa only [hrun] using hrest
        · simpa only [hrun] using hrest
        · simp only [hrun, waited_snoc] at hrest ⊢
          exact ⟨by omega, hrest.2⟩

end Keeps

/-! ### Answers that are known beforehand -/

/-- The result of a dialogue, if all that it asks is known beforehand. -/
def foretold (known : (q : Q) → Option (A q)) : Dialogue Q A α → Option α
  | done a => some a
  | ask q next => (known q).bind fun a => (next a).foretold known

section Foretold

variable {τ : Type} {known : (q : Q) → Option (A q)}

theorem foretold_bind (known : (q : Q) → Option (A q)) (d : Dialogue Q A α) (f : α → Dialogue Q A β) :
    (d >>= f).foretold known = (d.foretold known).bind fun a => (f a).foretold known := by
  change (d.bind f).foretold known = _
  induction d with
  | done a => rfl
  | ask q next ih =>
    simp only [Dialogue.bind, foretold]
    cases known q with
    | none => rfl
    | some a => exact ih a

/-- Surroundings that answer as is known beforehand, at once, and keep a part of their state. -/
structure Foreseen (known : (q : Q) → Option (A q)) (answer : (q : Q) → σ → Except ε (A q × σ))
    (wait : (q : Q) → A q → Nat) (part : σ → τ) : Prop where
  answers (q : Q) (a : A q) (s : σ) (h : known q = some a) : ∃ s', answer q s = .ok (a, s') ∧ part s' = part s
  at_once (q : Q) (a : A q) (h : known q = some a) : wait q a = 0

/-- What is known beforehand comes true, unless there is no time at all. -/
theorem runUntil_of_foretold {answer : (q : Q) → σ → Except ε (A q × σ)} {wait : (q : Q) → A q → Nat}
    {part : σ → τ} (h : Foreseen known answer wait part) {d : Dialogue Q A α} {a : α}
    (hd : d.foretold known = some a) (left : Nat) (s : σ) :
    ∃ s', d.runUntil answer wait left s = .ok (if left = 0 then .cut else .finished a, s') ∧
      part s' = part s := by
  cases left with
  | zero => exact ⟨s, runUntil_zero answer wait d s, rfl⟩
  | succ left =>
    induction d generalizing s with
    | done b =>
      cases hd
      exact ⟨s, rfl, rfl⟩
    | ask q next ih =>
      obtain ⟨b, hb, hnext⟩ := Option.bind_eq_some_iff.1 hd
      obtain ⟨s₁, hanswer, hpart₁⟩ := h.answers q b s hb
      obtain ⟨s₂, hrun, hpart₂⟩ := ih b hnext s₁
      refine ⟨s₂, ?_, hpart₂.trans hpart₁⟩
      simp only [runUntil, hanswer, h.at_once q b hb, Nat.sub_zero]
      exact hrun

end Foretold

end Turnstile.Dialogue
