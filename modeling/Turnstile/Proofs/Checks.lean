/-!
# Sequences of checks

What it means that a computation which may stop with a fault at any of its steps comes to its end: each step
has passed, and what the next one starts from is what it gave.
-/

namespace Turnstile.Checks

variable {ε α β : Type} {fault : ε} {b : β}

theorem bind_eq_ok_iff {x : Except ε α} {f : α → Except ε β} :
    (x >>= f) = .ok b ↔ ∃ a, x = .ok a ∧ f a = .ok b := by
  cases x with
  | error e => simp [bind, Except.bind]
  | ok a => simp [bind, Except.bind]

/-- A check that gives nothing to what comes after it. -/
theorem check_bind_eq_ok_iff {x : Except ε Unit} {y : Except ε β} :
    (x >>= fun _ => y) = .ok b ↔ x = .ok () ∧ y = .ok b := by
  cases x with
  | error e => simp [bind, Except.bind]
  | ok _ => simp [bind, Except.bind]

theorem map_eq_ok_iff {f : α → β} {x : Except ε α} : x.map f = .ok b ↔ ∃ a, x = .ok a ∧ f a = b := by
  cases x with
  | error e => simp [Except.map]
  | ok a => simp [Except.map]

theorem map_eq_error_iff {f : α → β} {x : Except ε α} : x.map f = .error fault ↔ x = .error fault := by
  cases x with
  | error e => simp [Except.map]
  | ok a => simp [Except.map]

theorem throw_ne_ok : (throw fault : Except ε β) ≠ .ok b := by
  intro h
  cases h

theorem pure_eq_ok_iff {c : β} : (pure c : Except ε β) = .ok b ↔ c = b := by
  simp [pure, Except.pure]

/-- A check in front of a computation: what stands behind it is not reached when it fails. -/
theorem guard_eq_ok_iff {p : Prop} [Decidable p] {f : α → Except ε β} {x : Except ε β} :
    (if p then throw fault >>= f else x) = .ok b ↔ ¬ p ∧ x = .ok b := by
  by_cases hp : p
  · simp [hp, bind_eq_ok_iff, throw_ne_ok]
  · simp [hp]

/-- A check at the end of a computation. -/
theorem lastGuard_eq_ok_iff {p : Prop} [Decidable p] {x : Except ε β} :
    (if p then throw fault else x) = .ok b ↔ ¬ p ∧ x = .ok b := by
  by_cases hp : p
  · simp [hp, throw_ne_ok]
  · simp [hp]

end Turnstile.Checks
