import Turnstile.Proofs.Time.Instant
import Turnstile.Remote.Keyspace
/-!
# Counters in the keyspace

What counting does to a key: a free key becomes a counter with the deadline of the command, a counter goes
up by one and keeps its deadline, and a counter that is full stays as it is. A key is dropped only when its
deadline has passed.
-/

namespace Turnstile.Remote.Keyspace

open Time

variable {k : Keyspace} {name : String}

theorem millis_ofMillis (m : Int) : millis (.ofMillis m) = m := by
  obtain ⟨hdiv, hnonneg, -⟩ := fdiv_fmod_spec m (show (0 : Int) < 1000 by decide)
  simp only [millis, Instant.ofMillis]
  omega

/-! ### Counting -/

theorem execute_count_of_none {m : Int} {ttl : Nat} (hfree : k.get? name = none) (hpos : 0 < ttl)
    (hfits : m + ttl ≤ Text.maxInt64) :
    k.execute (.ofMillis m) (.count name ttl)
      = (.ok 1, k.insert name { content := .count 1, deadline := some (.ofMillis (m + ttl)) }) := by
  have hlater : ¬ Instant.ofMillis (m + ttl) ≤ Instant.ofMillis m := by
    rw [not_le, Instant.ofMillis_lt_ofMillis_iff]
    omega
  have hexpire : expireIn (k.insert name { content := .count 1 }) (.ofMillis m) name ttl
      = .ok (k.insert name { content := .count 1, deadline := some (.ofMillis (m + ttl)) }) := by
    rw [expireIn, millis_ofMillis, if_neg (by omega)]
    simp only [Table.get?_insert_self, put, hlater, if_false, Table.insert_insert]
  simp [execute, increment, hfree, hexpire]

/-- A counter that has counted something never counts its first again, so its deadline stays. -/
theorem execute_count_of_some {now : Instant} {ttl : Nat} {n : Int} {deadline : Option Instant}
    (hfound : k.get? name = some { content := .count n, deadline }) (hpos : 1 ≤ n)
    (hfull : n < Text.maxInt64) :
    k.execute now (.count name ttl)
      = (.ok (n + 1), k.insert name { content := .count (n + 1), deadline }) := by
  have hlater : n + 1 ≠ 1 := by omega
  simp only [execute, increment, hfound, hfull, if_true, hlater, if_false]

theorem execute_count_of_full {now : Instant} {ttl : Nat} {n : Int} {deadline : Option Instant}
    (hfound : k.get? name = some { content := .count n, deadline }) (hfull : ¬ n < Text.maxInt64) :
    k.execute now (.count name ttl) = (.error overflow, k) := by
  simp only [execute, increment, hfound, hfull, if_false]

/-! ### Dropping keys -/

/-- A key stays as it is when some key may be dropped, or it has been dropped because its deadline has passed. -/
theorem get?_lapse_cases (k : Keyspace) (now : Instant) (dropped name : String) :
    (k.lapse now dropped).get? name = k.get? name ∨
      (k.lapse now dropped).get? name = none ∧
        ∃ content deadline, k.get? name = some { content, deadline := some deadline } ∧ deadline ≤ now := by
  unfold lapse
  split
  · next hlapsed =>
    by_cases hname : name = dropped
    · subst hname
      refine Or.inr ⟨Table.get?_erase_self k name, ?_⟩
      unfold isLapsed at hlapsed
      split at hlapsed
      · next content deadline hget => exact ⟨content, deadline, hget, by simpa using hlapsed⟩
      · cases hlapsed
    · exact Or.inl (Table.get?_erase_of_ne k hname)
  · exact Or.inl rfl

/-- What is there after a key may have been dropped was there before. -/
theorem get?_of_get?_lapse {now : Instant} {dropped : String} {slot : Slot}
    (h : (k.lapse now dropped).get? name = some slot) : k.get? name = some slot := by
  rcases get?_lapse_cases k now dropped name with heq | ⟨hnone, -⟩
  · rwa [heq] at h
  · cases h.symm.trans hnone

/-- A key whose deadline lies ahead stays. -/
theorem get?_lapse_of_lt {now deadline : Instant} {dropped : String} {content : Content}
    (h : k.get? name = some { content, deadline := some deadline }) (hahead : now < deadline) :
    (k.lapse now dropped).get? name = some { content, deadline := some deadline } := by
  rcases get?_lapse_cases k now dropped name with heq | ⟨-, content', deadline', hget, hpassed⟩
  · rw [heq, h]
  · cases h.symm.trans hget
    exact absurd hahead (not_lt.2 hpassed)

end Turnstile.Remote.Keyspace
