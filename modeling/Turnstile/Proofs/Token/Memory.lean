import Turnstile.Proofs.Time.Instant
import Turnstile.Token.Memory
/-!
# What a token store shows

Dead records are removed at some time or other, so the table itself depends on who has looked a key up. What
a look-up can find does not: it is the record of the key as long as it is alive (`aliveAt`), and the
operations are described by what they do to that.
-/

namespace Turnstile.TokenTable

open Time

variable {t : TokenTable} {now x : Instant} {key : String} {r : TokenRecord}

/-- A record as far as it is alive at an instant. -/
def aliveAt (x : Instant) (o : Option TokenRecord) : Option TokenRecord :=
  o.filter fun r => x < r.expiresAt

theorem aliveAt_eq_some_iff {o : Option TokenRecord} :
    aliveAt x o = some r ↔ o = some r ∧ x < r.expiresAt := by
  simp [aliveAt, Option.filter_eq_some_iff]

theorem aliveAt_of_expired (h : r.expiresAt ≤ x) : aliveAt x (some r) = none := by
  simp [aliveAt, Option.filter_some, not_lt.2 h]

theorem fetch_of_none (hkey : key ≠ "") (hget : t.get? key = none) :
    t.fetch now key = (.error .notFound, t) := by
  simp [fetch, String.isEmpty_iff, hkey, hget]

theorem fetch_of_expired (hkey : key ≠ "") (hget : t.get? key = some r) (hexpired : r.expiresAt ≤ now) :
    t.fetch now key = (.error .expired, t.erase key) := by
  simp [fetch, String.isEmpty_iff, hkey, dropExpired, hget, TokenRecord.isExpiredAt, hexpired]

theorem fetch_of_lt (hkey : key ≠ "") (hget : t.get? key = some r) (halive : now < r.expiresAt) :
    t.fetch now key = (.ok r, t) := by
  simp [fetch, String.isEmpty_iff, hkey, hget, TokenRecord.isExpiredAt, not_le.2 halive]

/-- What a look-up does: it finds nothing, or a record that it removes because it has expired, or one that is
alive. -/
theorem fetch_cases (t : TokenTable) (now : Instant) (hkey : key ≠ "") :
    (t.get? key = none ∧ t.fetch now key = (.error .notFound, t)) ∨
      (∃ r, t.get? key = some r ∧ r.expiresAt ≤ now ∧ t.fetch now key = (.error .expired, t.erase key)) ∨
      ∃ r, t.get? key = some r ∧ now < r.expiresAt ∧ t.fetch now key = (.ok r, t) := by
  cases hget : t.get? key with
  | none => exact Or.inl ⟨rfl, fetch_of_none hkey hget⟩
  | some r =>
    rcases lt_or_ge now r.expiresAt with halive | hexpired
    · exact Or.inr (Or.inr ⟨r, rfl, halive, fetch_of_lt hkey hget halive⟩)
    · exact Or.inr (Or.inl ⟨r, rfl, hexpired, fetch_of_expired hkey hget hexpired⟩)

/-- A look-up finds the record of a key if it is alive, and changes nothing then. -/
theorem fetch_of_alive (hkey : key ≠ "") (h : aliveAt now (t.get? key) = some r) :
    t.fetch now key = (.ok r, t) := by
  obtain ⟨hget, hlive⟩ := aliveAt_eq_some_iff.1 h
  exact fetch_of_lt hkey hget hlive

/-- Otherwise it says that there is none, or that it has expired. -/
theorem fetch_of_dead (hkey : key ≠ "") (h : aliveAt now (t.get? key) = none) :
    ∃ e, e.isCredentialDenial = true ∧ (t.fetch now key).1 = .error e := by
  rcases fetch_cases t now hkey with ⟨-, heq⟩ | ⟨-, -, -, heq⟩ | ⟨r, hget, halive, -⟩
  · exact ⟨.notFound, rfl, by rw [heq]⟩
  · exact ⟨.expired, rfl, by rw [heq]⟩
  · rw [aliveAt_eq_some_iff.2 ⟨hget, halive⟩] at h
    cases h

/-- A look-up hides nothing that is alive, at its instant or later. -/
theorem aliveAt_fetch (t : TokenTable) (key key' : String) (hx : now ≤ x) :
    aliveAt x ((t.fetch now key').2.get? key) = aliveAt x (t.get? key) := by
  by_cases hempty : key' = ""
  · subst hempty
    rfl
  · rcases fetch_cases t now hempty with ⟨-, heq⟩ | ⟨r, hget, hdead, heq⟩ | ⟨r, -, -, heq⟩
    · rw [heq]
    · rw [heq]
      by_cases hkey : key = key'
      · subst hkey
        rw [Table.get?_erase_self, hget, aliveAt_of_expired (le_trans hdead hx)]
        rfl
      · rw [Table.get?_erase_of_ne _ hkey]
    · rw [heq]

theorem upsert_of_check (h : r.check now = .ok ()) : t.upsert now r = (.ok (), t.insert r.apiKey r) := by
  simp [upsert, h]

theorem upsert_of_check_ne (h : r.check now ≠ .ok ()) : (t.upsert now r).2 = t := by
  unfold upsert
  cases hcheck : r.check now with
  | error e => rfl
  | ok u => exact absurd hcheck h

/-- A store refuses a record for what is wrong with it, whatever the store holds, and stays as it is. -/
theorem upsert_eq_error_iff {e : StoreError} {t' : TokenTable} :
    t.upsert now r = (.error e, t') ↔ r.check now = .error e ∧ t' = t := by
  unfold upsert
  cases r.check now with
  | error e' => simp [eq_comm]
  | ok _ => simp

theorem upsert_eq_ok_iff : (t.upsert now r).1 = .ok () ↔ r.check now = .ok () := by
  unfold upsert
  cases r.check now <;> simp

theorem delete_of_ne (h : key ≠ "") : t.delete key = (.ok (), t.erase key) := by
  simp [delete, String.isEmpty_iff, h]

theorem delete_empty : (t.delete "").2 = t := rfl

end Turnstile.TokenTable

namespace Turnstile.TokenRecord

open Time

theorem apiKey_ne_of_check {r : TokenRecord} {now : Instant} (h : r.check now = .ok ()) : r.apiKey ≠ "" := by
  unfold check at h
  split at h
  · cases h
  · next hkey => simpa using hkey

theorem rateLimit_pos_of_check {r : TokenRecord} {now : Instant} (h : r.check now = .ok ()) :
    0 < r.rateLimit := by
  unfold check at h
  split at h
  · cases h
  · split at h
    · cases h
    · next hlimit => exact Int.not_le.1 hlimit

end Turnstile.TokenRecord
