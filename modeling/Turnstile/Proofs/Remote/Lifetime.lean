import Turnstile.Proofs.Remote.Records
import Turnstile.Proofs.Token.Memory
/-!
# How long a stored record lives

A record that has been stored is found with its key, limit and routes until the second of its expiry begins
(`found_until_expiry`), whatever happens meanwhile to other keys. In that second itself it is gone: the deadline
on the server and the stored timestamp are whole seconds. And a record whose expiry lies in a year that takes a
sign is stored, but not found (`refused_of_signed_year`). `stored_not_found` has one record of either kind.
-/

namespace Turnstile.Remote

open Time TokenRecord Keyspace

variable {stem name key : String} {r : TokenRecord} {t t' u : Instant} {k k' : Keyspace}

/-! ### Operations run on the keyspace -/

/-- A record is stored if it passes its check and its fields can be written. -/
theorem upsert_ok (h : (upsert stem r).run (Keyspace.answer t) k = .ok (.ok (), k')) :
    r.check t = .ok () ∧
      k.execute t (.writeFields (stem ++ r.apiKey) r.toFields r.expiresAt.secs) = (.ok (), k') := by
  simp only [upsert, Dialogue.run, Keyspace.answer] at h
  cases hcheck : r.check t with
  | error e =>
    simp only [hcheck, Dialogue.run] at h
    cases h
  | ok _ =>
    simp only [hcheck, Dialogue.run, Keyspace.answer] at h
    refine ⟨rfl, ?_⟩
    rcases hwritten : k.execute t (.writeFields (stem ++ r.apiKey) r.toFields r.expiresAt.secs)
      with ⟨reason | _, k''⟩
    · simp only [hwritten, Dialogue.run] at h
      cases h
    · simp only [hwritten, Dialogue.run] at h
      cases h
      rfl

/-- A look-up finds the record that the fields are read as, if they are, or finds it expired and removes the
key. -/
theorem fetch_run {fields : List (String × String)} {deadline : Option Instant} (hkey : key ≠ "")
    (hget : k.get? (stem ++ key) = some { content := .fields fields, deadline }) (hne : fields ≠ []) :
    (fetch stem key).run (Keyspace.answer t) k =
      match ofFields key fields with
      | .error e => .ok (.error e, k)
      | .ok found =>
        if found.isExpiredAt t then .ok (.error .expired, k.erase (stem ++ key)) else .ok (.ok found, k) := by
  obtain ⟨f, rest, rfl⟩ := List.exists_cons_of_ne_nil hne
  have hempty : key.isEmpty = false := by simpa using hkey
  simp only [fetch, hempty, Bool.false_eq_true, if_false, Dialogue.run, Keyspace.answer, execute, hget]
  rcases ofFields key (f :: rest) with e | found
  · rfl
  · simp only [Dialogue.run, Keyspace.answer]
    split <;> rfl

theorem Keyspace.Holds.fetch_run (h : Holds k (stem ++ r.apiKey) r) (hkey : r.apiKey ≠ "")
    (hlimit : Text.IsInt64 r.rateLimit) (h0 : 0 ≤ Stamp.yearOf r.expiresAt)
    (h1 : Stamp.yearOf r.expiresAt ≤ 9999) :
    (fetch stem r.apiKey).run (Keyspace.answer t) k =
      if r.expiresAt.wholeSecond ≤ t then .ok (.error .expired, k.erase (stem ++ r.apiKey))
      else .ok (.ok { r with expiresAt := r.expiresAt.wholeSecond }, k) := by
  obtain ⟨fields, hget, hcarries⟩ := h
  rw [Remote.fetch_run hkey hget hcarries.ne_nil, ofFields_of_carries hcarries hkey hlimit h0 h1]
  simp [isExpiredAt]

/-! ### While nobody touches a key -/

/-- What can happen on the server from one instant to another without touching a key: commands about other
keys, and the dropping of keys whose deadline has passed. -/
inductive Meanwhile (name : String) (t : Instant) (k : Keyspace) : Instant → Keyspace → Prop where
  | start : Meanwhile name t k t k
  | pass {t' u : Instant} {k' : Keyspace} (h : Meanwhile name t k t' k') (hu : t' ≤ u) :
      Meanwhile name t k u k'
  | command {t' : Instant} {k' : Keyspace} (h : Meanwhile name t k t' k') (c : Command)
      (hc : c.key? ≠ some name) : Meanwhile name t k t' (k'.execute t' c).2
  | lapse {t' : Instant} {k' : Keyspace} (h : Meanwhile name t k t' k') (dropped : String) :
      Meanwhile name t k t' (k'.lapse t' dropped)

namespace Meanwhile

theorem le (h : Meanwhile name t k t' k') : t ≤ t' := by
  induction h with
  | start => exact le_refl t
  | pass _ hu ih => exact le_trans ih hu
  | command _ _ _ ih => exact ih
  | lapse _ _ ih => exact ih

/-- A record that is held stays held until its deadline. -/
theorem holds (h : Meanwhile name t k t' k') (hholds : Holds k name r) (hahead : t' < deadlineOf r) :
    Holds k' name r := by
  induction h with
  | start => exact hholds
  | pass _ hu ih => exact ih (lt_of_le_of_lt hu hahead)
  | command _ c hc ih => exact (ih hahead).execute_of_ne hc _
  | lapse _ dropped ih => exact (ih hahead).lapse hahead dropped

end Meanwhile

/-- A stored record is held until the second of its expiry. -/
theorem holds_until_expiry (hstored : (upsert stem r).run (Keyspace.answer t) k = .ok (.ok (), k'))
    {k'' : Keyspace} (huntouched : Meanwhile (stem ++ r.apiKey) t k' u k'')
    (hbefore : u.secs < r.expiresAt.secs) : r.apiKey ≠ "" ∧ Holds k'' (stem ++ r.apiKey) r := by
  obtain ⟨hcheck, hwritten⟩ := upsert_ok hstored
  have hahead : u < deadlineOf r := Instant.lt_of_secs_lt hbefore
  have hholds := holds_of_written (lt_of_le_of_lt huntouched.le hahead) hwritten
  exact ⟨apiKey_ne_of_check hcheck, huntouched.holds hholds hahead⟩

/-- **A stored record lives until the second of its expiry**: if its year is written with four digits, it is
found with its key, limit and routes at every instant before that second. -/
theorem found_until_expiry (hlimit : Text.IsInt64 r.rateLimit) (h0 : 0 ≤ Stamp.yearOf r.expiresAt)
    (h1 : Stamp.yearOf r.expiresAt ≤ 9999)
    (hstored : (upsert stem r).run (Keyspace.answer t) k = .ok (.ok (), k'))
    {k'' : Keyspace} (huntouched : Meanwhile (stem ++ r.apiKey) t k' u k'')
    (hbefore : u.secs < r.expiresAt.secs) :
    (fetch stem r.apiKey).run (Keyspace.answer u) k'' =
      .ok (.ok { r with expiresAt := r.expiresAt.wholeSecond }, k'') := by
  obtain ⟨hkey, hholds⟩ := holds_until_expiry hstored huntouched hbefore
  have halive : u < r.expiresAt.wholeSecond :=
    Instant.lt_of_secs_lt (Int.lt_of_lt_of_le hbefore r.expiresAt.secs_le_wholeSecond)
  rw [hholds.fetch_run hkey hlimit h0 h1, if_neg (not_le.2 halive)]

/-- A stored record whose year takes a sign is refused by every look-up, though the server holds it. -/
theorem refused_of_signed_year (hlimit : Text.IsInt64 r.rateLimit)
    (hyear : Stamp.yearOf r.expiresAt < 0 ∨ 9999 < Stamp.yearOf r.expiresAt)
    (hstored : (upsert stem r).run (Keyspace.answer t) k = .ok (.ok (), k'))
    {k'' : Keyspace} (huntouched : Meanwhile (stem ++ r.apiKey) t k' u k'')
    (hbefore : u.secs < r.expiresAt.secs) :
    (fetch stem r.apiKey).run (Keyspace.answer u) k'' = .ok (.error (.invalid "bad expires_at"), k'') := by
  obtain ⟨hkey, fields, hget, hcarries⟩ := holds_until_expiry hstored huntouched hbefore
  rw [fetch_run hkey hget hcarries.ne_nil, ofFields_of_signed_year hcarries hlimit hyear]

/-- A record of the first minutes of 1970, which expires half a second after a whole one. -/
def halfPast : TokenRecord :=
  { apiKey := "k", rateLimit := 5, expiresAt := { secs := 100, nanos := 500000000 }, allowedRoutes := ["/a"] }

def holdingHalfPast : Keyspace :=
  (∅ : Keyspace).insert "token:k"
    { content := .fields (mergeFields halfPast.toFields []), deadline := some { secs := 100 } }

theorem upsert_halfPast :
    (upsert "token:" halfPast).run (Keyspace.answer { secs := 50 }) ∅ = .ok (.ok (), holdingHalfPast) := by
  rfl

theorem untouched_halfPast :
    Meanwhile "token:k" { secs := 50 } holdingHalfPast { secs := 99, nanos := 999999999 }
      (Keyspace.lapse (holdingHalfPast.erase "token:m") { secs := 99 } "token:k") := by
  have hremoved : Meanwhile "token:k" { secs := 50 } holdingHalfPast { secs := 50 }
      (holdingHalfPast.erase "token:m") := Meanwhile.start.command (.remove "token:m") (by decide)
  have hlater : (({ secs := 50 } : Instant) ≤ { secs := 99 }) ∧
      (({ secs := 99 } : Instant) ≤ { secs := 99, nanos := 999999999 }) := by decide
  exact ((hremoved.pass hlater.1).lapse "token:k").pass hlater.2

/-- It is found in the last second before, although another key has been removed and the server has tried to
drop this one. -/
theorem halfPast_found :
    (fetch "token:" "k").run (Keyspace.answer { secs := 99, nanos := 999999999 })
        (Keyspace.lapse (holdingHalfPast.erase "token:m") { secs := 99 } "token:k")
      = .ok (.ok { halfPast with expiresAt := { secs := 100 } },
          Keyspace.lapse (holdingHalfPast.erase "token:m") { secs := 99 } "token:k") :=
  found_until_expiry (r := halfPast) (by decide) (by decide) (by decide) upsert_halfPast untouched_halfPast
    (by decide)

/-- A record of the year 10000. -/
def distant : TokenRecord :=
  { apiKey := "k", rateLimit := 5, expiresAt := { secs := 253402300800 }, allowedRoutes := ["/a"] }

def holdingDistant : Keyspace :=
  (∅ : Keyspace).insert "token:k"
    { content := .fields (mergeFields distant.toFields []), deadline := some { secs := 253402300800 } }

/-- Stored records are not found although they have not expired: one is gone a fifth of a second into the second
of its expiry, three tenths before it expires, the other is refused right after it has been stored. -/
theorem stored_not_found :
    ((upsert "token:" halfPast).run (Keyspace.answer { secs := 50 }) ∅ = .ok (.ok (), holdingHalfPast) ∧
      ({ secs := 100, nanos := 200000000 } : Instant) < halfPast.expiresAt ∧
      (fetch "token:" "k").run (Keyspace.answer { secs := 100, nanos := 200000000 }) holdingHalfPast
        = .ok (.error .expired, holdingHalfPast.erase "token:k")) ∧
    ((upsert "token:" distant).run (Keyspace.answer { secs := 50 }) ∅ = .ok (.ok (), holdingDistant) ∧
      ({ secs := 50 } : Instant) < distant.expiresAt ∧
      (fetch "token:" "k").run (Keyspace.answer { secs := 50 }) holdingDistant
        = .ok (.error (.invalid "bad expires_at"), holdingDistant)) := by
  refine ⟨⟨upsert_halfPast, by decide, ?_⟩, rfl, by decide, ?_⟩
  · have hholds : Holds holdingHalfPast "token:k" halfPast :=
      holds_of_written (by decide) (upsert_ok upsert_halfPast).2
    rw [show "token:k" = "token:" ++ halfPast.apiKey from rfl] at hholds
    exact (hholds.fetch_run (by decide) (by decide) (by decide) (by decide)).trans (if_pos (by decide))
  · exact refused_of_signed_year (r := distant) (k := ∅) (by decide) (by decide) rfl .start (by decide)

end Turnstile.Remote
