import Turnstile.Proofs.Json.Integers
import Turnstile.Proofs.Time.Stamp
import Turnstile.Token.Fields
/-!
# Records that are read from their fields

A list of fields carries a record if each field of the record is found in it, whatever else is there. Such a
list is read as the record, with its expiry to the second (`ofFields_of_carries`). This needs a rate limit of 64
bits, and an expiry in a year of four digits: the year is written with a sign otherwise, and the fields are
refused (`ofFields_of_signed_year`).
-/

namespace Turnstile.TokenRecord

open Time Text

variable {r : TokenRecord} {key : String} {fields : List (String × String)}

/-- Each of the given fields is found among others. -/
def Carries (fields given : List (String × String)) : Prop := ∀ f ∈ given, fields.lookup f.1 = some f.2

instance (fields given : List (String × String)) : Decidable (Carries fields given) :=
  inferInstanceAs (Decidable (∀ f ∈ given, fields.lookup f.1 = some f.2))

/-- There is always a field to carry. -/
theorem Carries.ne_nil (h : Carries fields r.toFields) : fields ≠ [] := by
  rintro rfl
  have hfirst := h ("api_key", r.apiKey) (by simp [toFields])
  cases hfirst

theorem filled?_of_lookup {name value : String} (h : fields.lookup name = some value) (hne : value ≠ "") :
    filled? fields name = some value := by
  simp [filled?, h, Option.filter_some, hne]

theorem intText_ne_empty (n : Int) : intText n ≠ "" := by
  intro h
  have hlist := toList_intText n
  rw [h] at hlist
  split at hlist
  · cases hlist
  · exact natDigits_ne_nil n.natAbs hlist.symm

theorem readLimit_of_lookup (h : fields.lookup "rate_limit" = some (intText r.rateLimit))
    (hlimit : IsInt64 r.rateLimit) : readLimit fields = .ok r.rateLimit := by
  simp only [readLimit, filled?_of_lookup h (intText_ne_empty _), trim_intText, readInt64_intText hlimit]

theorem toSeconds_ne_empty (t : Instant) : Stamp.toSeconds t ≠ "" := by
  intro h
  have hlist : Stamp.chars .seconds t = [] := by
    rw [← String.toList_ofList (l := Stamp.chars .seconds t), ← Stamp.toSeconds, h]
    rfl
  simp [Stamp.chars] at hlist

theorem readExpiry_of_lookup (h : fields.lookup "expires_at" = some (Stamp.toSeconds r.expiresAt))
    (h0 : 0 ≤ Stamp.yearOf r.expiresAt) (h1 : Stamp.yearOf r.expiresAt ≤ 9999) :
    readExpiry fields = .ok r.expiresAt.wholeSecond := by
  simp only [readExpiry, filled?_of_lookup h (toSeconds_ne_empty _), Stamp.trim_toSeconds,
    Stamp.strict?_toSeconds h0 h1]

theorem isBlankText_texts (l : List String) : isBlankText (Json.Value.texts l).render = false := by
  rw [isBlankText, Json.Value.render, String.toList_ofList]
  rfl

theorem readRoutes_of_lookup
    (h : fields.lookup "allowed_routes" = some (Json.Value.texts r.allowedRoutes).render) :
    readRoutes fields = .ok r.allowedRoutes := by
  simp only [readRoutes, h, isBlankText_texts, Bool.false_eq_true, if_false,
    Json.parse_render (Json.spellable_texts _), Option.bind_eq_bind, Option.bind_some, Json.texts?_texts]

/-- **Records as fields**: what carries a record is read as the record, with its expiry to the second. -/
theorem ofFields_of_carries (h : Carries fields r.toFields) (hkey : r.apiKey ≠ "")
    (hlimit : IsInt64 r.rateLimit) (h0 : 0 ≤ Stamp.yearOf r.expiresAt)
    (h1 : Stamp.yearOf r.expiresAt ≤ 9999) :
    ofFields key fields = .ok { r with expiresAt := r.expiresAt.wholeSecond } := by
  have hfield : ∀ f ∈ r.toFields, fields.lookup f.1 = some f.2 := h
  simp only [toFields, List.mem_cons, List.not_mem_nil, or_false, forall_eq_or_imp, forall_eq] at hfield
  obtain ⟨hapiKey, hrateLimit, hexpiresAt, hroutes⟩ := hfield
  simp only [ofFields, readLimit_of_lookup hrateLimit hlimit, readExpiry_of_lookup hexpiresAt h0 h1,
    readRoutes_of_lookup hroutes, filled?_of_lookup hapiKey hkey]
  rfl

/-- What carries a record whose year takes a sign is not a record. -/
theorem ofFields_of_signed_year (h : Carries fields r.toFields) (hlimit : IsInt64 r.rateLimit)
    (hyear : Stamp.yearOf r.expiresAt < 0 ∨ 9999 < Stamp.yearOf r.expiresAt) :
    ofFields key fields = .error (.invalid "bad expires_at") := by
  have hrateLimit := h ("rate_limit", intText r.rateLimit) (by simp [toFields])
  have hexpiresAt := h ("expires_at", Stamp.toSeconds r.expiresAt) (by simp [toFields])
  have hexpiry : readExpiry fields = .error (.invalid "bad expires_at") := by
    simp only [readExpiry, filled?_of_lookup hexpiresAt (toSeconds_ne_empty _), Stamp.trim_toSeconds,
      Stamp.strict?_toSeconds_of_signed hyear]
  rw [ofFields, readLimit_of_lookup hrateLimit hlimit, hexpiry]
  rfl

/-! ### Round trip -/

theorem carries_toFields (r : TokenRecord) : Carries r.toFields r.toFields := by
  intro f hf
  simp only [toFields, List.mem_cons, List.not_mem_nil, or_false] at hf
  rcases hf with rfl | rfl | rfl | rfl <;> rfl

/-- **Records come back from their fields** just if their expiry is in a year that four digits are enough for,
whatever key they are looked up under. All of such a record comes back, with its expiry to the second; a leap
second, which has its place at the end of a minute, stays one. Any other record is reported as invalid. -/
theorem fields_round_trip (key : String) (hkey : r.apiKey ≠ "") (hlimit : IsInt64 r.rateLimit) :
    ((∃ found, ofFields key r.toFields = .ok found)
      ↔ 0 ≤ Stamp.yearOf r.expiresAt ∧ Stamp.yearOf r.expiresAt ≤ 9999) ∧
    (∀ found, ofFields key r.toFields = .ok found →
      found = { r with expiresAt := r.expiresAt.wholeSecond }) ∧
    ((r.expiresAt.inLeapSecond = true → r.expiresAt.secs.fmod 60 = 59) → r.expiresAt.wholeSecond
      = { secs := r.expiresAt.secs, nanos := if r.expiresAt.inLeapSecond then 1000000000 else 0 }) ∧
    (∀ e, ofFields key r.toFields = .error e → ∃ reason, e = .invalid reason) := by
  have hcarries := carries_toFields r
  have hleap : (r.expiresAt.inLeapSecond = true → r.expiresAt.secs.fmod 60 = 59) → r.expiresAt.wholeSecond
      = { secs := r.expiresAt.secs, nanos := if r.expiresAt.inLeapSecond then 1000000000 else 0 } := by
    intro hminute
    unfold Instant.wholeSecond
    split
    · next h => rw [if_pos (hminute h)]
    · rfl
  by_cases hyear : 0 ≤ Stamp.yearOf r.expiresAt ∧ Stamp.yearOf r.expiresAt ≤ 9999
  · have hread : ofFields key r.toFields = .ok { r with expiresAt := r.expiresAt.wholeSecond } :=
      ofFields_of_carries hcarries hkey hlimit hyear.1 hyear.2
    refine ⟨iff_of_true ⟨_, hread⟩ hyear, ?_, hleap, ?_⟩
    · intro found hfound
      rw [hread] at hfound
      exact (Except.ok.inj hfound).symm
    · intro e he
      rw [hread] at he
      cases he
  · have hread : ofFields key r.toFields = .error (.invalid "bad expires_at") :=
      ofFields_of_signed_year hcarries hlimit (by omega)
    refine ⟨iff_of_false ?_ hyear, ?_, hleap, ?_⟩
    · rintro ⟨found, hfound⟩
      rw [hread] at hfound
      cases hfound
    · intro found hfound
      rw [hread] at hfound
      cases hfound
    · intro e he
      rw [hread] at he
      exact ⟨_, (Except.error.inj he).symm⟩

/-- A record that expires in the leap second at the end of 2016, half a second into it. -/
def leaping : TokenRecord where
  apiKey := "\u0000é"
  rateLimit := -9223372036854775808
  expiresAt := { secs := 1483228799, nanos := 1500000000 }
  allowedRoutes := ["", "\"\\/\n"]

theorem leaping_comes_back :
    leaping.apiKey ≠ "" ∧ IsInt64 leaping.rateLimit ∧
      ofFields "other" leaping.toFields
        = .ok { leaping with expiresAt := { secs := 1483228799, nanos := 1000000000 } } := by
  have hkey : leaping.apiKey ≠ "" := by decide
  have hlimit : IsInt64 leaping.rateLimit := by decide
  obtain ⟨hiff, hfound, hleap, -⟩ := fields_round_trip "other" hkey hlimit
  obtain ⟨found, hread⟩ := hiff.2 (by decide)
  rw [hread, hfound found hread, hleap (by decide)]
  exact ⟨hkey, hlimit, rfl⟩

/-! ### Expiries -/

theorem readExpiry_of_ofFields {found : TokenRecord} (h : ofFields key fields = .ok found) :
    readExpiry fields = .ok found.expiresAt := by
  unfold ofFields at h
  cases hlimit : readLimit fields with
  | error e =>
    rw [hlimit] at h
    cases h
  | ok n =>
    cases hexpiry : readExpiry fields with
    | error e =>
      rw [hlimit, hexpiry] at h
      cases h
    | ok t =>
      cases hroutes : readRoutes fields with
      | error e =>
        rw [hlimit, hexpiry, hroutes] at h
        cases h
      | ok routes =>
        rw [hlimit, hexpiry, hroutes] at h
        cases h
        rfl

/-- What carries a record has its expiry, however that reads. -/
theorem Carries.readExpiry (h : Carries fields r.toFields) : readExpiry fields = readExpiry r.toFields := by
  have hexpiry : fields.lookup "expires_at" = r.toFields.lookup "expires_at" :=
    h ("expires_at", Stamp.toSeconds r.expiresAt) (by simp [toFields])
  simp only [TokenRecord.readExpiry, filled?, hexpiry]

end Turnstile.TokenRecord
