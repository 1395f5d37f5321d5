import Turnstile.Command.Issue
import Turnstile.Proofs.Token.Memory
/-!
# All or nothing

An order of a token is refused for what is wrong with it, or because the store refuses the record that it comes
to, and for nothing else: signing cannot fail. So the record is never written in vain, and an order that is refused
leaves the store as it was (`issue_all_or_nothing`).
-/

namespace Turnstile.Command

open Time Text

variable {args : IssueRequest} {now storeNow : Instant} {fresh : String} {signer : Jwt.Signer} {t : TokenTable}
  {record : TokenRecord} {e : IssueError} {cause : StoreError}

/-- The record that an order comes to, if nothing is wrong with it. -/
def IssueRequest.wanted (args : IssueRequest) (now : Instant) (fresh : String) : TokenRecord where
  apiKey := (args.apiKey.map trim).getD fresh
  rateLimit := args.limit
  expiresAt := { secs := now.secs + 3600 * args.ttlHours, nanos := now.nanos % 1000000000 }
  allowedRoutes := args.patterns

/-! ### Orders that are carried out -/

theorem IssueRequest.key_eq (args : IssueRequest) (fresh : String) :
    args.key fresh = if args.apiKey.any isBlankText then .error .blankKey
      else .ok ((args.apiKey.map trim).getD fresh) := by
  rw [IssueRequest.key]
  cases args.apiKey with
  | none => rfl
  | some key => rfl

theorem IssueRequest.expiry_eq (hnow : now.IsProper) (httl : 0 < args.ttlHours) :
    args.expiry now = if Instant.maxSecs < now.secs + 3600 * args.ttlHours then
        .error (.ttlOutOfRange args.ttlHours)
      else .ok { secs := now.secs + 3600 * args.ttlHours, nanos := now.nanos % 1000000000 } := by
  have hlater : now.later (Duration.ofSecs (3600 * args.ttlHours.toNat)).toNanos
      = { secs := now.secs + 3600 * args.ttlHours, nanos := now.nanos % 1000000000 } := by
    simp only [Instant.later, Duration.toNanos, Duration.ofSecs, Instant.mk.injEq]
    omega
  have hsecs : (Duration.ofSecs (3600 * args.ttlHours.toNat)).secs ≠ 0 := by
    simp only [Duration.ofSecs]
    omega
  rw [IssueRequest.expiry, Instant.add?_eq_later hnow hsecs, hlater]
  by_cases hrange : Instant.maxSecs < now.secs + 3600 * args.ttlHours
  · rw [if_neg (not_le.2 hrange), if_pos hrange]
  · rw [if_pos (not_lt.1 hrange), if_neg hrange]

/-- What is wrong with an order is reported in a fixed order, and one with nothing wrong comes to its record. -/
theorem IssueRequest.record_eq (args : IssueRequest) (hnow : now.IsProper) (fresh : String) :
    args.record now fresh =
      if args.limit ≤ 0 then .error .badLimit
      else if args.ttlHours ≤ 0 then .error .badTtl
      else if args.apiKey.any isBlankText then .error .blankKey
      else if Instant.maxSecs < now.secs + 3600 * args.ttlHours then .error (.ttlOutOfRange args.ttlHours)
      else .ok (args.wanted now fresh) := by
  rw [IssueRequest.record]
  split
  · rfl
  split
  · rfl
  next httl =>
  rw [args.key_eq, IssueRequest.expiry_eq hnow (not_le.1 httl)]
  split
  · rfl
  split
  · rfl
  · rfl

/-! ### Orders that are refused -/

/-- What stands in the way of an order, and what is reported for it. -/
inductive Obstacle (args : IssueRequest) (now storeNow : Instant) (fresh : String) (t : TokenTable) :
    IssueError → Prop
  | limit : args.limit ≤ 0 → Obstacle args now storeNow fresh t .badLimit
  | ttl : args.ttlHours ≤ 0 → Obstacle args now storeNow fresh t .badTtl
  | key {key : String} : args.apiKey = some key → isBlankText key = true →
      Obstacle args now storeNow fresh t .blankKey
  | range : Instant.maxSecs < now.secs + 3600 * args.ttlHours →
      Obstacle args now storeNow fresh t (.ttlOutOfRange args.ttlHours)
  | store {cause : StoreError} : t.upsert storeNow (args.wanted now fresh) = (.error cause, t) →
      Obstacle args now storeNow fresh t (.store cause)

theorem issue_of_fault (h : args.record now fresh = .error e) :
    issue signer now storeNow fresh args t = (.error e, t) := by
  rw [issue, h]

theorem issue_of_refused (h : args.record now fresh = .ok record)
    (hrefused : t.upsert storeNow record = (.error cause, t)) :
    issue signer now storeNow fresh args t = (.error (.store cause), t) := by
  rw [issue, h]
  simp only [hrefused]

theorem issue_of_written {t' : TokenTable} (h : args.record now fresh = .ok record)
    (hwritten : t.upsert storeNow record = (.ok (), t')) :
    issue signer now storeNow fresh args t = (.ok (issued signer now record), t') := by
  rw [issue, h]
  simp only [hwritten]

/-- An order is refused and changes nothing, or there is nothing in its way and it is carried out. -/
theorem issue_cases (signer : Jwt.Signer) (hnow : now.IsProper) (storeNow : Instant) (fresh : String)
    (args : IssueRequest) (t : TokenTable) :
    (∃ e, issue signer now storeNow fresh args t = (.error e, t) ∧ Obstacle args now storeNow fresh t e) ∨
      (issue signer now storeNow fresh args t = (.ok (issued signer now (args.wanted now fresh)),
          t.insert (args.wanted now fresh).apiKey (args.wanted now fresh)) ∧
        ∀ e, ¬ Obstacle args now storeNow fresh t e) := by
  have hrecord := args.record_eq hnow fresh
  split at hrecord
  · next hlimit => exact Or.inl ⟨_, issue_of_fault hrecord, .limit hlimit⟩
  next hlimit =>
  split at hrecord
  · next httl => exact Or.inl ⟨_, issue_of_fault hrecord, .ttl httl⟩
  next httl =>
  split at hrecord
  · next hkey =>
    obtain ⟨key, hsome, hblank⟩ := (Option.any_eq_true _ _).1 hkey
    exact Or.inl ⟨_, issue_of_fault hrecord, .key hsome hblank⟩
  next hkey =>
  split at hrecord
  · next hrange => exact Or.inl ⟨_, issue_of_fault hrecord, .range hrange⟩
  next hrange =>
  cases hcheck : (args.wanted now fresh).check storeNow with
  | error cause =>
    have hrefused : t.upsert storeNow (args.wanted now fresh) = (.error cause, t) :=
      TokenTable.upsert_eq_error_iff.2 ⟨hcheck, rfl⟩
    exact Or.inl ⟨_, issue_of_refused hrecord hrefused, .store hrefused⟩
  | ok _ =>
    refine Or.inr ⟨issue_of_written hrecord (TokenTable.upsert_of_check hcheck), ?_⟩
    intro e h
    cases h with
    | limit h => exact hlimit h
    | ttl h => exact httl h
    | key hsome hblank => exact hkey ((Option.any_eq_true _ _).2 ⟨_, hsome, hblank⟩)
    | range h => exact hrange h
    | store h =>
      rw [(TokenTable.upsert_eq_error_iff.1 h).1] at hcheck
      cases hcheck

/-- **A token is issued, or nothing is done.** An order is refused just if its limit or lifetime is not positive, the
key that it gives is blank, its expiry lies beyond the calendar or the store refuses its record, and then the store
stays as it was. Otherwise the record stands in the store under its key, and all other keys have what they had. -/
theorem issue_all_or_nothing (signer : Jwt.Signer) (hnow : now.IsProper) (storeNow : Instant) (fresh : String)
    (args : IssueRequest) (t : TokenTable) :
    ∃ answer t', issue signer now storeNow fresh args t = (answer, t') ∧
      ((∃ e, answer = .error e) ↔ ∃ e, Obstacle args now storeNow fresh t e) ∧
      (∀ e, answer = .error e → Obstacle args now storeNow fresh t e ∧ t' = t) ∧
      ∀ i, answer = .ok i → i = issued signer now (args.wanted now fresh) ∧
        t'.get? i.record.apiKey = some i.record ∧
        ∀ key, key ≠ i.record.apiKey → t'.get? key = t.get? key := by
  rcases issue_cases signer hnow storeNow fresh args t with ⟨e, hissue, hobstacle⟩ | ⟨hissue, hfree⟩
  · refine ⟨_, _, hissue, ⟨fun _ => ⟨e, hobstacle⟩, fun _ => ⟨e, rfl⟩⟩, ?_, ?_⟩
    · intro e' he
      cases he
      exact ⟨hobstacle, rfl⟩
    · intro i hi
      cases hi
  · refine ⟨_, _, hissue, ⟨?_, ?_⟩, ?_, ?_⟩
    · rintro ⟨e, he⟩
      cases he
    · rintro ⟨e, hobstacle⟩
      exact absurd hobstacle (hfree e)
    · intro e he
      cases he
    · intro i hi
      cases hi
      refine ⟨rfl, Table.get?_insert_self _ _ _, ?_⟩
      intro key hne
      exact Table.get?_insert_of_ne _ _ hne

/-- An order that gives a key twice as much as before. -/
def renewal : IssueRequest where
  apiKey := some " k "
  limit := 2
  ttlHours := 1

def beforeRenewal : TokenTable :=
  (Table.empty.insert "k" { apiKey := "k", rateLimit := 1, expiresAt := { secs := 200 } }).insert "m"
    { apiKey := "m", rateLimit := 1, expiresAt := { secs := 200 } }

/-- The order is carried out in a leap second, which counts as the second before it, and the other key is left
alone; in the last hour of the calendar it is refused. -/
theorem renewal_all_or_nothing :
    ∃ i t', issue { hash := .sha256, secret := [115] } { secs := 100, nanos := 1000000005 } { secs := 101 } "fresh"
        renewal beforeRenewal = (.ok i, t') ∧
      t'.get? "k" = some { apiKey := "k", rateLimit := 2, expiresAt := { secs := 3700, nanos := 5 } } ∧
      t'.get? "m" = beforeRenewal.get? "m" ∧
      ∃ e, issue { hash := .sha256, secret := [115] } { secs := Instant.maxSecs - 3599 } { secs := 101 } "fresh"
        renewal beforeRenewal = (.error e, beforeRenewal) := by
  have hleap : Instant.IsProper { secs := 100, nanos := 1000000005 } := ⟨by decide, by decide⟩
  have hlast : Instant.IsProper { secs := Instant.maxSecs - 3599 } := ⟨by decide, by decide⟩
  obtain ⟨answer, t', hissue, hfails, -, hissues⟩ :=
    issue_all_or_nothing { hash := .sha256, secret := [115] } hleap { secs := 101 } "fresh" renewal beforeRenewal
  obtain ⟨answer', t'', hissue', hfails', hkept, -⟩ :=
    issue_all_or_nothing { hash := .sha256, secret := [115] } hlast { secs := 101 } "fresh" renewal beforeRenewal
  have hrefused : ∃ e, answer' = .error e := hfails'.2 ⟨_, .range (by decide)⟩
  obtain ⟨e, rfl⟩ := hrefused
  obtain ⟨-, rfl⟩ := hkept e rfl
  cases answer with
  | error e' =>
    obtain ⟨_, hobstacle⟩ := hfails.1 ⟨e', rfl⟩
    cases hobstacle with
    | limit h => exact absurd h (by decide)
    | ttl h => exact absurd h (by decide)
    | key hsome hblank =>
      cases hsome
      exact absurd hblank (by decide)
    | range h => exact absurd h (by decide)
    | store h => cases congrArg Prod.fst h
  | ok i =>
    obtain ⟨rfl, hget, hothers⟩ := hissues i rfl
    exact ⟨_, t', hissue, hget, hothers "m" (by decide), e, hissue'⟩

end Turnstile.Command
