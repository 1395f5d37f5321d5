import Turnstile.Command.Issue
import Turnstile.Proofs.Access.Admission
import Turnstile.Proofs.Access.Bearer
import Turnstile.Proofs.Jwt.Signing
import Turnstile.Proofs.Text.Blank
/-!
# Issued tokens work as ordered

Between the order of a token and its use stand the claims that are signed and the record that is stored. Both
come from one order, and the gateway looks at the ones before the other, so what a token is good for can be read
off the order: until when, on which paths and how often (`works_as_ordered`).
-/

namespace Turnstile.Command

open Time Access Rate Text Checks

variable {args : IssueRequest} {now storeNow u : Instant} {fresh path : String} {record : TokenRecord}
  {i : Issued} {signer : Jwt.Signer} {t t' : TokenTable}

/-! ### Orders -/

/-- What an order comes to, if it can be carried out. -/
structure Ordered (args : IssueRequest) (now : Instant) (record : TokenRecord) : Prop where
  limit_pos : 0 < args.limit
  ttl_pos : 0 < args.ttlHours
  limit : record.rateLimit = args.limit
  expiry : now.add? (.ofSecs (3600 * args.ttlHours.toNat)) = some record.expiresAt
  routes : record.allowedRoutes = args.patterns

theorem ordered_of_record (h : args.record now fresh = .ok record) : Ordered args now record := by
  unfold IssueRequest.record at h
  simp only [guard_eq_ok_iff, bind_eq_ok_iff, pure_eq_ok_iff] at h
  obtain ⟨hlimit, httl, key, -, expiresAt, hexpiry, rfl⟩ := h
  refine ⟨by omega, by omega, rfl, ?_, rfl⟩
  unfold IssueRequest.expiry at hexpiry
  split at hexpiry
  · next hadd =>
    cases hexpiry
    exact hadd
  · cases hexpiry

/-- A token is issued if its record is written. -/
theorem issue_eq_ok_iff : issue signer now storeNow fresh args t = (.ok i, t') ↔
    ∃ record, args.record now fresh = .ok record ∧ t.upsert storeNow record = (.ok (), t') ∧
      i = issued signer now record := by
  unfold issue
  cases hrecord : args.record now fresh with
  | error e => simp
  | ok record =>
    rcases hwritten : t.upsert storeNow record with ⟨e | _, t''⟩
    · simp [hwritten]
    · simp [hwritten, eq_comm, and_comm]

namespace Ordered

theorem secs_le (h : Ordered args now record) :
    now.secs ≤ record.expiresAt.secs ∧ record.expiresAt.secs ≤ Instant.maxSecs := by
  have hlater := Instant.secs_le_of_add? h.expiry
  have httl := h.ttl_pos
  refine ⟨?_, Instant.secs_le_maxSecs_of_add? h.expiry ?_⟩
  · simp only [Duration.ofSecs] at hlater
    omega
  · simp only [Duration.ofSecs]
    omega

/-- The claims that are signed can be spelt. -/
theorem fits64 (h : Ordered args now record) (hnow : 0 ≤ now.secs) (hlimit : IsInt64 args.limit) :
    (claimsOf record now).Fits64 := by
  obtain ⟨hlater, hmax⟩ := h.secs_le
  unfold Instant.maxSecs at hmax
  refine ⟨?_, ?_, ?_⟩
  · show IsInt64 record.expiresAt.secs
    unfold IsInt64 maxInt64
    omega
  · rintro n ⟨⟩
    exact h.limit ▸ hlimit
  · rintro n ⟨⟩
    unfold IsInt64 maxInt64
    omega

/-- They expire with the second of the record's expiry. -/
theorem expiration_eq (h : Ordered args now record) (hnow : 0 ≤ now.secs) :
    (claimsOf record now).expiration = some { secs := record.expiresAt.secs } := by
  obtain ⟨hlater, hmax⟩ := h.secs_le
  have hcalendar : Instant.inCalendar record.expiresAt.secs = true := by
    have hmin : Instant.minSecs ≤ 0 := by decide
    simp only [Instant.inCalendar, Bool.and_eq_true, decide_eq_true_eq]
    omega
  exact if_pos hcalendar

theorem isExpiredAt_iff (h : Ordered args now record) (hnow : 0 ≤ now.secs) :
    (claimsOf record now).isExpiredAt u = true ↔ record.expiresAt.secs ≤ u.secs := by
  rw [Claims.isExpiredAt_eq, h.expiration_eq hnow]
  simp [Instant.lt_iff]

end Ordered

/-! ### Scopes -/

/-- The patterns of an order stand for the same paths as the routes that it gives. -/
theorem isPathAllowed_patterns (args : IssueRequest) (path : String) :
    isPathAllowed path args.patterns = isPathAllowed path args.routes := by
  have hmatch (route : String) :
      (!(trim route).isEmpty && patternMatches (trimChars (trim route).toList) path.toList)
        = patternMatches (trimChars route.toList) path.toList := by
    rw [trim, String.toList_ofList, trimChars_trimChars]
    cases htrimmed : trimChars route.toList with
    | nil => rfl
    | cons c rest => simp
  simp only [isPathAllowed, IssueRequest.patterns, List.any_filter, List.any_map, Function.comp_def, hmatch]

/-- An order restricts the paths if one of its routes is not blank. -/
theorem patterns_ne_nil_iff : args.patterns ≠ [] ↔ ∃ route ∈ args.routes, isBlankText route = false := by
  simp only [IssueRequest.patterns, ne_eq, List.filter_eq_nil_iff, List.mem_map, forall_exists_index, and_imp,
    forall_apply_eq_imp_iff₂, not_forall]
  simp [← Bool.not_eq_true, ← trim_eq_empty_iff]

/-- What the pipeline finds in the claims of an issued token. -/
theorem checkClaims_claimsOf (h : Ordered args now record) (hnow : 0 ≤ now.secs) (hkey : record.apiKey ≠ "")
    (u : Instant) (path : String) :
    checkClaims u path (claimsOf record now) =
      if record.expiresAt.secs ≤ u.secs then .error (.invalidCredential "token expired")
      else if (∃ route ∈ args.routes, isBlankText route = false) ∧ isPathAllowed path args.routes = false then
        .error .forbidden
      else .ok () := by
  have hscope : (claimsOf record now).hasScope = true ↔ ∃ route ∈ args.routes, isBlankText route = false := by
    rw [← patterns_ne_nil_iff, ← h.routes]
    simp [Claims.hasScope, claimsOf]
  have hallowed : isPathAllowed path (claimsOf record now).allowedRoutes = isPathAllowed path args.routes := by
    rw [← isPathAllowed_patterns, ← h.routes]
    rfl
  have hempty : (claimsOf record now).apiKey.isEmpty = false := by simpa [claimsOf, Claims.new] using hkey
  simp [checkClaims, hempty, h.isExpiredAt_iff hnow, hscope, hallowed]

/-! ### Tokens as credentials -/

theorem extractBearer_append {token : String} (hne : token ≠ "")
    (hblank : ∀ c ∈ token.toList, isBlank c = false) : extractBearer ("Bearer " ++ token) = some token := by
  rw [extractBearer_eq_some_iff]
  refine ⟨token.toList, ⟨[], "Bearer".toList, ?_, by simp, ?_, rfl⟩, trimChars_of_free hblank, hne⟩
  · rw [String.toList_append]
    rfl
  · unfold NamesBearer
    decide

theorem isBlank_of_mem_sign (signer : Jwt.Signer) (claims : Claims) :
    ∀ c ∈ (signer.sign claims).toList, isBlank c = false := by
  have hpart {bytes : List UInt8} {c : Char} (hc : c ∈ Base64.encode .url bytes) : isBlank c = false := by
    have hchar : ∀ n < 64, isBlank (Base64.Alphabet.char .url n) = false := by decide
    obtain ⟨n, hn, rfl⟩ := Base64.exists_char_of_mem_encode hc
    exact hchar n hn
  have hdot : isBlank '.' = false := by decide
  intro c hc
  rw [Jwt.sign_eq] at hc
  simp only [List.append_assoc, List.cons_append, List.mem_append, List.mem_cons] at hc
  rcases hc with hc | rfl | hc | rfl | hc
  · exact hpart hc
  · exact hdot
  · exact hpart hc
  · exact hdot
  · exact hpart hc

/-- A token is taken out of its `Authorization` value as it has been issued. -/
theorem extractBearer_issued (signer : Jwt.Signer) (now : Instant) (record : TokenRecord) :
    extractBearer ("Bearer " ++ (issued signer now record).token) = some (issued signer now record).token := by
  refine extractBearer_append ?_ (isBlank_of_mem_sign signer _)
  intro hempty
  have hlist := Jwt.sign_eq signer (claimsOf record now)
  change signer.sign (claimsOf record now) = "" at hempty
  rw [hempty] at hlist
  simp at hlist

/-- The matching key set reads the claims that have been signed. -/
theorem verify_issued {name secret : String} {keys : Jwt.KeySet}
    (hkeys : Jwt.KeySet.hmac name secret = .ok keys) (hsigner : Jwt.Signer.ofSecret name secret = .ok signer)
    (h : Ordered args now record) (hnow : 0 ≤ now.secs)
    (hlimit : IsInt64 args.limit) (hkey : record.apiKey ≠ "") :
    keys.verify (issued signer now record).token = .ok (claimsOf record now) := by
  cases (Jwt.hmac_of_ofSecret hsigner).symm.trans hkeys
  exact Jwt.verify_of_signed signer (h.fits64 hnow hlimit) hkey (hnow.trans h.secs_le.1)

/-! ### Decisions on issued tokens -/

/-- What becomes of a request that presents an issued token, if its key has used its budget so often. -/
def due (args : IssueRequest) (i : Issued) (now u : Instant) (path : String) (spent : Nat) :
    Except AccessDenied Claims :=
  if i.record.expiresAt.secs ≤ u.secs then .error (.invalidCredential "token expired")
  else if (∃ route ∈ args.routes, isBlankText route = false) ∧ isPathAllowed path args.routes = false then
    .error .forbidden
  else if spent < args.limit then
    .ok { apiKey := i.record.apiKey, allowedRoutes := i.record.allowedRoutes,
          rateLimit := some i.record.rateLimit, expiresAt := some (Stamp.toSeconds i.record.expiresAt),
          exp := i.record.expiresAt.secs, iat := some now.secs }
  else .error .rateExceeded

/-- The pipeline's decision on an issued token as long as its record is in force. -/
theorem act_issued {g : Local} {s : Stores} {history : List Step} (hwindow : 1 ≤ g.window.secs)
    (hreflects : Reflects g history s) (hafter : After history u) (hfits : CounterTable.Fits g.window u)
    (hordered : Ordered args now i.record) (hnow : 0 ≤ now.secs)
    (htoken : extractBearer ("Bearer " ++ i.token) = some i.token)
    (hverify : g.keys.verify i.token = .ok (claimsOf i.record now))
    (hforce : InForce i.record.apiKey history i.record) :
    ∃ s', g.act u (.evaluate (some ("Bearer " ++ i.token)) path) s
      = .ok (due args i now u path (used g i.record.apiKey (windowStart u g.window) history), s') := by
  have hkey : (claimsOf i.record now).apiKey ≠ "" := apiKey_ne_of_verify hverify
  have hwhole := checkClaims_claimsOf hordered hnow hkey u path
  unfold due
  split at hwhole
  · next hexpired =>
    rw [if_pos hexpired]
    exact ⟨s, run_evaluate_of_refused htoken hverify hwhole⟩
  next halive =>
  rw [if_neg halive]
  split at hwhole
  · next hscope =>
    rw [if_pos hscope]
    exact ⟨s, run_evaluate_of_refused htoken hverify hwhole⟩
  next hscope =>
  rw [if_neg hscope]
  have hpresents : Presents g u (some ("Bearer " ++ i.token)) path (claimsOf i.record now) :=
    ⟨⟨i.token, htoken, hverify⟩, (checkClaims_eq_ok_iff.1 hwhole).2⟩
  have hlive : u < i.record.expiresAt := Instant.lt_of_secs_lt (not_le.1 halive)
  obtain ⟨s', hact, -⟩ := hreflects.counted hwindow hafter hfits
    (entitled?_eq_some_iff.2 ⟨hpresents, hforce, hlive⟩)
  exact ⟨s', hordered.limit ▸ hact⟩

/-- **An issued token works as ordered**: when a token has been issued at a gateway that accepts its signer, and
its record is not replaced or removed later, each request that presents it is decided on as it was ordered. -/
theorem works_as_ordered {g : Local} {name secret : String} {s₀ : Stores} {tokens : TokenTable}
    {earlier later : List Step} (hkeys : Jwt.KeySet.hmac name secret = .ok g.keys)
    (hsigner : Jwt.Signer.ofSecret name secret = .ok signer) (hwindow : 1 ≤ g.window.secs)
    (hlimit : IsInt64 args.limit) (hnow : 0 ≤ now.secs) (hstart : g.after earlier = .ok s₀)
    (hissue : issue signer now storeNow fresh args s₀.tokens = (.ok i, tokens))
    (hlater : ∀ x ∈ later, ¬ x.Settles i.record.apiKey)
    (hclock : Chronological (⟨u, .evaluate (some ("Bearer " ++ i.token)) path⟩ ::
      (later ++ ⟨storeNow, .upsert i.record⟩ :: earlier)))
    (hfits : ∀ x ∈ (⟨u, .evaluate (some ("Bearer " ++ i.token)) path⟩ ::
      (later ++ ⟨storeNow, .upsert i.record⟩ :: earlier) : List Step), CounterTable.Fits g.window x.now) :
    g.after (⟨storeNow, .upsert i.record⟩ :: earlier) = .ok { s₀ with tokens } ∧
      ∃ s s', g.after (later ++ ⟨storeNow, .upsert i.record⟩ :: earlier) = .ok s ∧
        g.act u (.evaluate (some ("Bearer " ++ i.token)) path) s
          = .ok (due args i now u path (used g i.record.apiKey (windowStart u g.window)
              (later ++ ⟨storeNow, .upsert i.record⟩ :: earlier)), s') := by
  obtain ⟨record, hrecord, hwritten, hi⟩ := issue_eq_ok_iff.1 hissue
  have hi' : i.record = record := by rw [hi]; rfl
  subst hi'
  have hordered := ordered_of_record hrecord
  have hcheck : i.record.check storeNow = .ok () := TokenTable.upsert_eq_ok_iff.1 (congrArg Prod.fst hwritten)
  have hverify := verify_issued hkeys hsigner hordered hnow hlimit (TokenRecord.apiKey_ne_of_check hcheck)
  have htoken := extractBearer_issued signer now i.record
  rw [← hi] at hverify htoken
  have hforce : InForce i.record.apiKey (later ++ ⟨storeNow, .upsert i.record⟩ :: earlier) i.record :=
    ⟨later, storeNow, earlier, rfl, rfl, hcheck, hlater⟩
  obtain ⟨s, hs, hreflects⟩ := exists_after hwindow hclock.2 fun x hx => hfits x (List.mem_cons_of_mem _ hx)
  obtain ⟨s', hact⟩ := act_issued hwindow hreflects hclock.1 (hfits _ List.mem_cons_self) hordered hnow htoken
    hverify hforce
  refine ⟨?_, s, s', hs, hact⟩
  simp only [Local.after, hstart, Local.act, hwritten]
  rfl

/-- An order with blanks around its key and one of its routes, and a route that is nothing but a blank. -/
def trialOrder : IssueRequest where
  apiKey := some " k"
  limit := 1
  ttlHours := 1
  routes := [" /a/* ", " "]

def trialRecord : TokenRecord where
  apiKey := "k"
  rateLimit := 1
  expiresAt := { secs := 3700, nanos := 500000000 }
  allowedRoutes := ["/a/*"]

def trialIssued : Issued :=
  issued { hash := .sha256, secret := [115] } { secs := 100, nanos := 500000000 } trialRecord

/-- Its token is good until the second begins in which the record expires. -/
theorem trialOrder_works :
    ∃ s s', oneLetter.after [⟨{ secs := 101 }, .upsert trialRecord⟩] = .ok s ∧
      oneLetter.act { secs := 3699 } (.evaluate (some ("Bearer " ++ trialIssued.token)) "/a/b") s
        = .ok (.ok (claimsOf trialRecord { secs := 100, nanos := 500000000 }), s') := by
  have hkeys : Jwt.KeySet.hmac "HS256" "s" = .ok oneLetter.keys := rfl
  have hsigner : Jwt.Signer.ofSecret "HS256" "s" = .ok { hash := .sha256, secret := [115] } := rfl
  have hrecord : trialOrder.record { secs := 100, nanos := 500000000 } "fresh" = .ok trialRecord := rfl
  have hissue : issue { hash := .sha256, secret := [115] } { secs := 100, nanos := 500000000 } { secs := 101 }
      "fresh" trialOrder ∅ = (.ok trialIssued, (∅ : TokenTable).insert "k" trialRecord) :=
    issue_eq_ok_iff.2 ⟨trialRecord, hrecord, rfl, rfl⟩
  have hstart : oneLetter.after [] = .ok {} := rfl
  have hlater : ∀ x ∈ ([] : List Step), ¬ x.Settles "k" := by simp
  have hclock : Chronological [⟨{ secs := 3699 }, .evaluate (some ("Bearer " ++ trialIssued.token)) "/a/b"⟩,
      ⟨{ secs := 101 }, .upsert trialRecord⟩] := by
    simp [Chronological, After]
    decide
  have hfits : ∀ x ∈ ([⟨{ secs := 3699 }, .evaluate (some ("Bearer " ++ trialIssued.token)) "/a/b"⟩,
      ⟨{ secs := 101 }, .upsert trialRecord⟩] : List Step), CounterTable.Fits oneLetter.window x.now := by
    simp [CounterTable.Fits]
    decide
  obtain ⟨-, s, s', hs, hact⟩ :=
    works_as_ordered hkeys hsigner (by decide) (by decide) (by decide) hstart hissue hlater hclock hfits
  exact ⟨s, s', hs, hact.trans rfl⟩

end Turnstile.Command
