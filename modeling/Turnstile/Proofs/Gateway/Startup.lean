import Turnstile.Gateway.Startup
import Turnstile.Proofs.Config.Validation
import Turnstile.Proofs.Jwt.Names
import Turnstile.Proofs.Token.Memory
/-!
# Accepted settings start

Validation reads the name of the algorithm and the address of the service, and setting up reads them again with
other code. Both come to the same, so a gateway with a shared secret and records in memory can only fail to start
for a record that the store refuses, and once started it accepts what a signer with the same name and secret
signs (`accepted_starts`).
-/

namespace Turnstile.Gateway

open Time Config Checks

variable {clock : Nat → Instant} {s : Settings} {t : TokenTable} {seeds : List TokenRecord} {e : SetupError}

/-! ### Records from the start -/

theorem seed_of_ok {r : TokenRecord} {rest : List TokenRecord} {t' : TokenTable}
    (h : t.upsert (clock 0) r = (.ok (), t')) :
    seed clock t (r :: rest) = seed (fun n => clock (n + 1)) t' rest := by
  rw [seed, h]

theorem seed_of_error {r : TokenRecord} {rest : List TokenRecord} {t' : TokenTable} {cause : StoreError}
    (h : t.upsert (clock 0) r = (.error cause, t')) : seed clock t (r :: rest) = .error (seedError r cause) := by
  rw [seed, h]

/-- The store takes the first records and refuses the next one. -/
def Refused (clock : Nat → Instant) (t : TokenTable) (seeds : List TokenRecord) (e : SetupError) : Prop :=
  ∃ before r after t' cause, seeds = before ++ r :: after ∧ seed clock t before = .ok t' ∧
    t'.upsert (clock before.length) r = (.error cause, t') ∧ e = seedError r cause

theorem seed_append {before rest : List TokenRecord} {t' : TokenTable} (h : seed clock t before = .ok t') :
    seed clock t (before ++ rest) = seed (fun n => clock (n + before.length)) t' rest := by
  induction before generalizing clock t with
  | nil =>
    cases h
    rfl
  | cons r before ih =>
    rcases hwritten : t.upsert (clock 0) r with ⟨cause | _, t''⟩
    · rw [seed_of_error hwritten] at h
      cases h
    · rw [seed_of_ok hwritten] at h
      rw [List.cons_append, seed_of_ok hwritten, ih h]
      rfl

/-- Filling the store fails just if it refuses a record, and reports the first that it refuses. -/
theorem seed_eq_error_iff : seed clock t seeds = .error e ↔ Refused clock t seeds e := by
  constructor
  · intro h
    induction seeds generalizing clock t with
    | nil => cases h
    | cons r rest ih =>
      rcases hwritten : t.upsert (clock 0) r with ⟨cause | _, t'⟩
      · rw [seed_of_error hwritten] at h
        cases h
        obtain ⟨-, rfl⟩ := TokenTable.upsert_eq_error_iff.1 hwritten
        exact ⟨[], r, rest, _, cause, rfl, rfl, hwritten, rfl⟩
      · rw [seed_of_ok hwritten] at h
        obtain ⟨before, r', after, t'', cause, rfl, hbefore, hrefused, rfl⟩ := ih h
        exact ⟨r :: before, r', after, t'', cause, rfl, by rw [seed_of_ok hwritten, hbefore], hrefused, rfl⟩
  · rintro ⟨before, r, after, t', cause, rfl, hbefore, hrefused, rfl⟩
    rw [seed_append hbefore]
    exact seed_of_error (by rwa [Nat.zero_add])

/-! ### Setting up -/

theorem exists_proxy {text : String} (h : isWebAddress text = true) :
    ∃ proxy, Proxy.ofTarget text = .ok proxy := by
  rw [isWebAddress] at h
  rw [Proxy.ofTarget]
  cases htarget : Url.parse? text with
  | none =>
    rw [htarget] at h
    cases h
  | some target => exact ⟨{ target }, rfl⟩

/-- What setting up comes to with records in memory, if key set and service can be had. -/
theorem start_eq_map {keys : Jwt.KeySet} {proxy : Proxy} (s : Settings) (clock : Nat → Instant)
    (reach : Remote.Address → Remote.Attempt)
    (hkeys : Jwt.KeySet.ofSettings s.token.algorithm s.token.secret s.token.publicKeyPem = .ok keys)
    (hmemory : s.storage.backend = .memory) (hproxy : Proxy.ofTarget s.service.targetUrl = .ok proxy) :
    App.start clock reach s = (seed clock ∅ s.storage.seedTokens).map fun tokens =>
      { keys, stores := .memory tokens s.storage.ratePrefix, window := Rate.windowOrDefault s.rateLimit.window,
        limits := limitsOf s, proxy } := by
  rw [App.start, hkeys, Stores.ofSettings, hmemory, hproxy]
  cases seed clock ∅ s.storage.seedTokens with
  | error e => rfl
  | ok tokens => rfl

/-- **Accepted settings start.** With the name of a shared-secret algorithm and records in memory, setting up fails
only for a record that the store refuses, which is the one reported. A signer can be made of the same name and
secret, and a gateway that has started accepts whatever claims it signs, if they have a key and no negative
expiry. -/
theorem accepted_starts (haccepted : s.validate.1 = .ok ()) (hname : s.token.isHmac = true)
    (hmemory : s.storage.backend = .memory) (clock : Nat → Instant)
    (reach : Remote.Address → Remote.Attempt) :
    ∃ signer, Jwt.Signer.ofSecret s.token.algorithm s.token.secret = .ok signer ∧
      (∀ e, App.start clock reach s.validate.2 = .error e ↔ Refused clock ∅ s.storage.seedTokens e) ∧
      ∀ app, App.start clock reach s.validate.2 = .ok app →
        ∀ c : Claims, c.Fits64 → c.apiKey ≠ "" → 0 ≤ c.exp → app.keys.verify (signer.sign c) = .ok c := by
  rw [Settings.fst_validate] at haccepted
  have hacceptable := Settings.check_eq_ok_iff.1 haccepted
  have hsecret := Settings.secret_ne_of_check hacceptable.token hname
  obtain ⟨signer, hsigner⟩ := Jwt.exists_signer hname hsecret
  have hkeys := (Jwt.ofSettings_of_hmac hname s.token.publicKeyPem).trans (Jwt.hmac_of_ofSecret hsigner)
  obtain ⟨proxy, hproxy⟩ := exists_proxy hacceptable.target
  -- Validation has filled in limits only, which setting up takes as they are.
  have hsettings : s.validate.2 = s.normalize := by rw [Settings.validate, haccepted]
  have hstart := start_eq_map s.normalize clock reach hkeys hmemory hproxy
  rw [hsettings, hstart]
  refine ⟨signer, hsigner, ?_, ?_⟩
  · intro e
    rw [← seed_eq_error_iff, map_eq_error_iff]
    rfl
  · intro app happ c hfits hkey hexp
    obtain ⟨tokens, -, rfl⟩ := map_eq_ok_iff.1 happ
    exact Jwt.verify_of_signed signer hfits hkey hexp

/-- Two records from the start, for an algorithm whose name is written with a long s. -/
def longSettings : Settings where
  service := { targetUrl := "http://a", timeoutSecs := 0 }
  token := { algorithm := "hſ512", secret := "s" }
  storage := { backend := .memory, seedTokens := [
    { apiKey := "k", rateLimit := 1, expiresAt := { secs := 7 } },
    { apiKey := "m", rateLimit := 1, expiresAt := { secs := 8 } }] }

/-- The gateway starts while both records are alive, and accepts a token for the first. When the clock has come to
the expiry of the second one before it is written, the gateway does not start. -/
theorem longSettings_start :
    ∃ signer app, Jwt.Signer.ofSecret "hſ512" "s" = .ok signer ∧
      App.start (fun n => { secs := 6 + n }) (fun _ => .silent) longSettings.validate.2 = .ok app ∧
      app.keys.verify (signer.sign { apiKey := "k", exp := 7 }) = .ok { apiKey := "k", exp := 7 } ∧
      App.start (fun n => { secs := 6 + 2 * n }) (fun _ => .silent) longSettings.validate.2
        = .error (seedError { apiKey := "m", rateLimit := 1, expiresAt := { secs := 8 } } .expired) := by
  have haccepted : longSettings.validate.1 = .ok () := by
    rw [Settings.fst_validate]
    rfl
  have hname : longSettings.token.isHmac = true := by decide
  obtain ⟨signer, hsigner, -, haccepts⟩ :=
    accepted_starts haccepted hname rfl (fun n => { secs := 6 + n }) fun _ => .silent
  obtain ⟨-, -, hfails, -⟩ :=
    accepted_starts haccepted hname rfl (fun n => { secs := 6 + 2 * n }) fun _ => .silent
  have hstarted : ∃ app, App.start (fun n => { secs := 6 + n }) (fun _ => .silent) longSettings.validate.2
      = .ok app := ⟨_, rfl⟩
  obtain ⟨app, happ⟩ := hstarted
  have hfits : Claims.Fits64 { apiKey := "k", exp := 7 } := by
    refine ⟨by decide, ?_, ?_⟩
    · intro n hn
      cases hn
    · intro n hn
      cases hn
  refine ⟨signer, app, hsigner, happ, haccepts app happ _ hfits (by decide) (by decide), ?_⟩
  exact (hfails _).2 ⟨[{ apiKey := "k", rateLimit := 1, expiresAt := { secs := 7 } }], _, [], _, .expired, rfl, rfl,
    rfl, rfl⟩

end Turnstile.Gateway
