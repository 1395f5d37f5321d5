import Turnstile.Config.Settings
import Turnstile.Proofs.Checks
/-!
# Validation

Settings are either refused and left alone, or accepted and given defaults in the place of the limits that are
zero; validating them again then changes nothing (`validation_settles`). No check looks at a limit, and the
checks come before the first change, so neither the verdict nor what is left of refused settings depends on
where they stand.
-/

namespace Turnstile.Config

open Checks

/-! ### Limits -/

/-- The limits that stand for a default where they are zero. -/
inductive Limit where
  | requestTimeout
  | bodySize
  | serviceConnect
  | serviceTimeout
  | storageConnect
  | storageOperation
deriving DecidableEq, Repr

def Limit.get (limit : Limit) (s : Settings) : Nat :=
  match limit with
  | requestTimeout => s.server.requestTimeoutSecs
  | bodySize => s.server.maxBodyBytes
  | serviceConnect => s.service.connectTimeoutSecs
  | serviceTimeout => s.service.timeoutSecs
  | storageConnect => s.storage.connectTimeoutSecs
  | storageOperation => s.storage.operationTimeoutMs

/-- The limit where nothing is configured. -/
def Limit.default (limit : Limit) : Nat := limit.get {}

/-- The settings with other limits, and all else as it is. -/
def Settings.withLimits (s : Settings) (value : Limit → Nat) : Settings :=
  { s with
    server := { s.server with
      requestTimeoutSecs := value .requestTimeout
      maxBodyBytes := value .bodySize }
    service := { s.service with
      connectTimeoutSecs := value .serviceConnect
      timeoutSecs := value .serviceTimeout }
    storage := { s.storage with
      connectTimeoutSecs := value .storageConnect
      operationTimeoutMs := value .storageOperation } }

variable {s : Settings} {value : Limit → Nat}

@[simp] theorem Limit.get_withLimits (limit : Limit) (s : Settings) (value : Limit → Nat) :
    limit.get (s.withLimits value) = value limit := by
  cases limit <;> rfl

theorem Limit.default_pos (limit : Limit) : 0 < limit.default := by
  cases limit <;> decide

namespace Settings

theorem withLimits_get (s : Settings) : s.withLimits (fun limit => limit.get s) = s := rfl

theorem orDefault_pos {n default : Nat} (h : 0 < default) : 0 < orDefault n default := by
  unfold orDefault
  split
  · exact h
  · omega

theorem orDefault_of_pos {n : Nat} (h : 0 < n) (default : Nat) : orDefault n default = n :=
  if_neg (Nat.ne_of_gt h)

/-- Defaults are put in the place of limits, and of nothing else. -/
theorem normalize_eq (s : Settings) :
    s.normalize = s.withLimits fun limit => orDefault (limit.get s) limit.default := rfl

/-- Settings whose limits are positive are in order as they are. -/
theorem normalize_of_pos (h : ∀ limit : Limit, 0 < limit.get s) : s.normalize = s := by
  have hkept : (fun limit : Limit => orDefault (limit.get s) limit.default) = fun limit => limit.get s := by
    funext limit
    exact orDefault_of_pos (h limit) limit.default
  rw [normalize_eq, hkept, withLimits_get]

/-! ### Checks -/

/-- No check looks at a limit. -/
theorem check_withLimits (s : Settings) (value : Limit → Nat) : (s.withLimits value).check = s.check := rfl

theorem require_eq_ok_iff {holds : Bool} {reason : String} :
    require holds reason = .ok () ↔ holds = true := by
  cases holds <;> simp [require]

theorem secret_ne_of_check {t : TokenSettings} (h : t.check = .ok ()) (hname : t.isHmac = true) :
    t.secret ≠ "" := by
  rw [TokenSettings.check, check_bind_eq_ok_iff, if_pos hname] at h
  simpa using require_eq_ok_iff.1 h.2

/-- What accepted settings have to be. -/
structure Acceptable (s : Settings) : Prop where
  port : s.server.port ≠ 0
  target_nonempty : s.service.targetUrl ≠ ""
  target : isWebAddress s.service.targetUrl = true
  token : s.token.check = .ok ()
  storage : s.storage.check = .ok ()
  window_pos : 0 < s.rateLimit.windowSecs
  window_le : s.rateLimit.windowSecs ≤ maxWindowSecs
  tracing : s.tracing.check = .ok ()
  metrics : s.metrics.check = .ok ()

theorem check_eq_ok_iff : s.check = .ok () ↔ s.Acceptable := by
  simp only [check, check_bind_eq_ok_iff, require_eq_ok_iff, Bool.and_eq_true, decide_eq_true_eq, bne_iff_ne,
    Bool.not_eq_true', String.isEmpty_eq_false_iff]
  constructor
  · rintro ⟨hport, hnonempty, htarget, htoken, hstorage, ⟨hpos, hle⟩, htracing, hmetrics⟩
    exact ⟨hport, hnonempty, htarget, htoken, hstorage, hpos, hle, htracing, hmetrics⟩
  · intro h
    exact ⟨h.port, h.target_nonempty, h.target, h.token, h.storage, ⟨h.window_pos, h.window_le⟩, h.tracing,
      h.metrics⟩

/-! ### Validation -/

/-- The verdict is that of the checks. -/
theorem fst_validate (s : Settings) : s.validate.1 = s.check := by
  rw [validate]
  cases s.check with
  | error e => rfl
  | ok _ => rfl

/-- What becomes of accepted settings: no limit is zero any more, those that were have their defaults, and nothing
else has changed. -/
structure Completed (s s' : Settings) : Prop where
  frame : ∃ value, s' = s.withLimits value
  kept : ∀ limit : Limit, limit.get s ≠ 0 → limit.get s' = limit.get s
  filled : ∀ limit : Limit, limit.get s = 0 → limit.get s' = limit.default
  pos : ∀ limit : Limit, 0 < limit.get s'

theorem completed_normalize (s : Settings) : s.Completed s.normalize := by
  have hlimit (limit : Limit) : limit.get s.normalize = orDefault (limit.get s) limit.default := by
    rw [normalize_eq, Limit.get_withLimits]
  refine ⟨⟨_, normalize_eq s⟩, ?_, ?_, ?_⟩
  · intro limit hne
    rw [hlimit]
    exact orDefault_of_pos (Nat.pos_of_ne_zero hne) _
  · intro limit hzero
    rw [hlimit, hzero]
    exact if_pos rfl
  · intro limit
    rw [hlimit]
    exact orDefault_pos limit.default_pos

/-- **Validation changes all that it should or nothing, and once.** Refused settings stay as they were. Accepted
ones are completed, and a second validation accepts them and changes nothing. The verdict, and what is reported
with it, is the same wherever the limits stand. -/
theorem validation_settles (s : Settings) :
    (∀ e, s.validate.1 = .error e → s.validate.2 = s) ∧
      (s.validate.1 = .ok () →
        s.Completed s.validate.2 ∧ s.validate.2.validate = (.ok (), s.validate.2)) ∧
      ∀ value, (s.withLimits value).validate.1 = s.validate.1 := by
  refine ⟨?_, ?_, ?_⟩
  · intro e hrefused
    rw [fst_validate] at hrefused
    rw [validate, hrefused]
  · intro haccepted
    rw [fst_validate] at haccepted
    have hcompleted := completed_normalize s
    have hsettings : s.validate.2 = s.normalize := by rw [validate, haccepted]
    rw [hsettings]
    -- The checks see the same settings again, and find no limit to fill in.
    have hagain : s.normalize.check = .ok () := by
      rw [normalize_eq, check_withLimits, haccepted]
    refine ⟨hcompleted, ?_⟩
    rw [validate, hagain, normalize_of_pos hcompleted.pos]
  · intro value
    rw [fst_validate, fst_validate, check_withLimits]

/-- Settings with two limits of zero and one of the operator's own. -/
def trialSettings : Settings where
  server := { requestTimeoutSecs := 0 }
  service := { targetUrl := "http://a", timeoutSecs := 7 }
  token := { algorithm := "hs384", secret := "s" }
  storage := { operationTimeoutMs := 0 }

/-- Limits of zero are filled in and the other one is kept; without a service the settings are refused, and
their limits of zero stay. -/
theorem trialSettings_settle :
    trialSettings.validate.1 = .ok () ∧
      Limit.requestTimeout.get trialSettings.validate.2 = 30 ∧
      Limit.storageOperation.get trialSettings.validate.2 = 2000 ∧
      Limit.serviceTimeout.get trialSettings.validate.2 = 7 ∧
      trialSettings.validate.2.validate = (.ok (), trialSettings.validate.2) ∧
      { trialSettings with service := {} }.validate.2 = { trialSettings with service := {} } := by
  have haccepted : trialSettings.validate.1 = .ok () := by
    rw [fst_validate]
    rfl
  have hrefused : { trialSettings with service := {} }.validate.1
      = .error (.configuration "upstream.target_url is required") := by
    rw [fst_validate]
    rfl
  obtain ⟨-, hcompletes, -⟩ := validation_settles trialSettings
  obtain ⟨hcompleted, hagain⟩ := hcompletes haccepted
  refine ⟨haccepted, hcompleted.filled _ rfl, hcompleted.filled _ rfl, hcompleted.kept _ ?_, hagain, ?_⟩
  · decide
  · exact (validation_settles _).1 _ hrefused

end Settings

end Turnstile.Config
