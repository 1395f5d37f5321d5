import Turnstile.Proofs.Config.Tree
/-!
# Text settings

The settings that are texts, each with the path of names that leads to it. Of two trees that differ in the
value of one of them the same settings are read, but for that one (`TextSetting.follows`): the value alone
never decides whether the settings can be read.
-/

namespace Turnstile.Config

open Config.Tree (reader DifferAt)

/-! ### Settings that are texts -/

inductive TextSetting where
  | host
  | serviceUrl
  | algorithm
  | secret
  | publicKey
  | redisUrl
  | tokenPrefix
  | ratePrefix
  | logLevel
  | traceEndpoint
  | serviceName
  | metricsPath
deriving DecidableEq, Repr

namespace TextSetting

def names : TextSetting → List String
  | host => ["server", "host"]
  | serviceUrl => ["upstream", "target_url"]
  | algorithm => ["token", "algorithm"]
  | secret => ["token", "secret"]
  | publicKey => ["token", "public_key_pem"]
  | redisUrl => ["storage", "redis_url"]
  | tokenPrefix => ["storage", "token_prefix"]
  | ratePrefix => ["storage", "rate_prefix"]
  | logLevel => ["logging", "level"]
  | traceEndpoint => ["observability", "tracing", "otlp_endpoint"]
  | serviceName => ["observability", "tracing", "service_name"]
  | metricsPath => ["observability", "metrics", "path"]

/-- The text of a setting; only the public key may be left out. -/
def get? (setting : TextSetting) (s : Settings) : Option String :=
  match setting with
  | host => some s.server.host
  | serviceUrl => some s.service.targetUrl
  | algorithm => some s.token.algorithm
  | secret => some s.token.secret
  | publicKey => s.token.publicKeyPem
  | redisUrl => some s.storage.redisUrl
  | tokenPrefix => some s.storage.tokenPrefix
  | ratePrefix => some s.storage.ratePrefix
  | logLevel => some s.logging.level
  | traceEndpoint => some s.tracing.otlpEndpoint
  | serviceName => some s.tracing.serviceName
  | metricsPath => some s.metrics.path

def set (setting : TextSetting) (a : String) (s : Settings) : Settings :=
  match setting with
  | host => { s with server := { s.server with host := a } }
  | serviceUrl => { s with service := { s.service with targetUrl := a } }
  | algorithm => { s with token := { s.token with algorithm := a } }
  | secret => { s with token := { s.token with secret := a } }
  | publicKey => { s with token := { s.token with publicKeyPem := some a } }
  | redisUrl => { s with storage := { s.storage with redisUrl := a } }
  | tokenPrefix => { s with storage := { s.storage with tokenPrefix := a } }
  | ratePrefix => { s with storage := { s.storage with ratePrefix := a } }
  | logLevel => { s with logging := { s.logging with level := a } }
  | traceEndpoint => { s with tracing := { s.tracing with otlpEndpoint := a } }
  | serviceName => { s with tracing := { s.tracing with serviceName := a } }
  | metricsPath => { s with metrics := { s.metrics with path := a } }

@[simp] theorem get?_set (setting : TextSetting) (a : String) (s : Settings) :
    setting.get? (setting.set a s) = some a := by
  cases setting <;> rfl

end TextSetting

/-! ### Fields of trees that differ at a path -/

variable {α β : Type} {x y t₁ t₂ : Tree} {name : String} {path names : List String}
  {f₁ f₂ : List (String × Tree)} {a : String}

theorem lookup_filter_names (names : List String) (entries : List (String × Tree)) (name : String) :
    (entries.filter fun e => names.contains e.1).lookup name
      = if name ∈ names then entries.lookup name else none := by
  induction entries with
  | nil => simp
  | cons e rest ih =>
    obtain ⟨n, t⟩ := e
    rw [List.filter_cons, List.lookup_cons]
    by_cases hn : name = n
    · subst hn
      by_cases h : name ∈ names
      · simp [h]
      · simpa [h] using ih
    · rw [beq_false_of_ne hn, ← ih]
      by_cases h : n ∈ names
      · simp [h, List.lookup_cons, beq_false_of_ne hn]
      · simp [h]

/-- What is read off two trees that differ at a path is the same but for a change. -/
def Follows (read : Tree → Option α) (x y : Tree) (path : List String) (change : α → α) : Prop :=
  ∀ t₁ t₂, DifferAt x y path t₁ t₂ → read t₁ = (read t₂).map change

/-- A section that is read off its fields follows them. -/
theorem follows_of_fields {read : Tree → Option α} {body : List (String × Tree) → Option α} {change : α → α}
    (hread : ∀ t, read t = reader.fields? names t >>= body) (hname : name ∈ names)
    (hbody : ∀ f₁ f₂, DifferAt x y (name :: path) (.table f₁) (.table f₂) →
      body f₁ = (body f₂).bind fun v => some (change v)) :
    Follows read x y (name :: path) change := by
  intro t₁ t₂ h
  cases h with
  | within h₁ h₂ hwithin hbeside =>
    rw [hread, hread, Option.map_eq_bind]
    refine hbody _ _ (.within ?_ ?_ hwithin ?_)
    · rw [lookup_filter_names, if_pos hname, h₁]
    · rw [lookup_filter_names, if_pos hname, h₂]
    · intro other hother
      rw [lookup_filter_names, lookup_filter_names, hbeside other hother]

theorem field?_beside (h : DifferAt x y (name :: path) (.table f₁) (.table f₂)) {other : String}
    (hother : other ≠ name) (default : α) (read : Tree → Option α) :
    Reader.field? f₁ other default read = Reader.field? f₂ other default read := by
  cases h with
  | within _ _ _ hbeside => rw [Reader.field?, Reader.field?, hbeside other hother]

theorem bind_field?_within (h : DifferAt x y (name :: path) (.table f₁) (.table f₂)) {read : Tree → Option α}
    {change : α → α} (hread : Follows read x y path change) (default : α) (rest : α → Option β) :
    (Reader.field? f₁ name default read).bind rest
      = (Reader.field? f₂ name default read).bind fun v => rest (change v) := by
  cases h with
  | within h₁ h₂ hwithin _ =>
    rw [Reader.field?, Reader.field?, h₁, h₂]
    simp only [hread _ _ hwithin, Option.bind_map, Function.comp_def]

/-! ### Texts in their sections -/

/-- A value that stands for a text. -/
structure IsText (t : Tree) (a : String) : Prop where
  text? : reader.text? t = some a
  isNull : reader.isNull t = false

variable {b : String}

theorem follows_text (hx : IsText x a) (hy : IsText y b) : Follows reader.text? x y [] fun _ => a := by
  intro t₁ t₂ h
  cases h
  rw [hx.text?, hy.text?, Option.map_some]

theorem follows_optional (hx : IsText x a) (hy : IsText y b) :
    Follows (reader.optional? reader.text?) x y [] fun _ => some a := by
  intro t₁ t₂ h
  cases h
  simp [Reader.optional?, hx.text?, hx.isNull, hy.text?, hy.isNull]

/-- Each text in its section. -/
theorem follows_fields (hx : IsText x a) (hy : IsText y b) :
    Follows reader.server? x y ["host"] (fun s => { s with host := a }) ∧
    Follows reader.service? x y ["target_url"] (fun s => { s with targetUrl := a }) ∧
    Follows reader.token? x y ["algorithm"] (fun s => { s with algorithm := a }) ∧
    Follows reader.token? x y ["secret"] (fun s => { s with secret := a }) ∧
    Follows reader.token? x y ["public_key_pem"] (fun s => { s with publicKeyPem := some a }) ∧
    Follows reader.storage? x y ["redis_url"] (fun s => { s with redisUrl := a }) ∧
    Follows reader.storage? x y ["token_prefix"] (fun s => { s with tokenPrefix := a }) ∧
    Follows reader.storage? x y ["rate_prefix"] (fun s => { s with ratePrefix := a }) ∧
    Follows reader.logging? x y ["level"] (fun s => { s with level := a }) ∧
    Follows reader.tracing? x y ["otlp_endpoint"] (fun s => { s with otlpEndpoint := a }) ∧
    Follows reader.tracing? x y ["service_name"] (fun s => { s with serviceName := a }) ∧
    Follows reader.metrics? x y ["path"] (fun s => { s with path := a }) := by
  have htext := follows_text hx hy
  have hoptional := follows_optional hx hy
  refine ⟨?_, ?_, ?_, ?_, ?_, ?_, ?_, ?_, ?_, ?_, ?_, ?_⟩
  -- The other fields are read alike, and the one that the trees differ in follows its value.
  all_goals
    apply follows_of_fields (fun _ => rfl) (by simp)
    intro f₁ f₂ hf
    simp (disch := decide) [field?_beside hf, bind_field?_within hf htext, bind_field?_within hf hoptional,
      Option.bind_assoc]

/-! ### Sections in the settings -/

theorem follows_tracing {change : TracingSettings → TracingSettings}
    (h : Follows reader.tracing? x y path change) :
    Follows reader.observability? x y ("tracing" :: path) (Prod.map change id) := by
  apply follows_of_fields (fun _ => rfl) (by simp)
  intro f₁ f₂ hf
  simp (disch := decide) [field?_beside hf, bind_field?_within hf h, Option.bind_assoc]

theorem follows_metrics {change : MetricsSettings → MetricsSettings}
    (h : Follows reader.metrics? x y path change) :
    Follows reader.observability? x y ("metrics" :: path) (Prod.map id change) := by
  apply follows_of_fields (fun _ => rfl) (by simp)
  intro f₁ f₂ hf
  simp (disch := decide) [field?_beside hf, bind_field?_within hf h, Option.bind_assoc]

/-- Each section in the settings. -/
theorem follows_sections (x y : Tree) :
    (∀ path change, Follows reader.server? x y path change →
      Follows reader.settings? x y ("server" :: path) fun s => { s with server := change s.server }) ∧
    (∀ path change, Follows reader.service? x y path change →
      Follows reader.settings? x y ("upstream" :: path) fun s => { s with service := change s.service }) ∧
    (∀ path change, Follows reader.token? x y path change →
      Follows reader.settings? x y ("token" :: path) fun s => { s with token := change s.token }) ∧
    (∀ path change, Follows reader.storage? x y path change →
      Follows reader.settings? x y ("storage" :: path) fun s => { s with storage := change s.storage }) ∧
    (∀ path change, Follows reader.logging? x y path change →
      Follows reader.settings? x y ("logging" :: path) fun s => { s with logging := change s.logging }) ∧
    (∀ path change, Follows reader.observability? x y path change →
      Follows reader.settings? x y ("observability" :: path) fun s =>
        { s with tracing := (change (s.tracing, s.metrics)).1, metrics := (change (s.tracing, s.metrics)).2 }) := by
  refine ⟨?_, ?_, ?_, ?_, ?_, ?_⟩
  all_goals
    intro path change h
    apply follows_of_fields (fun _ => rfl) (by simp)
    intro f₁ f₂ hf
    simp (disch := decide) [field?_beside hf, bind_field?_within hf h, Option.bind_assoc]

/-- The value of a text setting decides nothing but the setting. -/
theorem TextSetting.follows (setting : TextSetting) (hx : IsText x a) (hy : IsText y b) :
    Follows reader.settings? x y setting.names (setting.set a) := by
  obtain ⟨hhost, hurl, halgorithm, hsecret, hkey, hredis, htokens, hrates, hlevel, hendpoint, hname, hpath⟩ :=
    follows_fields hx hy
  obtain ⟨hserver, hservice, htoken, hstorage, hlogging, hobservability⟩ := follows_sections x y
  cases setting with
  | host => exact hserver _ _ hhost
  | serviceUrl => exact hservice _ _ hurl
  | algorithm => exact htoken _ _ halgorithm
  | secret => exact htoken _ _ hsecret
  | publicKey => exact htoken _ _ hkey
  | redisUrl => exact hstorage _ _ hredis
  | tokenPrefix => exact hstorage _ _ htokens
  | ratePrefix => exact hstorage _ _ hrates
  | logLevel => exact hlogging _ _ hlevel
  | traceEndpoint => exact hobservability _ _ (follows_tracing hendpoint)
  | serviceName => exact hobservability _ _ (follows_tracing hname)
  | metricsPath => exact hobservability _ _ (follows_metrics hpath)

end Turnstile.Config
