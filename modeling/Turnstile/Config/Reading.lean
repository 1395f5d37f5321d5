import Turnstile.Config.Settings
/-!
# Reading settings

Settings are read off values of two kinds: JSON, where every value has to be of the type it is wanted
in, and the merged layers of files and environment, where a number may stand for a text and a text for a
number. What the sections and their fields are called is the same for both; a `Reader` says how a value
of one kind is understood. A field that is not given has its default, and unknown names are passed over.
-/

namespace Turnstile.Config

structure Reader (V : Type) where
  text? : V → Option String
  int? : V → Option Int
  nat? : (bound : Nat) → V → Option Nat
  bool? : V → Option Bool
  float? : V → Option Float
  isNull : V → Bool
  items? : V → Option (List V)
  choice? : (names : List String) → V → Option String
  /-- The fields with some names, as far as they are given. -/
  fields? : (names : List String) → V → Option (List (String × V))

namespace Reader

variable {V α : Type} (r : Reader V)

def optional? (read : V → Option α) (v : V) : Option (Option α) :=
  if r.isNull v then some none else (read v).map some

def field? (fields : List (String × V)) (name : String) (default : α) (read : V → Option α) : Option α :=
  match fields.lookup name with
  | none => some default
  | some v => read v

def oneOf? (name : α → String) (options : List α) (v : V) : Option α := do
  let chosen ← r.choice? (options.map name) v
  options.find? (name · == chosen)

def maxPort : Nat := 65535

def server? (v : V) : Option ServerSettings := do
  let f ← r.fields? ["host", "port", "request_timeout_secs", "max_body_bytes"] v
  let d : ServerSettings := {}
  return {
    host := ← field? f "host" d.host r.text?
    port := ← field? f "port" d.port (r.nat? maxPort)
    requestTimeoutSecs := ← field? f "request_timeout_secs" d.requestTimeoutSecs (r.nat? Text.maxNat64)
    maxBodyBytes := ← field? f "max_body_bytes" d.maxBodyBytes (r.nat? Text.maxNat64) }

def service? (v : V) : Option ServiceSettings := do
  let f ← r.fields? ["target_url", "connect_timeout_secs", "timeout_secs"] v
  let d : ServiceSettings := {}
  return {
    targetUrl := ← field? f "target_url" d.targetUrl r.text?
    connectTimeoutSecs := ← field? f "connect_timeout_secs" d.connectTimeoutSecs (r.nat? Text.maxNat64)
    timeoutSecs := ← field? f "timeout_secs" d.timeoutSecs (r.nat? Text.maxNat64) }

def token? (v : V) : Option TokenSettings := do
  let f ← r.fields? ["algorithm", "secret", "public_key_pem"] v
  let d : TokenSettings := {}
  return {
    algorithm := ← field? f "algorithm" d.algorithm r.text?
    secret := ← field? f "secret" d.secret r.text?
    publicKeyPem := ← field? f "public_key_pem" d.publicKeyPem (r.optional? r.text?) }

/-- A record; only its routes may be left out. -/
def record? (v : V) : Option TokenRecord := do
  let f ← r.fields? ["api_key", "rate_limit", "expires_at", "allowed_routes"] v
  return {
    apiKey := ← f.lookup "api_key" >>= r.text?
    rateLimit := ← f.lookup "rate_limit" >>= r.int?
    expiresAt := ← f.lookup "expires_at" >>= r.text? >>= Time.Stamp.lenient?
    allowedRoutes := ← field? f "allowed_routes" [] fun v => r.items? v >>= (·.mapM r.text?) }

def storage? (v : V) : Option StorageSettings := do
  let f ← r.fields? ["backend", "redis_url", "token_prefix", "rate_prefix", "connect_timeout_secs",
    "operation_timeout_ms", "seed_tokens"] v
  let d : StorageSettings := {}
  return {
    backend := ← field? f "backend" d.backend (r.oneOf? StorageBackend.name [.redis, .memory])
    redisUrl := ← field? f "redis_url" d.redisUrl r.text?
    tokenPrefix := ← field? f "token_prefix" d.tokenPrefix r.text?
    ratePrefix := ← field? f "rate_prefix" d.ratePrefix r.text?
    connectTimeoutSecs := ← field? f "connect_timeout_secs" d.connectTimeoutSecs (r.nat? Text.maxNat64)
    operationTimeoutMs := ← field? f "operation_timeout_ms" d.operationTimeoutMs (r.nat? Text.maxNat64)
    seedTokens := ← field? f "seed_tokens" d.seedTokens fun v => r.items? v >>= (·.mapM r.record?) }

def rateLimit? (v : V) : Option RateSettings := do
  let f ← r.fields? ["window_secs"] v
  let d : RateSettings := {}
  return { windowSecs := ← field? f "window_secs" d.windowSecs (r.nat? Text.maxNat64) }

def logging? (v : V) : Option LogSettings := do
  let f ← r.fields? ["level", "format"] v
  let d : LogSettings := {}
  return {
    level := ← field? f "level" d.level r.text?
    format := ← field? f "format" d.format (r.oneOf? LogFormat.name [.pretty, .json]) }

def tracing? (v : V) : Option TracingSettings := do
  let f ← r.fields? ["enabled", "otlp_endpoint", "service_name", "sampling_ratio"] v
  let d : TracingSettings := {}
  return {
    enabled := ← field? f "enabled" d.enabled r.bool?
    otlpEndpoint := ← field? f "otlp_endpoint" d.otlpEndpoint r.text?
    serviceName := ← field? f "service_name" d.serviceName r.text?
    samplingRatio := ← field? f "sampling_ratio" d.samplingRatio r.float? }

def metrics? (v : V) : Option MetricsSettings := do
  let f ← r.fields? ["enabled", "path"] v
  let d : MetricsSettings := {}
  return {
    enabled := ← field? f "enabled" d.enabled r.bool?
    path := ← field? f "path" d.path r.text? }

def observability? (v : V) : Option (TracingSettings × MetricsSettings) := do
  let f ← r.fields? ["tracing", "metrics"] v
  return (← field? f "tracing" {} r.tracing?, ← field? f "metrics" {} r.metrics?)

def settings? (v : V) : Option Settings := do
  let f ← r.fields? ["server", "upstream", "token", "storage", "rate_limit", "logging", "observability"] v
  let (tracing, metrics) ← field? f "observability" ({}, {}) r.observability?
  return {
    server := ← field? f "server" {} r.server?
    service := ← field? f "upstream" {} r.service?
    token := ← field? f "token" {} r.token?
    storage := ← field? f "storage" {} r.storage?
    rateLimit := ← field? f "rate_limit" {} r.rateLimit?
    logging := ← field? f "logging" {} r.logging?
    tracing, metrics }

end Reader

/-! ### Settings in JSON -/

/-- JSON values stand for what they are. A name may also be given as the only member of an object,
with the value `null`. -/
def jsonReader : Reader Json.Value where
  text? := Json.Value.text?
  int? := Json.Value.int64?
  nat? := Json.Value.nat?
  bool? := Json.Value.bool?
  float? := Json.Value.float?
  isNull := fun v => match v with | .null => true | _ => false
  items? := Json.Value.list? some
  choice? := fun names v =>
    match v with
    | .string s => s.filter names.contains
    | .object [(some s, .null)] => if names.contains s then some s else none
    | _ => none
  fields? := fun names v => (Json.Fields.of? names v).map (·.given)

def Settings.ofJson? (text : String) : Option Settings := Json.parse text >>= jsonReader.settings?

end Turnstile.Config
