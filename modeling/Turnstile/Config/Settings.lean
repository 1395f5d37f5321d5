import Turnstile.Decimal.Shortest
import Turnstile.Jwt.Keys
import Turnstile.Text.Blank
import Turnstile.Text.Quoted
import Turnstile.Token.Record
import Turnstile.Url.Address
/-!
# Settings

Everything that can be configured, with the values that hold where nothing is. `validate` checks the
settings, the first fault deciding, and then puts the defaults in place of limits that are zero. It has
no effect unless every check has passed, and what it puts in place is not looked at by any check.
-/

namespace Turnstile.Config

open Time

/-! ### Sections -/

structure ServerSettings where
  host : String := "0.0.0.0"
  port : Nat := 8080
  requestTimeoutSecs : Nat := 30
  maxBodyBytes : Nat := 10485760
deriving DecidableEq, Repr

structure ServiceSettings where
  targetUrl : String := ""
  connectTimeoutSecs : Nat := 5
  timeoutSecs : Nat := 30
deriving DecidableEq, Repr

structure TokenSettings where
  algorithm : String := "HS256"
  secret : String := ""
  publicKeyPem : Option String := none
deriving DecidableEq, Repr

inductive StorageBackend where
  | redis
  | memory
deriving DecidableEq, Repr

def StorageBackend.name : StorageBackend → String
  | .redis => "redis"
  | .memory => "memory"

structure StorageSettings where
  backend : StorageBackend := .redis
  redisUrl : String := "redis://127.0.0.1:6379"
  tokenPrefix : String := "token:"
  ratePrefix : String := "req_limit:"
  connectTimeoutSecs : Nat := 5
  operationTimeoutMs : Nat := 2000
  seedTokens : List TokenRecord := []
deriving DecidableEq, Repr

structure RateSettings where
  windowSecs : Nat := 60
deriving DecidableEq, Repr

inductive LogFormat where
  | pretty
  | json
deriving DecidableEq, Repr

def LogFormat.name : LogFormat → String
  | .pretty => "pretty"
  | .json => "json"

structure LogSettings where
  level : String := "info"
  format : LogFormat := .pretty
deriving DecidableEq, Repr

structure TracingSettings where
  enabled : Bool := false
  otlpEndpoint : String := "http://localhost:4317"
  serviceName : String := "access-gateway"
  /-- The part of traces that is kept, from 0 to 1. -/
  samplingRatio : Float := 1.0
deriving Repr

structure MetricsSettings where
  enabled : Bool := true
  path : String := "/metrics"
deriving DecidableEq, Repr

structure Settings where
  server : ServerSettings := {}
  service : ServiceSettings := {}
  token : TokenSettings := {}
  storage : StorageSettings := {}
  rateLimit : RateSettings := {}
  logging : LogSettings := {}
  tracing : TracingSettings := {}
  metrics : MetricsSettings := {}
deriving Repr

/-! ### Derived values -/

def TokenSettings.isHmac (t : TokenSettings) : Bool := Jwt.KeySet.namesFamily .hmac t.algorithm

def TokenSettings.isRsa (t : TokenSettings) : Bool := Jwt.KeySet.namesFamily .rsa t.algorithm

def TokenSettings.describe (t : TokenSettings) : String :=
  "TokenConfig \x7b algorithm: " ++ Text.quoted t.algorithm ++ ", secret: \"[hidden]\", public_key_pem: "
    ++ (if t.publicKeyPem.isSome then "Some(\"[hidden]\")" else "None") ++ " \x7d"

def RateSettings.window (r : RateSettings) : Duration := .ofSecs r.windowSecs

def StorageSettings.connectTimeout (s : StorageSettings) : Duration := .ofSecs s.connectTimeoutSecs

def StorageSettings.operationTimeout (s : StorageSettings) : Duration := .ofMillis s.operationTimeoutMs

/-! ### Checks -/

def require (holds : Bool) (reason : String) : Except SetupError Unit :=
  if holds then .ok () else .error (.configuration reason)

/-- Whether a text is an address that the hypertext protocol can ask. -/
def isWebAddress (s : String) : Bool :=
  match Url.parse? s with
  | some u => u.isWeb
  | none => false

def maxWindowSecs : Nat := 86400

def TokenSettings.check (t : TokenSettings) : Except SetupError Unit := do
  require (!t.algorithm.isEmpty) "token.algorithm is required"
  if t.isHmac then
    require (!t.secret.isEmpty) "token.secret is required for HMAC algorithms"
  else if t.isRsa then
    require (!(t.publicKeyPem.getD "").isEmpty) "token.public_key_pem is required for RSA algorithms"
  else
    require false ("token.algorithm " ++ Text.quoted t.algorithm ++ " is not supported")

/-- Checks how records are kept: records from the start are for the memory only. -/
def StorageSettings.check (s : StorageSettings) : Except SetupError Unit := do
  match s.backend with
  | .memory => return
  | .redis =>
    require (!s.redisUrl.isEmpty) "storage.redis_url is required"
    require s.seedTokens.isEmpty
      "storage.seed_tokens is only read by the memory backend; use `issue` for redis"

/-- Checks the export of traces, if there is any. -/
def TracingSettings.check (t : TracingSettings) : Except SetupError Unit := do
  if t.enabled then
    require (0.0 ≤ t.samplingRatio && t.samplingRatio ≤ 1.0)
      ("observability.tracing.sampling_ratio " ++ Decimal.floatText t.samplingRatio ++ " is outside 0.0..=1.0")
    require (!Text.isBlankText t.serviceName) "observability.tracing.service_name is required"
    require (isWebAddress t.otlpEndpoint)
      ("observability.tracing.otlp_endpoint " ++ Text.quoted t.otlpEndpoint ++ " is not an http(s) URL")

def probePaths : List String := ["/health", "/ready", "/live"]

/-- Whether metrics can be served under a path: it is absolute, and neither a probe's nor guarded. -/
def isMetricsPath (path : String) : Bool :=
  "/".toList.isPrefixOf path.toList && !probePaths.contains path && !"/api/v1/".toList.isPrefixOf path.toList

/-- Checks the export of metrics, if there is any. -/
def MetricsSettings.check (m : MetricsSettings) : Except SetupError Unit :=
  if m.enabled then
    require (isMetricsPath m.path) ("observability.metrics.path " ++ Text.quoted m.path ++ " is not usable")
  else .ok ()

namespace Settings

def check (s : Settings) : Except SetupError Unit := do
  require (s.server.port != 0) "server.port must be between 1 and 65535"
  require (!s.service.targetUrl.isEmpty) "upstream.target_url is required"
  require (isWebAddress s.service.targetUrl) "upstream.target_url must be a valid absolute http(s) URL"
  s.token.check
  s.storage.check
  require (0 < s.rateLimit.windowSecs && s.rateLimit.windowSecs ≤ maxWindowSecs)
    ("rate_limit.window_secs must be between 1 and " ++ Text.natText maxWindowSecs)
  s.tracing.check
  s.metrics.check

/-- A limit, or its default if it is zero. -/
def orDefault (limit default : Nat) : Nat := if limit = 0 then default else limit

/-- The settings with defaults in place of limits that are zero. -/
def normalize (s : Settings) : Settings :=
  let server : ServerSettings := {}
  let service : ServiceSettings := {}
  let storage : StorageSettings := {}
  { s with
    server := { s.server with
      requestTimeoutSecs := orDefault s.server.requestTimeoutSecs server.requestTimeoutSecs
      maxBodyBytes := orDefault s.server.maxBodyBytes server.maxBodyBytes }
    service := { s.service with
      connectTimeoutSecs := orDefault s.service.connectTimeoutSecs service.connectTimeoutSecs
      timeoutSecs := orDefault s.service.timeoutSecs service.timeoutSecs }
    storage := { s.storage with
      connectTimeoutSecs := orDefault s.storage.connectTimeoutSecs storage.connectTimeoutSecs
      operationTimeoutMs := orDefault s.storage.operationTimeoutMs storage.operationTimeoutMs } }

def validate (s : Settings) : Except SetupError Unit × Settings :=
  match s.check with
  | .ok () => (.ok (), s.normalize)
  | .error e => (.error e, s)

end Settings

end Turnstile.Config
