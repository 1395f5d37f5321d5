import Turnstile.Config.Settings
import Turnstile.Gateway.Proxy
import Turnstile.Remote.Address
import Turnstile.Remote.Tokens
import Turnstile.Remote.Counters
import Turnstile.Token.Memory
/-!
# Starting up

From settings to a gateway that can serve: the verification key, the stores, the limiter's window and the
service, in this order, and the first of them that cannot be set up is reported. Stores in memory begin
with the configured records, each of which has to be acceptable.
-/

namespace Turnstile.Gateway

open Time Config

inductive Stores where
  | memory (tokens : TokenTable) (rateStem : String)
  | shared (address : Remote.Address) (tokenStem rateStem : String)

structure App where
  keys : Jwt.KeySet
  stores : Stores
  window : Duration
  limits : ServerLimits
  proxy : Proxy

def seedError (r : TokenRecord) (e : StoreError) : SetupError :=
  .configuration ("seed token " ++ Text.quoted r.apiKey ++ " rejected: " ++ e.message)

/-- Puts configured records into a store, each at a reading of the clock; the first that is not acceptable is
reported. -/
def seed : (Nat → Instant) → TokenTable → List TokenRecord → Except SetupError TokenTable
  | _, t, [] => .ok t
  | clock, t, r :: rest =>
    match t.upsert (clock 0) r with
    | (.ok (), t) => seed (fun n => clock (n + 1)) t rest
    | (.error e, _) => .error (seedError r e)

def Stores.ofSettings (clock : Nat → Instant) (reach : Remote.Address → Remote.Attempt) (s : StorageSettings) :
    Except SetupError Stores :=
  match s.backend with
  | .redis => do
    let address ← Remote.connect reach s.redisUrl s.connectTimeout
    return .shared address s.tokenPrefix s.ratePrefix
  | .memory => do
    let tokens ← seed clock ∅ s.seedTokens
    return .memory tokens s.ratePrefix

def limitsOf (s : Settings) : ServerLimits where
  maxBodyBytes := s.server.maxBodyBytes
  requestTimeout := 1000 * s.server.requestTimeoutSecs
  storeTimeout := s.storage.operationTimeoutMs

/-- Sets a gateway up. `clock n` is what the clock shows when the `n`-th record is written. -/
def App.start (clock : Nat → Instant) (reach : Remote.Address → Remote.Attempt) (s : Settings) :
    Except SetupError App := do
  let keys ← (Jwt.KeySet.ofSettings s.token.algorithm s.token.secret s.token.publicKeyPem).mapError
    Jwt.KeyError.toSetupError
  let stores ← Stores.ofSettings clock reach s.storage
  let proxy ← Proxy.ofTarget s.service.targetUrl
  return { keys, stores, window := Rate.windowOrDefault s.rateLimit.window, limits := limitsOf s, proxy }

/-- Sets a gateway up within one instant. -/
def App.ofSettings (now : Instant) (reach : Remote.Address → Remote.Attempt) (s : Settings) :
    Except SetupError App :=
  App.start (fun _ => now) reach s

end Turnstile.Gateway
