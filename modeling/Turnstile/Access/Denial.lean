/-!
# Denials

The ways in which the pipeline turns a request away. Denials of the credential invite the caller to come
back with another one; failures of a backend are nobody's fault but the gateway's.
-/

namespace Turnstile

inductive AccessDenied where
  | missingCredential (reason : String)
  | invalidCredential (reason : String)
  | forbidden
  | rateExceeded
  | tokenStore (reason : String)
  | rateLimiter (reason : String)
deriving DecidableEq, Repr

namespace AccessDenied

def message : AccessDenied → String
  | .missingCredential reason => "missing credential: " ++ reason
  | .invalidCredential reason => "invalid credential: " ++ reason
  | .forbidden => "path not allowed"
  | .rateExceeded => "rate limit exceeded"
  | .tokenStore reason => "token store unavailable: " ++ reason
  | .rateLimiter reason => "rate limiter error: " ++ reason

/-- The label of the denial in logs and metrics. -/
def outcome : AccessDenied → String
  | .missingCredential _ => "missing_credential"
  | .invalidCredential _ => "invalid_credential"
  | .forbidden => "forbidden"
  | .rateExceeded => "rate_exceeded"
  | .tokenStore _ | .rateLimiter _ => "infrastructure_failure"

def isCredentialFailure : AccessDenied → Bool
  | .missingCredential _ | .invalidCredential _ => true
  | _ => false

def isInfrastructure : AccessDenied → Bool
  | .tokenStore _ | .rateLimiter _ => true
  | _ => false

end AccessDenied

end Turnstile
