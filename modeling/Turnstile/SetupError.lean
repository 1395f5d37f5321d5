/-!
# Errors of setting up

What keeps the gateway, or one of its parts, from being built: settings that contradict each other,
keys that cannot be read, backends that cannot be reached.
-/

namespace Turnstile

inductive SetupError where
  | validation (reason : String)
  | configuration (reason : String)
  | storage (reason : String)
  | internal (reason : String)
deriving DecidableEq, Repr

def SetupError.message : SetupError → String
  | .validation r => "Validation error: " ++ r
  | .configuration r => "Configuration error: " ++ r
  | .storage r => "Storage error: " ++ r
  | .internal r => "Internal error: " ++ r

end Turnstile
