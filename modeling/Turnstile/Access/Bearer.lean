import Turnstile.Text.Blank
import Turnstile.Text.Letters
/-!
# Bearer credentials

An `Authorization` value carries a token if it is the scheme `Bearer`, in any case, then a space, then
something that is not blank.
-/

namespace Turnstile

def extractBearer (value : String) : Option String :=
  let s := Text.trimChars value.toList
  match s.dropWhile (· != ' ') with
  | [] => none
  | _ :: rest =>
    let scheme := String.ofList (s.takeWhile (· != ' '))
    let token := Text.trimChars rest
    if Text.eqIgnoreAsciiCase scheme "Bearer" && !token.isEmpty then some (String.ofList token) else none

end Turnstile
