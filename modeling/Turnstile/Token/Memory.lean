import Turnstile.Table
import Turnstile.Token.Record
/-!
# Token records in memory

A token store of one process. A record that has expired is reported as such once, by the look-up that
removes it; from then on there is none. Every operation takes the present as an argument: the store
holds no clock.
-/

namespace Turnstile

open Time

abbrev TokenTable := Table TokenRecord

namespace TokenTable

/-- Removes the record of a key, unless it is alive. -/
def dropExpired (t : TokenTable) (key : String) (now : Instant) : TokenTable :=
  match t.get? key with
  | some r => if r.isExpiredAt now then t.erase key else t
  | none => t

def fetch (t : TokenTable) (now : Instant) (key : String) :
    Except StoreError TokenRecord × TokenTable :=
  if key.isEmpty then (.error (.invalid "empty api_key"), t)
  else
    match t.get? key with
    | none => (.error .notFound, t)
    | some r => if r.isExpiredAt now then (.error .expired, t.dropExpired key now) else (.ok r, t)

def upsert (t : TokenTable) (now : Instant) (r : TokenRecord) : Except StoreError Unit × TokenTable :=
  match r.check now with
  | .error e => (.error e, t)
  | .ok () => (.ok (), t.insert r.apiKey r)

def delete (t : TokenTable) (key : String) : Except StoreError Unit × TokenTable :=
  if key.isEmpty then (.error (.invalid "empty api_key"), t) else (.ok (), t.erase key)

/-- Asks whether the store can be reached, which it always can. -/
def ping (t : TokenTable) : Except StoreError Unit × TokenTable := (.ok (), t)

end TokenTable

end Turnstile
