import Turnstile.Remote.Command
import Turnstile.Token.Fields
/-!
# Token records on the shared server

A record lies under its key, behind a fixed front, as a handful of fields with a deadline that is the
record's own expiry in whole seconds. A record that is found dead is removed by whoever finds it, with a
command of its own; whether that succeeds makes no difference to the answer.
-/

namespace Turnstile.Remote

open Time

def defaultTokenStem : String := "token:"

def fetch (stem key : String) : Operation (Except StoreError TokenRecord) :=
  if key.isEmpty then .done (.error (.invalid "empty api_key"))
  else
    let name := stem ++ key
    .ask (.command (.readFields name)) fun found =>
      match found with
      | .error reason => .done (.error (.backend ("HGETALL " ++ name ++ ": " ++ reason)))
      | .ok [] => .done (.error .notFound)
      | .ok fields =>
        match TokenRecord.ofFields key fields with
        | .error e => .done (.error e)
        | .ok record =>
          .ask .clock fun now =>
            if record.isExpiredAt now then
              .ask (.command (.remove name)) fun _ => .done (.error .expired)
            else .done (.ok record)

def upsert (stem : String) (r : TokenRecord) : Operation (Except StoreError Unit) :=
  .ask .clock fun now =>
    match r.check now with
    | .error e => .done (.error e)
    | .ok () =>
      let name := stem ++ r.apiKey
      .ask (.command (.writeFields name r.toFields r.expiresAt.secs)) fun written =>
        match written with
        | .ok () => .done (.ok ())
        | .error reason => .done (.error (.backend ("upsert " ++ name ++ ": " ++ reason)))

def delete (stem key : String) : Operation (Except StoreError Unit) :=
  if key.isEmpty then .done (.error (.invalid "empty api_key"))
  else
    let name := stem ++ key
    .ask (.command (.remove name)) fun removed =>
      match removed with
      | .ok () => .done (.ok ())
      | .error reason => .done (.error (.backend ("DEL " ++ name ++ ": " ++ reason)))

def ping : Operation (Except StoreError Unit) :=
  .ask (.command .ping) fun answer =>
    match answer with
    | .ok () => .done (.ok ())
    | .error reason => .done (.error (.backend ("PING: " ++ reason)))

end Turnstile.Remote
