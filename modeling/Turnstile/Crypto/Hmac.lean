import Turnstile.Crypto.Sha2
/-!
# Keyed hashes

The HMAC construction: the message is hashed behind the key, and the result once more. A key longer
than a block is hashed first, a shorter one is filled up with zeros.
-/

namespace Turnstile.Crypto

def hmacKey (h : Hash) (key : List UInt8) : List UInt8 :=
  let k := if h.blockLength < key.length then h.apply key else key
  k ++ List.replicate (h.blockLength - k.length) 0

/-- The authentication code of a message under a key. -/
def hmac (h : Hash) (key message : List UInt8) : List UInt8 :=
  let k := hmacKey h key
  h.apply (k.map (· ^^^ 0x5c) ++ h.apply (k.map (· ^^^ 0x36) ++ message))

end Turnstile.Crypto
