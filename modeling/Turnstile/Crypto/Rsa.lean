import Turnstile.Crypto.Der
import Turnstile.Crypto.Pem
import Turnstile.Crypto.Sha2
/-!
# RSA signatures

Verification with a public key of at least 2048 and at most 8192 bits, in both paddings: the fixed
one, in which the signed block is the hash behind a fixed frame, and the probabilistic one with a salt
as long as the hash. A key that cannot be used verifies nothing.
-/

namespace Turnstile.Crypto.Rsa

inductive Padding where
  | pkcs1
  | pss
deriving DecidableEq, Repr

structure PublicKey where
  modulus : Nat
  exponent : Nat
deriving DecidableEq, Repr

def powMod (m : Nat) (b e : Nat) : Nat :=
  if e = 0 then 1 % m
  else
    let h := powMod m (b * b % m) (e / 2)
    if e % 2 = 1 then b * h % m else h
termination_by e
decreasing_by omega

def bitLength (n : Nat) : Nat := if n = 0 then 0 else n.log2 + 1

/-- Reads a sequence of modulus and exponent and checks that the key may be used. -/
def PublicKey.parse? (der : List UInt8) : Option PublicKey := do
  let (tag, content, rest) ← Der.element? der
  if tag ≠ 0x30 || !rest.isEmpty then none
  let (modulus, content) ← Der.positive? content
  let (exponent, content) ← Der.positive? content
  if !content.isEmpty then none
  let size := (bitLength modulus + 7) / 8 * 8
  if size < 2048 || 8192 < bitLength modulus || modulus % 2 == 0 then none
  if exponent < 3 || exponent % 2 == 0 || 33 < bitLength exponent then none
  return { modulus, exponent }

/-- The frame that names the hash function before the hash itself. -/
def digestFrame (h : Hash) : List UInt8 :=
  let (code, size) : UInt8 × UInt8 :=
    match h with
    | .sha256 => (1, 32)
    | .sha384 => (2, 48)
    | .sha512 => (3, 64)
  [0x30, size + 17, 0x30, 0x0d, 0x06, 0x09, 0x60, 0x86, 0x48, 0x01, 0x65, 0x03, 0x04, 0x02, code,
    0x05, 0x00, 0x04, size]

/-- The block that the fixed padding signs, `size` bytes long. -/
def pkcs1Block (h : Hash) (size : Nat) (message : List UInt8) : List UInt8 :=
  let digest := digestFrame h ++ h.apply message
  0x00 :: 0x01 :: List.replicate (size - 3 - digest.length) 0xff ++ 0x00 :: digest

/-- A mask of `size` bytes grown from a seed. -/
def mask (h : Hash) (seed : List UInt8) (size : Nat) : List UInt8 :=
  ((List.range ((size + h.length - 1) / h.length)).flatMap fun i =>
    h.apply (seed ++ Sha2.toBytes 4 i)).take size

/-- Clears the first `count` bits of the first byte. -/
def clearTop (count : Nat) : List UInt8 → List UInt8
  | [] => []
  | b :: rest => (b &&& UInt8.ofNat (Nat.pow 2 (8 - count) - 1)) :: rest

/-- Whether a block of `bits` bits is one that the probabilistic padding makes of the message. -/
def isPssBlock (h : Hash) (bits : Nat) (block message : List UInt8) : Bool :=
  let size := (bits + 7) / 8
  let spare := 8 * size - bits
  let saltStart := size - 2 * h.length - 2
  if size < 2 * h.length + 2 then false
  else
    let masked := block.take (size - h.length - 1)
    let digest := (block.drop (size - h.length - 1)).take h.length
    let plain := clearTop spare
      (List.zipWith (· ^^^ ·) masked (mask h digest masked.length))
    let salt := plain.drop (saltStart + 1)
    block.length == size && block.getLast? == some 0xbc && clearTop spare masked == masked
      && (plain.take saltStart).all (· == 0) && plain[saltStart]? == some 1
      && h.apply (List.replicate 8 0 ++ h.apply message ++ salt) == digest

/-- Whether `signature` is a signature of the message under the key. -/
def verify (padding : Padding) (h : Hash) (key : PublicKey) (message signature : List UInt8) : Bool :=
  let bits := bitLength key.modulus
  let size := (bits + 7) / 8
  let s := Sha2.ofBytes signature
  if signature.length ≠ size ∨ key.modulus ≤ s ∨ s = 0 then false
  else
    let opened := powMod key.modulus s key.exponent
    match padding with
    | .pkcs1 => Sha2.toBytes size opened == pkcs1Block h size message
    | .pss =>
      let blockSize := (bits - 1 + 7) / 8
      opened < Nat.pow 256 blockSize && isPssBlock h (bits - 1) (Sha2.toBytes blockSize opened) message

/-! ### Key files -/

inductive KeyFault where
  /-- It is no key file, or holds another kind of key. -/
  | format
  /-- It names an RSA key but holds no bytes of one. -/
  | noBytes
deriving DecidableEq, Repr

def rsaIdentifier : List Nat := [1, 2, 840, 113549, 1, 1, 1]

/-- The identifiers by which a key file says what kind of key it holds: RSA, elliptic curve,
Edwards curve. -/
def keyIdentifiers : List (List Nat) :=
  [rsaIdentifier, [1, 2, 840, 10045, 2, 1], [1, 3, 101, 112]]

/-- The bytes of the key in a key file. Nothing is said yet about whether they can be used. -/
def keyBytes (pem : String) : Except KeyFault (List UInt8) :=
  match Pem.parse? pem with
  | none => .error .format
  | some block =>
    match Der.parse? block.content with
    | none => .error .format
    | some nodes =>
      if block.label = "RSA PUBLIC KEY" ∨ block.label = "RSA PRIVATE KEY" then .ok block.content
      else if block.label = "PUBLIC KEY" ∨ block.label = "PRIVATE KEY" ∨ block.label = "CERTIFICATE" then
        if Der.findIdentifier? keyIdentifiers nodes = some rsaIdentifier then
          match Der.findOctets? nodes with
          | some bytes => .ok bytes
          | none => .error .noBytes
        else .error .format
      else .error .format

end Turnstile.Crypto.Rsa
