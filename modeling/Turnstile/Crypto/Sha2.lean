/-!
# The SHA-2 family

SHA-256, SHA-384 and SHA-512. The family has one structure at two word sizes. Its constants are the
first bits of the fractional parts of roots of primes, and they are computed as that: cube roots of
the first primes for the rounds, square roots for the initial states.
-/

namespace Turnstile.Crypto.Sha2

/-- Whether no number from 2 up to the square root divides `n`. -/
def isPrime (n : Nat) : Bool :=
  2 ≤ n && (List.range 20).all fun d => d < 2 || n ≤ d || n % d != 0

/-- The primes below 420, of which there are more than eighty. -/
def primes : List Nat := (List.range 420).filter isPrime

/-- The greatest number below `2 ^ bits` whose power `k` is at most `n`. -/
def root (k n bits : Nat) : Nat :=
  go bits 0
where
  go : Nat → Nat → Nat
    | 0, r => r
    | b + 1, r => go b (if Nat.pow (r + Nat.pow 2 b) k ≤ n then r + Nat.pow 2 b else r)

/-- The first `w` bits of the fractional part of root `k` of `p`. -/
def fractionBits (k w p : Nat) : Nat :=
  root k (p * Nat.pow 2 (k * w)) (w + 6) % Nat.pow 2 w

/-- The rotation amounts of one mixing function; the last one may be a shift. -/
structure Mixer where
  first : Nat
  second : Nat
  third : Nat

/-- What the members of the family differ in, for words of `w` bits. -/
structure Variant (w : Nat) where
  rounds : Nat
  big0 : Mixer
  big1 : Mixer
  small0 : Mixer
  small1 : Mixer
  constants : Array (BitVec w)
  start : List (BitVec w)
  length : Nat

def Mixer.rotate {w : Nat} (m : Mixer) (x : BitVec w) : BitVec w :=
  x.rotateRight m.first ^^^ x.rotateRight m.second ^^^ x.rotateRight m.third

/-- The exclusive sum of two rotations and a shift. -/
def Mixer.shift {w : Nat} (m : Mixer) (x : BitVec w) : BitVec w :=
  x.rotateRight m.first ^^^ x.rotateRight m.second ^^^ (x >>> m.third)

def roundConstants (w rounds : Nat) : Array (BitVec w) :=
  ((primes.take rounds).map fun p => BitVec.ofNat w (fractionBits 3 w p)).toArray

/-- The initial state from the square roots of eight primes. -/
def startState (w : Nat) (ps : List Nat) : List (BitVec w) :=
  ps.map fun p => BitVec.ofNat w (fractionBits 2 w p)

def sha256Variant : Variant 32 where
  rounds := 64
  big0 := ⟨2, 13, 22⟩
  big1 := ⟨6, 11, 25⟩
  small0 := ⟨7, 18, 3⟩
  small1 := ⟨17, 19, 10⟩
  constants := roundConstants 32 64
  start := startState 32 (primes.take 8)
  length := 32

def sha512Variant : Variant 64 where
  rounds := 80
  big0 := ⟨28, 34, 39⟩
  big1 := ⟨14, 18, 41⟩
  small0 := ⟨1, 8, 7⟩
  small1 := ⟨19, 61, 6⟩
  constants := roundConstants 64 80
  start := startState 64 (primes.take 8)
  length := 64

/-- SHA-384 is SHA-512 from another initial state, cut short. -/
def sha384Variant : Variant 64 :=
  { sha512Variant with start := startState 64 ((primes.drop 8).take 8), length := 48 }

structure State (w : Nat) where
  a : BitVec w
  b : BitVec w
  c : BitVec w
  d : BitVec w
  e : BitVec w
  f : BitVec w
  g : BitVec w
  h : BitVec w

/-- One round with a constant and a message word. -/
def State.round {w : Nat} (v : Variant w) (s : State w) (k m : BitVec w) : State w :=
  let choice := (s.e &&& s.f) ^^^ (~~~s.e &&& s.g)
  let majority := (s.a &&& s.b) ^^^ (s.a &&& s.c) ^^^ (s.b &&& s.c)
  let t := s.h + v.big1.rotate s.e + choice + k + m
  { a := t + v.big0.rotate s.a + majority, b := s.a, c := s.b, d := s.c,
    e := s.d + t, f := s.e, g := s.f, h := s.g }

/-- The sixteen words of a block extended to one word per round. -/
def schedule {w : Nat} (v : Variant w) (block : List (BitVec w)) : Array (BitVec w) :=
  (List.range (v.rounds - 16)).foldl
    (fun ws i =>
      ws.push (v.small1.shift (ws.getD (i + 14) 0) + ws.getD (i + 9) 0
        + v.small0.shift (ws.getD (i + 1) 0) + ws.getD i 0))
    block.toArray

def compress {w : Nat} (v : Variant w) (state : List (BitVec w)) (block : List (BitVec w)) :
    List (BitVec w) :=
  match state with
  | [a, b, c, d, e, f, g, h] =>
    let ws := schedule v block
    let s := (List.range v.rounds).foldl
      (fun (s : State w) i => s.round v (v.constants.getD i 0) (ws.getD i 0))
      { a, b, c, d, e, f, g, h }
    [a + s.a, b + s.b, c + s.c, d + s.d, e + s.e, f + s.f, g + s.g, h + s.h]
  | _ => state

def ofBytes (bytes : List UInt8) : Nat :=
  bytes.foldl (fun n b => n * 256 + b.toNat) 0

/-- The last `count` bytes of a number, most significant first. -/
def toBytes (count n : Nat) : List UInt8 :=
  (List.range count).map fun i => UInt8.ofNat (n / Nat.pow 256 (count - 1 - i))

/-- The message with its end mark, zeros and length, a whole number of blocks. -/
def padded (wordBytes : Nat) (message : List UInt8) : List UInt8 :=
  let block := 16 * wordBytes
  let size := message.length
  let zeros := (block - (size + 1 + 2 * wordBytes) % block) % block
  message ++ 0x80 :: (List.replicate zeros 0 ++ toBytes (2 * wordBytes) (8 * size))

/-- Absorbs the blocks one after the other; the first argument bounds their number. -/
def absorb {w : Nat} (v : Variant w) : Nat → List (BitVec w) → List UInt8 → List (BitVec w)
  | 0, state, _ => state
  | n + 1, state, bytes =>
    let size := 16 * (w / 8)
    let block := bytes.take size
    let words := (List.range 16).map fun i =>
      BitVec.ofNat w (ofBytes ((block.drop (i * (w / 8))).take (w / 8)))
    absorb v n (compress v state words) (bytes.drop size)

def Variant.hash {w : Nat} (v : Variant w) (message : List UInt8) : List UInt8 :=
  let bytes := padded (w / 8) message
  let state := absorb v (bytes.length / (16 * (w / 8))) v.start bytes
  (state.flatMap fun x => toBytes (w / 8) x.toNat).take v.length

end Turnstile.Crypto.Sha2

namespace Turnstile.Crypto

inductive Hash where
  | sha256
  | sha384
  | sha512
deriving DecidableEq, Repr

namespace Hash

def apply : Hash → List UInt8 → List UInt8
  | .sha256 => Sha2.sha256Variant.hash
  | .sha384 => Sha2.sha384Variant.hash
  | .sha512 => Sha2.sha512Variant.hash

def length : Hash → Nat
  | .sha256 => 32
  | .sha384 => 48
  | .sha512 => 64

def blockLength : Hash → Nat
  | .sha256 => 64
  | .sha384 | .sha512 => 128

end Hash

end Turnstile.Crypto
