import Turnstile.Text.Utf8
/-!
# DER

Key material is a tree of tagged values. Only the shapes that lead to an RSA key are told apart:
sequences are opened, identifiers and byte strings are kept, and every other value is only checked for
being what its tag says. A length that reaches beyond its surroundings makes the whole text unreadable.

A whole text is read with lengths spelt in any number of bytes; the numbers of a key are read by
`element?`, which takes the shortest spelling only.
-/

namespace Turnstile.Crypto.Der

inductive Node where
  | sequence (items : List Node)
  | identifier (arcs : List Nat)
  | octets (bytes : List UInt8)
  | other

/-- The number that bytes write, the first one being the highest. -/
def number (bytes : List UInt8) : Nat :=
  bytes.foldl (fun n b => n * 256 + b.toNat) 0

/-- The length field and what is left after it. -/
def length? : List UInt8 → Option (Nat × List UInt8)
  | [] => none
  | b :: rest =>
    if b < 0x80 then some (b.toNat, rest)
    else
      let count := b.toNat - 0x80
      if rest.length < count ∨ 8 < count then none
      else some (number (rest.take count), rest.drop count)

/-- A number in groups of seven bits, all but the last marked, and what is left after it. -/
def arc? (n : Nat) : List UInt8 → Option (Nat × List UInt8)
  | [] => none
  | b :: rest =>
    if b < 0x80 then some (n * 128 + b.toNat, rest) else arc? (n * 128 + (b.toNat - 0x80)) rest

/-- The numbers that fill the bytes. The fuel bounds their count. -/
def arcs? : Nat → List UInt8 → Option (List Nat)
  | _, [] => some []
  | 0, _ => none
  | fuel + 1, bytes => do
    let (n, rest) ← arc? 0 bytes
    return n :: (← arcs? fuel rest)

/-- The numbers of an object identifier; its first byte holds two of them. -/
def identifier? : List UInt8 → Option (List Nat)
  | [] => none
  | b :: rest => do
    let more ← arcs? rest.length rest
    let first := min 2 (b.toNat / 40)
    return first :: (b.toNat - 40 * first) :: more

def isPrintable (b : UInt8) : Bool :=
  let c := Char.ofNat b.toNat
  c.isAlphanum || " '()+,-./:=?".toList.contains c

/-- The tag field: its class and number, and what is left after it. -/
def tag? : List UInt8 → Option (UInt8 × Nat × List UInt8)
  | [] => none
  | b :: rest =>
    if b &&& 0x1f == 0x1f then (arc? 0 rest).map fun (n, rest) => (b >>> 6, n, rest)
    else some (b >>> 6, (b &&& 0x1f).toNat, rest)

mutual

/-- All values that the bytes consist of. The fuel bounds their number and nesting. -/
def nodes? : Nat → List UInt8 → Option (List Node)
  | _, [] => some []
  | 0, _ => none
  | fuel + 1, bytes => do
    let (kind, tag, rest) ← tag? bytes
    let (n, rest) ← length? rest
    if rest.length < n then none
    let node ← if kind = 0 then node? fuel tag (rest.take n) else some .other
    let more ← nodes? fuel (rest.drop n)
    return node :: more

def node? (fuel : Nat) (tag : Nat) (content : List UInt8) : Option Node :=
  match tag with
  | 0x01 => if content.length = 1 then some .other else none
  | 0x03 =>
    match content with
    | [] => some (.octets [])
    | unused :: bits => if bits.length * 8 < unused.toNat then none else some (.octets bits)
  | 0x04 => some (.octets content)
  | 0x06 => (identifier? content).map .identifier
  | 0x0c | 0x14 | 0x1e => (Text.Utf8.text? content).map fun _ => .other
  | 0x10 => (nodes? fuel content).map .sequence
  | 0x11 => (nodes? fuel content).map fun _ => .other
  | 0x13 => if content.all isPrintable then some .other else none
  | _ => some .other

end

def parse? (bytes : List UInt8) : Option (List Node) :=
  nodes? (bytes.length + 1) bytes

mutual

def findIdentifier? (known : List (List Nat)) : List Node → Option (List Nat)
  | [] => none
  | n :: rest =>
    match identifierIn? known n with
    | some i => some i
    | none => findIdentifier? known rest

/-- The first identifier among those given inside one value. -/
def identifierIn? (known : List (List Nat)) : Node → Option (List Nat)
  | .sequence items => findIdentifier? known items
  | .identifier i => if known.contains i then some i else none
  | _ => none

end

mutual

/-- The first string of bits or bytes, depth first. -/
def findOctets? : List Node → Option (List UInt8)
  | [] => none
  | n :: rest =>
    match octetsIn? n with
    | some b => some b
    | none => findOctets? rest

/-- The first string of bits or bytes inside one value. -/
def octetsIn? : Node → Option (List UInt8)
  | .sequence items => findOctets? items
  | .octets b => some b
  | _ => none

end

/-- The length field in its shortest spelling, of at most two bytes behind the first. -/
def shortestLength? : List UInt8 → Option (Nat × List UInt8)
  | 0x81 :: a :: rest => if a < 0x80 then none else some (a.toNat, rest)
  | 0x82 :: a :: b :: rest => if a = 0 then none else some (number [a, b], rest)
  | a :: rest => if a < 0x80 then some (a.toNat, rest) else none
  | [] => none

/-- A tag, its content and what is left after it. -/
def element? : List UInt8 → Option (UInt8 × List UInt8 × List UInt8)
  | [] => none
  | tag :: rest => do
    if tag &&& 0x1f == 0x1f then none
    let (n, rest) ← shortestLength? rest
    if rest.length < n then none
    return (tag, rest.take n, rest.drop n)

/-- The content of a positive integer in its shortest form, as a number. -/
def positive? (bytes : List UInt8) : Option (Nat × List UInt8) := do
  let (tag, content, rest) ← element? bytes
  if tag ≠ 0x02 then none
  match content with
  | [] => none
  | [b] => if b == 0 || 0x80 ≤ b then none else some (b.toNat, rest)
  | a :: b :: _ =>
    if 0x80 ≤ a || (a == 0 && b < 0x80) then none
    else some (number content, rest)

end Turnstile.Crypto.Der
