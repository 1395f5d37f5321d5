import Turnstile.Text.Letters
/-!
# Punycode

International labels of a domain name in ASCII letters, digits and hyphens. The ASCII characters of a
label come first; what follows are the other characters in ascending order, each as the distance from
the one before, written in base 36 with digit thresholds that adapt to the distances seen so far.
-/

namespace Turnstile.Url.Punycode

def digitChar (d : Nat) : Char :=
  if d < 26 then Char.ofNat (97 + d) else Char.ofNat (22 + d)

def digitValue? (c : Char) : Option Nat :=
  let n := (Text.asciiLowerChar c).toNat
  if 97 ≤ n ∧ n ≤ 122 then some (n - 97)
  else if 48 ≤ n ∧ n ≤ 57 then some (n - 22)
  else none

/-- The threshold of the digit at position `k`, counted in steps of 36. -/
def threshold (k bias : Nat) : Nat :=
  if k ≤ bias then 1 else if bias + 26 ≤ k then 26 else k - bias

theorem threshold_pos (k bias : Nat) : 1 ≤ threshold k bias := by
  unfold threshold; split <;> (try split) <;> omega

/-- Divides a distance until it is small, counting by 36. -/
def shrink (delta k : Nat) : Nat × Nat :=
  if 455 < delta then shrink (delta / 35) (k + 36) else (delta, k)
termination_by delta
decreasing_by exact Nat.div_lt_self (by omega) (by omega)

def adapt (delta count : Nat) (isFirst : Bool) : Nat :=
  let d := if isFirst then delta / 700 else delta / 2
  let (d, k) := shrink (d + d / count) 0
  k + 36 * d / (d + 38)

def digits (bias k q : Nat) : List Char :=
  let t := threshold k bias
  if q < t then [digitChar q]
  else digitChar (t + (q - t) % (36 - t)) :: digits bias (k + 36) ((q - t) / (36 - t))
termination_by q
decreasing_by
  have := threshold_pos k bias
  exact Nat.lt_of_le_of_lt (Nat.div_le_self _ _) (by omega)

structure Encoder where
  out : List Char := []
  delta : Nat := 0
  bias : Nat := 72
  count : Nat

/-- Passes a character of the label while those with code point `m` are written. -/
def Encoder.pass (ascii m : Nat) (e : Encoder) (c : Char) : Encoder :=
  if c.toNat < m then { e with delta := e.delta + 1 }
  else if c.toNat = m then
    { out := e.out ++ digits e.bias 36 e.delta
      delta := 0
      bias := adapt e.delta (e.count + 1) (e.count = ascii)
      count := e.count + 1 }
  else e

/-- Writes the characters with the code points of an ascending list; `n` is the least code point that
may come next. -/
def encodeFrom (label : List Char) (ascii : Nat) : List Nat → Nat → Encoder → List Char
  | [], _, e => e.out
  | m :: rest, n, e =>
    let e := label.foldl (Encoder.pass ascii m) { e with delta := e.delta + (m - n) * (e.count + 1) }
    encodeFrom label ascii rest (m + 1) { e with delta := e.delta + 1 }

/-- The encoded label, without the mark that announces it. -/
def encode (label : List Char) : List Char :=
  let ascii := label.filter (·.toNat < 128)
  let others := ((label.filter (128 ≤ ·.toNat)).map Char.toNat).mergeSort.eraseDups
  ascii ++ (if ascii.isEmpty then [] else ['-'])
    ++ encodeFrom label ascii.length others 128 { count := ascii.length }

/-- Reads a distance from the front: `w` is the weight of the next digit, `i` the sum so far. -/
def takeDistance (bias : Nat) : List Char → Nat → Nat → Nat → Option (Nat × List Char)
  | [], _, _, _ => none
  | c :: rest, k, w, i => do
    let d ← digitValue? c
    let t := threshold k bias
    if d < t then return (i + d * w, rest)
    takeDistance bias rest (k + 36) (w * (36 - t)) (i + d * w)

/-- Reads distances and inserts their characters. The fuel bounds their number. -/
def decodeFrom : Nat → Nat → Nat → Nat → List Char → List Char → Option (List Char)
  | _, _, _, _, out, [] => some out
  | 0, _, _, _, _, _ => none
  | fuel + 1, bias, n, i, out, cs => do
    let (i', rest) ← takeDistance bias cs 36 1 i
    let count := out.length + 1
    let n := n + i' / count
    let at' := i' % count
    if !n.isValidChar then none
    decodeFrom fuel (adapt (i' - i) count (i = 0)) n (at' + 1)
      (out.take at' ++ Char.ofNat n :: out.drop at') rest

/-- The label that is encoded, without the mark that announced it. -/
def decode? (cs : List Char) : Option (List Char) :=
  let tail := (cs.reverse.takeWhile (· != '-')).reverse
  let front := cs.take (cs.length - tail.length - 1)
  if cs.any (128 ≤ ·.toNat) then none
  else decodeFrom tail.length 72 128 0 front tail

end Turnstile.Url.Punycode
