import Mathlib.Data.List.TakeWhile
import Turnstile.Jwt.Token
import Turnstile.Proofs.Checks
import Turnstile.Proofs.Claims
import Turnstile.Proofs.Json.Legible
import Turnstile.Proofs.Text.Base64
/-!
# What verification accepts

A token is accepted just if the key set has both halves and they are of one family, the header names the
algorithm of the key set, the last part is a signature of the text before it, and the middle part spells
claims with a key and an expiry, among which the registered claims can be read through
(`verify_eq_ok_iff`). Reading them through does not take that they are of their types or can be read at all:
it takes that a reader who looks for them is always brought back to the next member.
-/

namespace Turnstile.Jwt

open Text Checks

variable {key : Key} {a : Algorithm}

/-! ### Specification -/

/-- The part of a token spells a value. -/
def Spells (part : List Char) (v : Json.Value) : Prop :=
  ∃ bytes, Base64.decode? .url part = some bytes ∧ Json.parseBytes bytes = some v

/-- The text signs the message under the key and the algorithm. A secret has one signature for a message:
the spelling of its keyed hash. -/
inductive Signs : Key → Algorithm → List Char → List Char → Prop
  | hmac (secret : List UInt8) (hash : Crypto.Hash) (message : List Char) :
    Signs (.secret secret) (.hmac hash) message
      (Base64.encode .url (Crypto.hmac hash secret (Utf8.encode message)))
  | rsa {bytes : List UInt8} {publicKey : Crypto.Rsa.PublicKey} (padding : Crypto.Rsa.Padding)
      (hash : Crypto.Hash) (message : List Char) (signature : List UInt8)
      (hkey : Crypto.Rsa.PublicKey.parse? bytes = some publicKey)
      (hverify : Crypto.Rsa.verify padding hash publicKey (Utf8.encode message) signature = true) :
    Signs (.rsa bytes) (.rsa padding hash) message (Base64.encode .url signature)

/-- A value that is neither a list nor an object. -/
structure IsSingle (v : Json.Value) : Prop where
  notArray : ∀ items, v ≠ .array items
  notObject : ∀ members, v ≠ .object members

/-- The registered claims among the members of an object do not stop the reading. None of them is repeated,
`sub` is no list or object, `nbf` is none that holds anything, and `iss` and `aud` are not nested more than
126 deep. In all of them what cannot be read comes last, and a reader runs past it. -/
structure ReadsThrough (members : List (Option String × Json.Value)) : Prop where
  once : ∀ name ∈ ["exp", "nbf", "sub", "iss", "aud"], (members.map (·.1)).count (some name) ≤ 1
  subject : ∀ v, (some "sub", v) ∈ members → IsSingle v ∧ Json.Passable v
  notBefore : ∀ v, (some "nbf", v) ∈ members →
    v = .array [] ∨ v = .object [] ∨ IsSingle v ∧ Json.Passable v
  issuer : ∀ v, (some "iss", v) ∈ members → v.depth ≤ 126 ∧ Json.Passable v
  audience : ∀ v, (some "aud", v) ∈ members → v.depth ≤ 126 ∧ Json.Passable v

/-- The parts of a token that carries claims under a key and an algorithm: a header that names the algorithm,
an object with these members that spells the claims, and a signature of both. -/
structure Carries (key : Key) (a : Algorithm) (header payload signature : List Char)
    (members : List (Option String × Json.Value)) (c : Claims) : Prop where
  family : key.family = a.family
  payload_undotted : '.' ∉ payload
  signature_undotted : '.' ∉ signature
  named : ∃ v, Spells header v ∧ Header.parse? v = some a
  signed : Signs key a (header ++ '.' :: payload) signature
  spelt : Spells payload (.object members)
  read : Claims.ofJson? (.object members) = some c
  expiry : ∃ n, (some "exp", .number n) ∈ members ∧ n.int? = some c.exp ∧ 0 ≤ c.exp
  hasKey : c.apiKey ≠ ""

/-- The key set has both halves, and under them the token carries the claims. -/
def Vouches (k : KeySet) (token : String) (members : List (Option String × Json.Value)) (c : Claims) :
    Prop :=
  ∃ key a header payload signature, k.key = some key ∧ k.algorithm = some a ∧
    token.toList = header ++ '.' :: payload ++ '.' :: signature ∧
    Carries key a header payload signature members c

/-! ### The parts of a token -/

theorem splitLast?_eq_some_iff {s l r : List Char} :
    splitLast? s = some (l, r) ↔ s = l ++ '.' :: r ∧ '.' ∉ r := by
  constructor
  · intro h
    unfold splitLast? at h
    split at h
    · cases h
    · next d before hdrop =>
      cases h
      have hd : d = '.' := by
        have hhead := List.head_dropWhile_not (· != '.') (l := s.reverse) (by rw [hdrop]; simp)
        simpa [hdrop] using hhead
      have hsplit := List.takeWhile_append_dropWhile (p := (· != '.')) (l := s.reverse)
      rw [hdrop, hd] at hsplit
      constructor
      · calc s = s.reverse.reverse := (List.reverse_reverse s).symm
          _ = (s.reverse.takeWhile (· != '.') ++ '.' :: before).reverse := by rw [hsplit]
          _ = before.reverse ++ '.' :: (s.reverse.takeWhile (· != '.')).reverse := by
            rw [List.reverse_append, List.reverse_cons, List.append_assoc, List.singleton_append]
      · intro hdot
        have hne := List.mem_takeWhile_imp (List.mem_reverse.1 hdot)
        simp at hne
  · rintro ⟨rfl, hr⟩
    have hall : ∀ c ∈ r.reverse, (c != '.') = true := by
      intro c hc
      simpa using fun h : c = '.' => hr (h ▸ List.mem_reverse.1 hc)
    rw [splitLast?, List.reverse_append, List.reverse_cons, List.append_assoc,
      List.dropWhile_append_of_pos hall, List.takeWhile_append_of_pos hall]
    simp

/-! ### Signatures -/

theorem checks?_eq_some_true_iff {message signature : List Char} :
    key.checks? a message signature = some true ↔ Signs key a message signature := by
  constructor
  · intro h
    unfold Key.checks? at h
    split at h
    · next secret hash =>
      rw [← eq_of_beq (Option.some.inj h)]
      exact .hmac secret hash message
    · next bytes padding hash =>
      obtain ⟨s, hs, hverify⟩ := Option.map_eq_some_iff.1 h
      rw [Base64.decode?_eq_some_iff.1 hs]
      split at hverify
      · next k hk => exact .rsa padding hash message s hk hverify
      · cases hverify
    · cases h
  · intro h
    cases h with
    | hmac secret hash => simp [Key.checks?]
    | rsa padding hash message signature hkey hverify =>
      simp [Key.checks?, Base64.decode?_encode, hkey, hverify]

theorem Signs.unique {secret : List UInt8} {message s t : List Char} (hs : Signs (.secret secret) a message s)
    (ht : Signs (.secret secret) a message t) : s = t := by
  cases hs
  cases ht
  rfl

/-! ### Header and claims -/

theorem readHeader_eq_ok_iff {header : List Char} :
    readHeader header = .ok a ↔ ∃ v, Spells header v ∧ Header.parse? v = some a := by
  unfold readHeader Spells
  cases hbytes : Base64.decode? .url header with
  | none => simp
  | some bytes =>
    cases hv : Json.parseBytes bytes with
    | none => simp [hv]
    | some v =>
      cases ha : Header.parse? v with
      | none => simp [hv, ha]
      | some b => simp [hv, ha, pure_eq_ok_iff]

theorem int?_of_int64? {v : Json.Value} {n : Int} (h : v.int64? = some n) :
    ∃ m, v = .number m ∧ m.int? = some n := by
  cases v with
  | number m =>
    obtain ⟨hint, -⟩ := Option.filter_eq_some_iff.1 h
    exact ⟨m, rfl, hint⟩
  | null | bool | string | torn | array | object => cases h

theorem exp_of_ofJson? {members : List (Option String × Json.Value)} {c : Claims}
    (h : Claims.ofJson? (.object members) = some c) :
    ∃ n, (some "exp", .number n) ∈ members ∧ n.int? = some c.exp := by
  obtain ⟨f, hf, -, -, -, -, hexp, -⟩ := Claims.ofJson?_eq_some_iff.1 h
  obtain ⟨v, hv, hint⟩ := Option.bind_eq_some_iff.1 hexp
  obtain ⟨n, rfl, hn⟩ := int?_of_int64? hint
  exact ⟨n, (Json.Fields.get?_eq_some_iff hf (by decide)).1 hv, hn⟩

theorem leavesBehind_iff (v : Json.Value) : leavesBehind v = true ↔ Json.Passable v := by
  rw [leavesBehind, bne_iff_ne, Json.Value.flaw?_ne_inside_iff]

theorem passesAsAny_iff (v : Json.Value) : passesAsAny v = true ↔ v.depth ≤ 126 ∧ Json.Passable v := by
  rw [passesAsAny, Bool.and_eq_true, leavesBehind_iff, decide_eq_true_iff, and_comm]
  exact and_congr_left fun _ => Nat.lt_succ_iff

/-- Half of a surrogate pair is no matter at the end of the last text, and is one anywhere else. -/
example : (Json.parse "[\"a\", \"b\\ud800\"]").any passesAsAny = true ∧
    (Json.parse "[\"b\\ud800\", \"a\"]").any passesAsAny = false ∧
    (Json.parse "\"\\ud800b\"").any passesAsAny = false := by
  decide +kernel

/-- An exponent has left 32 bits with its tenth digit, and here another one follows. -/
example : (Json.parse "1e9999999999").any passesAsAny = true ∧
    (Json.parse "1e99999999999").any passesAsAny = false := by
  decide +kernel

theorem not_isSingle_array (items : List Json.Value) : ¬ IsSingle (.array items) :=
  fun h => h.notArray items rfl

theorem not_isSingle_object (members : List (Option String × Json.Value)) : ¬ IsSingle (.object members) :=
  fun h => h.notObject members rfl

theorem passesAsText_iff (v : Json.Value) : passesAsText v = true ↔ IsSingle v ∧ Json.Passable v := by
  unfold passesAsText
  split
  · next items => simp [not_isSingle_array]
  · next members => simp [not_isSingle_object]
  · next harray hobject =>
    rw [leavesBehind_iff, and_iff_right]
    exact ⟨harray, hobject⟩

theorem passesAsNumber_iff (v : Json.Value) :
    passesAsNumber v = true ↔ v = .array [] ∨ v = .object [] ∨ IsSingle v ∧ Json.Passable v := by
  unfold passesAsNumber
  split
  · next items => simp [not_isSingle_array]
  · next members => simp [not_isSingle_object]
  · next harray hobject =>
    rw [leavesBehind_iff, or_iff_right (harray []), or_iff_right (hobject []), and_iff_right]
    exact ⟨harray, hobject⟩

theorem passesAsNumber_of_int? {n : Json.Number} {m : Int} (h : n.int? = some m) :
    passesAsNumber (.number n) = true := by
  have hrange : n.inRange = true := by simp [Json.Number.inRange, h]
  exact (leavesBehind_iff _).2 (.inl (.number hrange))

/-- The registered claims of an object, each looked at if it is there. -/
theorem checkRegistered_eq_ok_iff {v : Json.Value} {f : Json.Fields}
    (hf : Json.Fields.of? registeredNames v = some f) (horder : f.inOrder = false) :
    checkRegistered v = .ok () ↔
      ((f.get? "sub").all passesAsText = true ∧ (f.get? "iss").all passesAsAny = true ∧
        (f.get? "aud").all passesAsAny = true) ∧
      ((f.get? "nbf").all passesAsNumber = true ∧ (f.get? "exp").all passesAsNumber = true) ∧
      (f.get? "exp").any isExpiry = true := by
  unfold checkRegistered
  simp only [hf, horder, guard_eq_ok_iff, lastGuard_eq_ok_iff, pure_eq_ok_iff, Bool.not_eq_true',
    Bool.not_eq_false, Bool.and_eq_true, and_true]
  refine and_congr_left fun _ => and_assoc.trans (and_congr ?_ (and_congr ?_ ?_))
  · cases f.get? "sub" <;> simp
  · cases f.get? "iss" <;> simp
  · cases f.get? "aud" <;> simp

theorem expiry_of_checkRegistered {v : Json.Value} (h : checkRegistered v = .ok ()) :
    ∃ f, Json.Fields.of? registeredNames v = some f ∧ (f.get? "exp").any isExpiry = true := by
  cases hf : Json.Fields.of? registeredNames v with
  | none =>
    rw [checkRegistered, hf] at h
    cases h
  | some f =>
    unfold checkRegistered at h
    simp only [hf, guard_eq_ok_iff, lastGuard_eq_ok_iff, Bool.not_eq_true', Bool.not_eq_false] at h
    obtain ⟨-, -, hany, -⟩ := h
    exact ⟨f, rfl, hany⟩

/-- The members that are looked at are the registered ones. -/
theorem readsThrough_iff {members : List (Option String × Json.Value)} {f : Json.Fields}
    (hf : Json.Fields.of? registeredNames (.object members) = some f) :
    ReadsThrough members ↔
      ((f.get? "sub").all passesAsText = true ∧ (f.get? "iss").all passesAsAny = true ∧
        (f.get? "aud").all passesAsAny = true) ∧ (f.get? "nbf").all passesAsNumber = true := by
  obtain ⟨-, honce, -⟩ := Json.Fields.of?_object_eq_some_iff.1 hf
  rw [Json.Fields.all_get?_iff hf (show "sub" ∈ registeredNames by decide) passesAsText_iff,
    Json.Fields.all_get?_iff hf (show "iss" ∈ registeredNames by decide) passesAsAny_iff,
    Json.Fields.all_get?_iff hf (show "aud" ∈ registeredNames by decide) passesAsAny_iff,
    Json.Fields.all_get?_iff hf (show "nbf" ∈ registeredNames by decide) passesAsNumber_iff]
  constructor
  · intro h
    exact ⟨⟨h.subject, h.issuer, h.audience⟩, h.notBefore⟩
  · rintro ⟨⟨hsub, hiss, haud⟩, hnbf⟩
    exact ⟨honce, hsub, hnbf, hiss, haud⟩

theorem checkRegistered_of_ofJson? {members : List (Option String × Json.Value)} {c : Claims}
    (h : Claims.ofJson? (.object members) = some c) :
    checkRegistered (.object members) = .ok () ↔ 0 ≤ c.exp ∧ ReadsThrough members := by
  obtain ⟨n, hexp, hn⟩ := exp_of_ofJson? h
  obtain ⟨f₀, hf₀, -⟩ := Claims.ofJson?_eq_some_iff.1 h
  obtain ⟨hnames, -⟩ := Json.Fields.of?_object_eq_some_iff.1 hf₀
  have hexpiry : isExpiry (.number n) = true ↔ 0 ≤ c.exp := by simp [isExpiry, hn]
  constructor
  · intro hcheck
    obtain ⟨f, hf, -⟩ := expiry_of_checkRegistered hcheck
    obtain ⟨-, -, horder⟩ := Json.Fields.of?_object_eq_some_iff.1 hf
    obtain ⟨hothers, ⟨hnbf, -⟩, hany⟩ :=
      (checkRegistered_eq_ok_iff hf (congrArg Json.Fields.inOrder horder)).1 hcheck
    rw [(Json.Fields.get?_eq_some_iff hf (by decide)).2 hexp] at hany
    exact ⟨hexpiry.1 hany, (readsThrough_iff hf).2 ⟨hothers, hnbf⟩⟩
  · rintro ⟨hnonneg, hthrough⟩
    have hf : Json.Fields.of? registeredNames (.object members)
        = some ⟨false, Json.Fields.known registeredNames members⟩ :=
      Json.Fields.of?_object_eq_some_iff.2 ⟨hnames, hthrough.once, rfl⟩
    obtain ⟨hothers, hnbf⟩ := (readsThrough_iff hf).1 hthrough
    have hget := (Json.Fields.get?_eq_some_iff hf (by decide)).2 hexp
    refine (checkRegistered_eq_ok_iff hf rfl).2 ⟨hothers, ⟨hnbf, ?_⟩, ?_⟩
    · rw [hget]
      exact passesAsNumber_of_int? hn
    · rw [hget]
      exact hexpiry.2 hnonneg

/-- Claims given as a list have their key where the expiry would be registered. -/
theorem checkRegistered_array_ne {items : List Json.Value} {c : Claims}
    (h : Claims.ofJson? (.array items) = some c) : checkRegistered (.array items) ≠ .ok () := by
  intro hcheck
  obtain ⟨f, hf, hkey, -, -, -, hexp, -⟩ := Claims.ofJson?_eq_some_iff.1 h
  obtain ⟨f', hf', hany⟩ := expiry_of_checkRegistered hcheck
  simp only [Json.Fields.of?, Option.ite_none_left_eq_some, Option.some.injEq] at hf hf'
  obtain ⟨-, rfl⟩ := hf
  obtain ⟨-, rfl⟩ := hf'
  cases items with
  | nil => cases hexp
  | cons v rest =>
    have htext : v.text? = some c.apiKey := hkey
    have hexpiry : isExpiry v = true := hany
    cases v with
    | string => cases hexpiry
    | null | bool | number | torn | array | object => cases htext

theorem readClaims_eq_ok_iff_check {payload : List Char} {c : Claims} :
    readClaims payload = .ok c ↔
      ∃ v, Spells payload v ∧ Claims.ofJson? v = some c ∧ checkRegistered v = .ok () := by
  unfold readClaims Spells
  cases hbytes : Base64.decode? .url payload with
  | none => simp
  | some bytes =>
    cases hv : Json.parseBytes bytes with
    | none => simp [hv]
    | some v =>
      cases hc : Claims.ofJson? v with
      | none => simp [hv, hc]
      | some d =>
        cases hcheck : checkRegistered v with
        | error fault => simp [hv, hc, hcheck]
        | ok u => simp [hv, hc, hcheck]

theorem readClaims_eq_ok_iff {payload : List Char} {c : Claims} :
    readClaims payload = .ok c ↔
      ∃ members, Spells payload (.object members) ∧ Claims.ofJson? (.object members) = some c ∧
        0 ≤ c.exp ∧ ReadsThrough members := by
  rw [readClaims_eq_ok_iff_check]
  constructor
  · rintro ⟨v, hspells, hc, hcheck⟩
    cases v with
    | object members => exact ⟨members, hspells, hc, (checkRegistered_of_ofJson? hc).1 hcheck⟩
    | array items => exact absurd hcheck (checkRegistered_array_ne hc)
    | null | bool | number | string | torn => cases hc
  · rintro ⟨members, hspells, hc, hrest⟩
    exact ⟨_, hspells, hc, (checkRegistered_of_ofJson? hc).2 hrest⟩

/-! ### Whole tokens -/

/-- A token that is signed says what its middle part spells. -/
theorem openToken_eq_readClaims {token message header payload signature : List Char}
    (hfamily : key.family = a.family) (houter : splitLast? token = some (message, signature))
    (hinner : splitLast? message = some (header, payload)) (hheader : readHeader header = .ok a)
    (hsigns : Signs key a message signature) : openToken key a token = readClaims payload := by
  have hchecks := checks?_eq_some_true_iff.2 hsigns
  simp [openToken, hfamily, houter, hinner, hheader, hchecks, bind, Except.bind]

theorem openToken_eq_ok_iff {token : List Char} {c : Claims} :
    openToken key a token = .ok c ↔ key.family = a.family ∧ ∃ header payload signature,
      token = header ++ '.' :: payload ++ '.' :: signature ∧ '.' ∉ payload ∧ '.' ∉ signature ∧
        readHeader header = .ok a ∧ Signs key a (header ++ '.' :: payload) signature ∧
        readClaims payload = .ok c := by
  constructor
  · intro h
    unfold openToken at h
    rw [guard_eq_ok_iff, not_not] at h
    obtain ⟨hfamily, h⟩ := h
    rcases houter : splitLast? token with _ | ⟨message, signature⟩
    · rw [houter] at h
      cases h
    rcases hinner : splitLast? message with _ | ⟨header, payload⟩
    · simp only [houter, hinner] at h
      cases h
    simp only [houter, hinner, bind_eq_ok_iff, guard_eq_ok_iff, not_not] at h
    obtain ⟨named, hheader, rfl, h⟩ := h
    obtain ⟨rfl, hsignature⟩ := splitLast?_eq_some_iff.1 houter
    obtain ⟨rfl, hpayload⟩ := splitLast?_eq_some_iff.1 hinner
    split at h
    · cases h
    · cases h
    · next hchecks =>
      exact ⟨hfamily, header, payload, signature, rfl, hpayload, hsignature, hheader,
        checks?_eq_some_true_iff.1 hchecks, h⟩
  · rintro ⟨hfamily, header, payload, signature, htoken, hpayload, hsignature, hheader, hsigns, hclaims⟩
    have houter := splitLast?_eq_some_iff.2 ⟨htoken, hsignature⟩
    have hinner : splitLast? (header ++ '.' :: payload) = some (header, payload) :=
      splitLast?_eq_some_iff.2 ⟨rfl, hpayload⟩
    rw [openToken_eq_readClaims hfamily houter hinner hheader hsigns, hclaims]

theorem verify_eq_ok_iff_openToken {k : KeySet} {token : String} {c : Claims} :
    k.verify token = .ok c ↔ ∃ key a, k.key = some key ∧ k.algorithm = some a ∧
      openToken key a token.toList = .ok c ∧ c.apiKey ≠ "" := by
  unfold KeySet.verify
  rcases hkey : k.key with _ | key
  · simp
  rcases ha : k.algorithm with _ | a
  · simp
  rcases hopen : openToken key a token.toList with fault | d
  · simp [hopen]
  simp only [hopen, lastGuard_eq_ok_iff, pure_eq_ok_iff, String.isEmpty_iff,
    Option.some.injEq]
  constructor
  · rintro ⟨hempty, rfl⟩
    exact ⟨key, a, rfl, rfl, hopen, hempty⟩
  · rintro ⟨_, _, rfl, rfl, hopen', hempty⟩
    cases hopen.symm.trans hopen'
    exact ⟨hempty, rfl⟩

theorem verify_eq_ok_iff {k : KeySet} {token : String} {c : Claims} :
    k.verify token = .ok c ↔ ∃ members, Vouches k token members c ∧ ReadsThrough members := by
  rw [verify_eq_ok_iff_openToken]
  constructor
  · rintro ⟨key, a, hkey, ha, hopen, hempty⟩
    obtain ⟨hfamily, header, payload, signature, htoken, hpayload, hsignature, hheader, hsigns, hclaims⟩ :=
      openToken_eq_ok_iff.1 hopen
    obtain ⟨members, hspells, hc, hnonneg, hthrough⟩ := readClaims_eq_ok_iff.1 hclaims
    obtain ⟨n, hexp, hn⟩ := exp_of_ofJson? hc
    refine ⟨members, ⟨key, a, header, payload, signature, hkey, ha, htoken, ?_⟩, hthrough⟩
    exact ⟨hfamily, hpayload, hsignature, readHeader_eq_ok_iff.1 hheader, hsigns, hspells, hc,
      ⟨n, hexp, hn, hnonneg⟩, hempty⟩
  · rintro ⟨members, ⟨key, a, header, payload, signature, hkey, ha, htoken, h⟩, hthrough⟩
    obtain ⟨n, -, -, hnonneg⟩ := h.expiry
    have hclaims := readClaims_eq_ok_iff.2 ⟨members, h.spelt, h.read, hnonneg, hthrough⟩
    have hopen := openToken_eq_ok_iff.2 ⟨h.family, header, payload, signature, htoken, h.payload_undotted,
      h.signature_undotted, readHeader_eq_ok_iff.2 h.named, h.signed, hclaims⟩
    exact ⟨key, a, hkey, ha, hopen, h.hasKey⟩

end Turnstile.Jwt
