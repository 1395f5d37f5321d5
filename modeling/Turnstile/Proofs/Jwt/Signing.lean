import Turnstile.Proofs.Jwt.Verification
/-!
# Signed tokens are accepted

Signing and verifying are inverse: whatever name and secret a signer is made from, a key set can be made from
them too, and it reads every token of the signer as the claims that were signed (`verify_sign`). Each layer of
a token has its own inverse: the text of the claims is read as these claims, the alphabet of its parts has no
point in it, and the header names the algorithm of the signer.
-/

namespace Turnstile.Jwt

open Text Checks

/-! ### Parts -/

theorem dot_notMem_encode (bytes : List UInt8) : '.' ∉ Base64.encode .url bytes := by
  intro h
  have hchar : ∀ n < 64, Base64.Alphabet.char .url n ≠ '.' := by decide
  obtain ⟨n, hn, heq⟩ := Base64.exists_char_of_mem_encode h
  exact hchar n hn heq.symm

theorem spells_part {v : Json.Value} (hv : Json.Spellable v) : Spells (Signer.part v) v :=
  ⟨Utf8.encode v.chars, Base64.decode?_encode .url _, Json.parseBytes_encode hv⟩

/-! ### The header -/

theorem spellable_header (a : Algorithm) : Json.Spellable (Header.json a) := by
  refine .record fun m hm => ?_
  simp only [List.mem_cons, List.not_mem_nil, or_false] at hm
  rcases hm with rfl | rfl
  · exact .text "JWT"
  · exact .text a.name

theorem header_parse?_json (h : Crypto.Hash) : Header.parse? (Header.json (.hmac h)) = some (.hmac h) := by
  cases h <;> decide

/-! ### Claims -/

/-- None of the registered claims but the expiry is among what is written. -/
theorem readsThrough_members (c : Claims) : ReadsThrough (Json.named c.members) := by
  have hknown {name : String} {v : Json.Value} (h : (some name, v) ∈ Json.named c.members) :
      name ∈ Claims.fieldNames := by
    obtain ⟨m, hm, heq⟩ := List.mem_map.1 h
    cases heq
    exact c.names_sublist.subset (List.mem_map_of_mem hm)
  refine ⟨?_, ?_, ?_, ?_, ?_⟩
  · intro name _
    exact Json.Fields.count_record_le_one c.nodup_names name
  · intro v hv
    exact absurd (hknown hv) (by decide)
  · intro v hv
    exact absurd (hknown hv) (by decide)
  · intro v hv
    exact absurd (hknown hv) (by decide)
  · intro v hv
    exact absurd (hknown hv) (by decide)

/-! ### Keys -/

/-- A signer signs with the secret, under the algorithm of its hash. -/
theorem hmac_of_ofSecret {name secret : String} {s : Signer} (h : Signer.ofSecret name secret = .ok s) :
    KeySet.hmac name secret = .ok { algorithm := some (.hmac s.hash), key := some (.secret s.secret) } := by
  obtain ⟨a, ha, h⟩ := bind_eq_ok_iff.1 h
  split at h
  · next hash =>
    rw [guard_eq_ok_iff] at h
    obtain ⟨hsecret, h⟩ := h
    cases pure_eq_ok_iff.1 h
    have hfamily : ¬ (Algorithm.hmac hash).family ≠ .hmac := not_not.2 rfl
    refine bind_eq_ok_iff.2 ⟨_, ha, ?_⟩
    simp [hfamily, hsecret, pure, Except.pure]
  · exact absurd h throw_ne_ok

theorem sign_eq (s : Signer) (c : Claims) : (s.sign c).toList =
    Signer.part (Header.json (.hmac s.hash)) ++ '.' :: Signer.part c.toJson ++ '.' ::
      Base64.encode .url (Crypto.hmac s.hash s.secret (Utf8.encode
        (Signer.part (Header.json (.hmac s.hash)) ++ '.' :: Signer.part c.toJson))) :=
  String.toList_ofList

/-- The token of a signer carries the claims that were signed. -/
theorem carries_sign (s : Signer) {c : Claims} (hfits : c.Fits64) (hkey : c.apiKey ≠ "") (hexp : 0 ≤ c.exp) :
    Carries (.secret s.secret) (.hmac s.hash) (Signer.part (Header.json (.hmac s.hash)))
      (Signer.part c.toJson)
      (Base64.encode .url (Crypto.hmac s.hash s.secret (Utf8.encode
        (Signer.part (Header.json (.hmac s.hash)) ++ '.' :: Signer.part c.toJson))))
      (Json.named c.members) c := by
  obtain ⟨n, hn, hint⟩ := exp_of_ofJson? (Claims.ofJson?_toJson hfits)
  exact {
    family := rfl
    payload_undotted := dot_notMem_encode _
    signature_undotted := dot_notMem_encode _
    named := ⟨_, spells_part (spellable_header _), header_parse?_json s.hash⟩
    signed := .hmac s.secret s.hash _
    spelt := spells_part c.spellable_toJson
    read := Claims.ofJson?_toJson hfits
    expiry := ⟨n, hn, hint, hexp⟩
    hasKey := hkey }

/-- A key set with the secret and the algorithm of a signer reads its tokens. -/
theorem verify_of_signed (s : Signer) {c : Claims} (hfits : c.Fits64) (hkey : c.apiKey ≠ "")
    (hexp : 0 ≤ c.exp) :
    KeySet.verify { algorithm := some (.hmac s.hash), key := some (.secret s.secret) } (s.sign c) = .ok c := by
  refine verify_eq_ok_iff.2 ⟨_, ?_, readsThrough_members c⟩
  exact ⟨_, _, _, _, _, rfl, rfl, sign_eq s c, carries_sign s hfits hkey hexp⟩

/-- **Signing and verifying are inverse.** What a signer can be made from makes a key set of the same
algorithm, and this key set reads every token of the signer as the claims that were signed, provided that
they have a key and no negative expiry and that their integers are integers of 64 bits. -/
theorem verify_sign {name secret : String} {s : Signer} (h : Signer.ofSecret name secret = .ok s) :
    ∃ k, KeySet.hmac name secret = .ok k ∧ k.algorithm = some (.hmac s.hash) ∧
      ∀ c : Claims, c.Fits64 → c.apiKey ≠ "" → 0 ≤ c.exp → k.verify (s.sign c) = .ok c := by
  exact ⟨_, hmac_of_ofSecret h, rfl, fun c hfits hkey hexp => verify_of_signed s hfits hkey hexp⟩

/-- Claims whose text has to be escaped, with the least integer and without routes. -/
def oddClaims : Claims where
  apiKey := "k\"\\\n\u0001😀"
  rateLimit := some (-9223372036854775808)
  expiresAt := some ""
  exp := 0

/-- The name is trimmed and capitalised, and the secret need not be ASCII. -/
theorem verify_sign_odd :
    ∃ s k, Signer.ofSecret " hs384" "sé" = .ok s ∧ KeySet.hmac " hs384" "sé" = .ok k ∧
      k.verify (s.sign oddClaims) = .ok oddClaims := by
  have hsigner : Signer.ofSecret " hs384" "sé" = .ok { hash := .sha384, secret := [115, 195, 169] } := by
    decide +kernel
  have hfits : oddClaims.Fits64 := by
    refine ⟨by decide, fun n hn => ?_, fun n hn => by cases hn⟩
    cases hn
    decide
  obtain ⟨k, hk, -, hverify⟩ := verify_sign hsigner
  exact ⟨_, k, hsigner, hk, hverify oddClaims hfits (by decide) (by decide)⟩

end Turnstile.Jwt
