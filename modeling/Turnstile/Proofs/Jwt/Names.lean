import Turnstile.Proofs.Jwt.Signing
import Turnstile.Proofs.Text.Blank
/-!
# Names of algorithms

A configured name is read in three places: capitalised, to see which family it names; capitalised again, to choose
between secret and key file; trimmed and capitalised, to find the algorithm. They agree on every name that the
first of them takes, whatever the letters it is written in (`namesFamily_iff`), so the secret of such a name makes
a signer and a key set that belong together (`exists_signer`).
-/

namespace Turnstile.Jwt

open Text Checks

variable {name secret : String} {f : Family} {a : Algorithm}

/-- No name of an algorithm has a blank in it. -/
theorem isBlank_of_mem_name (a : Algorithm) : ∀ c ∈ a.name.toList, isBlank c = false := by
  have hfree : a.name.toList.all (fun c => !isBlank c) = true := by
    cases a with
    | hmac h => cases h <;> rfl
    | rsa p h => cases p <;> cases h <;> rfl
    | es256 => rfl
    | es384 => rfl
    | edDsa => rfl
  simpa using hfree

theorem name_of_ofName? {s : String} (h : Algorithm.ofName? s = some a) : a.name = s := by
  simpa using List.find?_some h

/-- A name is of a family just if it names an algorithm of the family and there is nothing to trim. -/
theorem namesFamily_iff : KeySet.namesFamily f name = true ↔
    (∃ a, Algorithm.parse? name = some a ∧ a.family = f) ∧ trim name = name := by
  unfold KeySet.namesFamily
  constructor
  · intro h
    split at h
    · next a ha =>
      have htrim : trim name = name := trim_of_upper (name_of_ofName? ha ▸ isBlank_of_mem_name a)
      refine ⟨⟨a, ?_, by simpa using h⟩, htrim⟩
      rw [Algorithm.parse?, htrim]
      exact ha
    · cases h
  · rintro ⟨⟨a, ha, rfl⟩, htrim⟩
    rw [Algorithm.parse?, htrim] at ha
    simp [ha]

theorem parseAlgorithm_of_parse? (h : Algorithm.parse? name = some a) : parseAlgorithm name = .ok a := by
  rw [parseAlgorithm, h]

/-- A name of the family makes a signer of any secret that is not empty. -/
theorem exists_signer (hname : KeySet.namesFamily .hmac name = true) (hsecret : secret ≠ "") :
    ∃ signer, Signer.ofSecret name secret = .ok signer := by
  obtain ⟨⟨a, ha, hfamily⟩, -⟩ := namesFamily_iff.1 hname
  cases a with
  | hmac hash =>
    refine ⟨{ hash, secret := Utf8.bytes secret }, bind_eq_ok_iff.2 ⟨_, parseAlgorithm_of_parse? ha, ?_⟩⟩
    exact guard_eq_ok_iff.2 ⟨by simpa using hsecret, rfl⟩
  | rsa p h => cases hfamily
  | es256 => cases hfamily
  | es384 => cases hfamily
  | edDsa => cases hfamily

/-- Such a name is of no other family, so its key set is made of the secret. -/
theorem ofSettings_of_hmac (hname : KeySet.namesFamily .hmac name = true) (pem : Option String) :
    KeySet.ofSettings name secret pem = KeySet.hmac name secret := by
  refine if_neg ?_
  intro hrsa
  obtain ⟨⟨a, ha, hhmac⟩, -⟩ := namesFamily_iff.1 hname
  obtain ⟨⟨b, hb, hrsa⟩, -⟩ := namesFamily_iff.1 hrsa
  cases ha.symm.trans hb
  cases hhmac.symm.trans hrsa

end Turnstile.Jwt
