import Mathlib.Data.List.Basic
import Turnstile.Access.Pipeline
import Turnstile.Proofs.Text.Blank
/-!
# Which credentials are read

An `Authorization` value is meant to be a scheme and a token, two words with any blanks around them. What is read
is anything after the scheme and a space. The two differ where the blank after the scheme is no space, so that a
proper credential is refused, and where more words follow, which are taken for one token. Elsewhere they agree,
and whatever is not read is refused before anyone is asked.
-/

namespace Turnstile

open Text

variable {value token : String} {s rest : List Char}

/-! ### Schemes -/

def NamesBearer (scheme : List Char) : Prop := eqIgnoreAsciiCase (String.ofList scheme) "Bearer" = true

theorem asciiLowerChar_of_isBlank {c : Char} (h : isBlank c = true) : asciiLowerChar c = c := by
  rw [asciiLowerChar, if_neg]
  rintro ⟨hlow, hhigh⟩
  have hlow' : 65 ≤ c.toNat := hlow
  have hhigh' : c.toNat ≤ 90 := hhigh
  simp only [isBlank, Bool.or_eq_true, Bool.and_eq_true, decide_eq_true_eq, beq_iff_eq] at h
  omega

namespace NamesBearer

variable {scheme : List Char}

theorem map_eq (h : NamesBearer scheme) : scheme.map asciiLowerChar = ['b', 'e', 'a', 'r', 'e', 'r'] := by
  rw [NamesBearer, eqIgnoreAsciiCase, String.toList_ofList, beq_iff_eq] at h
  exact h

theorem ne_nil (h : NamesBearer scheme) : scheme ≠ [] := by
  rintro rfl
  cases h.map_eq

theorem isBlank_eq_false (h : NamesBearer scheme) : ∀ c ∈ scheme, isBlank c = false := by
  have hletters : ['b', 'e', 'a', 'r', 'e', 'r'].all (fun c => !isBlank c) = true := by decide
  intro c hc
  rw [← Bool.not_eq_true]
  intro hblank
  have hmem : c ∈ scheme.map asciiLowerChar :=
    List.mem_map.2 ⟨c, hc, asciiLowerChar_of_isBlank hblank⟩
  rw [h.map_eq] at hmem
  have hletter := List.all_eq_true.1 hletters c hmem
  rw [hblank] at hletter
  cases hletter

end NamesBearer

/-! ### What follows the scheme -/

/-- The text begins with the scheme, up to blanks; a blank follows it, and then the rest. -/
def SchemeThen (s : List Char) (c : Char) (rest : List Char) : Prop :=
  ∃ before scheme, s = before ++ (scheme ++ c :: rest) ∧ (∀ x ∈ before, isBlank x = true) ∧
    NamesBearer scheme ∧ isBlank c = true

theorem SchemeThen.unique {c c' : Char} {rest' : List Char} (h : SchemeThen s c rest)
    (h' : SchemeThen s c' rest') : c = c' ∧ rest = rest' := by
  have hdrop : ∀ {d : Char} {l : List Char}, SchemeThen s d l →
      (s.dropWhile isBlank).dropWhile (fun x => !isBlank x) = d :: l := by
    rintro d l ⟨before, scheme, rfl, hbefore, hscheme, hd⟩
    have hfirst : (scheme ++ d :: l).dropWhile isBlank = scheme ++ d :: l := by
      cases scheme with
      | nil => exact absurd rfl hscheme.ne_nil
      | cons x scheme => simp [hscheme.isBlank_eq_false x (by simp)]
    rw [List.dropWhile_append_of_pos hbefore, hfirst, List.dropWhile_append_of_pos]
    · simp [hd]
    · intro x hx
      rw [hscheme.isBlank_eq_false x hx]
      rfl
  rw [← List.cons.injEq, ← hdrop h, ← hdrop h']

/-! ### What is meant and what is read -/

/-- What is meant: the words of the value are a scheme and the token. -/
def Granted (value token : String) : Prop :=
  ∃ scheme, words value.toList = [scheme, token.toList] ∧ NamesBearer scheme

theorem granted_iff : Granted value token ↔
    ∃ c rest, SchemeThen value.toList c rest ∧ words rest = [token.toList] := by
  constructor
  · rintro ⟨scheme, hwords, hscheme⟩
    obtain ⟨before, tail, hvalue, hbefore, -, -, htail, hrest⟩ := words_eq_cons_iff.1 hwords
    cases tail with
    | nil => cases hrest
    | cons c rest =>
      have hc : isBlank c = true := htail c rfl
      rw [words_cons_of_isBlank hc] at hrest
      exact ⟨c, rest, ⟨before, scheme, hvalue, hbefore, hscheme, hc⟩, hrest⟩
  · rintro ⟨c, rest, ⟨before, scheme, hvalue, hbefore, hscheme, hc⟩, hrest⟩
    refine ⟨scheme, words_eq_cons_iff.2 ⟨before, c :: rest, hvalue, hbefore, hscheme.ne_nil,
      hscheme.isBlank_eq_false, by simpa using hc, ?_⟩, hscheme⟩
    rw [words_cons_of_isBlank hc, hrest]

/-- What is read: after the scheme and a space, the rest without the blanks around it. -/
def Presented (value token : String) : Prop :=
  ∃ rest, SchemeThen value.toList ' ' rest ∧ trimChars rest = token.toList ∧ token ≠ ""

theorem extractBearer_eq_some_iff : extractBearer value = some token ↔ Presented value token := by
  constructor
  · intro h
    obtain ⟨before, after, hvalue, hbefore, hafter, -, -⟩ := trimChars_eq_iff.1 (rfl : trimChars value.toList = _)
    unfold extractBearer at h
    dsimp only at h
    split at h
    · cases h
    · next c tail hdrop =>
      obtain ⟨hcond, htoken⟩ := Option.ite_none_right_eq_some.1 h
      rw [Bool.and_eq_true, Bool.not_eq_true'] at hcond
      have hc : c = ' ' := by
        have hhead := List.head?_dropWhile_not (· != ' ') (trimChars value.toList)
        rw [hdrop] at hhead
        simpa using hhead
      subst hc
      have hsplit : (trimChars value.toList).takeWhile (· != ' ') ++ ' ' :: tail = trimChars value.toList := by
        rw [← hdrop, List.takeWhile_append_dropWhile]
      have htail : trimChars (tail ++ after) = token.toList := by
        rw [trimChars_append_blanks hafter, ← Option.some.inj htoken, String.toList_ofList]
      refine ⟨tail ++ after, ⟨before, _, ?_, hbefore, hcond.1, rfl⟩, htail, ?_⟩
      · rw [← List.cons_append, ← List.append_assoc (List.takeWhile _ _), hsplit]
        exact hvalue
      · rintro rfl
        rw [trimChars_append_blanks hafter] at htail
        rw [htail] at hcond
        cases hcond.2
  · rintro ⟨rest, ⟨before, scheme, hvalue, hbefore, hscheme, -⟩, htrim, hne⟩
    obtain ⟨gap, after, rfl, hgap, hafter, -, hlast⟩ := trimChars_eq_iff.1 htrim
    have hne' : token.toList ≠ [] := by simpa using hne
    have hs : trimChars value.toList = scheme ++ ' ' :: (gap ++ token.toList) := by
      refine trimChars_eq_iff.2 ⟨before, after, by simp [hvalue], hbefore, hafter, ?_, ?_⟩
      · intro c hc
        rw [List.head?_append_of_ne_nil _ hscheme.ne_nil] at hc
        exact hscheme.isBlank_eq_false c (List.mem_of_mem_head? hc)
      · rw [← List.cons_append, ← List.append_assoc, List.getLast?_append_of_ne_nil _ hne']
        exact hlast
    have hspace : ∀ c ∈ scheme, (c != ' ') = true := by
      intro c hc
      rw [bne_iff_ne]
      rintro rfl
      cases hscheme.isBlank_eq_false ' ' hc
    have htoken : trimChars (gap ++ token.toList) = token.toList := by
      rw [← List.append_assoc, trimChars_append_blanks hafter] at htrim
      exact htrim
    unfold extractBearer
    dsimp only
    rw [hs, List.dropWhile_append_of_pos hspace, List.takeWhile_append_of_pos hspace]
    simp [htoken, hne', show eqIgnoreAsciiCase (String.ofList scheme) "Bearer" = true from hscheme]

/-! ### Where they differ -/

/-- After the scheme comes a space and then more than one word, or one word that is set off by another blank. -/
def Misread (value : String) : Prop :=
  ∃ c rest, SchemeThen value.toList c rest ∧
    if c = ' ' then 2 ≤ (words rest).length else (words rest).length = 1

theorem extractBearer_iff_granted_iff :
    (∀ token, extractBearer value = some token ↔ Granted value token) ↔ ¬ Misread value := by
  constructor
  · rintro h ⟨c, rest, hvalue, hwords⟩
    split at hwords
    · next hc =>
      subst hc
      -- What is read is all the words, where a granted value has one.
      have hne : trimChars rest ≠ [] := by
        intro hnil
        rw [words_eq_nil_iff.2 (trimChars_eq_nil_iff.1 hnil)] at hwords
        simp at hwords
      have hread : Presented value (String.ofList (trimChars rest)) :=
        ⟨rest, hvalue, by rw [String.toList_ofList], by simpa using hne⟩
      obtain ⟨c', rest', hvalue', hone⟩ := granted_iff.1 ((h _).1 (extractBearer_eq_some_iff.2 hread))
      rw [(hvalue.unique hvalue').2, hone] at hwords
      simp at hwords
    · next hc =>
      obtain ⟨word, hword⟩ := List.length_eq_one_iff.1 hwords
      have hgranted : Granted value (String.ofList word) :=
        granted_iff.2 ⟨c, rest, hvalue, by rw [hword, String.toList_ofList]⟩
      obtain ⟨rest', hvalue', -⟩ := extractBearer_eq_some_iff.1 ((h _).2 hgranted)
      exact hc (hvalue.unique hvalue').1
  · intro h token
    rw [extractBearer_eq_some_iff, granted_iff]
    constructor
    · rintro ⟨rest, hvalue, htrim, hne⟩
      refine ⟨' ', rest, hvalue, ?_⟩
      have hshort : ¬ 2 ≤ (words rest).length := fun hlong => h ⟨' ', rest, hvalue, by rwa [if_pos rfl]⟩
      match hwords : words rest with
      | [] =>
        rw [trimChars_eq_nil_iff.2 (words_eq_nil_iff.1 hwords)] at htrim
        exact absurd (String.toList_eq_nil_iff.1 htrim.symm) hne
      | [word] => rw [← htrim, trimChars_of_words_eq_singleton hwords]
      | _ :: _ :: _ => simp [hwords] at hshort
    · rintro ⟨c, rest, hvalue, hwords⟩
      have hc : c = ' ' := by
        by_contra hc
        exact h ⟨c, rest, hvalue, by rw [if_neg hc, hwords]; rfl⟩
      subst hc
      refine ⟨rest, hvalue, trimChars_of_words_eq_singleton hwords, ?_⟩
      rintro rfl
      obtain ⟨-, -, -, -, hne, -⟩ := words_eq_cons_iff.1 hwords
      exact hne rfl

/-- **Which credentials are read**: those meant, just if the value is not misread; in any case what follows the
scheme and a space. Where there is none the request is refused at once, and no verifier is asked. -/
theorem bearer_as_meant_iff (value : String) :
    ((∀ token, extractBearer value = some token ↔ Granted value token) ↔ ¬ Misread value) ∧
      (∀ token, extractBearer value = some token ↔ Presented value token) ∧
      ((∀ token, ¬ Presented value token) → ∀ timeout now path,
        Access.evaluate timeout now (some value) path =
          .done (.error (.missingCredential "missing bearer token"))) := by
  refine ⟨extractBearer_iff_granted_iff, fun _ => extractBearer_eq_some_iff, ?_⟩
  intro hnone timeout now path
  have hextract : (some value).bind extractBearer = none := by
    rw [Option.bind_some, Option.eq_none_iff_forall_not_mem]
    intro token hmem
    exact hnone token (extractBearer_eq_some_iff.1 hmem)
  rw [Access.evaluate, hextract]

theorem spaced_read : Granted "bearer  abc" "abc" ∧ extractBearer "bearer  abc" = some "abc" ∧
    Access.evaluate 0 ⟨0, 0⟩ (some "Basic abc") "/" =
      .done (.error (.missingCredential "missing bearer token")) := by
  have hgranted : Granted "bearer  abc" "abc" :=
    ⟨"bearer".toList, by decide +kernel, by unfold NamesBearer; decide⟩
  have hplain : ¬ Misread "bearer  abc" := by
    rintro ⟨c, rest, hvalue, hwords⟩
    have hvalue' : SchemeThen "bearer  abc".toList ' ' " abc".toList :=
      ⟨[], "bearer".toList, by decide, by simp, by unfold NamesBearer; decide, by decide⟩
    obtain ⟨rfl, rfl⟩ := hvalue.unique hvalue'
    revert hwords
    decide +kernel
  refine ⟨hgranted, ((bearer_as_meant_iff "bearer  abc").1.2 hplain "abc").2 hgranted, ?_⟩
  apply (bearer_as_meant_iff "Basic abc").2.2
  intro token hread
  have hnone : extractBearer "Basic abc" = none := by decide +kernel
  cases hnone.symm.trans (((bearer_as_meant_iff "Basic abc").2.1 token).2 hread)

/-- Two words are read as one token, and a proper credential set off by a tab is refused. -/
theorem words_misread : (extractBearer "Bearer a b" = some "a b" ∧ ¬ Granted "Bearer a b" "a b") ∧
    Granted "Bearer\ta" "a" ∧ extractBearer "Bearer\ta" = none := by
  refine ⟨⟨by decide +kernel, ?_⟩, ⟨"Bearer".toList, by decide +kernel, by unfold NamesBearer; decide⟩,
    by decide +kernel⟩
  rintro ⟨scheme, hwords, -⟩
  have hthree : (words "Bearer a b".toList).length = 3 := by decide +kernel
  rw [hwords] at hthree
  cases hthree

end Turnstile
