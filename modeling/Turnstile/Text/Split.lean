/-!
# Splitting

Cutting a text into the parts between separators. There is always one part more than there are
separators, so a text without any is one part, and the empty text is one empty part.
-/

namespace Turnstile.Text

/-- Cuts a text at every character that satisfies `p`. -/
def cut (p : Char → Bool) : List Char → List (List Char)
  | [] => [[]]
  | c :: rest =>
    if p c then [] :: cut p rest
    else
      match cut p rest with
      | [] => [[c]]
      | part :: parts => (c :: part) :: parts

def parts (separator : Char) (s : String) : List String :=
  (cut (· == separator) s.toList).map String.ofList

theorem cut_ne_nil (p : Char → Bool) (s : List Char) : cut p s ≠ [] := by
  cases s with
  | nil => simp [cut]
  | cons c rest => unfold cut; split <;> (try split) <;> simp

theorem cut_congr {p q : Char → Bool} {s : List Char} (h : ∀ c ∈ s, p c = q c) : cut p s = cut q s := by
  induction s with
  | nil => rfl
  | cons c s ih => rw [cut, cut, h c (by simp), ih fun x hx => h x (by simp [hx])]

theorem cut_append_cons {p : Char → Bool} {a : List Char} {c : Char} (ha : ∀ x ∈ a, p x = false)
    (hc : p c = true) (s : List Char) : cut p (a ++ c :: s) = a :: cut p s := by
  induction a with
  | nil => simp [cut, hc]
  | cons x a ih =>
    have hx : p x = false := ha x (by simp)
    have hrest := ih fun y hy => ha y (by simp [hy])
    simp [cut, hx, hrest]

/-- What the parts consist of: no separators, and nothing that is not in the text. -/
theorem mem_of_mem_cut {p : Char → Bool} {s part : List Char} (h : part ∈ cut p s) {c : Char}
    (hc : c ∈ part) : p c = false ∧ c ∈ s := by
  induction s generalizing part with
  | nil =>
    rw [cut, List.mem_singleton] at h
    simp [h] at hc
  | cons x s ih =>
    cases hx : p x with
    | true =>
      simp only [cut, hx, if_true, List.mem_cons] at h
      rcases h with rfl | h
      · simp at hc
      · exact ⟨(ih h hc).1, List.mem_cons_of_mem x (ih h hc).2⟩
    | false =>
      rcases hcut : cut p s with _ | ⟨first, others⟩
      · exact absurd hcut (cut_ne_nil p s)
      · rw [hcut] at ih
        simp only [cut, hx, hcut, Bool.false_eq_true, if_false, List.mem_cons] at h
        rcases h with rfl | h
        · rcases List.mem_cons.1 hc with rfl | hc
          · exact ⟨hx, by simp⟩
          · have := ih (by simp) hc
            exact ⟨this.1, List.mem_cons_of_mem x this.2⟩
        · have := ih (by simp [h]) hc
          exact ⟨this.1, List.mem_cons_of_mem x this.2⟩

/-! ### Where the parts stand -/

section Parts

variable {p : Char → Bool} {s part : List Char}

/-- The first part, and what the others are parts of. -/
theorem cut_eq_cons (p : Char → Bool) (s : List Char) :
    ∃ first others, cut p s = first :: others ∧ (∀ c ∈ first, p c = false) ∧
      (others = [] ∧ s = first ∨ ∃ c rest, p c = true ∧ s = first ++ c :: rest ∧ cut p rest = others) := by
  induction s with
  | nil => exact ⟨[], [], rfl, by simp, Or.inl ⟨rfl, rfl⟩⟩
  | cons c s ih =>
    cases hc : p c with
    | true => exact ⟨[], cut p s, by simp [cut, hc], by simp, Or.inr ⟨c, s, hc, rfl, rfl⟩⟩
    | false =>
      obtain ⟨first, others, hcut, hfirst, hrest⟩ := ih
      refine ⟨c :: first, others, by simp [cut, hc, hcut], ?_, ?_⟩
      · intro x hx
        rcases List.mem_cons.1 hx with rfl | hx
        · exact hc
        · exact hfirst x hx
      · rcases hrest with ⟨hothers, hs⟩ | ⟨d, rest, hd, hs, hrest⟩
        · exact Or.inl ⟨hothers, by rw [hs]⟩
        · exact Or.inr ⟨d, rest, hd, by rw [hs, List.cons_append], hrest⟩

theorem cut_of_free (h : ∀ c ∈ s, p c = false) : cut p s = [s] := by
  obtain ⟨first, others, hcut, -, ⟨rfl, rfl⟩ | ⟨c, rest, hc, rfl, -⟩⟩ := cut_eq_cons p s
  · exact hcut
  · exact absurd hc (by simp [h c (by simp)])

theorem cut_append_separator {c : Char} (hc : p c = true) (a s : List Char) :
    cut p (a ++ c :: s) = cut p a ++ cut p s := by
  induction a with
  | nil => simp [cut, hc]
  | cons x a ih =>
    cases hx : p x with
    | true => simp [cut, hx, ih]
    | false =>
      obtain ⟨first, others, hcut, -, -⟩ := cut_eq_cons p a
      simp [cut, hx, ih, hcut]

/-- What stands in front without a separator belongs to the first part. -/
theorem cut_free_append {a : List Char} (ha : ∀ c ∈ a, p c = false) {first : List Char} {others : List (List Char)}
    (h : cut p s = first :: others) : cut p (a ++ s) = (a ++ first) :: others := by
  induction a with
  | nil => exact h
  | cons x a ih =>
    have hx : p x = false := ha x (by simp)
    have hrest := ih fun c hc => ha c (List.mem_cons_of_mem x hc)
    simp only [List.cons_append, cut, hx, hrest, Bool.false_eq_true, if_false]

theorem exists_mem_cut {c : Char} (hc : c ∈ s) (hp : p c = false) : ∃ part ∈ cut p s, c ∈ part := by
  induction s with
  | nil => cases hc
  | cons x s ih =>
    rcases List.mem_cons.1 hc with rfl | hc
    · obtain ⟨first, others, hcut, -, -⟩ := cut_eq_cons p s
      exact ⟨c :: first, by simp [cut, hp, hcut], by simp⟩
    · obtain ⟨part, hpart, hmem⟩ := ih hc
      cases hx : p x with
      | true => exact ⟨part, by simp [cut, hx, hpart], hmem⟩
      | false =>
        obtain ⟨first, others, hcut, -, -⟩ := cut_eq_cons p s
        rw [hcut] at hpart
        rcases List.mem_cons.1 hpart with rfl | hpart
        · exact ⟨x :: part, by simp [cut, hx, hcut], by simp [hmem]⟩
        · exact ⟨part, by simp [cut, hx, hcut, hpart], hmem⟩

/-- **Parts stand between separators**: those of a text are the stretches of it without a separator that begin
with the text or after a separator, and end with the text or before one. -/
theorem mem_cut_iff :
    part ∈ cut p s ↔ (∀ c ∈ part, p c = false) ∧ ∃ before after, s = before ++ part ++ after ∧
      (∀ c ∈ before.getLast?, p c = true) ∧ (∀ c ∈ after.head?, p c = true) := by
  constructor
  · intro h
    -- The induction is on the rest of the text after its first part.
    induction hn : s.length using Nat.strongRecOn generalizing s with
    | ind n ih =>
      obtain ⟨first, others, hcut, hfirst, hrest⟩ := cut_eq_cons p s
      rw [hcut] at h
      rcases List.mem_cons.1 h with rfl | h
      · refine ⟨hfirst, [], s.drop part.length, ?_, by simp, ?_⟩
        · rcases hrest with ⟨-, rfl⟩ | ⟨c, rest, -, rfl, -⟩ <;> simp
        · rcases hrest with ⟨-, rfl⟩ | ⟨c, rest, hc, rfl, -⟩
          · simp
          · simpa using hc
      · rcases hrest with ⟨rfl, -⟩ | ⟨c, rest, hc, rfl, rfl⟩
        · cases h
        · have hshort : rest.length < n := by
            rw [← hn, List.length_append, List.length_cons]
            omega
          obtain ⟨hfree, before, after, rfl, hbefore, hafter⟩ := ih rest.length hshort h rfl
          refine ⟨hfree, first ++ c :: before, after, by simp, ?_, hafter⟩
          intro x hx
          rcases List.eq_nil_or_concat before with rfl | ⟨b, y, rfl⟩
          · have hxc : c = x := by simpa using hx
            exact hxc ▸ hc
          · rw [show first ++ c :: b.concat y = (first ++ c :: b).concat y by simp, List.concat_eq_append,
              List.getLast?_concat] at hx
            exact hbefore x (by rw [List.concat_eq_append, List.getLast?_concat, hx]; rfl)
  · rintro ⟨hfree, before, after, rfl, hbefore, hafter⟩
    have hpart : part ∈ cut p (part ++ after) := by
      cases after with
      | nil => simp [cut_of_free hfree]
      | cons c after =>
        rw [cut_append_cons hfree (hafter c rfl)]
        exact List.mem_cons_self
    rcases List.eq_nil_or_concat before with rfl | ⟨b, c, rfl⟩
    · simpa using hpart
    · rw [List.concat_eq_append, List.append_assoc, List.append_assoc, List.singleton_append,
        cut_append_separator (hbefore c (by simp))]
      exact List.mem_append_right _ hpart

end Parts

end Turnstile.Text
