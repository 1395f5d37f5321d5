import Turnstile.Url.Address
/-!
# Paths of addresses

What becomes of a path when it is read into an address: it is cut into segments, dot segments are
resolved, and some characters are escaped. The facts below say when nothing of this happens.

* Segments that have once been read are *clean*: reading them again changes nothing (`walk_clean`,
  `clean_segmentsOf`).
* A text is the beginning of its own written path only if it holds no dot segment and nothing that would be
  escaped (`writtenAsIs_of_prefix`), and then it is the whole of it (`slashed_segmentsOf`).
-/

namespace Turnstile.Url

/-! ### Segments after slashes -/

/-- Segments as they are written, each after a slash. -/
def slashed (segments : List (List Char)) : List Char := segments.flatMap ('/' :: ·)

@[simp] theorem slashed_nil : slashed [] = [] := rfl

@[simp] theorem slashed_cons (a : List Char) (l : List (List Char)) :
    slashed (a :: l) = '/' :: (a ++ slashed l) := by
  simp [slashed]

@[simp] theorem slashed_append (l l' : List (List Char)) : slashed (l ++ l') = slashed l ++ slashed l' := by
  simp [slashed]

/-- A path of segments is written segment by segment. -/
theorem toList_render_segments (l : List String) :
    (Path.segments l).render.toList = slashed (l.map String.toList) := by
  rw [Path.render, String.toList_join, slashed, List.flatMap_map, List.flatMap_map]
  simp

/-- Cutting undoes writing: segments without slashes are found again, and what follows them is cut on. -/
theorem cut_slashed {p : Char → Bool} (hp : p '/' = true) (a : List Char) (l : List (List Char))
    (s : List Char) (h : ∀ b ∈ a :: l, ∀ c ∈ b, p c = false) :
    Text.cut p (a ++ slashed l ++ '/' :: s) = a :: l ++ Text.cut p s := by
  induction l generalizing a with
  | nil =>
    rw [slashed_nil, List.append_nil]
    exact Text.cut_append_cons (h a (by simp)) hp s
  | cons b l ih =>
    have hrest := ih b fun x hx => h x (List.mem_cons_of_mem a hx)
    rw [slashed_cons, List.append_assoc, List.cons_append,
      Text.cut_append_cons (h a (by simp)) hp, hrest]
    rfl

theorem slashed_cut (s : List Char) : slashed (Text.cut (· == '/') s) = '/' :: s := by
  induction s with
  | nil => simp [Text.cut]
  | cons c s ih =>
    by_cases hc : c = '/'
    · subst hc
      simp [Text.cut, ih]
    · rcases hcut : Text.cut (· == '/') s with _ | ⟨first, others⟩
      · exact absurd hcut (Text.cut_ne_nil _ s)
      · rw [hcut, slashed_cons] at ih
        have hc' : (c == '/') = false := by simpa using hc
        simp only [Text.cut, hc', hcut, Bool.false_eq_true, if_false, slashed_cons, List.cons_append]
        rw [List.cons.inj ih |>.2]

/-! ### Escaping -/

theorem escape_cons (set : Char → Bool) (c : Char) (s : List Char) :
    escape set (c :: s)
      = (if set c then (String.utf8EncodeChar c).flatMap escapeByte else [c]) ++ escape set s := by
  simp [escape]

/-- What holds no character of the set stays as it is. -/
theorem escape_eq_self {set : Char → Bool} {s : List Char} (h : ∀ c ∈ s, set c = false) :
    escape set s = s := by
  induction s with
  | nil => rfl
  | cons c s ih =>
    rw [escape_cons, h c (by simp), ih fun x hx => h x (by simp [hx])]
    rfl

/-- An escaped byte is a percent sign and two capital hexadecimal digits. -/
theorem mem_escapeByte {b : UInt8} {c : Char} (h : c ∈ escapeByte b) :
    c = '%' ∨ ∃ n < 16, c = capitalHexDigit n := by
  simp only [escapeByte, List.mem_cons, List.not_mem_nil, or_false] at h
  rcases h with rfl | rfl | rfl
  · exact Or.inl rfl
  · exact Or.inr ⟨b.toNat / 16, by have := b.toNat_lt; omega, rfl⟩
  · exact Or.inr ⟨b.toNat % 16, by omega, rfl⟩

/-- A character of an escaped byte is neither escaped itself nor taken for a slash. -/
theorem plain_of_mem_escapeByte {b : UInt8} {c : Char} (h : c ∈ escapeByte b) :
    inPathSet c = false ∧ c ≠ '/' ∧ c ≠ '\\' := by
  rcases mem_escapeByte h with rfl | ⟨n, hn, rfl⟩
  · decide
  · clear h
    revert n
    decide

/-- An escaped text consists of what was not escaped, and of escaped bytes. -/
theorem mem_escape {set : Char → Bool} {s : List Char} {c : Char} (h : c ∈ escape set s) :
    (c ∈ s ∧ set c = false) ∨ ∃ b, c ∈ escapeByte b := by
  rw [escape, List.mem_flatMap] at h
  obtain ⟨x, hx, hc⟩ := h
  cases hset : set x with
  | true =>
    rw [hset, if_pos rfl, List.mem_flatMap] at hc
    obtain ⟨b, -, hb⟩ := hc
    exact Or.inr ⟨b, hb⟩
  | false =>
    rw [hset, if_neg Bool.false_ne_true, List.mem_singleton] at hc
    exact Or.inl ⟨hc ▸ hx, hc ▸ hset⟩

/-! ### Dots -/

theorem plainDots_cons (c : Char) (s : List Char) :
    (c = '%' ∧ ∃ rest, (s = '2' :: 'e' :: rest ∨ s = '2' :: 'E' :: rest) ∧
      plainDots (c :: s) = '.' :: plainDots rest)
      ∨ plainDots (c :: s) = c :: plainDots s := by
  rw [plainDots.eq_def]
  split
  · next rest heq =>
    obtain ⟨rfl, rfl⟩ := List.cons.inj heq
    exact Or.inl ⟨rfl, rest, Or.inl rfl, rfl⟩
  · next rest heq =>
    obtain ⟨rfl, rfl⟩ := List.cons.inj heq
    exact Or.inl ⟨rfl, rest, Or.inr rfl, rfl⟩
  · next heq =>
    obtain ⟨rfl, rfl⟩ := List.cons.inj heq
    exact Or.inr rfl
  · next heq => cases heq

/-- A percent sign that is no part of an escaped dot stays one, whatever stands before it. -/
theorem percent_mem_plainDots_cons {c : Char} {s : List Char} (h : '%' ∈ plainDots s) :
    '%' ∈ plainDots (c :: s) := by
  rcases plainDots_cons c s with ⟨-, rest, hs, heq⟩ | heq
  · rw [heq]
    refine List.mem_cons_of_mem '.' ?_
    rcases hs with rfl | rfl <;> simpa [plainDots] using h
  · rw [heq]
    exact List.mem_cons_of_mem c h

theorem percent_mem_plainDots_append {s : List Char} (a : List Char) (h : '%' ∈ plainDots s) :
    '%' ∈ plainDots (a ++ s) := by
  induction a with
  | nil => exact h
  | cons c a ih => exact percent_mem_plainDots_cons ih

theorem capitalHexDigit_eq : ∀ n < 16, (capitalHexDigit n = '2' → n = 2) ∧
    capitalHexDigit n ≠ 'e' ∧ (capitalHexDigit n = 'E' → n = 14) := by
  decide

/-- The two digits of an escaped byte spell a dot only for the byte of the dot. -/
theorem eq_dot_of_digits {n : Nat} (hn : n < 256) (hfirst : capitalHexDigit (n / 16) = '2')
    (hsecond : capitalHexDigit (n % 16) = 'e' ∨ capitalHexDigit (n % 16) = 'E') : n = 46 := by
  have hhigh := (capitalHexDigit_eq (n / 16) (by omega)).1 hfirst
  obtain ⟨-, hsmall, hlow⟩ := capitalHexDigit_eq (n % 16) (by omega)
  rcases hsecond with h | h
  · exact absurd h hsmall
  · have := hlow h
    omega

theorem percent_mem_plainDots_escapeByte {b : UInt8} (h : b.toNat ≠ 46) (s : List Char) :
    '%' ∈ plainDots (escapeByte b ++ s) := by
  simp only [escapeByte, List.cons_append, List.nil_append]
  rcases plainDots_cons '%' (capitalHexDigit (b.toNat / 16) :: capitalHexDigit (b.toNat % 16) :: s)
    with ⟨-, rest, hs, -⟩ | heq
  · exfalso
    apply h
    rcases hs with hs | hs <;> simp only [List.cons.injEq] at hs
    · exact eq_dot_of_digits b.toNat_lt hs.1 (Or.inl hs.2.1)
    · exact eq_dot_of_digits b.toNat_lt hs.1 (Or.inr hs.2.1)
  · rw [heq]
    exact List.mem_cons_self

/-- The first byte of a character is that of the dot only for the dot. -/
theorem utf8EncodeChar_ne_dot {c : Char} (h : c ≠ '.') :
    ∃ b rest, String.utf8EncodeChar c = b :: rest ∧ b.toNat ≠ 46 := by
  have hval : c.val.toNat ≠ 46 := fun heq => h (Char.ext (UInt32.toNat_inj.1 heq))
  unfold String.utf8EncodeChar
  dsimp only
  split
  · exact ⟨_, _, rfl, by rw [UInt8.toNat_ofNat']; omega⟩
  · split
    · exact ⟨_, _, rfl, by rw [UInt8.toNat_ofNat']; omega⟩
    · split
      · exact ⟨_, _, rfl, by rw [UInt8.toNat_ofNat']; omega⟩
      · exact ⟨_, _, rfl, by rw [UInt8.toNat_ofNat']; omega⟩

/-- A segment in which something is escaped is no dot segment. -/
theorem percent_mem_plainDots_escape {s : List Char} (h : ∃ c ∈ s, inPathSet c = true) :
    '%' ∈ plainDots (escape inPathSet s) := by
  induction s with
  | nil => simp at h
  | cons c s ih =>
    rw [escape_cons]
    cases hc : inPathSet c with
    | true =>
      have hdot : c ≠ '.' := by
        rintro rfl
        exact absurd hc (by decide)
      obtain ⟨b, rest, hbytes, hb⟩ := utf8EncodeChar_ne_dot hdot
      rw [if_pos rfl, hbytes, List.flatMap_cons, List.append_assoc]
      exact percent_mem_plainDots_escapeByte hb _
    | false =>
      have hrest : ∃ x ∈ s, inPathSet x = true := by
        obtain ⟨x, hx, hset⟩ := h
        rcases List.mem_cons.1 hx with rfl | hx
        · rw [hc] at hset
          exact absurd hset Bool.false_ne_true
        · exact ⟨x, hx, hset⟩
      exact percent_mem_plainDots_append _ (ih hrest)

/-! ### Clean segments -/

structure Clean (special : Bool) (segment : List Char) : Prop where
  noEscape : ∀ c ∈ segment, inPathSet c = false
  noSlash : ∀ c ∈ segment, isSlash special c = false
  notDot : isDot segment = false
  notDoubleDot : isDoubleDot segment = false

variable {special : Bool}

theorem clean_nil : Clean special [] where
  noEscape := by simp
  noSlash := by simp
  notDot := rfl
  notDoubleDot := rfl

/-- Escaping a segment that leads nowhere makes it clean. -/
theorem clean_escape {segment : List Char} (hslash : ∀ c ∈ segment, isSlash special c = false)
    (hdot : isDot segment = false) (hdouble : isDoubleDot segment = false) :
    Clean special (escape inPathSet segment) := by
  have hplain : ∀ c ∈ escape inPathSet segment, inPathSet c = false ∧ isSlash special c = false := by
    intro c hc
    rcases mem_escape hc with ⟨hmem, hset⟩ | ⟨b, hb⟩
    · exact ⟨hset, hslash c hmem⟩
    · obtain ⟨hset, hne, hne'⟩ := plain_of_mem_escapeByte hb
      exact ⟨hset, by simp [isSlash, hne, hne']⟩
  by_cases h : ∃ c ∈ segment, inPathSet c = true
  · have hpercent := percent_mem_plainDots_escape h
    refine ⟨fun c hc => (hplain c hc).1, fun c hc => (hplain c hc).2, ?_, ?_⟩
    · rw [isDot, beq_eq_false_iff_ne]
      intro heq
      rw [heq] at hpercent
      exact absurd hpercent (by decide)
    · rw [isDoubleDot, beq_eq_false_iff_ne]
      intro heq
      rw [heq] at hpercent
      exact absurd hpercent (by decide)
  · have hself : escape inPathSet segment = segment := by
      refine escape_eq_self fun c hc => ?_
      rw [Bool.eq_false_iff]
      exact fun hset => h ⟨c, hc, hset⟩
    rw [hself] at hplain ⊢
    exact ⟨fun c hc => (hplain c hc).1, hslash, hdot, hdouble⟩

theorem step_clean {segment : List Char} (h : Clean special segment) (path : List String) (isLast : Bool) :
    step path segment isLast = path ++ [String.ofList segment] := by
  simp [step, h.notDot, h.notDoubleDot, escape_eq_self h.noEscape]

/-- A walk along clean segments appends them, and goes on from there. -/
theorem walk_clean_append {l : List (List Char)} (h : ∀ a ∈ l, Clean special a) (path : List String)
    {rest : List (List Char)} (hrest : rest ≠ []) :
    walk path (l ++ rest) = walk (path ++ l.map String.ofList) rest := by
  induction l generalizing path with
  | nil => simp
  | cons a l ih =>
    have hne : l ++ rest ≠ [] := by simp [hrest]
    obtain ⟨b, others, heq⟩ := List.exists_cons_of_ne_nil hne
    rw [List.cons_append, heq, walk, step_clean (h a (by simp)), ← heq,
      ih (fun x hx => h x (by simp [hx]))]
    · simp
    · simp

theorem walk_clean {l : List (List Char)} (h : ∀ a ∈ l, Clean special a) (path : List String) :
    walk path l = path ++ l.map String.ofList := by
  rcases List.eq_nil_or_concat l with rfl | ⟨init, last, rfl⟩
  · simp [walk]
  · rw [List.concat_eq_append] at h ⊢
    rw [walk_clean_append (fun a ha => h a (by simp [ha])) path (by simp), walk,
      step_clean (h last (by simp))]
    simp

theorem clean_step {path : List String} (hpath : ∀ s ∈ path, Clean special s.toList)
    {segment : List Char} (hslash : ∀ c ∈ segment, isSlash special c = false) (isLast : Bool) :
    ∀ s ∈ step path segment isLast, Clean special s.toList := by
  have hend : ∀ s ∈ (if isLast then [""] else [] : List String), Clean special s.toList := by
    intro s hs
    cases isLast with
    | true => simpa [List.mem_singleton.1 hs] using clean_nil
    | false => simp at hs
  intro s hs
  unfold step at hs
  cases hdouble : isDoubleDot segment with
  | true =>
    rw [hdouble, if_pos rfl, List.mem_append] at hs
    rcases hs with hs | hs
    · exact hpath s (List.dropLast_subset path hs)
    · exact hend s hs
  | false =>
    rw [hdouble, if_neg Bool.false_ne_true] at hs
    cases hdot : isDot segment with
    | true =>
      rw [hdot, if_pos rfl, List.mem_append] at hs
      rcases hs with hs | hs
      · exact hpath s hs
      · exact hend s hs
    | false =>
      rw [hdot, if_neg Bool.false_ne_true, List.mem_append, List.mem_singleton] at hs
      rcases hs with hs | rfl
      · exact hpath s hs
      · rw [String.toList_ofList]
        exact clean_escape hslash hdot hdouble

theorem clean_walk {path : List String} (hpath : ∀ s ∈ path, Clean special s.toList)
    {l : List (List Char)} (hslash : ∀ a ∈ l, ∀ c ∈ a, isSlash special c = false) :
    ∀ s ∈ walk path l, Clean special s.toList := by
  induction l generalizing path with
  | nil => exact hpath
  | cons a l ih =>
    have hstep := clean_step hpath (hslash a (by simp))
    cases l with
    | nil => exact hstep true
    | cons b l => exact ih (hstep false) fun x hx => hslash x (by simp [hx])

/-- **Segments that have been read are clean.** -/
theorem clean_segmentsOf (special : Bool) (cs : List Char) :
    ∀ s ∈ segmentsOf special cs, Clean special s.toList := by
  unfold segmentsOf
  split
  · intro s hs
    cases special with
    | true => simpa [List.mem_singleton.1 hs] using clean_nil
    | false => simp at hs
  · refine clean_walk (by simp) fun a ha c hc => ?_
    exact (Text.mem_of_mem_cut ha hc).1

/-! ### Paths that are written as they stand -/

def isDots (segment : List Char) : Bool := isDot segment || isDoubleDot segment

/-- A path that an address writes as it stands: nothing in it is escaped, only slashes count as slashes,
and no segment leads elsewhere. -/
structure WrittenAsIs (special : Bool) (path : List Char) : Prop where
  noEscape : ∀ c ∈ path, inPathSet c = false
  slashOnly : ∀ c ∈ path, isSlash special c = true → c = '/'
  noDots : ∀ segment ∈ Text.cut (· == '/') path, isDots segment = false

/-- A path below clean segments is read from where they end. -/
theorem segmentsOf_slashed {l : List (List Char)} (hl : ∀ a ∈ l, Clean special a) (s : List Char) :
    segmentsOf special (slashed l ++ '/' :: s)
      = walk (l.map String.ofList) (Text.cut (isSlash special) s) := by
  have hslash : isSlash special '/' = true := by simp [isSlash]
  cases l with
  | nil => simp [segmentsOf, hslash]
  | cons a l =>
    have hcut := cut_slashed hslash a l s fun b hb => (hl b hb).noSlash
    rw [slashed_cons, List.cons_append, segmentsOf, if_pos hslash, hcut,
      walk_clean_append hl [] (Text.cut_ne_nil _ s), List.nil_append]

theorem withoutBreaks_eq_self {s : List Char} (h : ∀ c ∈ s, inPathSet c = false) :
    withoutBreaks s = s := by
  rw [withoutBreaks, List.filter_eq_self]
  intro c hc
  have hset := h c hc
  simp only [Bool.and_eq_true, bne_iff_ne, ne_eq]
  refine ⟨⟨?_, ?_⟩, ?_⟩ <;> rintro rfl <;> exact absurd hset (by decide)

/-- What the written form of clean segments consists of. -/
theorem plain_of_mem_slashed {l : List (List Char)} (hl : ∀ a ∈ l, Clean special a) {c : Char}
    (hc : c ∈ slashed l) : inPathSet c = false ∧ (isSlash special c = true → c = '/') := by
  rw [slashed, List.mem_flatMap] at hc
  obtain ⟨a, ha, hc⟩ := hc
  rcases List.mem_cons.1 hc with rfl | hc
  · exact ⟨by decide, fun _ => rfl⟩
  · refine ⟨(hl a ha).noEscape c hc, fun h => ?_⟩
    rw [(hl a ha).noSlash c hc] at h
    exact absurd h Bool.false_ne_true

theorem cut_of_slashOnly {s : List Char} (h : ∀ c ∈ s, isSlash special c = true → c = '/') :
    Text.cut (isSlash special) s = Text.cut (· == '/') s := by
  refine Text.cut_congr fun c hc => ?_
  rw [Bool.eq_iff_iff, beq_iff_eq]
  exact ⟨h c hc, fun heq => by simp [isSlash, heq]⟩

/-- **A path below clean segments is written as it stands** if it holds nothing that is escaped, taken for
a slash or resolved. -/
theorem slashed_segmentsOf {l : List (List Char)} (hl : ∀ a ∈ l, Clean special a) {s : List Char}
    (h : WrittenAsIs special ('/' :: s)) :
    slashed ((segmentsOf special (withoutBreaks (slashed l ++ '/' :: s))).map String.toList)
      = slashed l ++ '/' :: s := by
  have hplain : ∀ c ∈ slashed l ++ '/' :: s, inPathSet c = false := by
    intro c hc
    rcases List.mem_append.1 hc with hc | hc
    · exact (plain_of_mem_slashed hl hc).1
    · exact h.noEscape c hc
  have hclean : ∀ a ∈ Text.cut (· == '/') s, Clean special a := by
    intro a ha
    have hdots := h.noDots a (by simp [Text.cut, ha])
    rw [isDots, Bool.or_eq_false_iff] at hdots
    refine ⟨fun c hc => ?_, fun c hc => ?_, hdots.1, hdots.2⟩
    · exact h.noEscape c (List.mem_cons_of_mem _ (Text.mem_of_mem_cut ha hc).2)
    · obtain ⟨hne, hmem⟩ := Text.mem_of_mem_cut ha hc
      rw [Bool.eq_false_iff]
      intro hslash
      rw [h.slashOnly c (List.mem_cons_of_mem _ hmem) hslash] at hne
      exact absurd hne (by decide)
  rw [withoutBreaks_eq_self hplain, segmentsOf_slashed hl,
    cut_of_slashOnly fun c hc => h.slashOnly c (List.mem_cons_of_mem _ hc), walk_clean hclean,
    List.map_append, List.map_map, List.map_map, String.toList_comp_ofList, List.map_id, List.map_id,
    slashed_append, slashed_cut]

/-! ### Lengths -/

def pathLength (path : List String) : Nat := (slashed (path.map String.toList)).length

@[simp] theorem pathLength_append (path path' : List String) :
    pathLength (path ++ path') = pathLength path + pathLength path' := by
  simp [pathLength]

theorem pathLength_dropLast (path : List String) : pathLength path.dropLast ≤ pathLength path := by
  rcases List.eq_nil_or_concat path with rfl | ⟨init, last, rfl⟩
  · simp
  · rw [List.concat_eq_append, List.dropLast_concat, pathLength_append]
    omega

/-- A step adds at most a slash and its segment, and less than that if the segment leads elsewhere. -/
theorem pathLength_step {segment : List Char} (h : ∀ c ∈ segment, inPathSet c = false)
    (path : List String) (isLast : Bool) :
    pathLength (step path segment isLast) + (if isDots segment then 1 else 0)
      ≤ pathLength path + (segment.length + 1) := by
  have hend : pathLength (if isLast then [""] else []) ≤ 1 := by cases isLast <;> decide
  have hne : isDots segment = true → 1 ≤ segment.length := by
    intro hdots
    cases segment with
    | nil => exact absurd hdots (by decide)
    | cons c s => simp
  unfold step
  cases hdouble : isDoubleDot segment with
  | true =>
    have hdots : isDots segment = true := by simp [isDots, hdouble]
    have hdrop := pathLength_dropLast path
    have hlen := hne hdots
    rw [if_pos rfl, hdots, if_pos rfl, pathLength_append]
    omega
  | false =>
    cases hdot : isDot segment with
    | true =>
      have hdots : isDots segment = true := by simp [isDots, hdot]
      have hlen := hne hdots
      rw [if_neg Bool.false_ne_true, if_pos rfl, hdots, if_pos rfl, pathLength_append]
      omega
    | false =>
      have hdots : isDots segment = false := by simp [isDots, hdot, hdouble]
      rw [if_neg Bool.false_ne_true, if_neg Bool.false_ne_true, hdots, if_neg Bool.false_ne_true,
        pathLength_append, escape_eq_self h]
      simp [pathLength]

/-- A walk loses at least a character for every segment that leads elsewhere. -/
theorem pathLength_walk {l : List (List Char)} (h : ∀ a ∈ l, ∀ c ∈ a, inPathSet c = false)
    (path : List String) :
    pathLength (walk path l) + l.countP isDots ≤ pathLength path + (slashed l).length := by
  induction l generalizing path with
  | nil => simp [walk]
  | cons a l ih =>
    have hstep := pathLength_step (h a (by simp)) path
    rw [List.countP_cons, slashed_cons, List.length_cons, List.length_append]
    cases l with
    | nil =>
      have := hstep true
      simp only [walk, List.countP_nil, slashed_nil, List.length_nil]
      omega
    | cons b l =>
      have hfirst := hstep false
      have hrest := ih (fun x hx => h x (by simp [hx])) (step path a false)
      rw [walk]
      · omega
      · simp

/-- **Only a path that is written as it stands begins its own written form.** -/
theorem writtenAsIs_of_prefix {l : List (List Char)} (hl : ∀ a ∈ l, Clean special a) {s : List Char}
    (h : slashed l ++ '/' :: s
      <+: slashed ((segmentsOf special (withoutBreaks (slashed l ++ '/' :: s))).map String.toList)) :
    WrittenAsIs special ('/' :: s) := by
  -- The written form is clean, so its beginning is; hence nothing was skipped, escaped or read as a slash.
  have hplain : ∀ c ∈ slashed l ++ '/' :: s,
      inPathSet c = false ∧ (isSlash special c = true → c = '/') := by
    intro c hc
    refine plain_of_mem_slashed ?_ (h.subset hc)
    intro a ha
    obtain ⟨t, ht, rfl⟩ := List.mem_map.1 ha
    exact clean_segmentsOf special _ t ht
  have hs : ∀ c ∈ '/' :: s, inPathSet c = false ∧ (isSlash special c = true → c = '/') :=
    fun c hc => hplain c (List.mem_append_right _ hc)
  have hread : segmentsOf special (withoutBreaks (slashed l ++ '/' :: s))
      = walk (l.map String.ofList) (Text.cut (· == '/') s) := by
    rw [withoutBreaks_eq_self fun c hc => (hplain c hc).1, segmentsOf_slashed hl,
      cut_of_slashOnly fun c hc => (hs c (List.mem_cons_of_mem _ hc)).2]
  -- A segment that leads elsewhere would make the written form too short.
  have hlen := h.length_le
  have hwalk := pathLength_walk
    (l := Text.cut (· == '/') s)
    (fun a ha c hc => (hs c (List.mem_cons_of_mem _ (Text.mem_of_mem_cut ha hc).2)).1)
    (l.map String.ofList)
  rw [hread, List.length_append] at hlen
  rw [slashed_cut, pathLength, pathLength, List.map_map, String.toList_comp_ofList, List.map_id] at hwalk
  have hnone : (Text.cut (· == '/') s).countP isDots = 0 := by omega
  refine ⟨fun c hc => (hs c hc).1, fun c hc => (hs c hc).2, fun a ha => ?_⟩
  rw [List.countP_eq_zero] at hnone
  have hcut : a = [] ∨ a ∈ Text.cut (· == '/') s := by simpa [Text.cut] using ha
  rcases hcut with rfl | ha
  · rfl
  · simpa using hnone a ha

/-! ### Paths of web addresses -/

@[simp] theorem withRest_scheme (u : Url) (hierarchical : Bool) (cs : List Char) :
    (u.withRest hierarchical cs).scheme = u.scheme := rfl

theorem withAuthority?_scheme {u v : Url} {cs : List Char} (h : u.withAuthority? cs = some v) :
    v.scheme = u.scheme := by
  simp only [withAuthority?, Option.bind_eq_bind, Option.pure_def] at h
  split at h
  · cases h
  · split at h <;>
    · simp only [Option.bind_eq_some_iff, Option.some.injEq] at h
      obtain ⟨host, -, port, -, rfl⟩ := h
      rfl

theorem withAuthorityAndRest?_eq_some {u v : Url} {cs : List Char}
    (h : u.withAuthorityAndRest? cs = some v) :
    v.scheme = u.scheme ∧ ∃ path, v.path = .segments (segmentsOf (isSpecial u.scheme) path) := by
  simp only [withAuthorityAndRest?, Option.bind_eq_bind, Option.bind_eq_some_iff, Option.pure_def,
    Option.some.injEq] at h
  obtain ⟨w, hw, rfl⟩ := h
  have hscheme := withAuthority?_scheme hw
  exact ⟨hscheme, _, by rw [withRest, hscheme]; rfl⟩

theorem fileUrl?_scheme {v : Url} {cs : List Char} (h : fileUrl? cs = some v) : v.scheme = "file" := by
  unfold fileUrl? at h
  split at h
  · split at h
    · simp only [Option.bind_eq_bind, Option.pure_def] at h
      split at h <;>
      · simp only [Option.bind_eq_some_iff, Option.some.injEq] at h
        obtain ⟨host, -, rfl⟩ := h
        rfl
    · cases h
      rfl
  · cases h
    rfl

/-- **The path of a web address has been read**, segment by segment. -/
theorem path_of_parse? {s : String} {u : Url} (h : parse? s = some u) (hweb : u.isWeb = true) :
    ∃ cs, u.path = .segments (segmentsOf true cs) := by
  have hscheme : u.scheme = "http" ∨ u.scheme = "https" := by
    simpa using (Bool.and_eq_true_iff.1 hweb).2
  have hspecial : isSpecial u.scheme = true := by
    rcases hscheme with heq | heq <;> rw [heq] <;> decide
  simp only [parse?, Option.bind_eq_bind, Option.bind_eq_some_iff] at h
  obtain ⟨⟨scheme, rest⟩, -, h⟩ := h
  split at h
  · have hfile := fileUrl?_scheme h
    rw [hfile] at hscheme
    exact absurd hscheme (by decide)
  · split at h
    · next hspecial' =>
      obtain ⟨-, cs, hcs⟩ := withAuthorityAndRest?_eq_some h
      rw [hspecial'] at hcs
      exact ⟨cs, hcs⟩
    · next hplain =>
      exfalso
      apply hplain
      -- No other branch changes the scheme, so a web address cannot come from there.
      split at h
      · have heq := (withAuthorityAndRest?_eq_some h).1
        rwa [heq] at hspecial
      · cases h
        exact hspecial
      · cases h
        exact hspecial

end Turnstile.Url
