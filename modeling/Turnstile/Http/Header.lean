import Turnstile.Text.Letters
import Turnstile.Text.Decimal
/-!
# Headers

Named values of a request or response, in order of arrival. Names are kept in small letters, so that a
name has one spelling. A value may hold any character but control characters other than the tab; it is
a *plain* value if every character is visible ASCII, a space or a tab, and only plain values are read.
-/

namespace Turnstile.Http

/-- A character of a name: ASCII letters, digits and a few marks. -/
def isTokenChar (c : Char) : Bool :=
  c.isAlphanum || "!#$%&'*+-.^_`|~".toList.contains c

/-- A name: at least one character, all of them token characters. -/
def isToken (s : String) : Bool := !s.isEmpty && s.toList.all isTokenChar

/-- A character that may stand in a header value. -/
def isValueChar (c : Char) : Bool :=
  c = '\t' || (32 ≤ c.toNat && c.toNat ≠ 127)

def isValue (s : String) : Bool := s.toList.all isValueChar

/-- A value that can be read as text: visible ASCII, spaces and tabs. -/
def isPlain (s : String) : Bool :=
  s.toList.all fun c => c = '\t' || (32 ≤ c.toNat && c.toNat < 127)

/-- Headers in order of arrival, with names in small letters. -/
abbrev Headers := List (String × String)

namespace Headers

/-- Headers of given names and values, if all of them are well-formed. -/
def ofList? (l : List (String × String)) : Option Headers :=
  l.mapM fun (name, value) =>
    if isToken name && isValue value then some (Text.asciiLower name, value) else none

def all (h : Headers) (name : String) : List String :=
  (h.filter (·.1 == name)).map (·.2)

def first? (h : Headers) (name : String) : Option String := h.lookup name

def erase (h : Headers) (name : String) : Headers := h.filter (·.1 != name)

/-- The headers with one value for a name, in place of all it had. -/
def insert (h : Headers) (name value : String) : Headers :=
  match h with
  | [] => [(name, value)]
  | (n, v) :: rest =>
    if n = name then (name, value) :: erase rest name else (n, v) :: insert rest name value

/-- The headers in order of the first appearance of their names, values of a name together. -/
def grouped : Headers → Headers
  | [] => []
  | (n, v) :: rest =>
    (n, v) :: (all rest n).map (n, ·) ++ grouped (erase rest n)
termination_by h => h.length
decreasing_by
  simp only [erase, List.length_cons]
  exact Nat.lt_succ_of_le (List.length_filter_le _ _)

/-! ### The values of a name -/

/-- Headers that are kept or dropped by their names keep or lose all values of a name. -/
theorem all_filter (h : Headers) (keep : String → Bool) (name : String) :
    all (h.filter fun x => keep x.1) name = if keep name then h.all name else [] := by
  induction h with
  | nil => simp [all]
  | cons x rest ih =>
    simp only [all] at ih ⊢
    by_cases hname : x.1 = name
    · cases hkeep : keep name with
      | true => simp_all
      | false => simp_all
    · cases hkeep : keep x.1 with
      | true => simp_all
      | false => simp_all

theorem all_erase_self (h : Headers) (name : String) : (h.erase name).all name = [] := by
  rw [erase, all_filter h (· != name)]
  simp

theorem all_erase_of_ne (h : Headers) {name other : String} (hne : name ≠ other) :
    (h.erase other).all name = h.all name := by
  rw [erase, all_filter h (· != other)]
  simp [hne]

theorem all_insert_self (h : Headers) (name value : String) : (h.insert name value).all name = [value] := by
  induction h with
  | nil => simp [insert, all]
  | cons x rest ih =>
    obtain ⟨n, v⟩ := x
    by_cases hname : n = name
    · have herased : ((erase rest name).filter (·.1 == name)).map (·.2) = [] := all_erase_self rest name
      simp only [insert, if_pos hname, all, List.filter_cons, beq_self_eq_true, if_true, List.map_cons,
        herased]
    · simp only [insert, if_neg hname]
      simpa [all, hname] using ih

/-- What a name is given does not concern the others. -/
theorem all_insert_of_ne (h : Headers) {name other : String} (hne : name ≠ other) (value : String) :
    (h.insert other value).all name = h.all name := by
  induction h with
  | nil => simp [insert, all, hne.symm]
  | cons x rest ih =>
    obtain ⟨n, v⟩ := x
    by_cases hname : n = other
    · have herased : ((erase rest other).filter (·.1 == name)).map (·.2)
          = (rest.filter (·.1 == name)).map (·.2) := all_erase_of_ne rest hne
      simp [insert, hname, all, hne.symm, herased]
    · simp only [insert, if_neg hname]
      by_cases hn : n = name
      · simpa [all, hn] using ih
      · simpa [all, hn] using ih

theorem first?_eq_head? (h : Headers) (name : String) : h.first? name = (h.all name).head? := by
  induction h with
  | nil => rfl
  | cons x rest ih =>
    obtain ⟨n, v⟩ := x
    by_cases hname : n = name
    · simp [first?, all, hname]
    · simpa [first?, all, List.lookup_cons, hname, beq_eq_false_iff_ne.2 (Ne.symm hname)] using ih

/-! ### Grouped headers -/

theorem all_append (h h' : Headers) (name : String) : all (h ++ h') name = h.all name ++ h'.all name := by
  simp [all]

theorem all_map_pair (n : String) (values : List String) (name : String) :
    all (values.map (n, ·)) name = if n = name then values else [] := by
  induction values with
  | nil => simp [all]
  | cons v values ih =>
    by_cases hname : n = name
    · simpa [all, hname] using ih
    · simp [all, hname]

/-- Grouping keeps the values of each name, in order. -/
theorem all_grouped (h : Headers) (name : String) : h.grouped.all name = h.all name := by
  fun_induction grouped h with
  | case1 => rfl
  | case2 n v rest ih =>
    rw [all_append, ← List.map_cons, all_map_pair, ih]
    by_cases hname : n = name
    · subst hname
      rw [all_erase_self, if_pos rfl, List.append_nil]
      simp [all]
    · rw [all_erase_of_ne rest (Ne.symm hname), if_neg hname, List.nil_append]
      simp [all, hname]

/-- A new name comes last. -/
theorem grouped_concat {h : Headers} {name : String} (hnew : h.all name = []) (value : String) :
    (h ++ [(name, value)]).grouped = h.grouped ++ [(name, value)] := by
  fun_induction grouped h with
  | case1 => simp [grouped, all, erase]
  | case2 n v rest ih =>
    have hne : n ≠ name := by
      rintro rfl
      simp [all] at hnew
    have hrest : all rest name = [] := by simpa [all, hne] using hnew
    have herase : erase (rest ++ [(name, value)]) n = erase rest n ++ [(name, value)] := by
      simp [erase, Ne.symm hne]
    rw [← all_erase_of_ne rest (Ne.symm hne)] at hrest
    rw [List.cons_append, grouped, herase, ih hrest, all_append]
    simp [all, Ne.symm hne]

end Headers

end Turnstile.Http
