import Mathlib.Data.List.Nodup
import Turnstile.Json.Decode
import Turnstile.Table
/-!
# Fields of an object

An object has fields if all its names can be read and none of the names asked for is repeated. Its fields
are then its members of these names, whatever else it holds.
-/

namespace Turnstile.Json.Fields

variable {names : List String} {members : List (Option String × Value)}

/-! ### Known members -/

/-- The members whose names are known. -/
def known (names : List String) (members : List (Option String × Value)) : List (String × Value) :=
  members.filterMap fun m => (m.1.filter fun k => names.contains k).map (·, m.2)

@[simp]
theorem known_nil (names : List String) : known names [] = [] :=
  rfl

@[simp]
theorem known_cons_none (names : List String) (v : Value) (rest : List (Option String × Value)) :
    known names ((none, v) :: rest) = known names rest :=
  rfl

theorem known_cons_of_mem {k : String} (hk : k ∈ names) (v : Value) (rest : List (Option String × Value)) :
    known names ((some k, v) :: rest) = (k, v) :: known names rest := by
  simp [known, hk]

theorem known_cons_of_notMem {k : String} (hk : k ∉ names) (v : Value)
    (rest : List (Option String × Value)) :
    known names ((some k, v) :: rest) = known names rest := by
  simp [known, hk]

theorem mem_known {name : String} {v : Value} :
    (name, v) ∈ known names members ↔ name ∈ names ∧ (some name, v) ∈ members := by
  unfold known
  rw [List.mem_filterMap]
  constructor
  · rintro ⟨⟨key, w⟩, hmem, h⟩
    obtain ⟨k, hk, hkw⟩ := Option.map_eq_some_iff.1 h
    cases hkw
    obtain ⟨hkey, hcontains⟩ := Option.filter_eq_some_iff.1 hk
    subst hkey
    exact ⟨by simpa using hcontains, hmem⟩
  · rintro ⟨hname, hmem⟩
    exact ⟨(some name, v), hmem, by simp [hname]⟩

theorem count_known {name : String} (hname : name ∈ names) (members : List (Option String × Value)) :
    ((known names members).map (·.1)).count name = (members.map (·.1)).count (some name) := by
  induction members with
  | nil => rfl
  | cons m rest ih =>
    obtain ⟨_ | k, v⟩ := m
    · simp [ih]
    · by_cases hk : k ∈ names
      · simp [known_cons_of_mem hk, List.count_cons, ih]
      · have hne : k ≠ name := fun h => hk (h ▸ hname)
        simp [known_cons_of_notMem hk, ih, hne]

theorem nodup_known_iff :
    ((known names members).map (·.1)).Nodup ↔
      ∀ name ∈ names, (members.map (·.1)).count (some name) ≤ 1 := by
  rw [List.nodup_iff_count_le_one]
  constructor
  · intro h name hname
    rw [← count_known hname]
    exact h name
  · intro h name
    by_cases hname : name ∈ names
    · rw [count_known hname]
      exact h name hname
    · rw [List.count_eq_zero_of_not_mem]
      · exact Nat.zero_le 1
      · intro hmem
        obtain ⟨⟨k, v⟩, hknown, rfl⟩ := List.mem_map.1 hmem
        exact hname (mem_known.1 hknown).1

/-! ### Taking objects apart -/

theorem ofMembers?_eq_some_iff {acc given : List (String × Value)} (hacc : (acc.map (·.1)).Nodup) :
    ofMembers? names acc members = some given ↔
      (∀ m ∈ members, m.1 ≠ none) ∧ ((acc.reverse ++ known names members).map (·.1)).Nodup ∧
        given = acc.reverse ++ known names members := by
  fun_induction ofMembers? names acc members with
  | case1 acc =>
    constructor
    · intro h
      cases h
      refine ⟨by simp, ?_, by simp⟩
      rw [known_nil, List.append_nil, List.map_reverse]
      exact List.nodup_reverse.2 hacc
    · rintro ⟨-, -, rfl⟩
      simp
  | case2 acc v rest => simp
  | case3 acc k v rest hknown hany =>
    have hrepeated : ¬ ((acc.reverse ++ known names ((some k, v) :: rest)).map (·.1)).Nodup := by
      intro hnodup
      rw [known_cons_of_mem (by simpa using hknown), List.map_append, List.nodup_append] at hnodup
      obtain ⟨e, he, hek⟩ := List.any_eq_true.1 hany
      have hin : k ∈ acc.reverse.map (·.1) := by
        rw [← eq_of_beq hek]
        exact List.mem_map_of_mem (List.mem_reverse.2 he)
      exact hnodup.2.2 k hin k (by simp) rfl
    constructor
    · intro h
      cases h
    · rintro ⟨-, hnodup, -⟩
      exact absurd hnodup hrepeated
  | case4 acc k v rest hknown hany ih =>
    have hnew : k ∉ acc.map (·.1) := by
      intro hin
      obtain ⟨e, he, hek⟩ := List.mem_map.1 hin
      exact hany (List.any_eq_true.2 ⟨e, he, by simp [hek]⟩)
    rw [ih (List.nodup_cons.2 ⟨hnew, hacc⟩), known_cons_of_mem (by simpa using hknown)]
    simp
  | case5 acc k v rest hknown ih =>
    rw [ih hacc, known_cons_of_notMem (by simpa using hknown)]
    simp

theorem of?_object_eq_some_iff {f : Fields} :
    of? names (.object members) = some f ↔
      (∀ m ∈ members, m.1 ≠ none) ∧ (∀ name ∈ names, (members.map (·.1)).count (some name) ≤ 1) ∧
        f = ⟨false, known names members⟩ := by
  have hnil : (([] : List (String × Value)).map (·.1)).Nodup := List.nodup_nil
  rw [of?, Option.map_eq_some_iff, ← nodup_known_iff]
  constructor
  · rintro ⟨given, hgiven, rfl⟩
    obtain ⟨hnames, hnodup, rfl⟩ := (ofMembers?_eq_some_iff hnil).1 hgiven
    exact ⟨hnames, hnodup, rfl⟩
  · rintro ⟨hnames, hnodup, rfl⟩
    exact ⟨_, (ofMembers?_eq_some_iff hnil).2 ⟨hnames, hnodup, rfl⟩, rfl⟩

theorem get?_eq_some_iff {f : Fields} (h : of? names (.object members) = some f) {name : String}
    (hname : name ∈ names) {v : Value} : f.get? name = some v ↔ (some name, v) ∈ members := by
  obtain ⟨-, honce, rfl⟩ := of?_object_eq_some_iff.1 h
  rw [get?, Table.lookup_eq_some_iff_mem (nodup_known_iff.2 honce), mem_known]
  exact and_iff_right hname

theorem count_record_le_one {given : List (String × Value)} (hnodup : (given.map (·.1)).Nodup) (name : String) :
    ((given.map fun m => (some m.1, m.2)).map (·.1)).count (some name) ≤ 1 := by
  have hkeys : ((given.map fun m => (some m.1, m.2)).map (·.1)).Nodup := by
    rw [List.map_map, show ((·.1) ∘ fun m : String × Value => (some m.1, m.2)) = some ∘ (·.1) from rfl,
      ← List.map_map]
    exact hnodup.map fun a b h => Option.some.inj h
  exact List.nodup_iff_count_le_one.1 hkeys (some name)

/-- The fields of a record in which no name is repeated are its members. -/
theorem exists_of?_record {given : List (String × Value)} (hnodup : (given.map (·.1)).Nodup) :
    ∃ f, of? names (.record given) = some f ∧ f.inOrder = false ∧
      ∀ name ∈ names, f.get? name = given.lookup name := by
  have hmem {name : String} {v : Value} :
      (some name, v) ∈ given.map (fun m => (some m.1, m.2)) ↔ (name, v) ∈ given := by simp
  have hnames : ∀ m ∈ given.map (fun m => (some m.1, m.2)), m.1 ≠ none := by
    intro m hm
    obtain ⟨e, -, rfl⟩ := List.mem_map.1 hm
    exact Option.some_ne_none e.1
  have hf : of? names (.record given) = some ⟨false, known names (given.map fun m => (some m.1, m.2))⟩ :=
    of?_object_eq_some_iff.2 ⟨hnames, fun name _ => count_record_le_one hnodup name, rfl⟩
  refine ⟨_, hf, rfl, fun name hname => Option.ext fun v => ?_⟩
  rw [get?_eq_some_iff hf hname, hmem, Table.lookup_eq_some_iff_mem hnodup]

/-- A field that is looked at if it is there. -/
theorem all_get?_iff {f : Fields} (h : of? names (.object members) = some f) {name : String}
    (hname : name ∈ names) {p : Value → Bool} {P : Value → Prop} (hp : ∀ v, p v = true ↔ P v) :
    (f.get? name).all p = true ↔ ∀ v, (some name, v) ∈ members → P v := by
  rw [Option.all_eq_true]
  constructor
  · intro hall v hv
    exact (hp v).1 (hall v ((get?_eq_some_iff h hname).2 hv))
  · intro hall v hv
    exact (hp v).2 (hall v ((get?_eq_some_iff h hname).1 hv))

end Turnstile.Json.Fields
