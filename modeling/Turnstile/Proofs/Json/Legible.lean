import Turnstile.Json.Value
/-!
# Values that cannot be read

What `Value.flaw?` finds, told by the parts of the value. It finds nothing just if every text, number and name
can be read (`flaw?_eq_none_iff`). A reader that goes on after a flaw is behind the value just if the first
thing that cannot be read is also the last thing in the value and the reader runs past it
(`flaw?_eq_atEnd_iff`).
-/

namespace Turnstile.Json

/-! ### Specification -/

/-- Every text, every number and every name in the value can be read. -/
inductive Legible : Value → Prop
  | null : Legible .null
  | bool (b : Bool) : Legible (.bool b)
  | number {n : Number} (hrange : n.inRange = true) : Legible (.number n)
  | text (s : String) : Legible (.text s)
  | array {items : List Value} (h : ∀ v ∈ items, Legible v) : Legible (.array items)
  | object {members : List (Option String × Value)} (hnames : ∀ m ∈ members, m.1 ≠ none)
      (h : ∀ m ∈ members, Legible m.2) : Legible (.object members)

/-- A text or a number that cannot be read, though a reader runs past it, ends the value, and all before it
can be read. -/
inductive EndsIllegible : Value → Prop
  | string : EndsIllegible (.string none)
  | number {n : Number} (hrange : n.inRange = false) (hpast : n.overruns = false) :
    EndsIllegible (.number n)
  | array {items : List Value} {last : Value} (h : ∀ v ∈ items, Legible v) (hlast : EndsIllegible last) :
    EndsIllegible (.array (items ++ [last]))
  | object {members : List (Option String × Value)} {k : String} {last : Value}
      (hnames : ∀ m ∈ members, m.1 ≠ none) (h : ∀ m ∈ members, Legible m.2) (hlast : EndsIllegible last) :
    EndsIllegible (.object (members ++ [(some k, last)]))

/-- Whoever reads the value and goes on after a failure goes on behind the value. -/
def Passable (v : Value) : Prop := Legible v ∨ EndsIllegible v

/-! ### Flaws in lists -/

namespace Flaw

theorem first?_eq_none_iff {l : List (Option Flaw)} : first? l = none ↔ ∀ o ∈ l, o = none := by
  induction l with
  | nil => simp [first?]
  | cons o rest ih =>
    cases o with
    | none => simp [first?, ih]
    | some f => simp [first?]

theorem first?_append_singleton {l : List (Option Flaw)} (h : ∀ o ∈ l, o = none) (o : Option Flaw) :
    first? (l ++ [o]) = o := by
  induction l with
  | nil => cases o <;> rfl
  | cons p l ih =>
    obtain rfl : p = none := h p (by simp)
    exact ih fun q hq => h q (by simp [hq])

/-- The first flaw leaves the reader behind the list just if it is the last item. -/
theorem first?_eq_atEnd_iff {l : List (Option Flaw)} :
    first? l = some .atEnd ↔ ∃ before, l = before ++ [some .atEnd] ∧ ∀ o ∈ before, o = none := by
  constructor
  · intro h
    induction l with
    | nil => cases h
    | cons o rest ih =>
      cases o with
      | none =>
        obtain ⟨before, rfl, hbefore⟩ := ih h
        exact ⟨none :: before, rfl, by simpa using hbefore⟩
      | some f =>
        cases rest with
        | nil => exact ⟨[], congrArg (fun o => [o]) h, by simp⟩
        | cons p rest => cases h
  · rintro ⟨before, rfl, hbefore⟩
    exact first?_append_singleton hbefore _

end Flaw

namespace Value

theorem flaws_eq_map (items : List Value) : flaws items = items.map flaw? := by
  induction items with
  | nil => rfl
  | cons v rest ih => rw [flaws, ih, List.map_cons]

/-- The flaw that a reader of members meets in one of them. -/
def memberFlaw? (m : Option String × Value) : Option Flaw :=
  if m.1.isNone then some .inside else m.2.flaw?

theorem memberFlaws_eq_map (members : List (Option String × Value)) :
    memberFlaws members = members.map memberFlaw? := by
  induction members with
  | nil => rfl
  | cons m rest ih => rw [memberFlaws, ih, List.map_cons, memberFlaw?]

theorem memberFlaw?_eq_none_iff {m : Option String × Value} :
    memberFlaw? m = none ↔ m.1 ≠ none ∧ m.2.flaw? = none := by
  obtain ⟨_ | k, v⟩ := m
  · simp [memberFlaw?]
  · simp [memberFlaw?]

theorem memberFlaw?_eq_atEnd_iff {m : Option String × Value} :
    memberFlaw? m = some .atEnd ↔ ∃ k v, m = (some k, v) ∧ v.flaw? = some .atEnd := by
  obtain ⟨_ | k, v⟩ := m
  · simp [memberFlaw?]
  · constructor
    · intro h
      exact ⟨k, v, rfl, h⟩
    · rintro ⟨k, v, hm, h⟩
      cases hm
      exact h

/-! ### Flaws in values -/

theorem sizeOf_lt_array {v : Value} {items : List Value} (h : v ∈ items) : sizeOf v < sizeOf (array items) := by
  have hlt := List.sizeOf_lt_of_mem h
  simp only [Value.array.sizeOf_spec]
  omega

theorem sizeOf_lt_object {m : Option String × Value} {members : List (Option String × Value)}
    (h : m ∈ members) : sizeOf m.2 < sizeOf (object members) := by
  have hlt := List.sizeOf_lt_of_mem h
  have hpair : sizeOf m = 1 + sizeOf m.1 + sizeOf m.2 := Prod.mk.sizeOf_spec m.1 m.2
  simp only [Value.object.sizeOf_spec]
  omega

/-- A property of values holds of all of them if it holds of a list and of an object whenever it holds of what
is in them. -/
theorem inductionOn {P : Value → Prop} (null : P .null) (bool : ∀ b, P (.bool b))
    (number : ∀ n, P (.number n)) (string : ∀ s, P (.string s)) (torn : P .torn)
    (array : ∀ items : List Value, (∀ v ∈ items, P v) → P (.array items))
    (object : ∀ members : List (Option String × Value), (∀ m ∈ members, P m.2) → P (.object members))
    (v : Value) : P v :=
  match v with
  | .null => null
  | .bool b => bool b
  | .number n => number n
  | .string s => string s
  | .torn => torn
  | .array items => array items fun v _ => inductionOn null bool number string torn array object v
  | .object members => object members fun m _ => inductionOn null bool number string torn array object m.2
termination_by sizeOf v
decreasing_by
  · exact sizeOf_lt_array ‹_›
  · exact sizeOf_lt_object ‹_›

/-- **No flaw is found just in what can be read.** -/
theorem flaw?_eq_none_iff (v : Value) : v.flaw? = none ↔ Legible v := by
  induction v using inductionOn with
  | null => exact ⟨fun _ => .null, fun _ => rfl⟩
  | bool b => exact ⟨fun _ => .bool b, fun _ => rfl⟩
  | number n =>
    constructor
    · intro h
      rw [flaw?] at h
      split at h
      · next hrange => exact .number hrange
      · split at h <;> cases h
    · intro h
      cases h with
      | number hrange => exact if_pos hrange
  | string s =>
    cases s with
    | some s => exact ⟨fun _ => .text s, fun _ => rfl⟩
    | none => exact ⟨nofun, nofun⟩
  | torn => exact ⟨nofun, nofun⟩
  | array items ih =>
    rw [flaw?, flaws_eq_map, Flaw.first?_eq_none_iff, List.forall_mem_map]
    constructor
    · intro h
      exact .array fun v hv => (ih v hv).1 (h v hv)
    · intro h v hv
      cases h with
      | array h => exact (ih v hv).2 (h v hv)
  | object members ih =>
    rw [flaw?, memberFlaws_eq_map, Flaw.first?_eq_none_iff, List.forall_mem_map]
    constructor
    · intro h
      have hmember := fun m hm => memberFlaw?_eq_none_iff.1 (h m hm)
      exact .object (fun m hm => (hmember m hm).1) fun m hm => (ih m hm).1 (hmember m hm).2
    · intro h m hm
      cases h with
      | object hnames h => exact memberFlaw?_eq_none_iff.2 ⟨hnames m hm, (ih m hm).2 (h m hm)⟩

/-- **A reader is behind a flawed value just if the flaw ends it.** -/
theorem flaw?_eq_atEnd_iff (v : Value) : v.flaw? = some .atEnd ↔ EndsIllegible v := by
  induction v using inductionOn with
  | null => exact ⟨nofun, nofun⟩
  | bool b => exact ⟨nofun, nofun⟩
  | number n =>
    constructor
    · intro h
      rw [flaw?] at h
      split at h
      · cases h
      · next hrange =>
        split at h
        · cases h
        · next hpast => exact .number (eq_false_of_ne_true hrange) (eq_false_of_ne_true hpast)
    · intro h
      cases h with
      | number hrange hpast => simp [flaw?, hrange, hpast]
  | string s =>
    cases s with
    | some s => exact ⟨nofun, nofun⟩
    | none => exact ⟨fun _ => .string, fun _ => rfl⟩
  | torn => exact ⟨nofun, nofun⟩
  | array items ih =>
    rw [flaw?, flaws_eq_map, Flaw.first?_eq_atEnd_iff]
    constructor
    · rintro ⟨before, hitems, hbefore⟩
      obtain ⟨init, tail, rfl, rfl, htail⟩ := List.map_eq_append_iff.1 hitems
      obtain ⟨last, rfl, hlast⟩ := List.map_eq_singleton_iff.1 htail
      rw [List.forall_mem_map] at hbefore
      exact .array (fun v hv => (flaw?_eq_none_iff v).1 (hbefore v hv)) ((ih last (by simp)).1 hlast)
    · intro h
      cases h with
      | @array init last h hlast =>
        refine ⟨init.map flaw?, ?_, ?_⟩
        · rw [List.map_append, List.map_singleton, (ih last (by simp)).2 hlast]
        · exact List.forall_mem_map.2 fun v hv => (flaw?_eq_none_iff v).2 (h v hv)
  | object members ih =>
    rw [flaw?, memberFlaws_eq_map, Flaw.first?_eq_atEnd_iff]
    constructor
    · rintro ⟨before, hmembers, hbefore⟩
      obtain ⟨init, tail, rfl, rfl, htail⟩ := List.map_eq_append_iff.1 hmembers
      obtain ⟨m, rfl, hm⟩ := List.map_eq_singleton_iff.1 htail
      obtain ⟨k, last, rfl, hlast⟩ := memberFlaw?_eq_atEnd_iff.1 hm
      rw [List.forall_mem_map] at hbefore
      have hmember := fun m hm => memberFlaw?_eq_none_iff.1 (hbefore m hm)
      exact .object (fun m hm => (hmember m hm).1) (fun m hm => (flaw?_eq_none_iff m.2).1 (hmember m hm).2)
        ((ih (some k, last) (by simp)).1 hlast)
    · intro h
      cases h with
      | @object init k last hnames h hlast =>
        have hflaw := (ih (some k, last) (by simp)).2 hlast
        refine ⟨init.map memberFlaw?, ?_, ?_⟩
        · rw [List.map_append, List.map_singleton, memberFlaw?_eq_atEnd_iff.2 ⟨k, last, rfl, hflaw⟩]
        · exact List.forall_mem_map.2 fun m hm =>
            memberFlaw?_eq_none_iff.2 ⟨hnames m hm, (flaw?_eq_none_iff m.2).2 (h m hm)⟩

theorem flaw?_ne_inside_iff (v : Value) : v.flaw? ≠ some .inside ↔ Passable v := by
  rw [Passable, ← flaw?_eq_none_iff, ← flaw?_eq_atEnd_iff]
  rcases v.flaw? with _ | _ | _
  · simp
  · simp
  · simp

end Value

end Turnstile.Json
