/-!
# Tables

Finite maps from texts to values, as the process keeps them in memory. A table is a list of entries in
which no key occurs twice; what it holds is seen through `get?` and `size`.
-/

namespace Turnstile

structure Table (α : Type) where
  entries : List (String × α) := []
  nodup : (entries.map (·.1)).Nodup := by simp

namespace Table

variable {α : Type}

def empty : Table α := {}

instance : EmptyCollection (Table α) := ⟨empty⟩

instance : Inhabited (Table α) := ⟨empty⟩

def get? (t : Table α) (k : String) : Option α := t.entries.lookup k

def size (t : Table α) : Nat := t.entries.length

def filter (p : String → α → Bool) (t : Table α) : Table α where
  entries := t.entries.filter fun e => p e.1 e.2
  nodup := t.nodup.sublist (List.filter_sublist.map _)

def erase (t : Table α) (k : String) : Table α := t.filter fun k' _ => k' != k

/-- The table with a value for a key, whatever it had before. -/
def insert (t : Table α) (k : String) (v : α) : Table α where
  entries := (k, v) :: (t.erase k).entries
  nodup := by
    refine List.nodup_cons.2 ⟨?_, (t.erase k).nodup⟩
    simp [erase, filter]

/-! ### What each operation does -/

@[simp] theorem get?_empty (k : String) : (empty : Table α).get? k = none := rfl

@[simp] theorem get?_insert_self (t : Table α) (k : String) (v : α) : (t.insert k v).get? k = some v := by
  simp [get?, insert]

theorem lookup_filter_ne (l : List (String × α)) {k k' : String} (h : k' ≠ k) :
    (l.filter fun e => e.1 != k).lookup k' = l.lookup k' := by
  induction l with
  | nil => rfl
  | cons e rest ih =>
    obtain ⟨a, v⟩ := e
    by_cases ha : a = k
    · subst ha
      have : (k' == a) = false := by simpa using h
      simp [List.lookup_cons, this, ih]
    · simp [ha, List.lookup_cons, ih]

theorem lookup_filter_self (l : List (String × α)) (k : String) :
    (l.filter fun e => e.1 != k).lookup k = none := by
  induction l with
  | nil => rfl
  | cons e rest ih =>
    obtain ⟨a, v⟩ := e
    by_cases ha : a = k
    · simp [ha, ih]
    · have : (k == a) = false := by simpa using fun h => ha h.symm
      simp [ha, List.lookup_cons, this, ih]

@[simp] theorem get?_erase_self (t : Table α) (k : String) : (t.erase k).get? k = none :=
  lookup_filter_self t.entries k

theorem get?_erase_of_ne (t : Table α) {k k' : String} (h : k' ≠ k) :
    (t.erase k).get? k' = t.get? k' :=
  lookup_filter_ne t.entries h

theorem lookup_eq_none_of_notMem (l : List (String × α)) {k : String} (h : k ∉ l.map (·.1)) :
    l.lookup k = none := by
  induction l with
  | nil => rfl
  | cons e rest ih =>
    obtain ⟨a, v⟩ := e
    rw [List.map_cons, List.mem_cons, not_or] at h
    have : (k == a) = false := by simpa using h.1
    rw [List.lookup_cons, this]
    exact ih h.2

theorem lookup_eq_some_iff_mem {l : List (String × α)} (hl : (l.map (·.1)).Nodup) {k : String} {v : α} :
    l.lookup k = some v ↔ (k, v) ∈ l := by
  induction l with
  | nil => simp
  | cons e rest ih =>
    obtain ⟨a, w⟩ := e
    rw [List.map_cons, List.nodup_cons] at hl
    rw [List.lookup_cons, List.mem_cons]
    by_cases ha : k = a
    · subst ha
      have hfirst : (k, v) ∉ rest := fun h => hl.1 (List.mem_map.2 ⟨_, h, rfl⟩)
      simp [hfirst, eq_comm]
    · have hbeq : (k == a) = false := by simpa using ha
      simp [hbeq, ha, ih hl.2]

/-- The entries of a table are what it holds. -/
theorem get?_eq_some_iff (t : Table α) {k : String} {v : α} : t.get? k = some v ↔ (k, v) ∈ t.entries :=
  lookup_eq_some_iff_mem t.nodup

theorem lookup_filter (p : String → α → Bool) (l : List (String × α)) (hl : (l.map (·.1)).Nodup)
    (k : String) : (l.filter fun e => p e.1 e.2).lookup k = (l.lookup k).filter (p k) := by
  induction l with
  | nil => rfl
  | cons e rest ih =>
    obtain ⟨a, v⟩ := e
    rw [List.map_cons, List.nodup_cons] at hl
    have hrest := ih hl.2
    by_cases ha : k = a
    · subst ha
      rw [lookup_eq_none_of_notMem rest hl.1] at hrest
      by_cases hp : p k v = true
      · simp [hp, Option.filter_some]
      · simp [hp, hrest, Option.filter_some]
    · have : (k == a) = false := by simpa using ha
      by_cases hp : p a v = true
      · simp [hp, List.lookup_cons, this, hrest]
      · simp [hp, List.lookup_cons, this, hrest]

/-- No key occurs twice, so a filter keeps or drops the value of a key. -/
theorem get?_filter (t : Table α) (p : String → α → Bool) (k : String) :
    (t.filter p).get? k = (t.get? k).filter (p k) :=
  lookup_filter p t.entries t.nodup k

theorem get?_insert_of_ne (t : Table α) {k k' : String} (v : α) (h : k' ≠ k) :
    (t.insert k v).get? k' = t.get? k' := by
  have : (k' == k) = false := by simpa using h
  simp only [get?, insert, List.lookup_cons, this]
  exact get?_erase_of_ne t h

theorem insert_insert (t : Table α) (k : String) (v w : α) : (t.insert k v).insert k w = t.insert k w := by
  simp [insert, erase, filter]

end Table

end Turnstile
