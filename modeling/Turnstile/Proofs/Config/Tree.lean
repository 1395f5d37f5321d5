import Turnstile.Config.Tree
/-!
# Values in trees of settings

A value that is no table, put at the end of a path, is found there whatever the tree held before, and two
trees that such a value is put into differ in nothing but what is put (`differAt_putAt`). What is put later
at a path that is apart from the first one leaves it at that (`DifferAt.putAt`).
-/

namespace Turnstile.Config.Tree

variable {x y z t₁ t₂ : Tree} {name : String} {path q : List String}

/-! ### Entries -/

theorem lookup_alter (name other : String) (f : Option Tree → Tree) (l : List (String × Tree)) :
    (alter name f l).lookup other = if other = name then some (f (l.lookup name)) else l.lookup other := by
  induction l with
  | nil =>
    by_cases h : other = name
    · simp [alter, h]
    · simp [alter, List.lookup_cons, h, beq_false_of_ne h]
  | cons e rest ih =>
    obtain ⟨n, t⟩ := e
    by_cases hn : n = name
    · subst hn
      by_cases h : other = n
      · simp [alter, h]
      · simp [alter, List.lookup_cons, h, beq_false_of_ne h]
    · simp only [alter, hn, if_false, List.lookup_cons, beq_false_of_ne (Ne.symm hn), ih]
      by_cases h : other = name
      · simp [h, beq_false_of_ne (Ne.symm hn)]
      · simp [h]

theorem lookup_alter_self (name : String) (f : Option Tree → Tree) (l : List (String × Tree)) :
    (alter name f l).lookup name = some (f (l.lookup name)) := by
  rw [lookup_alter, if_pos rfl]

theorem lookup_alter_of_ne {other : String} (h : other ≠ name) (f : Option Tree → Tree)
    (l : List (String × Tree)) : (alter name f l).lookup other = l.lookup other := by
  rw [lookup_alter, if_neg h]

/-- A value that replaces what is there. -/
def IsLeaf : Tree → Prop
  | .table _ => False
  | _ => True

theorem put_of_isLeaf (name : String) (hz : IsLeaf z) (root : Tree) :
    put name z root = .table (alter (Text.lower name) (fun _ => z) root.entries) := by
  cases z with
  | table entries => exact hz.elim
  | _ => simp [put]

/-- Names in small letters. -/
def AreLower (path : List String) : Prop := ∀ name ∈ path, Text.lower name = name

theorem AreLower.tail (h : AreLower (name :: path)) : AreLower path := by
  intro n hn
  exact h n (List.mem_cons_of_mem name hn)

/-- Putting a value changes the entry of the first name; what is under that, if the path goes on, is changed
by putting the value there. -/
theorem exists_putAt_eq (hz : IsLeaf z) (hlower : AreLower (name :: path)) :
    ∃ f : Option Tree → Tree, (∀ root, putAt (name :: path) z root = .table (alter name f root.entries)) ∧
      (path = [] → ∀ old, f old = z) ∧ (path ≠ [] → ∀ old, f old = putAt path z (old.getD .null)) := by
  cases path with
  | nil =>
    have hname : Text.lower name = name := hlower name (by simp)
    refine ⟨fun _ => z, fun root => ?_, fun _ _ => rfl, fun h => absurd rfl h⟩
    rw [putAt, put_of_isLeaf name hz, hname]
  | cons next rest =>
    exact ⟨_, fun _ => rfl, fun h => (List.cons_ne_nil _ _ h).elim, fun _ _ => rfl⟩

/-! ### Trees that differ at one path -/

/-- Two trees that hold one value each at a path and the same beside it. -/
inductive DifferAt (x y : Tree) : List String → Tree → Tree → Prop
  | here : DifferAt x y [] x y
  | within {name path e₁ e₂ t₁ t₂} (h₁ : e₁.lookup name = some t₁) (h₂ : e₂.lookup name = some t₂)
      (hwithin : DifferAt x y path t₁ t₂)
      (hbeside : ∀ other, other ≠ name → e₁.lookup other = e₂.lookup other) :
      DifferAt x y (name :: path) (.table e₁) (.table e₂)

/-- Changing the entries of one name so that they differ at a path. -/
theorem differAt_alter {e₁ e₂ : List (String × Tree)} {f g : Option Tree → Tree}
    (hwithin : DifferAt x y path (f (e₁.lookup name)) (g (e₂.lookup name)))
    (hbeside : ∀ other, other ≠ name → e₁.lookup other = e₂.lookup other) :
    DifferAt x y (name :: path) (.table (alter name f e₁)) (.table (alter name g e₂)) := by
  apply DifferAt.within (lookup_alter_self name f e₁) (lookup_alter_self name g e₂) hwithin
  intro other hother
  rw [lookup_alter_of_ne hother, lookup_alter_of_ne hother, hbeside other hother]

theorem differAt_putAt (hx : IsLeaf x) (hy : IsLeaf y) (hpath : path ≠ []) (hlower : AreLower path)
    (root : Tree) : DifferAt x y path (putAt path x root) (putAt path y root) := by
  induction path generalizing root with
  | nil => exact absurd rfl hpath
  | cons name rest ih =>
    obtain ⟨f, hf, hfend, hfon⟩ := exists_putAt_eq hx hlower
    obtain ⟨g, hg, hgend, hgon⟩ := exists_putAt_eq hy hlower
    rw [hf, hg]
    apply differAt_alter
    · by_cases hrest : rest = []
      · rw [hfend hrest, hgend hrest, hrest]
        exact .here
      · rw [hfon hrest, hgon hrest]
        exact ih hrest hlower.tail _
    · intro other _
      rfl

/-- Two paths neither of which leads to the end of the other or through it. -/
def Apart (p q : List String) : Prop := ¬ p <+: q ∧ ¬ q <+: p

instance (p q : List String) : Decidable (Apart p q) := inferInstanceAs (Decidable (_ ∧ _))

theorem apart_cons_self {p : List String} : Apart (name :: q) (name :: p) ↔ Apart q p := by
  simp [Apart, List.cons_prefix_cons]

/-- What is put beside the path is put into both trees alike. -/
theorem DifferAt.putAt (h : DifferAt x y path t₁ t₂) (hz : IsLeaf z) (hlower : AreLower q)
    (hapart : Apart q path) : DifferAt x y path (putAt q z t₁) (putAt q z t₂) := by
  induction h generalizing q with
  | here => exact absurd List.nil_prefix hapart.2
  | @within name path e₁ e₂ t₁ t₂ h₁ h₂ hwithin hbeside ih =>
    cases q with
    | nil => exact absurd List.nil_prefix hapart.1
    | cons first rest =>
      obtain ⟨f, hf, -, hon⟩ := exists_putAt_eq hz hlower
      rw [hf, hf]
      simp only [entries]
      by_cases hfirst : first = name
      · subst hfirst
        have hrest : rest ≠ [] := by
          rintro rfl
          exact hapart.1 (by simp [List.cons_prefix_cons])
        apply differAt_alter
        · rw [hon hrest, hon hrest, h₁, h₂]
          exact ih hlower.tail (apart_cons_self.1 hapart)
        · exact hbeside
      · have hname : name ≠ first := fun h => hfirst h.symm
        refine .within (by rw [lookup_alter_of_ne hname, h₁]) (by rw [lookup_alter_of_ne hname, h₂]) hwithin ?_
        intro other hother
        by_cases h : other = first
        · rw [h, lookup_alter_self, lookup_alter_self, hbeside first hfirst]
        · rw [lookup_alter_of_ne h, lookup_alter_of_ne h, hbeside other hother]

/-- Sources of single values on top of trees that differ at a path, all put apart from it. -/
theorem DifferAt.overlay (h : DifferAt x y path t₁ t₂) {source : List (String × Tree)}
    (hsource : ∀ e ∈ source, IsLeaf e.2 ∧ AreLower (pathOf e.1) ∧ Apart (pathOf e.1) path) :
    DifferAt x y path (overlay t₁ source) (overlay t₂ source) := by
  induction source generalizing t₁ t₂ with
  | nil => exact h
  | cons e rest ih =>
    obtain ⟨hleaf, hlower, hapart⟩ := hsource e (by simp)
    exact ih (h.putAt hleaf hlower hapart) fun e he => hsource e (List.mem_cons_of_mem _ he)

end Turnstile.Config.Tree
