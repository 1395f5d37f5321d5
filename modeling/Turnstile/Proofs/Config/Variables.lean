import Mathlib.Data.List.TakeWhile
import Turnstile.Config.Layers
import Turnstile.Proofs.Config.Reading
import Turnstile.Proofs.Text.Decimal
/-!
# Variables for text settings

A variable for a setting that is a text decides that setting whatever the layers below it say, and never
whether the settings can be loaded (`load?_variable`). What arrives is the text of the value that the variable
was taken for (`arrival`): a number or a truth value in the one way it is written, any other text as it is
(`arrival_eq_iff`). A secret of digits can so be another one when it arrives (`secret_altered`).
-/

namespace Turnstile.Config

open Text (lower lowerChar intText readInt64 IsInt64)
open Config.Tree (IsLeaf AreLower Apart DifferAt pathOf isPathChar)

/-! ### What arrives -/

/-- The text that a setting gets from a variable. -/
def arrival (v : String) : String :=
  if lower v = "true" ∨ lower v = "false" then lower v
  else
    match readInt64 v with
    | .ok n => intText n
    | .error _ =>
      match Decimal.read? v with
      | some f => Decimal.floatText f
      | none => v

theorem isText_variableValue (v : String) : IsText (variableValue v) (arrival v) := by
  unfold variableValue arrival
  split
  · next h => exact ⟨by rw [if_pos (Or.inl h), h]; rfl, rfl⟩
  · next h => exact ⟨by rw [if_pos (Or.inr h), h]; rfl, rfl⟩
  · next htrue hfalse =>
    rw [if_neg (not_or.2 ⟨htrue, hfalse⟩)]
    cases readInt64 v with
    | ok n => exact ⟨rfl, rfl⟩
    | error e =>
      cases Decimal.read? v with
      | some f => exact ⟨rfl, rfl⟩
      | none => exact ⟨rfl, rfl⟩

theorem isLeaf_variableValue (v : String) : IsLeaf (variableValue v) := by
  have h := (isText_variableValue v).text?
  cases hv : variableValue v with
  | table entries =>
    rw [hv] at h
    cases h
  | _ => trivial

/-! ### Texts that arrive as they are -/

/-- A text that is left as it is: a truth value in small letters, a number in the one way it is written, or
what reads as neither. -/
inductive Unaltered (v : String) : Prop
  | truth (h : v = "true" ∨ v = "false")
  | integer (n : Int) (hn : IsInt64 n) (h : v = intText n)
  | number (f : Float) (hword : lower v ≠ "true" ∧ lower v ≠ "false") (e : Text.IntFault)
      (hint : readInt64 v = .error e) (hread : Decimal.read? v = some f) (h : v = Decimal.floatText f)
  | other (hword : lower v ≠ "true" ∧ lower v ≠ "false") (e : Text.IntFault) (hint : readInt64 v = .error e)
      (hread : Decimal.read? v = none)

theorem lower_intText (n : Int) : lower (intText n) = intText n := by
  refine Text.lower_eq_self fun c hc => ?_
  rcases Text.mem_intText hc with rfl | h
  · rfl
  · have hcapital : ¬ ('A' ≤ c ∧ c ≤ 'Z') := fun hc => absurd (Nat.le_trans hc.1 h.2) (by decide)
    rw [lowerChar, if_neg (by omega), Text.asciiLowerChar, if_neg hcapital]

/-- The text of an integer is no word. -/
theorem lower_intText_ne (n : Int) : lower (intText n) ≠ "true" ∧ lower (intText n) ≠ "false" := by
  have he : 'e' ∉ (intText n).toList := by
    intro h
    exact absurd (Text.mem_intText h) (by decide)
  rw [lower_intText]
  constructor
  · intro h
    exact he (by rw [h]; decide)
  · intro h
    exact he (by rw [h]; decide)

theorem arrival_eq_iff {v : String} : arrival v = v ↔ Unaltered v := by
  constructor
  · intro h
    unfold arrival at h
    split at h
    · next hword => exact .truth (by rwa [h] at hword)
    · next hword =>
      rw [not_or] at hword
      cases hint : readInt64 v with
      | ok n =>
        rw [hint] at h
        exact .integer n (Text.isInt64_of_readInt64 hint) h.symm
      | error e =>
        rw [hint] at h
        cases hread : Decimal.read? v with
        | none => exact .other hword e hint hread
        | some f =>
          rw [hread] at h
          exact .number f hword e hint hread h.symm
  · intro h
    unfold arrival
    cases h with
    | truth h => rcases h with rfl | rfl <;> decide
    | integer n hn h =>
      subst h
      have hword := lower_intText_ne n
      rw [if_neg (by simp [hword]), Text.readInt64_intText hn]
    | number f hword e hint hread h =>
      rw [if_neg (by simp [hword]), hint, hread]
      exact h.symm
    | other hword e hint hread => rw [if_neg (by simp [hword]), hint, hread]

/-! ### Paths of variables -/

theorem mem_pointed {cs : List Char} {c : Char} (h : c ∈ pointed cs) : c = '.' ∨ c ∈ cs := by
  fun_induction pointed cs with
  | case1 rest ih =>
    rcases List.mem_cons.1 h with h | h
    · exact Or.inl h
    · exact (ih h).imp_right fun h => by simp [h]
  | case2 d rest _ ih =>
    rcases List.mem_cons.1 h with h | h
    · exact Or.inr (by simp [h])
    · exact (ih h).imp_right fun h => by simp [h]
  | case3 => exact Or.inr h

theorem lowerChar_of_mem_path {name path : String} (h : variablePath? name = some path) :
    ∀ c ∈ path.toList, lowerChar c = c := by
  intro c hc
  simp only [variablePath?, Option.ite_none_right_eq_some, Option.some.injEq] at h
  obtain ⟨-, rfl⟩ := h
  rw [String.toList_ofList] at hc
  rcases mem_pointed hc with rfl | hc
  · rfl
  · exact Text.lowerChar_of_mem_lower (List.mem_of_mem_drop hc)

/-- A text that is a path of names. -/
def IsPath (path : String) : Prop :=
  ∀ name ∈ Text.parts '.' path, name ≠ "" ∧ name.toList.all isPathChar = true

instance (path : String) : Decidable (IsPath path) :=
  inferInstanceAs (Decidable (∀ name ∈ Text.parts '.' path, name ≠ "" ∧ name.toList.all isPathChar = true))

theorem pathOf_eq (path : String) : pathOf path = if IsPath path then Text.parts '.' path else [path] := by
  have h : ((Text.parts '.' path).all fun n => !n.isEmpty && n.toList.all isPathChar) = true ↔ IsPath path := by
    simp [IsPath]
  simp only [pathOf, h]

theorem areLower_pathOf {path : String} (h : ∀ c ∈ path.toList, lowerChar c = c) : AreLower (pathOf path) := by
  intro name hname
  rw [pathOf_eq] at hname
  split at hname
  · obtain ⟨part, hpart, rfl⟩ := List.mem_map.1 hname
    refine Text.lower_eq_self fun c hc => h c ?_
    rw [String.toList_ofList] at hc
    exact (Text.mem_of_mem_cut hpart hc).2
  · rw [List.mem_singleton.1 hname]
    exact Text.lower_eq_self h

/-- The names that a path written with points leads through before a character that is part of no name. -/
def leading (path : String) : List String :=
  Text.parts '.' (String.ofList (path.toList.takeWhile fun c => isPathChar c || c == '.'))

/-- A variable that leaves a setting to others: it leads neither to the setting, nor to a section it is in,
nor through it. -/
def Spares (name : String) (setting : TextSetting) : Prop :=
  ∀ path ∈ variablePath? name, Apart (leading path) setting.names

instance (name : String) (setting : TextSetting) : Decidable (Spares name setting) :=
  inferInstanceAs (Decidable (∀ path ∈ variablePath? name, Apart (leading path) setting.names))

theorem leading_of_isPath {path : String} (h : IsPath path) : leading path = Text.parts '.' path := by
  have hall : ∀ c ∈ path.toList, (isPathChar c || c == '.') = true := by
    intro c hc
    by_cases hpoint : c = '.'
    · simp [hpoint]
    · obtain ⟨part, hpart, hmem⟩ := Text.exists_mem_cut hc (p := (· == '.')) (by simpa using hpoint)
      have hname := (h _ (List.mem_map_of_mem hpart)).2
      rw [String.toList_ofList] at hname
      rw [List.all_eq_true.1 hname c hmem, Bool.true_or]
  rw [leading, List.takeWhile_eq_self_iff.2 hall, String.ofList_toList]

/-- A path that spares a setting is apart from it also where it is taken for a single name. -/
theorem apart_pathOf {path : String} {setting : TextSetting} (h : Apart (leading path) setting.names) :
    Apart (pathOf path) setting.names := by
  rw [pathOf_eq]
  split
  · next hpath => rwa [leading_of_isPath hpath] at h
  · next hpath =>
    have hnames : ∀ name ∈ setting.names, IsPath name := by cases setting <;> decide
    refine ⟨fun hto => hpath (hnames path (hto.subset (by simp))), fun hthrough => ?_⟩
    have hlength : 1 < setting.names.length := by cases setting <;> decide
    exact absurd hthrough.length_le (Nat.not_le.2 hlength)

/-- The name that the variable of a setting has by rights; any other case does as well. -/
def TextSetting.variableName (setting : TextSetting) : String :=
  "GATEWAY_" ++ Text.upper (String.intercalate "__" setting.names)

example : TextSetting.secret.variableName = "GATEWAY_TOKEN__SECRET" := by decide +kernel

theorem TextSetting.path_variableName (setting : TextSetting) :
    (variablePath? setting.variableName).map pathOf = some setting.names := by
  cases setting <;> decide +kernel

/-! ### Loading -/

variable {files : Files} {asked : Option String} {setting : TextSetting} {before after : List (String × String)}
  {name v w : String}

/-- What all the files say. -/
def fileLayers? (files : Files) (asked : Option String) : Option Tree := do
  let defaults ← fileEntries? files false "config/default"
  let changes ← fileEntries? files false "config/local"
  let given ←
    match asked with
    | some path => fileEntries? files true path
    | none => some []
  return [defaults, changes, given].foldl Tree.overlay (.table [])

theorem load?_eq (files : Files) (named : List (String × String)) (asked : Option String) :
    Settings.load? files named asked
      = (fileLayers? files asked).bind fun t => (t.overlay (variableEntries named)).settings? := by
  cases asked <;> simp [Settings.load?, layers?, fileLayers?, Option.bind_assoc]

theorem overlay_variables {path : String} (hpath : variablePath? name = some path) (root : Tree) :
    root.overlay (variableEntries (before ++ (name, v) :: after))
      = (Tree.putAt (pathOf path) (variableValue v) (root.overlay (variableEntries before))).overlay
          (variableEntries after) := by
  simp [Tree.overlay, variableEntries, hpath]

theorem differAt_variables (hname : (variablePath? name).map pathOf = some setting.names)
    (hafter : ∀ e ∈ after, Spares e.1 setting) (root : Tree) :
    DifferAt (variableValue v) (variableValue w) setting.names
      (root.overlay (variableEntries (before ++ (name, v) :: after)))
      (root.overlay (variableEntries (before ++ (name, w) :: after))) := by
  obtain ⟨path, hpath, hnames⟩ := Option.map_eq_some_iff.1 hname
  rw [overlay_variables hpath, overlay_variables hpath, ← hnames]
  refine DifferAt.overlay ?_ fun e he => ?_
  · refine Tree.differAt_putAt (isLeaf_variableValue v) (isLeaf_variableValue w) ?_ ?_ _
    · rw [hnames]
      cases setting <;> decide
    · exact areLower_pathOf (lowerChar_of_mem_path hpath)
  · obtain ⟨⟨other, u⟩, hmem, hother⟩ := List.mem_filterMap.1 he
    obtain ⟨q, hq, rfl⟩ := Option.map_eq_some_iff.1 hother
    rw [hnames]
    exact ⟨isLeaf_variableValue u, areLower_pathOf (lowerChar_of_mem_path hq),
      apart_pathOf (hafter _ hmem q hq)⟩

/-- **A variable for a text** decides its setting and nothing else: with any other text in it the same settings
are loaded, or none, but for this one setting. -/
theorem load?_variable (hname : (variablePath? name).map pathOf = some setting.names)
    (hafter : ∀ e ∈ after, Spares e.1 setting) :
    Settings.load? files (before ++ (name, v) :: after) asked
      = (Settings.load? files (before ++ (name, w) :: after) asked).map (setting.set (arrival v)) := by
  rw [load?_eq, load?_eq]
  cases fileLayers? files asked with
  | none => rfl
  | some root =>
    exact setting.follows (isText_variableValue v) (isText_variableValue w) _ _
      (differAt_variables hname hafter root)

/-- **Texts from variables**: the settings are loaded, or not, as they are with any other text in the variable;
the setting is what arrives of the text, whatever files and other variables say, and that is the text itself
just if it is one that is left as it is. The variables stand in the order in which they are applied, which need not
be the one in which they were set: they are collected in a hash map first. So the other variables have to spare the
setting only if they come to be applied later. -/
theorem text_unaltered_iff (hname : (variablePath? name).map pathOf = some setting.names)
    (hafter : ∀ e ∈ after, Spares e.1 setting) :
    (∀ w, Settings.load? files (before ++ (name, v) :: after) asked
      = (Settings.load? files (before ++ (name, w) :: after) asked).map (setting.set (arrival v))) ∧
    ∀ s, Settings.load? files (before ++ (name, v) :: after) asked = some s →
      setting.get? s = some (arrival v) ∧ (setting.get? s = some v ↔ Unaltered v) := by
  refine ⟨fun w => load?_variable hname hafter, fun s hs => ?_⟩
  rw [load?_variable (w := v) hname hafter] at hs
  obtain ⟨t, -, rfl⟩ := Option.map_eq_some_iff.1 hs
  rw [TextSetting.get?_set, Option.some.injEq]
  refine ⟨rfl, ?_⟩
  rw [Option.some.injEq]
  exact arrival_eq_iff

/-- A file with a secret of its own. -/
def secretFile : Files := fun name =>
  if name = "config/local.toml" then some "[token]\nsecret = \"s\"" else none

/-- Variables whose names are almost those of the secret and its section. -/
def nearVariables : List (String × String) :=
  [("GATEWAY_TOKEN__SECRETS", "x"), ("GATEWAY_TOKENS", "y"), ("TOKEN__SECRET", "z")]

theorem secret_arrives :
    (variablePath? TextSetting.secret.variableName).map pathOf = some TextSetting.secret.names ∧
    (∀ e ∈ nearVariables, Spares e.1 .secret) ∧
    ∃ s, Settings.load? secretFile ([("gateway_token__secret", "007")] ++
        (TextSetting.secret.variableName, "-50") :: nearVariables) none = some s ∧
      s.token.secret = "-50" := by
  have hname := TextSetting.path_variableName .secret
  have hafter : ∀ e ∈ nearVariables, Spares e.1 .secret := by decide +kernel
  have hloaded : (Settings.load? secretFile ([("gateway_token__secret", "007")] ++
      (TextSetting.secret.variableName, "-50") :: nearVariables) none).isSome = true := by decide +kernel
  obtain ⟨s, hs⟩ := Option.isSome_iff_exists.1 hloaded
  obtain ⟨-, hfound⟩ := text_unaltered_iff (v := "-50") hname hafter
  have hinteger : Unaltered "-50" := .integer (-50) (by decide) (by decide +kernel)
  exact ⟨hname, hafter, s, hs, Option.some.inj ((hfound s hs).2.2 hinteger)⟩

/-- A secret of digits with zeros at its front is another one when it arrives. -/
theorem secret_altered :
    (Settings.load? (fun _ => none) [("GATEWAY_TOKEN__SECRET", "007")] none).map (·.token.secret) = some "7" ∧
      "7" ≠ "007" := by
  decide +kernel

end Turnstile.Config
