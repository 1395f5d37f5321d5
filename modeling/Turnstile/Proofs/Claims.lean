import Turnstile.Claims
import Turnstile.Proofs.Json.Fields
import Turnstile.Proofs.Json.Integers
/-!
# The JSON form of claims

Claims are written as an object whose names are all different, with nothing for what is absent. Read field by
field it gives the claims back (`ofJson?_toJson`), provided that their integers are signed integers of 64 bits.
-/

namespace Turnstile.Claims

open Json Text

/-- The integers of claims are signed integers of 64 bits. -/
structure Fits64 (c : Claims) : Prop where
  exp : IsInt64 c.exp
  rateLimit : ∀ n ∈ c.rateLimit, IsInt64 n
  iat : ∀ n ∈ c.iat, IsInt64 n

variable {c : Claims}

/-! ### Members -/

/-- What is written has its place among the names of all claims. -/
theorem names_sublist (c : Claims) : (c.members.map (·.1)).Sublist fieldNames := by
  have hroutes : ((if c.allowedRoutes.isEmpty then []
      else [("allowed_routes", Value.texts c.allowedRoutes)]).map (·.1)).Sublist ["allowed_routes"] := by
    split <;> simp
  have hoption {α : Type} (o : Option α) (name : String) (write : α → Value) :
      ((o.map fun x => (name, write x)).toList.map (·.1)).Sublist [name] := by
    cases o <;> simp
  have hfront := (List.Sublist.refl ["api_key"]).append hroutes
  have hmiddle := (hfront.append (hoption c.rateLimit "rate_limit" .int)).append
    (hoption c.expiresAt "expires_at" .text)
  have hwhole := (hmiddle.append (List.Sublist.refl ["exp"])).append (hoption c.iat "iat" .int)
  rw [members]
  simp only [List.map_append]
  exact hwhole

theorem nodup_names (c : Claims) : (c.members.map (·.1)).Nodup :=
  c.names_sublist.nodup (by decide)

theorem lookup_singleton (name other : String) (v : Value) :
    [(name, v)].lookup other = if other = name then some v else none := by
  by_cases h : other = name
  · simp [h]
  · have hbeq : (other == name) = false := by simpa using h
    simp [h, hbeq, List.lookup_cons]

theorem lookup_toList {α : Type} (o : Option α) (name other : String) (write : α → Value) :
    (o.map fun x => (name, write x)).toList.lookup other = if other = name then o.map write else none := by
  cases o with
  | none => simp
  | some x => exact lookup_singleton name other (write x)

theorem lookup_routes (c : Claims) (other : String) :
    (if c.allowedRoutes.isEmpty then [] else [("allowed_routes", Value.texts c.allowedRoutes)]).lookup other
      = if other = "allowed_routes" ∧ c.allowedRoutes ≠ [] then some (Value.texts c.allowedRoutes) else none := by
  cases c.allowedRoutes with
  | nil => simp
  | cons r rest => simp [lookup_singleton]

/-- What is written under a name. -/
theorem lookup_members (c : Claims) (name : String) :
    c.members.lookup name =
      (((((if name = "api_key" then some (.text c.apiKey) else none).or
        (if name = "allowed_routes" ∧ c.allowedRoutes ≠ [] then some (.texts c.allowedRoutes) else none)).or
        (if name = "rate_limit" then c.rateLimit.map .int else none)).or
        (if name = "expires_at" then c.expiresAt.map .text else none)).or
        (if name = "exp" then some (.int c.exp) else none)).or
        (if name = "iat" then c.iat.map .int else none) := by
  rw [members]
  simp only [List.lookup_append, lookup_singleton, lookup_toList, lookup_routes]

theorem withDefault_orNull {α : Type} {f : Fields} {name : String} {o : Option α} (write : α → Value)
    {read : Value → Option α} (hget : f.get? name = o.map write)
    (hread : ∀ x ∈ o, (write x).orNull? read = some (some x)) :
    f.withDefault name none (Value.orNull? read) = some o := by
  rw [Fields.withDefault, hget]
  cases o with
  | none => rfl
  | some x => exact hread x rfl

theorem spellable_toJson (c : Claims) : Spellable c.toJson := by
  refine .record fun m hm => ?_
  simp only [members, List.mem_append, List.mem_singleton, Option.mem_toList,
    Option.map_eq_some_iff, or_assoc] at hm
  rcases hm with rfl | hroutes | ⟨n, -, rfl⟩ | ⟨s, -, rfl⟩ | rfl | ⟨n, -, rfl⟩
  · exact .text c.apiKey
  · split at hroutes
    · cases hroutes
    · rw [List.mem_singleton.1 hroutes]
      exact spellable_texts c.allowedRoutes
  · exact spellable_int n
  · exact .text s
  · exact spellable_int c.exp
  · exact spellable_int n

/-! ### Reading -/

/-- Claims are read field by field. -/
theorem ofJson?_eq_some_iff {v : Value} :
    ofJson? v = some c ↔ ∃ f, Fields.of? fieldNames v = some f ∧
      f.withDefault "api_key" "" Value.text? = some c.apiKey ∧
      f.withDefault "allowed_routes" [] Value.texts? = some c.allowedRoutes ∧
      f.withDefault "rate_limit" none (Value.orNull? Value.int64?) = some c.rateLimit ∧
      f.withDefault "expires_at" none (Value.orNull? Value.text?) = some c.expiresAt ∧
      f.required "exp" Value.int64? = some c.exp ∧
      f.withDefault "iat" none (Value.orNull? Value.int64?) = some c.iat := by
  simp only [ofJson?, Option.bind_eq_bind, Option.bind_eq_some_iff, Option.pure_def,
    Option.some.injEq]
  constructor
  · rintro ⟨f, hf, apiKey, hkey, routes, hroutes, limit, hlimit, expiry, hexpiry, exp, hexp, iat, hiat, rfl⟩
    exact ⟨f, hf, hkey, hroutes, hlimit, hexpiry, hexp, hiat⟩
  · rintro ⟨f, hf, hkey, hroutes, hlimit, hexpiry, hexp, hiat⟩
    exact ⟨f, hf, _, hkey, _, hroutes, _, hlimit, _, hexpiry, _, hexp, _, hiat, rfl⟩

theorem ofJson?_toJson (h : c.Fits64) : ofJson? c.toJson = some c := by
  obtain ⟨f, hf, -, hget⟩ : ∃ f, Fields.of? fieldNames c.toJson = some f ∧ f.inOrder = false ∧
      ∀ name ∈ fieldNames, f.get? name = c.members.lookup name := Fields.exists_of?_record c.nodup_names
  simp only [lookup_members] at hget
  have hint {n : Int} (hn : IsInt64 n) : (Value.int n).orNull? Value.int64? = some (some n) :=
    congrArg (Option.map some) (int64?_int hn)
  refine ofJson?_eq_some_iff.2 ⟨f, hf, ?_, ?_, ?_, ?_, ?_, ?_⟩
  · rw [Fields.withDefault, hget "api_key" (by decide)]
    rfl
  · rw [Fields.withDefault, hget "allowed_routes" (by decide)]
    cases hroutes : c.allowedRoutes with
    | nil => rfl
    | cons r rest => exact texts?_texts (r :: rest)
  · refine withDefault_orNull .int ?_ fun n hn => hint (h.rateLimit n hn)
    simp [hget "rate_limit" (by decide)]
  · refine withDefault_orNull .text ?_ fun s hs => rfl
    simp [hget "expires_at" (by decide)]
  · rw [Fields.required, hget "exp" (by decide)]
    exact int64?_int h.exp
  · refine withDefault_orNull .int ?_ fun n hn => hint (h.iat n hn)
    simp [hget "iat" (by decide)]

end Turnstile.Claims
