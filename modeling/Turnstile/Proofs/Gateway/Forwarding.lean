import Mathlib.Data.List.Induction
import Turnstile.Gateway.Proxy
import Turnstile.Proofs.Url.Path
/-!
# What the service is asked for

The pipeline decides on the path of a request as it stands. The service is asked for that path below the
path of its own address, as an address writes it: with dot segments resolved, backslashes turned and some
characters escaped. The two agree for every scope exactly if the address writes the path as it
stands; a path with a dot segment can be let through for one part of the service and be asked for in
another.
-/

namespace Turnstile.Gateway

open Url

/-! ### The path below the service's own -/

/-- Slashes at the end of a written path belong to empty segments at its end. -/
theorem trimmed_slashed (l : List (List Char)) (hslash : ∀ a ∈ l, '/' ∉ a) :
    ∃ init, init <+: l ∧ ((slashed l).reverse.dropWhile (· == '/')).reverse = slashed init := by
  induction l using List.reverseRecOn with
  | nil => exact ⟨[], List.prefix_rfl, rfl⟩
  | append_singleton l a ih =>
    obtain ⟨init, hinit, heq⟩ := ih fun b hb => hslash b (List.mem_append_left _ hb)
    rcases List.eq_nil_or_concat a with rfl | ⟨b, c, rfl⟩
    · refine ⟨init, hinit.trans (List.prefix_append l _), ?_⟩
      rw [← heq]
      simp
    · have hc : (c == '/') = false := by
        rw [beq_eq_false_iff_ne]
        rintro rfl
        exact hslash _ (List.mem_append_right _ List.mem_cons_self) (by simp)
      refine ⟨l ++ [b.concat c], List.prefix_rfl, ?_⟩
      rw [List.concat_eq_append]
      simp [hc]

variable {text : String} {p : Proxy}

/-- The service's own path consists of clean segments, and so does what is asked for. -/
theorem base_eq_slashed (hp : Proxy.ofTarget text = .ok p) (hweb : p.target.isWeb = true) :
    ∃ l, (∀ a ∈ l, Clean true a) ∧ p.base = slashed l ∧
      ∀ uri : Http.Uri, (p.url uri).path.render.toList
        = slashed ((segmentsOf true (withoutBreaks (slashed l ++ uri.path.toList))).map String.toList) := by
  have hparse : Url.parse? text = some p.target := by
    unfold Proxy.ofTarget at hp
    split at hp
    · next target heq =>
      cases hp
      exact heq
    · cases hp
  obtain ⟨cs, hpath⟩ := path_of_parse? hparse hweb
  have hclean : ∀ a ∈ (segmentsOf true cs).map String.toList, Clean true a := by
    intro a ha
    obtain ⟨s, hs, rfl⟩ := List.mem_map.1 ha
    exact clean_segmentsOf true cs s hs
  obtain ⟨l, hl, hbase⟩ := trimmed_slashed ((segmentsOf true cs).map String.toList) fun a ha hmem =>
    absurd ((hclean a ha).noSlash '/' hmem) (by decide)
  have hbase' : p.base = slashed l := by
    rw [Proxy.base, hpath, toList_render_segments, hbase]
  refine ⟨l, fun a ha => hclean a (hl.subset ha), hbase', fun uri => ?_⟩
  have hspecial : isSpecial p.target.scheme = true := by
    rcases (by simpa using (Bool.and_eq_true_iff.1 hweb).2 :
      p.target.scheme = "http" ∨ p.target.scheme = "https") with heq | heq <;> rw [heq] <;> decide
  simp only [Proxy.url, withQuery, withPath, hpath, hspecial, hbase', String.toList_ofList]
  rw [toList_render_segments]

/-- **What is asked for begins with the path as it stands** just if the address writes it so. -/
theorem url_path_prefix_iff (hp : Proxy.ofTarget text = .ok p) (hweb : p.target.isWeb = true)
    {uri : Http.Uri} {s : List Char} (huri : uri.path.toList = '/' :: s) :
    p.base ++ uri.path.toList <+: (p.url uri).path.render.toList ↔ WrittenAsIs true uri.path.toList := by
  obtain ⟨l, hl, hbase, hurl⟩ := base_eq_slashed hp hweb
  rw [hbase, hurl, huri]
  constructor
  · exact writtenAsIs_of_prefix hl
  · intro h
    refine ⟨[], ?_⟩
    rw [slashed_segmentsOf hl h, List.append_nil]

theorem url_path_eq (hp : Proxy.ofTarget text = .ok p) (hweb : p.target.isWeb = true)
    {uri : Http.Uri} {s : List Char} (huri : uri.path.toList = '/' :: s)
    (h : WrittenAsIs true uri.path.toList) :
    (p.url uri).path.render.toList = p.base ++ uri.path.toList := by
  obtain ⟨l, hl, hbase, hurl⟩ := base_eq_slashed hp hweb
  rw [hbase, hurl, huri]
  exact slashed_segmentsOf hl (huri ▸ h)

/-! ### Scopes -/

/-- A path with a star after it stands for the paths that it begins. -/
theorem isPathAllowed_star {s path : List Char} (hs : s.head? = some '/') :
    isPathAllowed (String.ofList path) [String.ofList (s ++ ['*'])] = true
      ↔ path ≠ [] ∧ s <+: path := by
  have htrim : Text.trimChars (s ++ ['*']) = s ++ ['*'] := by
    refine Text.trimChars_of_ends ?_ ?_
    · rw [List.head?_append, hs]
      rintro c ⟨⟩
      decide
    · rw [List.getLast?_concat]
      rintro c ⟨⟩
      decide
  simp [isPathAllowed, patternMatches, htrim]

/-- **A scope is respected behind the gateway just on paths that are written as they stand.** Whatever
scope lets a guarded path through, a service at a web address is asked, below its own path, for a guarded
path of the same scope, if and only if nothing in the path is escaped, turned into a slash or resolved. -/
theorem scope_respected_iff (hp : Proxy.ofTarget text = .ok p) (hweb : p.target.isWeb = true)
    {uri : Http.Uri} (hroute : Route.of uri.path = .guarded) :
    (∀ c : Claims, c.hasScope = true → isPathAllowed uri.path c.allowedRoutes = true →
      ∃ below, (p.url uri).path.render.toList = p.base ++ below ∧
        isPathAllowed (String.ofList below) c.allowedRoutes = true ∧ guardedStem.toList <+: below)
      ↔ WrittenAsIs true uri.path.toList := by
  obtain ⟨rest, -, hpath⟩ := Route.of_eq_guarded_iff.1 hroute
  have huri : uri.path.toList = '/' :: ("api/v1/".toList ++ rest) := hpath
  constructor
  · intro h
    -- The scope of the path itself and all that it begins tells whether it is asked for as it stands.
    have hstar := @isPathAllowed_star uri.path.toList uri.path.toList (by rw [huri]; rfl)
    rw [String.ofList_toList] at hstar
    obtain ⟨below, hurl, hallowed, -⟩ := h
      { exp := 0, allowedRoutes := [String.ofList (uri.path.toList ++ ['*'])] } rfl
      (hstar.2 ⟨by simp [huri], List.prefix_rfl⟩)
    rw [isPathAllowed_star (by rw [huri]; rfl)] at hallowed
    rw [← url_path_prefix_iff hp hweb huri, hurl, List.prefix_append_right_inj]
    exact hallowed.2
  · intro h c _ hallowed
    refine ⟨uri.path.toList, url_path_eq hp hweb huri h, ?_, ?_⟩
    · rwa [String.ofList_toList]
    · rw [hpath]
      exact List.prefix_append _ _

/-- A service below a path of its own, and a request that is let through as one for users. -/
theorem scope_respected_iff_of_dots :
    ∃ (p : Proxy) (uri : Http.Uri),
      Proxy.ofTarget "http://backend:9000/base/" = .ok p ∧ p.target.isWeb = true ∧
      Route.of uri.path = .guarded ∧ uri.path = "/api/v1/users/%2E./admin" ∧
      ((∀ c : Claims, c.hasScope = true → isPathAllowed uri.path c.allowedRoutes = true →
        ∃ below, (p.url uri).path.render.toList = p.base ++ below ∧
          isPathAllowed (String.ofList below) c.allowedRoutes = true ∧ guardedStem.toList <+: below)
        ↔ WrittenAsIs true uri.path.toList) :=
  ⟨{ target :=
      { scheme := "http", host := some (.domain "backend"), port := some 9000,
        path := .segments ["base", ""] } },
    { rawPath := "/api/v1/users/%2E./admin" }, by decide +kernel, by decide +kernel,
    by decide +kernel, by decide +kernel,
    @scope_respected_iff "http://backend:9000/base/" _ (by decide +kernel) (by decide +kernel) _
      (by decide +kernel)⟩

/-- **Dot segments leave the scope**, the guarded paths and the path of the service. -/
theorem scope_left_by_dots :
    ∃ (p : Proxy) (uri : Http.Uri) (c : Claims),
      Proxy.ofTarget "http://backend:9000/base/" = .ok p ∧ p.target.isWeb = true ∧
      Http.Uri.parse? "/api/v1/users/../../../../admin" = some uri ∧ Route.of uri.path = .guarded ∧
      c.allowedRoutes = ["/api/v1/users/*"] ∧ isPathAllowed uri.path c.allowedRoutes = true ∧
      (p.url uri).path.render = "/admin" :=
  ⟨{ target :=
      { scheme := "http", host := some (.domain "backend"), port := some 9000,
        path := .segments ["base", ""] } },
    { rawPath := "/api/v1/users/../../../../admin" }, { exp := 0, allowedRoutes := ["/api/v1/users/*"] },
    by decide +kernel, by decide +kernel, by decide +kernel, by decide +kernel, by decide +kernel,
    by decide +kernel, by decide +kernel⟩

end Turnstile.Gateway
