import Turnstile.Proofs.Gateway.Identity
/-!
# Headers that stay behind

Some headers concern a single connection: eight of them always, and those that a `connection` header names. All
values of such a header are dropped on the way through the gateway, and all values of every other header are
kept in their order (`stripping_exact`), towards the service and back from it. What a `connection` header names
is said here apart from the program: by the stretches of its values between commas.
-/

namespace Turnstile.Gateway

open Http Text

/-! ### What concerns a single connection -/

/-- A stretch of a text between commas, or between a comma and an end. -/
structure IsElement (element text : List Char) : Prop where
  free : ',' ∉ element
  stands : ∃ before after, text = before ++ element ++ after ∧ (∀ c ∈ before.getLast?, c = ',') ∧
    (∀ c ∈ after.head?, c = ',')

/-- A header concerns the connection on which it came: it is one of those that always do, or a `connection`
value that can be read has its name for an element, in any case and between blanks. -/
inductive ConnectionScoped (h : Headers) (name : String) : Prop
  | always (hname : asciiLower name ∈ ["connection", "keep-alive", "proxy-authenticate", "proxy-authorization",
      "te", "trailer", "transfer-encoding", "upgrade"])
  | named (value : String) (element : List Char) (hvalue : value ∈ h.all "connection")
      (hplain : isPlain value = true) (helement : IsElement element value.toList)
      (hne : trimChars element ≠ [])
      (hname : eqIgnoreAsciiCase name (String.ofList (trimChars element)) = true)

theorem mem_parts_comma {value part : String} : part ∈ parts ',' value ↔ IsElement part.toList value.toList := by
  rw [parts, List.mem_map]
  constructor
  · rintro ⟨element, hmem, rfl⟩
    obtain ⟨hfree, before, after, heq, hbefore, hafter⟩ := mem_cut_iff.1 hmem
    rw [String.toList_ofList]
    refine ⟨?_, before, after, heq, ?_, ?_⟩
    · intro hcomma
      cases hfree ',' hcomma
    · intro c hc
      exact beq_iff_eq.1 (hbefore c hc)
    · intro c hc
      exact beq_iff_eq.1 (hafter c hc)
  · rintro ⟨hfree, before, after, heq, hbefore, hafter⟩
    refine ⟨part.toList, mem_cut_iff.2 ⟨?_, before, after, heq, ?_, ?_⟩, String.ofList_toList⟩
    · intro c hc
      rw [beq_eq_false_iff_ne]
      rintro rfl
      exact hfree hc
    · intro c hc
      exact beq_iff_eq.2 (hbefore c hc)
    · intro c hc
      exact beq_iff_eq.2 (hafter c hc)

theorem asciiLower_eq_iff {s t : String} : asciiLower s = asciiLower t ↔ eqIgnoreAsciiCase s t = true := by
  rw [asciiLower, asciiLower, eqIgnoreAsciiCase, beq_iff_eq, ← String.toList_inj, String.toList_ofList,
    String.toList_ofList]

theorem asciiLower_eq_empty_iff {s : List Char} : asciiLower (String.ofList s) = "" ↔ s = [] := by
  rw [asciiLower, ← String.toList_inj, String.toList_ofList, String.toList_ofList]
  exact List.map_eq_nil_iff

theorem mem_declaredHeaders {h : Headers} {name : String} :
    asciiLower name ∈ declaredHeaders h ↔ ∃ value element, value ∈ h.all "connection" ∧ isPlain value = true ∧
      IsElement element value.toList ∧ trimChars element ≠ [] ∧
      eqIgnoreAsciiCase name (String.ofList (trimChars element)) = true := by
  simp only [declaredHeaders, List.mem_filterMap, List.mem_flatMap, List.mem_filter]
  constructor
  · rintro ⟨part, ⟨value, ⟨hvalue, hplain⟩, hpart⟩, hname⟩
    split at hname
    · cases hname
    · next hne =>
      refine ⟨value, part.toList, hvalue, hplain, mem_parts_comma.1 hpart, ?_, ?_⟩
      · intro hblank
        rw [trim, hblank] at hne
        exact hne rfl
      · exact asciiLower_eq_iff.1 (Option.some.inj hname).symm
  · rintro ⟨value, element, hvalue, hplain, helement, hne, hname⟩
    refine ⟨String.ofList element, ⟨value, ⟨hvalue, hplain⟩, ?_⟩, ?_⟩
    · rw [mem_parts_comma, String.toList_ofList]
      exact helement
    · have hfull : ¬ (asciiLower (trim (String.ofList element))).isEmpty = true := by
        rw [String.isEmpty_iff, trim, String.toList_ofList, asciiLower_eq_empty_iff]
        exact hne
      rw [if_neg hfull, trim, String.toList_ofList, asciiLower_eq_iff.2 hname]

theorem mem_dropped_iff {h : Headers} {name : String} :
    asciiLower name ∈ connectionHeaders ++ declaredHeaders h ↔ ConnectionScoped h name := by
  rw [List.mem_append, mem_declaredHeaders]
  constructor
  · rintro (hname | ⟨value, element, hvalue, hplain, helement, hne, hname⟩)
    · exact .always hname
    · exact .named value element hvalue hplain helement hne hname
  · rintro (hname | ⟨value, element, hvalue, hplain, helement, hne, hname⟩)
    · exact Or.inl hname
    · exact Or.inr ⟨value, element, hvalue, hplain, helement, hne, hname⟩

/-! ### What is dropped and what is kept -/

/-- Of some headers, the values of a name have been dropped if it concerns the connection, and kept if not. -/
structure Strips (h h' : Headers) (name : String) : Prop where
  dropped : ConnectionScoped h name → h'.all (asciiLower name) = []
  kept : ¬ ConnectionScoped h name → h'.all (asciiLower name) = h.all (asciiLower name)

theorem strips_endToEnd (h : Headers) (name : String) : Strips h (endToEnd h) name := by
  have hall := Headers.all_filter h (fun n => !(connectionHeaders ++ declaredHeaders h).contains n)
    (asciiLower name)
  constructor
  · intro hscoped
    have hmem := List.contains_iff_mem.2 (mem_dropped_iff.2 hscoped)
    rw [endToEnd, hall, hmem, Bool.not_true, if_neg Bool.false_ne_true]
  · intro hscoped
    have hmem : (connectionHeaders ++ declaredHeaders h).contains (asciiLower name) = false := by
      rw [← Bool.not_eq_true, List.contains_iff_mem]
      exact mt mem_dropped_iff.1 hscoped
    rw [endToEnd, hall, hmem, Bool.not_false, if_pos rfl]

/-- The gateway replaces two headers of its own account, and leaves the others as they are. -/
theorem all_headers_of_ne (h : Headers) (c : Claims) {name : String} (hhost : name ≠ "host")
    (hkey : name ≠ apiKeyHeader) : (Proxy.headers h c).all name = (endToEnd h).all name := by
  unfold Proxy.headers
  dsimp only
  split
  · rw [Headers.all_insert_of_ne _ hkey, Headers.all_erase_of_ne _ hhost]
  · rw [Headers.all_erase_of_ne _ hhost]

/-- **Stripping is exact**: from any headers just the values of names are dropped that concern the connection,
and of all other names every value is kept, in order. What is sent to the service is what came in stripped this
way, but for the two headers that the gateway replaces; what is handed back is what the service answered,
stripped this way. -/
theorem stripping_exact :
    (∀ (h : Headers) (name : String), Strips h (endToEnd h) name) ∧
    (∀ (p : Proxy) (h : Handover) (name : String), asciiLower name ≠ "host" → asciiLower name ≠ apiKeyHeader →
      Strips h.request.headers (p.outgoing h).headers name) ∧
    ∀ (send : Outgoing → Except ServiceFault Response) (p : Proxy) (h : Handover) (answer : Response),
      send (p.outgoing h) = .ok answer →
        ∃ response, Proxy.forward send p h = .ok response ∧ response.status = answer.status ∧
          response.body = answer.body ∧ ∀ name, Strips answer.headers response.headers name := by
  refine ⟨strips_endToEnd, ?_, ?_⟩
  · intro p h name hhost hkey
    have hstrips := strips_endToEnd h.request.headers name
    have hsent : (p.outgoing h).headers.all (asciiLower name)
        = (endToEnd h.request.headers).all (asciiLower name) := all_headers_of_ne _ _ hhost hkey
    constructor
    · intro hscoped
      rw [hsent, hstrips.dropped hscoped]
    · intro hscoped
      rw [hsent, hstrips.kept hscoped]
  · intro send p h answer hanswer
    refine ⟨{ answer with headers := endToEnd answer.headers }, ?_, rfl, rfl, strips_endToEnd answer.headers⟩
    rw [Proxy.forward, hanswer, Proxy.conclude]

/-- Two `connection` headers, of which the second cannot be read. -/
def twoConnections : Headers :=
  [("x-kept", "a"), ("connection", "close,, X-Trace ,connection"), ("x-trace", "1"), ("connection", "é, x-kept"),
    ("x-kept", "b"), ("te", "trailers"), ("x-trace", "2")]

/-- A header goes because it is named, another because it always does, and a third one stays. -/
theorem twoConnections_stripped :
    ConnectionScoped twoConnections "X-TRACE" ∧ ConnectionScoped twoConnections "TE" ∧
      ¬ ConnectionScoped twoConnections "X-Kept" ∧ (endToEnd twoConnections).all "x-trace" = [] ∧
      (endToEnd twoConnections).all "te" = [] ∧ (endToEnd twoConnections).all "x-kept" = ["a", "b"] := by
  have hscoped : ConnectionScoped twoConnections "X-TRACE" := by
    refine .named "close,, X-Trace ,connection" " X-Trace ".toList (by decide +kernel) (by decide +kernel)
      ⟨by decide +kernel, "close,,".toList, ",connection".toList, by decide +kernel, ?_, ?_⟩ (by decide +kernel)
      (by decide +kernel)
    · intro c hc
      cases hc
      rfl
    · intro c hc
      cases hc
      rfl
  have halways : ConnectionScoped twoConnections "TE" := .always (by decide +kernel)
  have hkept : ¬ ConnectionScoped twoConnections "X-Kept" := mt mem_dropped_iff.2 (by decide +kernel)
  exact ⟨hscoped, halways, hkept, (stripping_exact.1 twoConnections "X-TRACE").dropped hscoped,
    (stripping_exact.1 twoConnections "TE").dropped halways,
    (stripping_exact.1 twoConnections "X-Kept").kept hkept⟩

end Turnstile.Gateway
