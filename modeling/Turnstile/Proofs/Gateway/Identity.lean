import Mathlib.Data.List.Basic
import Turnstile.Gateway.Proxy
import Turnstile.Jwt.Token
/-!
# Under which key the service sees a request

The gateway writes the verified key into a header of its own, in place of what the client sent under that
name. A key that cannot stand in a header is not written, and then nothing is taken out either: the service
sees what the client sent. So the service can rely on the name for exactly the keys that can be written
(`identity_sent_iff`), and a client whose signed key holds a control character can name itself
(`client_names_itself`).
-/

namespace Turnstile.Gateway

open Http

/-- Headers of single connections and the declared ones are left out, all others stay as they are. -/
theorem all_endToEnd (h : Headers) {name : String} (hname : name ∉ connectionHeaders) :
    (endToEnd h).all name = if name ∈ declaredHeaders h then [] else h.all name := by
  have hfilter := Headers.all_filter h
    (fun n => !(connectionHeaders ++ declaredHeaders h).contains n) name
  rw [endToEnd, hfilter]
  by_cases hdeclared : name ∈ declaredHeaders h
  · simp [hdeclared]
  · simp [hdeclared, hname]

theorem headers_of_isValue {c : Claims} (h : Headers) (hkey : isValue c.apiKey = true) :
    (Proxy.headers h c).all apiKeyHeader = [c.apiKey] := by
  rw [Proxy.headers, if_pos hkey]
  exact Headers.all_insert_self _ _ _

/-- Without a key that can be written, the client's own values go through. -/
theorem headers_of_not_isValue {c : Claims} (h : Headers) (hkey : isValue c.apiKey = false) :
    (Proxy.headers h c).all apiKeyHeader
      = if apiKeyHeader ∈ declaredHeaders h then [] else h.all apiKeyHeader := by
  have hhost : apiKeyHeader ≠ "host" := by decide
  have hconnection : apiKeyHeader ∉ connectionHeaders := by decide
  simp only [Proxy.headers, hkey, Bool.false_eq_true, if_false]
  rw [Headers.all_erase_of_ne _ hhost, all_endToEnd h hconnection]

theorem isValue_of_mem_all {h : Headers} (hvalues : ∀ x ∈ h, isValue x.2 = true) {name value : String}
    (hmem : value ∈ h.all name) : isValue value = true := by
  obtain ⟨x, hx, rfl⟩ := List.mem_map.1 hmem
  exact hvalues x (List.mem_filter.1 hx).1

/-- **The service sees the verified key and nothing else just if the key can be written in a header.**
Otherwise it sees under that name what the client sent, and nothing only if the client itself declared the
header to concern its connection. -/
theorem identity_sent_iff (p : Proxy) (h : Handover)
    (hvalues : ∀ x ∈ h.request.headers, isValue x.2 = true) :
    ((p.outgoing h).headers.all apiKeyHeader = [h.claims.apiKey] ↔ isValue h.claims.apiKey = true) ∧
      (isValue h.claims.apiKey = false →
        (p.outgoing h).headers.all apiKeyHeader
          = if apiKeyHeader ∈ declaredHeaders h.request.headers then []
            else h.request.headers.all apiKeyHeader) := by
  refine ⟨⟨?_, headers_of_isValue h.request.headers⟩, headers_of_not_isValue h.request.headers⟩
  intro hsent
  rw [← Bool.not_eq_false]
  intro hkey
  have hclient := headers_of_not_isValue h.request.headers hkey
  have hmem : h.claims.apiKey ∈ (Proxy.headers h.request.headers h.claims).all apiKeyHeader := by
    have hheaders : (Proxy.headers h.request.headers h.claims).all apiKeyHeader = [h.claims.apiKey] := hsent
    rw [hheaders]
    exact List.mem_singleton_self _
  rw [hclient] at hmem
  split at hmem
  · cases hmem
  · rw [isValue_of_mem_all hvalues hmem] at hkey
    cases hkey

/-- A client that sends two keys of its own, one of them declared to concern the connection only. -/
theorem identity_sent_of_two :
    ∃ (p : Proxy) (h : Handover),
      (∀ x ∈ h.request.headers, isValue x.2 = true) ∧ h.claims.apiKey = "key-123" ∧
      h.request.headers = [("x-gateway-api-key", "admin"), ("x-gateway-api-key", "root"),
        ("connection", "close, X-Gateway-Api-Key")] ∧
      (p.outgoing h).headers.all apiKeyHeader = ["key-123"] :=
  ⟨{ target := { scheme := "http", host := some (.domain "backend"), path := .segments [""] } },
    { request :=
        { uri := { rawPath := "/api/v1/orders" },
          headers := [("x-gateway-api-key", "admin"), ("x-gateway-api-key", "root"),
            ("connection", "close, X-Gateway-Api-Key")] },
      claims := { apiKey := "key-123", exp := 200 }, maxBodyBytes := 0 },
    by decide, rfl, rfl, (identity_sent_iff _ _ (by decide)).1.2 (by decide)⟩

/-- **A client names itself.** The token is signed with the gateway's key and verifies; its key ends in a
line break, which no header can hold, and the service is told that the client is `admin`. -/
theorem client_names_itself :
    ∃ (keys : Jwt.KeySet) (token : String) (p : Proxy) (h : Handover),
      keys.verify token = .ok h.claims ∧ h.claims.apiKey = "k\n" ∧
      Proxy.ofTarget "http://backend:9000" = .ok p ∧
      Request.ofParts? "GET" "/api/v1/orders" [("X-Gateway-Api-Key", "admin")] "" = some h.request ∧
      (p.outgoing h).headers.all apiKeyHeader = ["admin"] :=
  ⟨{ algorithm := some (.hmac .sha256), key := some (.secret [115]) },
    "eyJ0eXAiOiJKV1QiLCJhbGciOiJIUzI1NiJ9.eyJhcGlfa2V5Ijoia1xuIiwiZXhwIjoyMDB9." ++
      "4Twv4m4yNEce2oCP5yk9fWCONQUo74SZp5jBqm75gu4",
    { target :=
        { scheme := "http", host := some (.domain "backend"), port := some 9000, path := .segments [""] } },
    { request :=
        { uri := { rawPath := "/api/v1/orders" }, headers := [("x-gateway-api-key", "admin")] },
      claims := { apiKey := "k\n", exp := 200 }, maxBodyBytes := 0 },
    by decide +kernel, rfl, by decide +kernel, by decide +kernel, by decide +kernel⟩

end Turnstile.Gateway
