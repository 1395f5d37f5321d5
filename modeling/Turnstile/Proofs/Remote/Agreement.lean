import Turnstile.Proofs.Dialogue
import Turnstile.Proofs.Remote.Lifetime
import Turnstile.Proofs.Token.History
import Turnstile.Remote.History
/-!
# Two token stores that agree

A store that keeps its records on the server answers like one that keeps them in memory, as long as the server
gives records back as they were written. The two differ over lapsed records only, which the server may have
dropped already (`stores_agree`). What relates them is what the server has under a key for what memory holds
(`Mirrored`).
-/

namespace Turnstile.Remote

open Time TokenRecord Keyspace Dialogue
open TokenTable (Entry Request)

variable {α : Type} {stem key name : String} {s s' s'' : Site} {now : Instant} {a : α} {r : TokenRecord}
  {t : TokenTable} {o : Option TokenRecord} {history : List Entry}

/-! ### What the server does of its own accord -/

theorem Drifts.clock_le (h : Drifts s s') : s.clock ≤ s'.clock := by
  induction h with
  | stay => exact le_refl _
  | pass _ hlater ih => exact ih.trans hlater
  | lapse _ _ ih => exact ih

theorem Drifts.trans (h : Drifts s s') (h' : Drifts s' s'') : Drifts s s'' := by
  induction h' with
  | stay => exact h
  | pass _ hlater ih => exact ih.pass hlater
  | lapse _ name ih => exact ih.lapse name

/-- A key is left as it is, or it is dropped after its deadline. -/
theorem Drifts.get?_cases (h : Drifts s s') (name : String) :
    s'.keyspace.get? name = s.keyspace.get? name ∨
      s'.keyspace.get? name = none ∧ ∃ content deadline,
        s.keyspace.get? name = some { content, deadline := some deadline } ∧ deadline ≤ s'.clock := by
  induction h with
  | stay => exact Or.inl rfl
  | pass _ hlater ih =>
    rcases ih with heq | ⟨hnone, content, deadline, hget, hpassed⟩
    · exact Or.inl heq
    · exact Or.inr ⟨hnone, content, deadline, hget, hpassed.trans hlater⟩
  | @lapse s' _ dropped ih =>
    rcases get?_lapse_cases s'.keyspace s'.clock dropped name with
      hsame | ⟨hdropped, content, deadline, hget, hpassed⟩
    · rcases ih with heq | ⟨hnone, hbefore⟩
      · exact Or.inl (hsame.trans heq)
      · exact Or.inr ⟨hsame.trans hnone, hbefore⟩
    · rcases ih with heq | ⟨hnone, -⟩
      · exact Or.inr ⟨hdropped, content, deadline, heq ▸ hget, hpassed⟩
      · cases hnone.symm.trans hget

/-! ### Records that come back as they were -/

/-- A record that the server gives back as it was written: it expires with a whole second, in a year of four
digits. -/
structure Storable (r : TokenRecord) : Prop where
  limit : Text.IsInt64 r.rateLimit
  whole : r.expiresAt.nanos = 0
  year_nonneg : 0 ≤ Stamp.yearOf r.expiresAt
  year_le : Stamp.yearOf r.expiresAt ≤ 9999

theorem Storable.deadlineOf_eq (hr : Storable r) : deadlineOf r = r.expiresAt := by
  rw [deadlineOf, ← hr.whole]

theorem Storable.ofFields_eq (hr : Storable r) {fields : List (String × String)}
    (hcarries : Carries fields r.toFields) (hkey : r.apiKey ≠ "") : ofFields key fields = .ok r := by
  have hwhole : r.expiresAt.wholeSecond = r.expiresAt := by
    have hleap : r.expiresAt.inLeapSecond = false := by simp [Instant.inLeapSecond, hr.whole]
    simp [Instant.wholeSecond, hleap, ← hr.whole]
  rw [ofFields_of_carries hcarries hkey hr.limit hr.year_nonneg hr.year_le, hwhole]

/-- What the server has under a key for what memory holds: a lapsed record may be gone already. -/
inductive Mirrored (stem : String) (s : Site) (key : String) : Option TokenRecord → Prop where
  | absent (hnone : s.keyspace.get? (stem ++ key) = none) : Mirrored stem s key none
  | held {r : TokenRecord} (hr : Storable r) (hkey : r.apiKey = key) (h : Holds s.keyspace (stem ++ key) r) :
      Mirrored stem s key (some r)
  | dropped {r : TokenRecord} (hnone : s.keyspace.get? (stem ++ key) = none) (hlapsed : r.expiresAt ≤ s.clock) :
      Mirrored stem s key (some r)

namespace Mirrored

theorem congr (h : Mirrored stem s key o)
    (heq : s'.keyspace.get? (stem ++ key) = s.keyspace.get? (stem ++ key)) (hclock : s.clock ≤ s'.clock) :
    Mirrored stem s' key o := by
  cases h with
  | absent hnone => exact .absent (heq.trans hnone)
  | held hr hkey hholds => exact .held hr hkey (hholds.congr heq)
  | dropped hnone hlapsed => exact .dropped (heq.trans hnone) (hlapsed.trans hclock)

/-- It stays so while the server is left alone. -/
theorem drift (h : Mirrored stem s key o) (hdrift : Drifts s s') : Mirrored stem s' key o := by
  rcases hdrift.get?_cases (stem ++ key) with heq | ⟨hnone, content, deadline, hget, hpassed⟩
  · exact h.congr heq hdrift.clock_le
  · cases h with
    | absent => exact .absent hnone
    | held hr hkey hholds =>
      obtain ⟨fields, hfields, -⟩ := hholds
      cases hfields.symm.trans hget
      exact .dropped hnone (hr.deadlineOf_eq ▸ hpassed)
    | dropped _ hlapsed => exact .dropped hnone (hlapsed.trans hdrift.clock_le)

/-- A record that is written is there, unless it has lapsed by then. -/
theorem written (h : Mirrored stem s r.apiKey o) (hr : Storable r) :
    (s.keyspace.execute s.clock (.writeFields (stem ++ r.apiKey) r.toFields r.expiresAt.secs)).1 = .ok () ∧
      Mirrored stem { s with keyspace :=
          (s.keyspace.execute s.clock (.writeFields (stem ++ r.apiKey) r.toFields r.expiresAt.secs)).2 }
        r.apiKey (some r) := by
  obtain ⟨old, heq⟩ : ∃ old,
      s.keyspace.execute s.clock (.writeFields (stem ++ r.apiKey) r.toFields r.expiresAt.secs) = (.ok (),
        s.keyspace.put s.clock (stem ++ r.apiKey) (.fields (mergeFields r.toFields old)) (deadlineOf r)) := by
    cases h with
    | absent hnone => exact ⟨[], by simp [execute, hnone, deadlineOf]⟩
    | held _ _ hholds =>
      obtain ⟨fields, hget, -⟩ := hholds
      exact ⟨fields, by simp [execute, hget, deadlineOf]⟩
    | dropped hnone _ => exact ⟨[], by simp [execute, hnone, deadlineOf]⟩
  refine ⟨by rw [heq], ?_⟩
  rcases lt_or_ge s.clock (deadlineOf r) with hahead | hpassed
  · exact .held hr rfl (holds_of_written hahead (Prod.ext (by rw [heq]) rfl))
  · refine .dropped ?_ (hr.deadlineOf_eq ▸ hpassed)
    show Table.get? (execute _ _ _).2 _ = none
    rw [heq, put, if_pos hpassed, Table.get?_erase_self]

end Mirrored

/-! ### Operations and other keys -/

/-- A question that does not concern other keys than one. -/
def Query.IsAbout (name : String) : Query → Prop
  | .command c => c.key? = some name
  | .clock => True

/-- All that an operation asks is about one key. -/
abbrev AsksAbout (name : String) (d : Operation α) (record : List (Exchange Query.Answer)) : Prop :=
  d.Keeps (fun _ q => q.IsAbout name) (fun _ _ => True) record

theorem asksAbout_operation (stem : String) (request : Request) (record : List (Exchange Query.Answer)) :
    AsksAbout (stem ++ request.key) (operation stem request) record := by
  cases request with
  | fetch key =>
    simp only [operation, fetch]
    split
    · trivial
    · refine ⟨rfl, fun found => ?_⟩
      dsimp only
      split
      · trivial
      · trivial
      · split
        · trivial
        · refine ⟨trivial, fun now => ?_⟩
          dsimp only
          split
          · exact ⟨rfl, fun _ => trivial⟩
          · trivial
  | upsert r =>
    refine ⟨trivial, fun now => ?_⟩
    dsimp only
    split
    · trivial
    · refine ⟨rfl, fun written => ?_⟩
      dsimp only
      split <;> trivial
  | delete key =>
    simp only [operation, delete]
    split
    · trivial
    · refine ⟨rfl, fun removed => ?_⟩
      dsimp only
      split <;> trivial

/-- What an operation does to its key leaves other keys alone. -/
theorem Mirrored.serves_of_ne {d : Operation α} {record : List (Exchange Query.Answer)}
    (hmirrored : Mirrored stem s key o) (hserves : Serves d s a now s') (habout : AsksAbout name d record)
    (hne : name ≠ stem ++ key) : Mirrored stem s' key o := by
  induction hserves generalizing record with
  | done hdrift => exact hmirrored.drift hdrift
  | @command c next s s' s'' a now hdrift _ ih =>
    have hkey : c.key? ≠ some (stem ++ key) := fun h => hne (Option.some.inj (habout.1.symm.trans h))
    have hleft : Mirrored stem { s' with keyspace := (s'.keyspace.execute s'.clock c).2 } key o :=
      (hmirrored.drift hdrift).congr (get?_execute_of_ne s'.keyspace s'.clock c hkey) (le_refl _)
    exact ih hleft (habout.2 _)
  | clock hdrift _ ih => exact ih (hmirrored.drift hdrift) (habout.2 _)

/-! ### One request -/

/-- The answers of two stores to one request agree: they are the same, or one store reports a lapsed record that
the other has not got any more. -/
inductive Agrees : Entry → Entry → Prop where
  | same (e : Entry) : Agrees e e
  | lapsed (now : Instant) (key : String) :
      Agrees ⟨now, .fetch key, .error .expired⟩ ⟨now, .fetch key, .error .notFound⟩

theorem Drifts.get?_of_none (h : Drifts s s') (hnone : s.keyspace.get? name = none) :
    s'.keyspace.get? name = none := by
  rcases h.get?_cases name with heq | ⟨hgone, -⟩
  · exact heq.trans hnone
  · exact hgone

theorem serves_remove {answer : α}
    (hserves : Serves (.ask (.command (.remove name)) fun _ => .done answer) s a now s') :
    a = answer ∧ s'.keyspace.get? name = none := by
  cases hserves with
  | @command _ _ _ s₁ _ _ _ hdrift hserves =>
  cases hserves with
  | done hdrift' => exact ⟨rfl, hdrift'.get?_of_none (Table.get?_erase_self s₁.keyspace name)⟩

/-- The end of a look-up that has found a record: it removes an expired one. -/
theorem Mirrored.age_cases (hmirrored : Mirrored stem s key (some r)) {answer : Except StoreError TokenRecord}
    (hserves : Serves
      (.ask .clock fun now =>
        if r.isExpiredAt now then .ask (.command (.remove (stem ++ key))) fun _ => .done (.error .expired)
        else .done (.ok r))
      s answer now s') :
    (r.expiresAt ≤ now ∧ answer = .error .expired ∧ Mirrored stem s' key none) ∨
      (now < r.expiresAt ∧ answer = .ok r ∧ Mirrored stem s' key (some r)) := by
  cases hserves with
  | @clock _ _ s₁ _ _ _ hdrift hserves =>
  by_cases hexpired : r.expiresAt ≤ s₁.clock
  · simp only [isExpiredAt, hexpired, decide_true, if_true] at hserves
    obtain ⟨hanswer, hnone⟩ := serves_remove hserves
    exact Or.inl ⟨hexpired, hanswer, .absent hnone⟩
  · simp only [isExpiredAt, hexpired, decide_false, Bool.false_eq_true, if_false] at hserves
    cases hserves with
    | done hdrift' => exact Or.inr ⟨not_le.1 hexpired, rfl, (hmirrored.drift hdrift).drift hdrift'⟩

/-- What a look-up on the server does, seen from what memory holds. -/
theorem Mirrored.fetch_cases (hmirrored : Mirrored stem s key o) (hkey : key ≠ "")
    {answer : Except StoreError TokenRecord} (hserves : Serves (fetch stem key) s answer now s') :
    (o = none ∧ answer = .error .notFound ∧ Mirrored stem s' key none) ∨
      (∃ r, o = some r ∧ r.expiresAt ≤ now ∧ (answer = .error .expired ∨ answer = .error .notFound) ∧
        Mirrored stem s' key none) ∨
      ∃ r, o = some r ∧ now < r.expiresAt ∧ answer = .ok r ∧ Mirrored stem s' key (some r) := by
  have hempty : key.isEmpty = false := by simpa using hkey
  simp only [fetch, hempty, Bool.false_eq_true, if_false] at hserves
  cases hserves with
  | @command _ _ _ s₁ _ _ _ hdrift hserves =>
  have hread := hmirrored.drift hdrift
  have hnotFound (hnone : s₁.keyspace.get? (stem ++ key) = none) :
      answer = .error .notFound ∧ s₁.clock ≤ now ∧ Mirrored stem s' key none := by
    simp only [execute, hnone] at hserves
    cases hserves with
    | done hdrift' => exact ⟨rfl, hdrift'.clock_le, .absent (hdrift'.get?_of_none hnone)⟩
  cases hread with
  | absent hnone =>
    obtain ⟨hanswer, -, hleft⟩ := hnotFound hnone
    exact Or.inl ⟨rfl, hanswer, hleft⟩
  | dropped hnone hlapsed =>
    obtain ⟨hanswer, hclock, hleft⟩ := hnotFound hnone
    exact Or.inr (Or.inl ⟨_, rfl, hlapsed.trans hclock, Or.inr hanswer, hleft⟩)
  | @held r hr hapiKey hholds =>
    obtain ⟨fields, hget, hcarries⟩ := hholds
    obtain ⟨f, rest, rfl⟩ := List.exists_cons_of_ne_nil hcarries.ne_nil
    simp only [execute, hget, hr.ofFields_eq hcarries (hapiKey ▸ hkey)] at hserves
    rcases Mirrored.age_cases (.held hr hapiKey ⟨_, hget, hcarries⟩) hserves with
      ⟨hexpired, hanswer, hleft⟩ | ⟨halive, hanswer, hleft⟩
    · exact Or.inr (Or.inl ⟨r, rfl, hexpired, Or.inl hanswer, hleft⟩)
    · exact Or.inr (Or.inr ⟨r, rfl, halive, hanswer, hleft⟩)

/-- What a write on the server does: it is refused like in memory, or the record is there. -/
theorem Mirrored.upsert_cases (hmirrored : Mirrored stem s r.apiKey o) (hr : Storable r)
    {answer : Except StoreError Unit} (hserves : Serves (upsert stem r) s answer now s') :
    (∃ e, r.check now = .error e ∧ answer = .error e ∧ Mirrored stem s' r.apiKey o) ∨
      r.check now = .ok () ∧ answer = .ok () ∧ Mirrored stem s' r.apiKey (some r) := by
  cases hserves with
  | @clock _ _ s₁ _ _ _ hdrift hserves =>
  cases hcheck : r.check s₁.clock with
  | error e =>
    simp only [hcheck] at hserves
    cases hserves with
    | done hdrift' => exact Or.inl ⟨e, rfl, rfl, (hmirrored.drift hdrift).drift hdrift'⟩
  | ok _ =>
    simp only [hcheck] at hserves
    cases hserves with
    | @command _ _ _ s₂ _ _ _ hdrift' hserves =>
    obtain ⟨hreply, hwritten⟩ := ((hmirrored.drift hdrift).drift hdrift').written hr
    simp only [hreply] at hserves
    cases hserves with
    | done hdrift'' => exact Or.inr ⟨rfl, rfl, hwritten.drift hdrift''⟩

theorem serves_delete (hkey : key ≠ "") {answer : Except StoreError Unit}
    (hserves : Serves (delete stem key) s answer now s') : answer = .ok () ∧ Mirrored stem s' key none := by
  have hempty : key.isEmpty = false := by simpa using hkey
  simp only [delete, hempty, Bool.false_eq_true, if_false] at hserves
  cases hserves with
  | @command _ _ _ s₁ _ _ _ hdrift hserves =>
  cases hserves with
  | done hdrift' => exact ⟨rfl, .absent (hdrift'.get?_of_none (Table.get?_erase_self s₁.keyspace _))⟩

/-! ### Requests to both stores -/

/-- If something is to be written, it can be given back. -/
def Regular : Request → Prop
  | .upsert r => Storable r
  | .fetch _ | .delete _ => True

/-- The server mirrors what memory holds. -/
def Mirrors (stem : String) (s : Site) (t : TokenTable) : Prop :=
  ∀ key, key ≠ "" → Mirrored stem s key (t.get? key)

/-- A request without a key is refused by both stores in the same words. -/
theorem serves_of_key_empty (t : TokenTable) {request : Request} {answer : request.Answer}
    (hempty : request.key = "") (hserves : Serves (operation stem request) s answer now s') :
    (t.perform now request).1 = answer ∧ Drifts s s' := by
  cases request with
  | fetch k =>
    cases hempty
    cases hserves with
    | done hdrift => exact ⟨rfl, hdrift⟩
  | delete k =>
    cases hempty
    cases hserves with
    | done hdrift => exact ⟨rfl, hdrift⟩
  | upsert r =>
    have hcheck (now : Instant) : r.check now = .error (.invalid "empty api_key") := by
      simp [check, show r.apiKey = "" from hempty]
    cases hserves with
    | clock hdrift hserves =>
      simp only [hcheck] at hserves
      cases hserves with
      | done hdrift' =>
        refine ⟨?_, hdrift.trans hdrift'⟩
        show (t.upsert _ r).1 = _
        rw [TokenTable.upsert, hcheck]

theorem fetch_agrees (t : TokenTable) (hkey : key ≠ "") (hmirrored : Mirrored stem s key (t.get? key))
    {answer : Except StoreError TokenRecord} (hserves : Serves (fetch stem key) s answer now s') :
    Agrees ⟨now, .fetch key, (t.fetch now key).1⟩ ⟨now, .fetch key, answer⟩ ∧
      Mirrored stem s' key ((t.fetch now key).2.get? key) := by
  rcases hmirrored.fetch_cases hkey hserves with
    ⟨hget, rfl, hleft⟩ | ⟨r, hget, hexpired, hanswer, hleft⟩ | ⟨r, hget, halive, rfl, hleft⟩
  · rw [TokenTable.fetch_of_none hkey hget]
    exact ⟨.same _, hget ▸ hleft⟩
  · rw [TokenTable.fetch_of_expired hkey hget hexpired, Table.get?_erase_self]
    rcases hanswer with rfl | rfl
    · exact ⟨.same _, hleft⟩
    · exact ⟨.lapsed now key, hleft⟩
  · rw [TokenTable.fetch_of_lt hkey hget halive]
    exact ⟨.same _, hget ▸ hleft⟩

/-- The stores agree on a request for a key, and on the key after it. -/
theorem agrees_of_key (t : TokenTable) {request : Request} {answer : request.Answer}
    (hregular : Regular request) (hkey : request.key ≠ "")
    (hmirrored : Mirrored stem s request.key (t.get? request.key))
    (hserves : Serves (operation stem request) s answer now s') :
    Agrees ⟨now, request, (t.perform now request).1⟩ ⟨now, request, answer⟩ ∧
      Mirrored stem s' request.key ((t.perform now request).2.get? request.key) := by
  cases request with
  | fetch key => exact fetch_agrees t hkey hmirrored hserves
  | upsert r =>
    simp only [Request.key, TokenTable.perform] at hmirrored ⊢
    rcases hmirrored.upsert_cases hregular hserves with ⟨e, hcheck, rfl, hleft⟩ | ⟨hcheck, rfl, hleft⟩
    · rw [TokenTable.upsert, hcheck]
      exact ⟨.same _, hleft⟩
    · rw [TokenTable.upsert_of_check hcheck, Table.get?_insert_self]
      exact ⟨.same _, hleft⟩
  | delete key =>
    simp only [Request.key, TokenTable.perform] at hkey ⊢
    obtain ⟨rfl, hleft⟩ := serves_delete hkey hserves
    rw [TokenTable.delete_of_ne hkey, Table.get?_erase_self]
    exact ⟨.same _, hleft⟩

/-- What one request leaves is mirrored again, and the stores agree on it. -/
theorem Mirrors.turn (h : Mirrors stem s t) (hempty : t.get? "" = none) {request : Request}
    {answer : request.Answer} (hregular : Regular request)
    (hserves : Serves (operation stem request) s answer now s') :
    Agrees ⟨now, request, (t.perform now request).1⟩ ⟨now, request, answer⟩ ∧
      Mirrors stem s' (t.perform now request).2 := by
  by_cases hkey : request.key = ""
  · obtain ⟨rfl, hdrift⟩ := serves_of_key_empty t hkey hserves
    rw [Mirrors, TokenTable.perform_of_key_empty t now hkey]
    exact ⟨.same _, fun key hne => (h key hne).drift hdrift⟩
  · obtain ⟨hagrees, hown⟩ := agrees_of_key t hregular hkey (h _ hkey) hserves
    refine ⟨hagrees, fun key hne => ?_⟩
    by_cases heq : request.key = key
    · exact heq ▸ hown
    · rw [TokenTable.get?_perform_of_ne hempty heq]
      have hname : stem ++ request.key ≠ stem ++ key :=
        fun hname => heq ((String.append_right_inj stem).1 hname)
      exact (h key hne).serves_of_ne hserves (asksAbout_operation stem request []) hname

theorem Carried.mirrors (hcarried : Carried stem s history s') (hregular : ∀ e ∈ history, Regular e.request)
    (hfree : ∀ key, key ≠ "" → s.keyspace.get? (stem ++ key) = none) :
    List.Forall₂ Agrees (TokenTable.seen (history.map (·.turn))) history ∧
      Mirrors stem s' (TokenTable.after (history.map (·.turn))) := by
  induction hcarried with
  | start => exact ⟨.nil, fun key hkey => .absent (hfree key hkey)⟩
  | @turn history _ _ request answer now _ hserves ih =>
    obtain ⟨hpast, hmirrors⟩ := ih fun e he => hregular e (List.mem_cons_of_mem _ he)
    have hempty := TokenTable.get?_after_empty (history.map (·.turn))
    obtain ⟨hagrees, hleft⟩ := hmirrors.turn hempty (hregular _ List.mem_cons_self) hserves
    exact ⟨.cons hagrees hpast, hleft⟩

/-! ### The server always answers -/

theorem Serves.of_drifts {d : Operation α} (hdrift : Drifts s s') (h : Serves d s' a now s'') :
    Serves d s a now s'' := by
  cases h with
  | done hdrift' => exact .done (hdrift.trans hdrift')
  | command hdrift' h => exact .command (hdrift.trans hdrift') h
  | clock hdrift' h => exact .clock (hdrift.trans hdrift') h

/-- One way for an operation to go is that it takes no time. -/
theorem serves_of_run {d : Operation α} {k : Keyspace}
    (hrun : d.run (Keyspace.answer s.clock) s.keyspace = .ok (a, k)) :
    Serves d s a s.clock { s with keyspace := k } := by
  induction d generalizing s with
  | done b =>
    cases hrun
    exact .done .stay
  | ask q next ih =>
    cases q with
    | command c => exact .command .stay (ih _ hrun)
    | clock => exact .clock .stay (ih _ hrun)

theorem exists_serves (d : Operation α) (hlater : s.clock ≤ now) : ∃ a s', Serves d s a now s' := by
  cases hrun : d.run (Keyspace.answer now) s.keyspace with
  | error e => exact e.elim
  | ok result =>
    obtain ⟨a, k⟩ := result
    exact ⟨a, _, (serves_of_run (s := { s with clock := now }) hrun).of_drifts (Drifts.stay.pass hlater)⟩

/-- **The stores agree**: whatever has been asked of a store on a server that had none of its keys, a store in
memory that was asked the same at the same instants has given the same answers, but where it has reported a
lapsed record that the server had dropped. Any further request is answered, too. -/
theorem stores_agree (hfree : ∀ key, key ≠ "" → s.keyspace.get? (stem ++ key) = none)
    (hregular : ∀ e ∈ history, Regular e.request) (hcarried : Carried stem s history s') :
    List.Forall₂ Agrees (TokenTable.seen (history.map (·.turn))) history ∧
      ∀ (request : Request) (later : Instant), s'.clock ≤ later →
        ∃ answer s'', Carried stem s (⟨later, request, answer⟩ :: history) s'' := by
  refine ⟨(hcarried.mirrors hregular hfree).1, fun request later hlater => ?_⟩
  obtain ⟨answer, s'', hserves⟩ := exists_serves (operation stem request) hlater
  exact ⟨answer, s'', hcarried.turn hserves⟩

/-- A record is written, found, and dropped by the server in the second in which it expires. -/
def droppedHistory : List Entry :=
  [⟨{ secs := 20 }, .fetch "k", .error .notFound⟩, ⟨{ secs := 15 }, .fetch "k", .ok TokenTable.lapsed⟩,
    ⟨{ secs := 10 }, .upsert TokenTable.lapsed, .ok ()⟩]

def holdingLapsed : Keyspace :=
  (∅ : Keyspace).insert "token:k"
    { content := .fields (mergeFields TokenTable.lapsed.toFields []), deadline := some { secs := 20 } }

theorem carried_droppedHistory :
    Carried "token:" { clock := { secs := 10 } } droppedHistory { clock := { secs := 20 } } := by
  have hwritten : Serves (operation "token:" (.upsert TokenTable.lapsed)) { clock := { secs := 10 } } (.ok ())
      { secs := 10 } { clock := { secs := 10 }, keyspace := holdingLapsed } := serves_of_run rfl
  have hwrite : (∅ : Keyspace).execute { secs := 10 }
      (.writeFields "token:k" TokenTable.lapsed.toFields TokenTable.lapsed.expiresAt.secs)
        = (.ok (), holdingLapsed) := rfl
  have hholds : Holds holdingLapsed ("token:" ++ TokenTable.lapsed.apiKey) TokenTable.lapsed :=
    holds_of_written (by decide) hwrite
  have hfound : Serves (operation "token:" (.fetch "k")) { clock := { secs := 15 }, keyspace := holdingLapsed }
      (.ok TokenTable.lapsed) { secs := 15 } { clock := { secs := 15 }, keyspace := holdingLapsed } :=
    serves_of_run
      ((hholds.fetch_run (by decide) (by decide) (by decide) (by decide)).trans (if_neg (by decide)))
  have hgone : Serves (operation "token:" (.fetch "k")) { clock := { secs := 20 } } (.error .notFound)
      { secs := 20 } { clock := { secs := 20 } } := serves_of_run rfl
  have hlater : ({ secs := 10 } : Instant) ≤ { secs := 15 } ∧ ({ secs := 15 } : Instant) ≤ { secs := 20 } := by
    decide
  have hdropped : Drifts { clock := { secs := 15 }, keyspace := holdingLapsed } { clock := { secs := 20 } } :=
    (Drifts.stay.pass hlater.2).lapse "token:k"
  exact ((Carried.start.turn hwritten).turn (hfound.of_drifts (Drifts.stay.pass hlater.1))).turn
    (hgone.of_drifts hdropped)

/-- Memory reports what the server has dropped. -/
theorem droppedHistory_agrees :
    List.Forall₂ Agrees (TokenTable.seen (droppedHistory.map (·.turn))) droppedHistory := by
  have hstorable : Storable TokenTable.lapsed := ⟨by decide, rfl, by decide, by decide⟩
  refine (stores_agree (fun key _ => rfl) ?_ carried_droppedHistory).1
  simp [droppedHistory, Regular, hstorable]

end Turnstile.Remote
