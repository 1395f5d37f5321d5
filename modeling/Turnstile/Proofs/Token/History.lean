import Mathlib.Data.Set.Card
import Turnstile.Proofs.Token.Callers
import Turnstile.Token.History
/-!
# A token store mirrors its history

What a store holds can be told from what its callers have seen, without a look inside: for each key the record
of the last write that was accepted, unless the key has been deleted or reported expired since. An entry says by
its answer what it does to a key (`get?_perform`), so the table after some turns is read off the history
(`get?_after`). If the clock never goes back, what has been reported expired stays so, and every answer follows
(`mirrors_history`).
-/

namespace Turnstile.TokenTable

open Time

variable {t : TokenTable} {now x : Instant} {key : String} {r : TokenRecord} {past : List Turn}
  {history since : List Entry} {e : Entry}

/-! ### What a history says about a key -/

/-- An entry by which a record is put in place for the key, or the key is deleted. -/
def Entry.Settles (key : String) : Entry → Prop
  | ⟨_, .upsert r, answer⟩ => r.apiKey = key ∧ answer = .ok ()
  | ⟨_, .delete k, _⟩ => k = key
  | ⟨_, .fetch _, _⟩ => False

/-- An entry by which the record of the key is reported expired. -/
def Entry.Reports (key : String) : Entry → Prop
  | ⟨_, .fetch k, answer⟩ => k = key ∧ answer = .error .expired
  | ⟨_, .upsert _, _⟩ | ⟨_, .delete _, _⟩ => False

/-- The last write for the key that was accepted is one of this record, these are the entries since, and the key
has not been deleted by them. -/
def Written (history : List Entry) (key : String) (r : TokenRecord) (since : List Entry) : Prop :=
  ∃ now earlier, history = since ++ ⟨now, .upsert r, .ok ()⟩ :: earlier ∧ r.apiKey = key ∧
    ∀ e ∈ since, ¬ e.Settles key

/-- The record was written last for the key, and the key is neither deleted nor reported expired since. -/
def Standing (history : List Entry) (key : String) (r : TokenRecord) : Prop :=
  ∃ since, Written history key r since ∧ ∀ e ∈ since, ¬ e.Reports key

/-- What the key holds after an entry, if the entry says anything about that. -/
def Entry.effect (key : String) : Entry → Option (Option TokenRecord)
  | ⟨_, .upsert r, .ok ()⟩ => if r.apiKey = key then some (some r) else none
  | ⟨_, .delete k, _⟩ => if k = key then some none else none
  | ⟨_, .fetch k, .error .expired⟩ => if k = key then some none else none
  | _ => none

theorem Entry.effect_eq_some_some_iff :
    e.effect key = some (some r) ↔ ∃ now, e = ⟨now, .upsert r, .ok ()⟩ ∧ r.apiKey = key := by
  obtain ⟨now, request, answer⟩ := e
  cases request with
  | fetch k => rcases answer with (_ | _ | _ | _) | _ <;> simp [effect]
  | upsert r' =>
    cases answer with
    | error e => simp [effect]
    | ok _ =>
      simp only [effect, Option.ite_none_right_eq_some, Option.some.injEq]
      constructor
      · rintro ⟨hkey, rfl⟩
        exact ⟨now, rfl, hkey⟩
      · rintro ⟨now', heq, hkey⟩
        cases heq
        exact ⟨hkey, rfl⟩
  | delete k => simp [effect]

theorem Entry.effect_eq_none_iff : e.effect key = none ↔ ¬ e.Settles key ∧ ¬ e.Reports key := by
  obtain ⟨now, request, answer⟩ := e
  cases request with
  | fetch k => rcases answer with (_ | _ | _ | _) | _ <;> simp [effect, Settles, Reports]
  | upsert r' => cases answer <;> simp [effect, Settles, Reports]
  | delete k => simp [effect, Settles, Reports]

theorem Entry.effect_of_ne {request : Request} (h : request.key ≠ key) (answer : request.Answer) :
    Entry.effect key ⟨now, request, answer⟩ = none := by
  rw [effect_eq_none_iff]
  cases request with
  | fetch k => exact ⟨id, fun hreports => h hreports.1⟩
  | upsert r => exact ⟨fun hsettles => h hsettles.1, id⟩
  | delete k => exact ⟨h, id⟩

/-- What the key holds after a history: what the last entry says that says anything. -/
def standing? (key : String) (history : List Entry) : Option TokenRecord :=
  (history.findSome? (Entry.effect key)).join

theorem standing?_eq_some_iff : standing? key history = some r ↔ Standing history key r := by
  simp only [standing?, Option.join_eq_some_iff, List.findSome?_eq_some_iff, Entry.effect_eq_some_some_iff,
    Entry.effect_eq_none_iff]
  constructor
  · rintro ⟨since, _, earlier, rfl, ⟨now, rfl, hkey⟩, hsince⟩
    exact ⟨since, ⟨now, earlier, rfl, hkey, fun e he => (hsince e he).1⟩, fun e he => (hsince e he).2⟩
  · rintro ⟨since, ⟨now, earlier, rfl, hkey, hsettles⟩, hreports⟩
    exact ⟨since, _, earlier, rfl, ⟨now, rfl, hkey⟩, fun e he => ⟨hsettles e he, hreports e he⟩⟩

theorem standing?_cons (e : Entry) (history : List Entry) :
    standing? key (e :: history) = (e.effect key).getD (standing? key history) := by
  cases h : e.effect key <;> simp [standing?, h]

/-! ### One request -/

/-- A request that is carried out is one that nobody interrupts. -/
theorem run_program (t : TokenTable) (now : Instant) (request : Request) :
    (program request).run (answerAt now) t = .ok (t.perform now request) := by
  cases request with
  | fetch key => exact run_fetch t now key
  | upsert r => exact run_upsert t now r
  | delete key => exact run_delete t now key

theorem fetch_eq_ok_iff (hkey : key ≠ "") :
    (t.fetch now key).1 = .ok r ↔ t.get? key = some r ∧ now < r.expiresAt := by
  rcases fetch_cases t now hkey with ⟨hget, heq⟩ | ⟨r', hget, hdead, heq⟩ | ⟨r', hget, halive, heq⟩
  · simp [hget, heq]
  · simp only [hget, heq, reduceCtorEq, Option.some.injEq, false_iff, not_and, not_lt]
    rintro rfl
    exact hdead
  · simp only [hget, heq, Except.ok.injEq, Option.some.injEq]
    constructor
    · rintro rfl
      exact ⟨rfl, halive⟩
    · exact fun h => h.1

theorem fetch_eq_expired_iff (hkey : key ≠ "") :
    (t.fetch now key).1 = .error .expired ↔ ∃ r, t.get? key = some r ∧ r.expiresAt ≤ now := by
  rcases fetch_cases t now hkey with ⟨hget, heq⟩ | ⟨r', hget, hdead, heq⟩ | ⟨r', hget, halive, heq⟩
  · simp [hget, heq]
  · simp [hget, heq, hdead]
  · simp [hget, heq, halive]

theorem fetch_eq_notFound_iff (hkey : key ≠ "") :
    (t.fetch now key).1 = .error .notFound ↔ t.get? key = none := by
  rcases fetch_cases t now hkey with ⟨hget, heq⟩ | ⟨r', hget, -, heq⟩ | ⟨r', hget, -, heq⟩
  · simp [hget, heq]
  · simp [hget, heq]
  · simp [hget, heq]

/-- No record is kept under the empty key. -/
theorem get?_perform_empty (t : TokenTable) (now : Instant) (request : Request) (h : t.get? "" = none) :
    (t.perform now request).2.get? "" = none := by
  cases request with
  | fetch key =>
    by_cases hkey : key = ""
    · subst hkey
      exact h
    · show (t.fetch now key).2.get? "" = none
      rcases fetch_cases t now hkey with ⟨-, heq⟩ | ⟨r, -, -, heq⟩ | ⟨r, -, -, heq⟩
      · rwa [heq]
      · rw [heq, Table.get?_erase_of_ne _ (Ne.symm hkey)]
        exact h
      · rwa [heq]
  | upsert r =>
    show (t.upsert now r).2.get? "" = none
    by_cases hcheck : r.check now = .ok ()
    · rw [upsert_of_check hcheck, Table.get?_insert_of_ne _ _ (Ne.symm (TokenRecord.apiKey_ne_of_check hcheck))]
      exact h
    · rwa [upsert_of_check_ne hcheck]
  | delete key =>
    by_cases hkey : key = ""
    · subst hkey
      exact h
    · show (t.delete key).2.get? "" = none
      rw [delete_of_ne hkey, Table.get?_erase_of_ne _ (Ne.symm hkey)]
      exact h

/-- What a request does to a key can be told from its answer. -/
theorem get?_perform (t : TokenTable) (now : Instant) (request : Request) (hempty : t.get? "" = none)
    (key : String) :
    (t.perform now request).2.get? key
      = (Entry.effect key ⟨now, request, (t.perform now request).1⟩).getD (t.get? key) := by
  cases request with
  | fetch k =>
    simp only [perform]
    by_cases hk : k = ""
    · subst hk
      rfl
    · rcases fetch_cases t now hk with ⟨-, heq⟩ | ⟨r, -, -, heq⟩ | ⟨r, -, -, heq⟩
      · rw [heq]
        rfl
      · rw [heq]
        by_cases hkey : k = key
        · subst hkey
          simp [Entry.effect]
        · simp [Entry.effect, hkey, Table.get?_erase_of_ne _ (Ne.symm hkey)]
      · rw [heq]
        rfl
  | upsert r =>
    simp only [perform]
    by_cases hcheck : r.check now = .ok ()
    · rw [upsert_of_check hcheck]
      by_cases hkey : r.apiKey = key
      · subst hkey
        simp [Entry.effect]
      · simp [Entry.effect, hkey, Table.get?_insert_of_ne _ _ (Ne.symm hkey)]
    · rw [upsert_of_check_ne hcheck]
      cases hanswer : (t.upsert now r).1 with
      | error e => rfl
      | ok _ => exact absurd (upsert_eq_ok_iff.1 hanswer) hcheck
  | delete k =>
    simp only [perform]
    by_cases hk : k = ""
    · subst hk
      by_cases hkey : "" = key
      · subst hkey
        simpa [Entry.effect, delete_empty] using hempty
      · simp [Entry.effect, hkey, delete_empty]
    · rw [delete_of_ne hk]
      by_cases hkey : k = key
      · subst hkey
        simp [Entry.effect]
      · simp [Entry.effect, hkey, Table.get?_erase_of_ne _ (Ne.symm hkey)]

/-- A request changes nothing for other keys. -/
theorem get?_perform_of_ne {request : Request} (hempty : t.get? "" = none) (h : request.key ≠ key) :
    (t.perform now request).2.get? key = t.get? key := by
  rw [get?_perform t now request hempty, Entry.effect_of_ne h, Option.getD_none]

/-! ### Many requests -/

theorem get?_after_empty (past : List Turn) : (after past).get? "" = none := by
  induction past with
  | nil => rfl
  | cons x past ih => exact get?_perform_empty _ x.now x.request ih

/-- What the store holds under a key is read off the history. -/
theorem get?_after (past : List Turn) (key : String) : (after past).get? key = standing? key (seen past) := by
  induction past with
  | nil => rfl
  | cons x past ih =>
    rw [after, seen, standing?_cons, get?_perform _ x.now x.request (get?_after_empty past), ih]

theorem get?_after_eq_some_iff : (after past).get? key = some r ↔ Standing (seen past) key r := by
  rw [get?_after, standing?_eq_some_iff]

/-- Readings of a clock that never goes back, the latest first. -/
def Chronological (readings : List Instant) : Prop := readings.Pairwise fun later earlier => earlier ≤ later

instance (readings : List Instant) : Decidable (Chronological readings) :=
  inferInstanceAs (Decidable (readings.Pairwise fun later earlier => earlier ≤ later))

/-- Who reports a record expired has looked it up, and found an expired one. -/
theorem expired_of_reports {request : Request}
    (h : Entry.Reports key ⟨now, request, (t.perform now request).1⟩) :
    request = .fetch key ∧ (t.perform now request).2.get? key = none ∧
      ∃ r, t.get? key = some r ∧ r.expiresAt ≤ now := by
  cases request with
  | upsert r => exact h.elim
  | delete k => exact h.elim
  | fetch k =>
    obtain ⟨rfl, hanswer⟩ := h
    change (t.fetch now k).1 = .error .expired at hanswer
    show _ ∧ (t.fetch now k).2.get? k = none ∧ _
    have hkey : k ≠ "" := by
      rintro rfl
      cases hanswer
    rcases fetch_cases t now hkey with ⟨-, heq⟩ | ⟨r, hget, hdead, heq⟩ | ⟨r, -, -, heq⟩
    · cases (congrArg (·.1) heq).symm.trans hanswer
    · exact ⟨rfl, by rw [heq, Table.get?_erase_self], r, hget, hdead⟩
    · cases (congrArg (·.1) heq).symm.trans hanswer

/-- What has been written last and not been deleted is still held, or it has expired. -/
theorem held_or_expired (hclock : Chronological (now :: past.map (·.now)))
    (h : Written (seen past) key r since) :
    (after past).get? key = some r ∨ ((after past).get? key = none ∧ r.expiresAt ≤ now) := by
  induction past generalizing now since with
  | nil =>
    obtain ⟨_, _, heq, -⟩ := h
    simp [seen] at heq
  | cons x past ih =>
    have hx : x.now ≤ now := (List.pairwise_cons.1 hclock).1 x.now (by simp)
    have hpast : Chronological (x.now :: past.map (·.now)) := (List.pairwise_cons.1 hclock).2
    obtain ⟨written, earlier, heq, hkey, hsince⟩ := h
    cases since with
    | nil =>
      -- The write is the latest entry.
      exact Or.inl (get?_after_eq_some_iff.2 ⟨[], ⟨written, earlier, heq, hkey, hsince⟩, by simp⟩)
    | cons e since =>
      simp only [seen, List.cons_append, List.cons.injEq] at heq
      obtain ⟨rfl, heq⟩ := heq
      have hbefore := ih hpast ⟨written, earlier, heq, hkey, fun e he => hsince e (List.mem_cons_of_mem _ he)⟩
      by_cases hreports : Entry.Reports key ⟨x.now, x.request, ((after past).perform x.now x.request).1⟩
      · obtain ⟨-, hnone, r', hget, hdead⟩ := expired_of_reports hreports
        refine Or.inr ⟨hnone, ?_⟩
        rcases hbefore with hheld | ⟨-, hexpired⟩
        · cases hget.symm.trans hheld
          exact hdead.trans hx
        · exact hexpired.trans hx
      · have hget := get?_perform (after past) x.now x.request (get?_after_empty past) key
        rw [Entry.effect_eq_none_iff.2 ⟨hsince _ List.mem_cons_self, hreports⟩] at hget
        rw [after, hget]
        rcases hbefore with hheld | ⟨hnone, hexpired⟩
        · exact Or.inl hheld
        · exact Or.inr ⟨hnone, hexpired.trans hx⟩

/-- A write that has been accepted is one of a record that passes its check. -/
theorem check_of_mem_seen (h : ⟨x, .upsert r, .ok ()⟩ ∈ seen past) : r.check x = .ok () := by
  induction past with
  | nil => cases h
  | cons y past ih =>
    rcases List.mem_cons.1 h with heq | hmem
    · obtain ⟨now, request⟩ := y
      simp only [Entry.mk.injEq] at heq
      obtain ⟨rfl, rfl, hanswer⟩ := heq
      exact upsert_eq_ok_iff.1 (eq_of_heq hanswer).symm
    · exact ih hmem

theorem get?_after_kept (h : (after past).get? key = some r) :
    r.apiKey = key ∧ r.apiKey ≠ "" ∧ 0 < r.rateLimit := by
  obtain ⟨since, ⟨x, earlier, heq, hkey, -⟩, -⟩ := get?_after_eq_some_iff.1 h
  have hmem : ⟨x, .upsert r, .ok ()⟩ ∈ seen past := by simp [heq]
  have hcheck : r.check x = .ok () := check_of_mem_seen hmem
  exact ⟨hkey, TokenRecord.apiKey_ne_of_check hcheck, TokenRecord.rateLimit_pos_of_check hcheck⟩

theorem encard_standing (past : List Turn) :
    {key | ∃ r, Standing (seen past) key r}.encard = (after past).size := by
  have hset : {key | ∃ r, Standing (seen past) key r} = ↑((after past).entries.map (·.1)).toFinset := by
    ext key
    simp [← get?_after_eq_some_iff, Table.get?_eq_some_iff]
  rw [hset, Set.encard_coe_eq_coe_finsetCard, List.toFinset_card_of_nodup (after past).nodup, List.length_map]
  rfl

/-! ### The mirror -/

/-- What a store shows at an instant if it mirrors a history. -/
structure Mirrors (history : List Entry) (now : Instant) (t : TokenTable) : Prop where
  /-- A look-up finds what has been written last and not deleted, as long as it is alive. -/
  found (key : String) (r : TokenRecord) (hkey : key ≠ "") :
    (t.fetch now key).1 = .ok r ↔ (∃ since, Written history key r since) ∧ now < r.expiresAt
  /-- If it has lapsed, a look-up says so, the first time. -/
  expired (key : String) (hkey : key ≠ "") :
    (t.fetch now key).1 = .error .expired ↔ ∃ r, Standing history key r ∧ r.expiresAt ≤ now
  /-- Otherwise there is nothing to be found. -/
  notFound (key : String) (hkey : key ≠ "") :
    (t.fetch now key).1 = .error .notFound ↔ ¬ ∃ r, Standing history key r
  refused (r : TokenRecord) (h : (t.upsert now r).1 ≠ .ok ()) : (t.upsert now r).2 = t
  nameless (request : Request) (h : request.key = "") : (t.perform now request).2 = t
  elsewhere (request : Request) (key : String) (h : request.key ≠ key) :
    (t.perform now request).2.get? key = t.get? key
  kept (e : String × TokenRecord) (h : e ∈ t.entries) : e.2.apiKey = e.1 ∧ e.1 ≠ "" ∧ 0 < e.2.rateLimit
  size : {key | ∃ r, Standing history key r}.encard = t.size

theorem perform_of_key_empty (t : TokenTable) (now : Instant) {request : Request} (h : request.key = "") :
    (t.perform now request).2 = t := by
  cases request with
  | fetch k =>
    cases h
    rfl
  | upsert r =>
    refine upsert_of_check_ne fun hcheck => ?_
    exact TokenRecord.apiKey_ne_of_check hcheck h
  | delete k =>
    cases h
    rfl

/-- **A token store mirrors its history**: under a clock that never goes back, what a store that began empty
answers, holds and counts is what its callers' requests and the answers to them say. -/
theorem mirrors_history (past : List Turn) (now : Instant) (hclock : Chronological (now :: past.map (·.now))) :
    Mirrors (seen past) now (after past) where
  found key r hkey := by
    rw [fetch_eq_ok_iff hkey]
    refine and_congr_left fun halive => ⟨fun hget => ?_, fun ⟨since, hwritten⟩ => ?_⟩
    · obtain ⟨since, hwritten, -⟩ := get?_after_eq_some_iff.1 hget
      exact ⟨since, hwritten⟩
    · rcases held_or_expired hclock hwritten with hget | ⟨-, hexpired⟩
      · exact hget
      · exact absurd halive (not_lt.2 hexpired)
  expired key hkey := by simp only [fetch_eq_expired_iff hkey, get?_after_eq_some_iff]
  notFound key hkey := by
    simp only [fetch_eq_notFound_iff hkey, ← get?_after_eq_some_iff, Option.eq_none_iff_forall_ne_some,
      not_exists, ne_eq]
  refused r h := upsert_of_check_ne fun hcheck => h (upsert_eq_ok_iff.2 hcheck)
  nameless request h := perform_of_key_empty _ now h
  elsewhere request key h := get?_perform_of_ne (get?_after_empty past) h
  kept e h := by
    obtain ⟨hkey, hne, hlimit⟩ := get?_after_kept ((Table.get?_eq_some_iff _).2 h)
    exact ⟨hkey, hkey ▸ hne, hlimit⟩
  size := encard_standing past

/-- A record is found, has lapsed when it is looked up twice more, and is refused when it is written again. -/
def lapsingTurns : List Turn :=
  [⟨{ secs := 21 }, .upsert lapsed⟩, ⟨{ secs := 20 }, .fetch "k"⟩, ⟨{ secs := 20 }, .fetch "k"⟩,
    ⟨{ secs := 19 }, .fetch "k"⟩, ⟨{ secs := 10 }, .upsert lapsed⟩]

/-- It is reported expired once, and written again with a later expiry it is found again. -/
theorem lapsing_mirrored :
    Mirrors (seen (⟨{ secs := 22 }, .upsert refreshed⟩ :: lapsingTurns)) { secs := 22 }
      (after (⟨{ secs := 22 }, .upsert refreshed⟩ :: lapsingTurns)) :=
  mirrors_history _ _ (by decide)

end Turnstile.TokenTable
