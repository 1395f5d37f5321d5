import Turnstile.Proofs.Remote.Keyspace
import Turnstile.Proofs.Token.Fields
import Turnstile.Remote.Tokens
/-!
# Records in the keyspace

A key holds a record if the fields under it carry the record and its deadline is the second of the record's
expiry. Writing a record brings this about whatever the key held before (`holds_of_written`), if it can be
written at all, and commands on other keys, looks at the key and dropped keys leave it so until the deadline.
-/

namespace Turnstile.Remote

open Time TokenRecord

variable {k k' : Keyspace} {now : Instant} {name : String} {r : TokenRecord}

/-! ### Fields among fields -/

theorem lookup_snoc_self {l : List (String × String)} {name value : String} :
    (l.filter (·.1 != name) ++ [(name, value)]).lookup name = some value := by
  rw [List.lookup_append, Table.lookup_filter_self]
  simp

theorem lookup_snoc_of_ne {l : List (String × String)} {name value other : String} (h : other ≠ name) :
    (l.filter (·.1 != name) ++ [(name, value)]).lookup other = l.lookup other := by
  have hother : (other == name) = false := by simpa using h
  rw [List.lookup_append, Table.lookup_filter_ne l h]
  simp [List.lookup_cons, hother]

theorem lookup_mergeFields_of_notMem {new old : List (String × String)} {name : String}
    (h : name ∉ new.map (·.1)) : (Keyspace.mergeFields new old).lookup name = old.lookup name := by
  induction new generalizing old with
  | nil => rfl
  | cons f new ih =>
    rw [List.map_cons, List.mem_cons, not_or] at h
    rw [Keyspace.mergeFields, List.foldl_cons]
    exact (ih h.2).trans (lookup_snoc_of_ne h.1)

/-- Fields that have been written are found, whatever was there before. -/
theorem carries_mergeFields {new old : List (String × String)} (hnew : (new.map (·.1)).Nodup) :
    Carries (Keyspace.mergeFields new old) new := by
  induction new generalizing old with
  | nil => simp [Carries]
  | cons f new ih =>
    rw [List.map_cons, List.nodup_cons] at hnew
    intro g hg
    rcases List.mem_cons.1 hg with rfl | hg
    · exact (lookup_mergeFields_of_notMem hnew.1).trans lookup_snoc_self
    · exact ih hnew.2 g hg

theorem nodup_toFields (r : TokenRecord) : (r.toFields.map (·.1)).Nodup := by
  simp [toFields]

/-- The key that a command is about. -/
def Command.key? : Command → Option String
  | .readFields key | .writeFields key _ _ | .remove key | .count key _ => some key
  | .ping => none

/-! ### Keys that hold a record -/

namespace Keyspace

/-- The second of a record's expiry, from which on the server may drop it. -/
def deadlineOf (r : TokenRecord) : Instant := { secs := r.expiresAt.secs }

/-- A key holds the fields of a record, and lives as long as the record. -/
def Holds (k : Keyspace) (name : String) (r : TokenRecord) : Prop :=
  ∃ fields, k.get? name = some { content := .fields fields, deadline := some (deadlineOf r) } ∧
    Carries fields r.toFields

theorem Holds.congr (h : Holds k name r) (heq : k'.get? name = k.get? name) : Holds k' name r := by
  obtain ⟨fields, hget, hcarries⟩ := h
  exact ⟨fields, heq.trans hget, hcarries⟩

/-- A record that has been written before its deadline is held. -/
theorem holds_of_written (hahead : now < deadlineOf r)
    (h : k.execute now (.writeFields name r.toFields r.expiresAt.secs) = (.ok (), k')) : Holds k' name r := by
  have hput (old : List (String × String)) :
      Holds (k.put now name (.fields (mergeFields r.toFields old)) (deadlineOf r)) name r := by
    rw [put, if_neg (not_le.2 hahead)]
    exact ⟨_, Table.get?_insert_self _ _ _, carries_mergeFields (nodup_toFields r)⟩
  unfold execute at h
  rcases hslot : k.get? name with _ | ⟨_ | _, _⟩
  · simp only [hslot, Prod.mk.injEq] at h
    rw [← h.2]
    exact hput _
  · simp only [hslot, Prod.mk.injEq] at h
    rw [← h.2]
    exact hput _
  · simp [hslot] at h

/-! ### What leaves a key alone -/

theorem get?_put_of_ne {other : String} (content : Content) (deadline : Instant) (h : name ≠ other) :
    (k.put now other content deadline).get? name = k.get? name := by
  unfold put
  split
  · exact Table.get?_erase_of_ne k h
  · exact Table.get?_insert_of_ne k _ h

theorem get?_increment_of_ne {other : String} {n : Int} (h : name ≠ other)
    (hincrement : k.increment other = .ok (n, k')) : k'.get? name = k.get? name := by
  unfold increment at hincrement
  split at hincrement
  · cases hincrement
    exact Table.get?_insert_of_ne k _ h
  · split at hincrement
    · cases hincrement
      exact Table.get?_insert_of_ne k _ h
    · cases hincrement
  · cases hincrement

theorem get?_expireIn_of_ne {other : String} {ttl : Nat} (h : name ≠ other)
    (hexpire : k.expireIn now other ttl = .ok k') : k'.get? name = k.get? name := by
  unfold expireIn at hexpire
  split at hexpire
  · cases hexpire
  · split at hexpire
    · cases hexpire
      rfl
    · cases hexpire
      exact get?_put_of_ne _ _ h

theorem execute_readFields_snd (k : Keyspace) (now : Instant) (name : String) :
    (k.execute now (.readFields name)).2 = k := by
  simp only [execute]
  split <;> rfl

/-- A command changes no key but its own. -/
theorem get?_execute_of_ne (k : Keyspace) (now : Instant) (c : Command) (h : c.key? ≠ some name) :
    (k.execute now c).2.get? name = k.get? name := by
  cases c with
  | readFields key => rw [execute_readFields_snd]
  | writeFields key new deadline =>
    have hne : name ≠ key := fun hname => h (congrArg some hname.symm)
    simp only [execute]
    split
    · exact get?_put_of_ne _ _ hne
    · exact get?_put_of_ne _ _ hne
    · exact get?_put_of_ne _ _ hne
  | remove key => exact Table.get?_erase_of_ne k fun hname => h (congrArg some hname.symm)
  | count key ttl =>
    have hne : name ≠ key := fun hname => h (congrArg some hname.symm)
    simp only [execute]
    split
    · rfl
    · next hincrement =>
      have hcounted := get?_increment_of_ne hne hincrement
      split
      · split
        · exact hcounted
        · next hexpire => exact (get?_expireIn_of_ne hne hexpire).trans hcounted
      · exact hcounted
  | ping => rfl

theorem Holds.execute_of_ne (h : Holds k name r) {c : Command} (hc : c.key? ≠ some name) (now : Instant) :
    Holds (k.execute now c).2 name r :=
  h.congr (get?_execute_of_ne k now c hc)

theorem get?_lapse_of_ne {dropped : String} (h : name ≠ dropped) :
    (k.lapse now dropped).get? name = k.get? name := by
  unfold lapse
  split
  · exact Table.get?_erase_of_ne k h
  · rfl

theorem Holds.lapse (h : Holds k name r) (hahead : now < deadlineOf r) (dropped : String) :
    Holds (k.lapse now dropped) name r := by
  obtain ⟨fields, hget, hcarries⟩ := h
  exact ⟨fields, get?_lapse_of_lt hget hahead, hcarries⟩

end Keyspace

end Turnstile.Remote
