import Turnstile.Proofs.Text.Decimal
import Turnstile.Rate.Window
/-!
# Windows and the names of counters

A window is as long as the whole seconds of its duration (`windowStart_le`, `lt_windowStart_add`), and the
name of a counter tells the key and the window it belongs to, whatever characters the key holds
(`counterKey_eq_iff`).
-/

namespace Turnstile.Rate

open Time

variable {window : Duration} {t u : Instant}

/-! ### Alignment -/

def windowSecs (window : Duration) : Int := min window.secs Text.maxInt64

theorem windowSecs_le (window : Duration) : windowSecs window ≤ window.secs := by
  unfold windowSecs
  omega

theorem windowSecs_pos (h : 1 ≤ window.secs) : 0 < windowSecs window := by
  unfold windowSecs Text.maxInt64
  omega

theorem windowStart_eq (h : 0 < windowSecs window) :
    windowStart t window = t.secs - t.secs.fmod (windowSecs window) := by
  have hne : windowSecs window ≠ 0 := by omega
  rw [← Int.fdiv_mul_self]
  exact if_neg hne

theorem windowStart_le (h : 0 < windowSecs window) : windowStart t window ≤ t.secs := by
  rw [windowStart_eq h]
  have := Int.fmod_nonneg_of_pos t.secs h
  omega

theorem lt_windowStart_add (h : 0 < windowSecs window) :
    t.secs < windowStart t window + windowSecs window := by
  rw [windowStart_eq h]
  have := Int.fmod_lt_of_pos t.secs h
  omega

/-- The start of a window is a multiple of its length. -/
theorem windowSecs_dvd_windowStart (h : 0 < windowSecs window) (t : Instant) :
    windowSecs window ∣ windowStart t window := by
  refine ⟨t.secs.fdiv (windowSecs window), ?_⟩
  have hsum := Int.mul_fdiv_add_fmod t.secs (windowSecs window)
  rw [windowStart_eq h]
  omega

/-- Instants of one window are less than its length apart. -/
theorem lt_add_of_windowStart_eq (h : 0 < windowSecs window)
    (heq : windowStart u window = windowStart t window) : u.secs < t.secs + windowSecs window := by
  have hu : u.secs < windowStart u window + windowSecs window := lt_windowStart_add h
  have ht : windowStart t window ≤ t.secs := windowStart_le h
  omega

/-! ### Names -/

theorem append_colon_inj {a b c d : List Char} (hc : ':' ∉ c) (hd : ':' ∉ d)
    (h : a ++ ':' :: c = b ++ ':' :: d) : a = b ∧ c = d := by
  rcases List.append_eq_append_iff.1 h with ⟨l, hb, hl⟩ | ⟨l, ha, hl⟩
  · cases l with
    | nil => simp_all
    | cons x rest =>
      rw [List.cons_append, List.cons.injEq] at hl
      exact absurd (hl.2 ▸ List.mem_append_right rest List.mem_cons_self) hc
  · cases l with
    | nil => simp_all
    | cons x rest =>
      rw [List.cons_append, List.cons.injEq] at hl
      exact absurd (hl.2 ▸ List.mem_append_right rest List.mem_cons_self) hd

/-- Two counters have one name just if they count one key in one window. -/
theorem counterKey_eq_iff {stem key key' : String} {window' : Duration} :
    counterKey stem key window t = counterKey stem key' window' u ↔
      key = key' ∧ windowStart t window = windowStart u window' := by
  constructor
  · intro h
    have hlist := congrArg String.toList h
    simp only [counterKey, String.toList_append, List.append_assoc, List.append_cancel_left_eq] at hlist
    obtain ⟨hkey, hstart⟩ :=
      append_colon_inj (Text.colon_notMem_intText _) (Text.colon_notMem_intText _) hlist
    exact ⟨String.toList_inj.1 hkey, Text.intText_injective (String.toList_inj.1 hstart)⟩
  · rintro ⟨rfl, hstart⟩
    rw [counterKey, counterKey, hstart]

/-! ### Lifetimes -/

/-- A counter lives for its window and at least a second more, unless that is too long for a duration. -/
theorem secs_le_counterTtl (window : Duration) :
    min (window.secs + 1) Text.maxNat64 ≤ (counterTtl window).secs := by
  unfold counterTtl Duration.saturatingAdd ttlPadding Duration.ofSecs
  dsimp only
  split
  · exact Nat.min_le_right _ _
  · dsimp only
    omega

theorem nanos_counterTtl_lt (window : Duration) : (counterTtl window).nanos < 1000000000 := by
  unfold counterTtl Duration.saturatingAdd
  dsimp only
  split
  · decide
  · exact Nat.mod_lt _ (by decide)

end Turnstile.Rate
