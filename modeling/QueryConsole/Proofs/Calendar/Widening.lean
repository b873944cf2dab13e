import QueryConsole.Proofs.Calendar.Literal
import QueryConsole.Proofs.Request.Entries

namespace QueryConsole.Calendar

namespace Instant

/-- By the second, then by the nanoseconds, so a leap second is after the second that holds it. -/
instance : LE Instant :=
  ⟨fun t u => t.second < u.second ∨ (t.second = u.second ∧ t.nanos ≤ u.nanos)⟩

instance (t u : Instant) : Decidable (t ≤ u) :=
  inferInstanceAs (Decidable (_ ∨ (_ ∧ _)))

theorem le_def {t u : Instant} :
    t ≤ u ↔ t.second < u.second ∨ (t.second = u.second ∧ t.nanos ≤ u.nanos) :=
  Iff.rfl

variable {t u v : Instant}

@[refl] theorem le_refl (t : Instant) : t ≤ t :=
  .inr ⟨rfl, Nat.le_refl _⟩

theorem le_trans (htu : t ≤ u) (huv : u ≤ v) : t ≤ v := by
  rw [le_def] at *
  omega

theorem wholeSecond_mono (h : t ≤ u) : t.wholeSecond ≤ u.wholeSecond := by
  simp only [le_def, wholeSecond, nanosPerSecond] at *
  omega

section EndOfMinute

variable (t)

theorem nanos_endOfMinute : t.endOfMinute.nanos = 0 := rfl

theorem div_endOfMinute : t.endOfMinute.second / 60 = t.second / 60 := by
  simp only [endOfMinute]
  omega

theorem date_endOfMinute : t.endOfMinute.date = t.date := by
  have hminutes := t.div_endOfMinute
  have hdays : t.endOfMinute.second / secondsPerDay = t.second / secondsPerDay := by
    simp only [secondsPerDay]
    omega
  rw [date, date, hdays]

theorem secondOfDay_endOfMinute :
    t.endOfMinute.secondOfDay = t.secondOfDay / 60 * 60 + 59 := by
  simp only [secondOfDay, endOfMinute, secondsPerDay]
  omega

theorem hour_endOfMinute : t.endOfMinute.hour = t.hour := by
  simp only [hour, secondOfDay_endOfMinute]
  omega

theorem minute_endOfMinute : t.endOfMinute.minute = t.minute := by
  simp only [minute, secondOfDay_endOfMinute]
  omega

theorem clockSecond_endOfMinute : t.endOfMinute.clockSecond = 59 := by
  rw [clockSecond, secondOfDay_endOfMinute, nanos_endOfMinute, Nat.zero_div]
  omega

theorem wholeSecond_endOfMinute : t.endOfMinute.wholeSecond = t.endOfMinute := rfl

theorem not_inLeapSecond_endOfMinute : ¬ t.endOfMinute.InLeapSecond := by
  rw [InLeapSecond, nanos_endOfMinute]
  decide

end EndOfMinute

theorem Representable.endOfMinute (h : t.Representable) : t.endOfMinute.Representable := by
  refine ⟨?_, ?_, fun hleap => absurd hleap t.not_inLeapSecond_endOfMinute⟩
  · rw [date_endOfMinute]
    exact h.year
  · rw [nanos_endOfMinute]
    decide

theorem Representable.wholeSecond_le_endOfMinute (h : t.Representable) :
    t.wholeSecond ≤ t.endOfMinute ↔ ¬ t.InLeapSecond := by
  have hnanos := h.nanos
  have hleap := h.leap
  simp only [le_def, Instant.wholeSecond, Instant.endOfMinute, InLeapSecond, nanosPerSecond] at *
  omega

end Instant

variable {raw : Option String} {t : Instant}

theorem representable_of_parseBound (h : parseBound raw = .ok (some t)) : t.Representable := by
  rw [parseBound] at h
  split at h
  · cases h
  · next literal hgiven =>
    rw [parseInstant] at h
    cases hread : readInstant literal with
    | none =>
      rw [hread] at h
      cases h
    | some u =>
      rw [hread] at h
      cases h
      exact representable_of_readInstant hread

namespace Window

variable {start finish : Option String} {w : Window} {t u : Instant}

theorem effectiveEnd_self (t : Instant) : effectiveEnd ⟨some t, some t⟩ = some t.endOfMinute :=
  if_pos rfl

theorem effectiveEnd_of_ne (h : t ≠ u) : effectiveEnd ⟨some t, some u⟩ = some u :=
  if_neg fun heq => h (Option.some.inj heq)

theorem wholeSecond_le_effectiveEnd {e : Instant} (ht : t.Representable) (hle : t ≤ u)
    (he : effectiveEnd ⟨some t, some u⟩ = some e) :
    t.wholeSecond ≤ e.wholeSecond ↔ ¬ (t = u ∧ t.InLeapSecond) := by
  by_cases heq : t = u
  · subst heq
    cases (effectiveEnd_self t).symm.trans he
    rw [Instant.wholeSecond_endOfMinute, ht.wholeSecond_le_endOfMinute]
    simp
  · cases (effectiveEnd_of_ne heq).symm.trans he
    simp [heq, Instant.wholeSecond_mono hle]

theorem representable_effectiveEnd (h : Window.parse start finish = .ok w)
    (ht : w.effectiveEnd = some t) : t.Representable := by
  obtain ⟨-, hfinish⟩ := parse_eq_ok.mp h
  rw [effectiveEnd] at ht
  split at ht
  · next u hu =>
    rw [hu] at hfinish
    have hrepresentable := representable_of_parseBound hfinish
    split at ht
    · cases ht
      exact hrepresentable.endOfMinute
    · cases ht
      exact hrepresentable
  · cases ht

end Window

end QueryConsole.Calendar
