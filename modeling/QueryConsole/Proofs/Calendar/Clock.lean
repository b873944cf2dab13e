import QueryConsole.Calendar.Literal
import QueryConsole.Proofs.Calendar.Date

namespace QueryConsole.Calendar

theorem daysInMonth_le (year : Int) (month : Nat) : daysInMonth year month ≤ 31 := by
  rw [daysInMonth.eq_def]
  split
  · split <;> decide
  · decide
  · decide
  · decide
  · decide
  · decide

theorem year_ofDays_near (days : Int) {d : Date} (hvalid : d.Valid)
    (hyear : 0 ≤ d.year ∧ d.year ≤ 9999) (hbefore : d.toDays - 1 ≤ days)
    (hafter : days ≤ d.toDays + 1) :
    -1 ≤ (Date.ofDays days).year ∧ (Date.ofDays days).year ≤ 10000 := by
  obtain ⟨hfirst, hlast⟩ := hvalid.toDays_bounds
  have hleast : 0 ≤ daysBeforeYear d.year := daysBeforeYear_mono hyear.1
  have hmost : daysBeforeYear (d.year + 1) ≤ 3652425 :=
    daysBeforeYear_mono (show d.year + 1 ≤ 10000 by omega)
  have hlower : yearOfDay (-1) = -1 := by decide
  have hupper : yearOfDay 3652425 = 10000 := by decide
  rw [Date.year_ofDays, ← hlower, ← hupper]
  exact ⟨yearOfDay_mono (by omega), yearOfDay_mono (by omega)⟩

namespace Instant

def InLeapSecond (t : Instant) : Prop :=
  nanosPerSecond ≤ t.nanos

instance (t : Instant) : Decidable t.InLeapSecond :=
  inferInstanceAs (Decidable (_ ≤ _))

/-- The instants that fields can name: the year is one of the calendar, and there is a leap second
only after second 59. -/
structure Representable (t : Instant) : Prop where
  year : leastYear ≤ t.date.year ∧ t.date.year ≤ greatestYear
  nanos : t.nanos < 2 * nanosPerSecond
  leap : t.InLeapSecond → t.second % 60 = 59

def wholeSecond (t : Instant) : Instant :=
  ⟨t.second, t.nanos - t.nanos % nanosPerSecond⟩

def ahead (t : Instant) (minutes : Int) : Instant :=
  ⟨t.second + 60 * minutes, t.nanos⟩

def fields (t : Instant) : Fields where
  year := t.date.year
  month := t.date.month
  day := t.date.day
  hour := t.hour
  minute := t.minute
  second := t.clockSecond
  nanos := t.nanos % nanosPerSecond

variable {t : Instant}

theorem valid_date (t : Instant) : t.date.Valid :=
  Date.valid_ofDays _

theorem toDays_date (t : Instant) : t.date.toDays = t.second / 86400 :=
  Date.toDays_ofDays _

theorem day_le (t : Instant) : t.date.day ≤ 31 :=
  Nat.le_trans t.valid_date.2.2.2 (daysInMonth_le _ _)

theorem secondOfDay_lt (t : Instant) : t.secondOfDay < 86400 := by
  simp only [secondOfDay, secondsPerDay]
  omega

theorem hour_le (t : Instant) : t.hour ≤ 23 := by
  have := t.secondOfDay_lt
  simp only [hour]
  omega

theorem minute_le (t : Instant) : t.minute ≤ 59 := by
  simp only [minute]
  omega

theorem secondOfDay_mod_sixty (t : Instant) : (t.secondOfDay % 60 : Nat) = t.second % 60 := by
  simp only [secondOfDay, secondsPerDay]
  omega

theorem Representable.clockSecond (h : t.Representable) :
    (¬ t.InLeapSecond ∧ t.clockSecond = t.secondOfDay % 60) ∨
      (t.InLeapSecond ∧ t.clockSecond = 60 ∧ t.secondOfDay % 60 = 59) := by
  have hnanos := h.nanos
  have hleap := h.leap
  have hmod := t.secondOfDay_mod_sixty
  simp only [Instant.clockSecond, InLeapSecond, nanosPerSecond] at *
  omega

theorem Representable.clockSecond_le (h : t.Representable) : t.clockSecond ≤ 60 := by
  have := h.clockSecond
  omega

theorem Representable.wholeSecond (h : t.Representable) : t.wholeSecond.Representable := by
  have hnanos := h.nanos
  refine ⟨h.year, ?_, fun hleap => h.leap ?_⟩
  · exact Nat.lt_of_le_of_lt (Nat.sub_le _ _) hnanos
  · exact Nat.le_trans hleap (Nat.sub_le _ _)

theorem Representable.ahead (h : t.Representable) {minutes : Int}
    (hyear : leastYear ≤ (t.ahead minutes).date.year ∧
      (t.ahead minutes).date.year ≤ greatestYear) : (t.ahead minutes).Representable := by
  refine ⟨hyear, h.nanos, fun hleap => ?_⟩
  have := h.leap hleap
  simp only [Instant.ahead]
  omega

theorem Representable.valid_fields (h : t.Representable) : t.fields.Valid :=
  ⟨h.year, t.valid_date, t.hour_le, t.minute_le, h.clockSecond_le⟩

theorem secondOfDay_eq (t : Instant) : (t.second : Int) =
    t.second / 86400 * 86400 + t.hour * 3600 + t.minute * 60 + (t.secondOfDay % 60 : Nat) := by
  simp only [hour, minute, secondOfDay, secondsPerDay]
  omega

theorem Representable.instant?_fields (h : t.Representable) (offset : Int) :
    t.fields.instant? offset = some ⟨t.second - offset, t.nanos⟩ := by
  have hdays : t.fields.date.toDays = t.second / 86400 := t.toDays_date
  have hsum := t.secondOfDay_eq
  rw [Fields.instant?, if_pos h.valid_fields, hdays, Option.some.injEq, mk.injEq]
  rcases h.clockSecond with ⟨hplain, hclock⟩ | ⟨hleap, hclock, hlast⟩
  · have hsecond : t.fields.second = t.secondOfDay % 60 := hclock
    rw [hsecond, if_neg (by omega)]
    constructor
    · simp only [fields, secondsPerDay]
      omega
    · exact Nat.mod_eq_of_lt (Nat.lt_of_not_le hplain)
  · have hsecond : t.fields.second = 60 := hclock
    have hnanos := h.nanos
    rw [hsecond, if_pos rfl]
    constructor
    · simp only [fields, secondsPerDay]
      omega
    · simp only [fields, InLeapSecond, nanosPerSecond] at *
      omega

end Instant

theorem Fields.representable_of_instant? {f : Fields} {offset : Int} {t : Instant}
    (h : f.instant? offset = some t) (hnanos : f.nanos < nanosPerSecond)
    (hminutes : offset % 60 = 0) (hday : -86400 < offset ∧ offset < 86400)
    (hyear : offset = 0 ∨ (0 ≤ f.year ∧ f.year ≤ 9999)) : t.Representable := by
  rw [Fields.instant?] at h
  split at h
  · next hvalid =>
    cases h
    obtain ⟨hrange, hdate, hhour, hminute, hsecond⟩ := hvalid
    simp only [secondsPerDay]
    refine ⟨?_, ?_, ?_⟩
    · simp only [Instant.date, secondsPerDay]
      rcases hyear with rfl | hyear
      · have hdays : (f.date.toDays * 86400 + f.hour * 3600 + f.minute * 60 +
            ((min f.second 59 : Nat) : Int) - 0) / 86400 = f.date.toDays := by
          omega
        rw [hdays, hdate.ofDays_toDays]
        exact hrange
      · have hnear := year_ofDays_near ((f.date.toDays * 86400 + f.hour * 3600 + f.minute * 60 +
          ((min f.second 59 : Nat) : Int) - offset) / 86400) hdate hyear (by omega) (by omega)
        simp only [leastYear, greatestYear]
        omega
    · simp only [nanosPerSecond] at *
      split <;> omega
    · intro hleap
      simp only [Instant.InLeapSecond, nanosPerSecond] at *
      split at hleap <;> omega
  · cases h

end QueryConsole.Calendar
