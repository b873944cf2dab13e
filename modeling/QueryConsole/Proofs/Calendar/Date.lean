import QueryConsole.Calendar.Date

namespace QueryConsole.Calendar

variable {year : Int} {month : Nat}

def daysInYear (year : Int) : Nat :=
  if isLeap year then 366 else 365

theorem isLeap_iff : isLeap year = true ↔ year % 4 = 0 ∧ (year % 100 ≠ 0 ∨ year % 400 = 0) := by
  simp [isLeap]

theorem daysBeforeYear_succ (year : Int) :
    daysBeforeYear (year + 1) = daysBeforeYear year + daysInYear year := by
  by_cases h : isLeap year = true
  · have hleap := isLeap_iff.mp h
    simp only [daysBeforeYear, daysInYear, if_pos h]
    omega
  · have hcommon := mt isLeap_iff.mpr h
    simp only [daysBeforeYear, daysInYear, if_neg h]
    omega

theorem daysBeforeYear_mono {a b : Int} (h : a ≤ b) : daysBeforeYear a ≤ daysBeforeYear b := by
  simp only [daysBeforeYear]
  omega

theorem daysBeforeYear_near (year : Int) :
    146097 * year - 400 < 400 * daysBeforeYear year ∧
      400 * daysBeforeYear year < 146097 * year + 700 := by
  simp only [daysBeforeYear]
  omega

theorem yearOfDay_bounds (day : Int) :
    daysBeforeYear (yearOfDay day) ≤ day ∧ day < daysBeforeYear (yearOfDay day + 1) := by
  have hbefore := daysBeforeYear_near (400 * day / 146097 - 1)
  have hafter := daysBeforeYear_near (400 * day / 146097 + 1 + 1)
  simp only [yearOfDay]
  split
  · next hless => exact ⟨by omega, by rwa [Int.sub_add_cancel]⟩
  · next hless =>
    split
    · next hmore => exact ⟨hmore, by omega⟩
    · next hmore => exact ⟨by omega, by omega⟩

theorem yearOfDay_eq {day : Int} (hfirst : daysBeforeYear year ≤ day)
    (hlast : day < daysBeforeYear (year + 1)) : yearOfDay day = year := by
  obtain ⟨hlower, hupper⟩ := yearOfDay_bounds day
  rcases Int.lt_trichotomy (yearOfDay day) year with hlt | heq | hgt
  · have := daysBeforeYear_mono (show yearOfDay day + 1 ≤ year by omega)
    omega
  · exact heq
  · have := daysBeforeYear_mono (show year + 1 ≤ yearOfDay day by omega)
    omega

theorem yearOfDay_mono {a b : Int} (h : a ≤ b) : yearOfDay a ≤ yearOfDay b := by
  obtain ⟨hlower, -⟩ := yearOfDay_bounds a
  obtain ⟨-, hupper⟩ := yearOfDay_bounds b
  refine Int.not_lt.mp fun hlt => ?_
  have := daysBeforeYear_mono (show yearOfDay b + 1 ≤ yearOfDay a by omega)
  omega

theorem daysBeforeMonth_succ (year : Int) (h : 1 ≤ month) :
    daysBeforeMonth year (month + 1) = daysBeforeMonth year month + daysInMonth year month := by
  obtain ⟨month, rfl⟩ := Nat.exists_eq_add_of_le' h
  simp [daysBeforeMonth, List.range_succ]

theorem daysBeforeMonth_thirteen (year : Int) : daysBeforeMonth year 13 = daysInYear year := by
  cases h : isLeap year <;> simp [daysBeforeMonth, List.range_succ, daysInMonth, daysInYear, h]

theorem daysBeforeMonth_mono (year : Int) {a b : Nat} (ha : 1 ≤ a) (h : a ≤ b) :
    daysBeforeMonth year a ≤ daysBeforeMonth year b := by
  induction h with
  | refl => exact Nat.le_refl _
  | step h ih =>
    rw [Nat.succ_eq_add_one, daysBeforeMonth_succ year (Nat.le_trans ha h)]
    exact Nat.le_trans ih (Nat.le_add_right _ _)

theorem exists_dayInMonths {days : Nat} (monthsLeft : Nat) (hmonth : 1 ≤ month)
    (hdays : daysBeforeMonth year month + days < daysBeforeMonth year (month + monthsLeft + 1)) :
    ∃ m d, dayInMonths year month days monthsLeft = (m, d) ∧ month ≤ m ∧ m ≤ month + monthsLeft ∧
      1 ≤ d ∧ d ≤ daysInMonth year m ∧
      daysBeforeMonth year m + d = daysBeforeMonth year month + days + 1 := by
  induction monthsLeft generalizing month days with
  | zero =>
    rw [Nat.add_zero, daysBeforeMonth_succ year hmonth] at hdays
    exact ⟨month, days + 1, rfl, by omega, by omega, by omega, by omega, by omega⟩
  | succ monthsLeft ih =>
    rw [dayInMonths]
    split
    · next hin => exact ⟨month, days + 1, rfl, by omega, by omega, by omega, by omega, by omega⟩
    · next hout =>
      have hsucc := daysBeforeMonth_succ year hmonth
      have hlast : month + 1 + monthsLeft + 1 = month + (monthsLeft + 1) + 1 := by omega
      have hlies : daysBeforeMonth year (month + 1) + (days - daysInMonth year month) <
          daysBeforeMonth year (month + 1 + monthsLeft + 1) := by
        rw [hlast]
        omega
      obtain ⟨m, d, heq, hfirst, hmost, hone, hd, hsum⟩ := ih (by omega) hlies
      exact ⟨m, d, heq, by omega, by omega, hone, hd, by omega⟩

namespace Date

variable {d : Date}

theorem Valid.dayOfYear (h : d.Valid) :
    daysBeforeMonth d.year d.month + d.day ≤ daysInYear d.year := by
  obtain ⟨hfirst, hlast, -, hday⟩ := h
  have hsucc := daysBeforeMonth_succ d.year hfirst
  have hyear := daysBeforeMonth_mono d.year (Nat.le_add_left 1 d.month)
    (Nat.add_le_add_right hlast 1)
  rw [daysBeforeMonth_thirteen] at hyear
  omega

theorem Valid.toDays_bounds (h : d.Valid) :
    daysBeforeYear d.year ≤ d.toDays + epochOffset ∧
      d.toDays + epochOffset < daysBeforeYear (d.year + 1) := by
  have hyear := h.dayOfYear
  have hday := h.2.2.1
  rw [daysBeforeYear_succ]
  simp only [toDays]
  omega

theorem exists_ofDays (days : Int) : ∃ d : Date, ofDays days = d ∧ d.Valid ∧ d.toDays = days := by
  let year := yearOfDay (days + epochOffset)
  let rest := (days + epochOffset - daysBeforeYear year).toNat
  have hrest : days + epochOffset = daysBeforeYear year + rest := by
    have hlower : daysBeforeYear year ≤ days + epochOffset := (yearOfDay_bounds _).1
    omega
  have hlies : daysBeforeMonth year 1 + rest < daysBeforeMonth year 13 := by
    have hupper : days + epochOffset < daysBeforeYear (year + 1) := (yearOfDay_bounds _).2
    have hone : daysBeforeMonth year 1 = 0 := rfl
    rw [daysBeforeYear_succ, ← daysBeforeMonth_thirteen] at hupper
    omega
  obtain ⟨m, d, heq, hfirst, hlast, hday, hlength, hsum⟩ :=
    exists_dayInMonths 11 (Nat.le_refl 1) hlies
  refine ⟨⟨year, m, d⟩, ?_, ⟨hfirst, hlast, hday, hlength⟩, ?_⟩
  · have hplace : dayInMonths (yearOfDay (days + epochOffset)) 1
        (days + epochOffset - daysBeforeYear (yearOfDay (days + epochOffset))).toNat 11 = (m, d) :=
      heq
    simp only [ofDays, hplace]
    rfl
  · have hone : daysBeforeMonth year 1 = 0 := rfl
    simp only [toDays]
    omega

theorem valid_ofDays (days : Int) : (ofDays days).Valid := by
  obtain ⟨d, hd, hvalid, -⟩ := exists_ofDays days
  exact hd ▸ hvalid

@[simp] theorem toDays_ofDays (days : Int) : (ofDays days).toDays = days := by
  obtain ⟨d, hd, -, hdays⟩ := exists_ofDays days
  exact hd ▸ hdays

theorem year_ofDays (days : Int) : (ofDays days).year = yearOfDay (days + epochOffset) := rfl

theorem Valid.eq_of_toDays_eq {d' : Date} (h : d.Valid) (h' : d'.Valid)
    (hdays : d.toDays = d'.toDays) : d = d' := by
  have hyear : d.year = d'.year := by
    have hlies := h.toDays_bounds
    have hlies' := h'.toDays_bounds
    rw [← yearOfDay_eq hlies.1 hlies.2, hdays, yearOfDay_eq hlies'.1 hlies'.2]
  obtain ⟨year, month, day⟩ := d
  obtain ⟨year', month', day'⟩ := d'
  cases hyear
  obtain ⟨hfirst, -, hone, hlength⟩ := h
  obtain ⟨hfirst', -, hone', hlength'⟩ := h'
  simp only [toDays] at *
  have hsucc := daysBeforeMonth_succ year hfirst
  have hsucc' := daysBeforeMonth_succ year hfirst'
  rcases Nat.lt_trichotomy month month' with hlt | rfl | hgt
  · have := daysBeforeMonth_mono year (by omega : 1 ≤ month + 1) hlt
    omega
  · have hday : day = day' := by omega
    rw [hday]
  · have := daysBeforeMonth_mono year (by omega : 1 ≤ month' + 1) hgt
    omega

theorem Valid.ofDays_toDays (h : d.Valid) : ofDays d.toDays = d :=
  (valid_ofDays d.toDays).eq_of_toDays_eq h (toDays_ofDays d.toDays)

end Date

end QueryConsole.Calendar
