import QueryConsole.Proofs.Calendar.Literal

namespace QueryConsole.Calendar

structure IsFixed (width : Nat) (ds : List Char) (n : Nat) : Prop extends IsNumeral ds n where
  length : ds.length = width

/-- A day of the calendar and a time of that day, as `YYYY-MM-DD HH:MM:SS`. -/
inductive IsStoreLiteral : String → Prop
  | literal {years months days hours minutes seconds : List Char}
    {year month day hour minute second : Nat}
    (hyears : IsFixed 4 years year) (hmonths : IsFixed 2 months month) (hdays : IsFixed 2 days day)
    (hhours : IsFixed 2 hours hour) (hminutes : IsFixed 2 minutes minute)
    (hseconds : IsFixed 2 seconds second)
    (hdate : Date.Valid ⟨year, month, day⟩)
    (htime : hour ≤ 23 ∧ minute ≤ 59 ∧ second ≤ 59) :
    IsStoreLiteral (String.ofList ((years ++ '-' :: (months ++ '-' :: days)) ++
      ' ' :: (hours ++ ':' :: (minutes ++ ':' :: seconds))))

theorem IsStoreLiteral.length {literal : String} (h : IsStoreLiteral literal) :
    literal.length = 19 := by
  obtain ⟨hyears, hmonths, hdays, hhours, hminutes, hseconds, -, -⟩ := h
  rw [String.length_ofList]
  simp only [List.length_append, List.length_cons, hyears.length, hmonths.length, hdays.length,
    hhours.length, hminutes.length, hseconds.length]

theorem isFixed_two {n : Nat} (h : n < 100) : IsFixed 2 (two n) n :=
  ⟨isNumeral_two n, length_two h⟩

variable {t : Instant}

theorem isStoreLiteral_text (h : t.Representable) (hyear : 0 ≤ t.date.year ∧ t.date.year ≤ 9999)
    (hleap : ¬ t.InLeapSecond) : IsStoreLiteral t.text := by
  obtain ⟨hmonth, hday, hhour, hminute, hsecond⟩ := h.lt_hundred
  have hyears : IsFixed 4 (yearText t.date.year).toList t.date.year.toNat := by
    rw [yearText, if_pos hyear]
    exact ⟨isNumeral_padded 4 _, length_padded (by decide) (by omega)⟩
  have hdate : Date.Valid ⟨t.date.year.toNat, t.date.month, t.date.day⟩ := by
    rw [Int.toNat_of_nonneg hyear.1]
    exact t.valid_date
  have hclock : t.clockSecond ≤ 59 := by
    rcases h.clockSecond with ⟨-, hclock⟩ | ⟨hin, -⟩
    · omega
    · exact absurd hin hleap
  have hliteral := IsStoreLiteral.literal hyears (isFixed_two hmonth) (isFixed_two hday)
    (isFixed_two hhour) (isFixed_two hminute) (isFixed_two hsecond) hdate
    ⟨t.hour_le, t.minute_le, hclock⟩
  have htext := t.toList_text
  rw [Instant.dateChars, Instant.clockChars] at htext
  rwa [← htext, String.ofList_toList] at hliteral

theorem IsStoreLiteral.year (h : IsStoreLiteral t.text) :
    0 ≤ t.date.year ∧ t.date.year ≤ 9999 := by
  generalize htext : t.text = literal at h
  obtain @⟨years, months, days, _, _, _, year, _, _, _, _, _, hyears⟩ := h
  have hchars := t.toList_text
  rw [htext, String.toList_ofList, Instant.dateChars, List.append_assoc, List.append_assoc]
    at hchars
  have hread (rest : List Char) := takeFull_numeral hyears.toIsNumeral rest
  simp only [hyears.length] at hread
  by_contra hyear
  have hsigned := takeFull_signed hyear
    ('-' :: (two t.date.month ++ '-' :: two t.date.day) ++ ' ' :: t.clockChars)
  rw [← hchars, hread] at hsigned
  cases hsigned

theorem IsStoreLiteral.not_inLeapSecond (ht : t.Representable) (h : IsStoreLiteral t.text) :
    ¬ t.InLeapSecond := by
  generalize htext : t.text = literal at h
  obtain @⟨years, months, days, hours, minutes, seconds, _, _, _, _, _, second, hyears, hmonths,
    hdays, hhours, hminutes, hseconds, -, -, -, hlast⟩ := h
  have hchars := t.toList_text
  rw [htext, String.toList_ofList, Instant.clockChars] at hchars
  have hsplit (date hours minutes seconds : List Char) :
      date ++ ' ' :: (hours ++ ':' :: (minutes ++ ':' :: seconds)) =
        (date ++ ' ' :: (hours ++ ':' :: (minutes ++ [':']))) ++ seconds := by
    simp
  have hlength : seconds.length = (two t.clockSecond).length := by
    rw [hseconds.length, length_two ht.lt_hundred.2.2.2.2]
  rw [hsplit _ hours, hsplit _ (two t.hour)] at hchars
  have hsame : seconds = two t.clockSecond := List.append_inj_right' hchars hlength
  have hvalue : second = t.clockSecond := by
    rw [← hseconds.value, hsame, (isNumeral_two _).value]
  rcases ht.clockSecond with ⟨hplain, -⟩ | ⟨-, hclock, -⟩
  · exact hplain
  · omega

theorem isStoreLiteral_text_iff (h : t.Representable) :
    IsStoreLiteral t.text ↔
      (0 ≤ t.date.year ∧ t.date.year ≤ 9999) ∧ ¬ t.InLeapSecond :=
  ⟨fun hliteral => ⟨hliteral.year, hliteral.not_inLeapSecond h⟩,
    fun ⟨hyear, hleap⟩ => isStoreLiteral_text h hyear hleap⟩

end QueryConsole.Calendar
