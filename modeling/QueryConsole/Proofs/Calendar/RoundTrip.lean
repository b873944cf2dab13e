import QueryConsole.Proofs.Calendar.Literal
import QueryConsole.Statement.Compile

namespace QueryConsole

namespace Calendar

variable {t : Instant} {minutes : Int} {text : String} {zone : List Char}

theorem IsOffset.last (h : IsOffset minutes zone) :
    ∃ c, zone.getLast? = some c ∧ Text.isBlank c = false := by
  have htwo (n : Nat) : ∃ c, (two n).getLast? = some c ∧ Text.isBlank c = false := by
    have hnumeral := isNumeral_two n
    refine ⟨_, List.getLast?_eq_some_getLast hnumeral.ne_nil, ?_⟩
    exact isBlank_eq_false_of_isDigit (hnumeral.isDigit _ (List.getLast_mem _))
  cases h with
  | utc | lowerUtc => exact ⟨_, rfl, by decide⟩
  | @ahead hours minutes | @behind hours minutes =>
    obtain ⟨c, hc, hblank⟩ := htwo minutes
    exact ⟨c, by simp [List.getLast?_append, List.getLast?_cons, hc], hblank⟩

theorem IsRfc3339.given (h : IsRfc3339 t minutes text) : Text.given (some text) = some text := by
  obtain @⟨separator, fraction, zone, hyear, -, -, hzone⟩ := h
  obtain ⟨first, _, hfirst, hdigit⟩ :=
    (isNumeral_padded 4 (t.ahead minutes).date.year.toNat).exists_cons
  obtain ⟨last, hlast, hblank⟩ := hzone.last
  refine Text.given_eq_self (c := first) (d := last) ?_ ?_ (isBlank_eq_false_of_isDigit hdigit)
    hblank
  · rw [String.toList_ofList, Instant.dateChars, yearText, if_pos hyear, hfirst]
    rfl
  · simp [String.toList_ofList, List.getLast?_append, List.getLast?_cons, hlast]

theorem parseBound_rfc3339 (ht : t.Representable) (h : IsRfc3339 t minutes text) :
    parseBound (some text) = .ok (some t) := by
  rw [parseBound, h.given]
  simp only [parseInstant, readInstant_rfc3339 ht h]
  rfl

end Calendar

theorem compile_bounds_congr {start start' finish finish' : Option String}
    (hstart : Calendar.parseBound start = Calendar.parseBound start')
    (hfinish : Calendar.parseBound finish = Calendar.parseBound finish') (d : Dataset)
    (pattern : ReadPattern) (p : Parameters) (limits : Limits) :
    compile d pattern { p with start, finish } limits =
      compile d pattern { p with start := start', finish := finish' } limits := by
  have hrows : { p with start, finish }.rowFilter =
      { p with start := start', finish := finish' }.rowFilter := by
    simp only [Parameters.rowFilter, Calendar.Window.parse, hstart, hfinish]
  rw [compile, compile, hrows]
  cases pattern <;> rfl

open Calendar in
/-- An instant that some literal names has a year of the calendar.  It is read back from its own
text, to the second, and in full from any text that RFC 3339 has for it on a clock where its year
has four digits; there is one on every such clock that is less than a day away from UTC.  So the
clock that a bound is written by does not matter to a statement. -/
theorem readInstant_roundTrip {literal : String} {t : Instant}
    (h : readInstant literal = some t) :
    (leastYear ≤ t.date.year ∧ t.date.year ≤ greatestYear) ∧
    readInstant t.text = some t.wholeSecond ∧
    (∀ minutes : Int, minutes.natAbs ≤ 23 * 60 + 59 →
      0 ≤ (t.ahead minutes).date.year ∧ (t.ahead minutes).date.year ≤ 9999 →
      IsRfc3339 t minutes (t.rfc3339 minutes)) ∧
    (∀ minutes text, IsRfc3339 t minutes text → readInstant text = some t) ∧
    ∀ minutes text minutes' text', IsRfc3339 t minutes text → IsRfc3339 t minutes' text' →
      ∀ (d : Dataset) (pattern : ReadPattern) (p : Parameters) (limits : Limits),
        compile d pattern { p with start := some text } limits =
          compile d pattern { p with start := some text' } limits ∧
        compile d pattern { p with finish := some text } limits =
          compile d pattern { p with finish := some text' } limits := by
  have ht := representable_of_readInstant h
  refine ⟨ht.year, readInstant_text ht, fun minutes hminutes hyear =>
    t.isRfc3339_rfc3339 hminutes hyear, fun minutes text => readInstant_rfc3339 ht, ?_⟩
  intro minutes text minutes' text' htext htext' d pattern p limits
  have hbound : parseBound (some text) = parseBound (some text') := by
    rw [parseBound_rfc3339 ht htext, parseBound_rfc3339 ht htext']
  exact ⟨compile_bounds_congr hbound rfl d pattern p limits,
    compile_bounds_congr rfl hbound d pattern p limits⟩

open Calendar in
theorem readInstant_roundTrip_leapSecond :
    readInstant "2016-12-31T23:59:60.5Z" = some ⟨1483228799, 1500000000⟩ ∧
    readInstant "2016-12-31 23:59:60" = some ⟨1483228799, 1000000000⟩ ∧
    readInstant "2017-01-01T05:29:60.500000000+05:30" = some ⟨1483228799, 1500000000⟩ := by
  have h : readInstant "2016-12-31T23:59:60.5Z" = some ⟨1483228799, 1500000000⟩ := by
    decide +kernel
  have htext : Instant.text ⟨1483228799, 1500000000⟩ = "2016-12-31 23:59:60" := by
    decide +kernel
  have hrfc3339 : Instant.rfc3339 ⟨1483228799, 1500000000⟩ 330 =
      "2017-01-01T05:29:60.500000000+05:30" := by
    decide +kernel
  obtain ⟨-, hread, hwritten, hrfc, -⟩ := readInstant_roundTrip h
  have hclock := hwritten 330 (by decide) (by decide +kernel)
  rw [htext] at hread
  rw [hrfc3339] at hclock
  exact ⟨h, hread, hrfc 330 _ hclock⟩

end QueryConsole
