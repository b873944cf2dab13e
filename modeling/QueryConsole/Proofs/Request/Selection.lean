import QueryConsole.Proofs.Request.RangeBounds
import QueryConsole.Proofs.Request.ValueFilters

/-! What the parameters of a request select, each said of its text alone: the bounds of the window,
the search term, and the entries of both payloads. -/

namespace QueryConsole

open Calendar (Instant)

abbrev IsTime : Option String → Option Instant → Prop :=
  IsGiven fun s t => Calendar.readInstant s = some t

abbrev IsCount : Option String → Option UInt64 → Prop :=
  IsGiven fun s n => IsUnsigned n s

/-- The last instant of a window: second 59 of the minute if both bounds are one instant. -/
inductive LastInstant (start : Option Instant) : Option Instant → Option Instant → Prop
  | unbounded : LastInstant start none none
  | bound {t : Instant} (h : start ≠ some t) : LastInstant start (some t) (some t)
  | widened {t last : Instant} (h : start = some t) (hminute : last.second / 60 = t.second / 60)
    (hsecond : last.second % 60 = 59) (hnanos : last.nanos = 0) :
    LastInstant start (some t) (some last)

structure Selection where
  start : Option Instant
  last : Option Instant
  search : Option String
  filters : ValueFilters
  ranges : RangeFilters

structure Parameters.Selects (p : Parameters) (σ : Selection) : Prop where
  start : IsTime p.start σ.start
  last : ∃ finish, IsTime p.finish finish ∧ LastInstant σ.start finish σ.last
  search : σ.search = Text.given p.search
  filters : HasEntries AreFilterTexts p.filters σ.filters
  ranges : HasEntries IsBounds p.rangeFilters σ.ranges

theorem Calendar.parseBound_eq_ok {raw : Option String} {t : Option Instant} :
    parseBound raw = .ok t ↔ IsTime raw t := by
  rw [parseBound_eq]
  exact readGiven_eq_ok fun _ _ => Iff.rfl

theorem Parameters.parseCount_eq_ok {parameter : CountParameter} {raw : Option String}
    {n : Option UInt64} : parseCount parameter raw = .ok n ↔ IsCount raw n := by
  rw [parseCount_eq]
  exact readGiven_eq_ok fun _ _ => Decimal.uint64?_eq_some

theorem parseFilters_eq_ok {raw : Option String} {filters : ValueFilters} :
    parseFilters raw = .ok filters ↔ HasEntries AreFilterTexts raw filters :=
  (hasEntries_iff fun _ ht _ => Json.Tree.filterTexts?_eq_some ht).symm

theorem parseRanges_eq_ok {raw : Option String} {ranges : RangeFilters} :
    parseRanges raw = .ok ranges ↔ HasEntries IsBounds raw ranges :=
  (hasEntries_iff fun _ ht _ => Json.Tree.bounds?_eq_some ht).symm

theorem lastInstant_iff {w : Calendar.Window} {last : Option Instant} :
    LastInstant w.start w.finish last ↔ w.effectiveEnd = last := by
  obtain ⟨start, finish⟩ := w
  constructor
  · intro h
    cases h with
    | unbounded => rfl
    | bound h => exact if_neg h
    | @widened t last h hminute hsecond hnanos =>
      obtain ⟨second, nanos⟩ := last
      have hlast : t.endOfMinute = ⟨second, nanos⟩ := by
        simp only [Instant.endOfMinute, Instant.mk.injEq] at *
        omega
      rw [← hlast]
      exact if_pos h
  · rintro rfl
    cases finish with
    | none => exact .unbounded
    | some t =>
      by_cases h : start = some t
      · have hwidened : Calendar.Window.effectiveEnd ⟨start, some t⟩ = some t.endOfMinute :=
          if_pos h
        rw [hwidened]
        refine .widened h ?_ ?_ rfl
        all_goals
          simp only [Instant.endOfMinute]
          omega
      · have hbound : Calendar.Window.effectiveEnd ⟨start, some t⟩ = some t := if_neg h
        rw [hbound]
        exact .bound h

def RowFilter.selection (r : RowFilter) : Selection :=
  ⟨r.window.start, r.window.effectiveEnd, r.search, r.filters, r.ranges⟩

namespace Parameters

variable {p : Parameters} {σ : Selection}

theorem selects_iff : p.Selects σ ↔ ∃ rows, p.rowFilter = .ok rows ∧ rows.selection = σ := by
  simp only [rowFilter_eq_ok, Calendar.parseBound_eq_ok, parseFilters_eq_ok, parseRanges_eq_ok]
  constructor
  · rintro ⟨hstart, ⟨finish, hfinish, hlast⟩, hsearch, hfilters, hranges⟩
    refine ⟨⟨⟨σ.start, finish⟩, σ.search, σ.filters, σ.ranges⟩,
      ⟨hstart, hfinish, hsearch, hfilters, hranges⟩, ?_⟩
    rw [RowFilter.selection, lastInstant_iff.mp hlast]
  · rintro ⟨rows, ⟨hstart, hfinish, hsearch, hfilters, hranges⟩, rfl⟩
    exact ⟨hstart, ⟨_, hfinish, lastInstant_iff.mpr rfl⟩, hsearch, hfilters, hranges⟩

theorem exists_rowFilter :
    (∃ rows, p.rowFilter = .ok rows) ↔
      (∃ t, IsTime p.start t) ∧ (∃ t, IsTime p.finish t) ∧
        (∃ filters, HasEntries AreFilterTexts p.filters filters) ∧
        ∃ ranges, HasEntries IsBounds p.rangeFilters ranges := by
  simp only [rowFilter_eq_ok, Calendar.parseBound_eq_ok, parseFilters_eq_ok, parseRanges_eq_ok]
  constructor
  · rintro ⟨rows, hstart, hfinish, -, hfilters, hranges⟩
    exact ⟨⟨_, hstart⟩, ⟨_, hfinish⟩, ⟨_, hfilters⟩, ⟨_, hranges⟩⟩
  · rintro ⟨⟨start, hstart⟩, ⟨finish, hfinish⟩, ⟨filters, hfilters⟩, ⟨ranges, hranges⟩⟩
    exact ⟨⟨⟨start, finish⟩, Text.given p.search, filters, ranges⟩,
      hstart, hfinish, rfl, hfilters, hranges⟩

theorem page_eq_ok {limits : Limits} {page : Page} :
    p.page limits = .ok page ↔ ∃ limit offset, IsCount p.limit limit ∧ IsCount p.offset offset ∧
      page = ⟨limits.clamp limit, offset.getD 0⟩ := by
  simp only [Parameters.page, bind_eq_ok, parseCount_eq_ok]
  constructor
  · rintro ⟨limit, hlimit, offset, hoffset, ⟨⟩⟩
    exact ⟨limit, offset, hlimit, hoffset, rfl⟩
  · rintro ⟨limit, offset, hlimit, hoffset, rfl⟩
    exact ⟨limit, hlimit, offset, hoffset, rfl⟩

theorem exists_page {limits : Limits} :
    (∃ page, p.page limits = .ok page) ↔
      (∃ n, IsCount p.limit n) ∧ ∃ n, IsCount p.offset n := by
  simp only [page_eq_ok]
  constructor
  · rintro ⟨-, limit, offset, hlimit, hoffset, -⟩
    exact ⟨⟨limit, hlimit⟩, ⟨offset, hoffset⟩⟩
  · rintro ⟨⟨limit, hlimit⟩, ⟨offset, hoffset⟩⟩
    exact ⟨_, limit, offset, hlimit, hoffset, rfl⟩

end Parameters

end QueryConsole
