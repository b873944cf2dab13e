import QueryConsole.Engine
import QueryConsole.Proofs.Request.Selection
import QueryConsole.Proofs.Statement.Fragments

namespace QueryConsole

/-- What the table has to have for a pattern. -/
def Table.Offers (t : Table) (p : Parameters) : ReadPattern → Prop
  | .list => True
  | .count => True
  | .timeSeries => t.timeColumn ≠ none ∧ t.measures ≠ []
  | .stacked => t.timeColumn ≠ none ∧ t.categories ≠ none
  | .summary =>
    match Text.given p.groupBy with
    | none => t.summaries ≠ []
    | some name => ∃ s ∈ t.summaries, s.name = name
  | .histogram field => field ∈ t.scalarFields ∨ field ∈ t.arrayFields
  | .distinct field => field ∈ t.scalarFields ∨ field ∈ t.arrayFields

/-- Times and filters are read whatever the pattern, counts only for a page. -/
structure Accepts (d : Dataset) (pattern : ReadPattern) (p : Parameters) : Prop where
  start : ∃ t, IsTime p.start t
  finish : ∃ t, IsTime p.finish t
  filters : ∃ filters, HasEntries AreFilterTexts p.filters filters
  ranges : ∃ ranges, HasEntries IsBounds p.rangeFilters ranges
  limit : pattern.isPaged = true → ∃ n, IsCount p.limit n
  offset : pattern.isPaged = true → ∃ n, IsCount p.offset n
  offers : d.table.Offers p pattern

namespace Table

variable {t : Table}

theorem exists_field? {name : String} :
    (∃ f, t.field? name = some f) ↔ name ∈ t.scalarFields ∨ name ∈ t.arrayFields := by
  rw [field?]
  by_cases harray : name ∈ t.arrayFields
  · simp [harray]
  · by_cases hscalar : name ∈ t.scalarFields
    · simp [harray, hscalar]
    · simp [harray, hscalar]

theorem exists_summary? {name : Option String} :
    (∃ s, t.summary? name = some s) ↔
      match Text.given name with
      | none => t.summaries ≠ []
      | some wanted => ∃ s ∈ t.summaries, s.name = wanted := by
  rw [summary?]
  cases Text.given name with
  | none =>
    simp only
    cases t.summaries <;> simp
  | some wanted =>
    simp only
    rw [← Option.isSome_iff_exists, List.find?_isSome]
    simp

end Table

namespace Dataset

variable {d : Dataset} {pattern : ReadPattern} {p : Parameters}

theorem exists_selectable {field : String} :
    (∃ f, d.selectable pattern field = .ok f) ↔
      field ∈ d.table.scalarFields ∨ field ∈ d.table.arrayFields := by
  rw [← Table.exists_field?, selectable]
  cases d.table.field? field <;> simp

theorem onlyInvalid_selectable {field : String} :
    OnlyInvalid (d.selectable pattern field) := by
  rw [selectable]
  split
  · exact OnlyInvalid.ok _
  · exact OnlyInvalid.invalid _

theorem exists_shape : (∃ shape, d.shape pattern p = .ok shape) ↔ d.table.Offers p pattern := by
  cases pattern with
  | list => simp [shape, Table.Offers]
  | count => simp [shape, Table.Offers]
  | timeSeries =>
    simp only [shape, seriesShape, Table.Offers]
    cases d.table.timeColumn with
    | none => simp
    | some column => cases d.table.measures <;> simp
  | stacked =>
    simp only [shape, stackedShape, Table.Offers]
    cases d.table.timeColumn with
    | none => simp
    | some column => cases d.table.categories <;> simp
  | summary =>
    rw [Table.Offers, ← Table.exists_summary?, shape, summaryShape]
    cases d.table.summary? p.groupBy <;> simp
  | histogram field =>
    rw [Table.Offers, ← exists_selectable, shape]
    cases d.selectable (.histogram field) field <;> simp [Except.map]
  | distinct field =>
    rw [Table.Offers, ← exists_selectable, shape]
    cases d.selectable (.distinct field) field <;> simp [Except.map]

theorem onlyInvalid_shape : OnlyInvalid (d.shape pattern p) := by
  cases pattern with
  | list => exact OnlyInvalid.ok _
  | count => exact OnlyInvalid.ok _
  | timeSeries =>
    simp only [shape, seriesShape]
    split
    · split
      · exact OnlyInvalid.invalid _
      · exact OnlyInvalid.ok _
    · exact OnlyInvalid.invalid _
  | stacked =>
    simp only [shape, stackedShape]
    split
    · exact OnlyInvalid.ok _
    · exact OnlyInvalid.invalid _
  | summary =>
    simp only [shape, summaryShape]
    split
    · exact OnlyInvalid.ok _
    · exact OnlyInvalid.invalid _
  | histogram field => exact onlyInvalid_selectable.map
  | distinct field => exact onlyInvalid_selectable.map

end Dataset

namespace ReadPattern

variable {pattern : ReadPattern} {p : Parameters} {limits : Limits}

theorem exists_page : (∃ page, pattern.page p limits = .ok page) ↔
    (pattern.isPaged = true → (∃ n, IsCount p.limit n) ∧ ∃ n, IsCount p.offset n) := by
  rw [page]
  cases pattern.isPaged with
  | false => simp
  | true =>
    rw [if_pos rfl, ← Parameters.exists_page]
    cases p.page limits <;> simp [Except.map]

theorem onlyInvalid_page : OnlyInvalid (pattern.page p limits) := by
  rw [page]
  split
  · exact Parameters.onlyInvalid_page.map
  · exact OnlyInvalid.ok _

end ReadPattern

section Compile

variable {d : Dataset} {pattern : ReadPattern} {p : Parameters} {limits : Limits}

theorem exists_compile :
    (∃ s, compile d pattern p limits = .ok s) ↔
      (∃ rows, p.rowFilter = .ok rows) ∧ (∃ page, pattern.page p limits = .ok page) ∧
        ∃ shape, d.shape pattern p = .ok shape := by
  constructor
  · rintro ⟨s, hs⟩
    obtain ⟨rows, page, shape, hrows, hpage, hshape, -⟩ := compile_eq_ok hs
    exact ⟨⟨rows, hrows⟩, ⟨page, hpage⟩, shape, hshape⟩
  · rintro ⟨⟨rows, hrows⟩, ⟨page, hpage⟩, shape, hshape⟩
    refine ⟨(d.table.scope rows).statement shape page, ?_⟩
    rw [compile, hrows, hpage, hshape]
    rfl

theorem onlyInvalid_compile : OnlyInvalid (compile d pattern p limits) :=
  Parameters.onlyInvalid_rowFilter.bind fun _ => ReadPattern.onlyInvalid_page.bind fun _ =>
    Dataset.onlyInvalid_shape.bind fun _ => OnlyInvalid.ok _

end Compile

/-- A request compiles if and only if it is accepted.  An engine refuses any other request as
invalid, in reading and in previewing, and reading it calls no store. -/
theorem compile_isOk_iff_accepts (d : Dataset) (pattern : ReadPattern) (p : Parameters)
    (limits : Limits) :
    ((∃ s, compile d pattern p limits = .ok s) ↔ Accepts d pattern p) ∧
    (¬ Accepts d pattern p → ∃ fault, ∀ storage : Storage,
      (Engine.mk storage limits).preview d pattern p = .error (.invalid fault) ∧
      (Engine.mk storage limits).read d pattern p = ⟨[], .error (.invalid fault)⟩) := by
  have hiff : (∃ s, compile d pattern p limits = .ok s) ↔ Accepts d pattern p := by
    rw [exists_compile, Parameters.exists_rowFilter, ReadPattern.exists_page,
      Dataset.exists_shape]
    constructor
    · rintro ⟨⟨hstart, hfinish, hfilters, hranges⟩, hpage, hoffers⟩
      exact ⟨hstart, hfinish, hfilters, hranges, fun h => (hpage h).1, fun h => (hpage h).2,
        hoffers⟩
    · rintro ⟨hstart, hfinish, hfilters, hranges, hlimit, hoffset, hoffers⟩
      exact ⟨⟨hstart, hfinish, hfilters, hranges⟩, fun h => ⟨hlimit h, hoffset h⟩, hoffers⟩
  refine ⟨hiff, ?_⟩
  intro hrefused
  cases hcompile : compile d pattern p limits with
  | ok s => exact absurd (hiff.mp ⟨s, hcompile⟩) hrefused
  | error f =>
    obtain ⟨fault, rfl⟩ := onlyInvalid_compile f hcompile
    refine ⟨fault, fun storage => ⟨hcompile, ?_⟩⟩
    rw [Engine.read, hcompile]
    rfl

def brokenFilters : Parameters where
  filters := some "\x7b\"user\": [\"ann\""

def nullFilters : Parameters where
  filters := some "\x7b\"user\": [\"ann\", null]\x7d"

theorem compile_isOk_iff_accepts_brokenFilters :
    ∀ p ∈ [brokenFilters, nullFilters], ¬ Accepts .queryLog .count p ∧
      ∃ fault, ∀ storage : Storage,
        (Engine.mk storage {}).preview .queryLog .count p = .error (.invalid fault) ∧
        (Engine.mk storage {}).read .queryLog .count p = ⟨[], .error (.invalid fault)⟩ := by
  have herror : ∀ p ∈ [brokenFilters, nullFilters],
      compile .queryLog .count p {} = .error (.invalid .malformedFilters) := by
    decide +kernel
  intro p hp
  obtain ⟨hiff, hrefusal⟩ := compile_isOk_iff_accepts .queryLog .count p {}
  have hrefused : ¬ Accepts .queryLog .count p := by
    intro h
    obtain ⟨s, hs⟩ := hiff.mpr h
    cases hs.symm.trans (herror p hp)
  exact ⟨hrefused, hrefusal hrefused⟩

end QueryConsole
