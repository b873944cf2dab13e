import QueryConsole.Proofs.Request.Selection
import QueryConsole.Proofs.Statement.WhereLine

namespace QueryConsole

universe u

variable {Row : Type u}

def Demand.Holds (I : Interpretation Row) (row : Row) : Demand → Prop
  | .notBefore column i => I.atLeast row column (.dateTime i.text)
  | .notAfter column i => I.atMost row column (.dateTime i.text)
  | .mentions columns term => ∃ column ∈ columns, I.contains (I.text row column) term
  | .oneOf ⟨name, .scalar⟩ values => I.text row name ∈ values
  | .oneOf ⟨name, .arrayOfText⟩ values => ∃ item ∈ I.elements row name, item ∈ values
  | .atLeast column n => I.atLeast row column (.uint64 n)
  | .atMost column n => I.atMost row column (.uint64 n)

/-- What a selection asks of a row.  Fields that the table does not know ask for nothing, nor do
empty lists. -/
structure Selection.Admits (σ : Selection) (t : Table) (I : Interpretation Row) (row : Row) :
    Prop where
  notBefore : ∀ column i, t.timeColumn = some column → σ.start = some i →
    I.atLeast row column (.dateTime i.text)
  notAfter : ∀ column i, t.timeColumn = some column → σ.last = some i →
    I.atMost row column (.dateTime i.text)
  mentions : ∀ term, σ.search = some term →
    ∃ column ∈ t.searchColumns, I.contains (I.text row column) term
  oneOf : ∀ name values, (name, values) ∈ σ.filters → values ≠ [] → name ∈ t.scalarFields →
    I.text row name ∈ values
  sharesAny : ∀ name values, (name, values) ∈ σ.filters → values ≠ [] → name ∈ t.arrayFields →
    ∃ item ∈ I.elements row name, item ∈ values
  atLeast : ∀ column bounds n, (column, bounds) ∈ σ.ranges → column ∈ t.rangeFields →
    bounds.least = some n → I.atLeast row column (.uint64 n)
  atMost : ∀ column bounds n, (column, bounds) ∈ σ.ranges → column ∈ t.rangeFields →
    bounds.greatest = some n → I.atMost row column (.uint64 n)

namespace Demand

variable {I : Interpretation Row} {row : Row} {b : Bindings} {p : Placeholder}

theorem holds_condition {d : Demand} (h : p.Denotes b d.value) :
    (d.condition p).Holds I b row ↔ d.Holds I row := by
  have compares {test : Value → Prop} {v : Value} (hv : p.Denotes b v) :
      (∃ w, p.Denotes b w ∧ test w) ↔ test v := by
    simp only [Placeholder.denotes_iff hv, exists_eq_left]
  have member {values : List String} {test : List String → Prop}
      (hv : p.Denotes b (.textArray values)) :
      (∃ items, p.Denotes b (.textArray items) ∧ test items) ↔ test values := by
    simp only [Placeholder.denotes_iff hv, Value.textArray.injEq, exists_eq_left]
  cases d with
  | notBefore column i => exact compares h
  | notAfter column i => exact compares h
  | mentions columns term =>
    have hterm (w : String) : p.Denotes b (.text w) ↔ w = term := by
      simp only [Placeholder.denotes_iff h, value, Value.text.injEq]
    constructor
    · rintro ⟨a, ha, hholds⟩
      obtain ⟨column, hcolumn, rfl⟩ := List.mem_map.mp ha
      obtain ⟨w, hw, hcontains⟩ := hholds
      rw [hterm] at hw
      exact ⟨column, hcolumn, hw ▸ hcontains⟩
    · rintro ⟨column, hcolumn, hcontains⟩
      exact ⟨.mentions column p, List.mem_map_of_mem hcolumn, term, h, hcontains⟩
  | oneOf field values =>
    obtain ⟨name, kind⟩ := field
    cases kind with
    | scalar => exact member h
    | arrayOfText => exact member h
  | atLeast column n => exact compares h
  | atMost column n => exact compares h

end Demand

namespace RowFilter

variable {d : Dataset} {r : RowFilter} {I : Interpretation Row} {row : Row}

theorem forall_windowDemands :
    (∀ demand ∈ d.table.windowDemands r.window, demand.Holds I row) ↔
      (∀ column i, d.table.timeColumn = some column → r.window.start = some i →
        I.atLeast row column (.dateTime i.text)) ∧
      ∀ column i, d.table.timeColumn = some column → r.window.effectiveEnd = some i →
        I.atMost row column (.dateTime i.text) := by
  constructor
  · intro h
    refine ⟨fun column i hcolumn hi => ?_, fun column i hcolumn hi => ?_⟩
    · exact h (.notBefore column i)
        (Table.mem_windowDemands.mpr ⟨column, hcolumn, .inl ⟨i, hi, rfl⟩⟩)
    · exact h (.notAfter column i)
        (Table.mem_windowDemands.mpr ⟨column, hcolumn, .inr ⟨i, hi, rfl⟩⟩)
  · rintro ⟨hstart, hend⟩ demand hmem
    obtain ⟨column, hcolumn, ⟨i, hi, rfl⟩ | ⟨i, hi, rfl⟩⟩ := Table.mem_windowDemands.mp hmem
    · exact hstart column i hcolumn hi
    · exact hend column i hcolumn hi

theorem forall_searchDemands :
    (∀ demand ∈ d.table.searchDemands r.search, demand.Holds I row) ↔
      ∀ term, r.search = some term →
        ∃ column ∈ d.table.searchColumns, I.contains (I.text row column) term := by
  constructor
  · intro h term hterm
    exact h (.mentions d.table.searchColumns term)
      (Table.mem_searchDemands.mpr ⟨term, hterm, d.searchColumns_ne_nil, rfl⟩)
  · intro h demand hmem
    obtain ⟨term, hterm, -, rfl⟩ := Table.mem_searchDemands.mp hmem
    exact h term hterm

theorem forall_filterDemands :
    (∀ demand ∈ d.table.filterDemands r.filters, demand.Holds I row) ↔
      (∀ name values, (name, values) ∈ r.filters → values ≠ [] → name ∈ d.table.scalarFields →
        I.text row name ∈ values) ∧
      ∀ name values, (name, values) ∈ r.filters → values ≠ [] → name ∈ d.table.arrayFields →
        ∃ item ∈ I.elements row name, item ∈ values := by
  constructor
  · intro h
    refine ⟨fun name values hmem hvalues hname => ?_, fun name values hmem hvalues hname => ?_⟩
    · exact h (.oneOf ⟨name, .scalar⟩ values) (Table.mem_filterDemands.mpr
        ⟨name, values, _, hmem, d.field?_scalar hname, hvalues, rfl⟩)
    · exact h (.oneOf ⟨name, .arrayOfText⟩ values) (Table.mem_filterDemands.mpr
        ⟨name, values, _, hmem, Table.field?_array hname, hvalues, rfl⟩)
  · rintro ⟨hscalar, harray⟩ demand hmem
    obtain ⟨name, values, field, hentry, hfield, hvalues, rfl⟩ := Table.mem_filterDemands.mp hmem
    obtain ⟨rfl, hname⟩ | ⟨rfl, hname⟩ := Table.mem_of_field?_eq_some hfield
    · exact harray name values hentry hvalues hname
    · exact hscalar name values hentry hvalues hname

theorem forall_rangeDemands :
    (∀ demand ∈ d.table.rangeDemands r.ranges, demand.Holds I row) ↔
      (∀ column bounds n, (column, bounds) ∈ r.ranges → column ∈ d.table.rangeFields →
        bounds.least = some n → I.atLeast row column (.uint64 n)) ∧
      ∀ column bounds n, (column, bounds) ∈ r.ranges → column ∈ d.table.rangeFields →
        bounds.greatest = some n → I.atMost row column (.uint64 n) := by
  constructor
  · intro h
    refine ⟨fun column bounds n hmem hcolumn hn => ?_, fun column bounds n hmem hcolumn hn => ?_⟩
    · exact h (.atLeast column n) (Table.mem_rangeDemands.mpr
        ⟨column, bounds, hmem, d.takesRange hcolumn, .inl ⟨n, hn, rfl⟩⟩)
    · exact h (.atMost column n) (Table.mem_rangeDemands.mpr
        ⟨column, bounds, hmem, d.takesRange hcolumn, .inr ⟨n, hn, rfl⟩⟩)
  · rintro ⟨hleast, hgreatest⟩ demand hmem
    obtain ⟨column, bounds, hentry, htakes, hbound⟩ := Table.mem_rangeDemands.mp hmem
    rw [Bool.and_eq_true, Table.acceptsRange, List.contains_iff_mem] at htakes
    obtain ⟨n, hn, rfl⟩ | ⟨n, hn, rfl⟩ := hbound
    · exact hleast column bounds n hentry htakes.2 hn
    · exact hgreatest column bounds n hentry htakes.2 hn

theorem forall_demands :
    (∀ demand ∈ d.table.demands r, demand.Holds I row) ↔ r.selection.Admits d.table I row := by
  simp only [Table.demands, List.forall_mem_append, forall_windowDemands, forall_searchDemands,
    forall_filterDemands, forall_rangeDemands]
  constructor
  · rintro ⟨⟨⟨⟨hstart, hend⟩, hsearch⟩, hscalar, harray⟩, hleast, hgreatest⟩
    exact ⟨hstart, hend, hsearch, hscalar, harray, hleast, hgreatest⟩
  · rintro ⟨hstart, hend, hsearch, hscalar, harray, hleast, hgreatest⟩
    exact ⟨⟨⟨⟨hstart, hend⟩, hsearch⟩, hscalar, harray⟩, hleast, hgreatest⟩

end RowFilter

variable {d : Dataset} {rows : RowFilter} {shape : Shape} {page : Option Page}

theorem Scope.denotes_placeholder {i : Nat} (hi : i < (d.table.demands rows).length) :
    ((d.table.demands rows)[i].placeholder i).Denotes
      ((d.table.scope rows).statement shape page).bindings (d.table.demands rows)[i].value := by
  have hnames := nodup_names_statement d.table rows shape page
  have hmem : (d.table.demands rows)[i].step.binding i ∈
      ((d.table.scope rows).statement shape page).bindings.toList := by
    rw [bindings_statement, Bindings.toList_run_empty, statementSteps, List.mapIdx_append]
    apply List.mem_append_left
    exact List.mem_mapIdx.mpr ⟨i, by simpa using hi, by simp⟩
  have hvalue := Bindings.get?_of_mem hnames hmem
  constructor
  · rw [← Demand.value_step]
    exact hvalue
  · rw [← Demand.value_step]
    rfl

theorem Scope.forall_conditions {I : Interpretation Row} {row : Row} :
    (∀ c ∈ (d.table.scope rows).conditions,
        c.Holds I ((d.table.scope rows).statement shape page).bindings row) ↔
      ∀ demand ∈ d.table.demands rows, demand.Holds I row := by
  rw [Table.scope_conditions]
  constructor
  · intro h demand hmem
    obtain ⟨i, hi, rfl⟩ := List.getElem_of_mem hmem
    exact (Demand.holds_condition (denotes_placeholder hi)).mp
      (h _ (List.mem_mapIdx.mpr ⟨i, hi, rfl⟩))
  · intro h c hc
    obtain ⟨i, hi, rfl⟩ := List.mem_mapIdx.mp hc
    exact (Demand.holds_condition (denotes_placeholder hi)).mpr (h _ (List.getElem_mem hi))

/-- The test that a statement's text spells out, under the statement's own bindings, holds of the
rows that the selection of the request admits, whatever the store's comparisons mean. -/
theorem compile_rowTest {d : Dataset} {pattern : ReadPattern} {p : Parameters} {limits : Limits}
    {s : Statement} (h : compile d pattern p limits = .ok s) :
    ∃ f, s.rowTest? = some f ∧ (∃ σ, p.Selects σ) ∧
      ∀ σ, p.Selects σ → ∀ {Row : Type u} (I : Interpretation Row) (row : Row),
        f.Holds I s.bindings row ↔ σ.Admits d.table I row := by
  obtain ⟨rows, page, shape, hrows, -, hshape, rfl⟩ := compile_eq_ok h
  obtain ⟨f, hf, hholds⟩ := Scope.rowTest?_statement (Dataset.shape_isInert hshape)
  refine ⟨f, hf, ⟨rows.selection, Parameters.selects_iff.mpr ⟨rows, hrows, rfl⟩⟩, ?_⟩
  intro σ hσ Row I row
  obtain ⟨rows', hrows', rfl⟩ := Parameters.selects_iff.mp hσ
  obtain rfl : rows = rows' := Except.ok.inj (hrows.symm.trans hrows')
  rw [hholds, Scope.forall_conditions, RowFilter.forall_demands]

section Example

def filteredSearch : Parameters where
  start := some "2024-01-02T03:04:05Z"
  finish := some " 2024-01-02 03:04:05"
  search := some " x "
  filters := some "\x7b\"user\": [\"ann\"], \"tables\": [\"t\", \"u\"], \"none\": [\"v\"]\x7d"
  rangeFilters := some "\x7b\"read_rows\": [5]\x7d"

def filteredSelection : Selection where
  start := some ⟨1704164645, 0⟩
  last := some ⟨1704164699, 0⟩
  search := some "x"
  filters := [("none", ["v"]), ("tables", ["t", "u"]), ("user", ["ann"])]
  ranges := [("read_rows", ⟨some 5, none⟩)]

theorem isPayload_filteredSearch :
    IsPayload AreFilterTexts (filteredSearch.filters.getD "")
      [("user", ["ann"]), ("tables", ["t", "u"]), ("none", ["v"])] := by
  have hlexes := Json.wholeTree?_eq_some.mp
    (show Json.wholeTree? (Text.trim (filteredSearch.filters.getD "")) = some (.object
      [("user".toList.map .char, .array [.text ("ann".toList.map .char)] true),
       ("tables".toList.map .char,
        .array [.text ("t".toList.map .char), .text ("u".toList.map .char)] true),
       ("none".toList.map .char, .array [.text ("v".toList.map .char)] true)] true) from rfl)
  have hword (s : String) : IsFilterText (.text (s.toList.map .char)) s :=
    .text (Json.standFor_map_char _)
  exact .object hlexes
    (.cons ⟨Json.standFor_map_char _, .array (.cons (hword "ann") .nil)⟩
      (.cons ⟨Json.standFor_map_char _, .array (.cons (hword "t") (.cons (hword "u") .nil))⟩
        (.cons ⟨Json.standFor_map_char _, .array (.cons (hword "v") .nil)⟩ .nil)))

theorem isPayload_filteredSearch_ranges :
    IsPayload IsBounds (filteredSearch.rangeFilters.getD "")
      [("read_rows", ⟨some 5, none⟩)] := by
  have hlexes := Json.wholeTree?_eq_some.mp
    (show Json.wholeTree? (Text.trim (filteredSearch.rangeFilters.getD "")) = some (.object
      [("read_rows".toList.map .char, .array [.number ⟨false, ['5'], none, none⟩] true)] true)
      from rfl)
  exact .object hlexes (.cons ⟨Json.standFor_map_char _, .least (.number rfl)⟩ .nil)

theorem selects_filteredSearch : filteredSearch.Selects filteredSelection where
  start := .given rfl (by decide +kernel)
  last := ⟨some ⟨1704164645, 0⟩, .given rfl (by decide +kernel),
    .widened rfl (by decide) (by decide) rfl⟩
  search := by decide
  filters := .payload isPayload_filteredSearch (isLatest_iff.mpr (by decide))
  ranges := .payload isPayload_filteredSearch_ranges (isLatest_iff.mpr (by decide))

def filteredRows : RowFilter where
  window := ⟨some ⟨1704164645, 0⟩, some ⟨1704164645, 0⟩⟩
  search := some "x"
  filters := filteredSelection.filters
  ranges := filteredSelection.ranges

theorem admits_filteredSelection {I : Interpretation Row} {row : Row} :
    filteredSelection.Admits queryLogTable I row ↔
      I.atLeast row "event_time" (.dateTime "2024-01-02 03:04:05") ∧
      I.atMost row "event_time" (.dateTime "2024-01-02 03:04:59") ∧
      (I.contains (I.text row "query") "x" ∨ I.contains (I.text row "exception") "x") ∧
      (∃ item ∈ I.elements row "tables", item = "t" ∨ item = "u") ∧
      I.text row "user" = "ann" ∧ I.atLeast row "read_rows" (.uint64 5) := by
  have hdemands : Dataset.queryLog.table.demands filteredRows =
      [.notBefore "event_time" ⟨1704164645, 0⟩, .notAfter "event_time" ⟨1704164699, 0⟩,
        .mentions ["query", "exception"] "x", .oneOf ⟨"tables", .arrayOfText⟩ ["t", "u"],
        .oneOf ⟨"user", .scalar⟩ ["ann"], .atLeast "read_rows" 5] := by
    decide +kernel
  have hstart : (⟨1704164645, 0⟩ : Calendar.Instant).text = "2024-01-02 03:04:05" := by
    decide +kernel
  have hlast : (⟨1704164699, 0⟩ : Calendar.Instant).text = "2024-01-02 03:04:59" := by
    decide +kernel
  have hrows := @RowFilter.forall_demands Row .queryLog filteredRows I row
  rw [hdemands] at hrows
  refine hrows.symm.trans ?_
  simp only [List.forall_mem_cons, List.not_mem_nil, false_imp_iff, implies_true, and_true]
  simp [Demand.Holds, hstart, hlast]

end Example

theorem compile_rowTest_filteredSearch :
    filteredSearch.Selects filteredSelection ∧
    ∃ s f, compile .queryLog .count filteredSearch {} = .ok s ∧ s.rowTest? = some f ∧
      ∀ {Row : Type} (I : Interpretation Row) (row : Row), f.Holds I s.bindings row ↔
        I.atLeast row "event_time" (.dateTime "2024-01-02 03:04:05") ∧
        I.atMost row "event_time" (.dateTime "2024-01-02 03:04:59") ∧
        (I.contains (I.text row "query") "x" ∨ I.contains (I.text row "exception") "x") ∧
        (∃ item ∈ I.elements row "tables", item = "t" ∨ item = "u") ∧
        I.text row "user" = "ann" ∧ I.atLeast row "read_rows" (.uint64 5) := by
  have h : compile .queryLog .count filteredSearch {} = .ok
      ⟨"SELECT count() AS total\nFROM system.query_log\n" ++
          "WHERE event_time >= \x7bstart:DateTime('UTC')\x7d AND " ++
          "event_time <= \x7bend:DateTime('UTC')\x7d AND " ++
          "(positionCaseInsensitive(toString(query), \x7bsearch:String\x7d) > 0 OR " ++
          "positionCaseInsensitive(toString(exception), \x7bsearch:String\x7d) > 0) AND " ++
          "hasAny(arrayMap(x -> toString(x), tables), \x7bfilter_3:Array(String)\x7d) AND " ++
          "toString(user) IN \x7bfilter_4:Array(String)\x7d AND " ++
          "read_rows >= \x7brange_5:UInt64\x7d",
        ⟨[⟨"start", .dateTime "2024-01-02 03:04:05"⟩, ⟨"end", .dateTime "2024-01-02 03:04:59"⟩,
          ⟨"search", .text "x"⟩, ⟨"filter_3", .textArray ["t", "u"]⟩,
          ⟨"filter_4", .textArray ["ann"]⟩, ⟨"range_5", .uint64 5⟩]⟩⟩ := by
    decide +kernel
  obtain ⟨f, hf, -, hholds⟩ := compile_rowTest h
  refine ⟨selects_filteredSearch, _, f, h, hf, fun I row => ?_⟩
  exact (hholds _ selects_filteredSearch I row).trans admits_filteredSelection

end QueryConsole
