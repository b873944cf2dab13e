import QueryConsole.Proofs.Statement.Outline

namespace QueryConsole

/-- What two requests have to share for one text. -/
structure SameShape (d : Dataset) (pattern : ReadPattern) (p q : Parameters) : Prop where
  start : (Text.given p.start).isSome = (Text.given q.start).isSome
  finish : (Text.given p.finish).isSome = (Text.given q.finish).isSome
  search : (Text.given p.search).isSome = (Text.given q.search).isSome
  filters : ∀ filters filters', parseFilters p.filters = .ok filters →
    parseFilters q.filters = .ok filters' → ∀ name, (d.table.field? name).isSome →
      (ListsValues filters name ↔ ListsValues filters' name)
  ranges : ∀ ranges ranges', parseRanges p.rangeFilters = .ok ranges →
    parseRanges q.rangeFilters = .ok ranges' → ∀ column, d.table.acceptsRange column = true →
      (HasLeast ranges column ↔ HasLeast ranges' column) ∧
        (HasGreatest ranges column ↔ HasGreatest ranges' column)
  listSort : pattern = .list → p.sort.keyOr d.table.sortable d.table.defaultSort =
    q.sort.keyOr d.table.sortable d.table.defaultSort
  bucket : pattern = .timeSeries ∨ pattern = .stacked → p.bucketWidth = q.bucketWidth
  perSecond : pattern = .timeSeries → p.perSecond = q.perSecond
  categories : pattern = .stacked → ∀ c, d.table.categories = some c → ∀ value ∈ c.values,
    (value ∈ p.eventNames ↔ value ∈ q.eventNames)
  summary : pattern = .summary → d.table.summary? p.groupBy = d.table.summary? q.groupBy
  summarySort : pattern = .summary → ∀ s, d.table.summary? p.groupBy = some s →
    p.sort.keyOr s.sortable s.defaultSort = q.sort.keyOr s.sortable s.defaultSort

namespace SameShape

variable {d : Dataset} {pattern : ReadPattern} {p q : Parameters} {rows rows' : RowFilter}

theorem map_blank_demands (h : SameShape d pattern p q) (hp : p.rowFilter = .ok rows)
    (hq : q.rowFilter = .ok rows') :
    (d.table.demands rows).map Demand.blank = (d.table.demands rows').map Demand.blank := by
  obtain ⟨hstart, hfinish, hsearch, hfilters, hranges⟩ := Parameters.rowFilter_eq_ok.mp hp
  obtain ⟨hstart', hfinish', hsearch', hfilters', hranges'⟩ := Parameters.rowFilter_eq_ok.mp hq
  have hwindow : (d.table.windowDemands rows.window).map Demand.blank =
      (d.table.windowDemands rows'.window).map Demand.blank := by
    apply Table.map_blank_windowDemands
    · rw [Calendar.isSome_of_parseBound hstart, Calendar.isSome_of_parseBound hstart', h.start]
    · rw [Calendar.isSome_of_parseBound hfinish, Calendar.isSome_of_parseBound hfinish', h.finish]
  have hterm : (d.table.searchDemands rows.search).map Demand.blank =
      (d.table.searchDemands rows'.search).map Demand.blank := by
    apply Table.map_blank_searchDemands
    rw [hsearch, hsearch', h.search]
  have hlists : (d.table.filterDemands rows.filters).map Demand.blank =
      (d.table.filterDemands rows'.filters).map Demand.blank := by
    apply List.Pairwise.eq_of_mem_iff
      (Table.pairwise_filterDemands (keysSorted_parseEntries hfilters))
      (Table.pairwise_filterDemands (keysSorted_parseEntries hfilters'))
    intro e
    rw [Table.mem_map_blank_filterDemands, Table.mem_map_blank_filterDemands]
    apply exists₂_congr
    intro name field
    apply and_congr_right
    intro hfield
    rw [h.filters _ _ hfilters hfilters' name (by rw [hfield]; rfl)]
  have hbounds : (d.table.rangeDemands rows.ranges).map Demand.blank =
      (d.table.rangeDemands rows'.ranges).map Demand.blank := by
    apply List.Pairwise.eq_of_mem_iff
      (Table.pairwise_rangeDemands (keysSorted_parseEntries hranges))
      (Table.pairwise_rangeDemands (keysSorted_parseEntries hranges'))
    intro e
    rw [Table.mem_map_blank_rangeDemands, Table.mem_map_blank_rangeDemands]
    apply exists_congr
    intro column
    apply and_congr_right
    intro haccepts
    rw [Bool.and_eq_true] at haccepts
    obtain ⟨hleast, hgreatest⟩ := h.ranges _ _ hranges hranges' column haccepts.2
    rw [hleast, hgreatest]
  simp only [Table.demands, List.map_append, hwindow, hterm, hlists, hbounds]

theorem shape_eq (h : SameShape d pattern p q) {shape : Shape}
    (hshape : d.shape pattern p = .ok shape) : d.shape pattern q = .ok shape := by
  rw [← hshape]
  cases pattern with
  | list => simp only [Dataset.shape, Dataset.listShape, h.listSort rfl]
  | count => rfl
  | timeSeries =>
    simp only [Dataset.shape, Dataset.seriesShape, h.bucket (.inl rfl), h.perSecond rfl]
  | stacked =>
    simp only [Dataset.shape, Dataset.stackedShape, h.bucket (.inr rfl)]
    split
    · next column c hcolumn hc => rw [Categories.shown_congr (h.categories rfl c hc)]
    · rfl
  | summary =>
    simp only [Dataset.shape, Dataset.summaryShape, ← h.summary rfl] at hshape ⊢
    split
    · next s hs => rw [h.summarySort rfl s hs]
    · next hnone =>
      rw [hnone] at hshape
      cases hshape
  | histogram field => rfl
  | distinct field => rfl

end SameShape

theorem ReadPattern.map_page {α : Type} {pattern : ReadPattern} {p : Parameters} {limits : Limits}
    {page : Option Page} (h : pattern.page p limits = .ok page) (a : α) :
    (page.map fun _ => a) = if pattern.isPaged then some a else none := by
  rw [ReadPattern.page] at h
  split at h
  · next hpaged =>
    obtain ⟨page', -, rfl⟩ := Dataset.map_eq_ok h
    rw [if_pos hpaged]
    rfl
  · next hplain =>
    cases h
    rw [if_neg hplain]
    rfl

namespace Dataset

variable (d : Dataset)

theorem isColumn_of_sortable {column : String} (h : d.table.sortable column = true) :
    IsColumn column := by
  simp only [Table.sortable, Bool.or_eq_true, beq_iff_eq, List.contains_iff_mem] at h
  obtain (h | h) | h := h
  · exact h ▸ d.isColumn_defaultSort
  · exact d.isColumn_timeColumn h
  · exact d.isColumn_scalarField h

theorem isColumn_of_summarySortable {s : Summary} (hs : s ∈ d.table.summaries) {column : String}
    (h : s.sortable column = true) : IsColumn column := by
  apply d.isColumn_summary hs
  simp only [Summary.sortable, Bool.or_eq_true, List.contains_iff_mem, List.any_eq_true,
    beq_iff_eq] at h
  obtain h | ⟨a, ha, rfl⟩ := h
  · simp [h]
  · simp [List.mem_map_of_mem ha]

end Dataset

theorem RequestedSort.columnOr_eq {allowed : String → Bool} {default : String}
    (h : ∀ column, allowed column = true → IsColumn column) (s : RequestedSort) :
    s.columnOr allowed default = (s.column.filter allowed).getD default := by
  obtain ⟨column, order⟩ := s
  cases column with
  | none => rfl
  | some column =>
    simp only [columnOr, Option.filter]
    cases hallowed : allowed column with
    | false => simp
    | true => simp [(h column hallowed).1]

/-- Requests of one shape, under whatever limits, compile to one text with placeholders of one list
of names and types.  A requested sort column is taken only if it is one of the sortable columns. -/
theorem compile_sameShape (d : Dataset) :
    (∀ {pattern : ReadPattern} {p q : Parameters} {limits limits' : Limits} {s t : Statement},
      compile d pattern p limits = .ok s → compile d pattern q limits' = .ok t →
      SameShape d pattern p q →
      s.text = t.text ∧
        s.bindings.toList.map Binding.placeholder = t.bindings.toList.map Binding.placeholder) ∧
    (∀ r : RequestedSort, r.columnOr d.table.sortable d.table.defaultSort =
      (r.column.filter d.table.sortable).getD d.table.defaultSort) ∧
    ∀ summary ∈ d.table.summaries, ∀ r : RequestedSort,
      r.columnOr summary.sortable summary.defaultSort =
        (r.column.filter summary.sortable).getD summary.defaultSort := by
  refine ⟨?_, ?_, ?_⟩
  · intro pattern p q limits limits' s t hs ht h
    obtain ⟨rows, page, shape, hrows, hpage, hshape, rfl⟩ := compile_eq_ok hs
    obtain ⟨rows', page', shape', hrows', hpage', hshape', rfl⟩ := compile_eq_ok ht
    obtain rfl : shape = shape' := Except.ok.inj ((h.shape_eq hshape).symm.trans hshape')
    have hdemands := h.map_blank_demands hrows hrows'
    have hconditions : (d.table.scope rows).conditions = (d.table.scope rows').conditions := by
      rw [Table.scope_conditions, Table.scope_conditions]
      apply mapIdx_eq_of_map_blank _ hdemands
      intro i demand
      rw [demand.placeholder_blank, demand.condition_blank]
    have hclause : (page.map fun _ => pageClause) = page'.map fun _ => pageClause := by
      rw [ReadPattern.map_page hpage, ReadPattern.map_page hpage']
    constructor
    · rw [Scope.statement_text, Scope.statement_text, hclause]
      simp only [Scope.select, Table.scope_table, hconditions]
    · rw [map_placeholder_bindings, map_placeholder_bindings]
      congr 1
      · exact mapIdx_eq_of_map_blank (fun i demand => demand.placeholder_blank i) hdemands
      · revert hclause
        cases page <;> cases page' <;> simp
  · exact RequestedSort.columnOr_eq fun column => d.isColumn_of_sortable
  · intro summary hsummary
    exact RequestedSort.columnOr_eq fun column => d.isColumn_of_summarySortable hsummary

def plainListing : Parameters where
  search := some "x"
  sortField := some "user"
  filters := some "\x7b\"user\": [\"ann\"]\x7d"
  rangeFilters := some "\x7b\"read_rows\": [5]\x7d"

def hostileListing : Parameters where
  search := some "x' OR 1 = 1 --"
  limit := some "7"
  sortField := some "user"
  filters := some "\x7b\"user; DROP\": [\"\"], \"user\": [\"') OR (1\", \"bob\"]\x7d"
  rangeFilters := some "\x7b\"read_rows\": \x7b\"min\": \"9\"\x7d, \"user\": [1]\x7d"

theorem sameShape_hostileListing : SameShape .queryLog .list plainListing hostileListing where
  start := rfl
  finish := rfl
  search := by decide +kernel
  filters := by
    have hplain : parseFilters plainListing.filters = .ok [("user", ["ann"])] := by
      decide +kernel
    have hhostile : parseFilters hostileListing.filters =
        .ok [("user", ["') OR (1", "bob"]), ("user; DROP", [""])] := by
      decide +kernel
    have hunknown : Dataset.queryLog.table.field? "user; DROP" = none := by decide +kernel
    intro filters filters' h h' name hname
    cases Except.ok.inj (hplain.symm.trans h)
    cases Except.ok.inj (hhostile.symm.trans h')
    have hne : name ≠ "user; DROP" := by
      rintro rfl
      rw [hunknown] at hname
      cases hname
    simp [ListsValues, hne]
  ranges := by
    have hplain : parseRanges plainListing.rangeFilters =
        .ok [("read_rows", ⟨some 5, none⟩)] := by
      decide +kernel
    have hhostile : parseRanges hostileListing.rangeFilters =
        .ok [("read_rows", ⟨some 9, none⟩), ("user", ⟨some 1, none⟩)] := by
      decide +kernel
    have hrefused : Dataset.queryLog.table.acceptsRange "user" = false := by decide +kernel
    intro ranges ranges' h h' column hcolumn
    cases Except.ok.inj (hplain.symm.trans h)
    cases Except.ok.inj (hhostile.symm.trans h')
    have hne : column ≠ "user" := by
      rintro rfl
      rw [hrefused] at hcolumn
      cases hcolumn
    simp [HasLeast, HasGreatest, hne]
  listSort := fun _ => rfl
  bucket := nofun
  perSecond := nofun
  categories := nofun
  summary := nofun
  summarySort := nofun

theorem compile_sameShape_hostileListing :
    ∃ s t, compile .queryLog .list plainListing {} = .ok s ∧
      compile .queryLog .list hostileListing { most := 5 } = .ok t ∧
      s.text = t.text ∧
      s.bindings.toList.map Binding.placeholder = t.bindings.toList.map Binding.placeholder := by
  have hs : compile .queryLog .list plainListing {} = .ok
      ⟨"SELECT *\nFROM system.query_log\n" ++
          "WHERE (positionCaseInsensitive(toString(query), \x7bsearch:String\x7d) > 0 OR " ++
          "positionCaseInsensitive(toString(exception), \x7bsearch:String\x7d) > 0) AND " ++
          "toString(user) IN \x7bfilter_1:Array(String)\x7d AND " ++
          "read_rows >= \x7brange_2:UInt64\x7d\n" ++
          "ORDER BY user DESC\nLIMIT \x7blimit:UInt64\x7d OFFSET \x7boffset:UInt64\x7d",
        ⟨[⟨"search", .text "x"⟩, ⟨"filter_1", .textArray ["ann"]⟩, ⟨"range_2", .uint64 5⟩,
          ⟨"limit", .uint64 100⟩, ⟨"offset", .uint64 0⟩]⟩⟩ := by
    decide +kernel
  have ht : compile .queryLog .list hostileListing { most := 5 } = .ok
      ⟨"SELECT *\nFROM system.query_log\n" ++
          "WHERE (positionCaseInsensitive(toString(query), \x7bsearch:String\x7d) > 0 OR " ++
          "positionCaseInsensitive(toString(exception), \x7bsearch:String\x7d) > 0) AND " ++
          "toString(user) IN \x7bfilter_1:Array(String)\x7d AND " ++
          "read_rows >= \x7brange_2:UInt64\x7d\n" ++
          "ORDER BY user DESC\nLIMIT \x7blimit:UInt64\x7d OFFSET \x7boffset:UInt64\x7d",
        ⟨[⟨"search", .text "x' OR 1 = 1 --"⟩, ⟨"filter_1", .textArray ["') OR (1", "bob"]⟩,
          ⟨"range_2", .uint64 9⟩, ⟨"limit", .uint64 5⟩, ⟨"offset", .uint64 0⟩]⟩⟩ := by
    decide +kernel
  exact ⟨_, _, hs, ht, (compile_sameShape .queryLog).1 hs ht sameShape_hostileListing⟩

end QueryConsole
