import QueryConsole.Proofs.Statement.Acceptance
import QueryConsole.Proofs.Statement.Rows

/-! All patterns of one request are over the same rows: their statements share source, test and the
values that the test compares with, and differ only in what they put around the rows. -/

namespace QueryConsole

universe u

def Statement.clause? (s : Statement) (keyword : String) : Option String :=
  ((s.text.toList.splitOn '\n').findSome? (keyword ++ " ").toList.isPrefixOf?).map String.ofList

def Statement.Covers {Row : Type u} (s : Statement) (I : Interpretation Row) (row : Row) : Prop :=
  ∃ f, s.rowTest? = some f ∧ f.Holds I s.bindings row

namespace Bindings

/-- The bindings before a limit and an offset at the end, if they end in such a pair. -/
def withoutPage (b : Bindings) : List Binding :=
  if (b.toList.drop (b.size - 2)).map Binding.name = ["limit", "offset"] then
    b.toList.take (b.size - 2)
  else b.toList

theorem withoutPage_of_append {b : Bindings} {bs page : List Binding}
    (h : b.toList = bs ++ page) (hpage : page.map Binding.name = ["limit", "offset"]) :
    b.withoutPage = bs := by
  have hlength : page.length = 2 := by
    simpa using congrArg List.length hpage
  have hsize : b.size - 2 = bs.length := by
    rw [size, h, List.length_append, hlength, Nat.add_sub_cancel]
  rw [withoutPage, hsize, h, List.drop_left, if_pos hpage, List.take_left]

theorem withoutPage_of_notMem {b : Bindings} (h : "offset" ∉ b.toList.map Binding.name) :
    b.withoutPage = b.toList := by
  rw [withoutPage, if_neg]
  intro hpage
  apply h
  have hmem : "offset" ∈ (b.toList.drop (b.size - 2)).map Binding.name := by
    rw [hpage]
    exact List.mem_cons_of_mem _ List.mem_cons_self
  exact List.map_subset _ (List.drop_subset _ _) hmem

end Bindings

/-- What two statements share when they are over the same rows. -/
structure SameRows (s t : Statement) : Prop where
  source : ∃ table, s.clause? "FROM" = some table ∧ t.clause? "FROM" = some table
  test : s.clause? "WHERE" = t.clause? "WHERE"
  values : s.bindings.withoutPage = t.bindings.withoutPage
  covers : ∀ {Row : Type u} (I : Interpretation Row) (row : Row), s.Covers I row ↔ t.Covers I row

namespace Scope

variable {d : Dataset} {rows : RowFilter} {shape : Shape} {page : Option Page}

theorem clause?_source (hshape : shape.IsInert) :
    ((d.table.scope rows).statement shape page).clause? "FROM" = some d.table.name := by
  have hselect (projection : String) :
      "FROM ".toList.isPrefixOf? ("SELECT " ++ projection).toList = none := by
    rw [String.toList_append]
    rfl
  have hfrom (table : String) :
      "FROM ".toList.isPrefixOf? ("FROM " ++ table).toList = some table.toList := by
    rw [String.toList_append]
    rfl
  have hkeyword : "FROM" ++ " " = "FROM " := by decide
  rw [Statement.clause?, statement_text, Select.splitOn_text (isLine_lines hshape), hkeyword]
  simp only [Select.lines, List.cons_append, List.map_cons, List.findSome?_cons, hselect, hfrom,
    Option.map_some, String.ofList_toList]
  rfl

theorem clause?_test (hshape : shape.IsInert) :
    ((d.table.scope rows).statement shape page).clause? "WHERE" =
      if (d.table.scope rows).conditions = [] then none
      else some (" AND ".intercalate ((d.table.scope rows).conditions.map Condition.text)) := by
  have hkeyword : "WHERE" ++ " " = "WHERE " := by decide
  rw [Statement.clause?, statement_text, Select.splitOn_text (isLine_lines hshape), hkeyword,
    Select.findSome?_lines, conditions_select]
  split
  · rfl
  · rw [Option.map_some, String.ofList_toList]

theorem withoutPage_statement :
    ((d.table.scope rows).statement shape page).bindings.withoutPage =
      (d.table.scope rows).bindings.toList := by
  have hpaged (page : Page) :
      ((d.table.scope rows).statement shape (some page)).bindings.toList =
        (d.table.scope rows).bindings.toList ++
          [⟨"limit", .uint64 page.limit⟩, ⟨"offset", .uint64 page.offset⟩] := by
    rw [statement_bindings, Bindings.toList_run]
    rfl
  cases page with
  | some page => exact Bindings.withoutPage_of_append (hpaged page) rfl
  | none =>
    have hnames := nodup_names_statement d.table rows shape (some ⟨0, 0⟩)
    rw [hpaged, List.map_append, List.nodup_append] at hnames
    apply Bindings.withoutPage_of_notMem
    intro hmem
    exact hnames.2.2 _ hmem _ (List.mem_cons_of_mem _ List.mem_cons_self) rfl

theorem covers_statement (hshape : shape.IsInert) {Row : Type u} {I : Interpretation Row}
    {row : Row} :
    ((d.table.scope rows).statement shape page).Covers I row ↔
      rows.selection.Admits d.table I row := by
  have hadmits : (∀ c ∈ (d.table.scope rows).conditions,
      c.Holds I ((d.table.scope rows).statement shape page).bindings row) ↔
        rows.selection.Admits d.table I row :=
    forall_conditions.trans RowFilter.forall_demands
  obtain ⟨f, hf, hholds⟩ := @rowTest?_statement d rows shape page hshape
  rw [← hadmits, ← hholds]
  constructor
  · rintro ⟨g, hg, hcovers⟩
    cases hf.symm.trans hg
    exact hcovers
  · intro hcovers
    exact ⟨f, hf, hcovers⟩

end Scope

/-- Statements that are compiled from one request are over the same rows, whatever their patterns,
fields and limits.  A request whose rows can be listed can have them counted, and the count compares
with the values of the listing and with no others. -/
theorem compile_sameRows {d : Dataset} {pattern : ReadPattern} {p : Parameters} {limits : Limits}
    {s : Statement} (hs : compile d pattern p limits = .ok s) :
    (∀ {pattern' : ReadPattern} {limits' : Limits} {t : Statement},
      compile d pattern' p limits' = .ok t → SameRows.{u} s t) ∧
    ∀ limits' : Limits, ∃ t, compile d .count p limits' = .ok t ∧
      t.bindings.toList = s.bindings.withoutPage := by
  obtain ⟨rows, page, shape, hrows, -, hshape, rfl⟩ := compile_eq_ok hs
  have hinert := Dataset.shape_isInert hshape
  constructor
  · intro pattern' limits' t ht
    obtain ⟨rows', page', shape', hrows', -, hshape', rfl⟩ := compile_eq_ok ht
    have hinert' := Dataset.shape_isInert hshape'
    obtain rfl : rows = rows' := Except.ok.inj (hrows.symm.trans hrows')
    constructor
    case source => exact ⟨_, Scope.clause?_source hinert, Scope.clause?_source hinert'⟩
    case test => rw [Scope.clause?_test hinert, Scope.clause?_test hinert']
    case values => rw [Scope.withoutPage_statement, Scope.withoutPage_statement]
    case covers =>
      intro Row I row
      rw [Scope.covers_statement hinert, Scope.covers_statement hinert']
  · intro limits'
    refine ⟨(d.table.scope rows).statement Dataset.countShape none, ?_, ?_⟩
    · simp only [compile, hrows]
      rfl
    · rw [Scope.withoutPage_statement]
      rfl

def loggedErrors : Parameters where
  start := some "2024-01-02 03:04"
  search := some " merge "
  limit := some "20"
  filters := some "\x7b\"level\": [\"Error\", \"Fatal\"]\x7d"
  rangeFilters := some "\x7b\"source_line\": \x7b\"max\": 99\x7d\x7d"

def loggedErrorsLines : String :=
  "FROM system.text_log\n" ++
    "WHERE event_time >= \x7bstart:DateTime('UTC')\x7d AND " ++
    "(positionCaseInsensitive(toString(message), \x7bsearch:String\x7d) > 0) AND " ++
    "toString(level) IN \x7bfilter_2:Array(String)\x7d AND source_line <= \x7brange_3:UInt64\x7d\n"

theorem compile_sameRows_loggedErrors :
    ∃ s t c, compile .textLog .list loggedErrors {} = .ok s ∧
      compile .textLog (.histogram "level") loggedErrors { most := 5 } = .ok t ∧
      SameRows.{0} s t ∧ compile .textLog .count loggedErrors {} = .ok c ∧
      c.bindings.toList = s.bindings.withoutPage := by
  have hs : compile .textLog .list loggedErrors {} = .ok
      ⟨"SELECT *\n" ++ loggedErrorsLines ++ "ORDER BY event_time DESC\n" ++
          "LIMIT \x7blimit:UInt64\x7d OFFSET \x7boffset:UInt64\x7d",
        ⟨[⟨"start", .dateTime "2024-01-02 03:04:00"⟩, ⟨"search", .text "merge"⟩,
          ⟨"filter_2", .textArray ["Error", "Fatal"]⟩, ⟨"range_3", .uint64 99⟩,
          ⟨"limit", .uint64 20⟩, ⟨"offset", .uint64 0⟩]⟩⟩ := by
    decide +kernel
  have ht : compile .textLog (.histogram "level") loggedErrors { most := 5 } = .ok
      ⟨"SELECT toString(level) AS value, count() AS count\n" ++ loggedErrorsLines ++
          "GROUP BY value\nORDER BY count DESC, value ASC\n" ++
          "LIMIT \x7blimit:UInt64\x7d OFFSET \x7boffset:UInt64\x7d",
        ⟨[⟨"start", .dateTime "2024-01-02 03:04:00"⟩, ⟨"search", .text "merge"⟩,
          ⟨"filter_2", .textArray ["Error", "Fatal"]⟩, ⟨"range_3", .uint64 99⟩,
          ⟨"limit", .uint64 5⟩, ⟨"offset", .uint64 0⟩]⟩⟩ := by
    decide +kernel
  obtain ⟨c, hc, hvalues⟩ := (compile_sameRows.{0} hs).2 {}
  exact ⟨_, _, c, hs, ht, (compile_sameRows hs).1 ht, hc, hvalues⟩

end QueryConsole
