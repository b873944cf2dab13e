import QueryConsole.Proofs.Statement.Tally
import QueryConsole.Proofs.Text.Trim
import Mathlib.Data.List.Nodup

namespace QueryConsole

/-- One of the texts between the commas is the name, blanks around it aside. -/
def Names (raw : Option String) (name : String) : Prop :=
  ∃ item ∈ Text.splitOn ',' (raw.getD ""), Text.trim item = name

instance (raw : Option String) (name : String) : Decidable (Names raw name) :=
  inferInstanceAs (Decidable (∃ item ∈ _, _))

theorem mem_eventNames {p : Parameters} {name : String} (hne : name ≠ "") :
    name ∈ p.eventNames ↔ Names p.eventColumns name := by
  rw [Parameters.eventNames, List.mem_filterMap, Names]
  apply exists_congr
  intro item
  apply and_congr_right
  intro _
  rw [Text.given]
  split
  · next hblank =>
    have htrim : Text.trim item = "" := Text.trim_eq_empty_iff.mpr hblank
    simp [htrim, Ne.symm hne]
  · rw [Option.some.injEq]

namespace Categories

/-- The listed categories that are named, in the order of the list; all of them if none is. -/
structure IsSelection (c : Categories) (raw : Option String) (shown : List String) : Prop where
  sublist : shown.Sublist c.values
  nodup : shown.Nodup
  mem_iff : ∀ value, value ∈ shown ↔
    value ∈ c.values ∧ (Names raw value ∨ ∀ other ∈ c.values, ¬ Names raw other)

/-- Others are of no category in the whole list, not of none that is shown. -/
def tallies (c : Categories) (shown : List String) : List Tally :=
  shown.map (.one c.column) ++ [.others c.column c.values]

def series (c : Categories) (shown : List String) : List (String × Option Tally) :=
  ("bucket", none) :: (c.tallies shown).map fun t => (t.label, some t)

variable {c : Categories} {wanted shown : List String}

theorem mem_shown {value : String} :
    value ∈ c.shown wanted ↔
      value ∈ c.values ∧ (value ∈ wanted ∨ ∀ other ∈ c.values, other ∉ wanted) := by
  rw [Categories.shown]
  split
  · next hempty =>
    have hnone : ∀ other ∈ c.values, other ∉ wanted := by simpa using hempty
    exact ⟨fun h => ⟨h, .inr hnone⟩, And.left⟩
  · next hchosen =>
    have hsome : ¬ ∀ other ∈ c.values, other ∉ wanted := by simpa using hchosen
    rw [List.mem_filter, List.contains_iff_mem, or_iff_left hsome]

theorem shown_of_none (h : ∀ value ∈ c.values, value ∉ wanted) : c.shown wanted = c.values := by
  rw [Categories.shown, if_pos (by simpa using h)]

theorem timesCounted_series (row : String → String) :
    timesCounted (c.series shown) row =
      shown.count (row c.column) + if row c.column ∈ c.values then 0 else 1 := by
  have hone : (shown.map (Tally.one c.column)).countP (·.counts row) =
      shown.count (row c.column) := by
    rw [List.countP_map, List.count]
    apply List.countP_congr
    intro value _
    simp only [Function.comp_apply, Tally.counts, beq_iff_eq]
    exact eq_comm
  have htallies : timesCounted (c.series shown) row = (c.tallies shown).countP (·.counts row) := by
    rw [timesCounted, series, List.countP_cons, List.countP_map]
    rfl
  rw [htallies, tallies, List.countP_append, hone]
  by_cases hmem : row c.column ∈ c.values <;> simp [Tally.counts, hmem]

theorem timesCounted_le_one (hsub : shown.Sublist c.values) (hnodup : shown.Nodup)
    (row : String → String) : timesCounted (c.series shown) row ≤ 1 := by
  rw [timesCounted_series]
  split
  · exact List.nodup_iff_count_le_one.mp hnodup _
  · next hother =>
    rw [List.count_eq_zero_of_not_mem fun hmem => hother (hsub.subset hmem), Nat.zero_add]

theorem timesCounted_values (hnodup : c.values.Nodup) (row : String → String) :
    timesCounted (c.series c.values) row = 1 := by
  rw [timesCounted_series]
  split
  · next hmem => rw [List.count_eq_one_of_mem hnodup hmem]
  · next hother => rw [List.count_eq_zero_of_not_mem hother]

end Categories

namespace Dataset

variable {d : Dataset} {c : Categories} {time : String}

theorem category_values (hc : d.table.categories = some c) :
    c.values ≠ [] ∧ c.values.Nodup ∧ ∀ value ∈ c.values, Text.IsWord value := by
  have hlisted : ∀ c ∈ d.table.categories.toList,
      c.values ≠ [] ∧ c.values.Nodup ∧ ∀ value ∈ c.values, Text.IsWord value := by
    cases d <;> decide +kernel
  exact hlisted c (by simp [hc])

theorem column_ne_as (d : Dataset) : ∀ column ∈ d.table.columns, column ≠ "AS" := by
  cases d <;> decide +kernel

theorem stackedShape_eq (htime : d.table.timeColumn = some time)
    (hc : d.table.categories = some c) (p : Parameters) :
    d.stackedShape p = .ok (bucketed (bucketColumn time p.bucketWidth ::
      (c.tallies (c.shown p.eventNames)).map Tally.column)) := by
  rw [stackedShape, htime, hc, Categories.tallies, List.map_append, List.map_map]
  rfl

theorem isReadable_of_mem_tallies (hc : d.table.categories = some c) {shown : List String}
    (hshown : shown ⊆ c.values) : ∀ t ∈ c.tallies shown, t.IsReadable := by
  obtain ⟨hne, -, hwords⟩ := category_values hc
  have hcolumn : Text.IsWord c.column := (d.isColumn_category hc).isWord
  have has : c.column ≠ "AS" := d.column_ne_as _ (by simp [Table.columns, hc])
  intro t ht
  rw [Categories.tallies, List.mem_append, List.mem_map, List.mem_singleton] at ht
  obtain ⟨value, hvalue, rfl⟩ | rfl := ht
  · refine .one hcolumn has ?_
    intro hquote
    exact absurd (List.all_eq_true.mp (hwords value (hshown hvalue)).2 _ hquote) (by decide)
  · exact .others hcolumn has hne

theorem projection_stacked {s : Scope} {tallies : List Tally} (hne : tallies ≠ []) (b : Bucket)
    (clause : Option PageClause) :
    (s.select (bucketed (bucketColumn time b :: tallies.map Tally.column)) clause).projection =
      (bucketColumn time b).text ++ ", " ++
        ", ".intercalate (tallies.map fun t => t.column.text) := by
  obtain ⟨t, tallies, rfl⟩ := List.exists_cons_of_ne_nil hne
  simp only [Select.projection, Scope.select, bucketed, List.map_cons, List.map_map,
    String.intercalate_cons_cons, Bool.false_eq_true, if_false, String.empty_append]
  rfl

theorem series?_statement (htime : d.table.timeColumn = some time)
    (hc : d.table.categories = some c) {shown : List String} (hshown : shown ⊆ c.values)
    {b : Bucket} {rows : RowFilter} {page : Option Page} {shape : Shape}
    (hshape : shape = bucketed (bucketColumn time b :: (c.tallies shown).map Tally.column))
    (hinert : shape.IsInert) :
    ((d.table.scope rows).statement shape page).series? = some (c.series shown) := by
  have hreadable := isReadable_of_mem_tallies hc hshown
  have hne : c.tallies shown ≠ [] := by simp [Categories.tallies]
  have hword : Text.IsWord time := (d.isColumn_timeColumn htime).isWord
  have has : time ≠ "AS" := d.column_ne_as _ (by simp [Table.columns, htime])
  have hread := (reads_bucketColumn hword b).append
    (.intercalate fun t ht => (hreadable t ht).reads)
  have hcolumns : readColumns? [] ([.sign ','].intercalate
      ((c.tallies shown).map fun t => t.expression ++ [.word "AS", .name t.label])) =
        some ((c.tallies shown).map fun t => (t.expression, t.label)) := by
    have hcolumns := @readColumns?_intercalate
      ((c.tallies shown).map fun t => (t.expression, t.label)) (by simpa using hne)
      (by simpa using fun t ht => (hreadable t ht).as_notMem_expression)
    rwa [List.map_map] at hcolumns
  have hmeant : ((c.tallies shown).map fun t => (t.expression, t.label)).map
      (fun column => (column.2, Tally.ofLexemes? column.1)) =
        (c.tallies shown).map fun t => (t.label, some t) := by
    rw [List.map_map]
    apply List.map_congr_left
    intro t ht
    simp only [Function.comp_apply, (hreadable t ht).ofLexemes?_expression]
  rw [Statement.series?, Statement.columns?, Scope.clause?_projection hinert, hshape,
    projection_stacked hne, Option.bind_some, hread.scan?, Option.bind_some,
    readColumns?_append (as_notMem_bucketExpression has b) rfl, hcolumns]
  simp only [Option.map_some, List.map_cons, hmeant]
  rfl

theorem mem_eventNames_iff (hc : d.table.categories = some c) (p : Parameters) :
    ∀ value ∈ c.values, (value ∈ p.eventNames ↔ Names p.eventColumns value) := by
  obtain ⟨-, -, hwords⟩ := category_values hc
  intro value hvalue
  apply mem_eventNames
  rintro rfl
  exact (hwords _ hvalue).1 rfl

theorem isSelection_shown (hc : d.table.categories = some c) (p : Parameters) :
    c.IsSelection p.eventColumns (c.shown p.eventNames) where
  sublist := c.shown_sublist _
  nodup := (category_values hc).2.1.sublist (c.shown_sublist _)
  mem_iff value := by
    have hnames := mem_eventNames_iff hc p
    rw [Categories.mem_shown]
    apply and_congr_right
    intro hvalue
    exact or_congr (hnames value hvalue) (forall₂_congr fun other h => not_congr (hnames other h))

end Dataset

theorem compile_stacked_eq {d : Dataset} {time : String} {c : Categories}
    (htime : d.table.timeColumn = some time) (hc : d.table.categories = some c)
    (p : Parameters) (limits : Limits) :
    compile d .stacked p limits = p.rowFilter.map fun rows =>
      (d.table.scope rows).statement (bucketed (bucketColumn time p.bucketWidth ::
        (c.tallies (c.shown p.eventNames)).map Tally.column)) none := by
  rw [compile, Dataset.shape, Dataset.stackedShape_eq htime hc]
  cases p.rowFilter <;> rfl

theorem exists_compile_stacked {d : Dataset} {time : String} {c : Categories}
    (htime : d.table.timeColumn = some time) (hc : d.table.categories = some c) (p : Parameters)
    (limits : Limits) :
    (∃ s, compile d .stacked p limits = .ok s) ↔ ∃ rows, p.rowFilter = .ok rows := by
  rw [compile_stacked_eq htime hc]
  cases p.rowFilter <;> simp [Except.map]

/-- A stacked series shows the listed categories that are named and counts the rows of all others
apart.  A row is counted at most once, and it is counted if no listed category is named.  Nothing
else of the names matters: neither their order and repeats, nor blanks and unknown names. -/
theorem compile_stacked {d : Dataset} {time : String} {c : Categories}
    (htime : d.table.timeColumn = some time) (hc : d.table.categories = some c)
    (p : Parameters) (limits : Limits) :
    (∀ s, compile d .stacked p limits = .ok s →
      ∃ shown, c.IsSelection p.eventColumns shown ∧ s.series? = some (c.series shown) ∧
        ∀ row, timesCounted (c.series shown) row ≤ 1 ∧
          ((∀ value ∈ c.values, ¬ Names p.eventColumns value) →
            timesCounted (c.series shown) row = 1)) ∧
    ∀ raw, (∀ value ∈ c.values, (Names p.eventColumns value ↔ Names raw value)) →
      compile d .stacked { p with eventColumns := raw } limits = compile d .stacked p limits := by
  have hselection := Dataset.isSelection_shown hc p
  constructor
  · intro s hs
    obtain ⟨rows, page, shape, -, -, hshape, rfl⟩ := compile_eq_ok hs
    have heq := Except.ok.inj (hshape.symm.trans (Dataset.stackedShape_eq htime hc p))
    refine ⟨_, hselection, ?_, ?_⟩
    · exact Dataset.series?_statement htime hc hselection.sublist.subset heq
        (Dataset.stackedShape_isInert hshape)
    · intro row
      refine ⟨Categories.timesCounted_le_one hselection.sublist hselection.nodup row, ?_⟩
      intro hnone
      have hall : c.shown p.eventNames = c.values := Categories.shown_of_none fun value hvalue =>
        mt (Dataset.mem_eventNames_iff hc p value hvalue).mp (hnone value hvalue)
      rw [hall]
      exact Categories.timesCounted_values (Dataset.category_values hc).2.1 row
  · intro raw hraw
    have hshown : c.shown ({ p with eventColumns := raw } : Parameters).eventNames =
        c.shown p.eventNames := by
      apply Categories.shown_congr
      intro value hvalue
      rw [Dataset.mem_eventNames_iff hc p value hvalue, hraw value hvalue,
        Dataset.mem_eventNames_iff hc _ value hvalue]
    rw [compile_stacked_eq htime hc, compile_stacked_eq htime hc, hshown]
    rfl

def namedLevels : Parameters where
  eventColumns := some "Error ,x) AS y FROM secrets --,\tFatal,Error"

def unknownLevel : Parameters where
  eventColumns := some "error,,x"

def loggedLevels : Categories where
  column := "level"
  values :=
    ["Fatal", "Critical", "Error", "Warning", "Notice", "Information", "Debug", "Trace"]

theorem compile_stacked_namedLevels :
    ∃ s shown, compile .textLog .stacked namedLevels {} = .ok s ∧
      s.series? = some (loggedLevels.series shown) ∧ shown.Nodup ∧
      (∀ value, value ∈ shown ↔ value ∈ ["Fatal", "Error"]) ∧
      (∀ row, timesCounted (loggedLevels.series shown) row ≤ 1) ∧
      compile .textLog .stacked { namedLevels with eventColumns := some "Fatal,Error" } {} =
        .ok s ∧
      ∃ t all, compile .textLog .stacked unknownLevel {} = .ok t ∧
        t.series? = some (loggedLevels.series all) ∧
        ∀ row, timesCounted (loggedLevels.series all) row = 1 := by
  have hrows : namedLevels.rowFilter = .ok ⟨⟨none, none⟩, none, [], []⟩ := by decide +kernel
  have htime : Dataset.textLog.table.timeColumn = some "event_time" := rfl
  have hc : Dataset.textLog.table.categories = some loggedLevels := rfl
  obtain ⟨s, hs⟩ := (exists_compile_stacked htime hc namedLevels {}).mpr ⟨_, hrows⟩
  obtain ⟨hseries, hsame⟩ := compile_stacked htime hc namedLevels {}
  obtain ⟨shown, hselection, hread, hrow⟩ := hseries s hs
  have hnames : ∀ value ∈ loggedLevels.values, ((Names namedLevels.eventColumns value ∨
      ∀ other ∈ loggedLevels.values, ¬ Names namedLevels.eventColumns other) ↔
        value ∈ ["Fatal", "Error"]) := by
    decide +kernel
  have hlisted : ["Fatal", "Error"] ⊆ loggedLevels.values := by decide
  refine ⟨s, shown, hs, hread, hselection.nodup, ?_, fun row => (hrow row).1, ?_, ?_⟩
  · intro value
    rw [hselection.mem_iff, and_congr_right (hnames value)]
    exact and_iff_right_of_imp fun hvalue => hlisted hvalue
  · rw [hsame _ (by decide +kernel), hs]
  · obtain ⟨t, ht⟩ := (exists_compile_stacked htime hc unknownLevel {}).mpr ⟨_, hrows⟩
    obtain ⟨all, -, hread, hrow⟩ := (compile_stacked htime hc unknownLevel {}).1 t ht
    exact ⟨t, all, ht, hread, fun row => (hrow row).2 (by decide +kernel)⟩

end QueryConsole
