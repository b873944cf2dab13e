import QueryConsole.Dataset.Tables
import QueryConsole.Proofs.Text.Braces

namespace QueryConsole

def IsColumn (name : String) : Prop :=
  Text.isIdentifier name = true ∧
    Text.sameWord name "AND" = false ∧ Text.sameWord name "OR" = false

instance (name : String) : Decidable (IsColumn name) :=
  inferInstanceAs (Decidable (_ ∧ _ ∧ _))

theorem IsColumn.isWord {name : String} (h : IsColumn name) : Text.IsWord name :=
  Text.isWord_of_isIdentifier h.1

theorem IsColumn.isInert {name : String} (h : IsColumn name) : Text.IsInert name :=
  h.isWord.isInert

namespace Table

def columns (t : Table) : List String :=
  t.timeColumn.toList ++ t.defaultSort :: t.scalarFields ++ t.arrayFields ++ t.rangeFields ++
    t.searchColumns ++ t.measures ++ (t.categories.map (·.column)).toList ++
    t.summaries.flatMap fun s => s.defaultSort :: s.keys ++ s.aggregates.map (·.label)

def fragments (t : Table) : List String :=
  t.name :: (t.categories.toList.flatMap (·.values)) ++
    t.summaries.flatMap fun s => s.aggregates.map (·.expression)

end Table

namespace Dataset

theorem isColumn_columns (d : Dataset) : ∀ column ∈ d.table.columns, IsColumn column := by
  cases d <;> decide +kernel

theorem isInert_fragments (d : Dataset) : ∀ s ∈ d.table.fragments, Text.IsInert s := by
  cases d <;> decide +kernel

theorem searchColumns_ne_nil (d : Dataset) : d.table.searchColumns ≠ [] := by
  cases d <;> decide

theorem arrayFields_disjoint (d : Dataset) :
    ∀ name ∈ d.table.arrayFields, name ∉ d.table.scalarFields := by
  cases d <;> decide +kernel

variable (d : Dataset)

theorem isColumn_timeColumn {column : String} (h : d.table.timeColumn = some column) :
    IsColumn column :=
  d.isColumn_columns column (by simp [Table.columns, h])

theorem isColumn_defaultSort : IsColumn d.table.defaultSort :=
  d.isColumn_columns _ (by simp [Table.columns])

theorem isColumn_scalarField {name : String} (h : name ∈ d.table.scalarFields) : IsColumn name :=
  d.isColumn_columns name (by simp [Table.columns, h])

theorem isColumn_arrayField {name : String} (h : name ∈ d.table.arrayFields) : IsColumn name :=
  d.isColumn_columns name (by simp [Table.columns, h])

theorem isColumn_rangeField {name : String} (h : name ∈ d.table.rangeFields) : IsColumn name :=
  d.isColumn_columns name (by simp [Table.columns, h])

theorem isColumn_searchColumn {name : String} (h : name ∈ d.table.searchColumns) :
    IsColumn name :=
  d.isColumn_columns name (by simp [Table.columns, h])

theorem isColumn_measure {name : String} (h : name ∈ d.table.measures) : IsColumn name :=
  d.isColumn_columns name (by simp [Table.columns, h])

theorem isColumn_category {c : Categories} (h : d.table.categories = some c) :
    IsColumn c.column :=
  d.isColumn_columns _ (by simp [Table.columns, h])

theorem isColumn_summary {s : Summary} (hs : s ∈ d.table.summaries) {column : String}
    (h : column ∈ s.defaultSort :: s.keys ++ s.aggregates.map (·.label)) : IsColumn column := by
  apply d.isColumn_columns
  rw [Table.columns]
  exact List.mem_append_right _ (List.mem_flatMap.mpr ⟨s, hs, h⟩)

end Dataset

end QueryConsole
