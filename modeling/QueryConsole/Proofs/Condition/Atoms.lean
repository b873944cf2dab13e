import QueryConsole.Proofs.Statement.Demands
import QueryConsole.Proofs.Statement.Fragments

namespace QueryConsole

namespace Atom

def column : Atom → String
  | .atLeast column _ => column
  | .atMost column _ => column
  | .oneOf column _ => column
  | .sharesAny column _ => column
  | .mentions column _ => column

def placeholder : Atom → Placeholder
  | .atLeast _ p => p
  | .atMost _ p => p
  | .oneOf _ p => p
  | .sharesAny _ p => p
  | .mentions _ p => p

def opening : Atom → String
  | .atLeast .. => ""
  | .atMost .. => ""
  | .oneOf .. => "toString("
  | .sharesAny .. => "hasAny(arrayMap(x -> toString(x), "
  | .mentions .. => "positionCaseInsensitive(toString("

def middle : Atom → String
  | .atLeast .. => " >= "
  | .atMost .. => " <= "
  | .oneOf .. => ") IN "
  | .sharesAny .. => "), "
  | .mentions .. => "), "

def closing : Atom → String
  | .atLeast .. => ""
  | .atMost .. => ""
  | .oneOf .. => ""
  | .sharesAny .. => ")"
  | .mentions .. => ") > 0"

theorem text_eq (a : Atom) :
    a.text = a.opening ++ a.column ++ a.middle ++ a.placeholder.text ++ a.closing := by
  cases a with
  | atLeast column p =>
    change column ++ " >= " ++ p.text = "" ++ column ++ " >= " ++ p.text ++ ""
    rw [String.empty_append, String.append_empty]
  | atMost column p =>
    change column ++ " <= " ++ p.text = "" ++ column ++ " <= " ++ p.text ++ ""
    rw [String.empty_append, String.append_empty]
  | oneOf column p =>
    change "toString(" ++ column ++ ") IN " ++ p.text =
      "toString(" ++ column ++ ") IN " ++ p.text ++ ""
    rw [String.append_empty]
  | sharesAny column p => rfl
  | mentions column p => rfl

theorem isInert_opening (a : Atom) : Text.IsInert a.opening := by
  cases a <;> simp only [opening] <;> decide

theorem isInert_middle (a : Atom) : Text.IsInert a.middle := by
  cases a <;> simp only [middle] <;> decide

theorem isInert_closing (a : Atom) : Text.IsInert a.closing := by
  cases a <;> simp only [closing] <;> decide

structure WellFormed (a : Atom) : Prop where
  column : IsColumn a.column
  name : Text.IsWord a.placeholder.name

end Atom

namespace Condition

def atoms : Condition → List Atom
  | .test a => [a]
  | .anyOf as => as

structure WellFormed (c : Condition) : Prop where
  atoms_ne_nil : c.atoms ≠ []
  atoms : ∀ a ∈ c.atoms, a.WellFormed

end Condition

namespace Demand

def columns : Demand → List String
  | .notBefore column _ => [column]
  | .notAfter column _ => [column]
  | .mentions columns _ => columns
  | .oneOf field _ => [field.name]
  | .atLeast column _ => [column]
  | .atMost column _ => [column]

theorem map_column_condition (d : Demand) (p : Placeholder) :
    (d.condition p).atoms.map Atom.column = d.columns := by
  cases d with
  | mentions columns term =>
    simp only [condition, Condition.atoms, List.map_map]
    exact List.map_id columns
  | oneOf field values =>
    obtain ⟨name, kind⟩ := field
    cases kind <;> rfl
  | _ => rfl

theorem placeholder_of_mem_condition {d : Demand} {p : Placeholder} {a : Atom}
    (h : a ∈ (d.condition p).atoms) : a.placeholder = p := by
  cases d with
  | mentions columns term =>
    obtain ⟨column, -, rfl⟩ := List.mem_map.mp h
    rfl
  | oneOf field values =>
    obtain ⟨name, kind⟩ := field
    cases kind <;> cases List.mem_singleton.mp h <;> rfl
  | _ =>
    cases List.mem_singleton.mp h
    rfl

theorem condition_wellFormed {d : Demand} (hne : d.columns ≠ [])
    (h : ∀ column ∈ d.columns, IsColumn column) (position : Nat) :
    (d.condition (d.placeholder position)).WellFormed where
  atoms_ne_nil := by
    intro hnil
    apply hne
    rw [← d.map_column_condition (d.placeholder position), hnil]
    rfl
  atoms := by
    intro a ha
    constructor
    · apply h
      rw [← d.map_column_condition (d.placeholder position)]
      exact List.mem_map_of_mem ha
    · rw [placeholder_of_mem_condition ha]
      exact d.isWord_name position

end Demand

namespace Dataset

variable {d : Dataset} {rows : RowFilter} {demand : Demand}

theorem demand_columns (h : demand ∈ d.table.demands rows) :
    demand.columns ≠ [] ∧ ∀ column ∈ demand.columns, IsColumn column := by
  have single {column : String} (hcolumn : IsColumn column) :
      [column] ≠ [] ∧ ∀ c ∈ [column], IsColumn c :=
    ⟨List.cons_ne_nil _ _, List.forall_mem_singleton.mpr hcolumn⟩
  rcases Table.mem_demands.mp h with h | h | h | h
  · obtain ⟨column, hcolumn, ⟨i, -, rfl⟩ | ⟨i, -, rfl⟩⟩ := Table.mem_windowDemands.mp h
    · exact single (d.isColumn_timeColumn hcolumn)
    · exact single (d.isColumn_timeColumn hcolumn)
  · obtain ⟨term, -, hne, rfl⟩ := Table.mem_searchDemands.mp h
    exact ⟨hne, fun column => d.isColumn_searchColumn⟩
  · obtain ⟨name, values, field, -, hfield, -, rfl⟩ := Table.mem_filterDemands.mp h
    exact single (isColumn_field hfield)
  · obtain ⟨column, bounds, -, haccepts, hbound⟩ := Table.mem_rangeDemands.mp h
    rw [Bool.and_eq_true, Table.acceptsRange, List.contains_iff_mem] at haccepts
    obtain ⟨n, -, rfl⟩ | ⟨n, -, rfl⟩ := hbound
    · exact single (d.isColumn_rangeField haccepts.2)
    · exact single (d.isColumn_rangeField haccepts.2)

theorem condition_wellFormed {c : Condition} (h : c ∈ (d.table.scope rows).conditions) :
    c.WellFormed := by
  rw [Table.scope_conditions] at h
  obtain ⟨i, hi, rfl⟩ := List.mem_mapIdx.mp h
  have hcolumns := demand_columns (List.getElem_mem hi)
  exact Demand.condition_wellFormed hcolumns.1 hcolumns.2 i

end Dataset

end QueryConsole
