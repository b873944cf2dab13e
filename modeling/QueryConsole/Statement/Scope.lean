import QueryConsole.Dataset.Tables
import QueryConsole.Request.RowFilter

/-! The rows that a request is over, as conditions of a statement.  Each demand on a row binds one
value, and the demands of a request have a fixed order, so all patterns of one request share their
table, conditions and bindings. -/

namespace QueryConsole

inductive Demand : Type
  | notBefore : (column : String) → Calendar.Instant → Demand
  | notAfter : (column : String) → Calendar.Instant → Demand
  | mentions : (columns : List String) → (term : String) → Demand
  | oneOf : Field → (values : List String) → Demand
  | atLeast : (column : String) → UInt64 → Demand
  | atMost : (column : String) → UInt64 → Demand
  deriving DecidableEq

namespace Demand

def value : Demand → Value
  | .notBefore _ t => .dateTime t.text
  | .notAfter _ t => .dateTime t.text
  | .mentions _ term => .text term
  | .oneOf _ values => .textArray values
  | .atLeast _ n => .uint64 n
  | .atMost _ n => .uint64 n

def bind (d : Demand) (b : Bindings) : Bindings × Placeholder :=
  match d with
  | .notBefore .. => b.bindNamed "start" d.value
  | .notAfter .. => b.bindNamed "end" d.value
  | .mentions .. => b.bindNamed "search" d.value
  | .oneOf .. => b.bind "filter" d.value
  | .atLeast .. => b.bind "range" d.value
  | .atMost .. => b.bind "range" d.value

def condition (p : Placeholder) : Demand → Condition
  | .notBefore column _ => .test (.atLeast column p)
  | .notAfter column _ => .test (.atMost column p)
  | .mentions columns _ => .anyOf (columns.map fun column => .mentions column p)
  | .oneOf ⟨name, .scalar⟩ _ => .test (.oneOf name p)
  | .oneOf ⟨name, .arrayOfText⟩ _ => .test (.sharesAny name p)
  | .atLeast column _ => .test (.atLeast column p)
  | .atMost column _ => .test (.atMost column p)

def bindAll (b : Bindings) : List Demand → Bindings × List Condition
  | [] => (b, [])
  | d :: ds =>
    let (b, p) := d.bind b
    let (b, conditions) := bindAll b ds
    (b, d.condition p :: conditions)

end Demand

namespace Table

def windowDemands (t : Table) (w : Calendar.Window) : List Demand :=
  match t.timeColumn with
  | none => []
  | some column =>
    (w.start.map (.notBefore column)).toList ++ (w.effectiveEnd.map (.notAfter column)).toList

def searchDemands (t : Table) (search : Option String) : List Demand :=
  match search with
  | none => []
  | some term => if t.searchColumns.isEmpty then [] else [.mentions t.searchColumns term]

/-- Fields that the table does not know and empty lists ask for nothing. -/
def filterDemands (t : Table) (filters : ValueFilters) : List Demand :=
  filters.filterMap fun (name, values) =>
    match t.field? name with
    | none => none
    | some field => if values.isEmpty then none else some (.oneOf field values)

def rangeDemands (t : Table) (ranges : RangeFilters) : List Demand :=
  ranges.flatMap fun (column, bounds) =>
    if Text.isIdentifier column && t.acceptsRange column then
      (bounds.least.map (.atLeast column)).toList ++ (bounds.greatest.map (.atMost column)).toList
    else []

def demands (t : Table) (r : RowFilter) : List Demand :=
  t.windowDemands r.window ++ t.searchDemands r.search ++ t.filterDemands r.filters ++
    t.rangeDemands r.ranges

end Table

structure Scope where
  table : String
  conditions : List Condition
  bindings : Bindings
  deriving DecidableEq

def Table.scope (t : Table) (r : RowFilter) : Scope :=
  let (bindings, conditions) := Demand.bindAll ∅ (t.demands r)
  ⟨t.name, conditions, bindings⟩

end QueryConsole
