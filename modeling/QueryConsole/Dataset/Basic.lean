import QueryConsole.Text.Blank

namespace QueryConsole

inductive Dataset : Type
  | queryLog : Dataset
  | parts : Dataset
  | processes : Dataset
  | merges : Dataset
  | mutations : Dataset
  | partLog : Dataset
  | textLog : Dataset
  | viewRefreshes : Dataset
  deriving DecidableEq

inductive FieldKind : Type
  | scalar : FieldKind
  | arrayOfText : FieldKind
  deriving DecidableEq

structure Field where
  name : String
  kind : FieldKind
  deriving DecidableEq

/-- A column whose listed values split a stacked series. -/
structure Categories where
  column : String
  values : List String
  deriving DecidableEq

structure Aggregate where
  expression : String
  label : String
  deriving DecidableEq

structure Summary where
  name : String
  keys : List String
  aggregates : List Aggregate
  defaultSort : String
  deriving DecidableEq

def Summary.sortable (s : Summary) (column : String) : Bool :=
  s.keys.contains column || s.aggregates.any fun a => a.label == column

structure Table where
  name : String
  timeColumn : Option String
  defaultSort : String
  scalarFields : List String
  arrayFields : List String
  rangeFields : List String
  searchColumns : List String
  measures : List String
  categories : Option Categories
  summaries : List Summary
  deriving DecidableEq

namespace Table

def sortable (t : Table) (column : String) : Bool :=
  column == t.defaultSort || t.timeColumn == some column || t.scalarFields.contains column

def acceptsRange (t : Table) (column : String) : Bool :=
  t.rangeFields.contains column

def field? (t : Table) (name : String) : Option Field :=
  if t.arrayFields.contains name then some ⟨name, .arrayOfText⟩
  else if t.scalarFields.contains name then some ⟨name, .scalar⟩
  else none

def summary? (t : Table) (name : Option String) : Option Summary :=
  match Text.given name with
  | none => t.summaries.head?
  | some wanted => t.summaries.find? fun s => s.name == wanted

end Table

namespace Dataset

def all : List Dataset :=
  [.queryLog, .parts, .processes, .merges, .mutations, .partLog, .textLog, .viewRefreshes]

def name : Dataset → String
  | .queryLog => "query_log"
  | .parts => "parts"
  | .processes => "processes"
  | .merges => "merges"
  | .mutations => "mutations"
  | .partLog => "part_log"
  | .textLog => "text_log"
  | .viewRefreshes => "view_refreshes"

def ofName? (s : String) : Option Dataset :=
  all.find? fun d => d.name == s

@[simp] theorem ofName?_name (d : Dataset) : ofName? d.name = some d := by
  cases d <;> decide

end Dataset

end QueryConsole
