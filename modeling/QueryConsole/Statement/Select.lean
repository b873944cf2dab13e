import QueryConsole.Statement.Condition

namespace QueryConsole

inductive SortOrder : Type
  | ascending : SortOrder
  | descending : SortOrder
  deriving DecidableEq

def SortOrder.text : SortOrder → String
  | .ascending => "ASC"
  | .descending => "DESC"

structure SortKey where
  column : String
  order : SortOrder
  deriving DecidableEq

def SortKey.text (k : SortKey) : String :=
  k.column ++ " " ++ k.order.text

def literalEscape? (c : Char) : Option Char :=
  if c = '\\' ∨ c = '\'' then some c else none

def quoteLiteral (s : String) : String :=
  "'" ++ String.ofList (escapeWith literalEscape? s.toList) ++ "'"

inductive Column : Type
  | everything : Column
  | plain : (name : String) → Column
  | named : (expression label : String) → Column
  | countOf : (column value : String) → Column
  | countOthers : (column : String) → (values : List String) → Column
  deriving DecidableEq

def Column.text : Column → String
  | .everything => "*"
  | .plain name => name
  | .named expression label => expression ++ " AS " ++ label
  | .countOf column value =>
    "countIf(" ++ column ++ " = " ++ quoteLiteral value ++ ") AS `" ++ value ++ "`"
  | .countOthers column values =>
    "countIf(" ++ column ++ " NOT IN (" ++ ", ".intercalate (values.map quoteLiteral) ++
      ")) AS `Other`"

structure PageClause where
  limit : Placeholder
  offset : Placeholder
  deriving DecidableEq

def PageClause.text (p : PageClause) : String :=
  "LIMIT " ++ p.limit.text ++ " OFFSET " ++ p.offset.text

structure Select where
  distinct : Bool
  columns : List Column
  table : String
  conditions : List Condition
  groupBy : List String
  orderBy : List SortKey
  page : Option PageClause
  deriving DecidableEq

namespace Select

def projection (s : Select) : String :=
  (if s.distinct then "DISTINCT " else "") ++ ", ".intercalate (s.columns.map Column.text)

def clause (keyword separator : String) (items : List String) : List String :=
  if items.isEmpty then [] else [keyword ++ " " ++ separator.intercalate items]

def lines (s : Select) : List String :=
  ["SELECT " ++ s.projection, "FROM " ++ s.table] ++
    clause "WHERE" " AND " (s.conditions.map Condition.text) ++
    clause "GROUP BY" ", " s.groupBy ++
    clause "ORDER BY" ", " (s.orderBy.map SortKey.text) ++
    (s.page.map PageClause.text).toList

def text (s : Select) : String :=
  "\n".intercalate s.lines

end Select

end QueryConsole
