import QueryConsole.Statement.Scope

namespace QueryConsole

inductive ReadPattern : Type
  | list : ReadPattern
  | count : ReadPattern
  | timeSeries : ReadPattern
  | stacked : ReadPattern
  | summary : ReadPattern
  | histogram : (field : String) → ReadPattern
  | distinct : (field : String) → ReadPattern
  deriving DecidableEq

/-- What a pattern puts around the rows of a request. -/
structure Shape where
  distinct : Bool := false
  columns : List Column
  groupBy : List String := []
  orderBy : List SortKey := []
  deriving DecidableEq

namespace ReadPattern

def name : ReadPattern → String
  | .list => "list"
  | .count => "count"
  | .timeSeries => "timeseries"
  | .stacked => "stacked"
  | .summary => "summary"
  | .histogram _ => "histogram"
  | .distinct _ => "distinct"

def field? : ReadPattern → Option String
  | .histogram field | .distinct field => some field
  | _ => none

def text (p : ReadPattern) : String :=
  match p.field? with
  | some field => p.name ++ "(" ++ field ++ ")"
  | none => p.name

def ofName (name : String) (field : Option String) : Except Failure ReadPattern :=
  match name with
  | "list" => .ok .list
  | "count" => .ok .count
  | "timeseries" => .ok .timeSeries
  | "stacked" => .ok .stacked
  | "summary" => .ok .summary
  | "histogram" => withField .histogram
  | "distinct" => withField .distinct
  | _ => .error (.invalid (.unknownPattern name))
where
  withField (pattern : String → ReadPattern) : Except Failure ReadPattern :=
    match Text.given field with
    | some field => .ok (pattern field)
    | none => .error (.invalid (.fieldMissing name))

def isPaged : ReadPattern → Bool
  | .list | .summary | .histogram _ | .distinct _ => true
  | .count | .timeSeries | .stacked => false

def page (pattern : ReadPattern) (p : Parameters) (limits : Limits) :
    Except Failure (Option Page) :=
  if pattern.isPaged then (p.page limits).map some else .ok none

end ReadPattern

def bucketColumn (timeColumn : String) (b : Bucket) : Column :=
  .named ("toStartOfInterval(" ++ timeColumn ++ ", " ++ b.interval ++ ")") "bucket"

def rate (perSecond : Bool) (b : Bucket) (expression : String) : String :=
  if perSecond then expression ++ " / " ++ toString b.seconds else expression

def measureColumns (perSecond : Bool) (b : Bucket) (measure : String) : List Column :=
  [.named ("avg(" ++ measure ++ ")") ("avg_" ++ measure),
   .named ("min(" ++ measure ++ ")") ("min_" ++ measure),
   .named ("max(" ++ measure ++ ")") ("max_" ++ measure),
   .named (rate perSecond b ("sum(" ++ measure ++ ")")) ("sum_" ++ measure)]

def bucketed (columns : List Column) : Shape :=
  { columns, groupBy := ["bucket"], orderBy := [⟨"bucket", .ascending⟩] }

def Categories.shown (c : Categories) (wanted : List String) : List String :=
  let chosen := c.values.filter fun value => wanted.contains value
  if chosen.isEmpty then c.values else chosen

def Field.valueExpression : Field → String
  | ⟨name, .scalar⟩ => "toString(" ++ name ++ ")"
  | ⟨name, .arrayOfText⟩ => "toString(arrayJoin(" ++ name ++ "))"

namespace Dataset

def listShape (d : Dataset) (p : Parameters) : Shape :=
  { columns := [.everything]
    orderBy := [p.sort.keyOr d.table.sortable d.table.defaultSort] }

def countShape : Shape :=
  { columns := [.named "count()" "total"] }

def seriesShape (d : Dataset) (p : Parameters) : Except Failure Shape :=
  match d.table.timeColumn with
  | some column =>
    if d.table.measures.isEmpty then .error (.invalid (.seriesUnavailable d))
    else
      .ok (bucketed (bucketColumn column p.bucketWidth ::
        .named (rate p.perSecond p.bucketWidth "count()") "count" ::
        d.table.measures.flatMap (measureColumns p.perSecond p.bucketWidth)))
  | none => .error (.invalid (.seriesUnavailable d))

def stackedShape (d : Dataset) (p : Parameters) : Except Failure Shape :=
  match d.table.timeColumn, d.table.categories with
  | some column, some c =>
    .ok (bucketed (bucketColumn column p.bucketWidth ::
      (c.shown p.eventNames).map (.countOf c.column) ++ [.countOthers c.column c.values]))
  | _, _ => .error (.invalid (.stackedUnavailable d))

def summaryShape (d : Dataset) (p : Parameters) : Except Failure Shape :=
  match d.table.summary? p.groupBy with
  | some s =>
    .ok
      { columns := s.keys.map .plain ++ s.aggregates.map fun a => .named a.expression a.label
        groupBy := s.keys
        orderBy := [p.sort.keyOr s.sortable s.defaultSort] }
  | none => .error (.invalid (.summaryUnavailable p.groupBy d))

def selectable (d : Dataset) (pattern : ReadPattern) (field : String) : Except Failure Field :=
  match d.table.field? field with
  | some f => .ok f
  | none => .error (.invalid (.fieldUnavailable field pattern.name d))

def histogramShape (f : Field) : Shape :=
  { columns := [.named f.valueExpression "value", .named "count()" "count"]
    groupBy := ["value"]
    orderBy := [⟨"count", .descending⟩, ⟨"value", .ascending⟩] }

def distinctShape (f : Field) : Shape :=
  { distinct := true
    columns := [.named f.valueExpression "value"]
    orderBy := [⟨"value", .ascending⟩] }

def shape (d : Dataset) (pattern : ReadPattern) (p : Parameters) : Except Failure Shape :=
  match pattern with
  | .list => .ok (d.listShape p)
  | .count => .ok countShape
  | .timeSeries => d.seriesShape p
  | .stacked => d.stackedShape p
  | .summary => d.summaryShape p
  | .histogram field => (d.selectable pattern field).map histogramShape
  | .distinct field => (d.selectable pattern field).map distinctShape

end Dataset

end QueryConsole
