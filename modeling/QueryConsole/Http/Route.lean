import QueryConsole.Http.Form
import QueryConsole.Statement.Pattern

namespace QueryConsole.Http

inductive View : Type
  | rows : (dataset : String) → ReadPattern → View
  | total : (dataset : String) → View
  | preview : (dataset pattern : String) → View
  deriving DecidableEq

inductive Route : Type
  | health : Route
  | adhoc : Route
  | explain : Route
  | view : View → Route
  deriving DecidableEq

def View.decode? : View → Option View
  | .rows dataset (.histogram field) =>
    (decodeSegment? dataset).bind fun dataset =>
      (decodeSegment? field).map fun field => .rows dataset (.histogram field)
  | .rows dataset (.distinct field) =>
    (decodeSegment? dataset).bind fun dataset =>
      (decodeSegment? field).map fun field => .rows dataset (.distinct field)
  | .rows dataset pattern => (decodeSegment? dataset).map fun dataset => .rows dataset pattern
  | .total dataset => (decodeSegment? dataset).map .total
  | .preview dataset pattern =>
    (decodeSegment? dataset).bind fun dataset =>
      (decodeSegment? pattern).map fun pattern => .preview dataset pattern

namespace Route

def viewOf (name : String) (view : View) : Option Route :=
  if name.isEmpty then none else some (.view view)

def ofSegments? : List String → Option Route
  | ["", "healthz"] => some .health
  | ["", "api", "adhoc"] => some .adhoc
  | ["", "api", "explain"] => some .explain
  | ["", "api", dataset] => viewOf dataset (.rows dataset .list)
  | ["", "api", dataset, "count"] => some (.view (.total dataset))
  | ["", "api", dataset, "timeseries"] => some (.view (.rows dataset .timeSeries))
  | ["", "api", dataset, "stacked"] => some (.view (.rows dataset .stacked))
  | ["", "api", dataset, "summary"] => some (.view (.rows dataset .summary))
  | ["", "api", dataset, "histogram", field] => viewOf field (.rows dataset (.histogram field))
  | ["", "api", dataset, "distinct", field] => viewOf field (.rows dataset (.distinct field))
  | ["", "api", dataset, "translate", pattern] => viewOf pattern (.preview dataset pattern)
  | _ => none

def takesBody : Route → Bool
  | .adhoc | .explain => true
  | .health | .view _ => false

def isGuarded : Route → Bool
  | .health => false
  | .adhoc | .explain | .view _ => true

def serves (route : Route) (method : String) : Bool :=
  if route.takesBody then method == "POST" else method == "GET" || method == "HEAD"

def omitsBody (route : Route) (method : String) : Bool :=
  !route.takesBody && method == "HEAD"

end Route

end QueryConsole.Http
