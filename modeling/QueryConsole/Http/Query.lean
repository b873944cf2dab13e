import QueryConsole.Http.Form
import QueryConsole.Http.Response
import QueryConsole.Request.Parameters

namespace QueryConsole

def Parameters.assign (p : Parameters) (name value : String) : Option Parameters :=
  match name with
  | "start" => once p.start { p with start := some value }
  | "end" => once p.finish { p with finish := some value }
  | "search" => once p.search { p with search := some value }
  | "limit" => once p.limit { p with limit := some value }
  | "offset" => once p.offset { p with offset := some value }
  | "sortField" => once p.sortField { p with sortField := some value }
  | "sortOrder" => once p.sortOrder { p with sortOrder := some value }
  | "filters" => once p.filters { p with filters := some value }
  | "rangeFilters" => once p.rangeFilters { p with rangeFilters := some value }
  | "bucket" => once p.bucket { p with bucket := some value }
  | "normalize" => once p.normalize { p with normalize := some value }
  | "eventColumns" => once p.eventColumns { p with eventColumns := some value }
  | "groupBy" => once p.groupBy { p with groupBy := some value }
  | _ => some p
where
  once (held : Option String) (assigned : Parameters) : Option Parameters :=
    if held.isSome then none else some assigned

namespace Http

def queryParameters (pairs : List (String × String)) : Except Rejection Parameters :=
  match pairs.foldlM (fun p pair => p.assign pair.1 pair.2) ({} : Parameters) with
  | some p => .ok p
  | none => .error .repeatedParameter

def queryField (pairs : List (String × String)) : Except Rejection (Option String) :=
  match pairs.filter fun pair => pair.1 == "field" with
  | [] => .ok none
  | [pair] => .ok (some pair.2)
  | _ => .error .repeatedParameter

end Http

end QueryConsole
