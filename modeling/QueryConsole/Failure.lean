import QueryConsole.Dataset.Basic

namespace QueryConsole

inductive CountParameter : Type
  | limit : CountParameter
  | offset : CountParameter
  deriving DecidableEq

def CountParameter.name : CountParameter → String
  | .limit => "limit"
  | .offset => "offset"

inductive Fault : Type
  | unknownDataset : (name : String) → Fault
  | unknownPattern : (name : String) → Fault
  | unknownExplainMode : (name : String) → Fault
  | fieldMissing : (pattern : String) → Fault
  | fieldUnavailable : (field pattern : String) → Dataset → Fault
  | seriesUnavailable : Dataset → Fault
  | stackedUnavailable : Dataset → Fault
  | summaryUnavailable : (requested : Option String) → Dataset → Fault
  | notACount : CountParameter → Fault
  | notATime : (literal : String) → Fault
  | malformedFilters : Fault
  | malformedRanges : Fault
  | emptyQuery : Fault
  | zeroLimit : Fault
  | forbidden : (keyword : String) → Fault
  deriving DecidableEq

inductive StoreFault : Type
  | refused : (explanation : String) → StoreFault
  | unreachable : StoreFault
  | unreadableRow : StoreFault
  | noTotal : Dataset → StoreFault
  deriving DecidableEq

inductive Failure : Type
  | configuration : (reason : String) → Failure
  | unauthenticated : Failure
  | invalid : Fault → Failure
  | store : StoreFault → Failure
  | internal : Failure
  deriving DecidableEq

def Fault.message : Fault → String
  | .unknownDataset name => s!"unknown dataset '{name}'"
  | .unknownPattern name => s!"unknown read pattern '{name}'"
  | .unknownExplainMode name => s!"unknown explain mode '{name}'"
  | .fieldMissing pattern => s!"{pattern} requires a field"
  | .fieldUnavailable field pattern d =>
    "field '" ++ field ++ "' is not available for " ++ pattern ++ " on " ++ d.name
  | .seriesUnavailable d => "time series not available for " ++ d.name
  | .stackedUnavailable d => "stacked series not available for " ++ d.name
  | .summaryUnavailable none d => "summary not available for " ++ d.name
  | .summaryUnavailable (some name) d => "summary '" ++ name ++ "' not available for " ++ d.name
  | .notACount parameter => parameter.name ++ " must be a non-negative integer"
  | .notATime literal => s!"invalid time literal '{literal}'"
  | .malformedFilters => "malformed filters"
  | .malformedRanges => "malformed rangeFilters"
  | .emptyQuery => "query must not be empty"
  | .zeroLimit => "limit must be at least 1"
  | .forbidden keyword => s!"{keyword} statements are not allowed"

def StoreFault.message : StoreFault → String
  | .refused explanation => explanation
  | .unreachable => "clickhouse request failed"
  | .unreadableRow => "unreadable result row"
  | .noTotal d => "count for " ++ d.name ++ " returned no total"

namespace Failure

def message : Failure → String
  | .configuration reason => "configuration error: " ++ reason
  | .unauthenticated => "authentication failed"
  | .invalid fault => "invalid request: " ++ fault.message
  | .store fault => "backend error: " ++ fault.message
  | .internal => "internal error"

def status : Failure → Nat
  | .configuration _ => 500
  | .unauthenticated => 401
  | .invalid _ => 400
  | .store _ => 502
  | .internal => 500

end Failure

end QueryConsole
