import QueryConsole.Calendar.Window
import QueryConsole.Request.Filters
import QueryConsole.Request.Parameters

namespace QueryConsole

structure RowFilter where
  window : Calendar.Window
  search : Option String
  filters : ValueFilters
  ranges : RangeFilters
  deriving DecidableEq

def Parameters.rowFilter (p : Parameters) : Except Failure RowFilter := do
  let window ← Calendar.Window.parse p.start p.finish
  let filters ← parseFilters p.filters
  let ranges ← parseRanges p.rangeFilters
  return ⟨window, Text.given p.search, filters, ranges⟩

end QueryConsole
