import QueryConsole.Statement.Pattern

namespace QueryConsole

def Page.bind (page : Page) (b : Bindings) : Bindings × PageClause :=
  let (b, limit) := b.bindNamed "limit" (.uint64 page.limit)
  let (b, offset) := b.bindNamed "offset" (.uint64 page.offset)
  (b, ⟨limit, offset⟩)

namespace Scope

def select (s : Scope) (shape : Shape) (page : Option PageClause) : Select :=
  { distinct := shape.distinct
    columns := shape.columns
    table := s.table
    conditions := s.conditions
    groupBy := shape.groupBy
    orderBy := shape.orderBy
    page }

def statement (s : Scope) (shape : Shape) : Option Page → Statement
  | none => ⟨(s.select shape none).text, s.bindings⟩
  | some page =>
    let (bindings, clause) := page.bind s.bindings
    ⟨(s.select shape (some clause)).text, bindings⟩

end Scope

def compile (d : Dataset) (pattern : ReadPattern) (p : Parameters) (limits : Limits) :
    Except Failure Statement := do
  let rows ← p.rowFilter
  let page ← pattern.page p limits
  let shape ← d.shape pattern p
  return (d.table.scope rows).statement shape page

end QueryConsole
