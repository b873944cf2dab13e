import QueryConsole.Engine
import QueryConsole.Http.Body
import QueryConsole.Http.Query
import QueryConsole.Http.Route
import QueryConsole.Statement.Report

/-! The console behind HTTP.  A request is matched with a route, then its key is checked, then its
method; only then is anything else of it read. -/

namespace QueryConsole.Http

structure Server where
  engine : Engine
  apiKey : Option String

structure Exchange where
  calls : List Call
  response : Response

namespace Exchange

def ofResponse (r : Response) : Exchange := ⟨[], r⟩

def ofOutcome {α : Type} (json : α → Json) (o : Outcome α) : Exchange :=
  ⟨o.calls,
    match o.result with
    | .ok a => .ok (json a)
    | .error f => .ofFailure f⟩

def reading {α : Type} (read : Except Rejection α) (next : α → Exchange) : Exchange :=
  match read with
  | .ok a => next a
  | .error r => ofResponse (.ofRejection r)

def withoutBody (e : Exchange) : Exchange := { e with response := e.response.withoutBody }

@[simp] theorem reading_ok {α : Type} (a : α) (next : α → Exchange) :
    reading (.ok a) next = next a := rfl

@[simp] theorem reading_error {α : Type} (r : Rejection) (next : α → Exchange) :
    reading (.error r) next = ofResponse (.ofRejection r) := rfl

@[simp] theorem calls_ofOutcome {α : Type} (json : α → Json) (o : Outcome α) :
    (ofOutcome json o).calls = o.calls := rfl

@[simp] theorem calls_withoutBody (e : Exchange) : e.withoutBody.calls = e.calls := rfl

end Exchange

namespace Server

def keyHeader : String := "x-api-key"

def admits (s : Server) (r : Request) : Bool :=
  match s.apiKey with
  | some key => r.printableHeader? keyHeader == some key
  | none => true

def read (s : Server) (view : View) (pairs : List (String × String)) : Exchange :=
  .reading (queryParameters pairs) fun p =>
    match view with
    | .rows dataset pattern =>
      .ofOutcome .array (.after (Dataset.ofName dataset) fun d => s.engine.read d pattern p)
    | .total dataset =>
      .ofOutcome (fun n => .object [("total", .ofNat n.toNat)])
        (.after (Dataset.ofName dataset) fun d => s.engine.count d p)
    | .preview dataset pattern =>
      .reading (queryField pairs) fun field =>
        .ofOutcome Statement.json
          (.after (Dataset.ofName dataset) fun d =>
            .after (ReadPattern.ofName pattern field) fun pattern =>
              .ofResult (s.engine.preview d pattern p))

def serve (s : Server) (route : Route) (r : Request) : Exchange :=
  match route with
  | .health => .ofResponse (.ok (.object [("status", .text "ok")]))
  | .adhoc => .reading r.adhoc fun request => .ofOutcome AdhocResult.json (s.engine.adhoc request)
  | .explain => .reading r.explain fun request => .ofOutcome .array (s.engine.explain request)
  | .view view =>
    match view.decode? with
    | some view => s.read view (Form.decode r.query)
    | none => .ofResponse (.ofRejection .undecodablePath)

def exchange (s : Server) (route : Route) (r : Request) : Exchange :=
  if route.isGuarded && !s.admits r then .ofResponse (.ofFailure .unauthenticated)
  else if route.serves r.method then s.serve route r
  else .ofResponse .methodNotAllowed

def handle (s : Server) (r : Request) : Exchange :=
  match Route.ofSegments? r.segments with
  | some route =>
    if route.omitsBody r.method then (s.exchange route r).withoutBody else s.exchange route r
  | none => .ofResponse .notFound

end Server

end QueryConsole.Http
