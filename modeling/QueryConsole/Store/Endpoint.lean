import QueryConsole.Http.Request
import QueryConsole.Http.Url
import QueryConsole.Statement.Adhoc
import QueryConsole.Storage

/-! The store's HTTP interface, and the requests that statements are sent in.  The values of a
statement travel in the query string, apart from its text. -/

namespace QueryConsole

def Call.statement : Call → Statement
  | .rows s | .text s => s

def Call.format : Call → String
  | .rows _ => Adhoc.outputFormat
  | .text _ => "TabSeparatedRaw"

namespace Store

structure Endpoint where
  url : String
  database : String := "system"
  user : String := "default"
  password : Option String := none
  deriving DecidableEq

namespace Endpoint

def base (e : Endpoint) : String :=
  String.ofList (Text.dropEndWhile (· == '/') e.url.toList)

def credentials (e : Endpoint) : List (String × String) :=
  ("x-clickhouse-user", e.user) :: (e.password.map fun key => ("x-clickhouse-key", key)).toList

def headers (e : Endpoint) : List (String × List UInt8) :=
  e.credentials.map fun h => (h.1, Text.Utf8.encode h.2.toList)

def isSendable (value : String) : Bool :=
  value.toList.all fun c => c == '\t' || (32 ≤ c.toNat && c.toNat != 127)

def parameterPair (b : Binding) : String × String :=
  ("param_" ++ b.name, b.value.encode)

def pairs (e : Endpoint) (c : Call) : List (String × String) :=
  ("database", e.database) :: ("default_format", c.format) ::
    c.statement.bindings.toList.map parameterPair

def request? (e : Endpoint) (c : Call) : Option Http.Request :=
  match Http.Url.parse? (e.base ++ "/") with
  | none => none
  | some url =>
    if e.credentials.all fun h => isSendable h.2 then
      some ⟨"POST", (url.withPairs (e.pairs c)).target, e.headers,
        Text.Utf8.encode c.statement.text.toList⟩
    else none

def ping? (e : Endpoint) : Option Http.Request :=
  (Http.Url.parse? (e.base ++ "/ping")).map fun url => ⟨"GET", url.target, [], []⟩

end Endpoint

end Store

end QueryConsole
