import QueryConsole.Json.Reader
import QueryConsole.Store.Endpoint
import QueryConsole.Text.Utf8

namespace QueryConsole.Store

structure Reply where
  status : Nat
  body : List UInt8
  deriving DecidableEq

def Reply.content (r : Reply) : String :=
  if r.status = 204 ∨ r.status = 304 then "" else Text.Utf8.decodeLossy r.body

def Reply.text (r : Reply) : Except Failure String :=
  if r.status = 200 then .ok r.content else .error (.store (.refused (Text.trim r.content)))

def readRow (line : String) : Except Failure Json :=
  match Json.parse? line with
  | some row => .ok row
  | none => .error (.store .unreadableRow)

def readRows (body : String) : Except Failure (List Json) :=
  ((Text.lines body).filter fun line => !Text.isBlankText line).mapM readRow

def Reply.rows (r : Reply) : Except Failure (List Json) :=
  r.text.bind readRows

namespace Endpoint

def reply (e : Endpoint) (respond : Http.Request → Reply) (c : Call) : Except Failure Reply :=
  match e.request? c with
  | some r => .ok (respond r)
  | none => .error (.store .unreachable)

def storage (e : Endpoint) (respond : Http.Request → Reply) : Storage where
  rows s := (e.reply respond (.rows s)).bind Reply.rows
  text s := (e.reply respond (.text s)).bind Reply.text

end Endpoint

end QueryConsole.Store
