import QueryConsole.Text.Lines
import QueryConsole.Text.Utf8

namespace QueryConsole.Http

structure Request where
  method : String
  target : String
  headers : List (String × List UInt8)
  body : List UInt8
  deriving DecidableEq

namespace Request

def sameName (a b : String) : Bool :=
  a.toList.map Char.toLower == b.toList.map Char.toLower

def header? (r : Request) (name : String) : Option (List UInt8) :=
  (r.headers.find? fun h => sameName h.1 name).map (·.2)

def isPrintable (value : List UInt8) : Bool :=
  value.all fun b => b == 9 || (32 ≤ b && b < 127)

def printableHeader? (r : Request) (name : String) : Option String :=
  match r.header? name with
  | some value => if isPrintable value then Text.Utf8.decodeStrict? value else none
  | none => none

def afterHost : List Char → List Char
  | ':' :: '/' :: '/' :: rest => rest.dropWhile fun c => c != '/' && c != '?'
  | _ :: rest => afterHost rest
  | [] => []

def resource (r : Request) : List Char :=
  let cs := r.target.toList.takeWhile (· != '#')
  if cs.head? = some '/' then cs else afterHost cs

def path (r : Request) : String :=
  String.ofList (r.resource.takeWhile (· != '?'))

def query (r : Request) : String :=
  String.ofList ((r.resource.dropWhile (· != '?')).drop 1)

def segments (r : Request) : List String :=
  Text.splitOn '/' r.path

end Request

end QueryConsole.Http
