import QueryConsole.Statement.Bindings
import QueryConsole.Text.Word
import QueryConsole.Failure

namespace QueryConsole.Adhoc

def forbiddenKeywords : List String :=
  ["DROP", "TRUNCATE", "DELETE", "ALTER", "DETACH", "ATTACH", "RENAME", "KILL"]

def outputFormat : String := "JSONEachRow"

def withoutTerminators (query : String) : String :=
  String.ofList
    (Text.dropEndWhile (fun c => c == ';' || Text.isBlank c) (Text.trim query).toList)

def startsWithWord (keyword statement : String) : Bool :=
  (keyword.toList).isPrefixOf (statement.toList.map Char.toUpper)

def forbiddenKeyword? (statement : String) : Option String :=
  forbiddenKeywords.find? fun keyword => startsWithWord keyword statement

def trimEnd (s : String) : String :=
  String.ofList (Text.dropEndWhile Text.isBlank s.toList)

def beforeFormat? (statement : String) : Option String :=
  match Text.splitLast Text.isBlank statement with
  | none => none
  | some (head, format) =>
    if Text.isIdentifier format then
      match Text.splitLast Text.isBlank (trimEnd head) with
      | some (body, keyword) => if Text.sameWord keyword "FORMAT" then some (trimEnd body) else none
      | none => none
    else none

/-- A query whose rows nobody has limited; one that ends in a parenthesis is left alone. -/
def needsLimit (body : String) : Bool :=
  let words := Text.words body
  let isQuery :=
    match words.head? with
    | some first => Text.sameWord first "SELECT" || Text.sameWord first "WITH"
    | none => false
  isQuery && !(words.any fun word => Text.sameWord word "LIMIT") &&
    body.toList.getLast? != some ')'

def limited (body : String) (limit : UInt64) : Statement :=
  if needsLimit body then
    let (bindings, placeholder) := Bindings.empty.bindNamed "limit" (.uint64 limit)
    ⟨body ++ " LIMIT " ++ placeholder.text, bindings⟩
  else ⟨body, ∅⟩

def compile (query : String) (limit : UInt64) : Except Failure Statement :=
  let statement := withoutTerminators query
  if statement.isEmpty then .error (.invalid .emptyQuery)
  else if limit = 0 then .error (.invalid .zeroLimit)
  else
    match forbiddenKeyword? statement with
    | some keyword => .error (.invalid (.forbidden keyword))
    | none =>
      match beforeFormat? statement with
      | some body =>
        let s := limited body limit
        .ok ⟨s.text ++ " FORMAT " ++ outputFormat, s.bindings⟩
      | none => .ok (limited statement limit)

end QueryConsole.Adhoc
