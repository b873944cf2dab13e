import QueryConsole.Statement.Bindings

namespace QueryConsole

inductive Atom : Type
  | atLeast : (column : String) → Placeholder → Atom
  | atMost : (column : String) → Placeholder → Atom
  | oneOf : (column : String) → Placeholder → Atom
  | sharesAny : (column : String) → Placeholder → Atom
  | mentions : (column : String) → Placeholder → Atom
  deriving DecidableEq

def Atom.text : Atom → String
  | .atLeast column p => column ++ " >= " ++ p.text
  | .atMost column p => column ++ " <= " ++ p.text
  | .oneOf column p => "toString(" ++ column ++ ") IN " ++ p.text
  | .sharesAny column p => "hasAny(arrayMap(x -> toString(x), " ++ column ++ "), " ++ p.text ++ ")"
  | .mentions column p =>
    "positionCaseInsensitive(toString(" ++ column ++ "), " ++ p.text ++ ") > 0"

inductive Condition : Type
  | test : Atom → Condition
  | anyOf : List Atom → Condition
  deriving DecidableEq

def Condition.text : Condition → String
  | .test a => a.text
  | .anyOf as => "(" ++ " OR ".intercalate (as.map Atom.text) ++ ")"

end QueryConsole
