import QueryConsole.Decimal.Shortest

namespace QueryConsole

inductive JsonNumber : Type
  | integer : Int → JsonNumber
  | double : Decimal.Double → JsonNumber
  deriving DecidableEq

inductive Json : Type
  | null : Json
  | bool : Bool → Json
  | number : JsonNumber → Json
  | text : String → Json
  | array : List Json → Json
  | object : List (String × Json) → Json

def JsonNumber.text : JsonNumber → String
  | .integer n => toString n
  | .double x => x.text

namespace Json

def ofNat (n : Nat) : Json := .number (.integer n)

def member? (key : String) : Json → Option Json
  | .object members => (members.reverse.find? fun m => m.1 == key).map (·.2)
  | _ => none

def insertMember {α : Type} (key : String) (value : α) : List (String × α) → List (String × α)
  | [] => [(key, value)]
  | (k, v) :: rest =>
    if key < k then (key, value) :: (k, v) :: rest
    else if key = k then (key, value) :: rest
    else (k, v) :: insertMember key value rest

def sortMembers {α : Type} (members : List (String × α)) : List (String × α) :=
  members.foldl (fun sorted m => insertMember m.1 m.2 sorted) []

end Json

end QueryConsole
