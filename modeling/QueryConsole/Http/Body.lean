import QueryConsole.Engine
import QueryConsole.Http.MediaType
import QueryConsole.Http.Request
import QueryConsole.Http.Response
import QueryConsole.Json.Reader

namespace QueryConsole

mutual

def Json.Tree.isWhole : Json.Tree → Bool
  | .broken => false
  | .array items closed => closed && areWhole items
  | .object members closed => closed && membersAreWhole members
  | _ => true

def Json.Tree.areWhole : List Json.Tree → Bool
  | [] => true
  | item :: items => item.isWhole && areWhole items

def Json.Tree.membersAreWhole : List (List Json.Piece × Json.Tree) → Bool
  | [] => true
  | member :: members => member.2.isWhole && membersAreWhole members

end

namespace Http

def bodyLimit : Nat := 2097152

def mismatch : Json.Tree → Rejection
  | .broken => .malformedBody
  | .number n => if n.number?.isSome then .misshapenBody else .malformedBody
  | .text pieces => if (Json.pieceText? pieces).isSome then .misshapenBody else .malformedBody
  | _ => .misshapenBody

def readText : Json.Tree → Except Rejection String
  | .text pieces =>
    match Json.pieceText? pieces with
    | some s => .ok s
    | none => .error .malformedBody
  | t => .error (mismatch t)

def readLimit : Json.Tree → Except Rejection (Option UInt64)
  | .null => .ok none
  | .number n =>
    match n.number? with
    | some (.integer value) =>
      if 0 ≤ value then .ok (some (UInt64.ofNat value.toNat)) else .error .misshapenBody
    | some (.double _) => .error .misshapenBody
    | none => .error .malformedBody
  | t => .error (mismatch t)

structure Member (α : Type) where
  name : String
  set : Json.Tree → α → Except Rejection α

def readMembers {α : Type} (known : List (Member α)) (read : List String) (request : α) :
    List (List Json.Piece × Json.Tree) → Except Rejection α
  | [] => .ok request
  | (key, value) :: rest =>
    match Json.pieceText? key with
    | none => .error .malformedBody
    | some name =>
      match known.find? fun m => m.name == name with
      | none =>
        if value.isWhole then readMembers known read request rest else .error .malformedBody
      | some m =>
        if read.contains name then .error .misshapenBody
        else
          match m.set value request with
          | .ok request => readMembers known (name :: read) request rest
          | .error r => .error r

def readItems {α : Type} (request : α) : List (Member α) → List Json.Tree → Except Rejection α
  | _, [] => .ok request
  | [], _ :: _ => .error .malformedBody
  | m :: known, item :: items =>
    match m.set item request with
    | .ok request => readItems request known items
    | .error r => .error r

/-- A request is an object of its members or an array of their values; what is missing keeps its
default. -/
def readRequest {α : Type} (known : List (Member α)) (default : α) (t : Json.Tree) :
    Except Rejection α :=
  match t with
  | .object members closed => (readMembers known [] default members).bind (ended closed)
  | .array items closed => (readItems default known items).bind (ended closed)
  | t => .error (mismatch t)
where
  ended (closed : Bool) (request : α) : Except Rejection α :=
    if closed then .ok request else .error .malformedBody

def adhocMembers : List (Member AdhocRequest) :=
  [⟨"query", fun t r => (readText t).map fun query => { r with query }⟩,
   ⟨"limit", fun t r => (readLimit t).map fun limit => { r with limit }⟩]

def explainMembers : List (Member ExplainRequest) :=
  [⟨"mode", fun t r => (readText t).map fun mode => { r with mode }⟩,
   ⟨"query", fun t r => (readText t).map fun query => { r with query }⟩]

def Request.sendsJson (r : Request) : Bool :=
  match (r.printableHeader? "content-type").bind MediaType.parse? with
  | some type => type.isJson
  | none => false

def Request.bodyTree (r : Request) : Except Rejection Json.Tree :=
  if !r.sendsJson then .error .notJson
  else if bodyLimit < r.body.length then .error .tooLong
  else .ok (Json.firstTree r.body)

def Request.adhoc (r : Request) : Except Rejection AdhocRequest :=
  r.bodyTree.bind (readRequest adhocMembers {})

def Request.explain (r : Request) : Except Rejection ExplainRequest :=
  r.bodyTree.bind (readRequest explainMembers {})

end Http

end QueryConsole
