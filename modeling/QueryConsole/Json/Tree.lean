import QueryConsole.Json.Token
import QueryConsole.Text.Utf8

namespace QueryConsole.Json

inductive Tree : Type
  | null : Tree
  | bool : Bool → Tree
  | number : Numeral → Tree
  | text : List Piece → Tree
  | array : List Tree → (closed : Bool) → Tree
  | object : List (List Piece × Tree) → (closed : Bool) → Tree
  | broken : Tree

inductive Frame : Type
  | array : List Tree → Frame
  | object : List (List Piece × Tree) → (key : List Piece) → Frame

inductive Phase : Type
  | value : Phase
  | firstItem : Phase
  | afterItem : List Tree → Phase
  | memberKey : List (List Piece × Tree) → Phase
  | colon : List (List Piece × Tree) → (key : List Piece) → Phase
  | afterMember : List (List Piece × Tree) → Phase

inductive Progress : Type
  | reading : List Frame → Phase → Progress
  | done : Tree → Progress
  | failed : Tree → Progress

def complete (t : Tree) : List Frame → Progress
  | [] => .done t
  | .array items :: frames => .reading frames (.afterItem (t :: items))
  | .object members key :: frames => .reading frames (.afterMember ((key, t) :: members))

def abandon (t : Tree) : List Frame → Tree
  | [] => t
  | .array items :: frames => abandon (.array (t :: items).reverse false) frames
  | .object members key :: frames => abandon (.object ((key, t) :: members).reverse false) frames

def Phase.unfinished : Phase → Tree
  | .value => .broken
  | .firstItem => .array [] false
  | .afterItem items => .array items.reverse false
  | .memberKey members => .object members.reverse false
  | .colon members key => .object ((key, .broken) :: members).reverse false
  | .afterMember members => .object members.reverse false

def giveUp (frames : List Frame) (phase : Phase) : Progress :=
  .failed (abandon phase.unfinished frames)

def stepValue (frames : List Frame) : Token → Progress
  | .null => complete .null frames
  | .bool b => complete (.bool b) frames
  | .number n => complete (.number n) frames
  | .text pieces => complete (.text pieces) frames
  | .openArray => .reading frames .firstItem
  | .openObject => .reading frames (.memberKey [])
  | _ => giveUp frames .value

def stepPhase (frames : List Frame) (phase : Phase) (token : Token) : Progress :=
  match phase, token with
  | .value, token => stepValue frames token
  | .firstItem, .closeArray => complete (.array [] true) frames
  | .firstItem, token => stepValue (.array [] :: frames) token
  | .afterItem items, .comma => .reading (.array items :: frames) .value
  | .afterItem items, .closeArray => complete (.array items.reverse true) frames
  | .memberKey [], .closeObject => complete (.object [] true) frames
  | .memberKey members, .text key => .reading frames (.colon members key)
  | .colon members key, .colon => .reading (.object members key :: frames) .value
  | .afterMember members, .comma => .reading frames (.memberKey members)
  | .afterMember members, .closeObject => complete (.object members.reverse true) frames
  | phase, _ => giveUp frames phase

def Progress.run : Progress → List Token → Progress × List Token
  | .reading frames phase, [] => (giveUp frames phase, [])
  | .reading frames phase, token :: rest => (stepPhase frames phase token).run rest
  | finished, rest => (finished, rest)

def Progress.tree : Progress → Tree
  | .reading frames phase => abandon phase.unfinished frames
  | .done t => t
  | .failed t => t

/-- The first value in the bytes, broken off where they stop being JSON. -/
def firstTree (bytes : List UInt8) : Tree :=
  ((Progress.reading [] .value).run (Mode.between.scanDecoded (Text.Utf8.decode bytes))).1.tree

def wholeTree? (s : String) : Option Tree :=
  match (Progress.reading [] .value).run (tokens s) with
  | (.done t, []) => some t
  | _ => none

end QueryConsole.Json
