import QueryConsole.Json.Reader
import QueryConsole.Text.Blank
import QueryConsole.Failure

namespace QueryConsole

structure Bounds where
  least : Option UInt64
  greatest : Option UInt64
  deriving DecidableEq

abbrev ValueFilters := List (String × List String)

abbrev RangeFilters := List (String × Bounds)

namespace Json

def Tree.filterText? : Tree → Option String
  | .text pieces => pieceText? pieces
  | .number n => n.number?.map JsonNumber.text
  | .bool true => some "true"
  | .bool false => some "false"
  | _ => none

def Tree.filterTexts? : Tree → Option (List String)
  | .array items true => items.mapM Tree.filterText?
  | _ => none

def Tree.bound? : Tree → Option (Option UInt64)
  | .null => some none
  | .number n =>
    match n.number? with
    | some (.integer value) =>
      if 0 ≤ value then some (some (UInt64.ofNat value.toNat)) else none
    | _ => none
  | .text pieces => ((pieceText? pieces).bind Decimal.uint64?).map some
  | _ => none

structure BoundsInProgress where
  least : Option (Option UInt64)
  greatest : Option (Option UInt64)

def BoundsInProgress.member? (b : BoundsInProgress) (member : List Piece × Tree) :
    Option BoundsInProgress :=
  match pieceText? member.1 with
  | some "min" =>
    if b.least.isSome then none else member.2.bound?.map fun v => { b with least := some v }
  | some "max" =>
    if b.greatest.isSome then none else member.2.bound?.map fun v => { b with greatest := some v }
  | some _ => some b
  | none => none

def Tree.bounds? : Tree → Option Bounds
  | .object members true =>
    (members.foldlM BoundsInProgress.member? ⟨none, none⟩).map fun b =>
      ⟨b.least.join, b.greatest.join⟩
  | .array [] true => some ⟨none, none⟩
  | .array [least] true => least.bound?.map fun least => ⟨least, none⟩
  | .array [least, greatest] true =>
    least.bound?.bind fun least => greatest.bound?.map fun greatest => ⟨least, greatest⟩
  | _ => none

def Tree.entries? {α : Type} (value? : Tree → Option α) : Tree → Option (List (String × α))
  | .object members true =>
    (members.mapM fun member =>
      (pieceText? member.1).bind fun key => (value? member.2).map fun value => (key, value))
      |>.map sortMembers
  | _ => none

end Json

def parseEntries {α : Type} (value? : Json.Tree → Option α) (fault : Fault)
    (raw : Option String) : Except Failure (List (String × α)) :=
  match Text.given raw with
  | none => .ok []
  | some s =>
    match (Json.wholeTree? s).bind (Json.Tree.entries? value?) with
    | some entries => .ok entries
    | none => .error (.invalid fault)

def parseFilters (raw : Option String) : Except Failure ValueFilters :=
  parseEntries Json.Tree.filterTexts? .malformedFilters raw

def parseRanges (raw : Option String) : Except Failure RangeFilters :=
  parseEntries Json.Tree.bounds? .malformedRanges raw

end QueryConsole
