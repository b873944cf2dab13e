import QueryConsole.Json.Tree

namespace QueryConsole.Json

def joinSurrogates (high low : Nat) : Char :=
  Char.ofNat (0x10000 + (high - 0xD800) * 0x400 + (low - 0xDC00))

def pieceChars? : List Piece → Option (List Char)
  | [] => some []
  | .char c :: rest => (pieceChars? rest).map (c :: ·)
  | .stray :: _ => none
  | .unit high :: .unit low :: rest =>
    if 0xD800 ≤ high ∧ high < 0xDC00 then
      if 0xDC00 ≤ low ∧ low < 0xE000 then
        (pieceChars? rest).map (joinSurrogates high low :: ·)
      else none
    else if 0xDC00 ≤ high ∧ high < 0xE000 then none
    else (pieceChars? (.unit low :: rest)).map (Char.ofNat high :: ·)
  | .unit code :: rest =>
    if 0xD800 ≤ code ∧ code < 0xE000 then none
    else (pieceChars? rest).map (Char.ofNat code :: ·)

def pieceText? (pieces : List Piece) : Option String :=
  (pieceChars? pieces).map String.ofList

def takeSignificand (significand : Nat) : List Char → Nat × List Char
  | [] => (significand, [])
  | c :: cs =>
    let next := 10 * significand + Decimal.digitValue c
    if next < UInt64.size then takeSignificand next cs else (significand, c :: cs)

namespace Numeral

def exponentValue (n : Numeral) : Int :=
  match n.exponent with
  | none => 0
  | some (negative, digits) =>
    let magnitude : Int := (Decimal.ofDigits 0 digits).getD 0
    if negative then -magnitude else magnitude

/-- The nearest binary64 number that one significand of 64 bits and powers of ten lead to. -/
def double? (n : Numeral) : Option Decimal.Double :=
  let (significand, wholeLeft) := takeSignificand 0 n.whole
  let fraction := n.fraction.getD []
  let (significand, fractionLeft) := takeSignificand significand fraction
  let places : Int := (wholeLeft.length : Int) - (fraction.length - fractionLeft.length : Nat)
  (Decimal.scaleTen? significand (places + n.exponentValue)).map fun m => ⟨n.negative, m⟩

/-- The number, unless it is too large for a binary64 number.  A whole number of 64 bits stays an
integer; minus zero is none. -/
def number? (n : Numeral) : Option JsonNumber :=
  let value := (Decimal.ofDigits 0 n.whole).getD 0
  if n.fraction.isNone ∧ n.exponent.isNone ∧ n.negative = false ∧ value < UInt64.size then
    some (.integer value)
  else if n.fraction.isNone ∧ n.exponent.isNone ∧ n.negative ∧ 0 < value ∧ value ≤ Nat.pow 2 63 then
    some (.integer (-value))
  else n.double?.map .double

end Numeral

def nestingLimit : Nat := 127

def Tree.json? : Nat → Tree → Option Json
  | _, .null => some .null
  | _, .bool b => some (.bool b)
  | _, .number n => n.number?.map .number
  | _, .text pieces => (pieceText? pieces).map .text
  | depth + 1, .array items true => (items.mapM (json? depth)).map .array
  | depth + 1, .object members true =>
    (members.mapM fun member =>
      (pieceText? member.1).bind fun key => (json? depth member.2).map fun value => (key, value))
      |>.map fun members => .object (sortMembers members)
  | _, _ => none

def parse? (s : String) : Option Json :=
  (wholeTree? s).bind fun t => t.json? nestingLimit

end QueryConsole.Json
