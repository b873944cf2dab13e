namespace QueryConsole

inductive ValueType : Type
  | text : ValueType
  | textArray : ValueType
  | uint64 : ValueType
  | dateTime : ValueType
  deriving DecidableEq

inductive Value : Type
  | text : String → Value
  | textArray : List String → Value
  | uint64 : UInt64 → Value
  | dateTime : (literal : String) → Value
  deriving DecidableEq

def ValueType.name : ValueType → String
  | .text => "String"
  | .textArray => "Array(String)"
  | .uint64 => "UInt64"
  | .dateTime => "DateTime('UTC')"

def escapeLetter? : Char → Option Char
  | '\\' => some '\\'
  | '\t' => some 't'
  | '\n' => some 'n'
  | '\r' => some 'r'
  | _ => none

def quotedEscapeLetter? (c : Char) : Option Char :=
  if c = '\'' then some '\'' else escapeLetter? c

def escapeWith (letter? : Char → Option Char) : List Char → List Char
  | [] => []
  | c :: cs =>
    match letter? c with
    | some letter => '\\' :: letter :: escapeWith letter? cs
    | none => c :: escapeWith letter? cs

def escapeText (s : String) : String :=
  String.ofList (escapeWith escapeLetter? s.toList)

def quoteItem (s : String) : String :=
  "'" ++ String.ofList (escapeWith quotedEscapeLetter? s.toList) ++ "'"

namespace Value

def type : Value → ValueType
  | .text _ => .text
  | .textArray _ => .textArray
  | .uint64 _ => .uint64
  | .dateTime _ => .dateTime

def encode : Value → String
  | .text s => escapeText s
  | .textArray items => "[" ++ ",".intercalate (items.map quoteItem) ++ "]"
  | .uint64 n => toString n.toNat
  | .dateTime literal => literal

end Value

end QueryConsole
