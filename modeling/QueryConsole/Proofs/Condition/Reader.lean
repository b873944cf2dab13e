import QueryConsole.Proofs.Condition.Formula
import QueryConsole.Text.Word

/-! A reader of condition texts.  The words `OR` and `AND` outside of all parentheses split a text,
`OR` first, so `AND` binds tighter; what stands in parentheses is read by itself. -/

namespace QueryConsole

inductive Token : Type
  | word : String → Token
  | sign : Char → Token
  deriving DecidableEq

namespace Token

def ofWord (cs : List Char) : List Token :=
  if cs.isEmpty then [] else [.word (String.ofList cs)]

def ofSign (c : Char) : List Token :=
  if Text.isBlank c then [] else [.sign c]

def scanFrom (pending : List Char) : List Char → List Token
  | [] => ofWord pending
  | c :: cs =>
    if Text.isWordChar c then scanFrom (pending ++ [c]) cs
    else ofWord pending ++ ofSign c ++ scanFrom [] cs

def scan (s : String) : List Token :=
  scanFrom [] s.toList

def isWord (keyword : String) : Token → Bool
  | .word w => Text.sameWord w keyword
  | .sign _ => false

def depthAfter (depth : Nat) : Token → Nat
  | .sign '(' => depth + 1
  | .sign '\x7b' => depth + 1
  | .sign ')' => depth - 1
  | .sign '\x7d' => depth - 1
  | _ => depth

/-- The pieces between the separators that are outside of all parentheses and braces. -/
def splitFrom (isSeparator : Token → Bool) (depth : Nat) : List Token → List (List Token)
  | [] => [[]]
  | t :: ts =>
    if depth = 0 && isSeparator t then [] :: splitFrom isSeparator 0 ts
    else (splitFrom isSeparator (t.depthAfter depth) ts).modifyHead (t :: ·)

def splitAt (keyword : String) (ts : List Token) : List (List Token) :=
  splitFrom (isWord keyword) 0 ts

end Token

open Token (word sign)

def ValueType.take? : List Token → Option (ValueType × List Token)
  | word "String" :: rest => some (.text, rest)
  | word "Array" :: sign '(' :: word "String" :: sign ')' :: rest => some (.textArray, rest)
  | word "UInt64" :: rest => some (.uint64, rest)
  | word "DateTime" :: sign '(' :: sign '\'' :: word "UTC" :: sign '\'' :: sign ')' :: rest =>
    some (.dateTime, rest)
  | _ => none

def Placeholder.take? : List Token → Option (Placeholder × List Token)
  | sign '\x7b' :: word name :: sign ':' :: rest =>
    match ValueType.take? rest with
    | some (type, sign '\x7d' :: rest) => some (⟨name, type⟩, rest)
    | _ => none
  | _ => none

def Placeholder.before? (closing ts : List Token) : Option Placeholder :=
  match Placeholder.take? ts with
  | some (p, rest) => if rest = closing then some p else none
  | none => none

def Atom.ofTokens? : List Token → Option Atom
  | word "toString" :: sign '(' :: word column :: sign ')' :: word "IN" :: rest =>
    (Placeholder.before? [] rest).map (.oneOf column)
  | word "hasAny" :: sign '(' :: word "arrayMap" :: sign '(' :: word "x" :: sign '-' :: sign '>' ::
      word "toString" :: sign '(' :: word "x" :: sign ')' :: sign ',' :: word column ::
      sign ')' :: sign ',' :: rest =>
    (Placeholder.before? [sign ')'] rest).map (.sharesAny column)
  | word "positionCaseInsensitive" :: sign '(' :: word "toString" :: sign '(' :: word column ::
      sign ')' :: sign ',' :: rest =>
    (Placeholder.before? [sign ')', sign '>', word "0"] rest).map (.mentions column)
  | word column :: sign '>' :: sign '=' :: rest =>
    (Placeholder.before? [] rest).map (.atLeast column)
  | word column :: sign '<' :: sign '=' :: rest =>
    (Placeholder.before? [] rest).map (.atMost column)
  | _ => none

namespace Formula

def factor? (inside : List Token → Option Formula) (ts : List Token) : Option Formula :=
  match Atom.ofTokens? ts with
  | some a => some (.test a)
  | none =>
    match ts with
    | sign '(' :: rest =>
      if rest.getLast? = some (sign ')') then inside rest.dropLast else none
    | _ => none

def read? : Nat → List Token → Option Formula
  | 0, _ => none
  | depth + 1, ts =>
    ((Token.splitAt "OR" ts).mapM fun disjunct =>
        ((Token.splitAt "AND" disjunct).mapM (factor? (read? depth))).bind (join? both))
      |>.bind (join? either)

def parse? (s : String) : Option Formula :=
  read? ((Token.scan s).length + 1) (Token.scan s)

example :
    parse? "a >= \x7bx:UInt64\x7d OR b >= \x7bx:UInt64\x7d AND c >= \x7bx:UInt64\x7d" =
      some (.either (.test (.atLeast "a" ⟨"x", .uint64⟩))
        (.both (.test (.atLeast "b" ⟨"x", .uint64⟩)) (.test (.atLeast "c" ⟨"x", .uint64⟩)))) := by
  decide +kernel

example :
    parse? "(a >= \x7bx:UInt64\x7d OR b >= \x7bx:UInt64\x7d) AND c >= \x7bx:UInt64\x7d" =
      some (.both
        (.either (.test (.atLeast "a" ⟨"x", .uint64⟩)) (.test (.atLeast "b" ⟨"x", .uint64⟩)))
        (.test (.atLeast "c" ⟨"x", .uint64⟩))) := by
  decide +kernel

end Formula

end QueryConsole
