import QueryConsole.Decimal.Natural
import QueryConsole.Json.Basic
import QueryConsole.Text.Hex

/-! The tokens of a JSON text.  A character is read at a time; strings keep their escapes and
numbers their digits, so that a part nobody looks at is never interpreted.  From the first character
that no token can hold there is one last token, `broken`. -/

namespace QueryConsole.Json

inductive Piece : Type
  | char : Char → Piece
  | unit : Nat → Piece
  | stray : Piece
  deriving DecidableEq

structure Numeral where
  negative : Bool
  whole : List Char
  fraction : Option (List Char)
  exponent : Option (Bool × List Char)
  deriving DecidableEq

inductive Token : Type
  | openArray : Token
  | closeArray : Token
  | openObject : Token
  | closeObject : Token
  | comma : Token
  | colon : Token
  | null : Token
  | bool : Bool → Token
  | number : Numeral → Token
  | text : List Piece → Token
  | broken : Token
  deriving DecidableEq

inductive NumeralStage : Type
  | sign : NumeralStage
  | zero : NumeralStage
  | whole : NumeralStage
  | point : NumeralStage
  | fraction : NumeralStage
  | mark : NumeralStage
  | markSign : NumeralStage
  | exponent : NumeralStage
  deriving DecidableEq

def NumeralStage.complete : NumeralStage → Bool
  | .zero | .whole | .fraction | .exponent => true
  | .sign | .point | .mark | .markSign => false

def Numeral.start (negative : Bool) : Numeral :=
  ⟨negative, [], none, none⟩

def Numeral.addWhole (n : Numeral) (c : Char) : Numeral :=
  { n with whole := n.whole ++ [c] }

def Numeral.addFraction (n : Numeral) (c : Char) : Numeral :=
  { n with fraction := some (n.fraction.getD [] ++ [c]) }

def Numeral.addExponent (n : Numeral) (c : Char) : Numeral :=
  match n.exponent with
  | some (negative, digits) => { n with exponent := some (negative, digits ++ [c]) }
  | none => { n with exponent := some (false, [c]) }

def NumeralStage.next? (n : Numeral) (c : Char) : NumeralStage → Option (NumeralStage × Numeral)
  | .sign =>
    if c = '0' then some (.zero, n.addWhole c)
    else if c.isDigit then some (.whole, n.addWhole c)
    else none
  | .zero => afterWhole n c
  | .whole => if c.isDigit then some (.whole, n.addWhole c) else afterWhole n c
  | .point => if c.isDigit then some (.fraction, n.addFraction c) else none
  | .fraction =>
    if c.isDigit then some (.fraction, n.addFraction c) else afterFraction n c
  | .mark =>
    if c.isDigit then some (.exponent, n.addExponent c)
    else if c = '+' then some (.markSign, { n with exponent := some (false, []) })
    else if c = '-' then some (.markSign, { n with exponent := some (true, []) })
    else none
  | .markSign => if c.isDigit then some (.exponent, n.addExponent c) else none
  | .exponent => if c.isDigit then some (.exponent, n.addExponent c) else none
where
  afterFraction (n : Numeral) (c : Char) : Option (NumeralStage × Numeral) :=
    if c = 'e' ∨ c = 'E' then some (.mark, n) else none
  afterWhole (n : Numeral) (c : Char) : Option (NumeralStage × Numeral) :=
    if c = '.' then some (.point, { n with fraction := some [] }) else afterFraction n c

inductive Mode : Type
  | between : Mode
  | word : List Char → Token → Mode
  | number : NumeralStage → Numeral → Mode
  | text : List Piece → Mode
  | escape : List Piece → Mode
  | code : List Piece → (left value : Nat) → Mode
  | stopped : Mode

def isSpace (c : Char) : Bool :=
  c = ' ' || c = '\t' || c = '\n' || c = '\r'

def escapedChar? : Char → Option Char
  | '"' => some '"'
  | '\\' => some '\\'
  | '/' => some '/'
  | 'b' => some '\x08'
  | 'f' => some '\x0c'
  | 'n' => some '\n'
  | 'r' => some '\r'
  | 't' => some '\t'
  | _ => none

def stop : List Token × Mode := ([.broken], .stopped)

def stepBetween (c : Char) : List Token × Mode :=
  if isSpace c then ([], .between)
  else
    match c with
    | '[' => ([.openArray], .between)
    | ']' => ([.closeArray], .between)
    | '\x7b' => ([.openObject], .between)
    | '\x7d' => ([.closeObject], .between)
    | ',' => ([.comma], .between)
    | ':' => ([.colon], .between)
    | '"' => ([], .text [])
    | 'n' => ([], .word ['u', 'l', 'l'] .null)
    | 't' => ([], .word ['r', 'u', 'e'] (.bool true))
    | 'f' => ([], .word ['a', 'l', 's', 'e'] (.bool false))
    | '-' => ([], .number .sign (.start true))
    | _ =>
      match NumeralStage.sign.next? (.start false) c with
      | some (stage, n) => ([], .number stage n)
      | none => stop

def Mode.step (c : Char) : Mode → List Token × Mode
  | .between => stepBetween c
  | .word [] token => (token :: (stepBetween c).1, (stepBetween c).2)
  | .word (expected :: rest) token =>
    if c = expected then
      if rest.isEmpty then ([token], .between) else ([], .word rest token)
    else stop
  | .number stage n =>
    match stage.next? n c with
    | some (stage, n) => ([], .number stage n)
    | none =>
      if stage = .zero ∧ c.isDigit then stop
      else if stage.complete then (.number n :: (stepBetween c).1, (stepBetween c).2)
      else stop
  | .text pieces =>
    if c = '"' then ([.text pieces.reverse], .between)
    else if c = '\\' then ([], .escape pieces)
    else if c.toNat < 0x20 then stop
    else ([], .text (.char c :: pieces))
  | .escape pieces =>
    if c = 'u' then ([], .code pieces 4 0)
    else
      match escapedChar? c with
      | some plain => ([], .text (.char plain :: pieces))
      | none => stop
  | .code pieces left value =>
    match Text.hexValue? c with
    | some digit =>
      if left ≤ 1 then ([], .text (.unit (16 * value + digit) :: pieces))
      else ([], .code pieces (left - 1) (16 * value + digit))
    | none => stop
  | .stopped => ([], .stopped)

def Mode.stray : Mode → List Token × Mode
  | .word [] token => ([token, .broken], .stopped)
  | .number stage n => if stage.complete then ([.number n, .broken], .stopped) else stop
  | .text pieces => ([], .text (.stray :: pieces))
  | .stopped => ([], .stopped)
  | _ => stop

def Mode.finish : Mode → List Token
  | .between => []
  | .number stage n => if stage.complete then [.number n] else [.broken]
  | .stopped => []
  | _ => [.broken]

def Mode.scan : Mode → List Char → List Token
  | mode, [] => mode.finish
  | mode, c :: cs => (mode.step c).1 ++ (mode.step c).2.scan cs

def tokens (s : String) : List Token :=
  Mode.between.scan s.toList

def Mode.scanDecoded : Mode → List (Option Char) → List Token
  | mode, [] => mode.finish
  | mode, some c :: cs => (mode.step c).1 ++ (mode.step c).2.scanDecoded cs
  | mode, none :: cs => mode.stray.1 ++ mode.stray.2.scanDecoded cs

@[simp] theorem Mode.scanDecoded_map_some (mode : Mode) (cs : List Char) :
    mode.scanDecoded (cs.map some) = mode.scan cs := by
  induction cs generalizing mode with
  | nil => rfl
  | cons c cs ih => rw [List.map_cons, scanDecoded, scan, ih]

end QueryConsole.Json
