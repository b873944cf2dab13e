import QueryConsole.Calendar.Instant
import QueryConsole.Text.Blank
import QueryConsole.Decimal.Natural

/-! Time literals.  Five shapes are tried in order: RFC 3339 with its offset, then four shapes
without one, which are read as UTC and whose numbers may be short or have blanks before them. -/

namespace QueryConsole.Calendar

structure Fields where
  year : Int := 0
  month : Nat := 0
  day : Nat := 0
  hour : Nat := 0
  minute : Nat := 0
  second : Nat := 0
  nanos : Nat := 0
  deriving DecidableEq

inductive Part : Type
  | month : Part
  | day : Part
  | hour : Part
  | minute : Part
  | second : Part
  deriving DecidableEq

def Fields.set (f : Fields) (n : Nat) : Part → Fields
  | .month => { f with month := n }
  | .day => { f with day := n }
  | .hour => { f with hour := n }
  | .minute => { f with minute := n }
  | .second => { f with second := n }

inductive Item : Type
  | fullYear : Item
  | year : Item
  | full : Part → Item
  | short : Part → Item
  | fraction : Item
  | char : Char → Item
  | oneOf : List Char → Item
  | gap : Item
  deriving DecidableEq

def digitsValue (digits : List Char) : Nat :=
  digits.foldl (fun n c => 10 * n + Decimal.digitValue c) 0

def takeNumber (most : Nat) (cs : List Char) : Option (Nat × List Char) :=
  let digits := (cs.take most).takeWhile Char.isDigit
  if digits.isEmpty then none else some (digitsValue digits, cs.drop digits.length)

def takeFull (width : Nat) (cs : List Char) : Option (Nat × List Char) :=
  let digits := cs.take width
  if digits.length = width ∧ digits.all Char.isDigit then
    some (digitsValue digits, cs.drop width)
  else none

def takeYear (cs : List Char) : Option (Int × List Char) :=
  match cs with
  | '-' :: rest => (takeNumber rest.length rest).map fun (n, rest) => (-n, rest)
  | '+' :: rest => (takeNumber rest.length rest).map fun (n, rest) => (n, rest)
  | _ => (takeNumber 4 cs).map fun (n, rest) => (n, rest)

def takeNanos (cs : List Char) : Option (Nat × List Char) :=
  let digits := cs.takeWhile Char.isDigit
  let kept := digits.take 9
  if digits.isEmpty then none
  else some (digitsValue kept * Nat.pow 10 (9 - kept.length), cs.drop digits.length)

def readItem (f : Fields) (cs : List Char) : Item → Option (Fields × List Char)
  | .fullYear => (takeFull 4 cs).map fun (n, rest) => ({ f with year := n }, rest)
  | .year =>
    (takeYear (cs.dropWhile Text.isBlank)).map fun (n, rest) => ({ f with year := n }, rest)
  | .full part => (takeFull 2 cs).map fun (n, rest) => (f.set n part, rest)
  | .short part =>
    (takeNumber 2 (cs.dropWhile Text.isBlank)).map fun (n, rest) => (f.set n part, rest)
  | .fraction =>
    match cs with
    | '.' :: rest => (takeNanos rest).map fun (n, rest) => ({ f with nanos := n }, rest)
    | _ => some (f, cs)
  | .char c =>
    match cs with
    | d :: rest => if d = c then some (f, rest) else none
    | [] => none
  | .oneOf allowed =>
    match cs with
    | d :: rest => if d ∈ allowed then some (f, rest) else none
    | [] => none
  | .gap => some (f, cs.dropWhile Text.isBlank)

def readItems : List Item → Fields → List Char → Option (Fields × List Char)
  | [], f, cs => some (f, cs)
  | item :: items, f, cs => (readItem f cs item).bind fun (f, rest) => readItems items f rest

def rfc3339Items : List Item :=
  [.fullYear, .char '-', .full .month, .char '-', .full .day, .oneOf ['t', 'T', ' '],
   .full .hour, .char ':', .full .minute, .char ':', .full .second, .fraction]

def dateItems : List Item :=
  [.year, .char '-', .short .month, .char '-', .short .day]

def minuteItems : List Item :=
  [.short .hour, .char ':', .short .minute]

def secondItems : List Item :=
  minuteItems ++ [.char ':', .short .second, .fraction]

/-- The shapes without an offset, in the order they are tried. -/
def localShapes : List (List Item) :=
  [dateItems ++ .gap :: secondItems, dateItems ++ .char 'T' :: secondItems,
   dateItems ++ .gap :: minuteItems, dateItems ++ .char 'T' :: minuteItems]

def readOffset : List Char → Option Int
  | ['Z'] | ['z'] => some 0
  | sign :: cs =>
    match takeFull 2 cs with
    | some (hours, ':' :: cs) =>
      match takeFull 2 cs with
      | some (minutes, []) =>
        if hours ≤ 23 ∧ minutes ≤ 59 then
          let seconds : Int := hours * 3600 + minutes * 60
          if sign = '+' then some seconds
          else if sign = '-' ∨ sign = '\u2212' then some (-seconds)
          else none
        else none
      | _ => none
    | _ => none
  | [] => none

def leastYear : Int := -262143

def greatestYear : Int := 262142

namespace Fields

def date (f : Fields) : Date := ⟨f.year, f.month, f.day⟩

/-- The fields name a day of the calendar and a time on the clock, second 60 included. -/
def Valid (f : Fields) : Prop :=
  (leastYear ≤ f.year ∧ f.year ≤ greatestYear) ∧ f.date.Valid ∧
    f.hour ≤ 23 ∧ f.minute ≤ 59 ∧ f.second ≤ 60

instance (f : Fields) : Decidable f.Valid :=
  inferInstanceAs (Decidable ((_ ∧ _) ∧ _ ∧ _ ∧ _ ∧ _))

def instant? (f : Fields) (offset : Int) : Option Instant :=
  if f.Valid then
    some
      { second :=
          f.date.toDays * secondsPerDay + f.hour * 3600 + f.minute * 60 +
            min f.second 59 - offset
        nanos := f.nanos + if f.second = 60 then nanosPerSecond else 0 }
  else none

end Fields

def readRfc3339 (cs : List Char) : Option Instant := do
  let (f, rest) ← readItems rfc3339Items {} cs
  f.instant? (← readOffset rest)

def readLocal (shape : List Item) (cs : List Char) : Option Instant :=
  match readItems shape {} cs with
  | some (f, []) => f.instant? 0
  | _ => none

def readInstant (s : String) : Option Instant :=
  (readRfc3339 s.toList).or (localShapes.findSome? fun shape => readLocal shape s.toList)

end QueryConsole.Calendar
