namespace QueryConsole.Calendar

structure Date where
  year : Int
  month : Nat
  day : Nat
  deriving DecidableEq

def isLeap (year : Int) : Bool :=
  year % 4 == 0 && (year % 100 != 0 || year % 400 == 0)

def daysInMonth (year : Int) : Nat → Nat
  | 2 => if isLeap year then 29 else 28
  | 4 | 6 | 9 | 11 => 30
  | _ => 31

def daysBeforeYear (year : Int) : Int :=
  365 * year + (year + 3) / 4 - (year + 99) / 100 + (year + 399) / 400

def daysBeforeMonth (year : Int) (month : Nat) : Nat :=
  ((List.range (month - 1)).map fun m => daysInMonth year (m + 1)).foldl (· + ·) 0

def epochOffset : Int := 719528

def dayInMonths (year : Int) (month days : Nat) : Nat → Nat × Nat
  | 0 => (month, days + 1)
  | monthsLeft + 1 =>
    if days < daysInMonth year month then (month, days + 1)
    else dayInMonths year (month + 1) (days - daysInMonth year month) monthsLeft

def yearOfDay (day : Int) : Int :=
  let guess := 400 * day / 146097
  if day < daysBeforeYear guess then guess - 1
  else if daysBeforeYear (guess + 1) ≤ day then guess + 1
  else guess

namespace Date

def Valid (d : Date) : Prop :=
  1 ≤ d.month ∧ d.month ≤ 12 ∧ 1 ≤ d.day ∧ d.day ≤ daysInMonth d.year d.month

instance (d : Date) : Decidable d.Valid :=
  inferInstanceAs (Decidable (_ ∧ _ ∧ _ ∧ _))

def toDays (d : Date) : Int :=
  daysBeforeYear d.year + daysBeforeMonth d.year d.month + (d.day - 1) - epochOffset

def ofDays (days : Int) : Date :=
  let day := days + epochOffset
  let year := yearOfDay day
  let (month, dayOfMonth) := dayInMonths year 1 (day - daysBeforeYear year).toNat 11
  ⟨year, month, dayOfMonth⟩

end Date

end QueryConsole.Calendar
