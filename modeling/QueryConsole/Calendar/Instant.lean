import QueryConsole.Calendar.Date

namespace QueryConsole.Calendar

structure Instant where
  second : Int
  /-- Below `1000000000`, or below `2000000000` in a leap second. -/
  nanos : Nat
  deriving DecidableEq

def nanosPerSecond : Nat := 1000000000

def secondsPerDay : Int := 86400

def padded (width n : Nat) : String :=
  let digits := toString n
  String.ofList (List.replicate (width - digits.length) '0') ++ digits

def yearText (year : Int) : String :=
  if 0 ≤ year ∧ year ≤ 9999 then padded 4 year.toNat
  else if 0 ≤ year then "+" ++ padded 4 year.toNat
  else "-" ++ padded 4 year.natAbs

namespace Instant

def date (t : Instant) : Date :=
  Date.ofDays (t.second / secondsPerDay)

def secondOfDay (t : Instant) : Nat :=
  (t.second % secondsPerDay).toNat

def hour (t : Instant) : Nat := t.secondOfDay / 3600

def minute (t : Instant) : Nat := t.secondOfDay / 60 % 60

def clockSecond (t : Instant) : Nat := t.secondOfDay % 60 + t.nanos / nanosPerSecond

def text (t : Instant) : String :=
  yearText t.date.year ++ "-" ++ padded 2 t.date.month ++ "-" ++ padded 2 t.date.day ++ " " ++
    padded 2 t.hour ++ ":" ++ padded 2 t.minute ++ ":" ++ padded 2 t.clockSecond

def endOfMinute (t : Instant) : Instant :=
  ⟨t.second - t.second % 60 + 59, 0⟩

end Instant

end QueryConsole.Calendar
