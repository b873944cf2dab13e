import QueryConsole.Calendar.Literal
import QueryConsole.Failure

namespace QueryConsole.Calendar

structure Window where
  start : Option Instant
  finish : Option Instant
  deriving DecidableEq

def parseInstant (literal : String) : Except Failure Instant :=
  match readInstant literal with
  | some t => .ok t
  | none => .error (.invalid (.notATime literal))

def parseBound (raw : Option String) : Except Failure (Option Instant) :=
  match Text.given raw with
  | none => .ok none
  | some literal => (parseInstant literal).map some

namespace Window

def parse (start finish : Option String) : Except Failure Window := do
  let start ← parseBound start
  let finish ← parseBound finish
  return ⟨start, finish⟩

def effectiveEnd (w : Window) : Option Instant :=
  match w.finish with
  | some t => if w.start = some t then some t.endOfMinute else some t
  | none => none

end Window

end QueryConsole.Calendar
