import QueryConsole.Statement.Select
import QueryConsole.Decimal.Natural
import QueryConsole.Text.Word
import QueryConsole.Failure

namespace QueryConsole

structure Parameters where
  start : Option String := none
  finish : Option String := none
  search : Option String := none
  limit : Option String := none
  offset : Option String := none
  sortField : Option String := none
  sortOrder : Option String := none
  filters : Option String := none
  rangeFilters : Option String := none
  bucket : Option String := none
  normalize : Option String := none
  eventColumns : Option String := none
  groupBy : Option String := none
  deriving DecidableEq

structure Limits where
  default : UInt64 := 100
  most : UInt64 := 1000
  adhoc : UInt64 := 1000
  deriving DecidableEq

def Limits.clamp (l : Limits) (requested : Option UInt64) : UInt64 :=
  let n := requested.getD l.default
  if n < 1 then 1 else if l.most < n then l.most else n

structure Page where
  limit : UInt64
  offset : UInt64
  deriving DecidableEq

inductive Bucket : Type
  | second : Bucket
  | minute : Bucket
  | hour : Bucket
  deriving DecidableEq

namespace Bucket

def name : Bucket → String
  | .second => "second"
  | .minute => "minute"
  | .hour => "hour"

def interval : Bucket → String
  | .second => "INTERVAL 1 SECOND"
  | .minute => "INTERVAL 1 MINUTE"
  | .hour => "INTERVAL 1 HOUR"

def seconds : Bucket → Nat
  | .second => 1
  | .minute => 60
  | .hour => 3600

def parse (raw : Option String) : Bucket :=
  match (Text.given raw).map String.toLower with
  | some "second" => .second
  | some "hour" => .hour
  | _ => .minute

end Bucket

/-- The requested sort column is any text until it is checked against the columns allowed. -/
structure RequestedSort where
  column : Option String
  order : SortOrder
  deriving DecidableEq

namespace RequestedSort

def columnOr (s : RequestedSort) (allowed : String → Bool) (default : String) : String :=
  match s.column with
  | some column => if Text.isIdentifier column && allowed column then column else default
  | none => default

def keyOr (s : RequestedSort) (allowed : String → Bool) (default : String) : SortKey :=
  ⟨s.columnOr allowed default, s.order⟩

end RequestedSort

namespace Parameters

def parseCount (parameter : CountParameter) (raw : Option String) :
    Except Failure (Option UInt64) :=
  match Text.given raw with
  | none => .ok none
  | some s =>
    match Decimal.uint64? s with
    | some n => .ok (some n)
    | none => .error (.invalid (.notACount parameter))

def page (p : Parameters) (limits : Limits) : Except Failure Page := do
  let limit ← parseCount .limit p.limit
  let offset ← parseCount .offset p.offset
  return ⟨limits.clamp limit, offset.getD 0⟩

def sort (p : Parameters) : RequestedSort :=
  ⟨p.sortField, if p.sortOrder = some "ASC" then .ascending else .descending⟩

def bucketWidth (p : Parameters) : Bucket :=
  .parse p.bucket

def perSecond (p : Parameters) : Bool :=
  match Text.given p.normalize with
  | some "true" | some "1" => true
  | _ => false

def eventNames (p : Parameters) : List String :=
  (Text.splitOn ',' (p.eventColumns.getD "")).filterMap fun name => Text.given (some name)

end Parameters

end QueryConsole
