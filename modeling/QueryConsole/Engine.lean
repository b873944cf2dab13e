import QueryConsole.Statement.Compile
import QueryConsole.Statement.Explain
import QueryConsole.Storage

/-! The operations of the console over a storage.  Each checks its whole request first and then
makes one call. -/

namespace QueryConsole

def Dataset.ofName (name : String) : Except Failure Dataset :=
  match Dataset.ofName? name with
  | some d => .ok d
  | none => .error (.invalid (.unknownDataset name))

structure AdhocRequest where
  query : String := ""
  limit : Option UInt64 := none
  deriving DecidableEq

structure AdhocResult where
  rows : List Json
  duration : Nat := 0

def AdhocResult.json (r : AdhocResult) : Json :=
  .object
    [("data", .array r.rows), ("rowCount", .ofNat r.rows.length), ("duration", .ofNat r.duration)]

structure ExplainRequest where
  mode : String := ""
  query : String := ""
  deriving DecidableEq

structure Engine where
  storage : Storage
  limits : Limits

/-- An unsigned integer, or the text of one: the store quotes large integers. -/
def readTotal : Json → Option UInt64
  | .number (.integer n) => if 0 ≤ n ∧ n < UInt64.size then some (UInt64.ofNat n.toNat) else none
  | .text s => Decimal.uint64? s
  | _ => none

def totalOf (rows : List Json) : Option UInt64 :=
  rows.head?.bind fun row => (row.member? "total").bind readTotal

namespace Engine

def preview (e : Engine) (d : Dataset) (pattern : ReadPattern) (p : Parameters) :
    Except Failure Statement :=
  compile d pattern p e.limits

def read (e : Engine) (d : Dataset) (pattern : ReadPattern) (p : Parameters) :
    Outcome (List Json) :=
  .after (compile d pattern p e.limits) (.callRows e.storage)

def count (e : Engine) (d : Dataset) (p : Parameters) : Outcome UInt64 :=
  (e.read d .count p).andThen fun rows =>
    match totalOf rows with
    | some total => .ok total
    | none => .error (.store (.noTotal d))

def adhoc (e : Engine) (r : AdhocRequest) : Outcome AdhocResult :=
  Outcome.after (Adhoc.compile r.query (r.limit.getD e.limits.adhoc)) fun s =>
    (Outcome.callRows e.storage s).andThen fun rows => .ok { rows }

def explain (e : Engine) (r : ExplainRequest) : Outcome (List Json) :=
  .after (ExplainMode.ofName r.mode) fun mode =>
    .after (Explain.compile mode r.query) fun s =>
      if mode.isPlainText then
        (Outcome.callText e.storage s).andThen fun text => .ok (Explain.wrapLines text)
      else .callRows e.storage s

end Engine

end QueryConsole
