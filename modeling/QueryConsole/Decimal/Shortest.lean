import QueryConsole.Decimal.Double

/-! The shortest decimal that reads back as a given binary64 number, the nearest one of those, and
the even one of two equally near; and its text. -/

namespace QueryConsole.Decimal

structure Scaled where
  digits : Nat
  scale : Int
  deriving DecidableEq

/-- The reals that round to a magnitude lie between the bounds; all three are multiples of a quarter
of its last place. -/
structure Interval where
  low : Nat
  middle : Nat
  high : Nat
  unit : Nat × Nat
  closed : Bool

def Magnitude.interval (m : Magnitude) : Interval :=
  let quarter := m.exponent - 2
  let narrow := m.significand = Nat.pow 2 52 ∧ leastExponent < m.exponent
  { low := 4 * m.significand - if narrow then 1 else 2
    middle := 4 * m.significand
    high := 4 * m.significand + 2
    unit := if 0 ≤ quarter then (Nat.pow 2 quarter.toNat, 1) else (1, Nat.pow 2 (-quarter).toNat)
    closed := m.significand % 2 = 0 }

def floorLog10 (num den : Nat) : Int :=
  if den ≤ num then ((Nat.toDigits 10 (num / den)).length : Int) - 1
  else
    match (List.range 400).find? fun k => den ≤ num * Nat.pow 10 k with
    | some k => -(k : Int)
    | none => 0

def Interval.inUnits (i : Interval) (a : Nat) (scale : Int) : Nat × Nat :=
  if 0 ≤ scale then (a * Nat.pow 10 scale.toNat * i.unit.2, i.unit.1)
  else (a * i.unit.2, i.unit.1 * Nat.pow 10 (-scale).toNat)

def Interval.contains (i : Interval) (a : Nat) (scale : Int) : Bool :=
  let (n, d) := i.inUnits a scale
  if i.closed then i.low * d ≤ n && n ≤ i.high * d else i.low * d < n && n < i.high * d

def Interval.distance (i : Interval) (a : Nat) (scale : Int) : Nat :=
  let (n, d) := i.inUnits a scale
  if n ≤ i.middle * d then i.middle * d - n else n - i.middle * d

def Interval.onGrid? (i : Interval) (scale : Int) : Option Scaled :=
  let (n, d) := i.inUnits 1 scale
  let below := i.middle * d / n
  let above := below + 1
  match i.contains below scale, i.contains above scale with
  | true, true =>
    let down := i.distance below scale
    let up := i.distance above scale
    if down < up ∨ (down = up ∧ below % 2 = 0) then some ⟨below, scale⟩ else some ⟨above, scale⟩
  | true, false => some ⟨below, scale⟩
  | false, true => some ⟨above, scale⟩
  | false, false => none

def Magnitude.shortest (m : Magnitude) : Scaled :=
  let top := floorLog10 m.ratio.1 m.ratio.2
  match (List.range 17).findSome? fun (k : Nat) => m.interval.onGrid? (top - k) with
  | some s => s
  | none => ⟨m.significand, 0⟩

def dropTrailingZeros (digits : List Char) : List Char :=
  (digits.reverse.dropWhile (· == '0')).reverse

def Scaled.text (s : Scaled) : String :=
  let all := Nat.toDigits 10 s.digits
  let digits := dropTrailingZeros all
  let top : Int := s.scale + all.length - 1
  if 0 ≤ top ∧ top ≤ 15 then
    let places := top.toNat + 1
    let whole := digits.take places ++ List.replicate (places - digits.length) '0'
    let rest := digits.drop places
    String.ofList (whole ++ '.' :: if rest.isEmpty then ['0'] else rest)
  else if -5 ≤ top ∧ top < 0 then
    String.ofList ('0' :: '.' :: List.replicate (top.natAbs - 1) '0' ++ digits)
  else
    let point := if digits.length ≤ 1 then [] else '.' :: digits.drop 1
    let sign := if 0 ≤ top then "+" else "-"
    String.ofList (digits.take 1 ++ point) ++ "e" ++ sign ++ toString top.natAbs

def Magnitude.text (m : Magnitude) : String :=
  if m.isZero then "0.0" else m.shortest.text

def Double.text (x : Double) : String :=
  if x.negative then "-" ++ x.magnitude.text else x.magnitude.text

end QueryConsole.Decimal
