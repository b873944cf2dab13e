namespace QueryConsole.Decimal

/-- `significand * 2 ^ exponent`, the significand below `2 ^ 53`, and not below `2 ^ 52` unless the
exponent is the least. -/
structure Magnitude where
  significand : Nat
  exponent : Int
  deriving DecidableEq

structure Double where
  negative : Bool
  magnitude : Magnitude
  deriving DecidableEq

def leastExponent : Int := -1074

def greatestExponent : Int := 971

def roundDiv (num den : Nat) : Nat :=
  let quotient := num / den
  let twice := 2 * (num % den)
  if twice < den then quotient
  else if den < twice then quotient + 1
  else quotient + quotient % 2

def scaledRatio (num den : Nat) (e : Int) : Nat × Nat :=
  if 0 ≤ e then (num, den * Nat.pow 2 e.toNat) else (num * Nat.pow 2 (-e).toNat, den)

def floorLog2 (num den : Nat) : Int :=
  let guess : Int := (num.log2 : Int) - den.log2
  let (n, d) := scaledRatio num den guess
  if d ≤ n then guess else guess - 1

namespace Magnitude

def zero : Magnitude := ⟨0, leastExponent⟩

def isZero (m : Magnitude) : Bool := m.significand == 0

def ratio (m : Magnitude) : Nat × Nat :=
  if 0 ≤ m.exponent then (m.significand * Nat.pow 2 m.exponent.toNat, 1)
  else (m.significand, Nat.pow 2 (-m.exponent).toNat)

def nearest? (num den : Nat) : Option Magnitude :=
  if num = 0 then some zero
  else
    let e := max (floorLog2 num den - 52) leastExponent
    let (n, d) := scaledRatio num den e
    let rounded := roundDiv n d
    let m : Magnitude := if rounded = Nat.pow 2 53 then ⟨Nat.pow 2 52, e + 1⟩ else ⟨rounded, e⟩
    if m.exponent ≤ greatestExponent then some m else none

def mul? (a b : Magnitude) : Option Magnitude :=
  nearest? (a.ratio.1 * b.ratio.1) (a.ratio.2 * b.ratio.2)

def div? (a b : Magnitude) : Option Magnitude :=
  nearest? (a.ratio.1 * b.ratio.2) (a.ratio.2 * b.ratio.1)

def tenPow? (k : Nat) : Option Magnitude :=
  nearest? (Nat.pow 10 k) 1

end Magnitude

def greatestTenPow : Nat := 308

def divideOut : Nat → Magnitude → Option Magnitude
  | 0, m => some m
  | times + 1, m =>
    if m.isZero then some m
    else
      (Magnitude.tenPow? greatestTenPow).bind fun p =>
        (m.div? p).bind fun q => divideOut times q

/-- The significand times a power of ten, with one rounding for the significand and one for each
multiplication or division by a power of ten that has a magnitude. -/
def scaleTen? (significand : Nat) (exponent : Int) : Option Magnitude :=
  (Magnitude.nearest? significand 1).bind fun m =>
    if 0 ≤ exponent then
      if m.isZero then some m
      else if greatestTenPow < exponent then none
      else (Magnitude.tenPow? exponent.toNat).bind m.mul?
    else
      let places := exponent.natAbs
      let steps := (places - 1) / greatestTenPow
      (divideOut steps m).bind fun m =>
        (Magnitude.tenPow? (places - greatestTenPow * steps)).bind m.div?

end QueryConsole.Decimal
