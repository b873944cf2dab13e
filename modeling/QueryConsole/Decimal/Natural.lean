namespace QueryConsole.Decimal

def digitValue (c : Char) : Nat :=
  c.toNat - '0'.toNat

def ofDigits (value : Nat) : List Char → Option Nat
  | [] => some value
  | c :: cs => if c.isDigit then ofDigits (10 * value + digitValue c) cs else none

def unsignedDigits : List Char → List Char
  | '+' :: cs => cs
  | cs => cs

def natural? (s : String) : Option Nat :=
  match unsignedDigits s.toList with
  | [] => none
  | digits => ofDigits 0 digits

def uint64? (s : String) : Option UInt64 :=
  (natural? s).bind fun n => if n < UInt64.size then some (UInt64.ofNat n) else none

def uint16? (s : String) : Option UInt16 :=
  (natural? s).bind fun n => if n < UInt16.size then some (UInt16.ofNat n) else none

end QueryConsole.Decimal
