import QueryConsole.Decimal.Natural
import QueryConsole.Text.Hex
import QueryConsole.Text.Word

namespace QueryConsole.Config

inductive HostAddress : Type
  | v4 : Nat → HostAddress
  | v6 : List Nat → (scope : Nat) → HostAddress
  deriving DecidableEq

/-- The addresses of the host of a name, the preferred one first, unless the lookup fails. -/
abbrev HostLookup := String → Option (List HostAddress)

structure Address where
  host : HostAddress
  portNumber : UInt16
  deriving DecidableEq

def readDigit? (base : Nat) (c : Char) : Option Nat :=
  (Text.hexValue? c).filter (· < base)

def readDigits? (base : Nat) (cs : List Char) : Option Nat :=
  if cs.isEmpty then none
  else cs.foldlM (fun value c => (readDigit? base c).map fun digit => base * value + digit) 0

namespace HostAddress

def readOctet? (cs : List Char) : Option Nat :=
  if cs.length ≤ 3 ∧ (cs.head? ≠ some '0' ∨ cs.length = 1) then
    (readDigits? 10 cs).bind fun n => if n < 256 then some n else none
  else none

def ofParts (base : Nat) (parts : List Nat) : Nat :=
  parts.foldl (fun value part => base * value + part) 0

def readDotted? (cs : List Char) : Option Nat :=
  ((Text.splitChars (· == '.') cs).mapM readOctet?).bind fun octets =>
    if octets.length = 4 then some (ofParts 256 octets) else none

def readGroup? (cs : List Char) : Option (List Nat) :=
  if cs.length ≤ 4 then (readDigits? 16 cs).map fun n => [n] else none

def readGroups? (dotted : Bool) (cs : List Char) : Option (List Nat) :=
  if cs.isEmpty then some [] else readEach (Text.splitChars (· == ':') cs)
where
  readEach : List (List Char) → Option (List Nat)
    | [] => some []
    | [last] =>
      match readGroup? last, dotted with
      | some group, _ => some group
      | none, true => (readDotted? last).map fun n => [n / UInt16.size, n % UInt16.size]
      | none, false => none
    | group :: groups => (readGroup? group).bind fun head => (readEach groups).map (head ++ ·)

def splitGap : List Char → Option (List Char × List Char)
  | ':' :: ':' :: rest => some ([], rest)
  | c :: rest => (splitGap rest).map fun (before, after) => (c :: before, after)
  | [] => none

def readColons? (cs : List Char) : Option (List Nat) :=
  match splitGap cs with
  | none => (readGroups? true cs).bind fun groups => if groups.length = 8 then some groups else none
  | some (before, after) =>
    (readGroups? false before).bind fun head =>
      (readGroups? true after).bind fun tail =>
        if head.length + tail.length ≤ 7 then
          some (head ++ List.replicate (8 - head.length - tail.length) 0 ++ tail)
        else none

def read? : List Char → Option HostAddress
  | '[' :: cs =>
    if cs.getLast? = some ']' then
      let inside := cs.dropLast
      let groups := inside.takeWhile (· != '%')
      match inside.dropWhile (· != '%') with
      | [] => (readColons? groups).map fun groups => .v6 groups 0
      | _ :: scope =>
        (readColons? groups).bind fun groups =>
          (readDigits? 10 scope).bind fun n =>
            if n < UInt32.size then some (.v6 groups n) else none
    else none
  | cs => (readDotted? cs).map .v4

def dottedText (n : Nat) : String :=
  ".".intercalate ([n / 0x1000000 % 256, n / 0x10000 % 256, n / 0x100 % 256, n % 256].map toString)

def hexText (n : Nat) : String :=
  String.ofList (Nat.toDigits 16 n)

def colonsText (groups : List Nat) : String :=
  ":".intercalate (groups.map hexText)

def zerosAtStart (groups : List Nat) : Nat :=
  (groups.takeWhile (· == 0)).length

def longestZeros : List Nat → Nat
  | [] => 0
  | group :: groups => max (zerosAtStart (group :: groups)) (longestZeros groups)

def splitZeros (length : Nat) : List Nat → List Nat × List Nat
  | [] => ([], [])
  | group :: groups =>
    if length ≤ zerosAtStart (group :: groups) then ([], (group :: groups).drop length)
    else
      let (before, after) := splitZeros length groups
      (group :: before, after)

def groupsText (groups : List Nat) : String :=
  match groups with
  | [0, 0, 0, 0, 0, 0xFFFF, high, low] => "::ffff:" ++ dottedText (high * UInt16.size + low)
  | _ =>
    let length := longestZeros groups
    if length < 2 then colonsText groups
    else
      let (before, after) := splitZeros length groups
      colonsText before ++ "::" ++ colonsText after

def text : HostAddress → String
  | .v4 n => dottedText n
  | .v6 groups 0 => "[" ++ groupsText groups ++ "]"
  | .v6 groups scope => "[" ++ groupsText groups ++ "%" ++ toString scope ++ "]"

end HostAddress

namespace Address

def readNumber? (digits : String) : Option UInt16 :=
  if digits.toList.head? = some '+' then none else Decimal.uint16? digits

def read? (host digits : String) : Option Address :=
  (HostAddress.read? host.toList).bind fun host => (readNumber? digits).map fun n => ⟨host, n⟩

/-- The addresses of a host and a number with the last colon between them, if they are known.  A
host that is not written out in full is looked up, and may have a plus sign in front of its
number. -/
def resolve? (lookup : HostLookup) (s : String) : Option (List Address) :=
  (Text.splitLast (· == ':') s).bind fun (host, digits) =>
    match read? host digits with
    | some a => some [a]
    | none =>
      (Decimal.uint16? digits).bind fun n =>
        (lookup host).map fun hosts => hosts.map fun host => ⟨host, n⟩

def text (a : Address) : String :=
  a.host.text ++ ":" ++ toString a.portNumber.toNat

end Address

end QueryConsole.Config
