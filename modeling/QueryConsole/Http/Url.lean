import QueryConsole.Config.Address
import QueryConsole.Http.Form

namespace QueryConsole.Http

structure Url where
  host : String
  segments : List String
  query : Option String
  deriving DecidableEq

namespace Url

def isSlash (c : Char) : Bool :=
  c == '/' || c == '\\'

def endsHost (c : Char) : Bool :=
  isSlash c || c == '?' || c == '#'

def strip (cs : List Char) : List Char :=
  let outside (c : Char) : Bool := c.toNat ≤ 0x20
  ((Text.dropEndWhile outside (cs.dropWhile outside)).filter fun c =>
    c != '\t' && c != '\n' && c != '\r')

def isNameChar (c : Char) : Bool :=
  c.isAlphanum || c == '-' || c == '.' || c == '_'

def isAddressChar (c : Char) : Bool :=
  (Text.hexValue? c).isSome || c == ':' || c == '.'

def isPortNumber : List Char → Bool
  | [] => true
  | ':' :: digits =>
    digits.all Char.isDigit &&
      (digits.isEmpty || (Decimal.uint16? (String.ofList digits)).isSome)
  | _ => false

def readPart? : List Char → Option Nat
  | '0' :: 'x' :: digits | '0' :: 'X' :: digits =>
    if digits.isEmpty then some 0 else Config.readDigits? 16 digits
  | '0' :: c :: digits => Config.readDigits? 8 (c :: digits)
  | digits => Config.readDigits? 10 digits

def labels (name : List Char) : List (List Char) :=
  let labels := Text.splitChars (· == '.') name
  if 1 < labels.length ∧ labels.getLast? = some [] then labels.dropLast else labels

def endsInNumber (name : List Char) : Bool :=
  match (labels name).getLast? with
  | some last => (!last.isEmpty && last.all Char.isDigit) || (readPart? last).isSome
  | none => false

def isNumericHost (name : List Char) : Bool :=
  match (labels name).mapM readPart? with
  | none => false
  | some parts =>
    parts.length ≤ 4 && parts.dropLast.all (· < 256) &&
      parts.getLast?.any (· < Nat.pow 256 (5 - parts.length))

/-- Labels that stand for text outside of ASCII are not read. -/
def isEncodedLabel (label : List Char) : Bool :=
  (label.take 4).map Char.toLower == "xn--".toList

def isName (name : List Char) : Bool :=
  !name.isEmpty && name.all isNameChar &&
    if endsInNumber name then isNumericHost name else !(labels name).any isEncodedLabel

def isHost : List Char → Bool
  | '[' :: rest =>
    let address := rest.takeWhile (· != ']')
    address.all isAddressChar && (Config.HostAddress.readColons? address).isSome &&
      rest.contains ']' && isPortNumber ((rest.dropWhile (· != ']')).drop 1)
  | cs => isName (cs.takeWhile (· != ':')) && isPortNumber (cs.dropWhile (· != ':'))

def encodeIf (mark : Char → Bool) (c : Char) : List Char :=
  if c.toNat ≤ 0x20 || 0x7F ≤ c.toNat || mark c then
    (Text.Utf8.encodeChar c).flatMap percentByte
  else [c]

def isPathMark (c : Char) : Bool :=
  c == '"' || c == '<' || c == '>' || c == '^' || c == '`' || c == '\x7b' || c == '\x7d'

def isQueryMark (c : Char) : Bool :=
  c == '"' || c == '\'' || c == '<' || c == '>'

def decodeDots : List Char → List Char
  | '%' :: '2' :: 'e' :: rest | '%' :: '2' :: 'E' :: rest => '.' :: decodeDots rest
  | c :: rest => c :: decodeDots rest
  | [] => []

/-- Resolves dot segments; the segments passed are in reverse order.  A path that ends in a dot
segment ends in a slash. -/
def resolve (passed : List (List Char)) : List (List Char) → List (List Char)
  | [] => passed.reverse
  | [last] =>
    if decodeDots last = ['.'] then ([] :: passed).reverse
    else if decodeDots last = ['.', '.'] then ([] :: passed.tail).reverse
    else (last :: passed).reverse
  | segment :: rest =>
    if decodeDots segment = ['.'] then resolve passed rest
    else if decodeDots segment = ['.', '.'] then resolve passed.tail rest
    else resolve (segment :: passed) rest

def readSegments (path : List Char) : List String :=
  (resolve [] (Text.splitChars isSlash (path.drop 1))).map fun segment =>
    String.ofList (segment.flatMap (encodeIf isPathMark))

def readQuery : List Char → Option String
  | '?' :: rest =>
    some (String.ofList ((rest.takeWhile (· != '#')).flatMap (encodeIf isQueryMark)))
  | _ => none

def parse? (s : String) : Option Url :=
  let cs := strip s.toList
  let scheme := String.ofList ((cs.takeWhile (· != ':')).map Char.toLower)
  let rest := ((cs.dropWhile (· != ':')).drop 1).dropWhile isSlash
  let host := rest.takeWhile fun c => !endsHost c
  let location := rest.dropWhile fun c => !endsHost c
  if (scheme == "http" || scheme == "https") && isHost host then
    let path := location.takeWhile fun c => c != '?' && c != '#'
    some
      { host := String.ofList host
        segments := readSegments path
        query := readQuery (location.dropWhile fun c => c != '?' && c != '#') }
  else none

def withPairs (u : Url) (pairs : List (String × String)) : Url :=
  match u.query with
  | some query => { u with query := some (query ++ "&" ++ Form.encode pairs) }
  | none => { u with query := some (Form.encode pairs) }

def path (u : Url) : String :=
  "/" ++ "/".intercalate u.segments

def target (u : Url) : String :=
  match u.query with
  | some query => u.path ++ "?" ++ query
  | none => u.path

end Url

end QueryConsole.Http
