import QueryConsole.Text.Hex
import QueryConsole.Text.Lines
import QueryConsole.Text.Utf8

namespace QueryConsole.Http

def percentDecode : List Char → List UInt8
  | [] => []
  | '%' :: a :: b :: rest =>
    match Text.hexValue? a, Text.hexValue? b with
    | some high, some low => Text.Utf8.byte (16 * high + low) :: percentDecode rest
    | _, _ => Text.Utf8.byte '%'.toNat :: percentDecode (a :: b :: rest)
  | c :: rest => Text.Utf8.encodeChar c ++ percentDecode rest

def percentByte (b : UInt8) : List Char :=
  ['%', Text.upperHexDigit (b.toNat / 16), Text.upperHexDigit (b.toNat % 16)]

def decodeSegment? (segment : String) : Option String :=
  Text.Utf8.decodeStrict? (percentDecode segment.toList)

namespace Form

def decodePart (part : List Char) : String :=
  Text.Utf8.decodeLossy (percentDecode (part.map fun c => if c = '+' then ' ' else c))

def decodePair (pair : List Char) : String × String :=
  (decodePart (pair.takeWhile (· != '=')), decodePart ((pair.dropWhile (· != '=')).drop 1))

def decode (query : String) : List (String × String) :=
  ((Text.splitChars (· == '&') query.toList).filter fun pair => !pair.isEmpty).map decodePair

def isPlain (b : UInt8) : Bool :=
  let c := Char.ofNat b.toNat
  b.toNat < 0x80 && (c.isAlphanum || c == '*' || c == '-' || c == '.' || c == '_')

def encodeByte (b : UInt8) : List Char :=
  if b = 0x20 then ['+'] else if isPlain b then [Char.ofNat b.toNat] else percentByte b

def encodePart (s : String) : List Char :=
  (Text.Utf8.encode s.toList).flatMap encodeByte

def encodePair (pair : String × String) : String :=
  String.ofList (encodePart pair.1 ++ '=' :: encodePart pair.2)

def encode (pairs : List (String × String)) : String :=
  "&".intercalate (pairs.map encodePair)

end Form

end QueryConsole.Http
