import QueryConsole.Text.Lines

namespace QueryConsole.Text

def isWordChar (c : Char) : Bool :=
  c.isAlphanum || c == '_'

def isIdentifier (s : String) : Bool :=
  match s.toList with
  | [] => false
  | c :: cs => (c.isAlpha || c == '_') && cs.all isWordChar

def sameWord (a b : String) : Bool :=
  a.toList.map Char.toUpper == b.toList.map Char.toUpper

def words (s : String) : List String :=
  ((splitChars (fun c => !isWordChar c) s.toList).filter (fun w => !w.isEmpty)).map String.ofList

def splitLast (p : Char → Bool) (s : String) : Option (String × String) :=
  let tail := s.toList.reverse.takeWhile (fun c => !p c)
  match s.toList.reverse.dropWhile (fun c => !p c) with
  | [] => none
  | _ :: head => some (String.ofList head.reverse, String.ofList tail.reverse)

end QueryConsole.Text
