namespace QueryConsole.Http

structure MediaType where
  type : String
  subtype : String
  suffix : Option String
  deriving DecidableEq

namespace MediaType

def isTokenChar (c : Char) : Bool :=
  c.isAlphanum || "!#$%&'*+-.^_`|~".toList.contains c

def isQuotedChar (c : Char) : Bool :=
  32 ≤ c.toNat && c.toNat != 127

inductive Stage : Type
  | beforeName : Stage
  | name : Stage
  | beforeValue : Stage
  | value : Stage
  | quote : Stage
  | quoted : Stage
  | afterQuote : Stage
  deriving DecidableEq

def Stage.next? (c : Char) : Stage → Option Stage
  | .beforeName =>
    if c = ' ' then some .beforeName else if isTokenChar c then some .name else none
  | .name => if c = '=' then some .beforeValue else if isTokenChar c then some .name else none
  | .beforeValue => if c = '"' then some .quote else if isTokenChar c then some .value else none
  | .value => if c = ';' then some .beforeName else if isTokenChar c then some .value else none
  | .quote => if isQuotedChar c then some .quoted else none
  | .quoted => if c = '"' then some .afterQuote else if isQuotedChar c then some .quoted else none
  | .afterQuote =>
    if c = ';' then some .beforeName else if c = ' ' then some .afterQuote else none

def Stage.complete : Stage → Bool
  | .beforeName | .beforeValue | .value | .afterQuote => true
  | .name | .quote | .quoted => false

def parametersAllowed (cs : List Char) : Bool :=
  match cs.foldlM (fun stage c => Stage.next? c stage) Stage.beforeName with
  | some stage => stage.complete
  | none => false

def splitSuffix (cs : List Char) : List Char × Option (List Char) :=
  let suffix := (cs.reverse.takeWhile (· != '+')).reverse
  if suffix.length + 1 < cs.length then
    (cs.take (cs.length - suffix.length - 1), some suffix)
  else (cs, none)

def lowered (cs : List Char) : String :=
  String.ofList (cs.map Char.toLower)

def parse? (s : String) : Option MediaType :=
  let type := s.toList.takeWhile isTokenChar
  match s.toList.dropWhile isTokenChar with
  | '/' :: rest =>
    let subtype := rest.takeWhile isTokenChar
    let (main, suffix) := splitSuffix subtype
    let accepted :=
      match rest.dropWhile isTokenChar with
      | [] => true
      | ';' :: parameters => !subtype.isEmpty && parametersAllowed parameters
      | _ => false
    if !type.isEmpty && accepted then
      some ⟨lowered type, lowered main, suffix.map lowered⟩
    else none
  | _ => none

def isJson (m : MediaType) : Bool :=
  m.type == "application" && (m.subtype == "json" || m.suffix == some "json")

end MediaType

end QueryConsole.Http
