namespace QueryConsole.Text

def isBlank (c : Char) : Bool :=
  let n := c.toNat
  (0x09 ≤ n && n ≤ 0x0D) || n == 0x20 || n == 0x85 || n == 0xA0 || n == 0x1680 ||
    (0x2000 ≤ n && n ≤ 0x200A) || n == 0x2028 || n == 0x2029 || n == 0x202F || n == 0x205F ||
    n == 0x3000

def dropEndWhile (p : Char → Bool) (cs : List Char) : List Char :=
  (cs.reverse.dropWhile p).reverse

def trimChars (cs : List Char) : List Char :=
  dropEndWhile isBlank (cs.dropWhile isBlank)

def trim (s : String) : String :=
  String.ofList (trimChars s.toList)

def isBlankText (s : String) : Bool :=
  s.toList.all isBlank

def given (raw : Option String) : Option String :=
  match raw with
  | none => none
  | some s => if isBlankText s then none else some (trim s)

@[simp] theorem given_none : given none = none := rfl

theorem dropEndWhile_append_of_all {p : Char → Bool} {cs ds : List Char} (h : ds.all p = true) :
    dropEndWhile p (cs ++ ds) = dropEndWhile p cs := by
  simp only [dropEndWhile, List.reverse_append]
  rw [List.dropWhile_append_of_pos]
  simpa using h

end QueryConsole.Text
