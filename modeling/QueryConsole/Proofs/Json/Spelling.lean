import QueryConsole.Json.Reader
import QueryConsole.Proofs.Text.Split

namespace QueryConsole.Json

section Grammar

variable {α : Type}

inductive IsCode : Nat → List Char → Prop
  | digits {a b c d : Char} {i j k l : Nat} (ha : Text.hexValue? a = some i)
    (hb : Text.hexValue? b = some j) (hc : Text.hexValue? c = some k)
    (hd : Text.hexValue? d = some l) : IsCode (16 * (16 * (16 * i + j) + k) + l) [a, b, c, d]

/-- How one character of a text may be written. -/
inductive IsSpelling : Char → List Char → Prop
  | plain {c : Char} (hcontrol : 0x20 ≤ c.toNat) (hquote : c ≠ '"') (hbackslash : c ≠ '\\') :
    IsSpelling c [c]
  | letter {c letter : Char} (h : escapedChar? letter = some c) : IsSpelling c ['\\', letter]
  | code {c : Char} {digits : List Char} (h : IsCode c.toNat digits) :
    IsSpelling c ('\\' :: 'u' :: digits)
  | pair {c : Char} {high low : Nat} {digits digits' : List Char} (h : IsCode high digits)
    (h' : IsCode low digits') (hhigh : 0xD800 ≤ high ∧ high < 0xDC00)
    (hlow : 0xDC00 ≤ low ∧ low < 0xE000)
    (hc : c.toNat = 0x10000 + (high - 0xD800) * 0x400 + (low - 0xDC00)) :
    IsSpelling c ('\\' :: 'u' :: digits ++ '\\' :: 'u' :: digits')

inductive IsText (s : String) : List Char → Prop
  | quoted {body : List Char} (h : Text.Spells IsSpelling s.toList body) :
    IsText s ('"' :: (body ++ ['"']))

def Spaces (cs : List Char) : Prop :=
  ∀ c ∈ cs, isSpace c = true

inductive Listed (IsPart : α → List Char → Prop) : List α → List Char → Prop
  | single {a : α} {before cs after : List Char} (hbefore : Spaces before) (ha : IsPart a cs)
    (hafter : Spaces after) : Listed IsPart [a] (before ++ (cs ++ after))
  | cons {a : α} {as : List α} {before cs after rest : List Char} (hbefore : Spaces before)
    (ha : IsPart a cs) (hafter : Spaces after) (has : Listed IsPart as rest) :
    Listed IsPart (a :: as) (before ++ (cs ++ (after ++ ',' :: rest)))

inductive Enclosed (opening closing : Char) (IsPart : α → List Char → Prop) :
    List α → List Char → Prop
  | empty {space : List Char} (h : Spaces space) :
    Enclosed opening closing IsPart [] (opening :: (space ++ [closing]))
  | listed {as : List α} {cs : List Char} (h : Listed IsPart as cs) :
    Enclosed opening closing IsPart as (opening :: (cs ++ [closing]))

def IsTexts : List String → List Char → Prop :=
  Enclosed '[' ']' IsText

inductive IsMember (m : String × List String) : List Char → Prop
  | colon {key before after value : List Char} (hkey : IsText m.1 key) (hbefore : Spaces before)
    (hafter : Spaces after) (hvalue : IsTexts m.2 value) :
    IsMember m (key ++ (before ++ ':' :: (after ++ value)))

def IsMembers : List (String × List String) → List Char → Prop :=
  Enclosed '\x7b' '\x7d' IsMember

/-- An object with blank space around it. -/
inductive IsObjectText (members : List (String × List String)) (s : String) : Prop
  | spaced {before object after : List Char} (hs : s.toList = before ++ (object ++ after))
    (hbefore : Spaces before) (hafter : Spaces after) (h : IsMembers members object) :
    IsObjectText members s

end Grammar

section Pieces

theorem pieceChars?_char (c : Char) (rest : List Piece) :
    pieceChars? (.char c :: rest) = (pieceChars? rest).map (c :: ·) := by
  rw [pieceChars?]

theorem pieceChars?_unit (c : Char) (rest : List Piece) :
    pieceChars? (.unit c.toNat :: rest) = (pieceChars? rest).map (c :: ·) := by
  have hvalid : c.toNat < 0xD800 ∨ 0xDFFF < c.toNat ∧ c.toNat < 0x110000 := c.valid
  rw [pieceChars?.eq_def]
  split
  case h_1 heq | h_2 heq | h_3 heq => cases heq
  case h_4 heq =>
    cases heq
    rw [if_neg (by omega), if_neg (by omega), Char.ofNat_toNat]
  case h_5 heq =>
    cases heq
    rw [if_neg (by omega), Char.ofNat_toNat]

theorem pieceChars?_pair {c : Char} {high low : Nat} (hhigh : 0xD800 ≤ high ∧ high < 0xDC00)
    (hlow : 0xDC00 ≤ low ∧ low < 0xE000)
    (hc : c.toNat = 0x10000 + (high - 0xD800) * 0x400 + (low - 0xDC00)) (rest : List Piece) :
    pieceChars? (.unit high :: .unit low :: rest) = (pieceChars? rest).map (c :: ·) := by
  rw [pieceChars?, if_pos hhigh, if_pos hlow, joinSurrogates, ← hc, Char.ofNat_toNat]

end Pieces

section Scan

variable {c : Char} {cs rest : List Char} {before : List Piece}

theorem spaces_nil : Spaces [] :=
  fun _ h => absurd h List.not_mem_nil

theorem scan_spaces (h : Spaces cs) (rest : List Char) :
    Mode.between.scan (cs ++ rest) = Mode.between.scan rest := by
  induction cs with
  | nil => rfl
  | cons c cs ih =>
    have hstep : Mode.between.step c = ([], .between) := if_pos (h c List.mem_cons_self)
    rw [List.cons_append, Mode.scan, hstep, List.nil_append,
      ih fun c' hc' => h c' (List.mem_cons_of_mem _ hc')]

theorem scan_plain (hcontrol : 0x20 ≤ c.toNat) (hquote : c ≠ '"') (hbackslash : c ≠ '\\') :
    (Mode.text before).scan (c :: rest) = (Mode.text (.char c :: before)).scan rest := by
  rw [Mode.scan, Mode.step, if_neg hquote, if_neg hbackslash, if_neg (by omega)]
  rfl

theorem scan_letter {letter : Char} (h : escapedChar? letter = some c) :
    (Mode.text before).scan ('\\' :: letter :: rest) =
      (Mode.text (.char c :: before)).scan rest := by
  have hletter : letter ≠ 'u' := by
    rintro rfl
    cases h
  change (Mode.escape before).scan (letter :: rest) = _
  rw [Mode.scan, Mode.step, if_neg hletter, h]
  rfl

theorem scan_code {code : Nat} (h : IsCode code cs) :
    (Mode.text before).scan ('\\' :: 'u' :: cs ++ rest) =
      (Mode.text (.unit code :: before)).scan rest := by
  cases h with
  | digits ha hb hc hd =>
    change (Mode.code before 4 0).scan _ = _
    simp [Mode.scan, Mode.step, ha, hb, hc, hd]

end Scan

end QueryConsole.Json
