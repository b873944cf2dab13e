import QueryConsole.Json.Printer
import QueryConsole.Proofs.Json.Spelling
import Mathlib.Tactic.SplitIfs

namespace QueryConsole.Json

theorem isCode_lowerHexDigit {n : Nat} (h : n < 0x20) :
    IsCode n ['0', '0', Text.lowerHexDigit (n / 16), Text.lowerHexDigit (n % 16)] := by
  have hzero : Text.hexValue? '0' = some 0 := by decide
  have hcode := IsCode.digits hzero hzero (Text.hexValue?_lowerHexDigit (n / 16) (by omega))
    (Text.hexValue?_lowerHexDigit (n % 16) (by omega))
  have hvalue : 16 * (16 * (16 * 0 + 0) + n / 16) + n % 16 = n := by omega
  rwa [hvalue] at hcode

theorem isSpelling_escapeChar (c : Char) : IsSpelling c (escapeChar c) := by
  rw [escapeChar]
  split_ifs with hquote hbackslash h h h h h h
  case pos | pos | pos | pos | pos | pos | pos =>
    subst c
    exact .letter rfl
  · exact .code (isCode_lowerHexDigit h)
  · exact .plain (Nat.not_lt.mp h) hquote hbackslash

theorem isText_quote (s : String) : IsText s (quote s).toList := by
  have hlist : (quote s).toList = '"' :: (s.toList.flatMap escapeChar ++ ['"']) := by
    simp [quote]
  rw [hlist]
  refine .quoted ?_
  induction s.toList with
  | nil => exact .nil
  | cons c cs ih => exact .cons (isSpelling_escapeChar c) ih

theorem isEnclosed_intercalate {α : Type} {IsPart : α → List Char → Prop} {print : α → String}
    (h : ∀ a, IsPart a (print a).toList) (opening closing : Char) (as : List α) :
    Enclosed opening closing IsPart as
      (opening :: ((",".intercalate (as.map print)).toList ++ [closing])) := by
  have hlisted (a : α) (as : List α) :
      Listed IsPart (a :: as) (",".intercalate ((a :: as).map print)).toList := by
    induction as generalizing a with
    | nil =>
      have hsingle := Listed.single spaces_nil (h a) spaces_nil
      simpa using hsingle
    | cons a' as ih =>
      have hcons := Listed.cons spaces_nil (h a) spaces_nil (ih a')
      simpa [String.intercalate_cons_cons] using hcons
  cases as with
  | nil => exact .empty spaces_nil
  | cons a as => exact .listed (hlisted a as)

theorem renderItems_texts (items : List String) :
    renderItems (items.map .text) = items.map quote := by
  induction items with
  | nil => rfl
  | cons item items ih =>
    rw [List.map_cons, renderItems, ih]
    rfl

theorem isTexts_render (items : List String) :
    IsTexts items (render (.array (items.map .text))).toList := by
  rw [render, renderItems_texts]
  simpa [IsTexts] using isEnclosed_intercalate isText_quote '[' ']' items

def ofTextLists (members : List (String × List String)) : Json :=
  .object (members.map fun member => (member.1, .array (member.2.map .text)))

theorem isObjectText_render (members : List (String × List String)) :
    IsObjectText members (ofTextLists members).render := by
  have hmember (member : String × List String) :
      IsMember member (quote member.1 ++ ":" ++ (array (member.2.map .text)).render).toList := by
    have h := IsMember.colon (isText_quote member.1) spaces_nil spaces_nil
      (isTexts_render member.2)
    simpa using h
  have hmembers : renderMembers (members.map fun member =>
        (member.1, .array (member.2.map .text))) =
      members.map fun member => quote member.1 ++ ":" ++ (array (member.2.map .text)).render := by
    induction members with
    | nil => rfl
    | cons member members ih => rw [List.map_cons, renderMembers, ih, List.map_cons]
  refine .spaced ?_ spaces_nil spaces_nil
    (isEnclosed_intercalate hmember '\x7b' '\x7d' members)
  rw [ofTextLists, render, hmembers]
  simp

end QueryConsole.Json
