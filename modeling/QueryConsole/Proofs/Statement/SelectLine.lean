import QueryConsole.Proofs.Statement.Decoding
import QueryConsole.Proofs.Statement.SameRows

namespace QueryConsole

inductive Lexeme : Type
  | word : String → Lexeme
  | literal : String → Lexeme
  | name : String → Lexeme
  | sign : Char → Lexeme
  deriving DecidableEq

inductive Lexing : Type
  | between : List Char → Lexing
  | literal : List Char → Lexing
  | escape : List Char → Lexing
  | name : List Char → Lexing
  deriving DecidableEq

namespace Lexing

def ofWord (cs : List Char) : List Lexeme :=
  if cs.isEmpty then [] else [.word (String.ofList cs)]

def step? (c : Char) : Lexing → Option (List Lexeme × Lexing)
  | .between pending =>
    if Text.isWordChar c then some ([], .between (pending ++ [c]))
    else if c = '\'' then some (ofWord pending, .literal [])
    else if c = '\x60' then some (ofWord pending, .name [])
    else if Text.isBlank c then some (ofWord pending, .between [])
    else some (ofWord pending ++ [.sign c], .between [])
  | .literal read =>
    if c = '\'' then some ([.literal (String.ofList read)], .between [])
    else if c = '\\' then some ([], .escape read)
    else some ([], .literal (read ++ [c]))
  | .escape read => (escaped? c).map fun c => ([], .literal (read ++ [c]))
  | .name read =>
    if c = '\x60' then some ([.name (String.ofList read)], .between [])
    else some ([], .name (read ++ [c]))

def feed? : Lexing → List Char → Option (List Lexeme × Lexing)
  | l, [] => some ([], l)
  | l, c :: cs =>
    (l.step? c).bind fun first => (first.2.feed? cs).map fun rest => (first.1 ++ rest.1, rest.2)

def finish? : Lexing → Option (List Lexeme)
  | .between pending => some (ofWord pending)
  | _ => none

theorem feed?_append (l : Lexing) (cs ds : List Char) :
    l.feed? (cs ++ ds) = (l.feed? cs).bind fun first =>
      (first.2.feed? ds).map fun rest => (first.1 ++ rest.1, rest.2) := by
  induction cs generalizing l with
  | nil => simp [feed?]
  | cons c cs ih =>
    rw [List.cons_append, feed?, feed?]
    cases l.step? c with
    | none => rfl
    | some first =>
      simp only [Option.bind_some, ih]
      cases first.2.feed? cs with
      | none => rfl
      | some second =>
        simp only [Option.bind_some, Option.map_some]
        cases second.2.feed? ds with
        | none => rfl
        | some third => simp

theorem step?_pending {c : Char} (hc : Text.isWordChar c = false) (pending : List Char) :
    (between pending).step? c =
      ((between []).step? c).map fun first => (ofWord pending ++ first.1, first.2) := by
  simp only [step?, hc, Bool.false_eq_true, if_false]
  split_ifs <;> simp [ofWord]

theorem feed?_word {cs : List Char} (h : cs.all Text.isWordChar = true) (pending : List Char) :
    (between pending).feed? cs = some ([], between (pending ++ cs)) := by
  induction cs generalizing pending with
  | nil => rw [feed?, List.append_nil]
  | cons c cs ih =>
    rw [List.all_cons, Bool.and_eq_true] at h
    simp only [feed?, step?, h.1, if_true, Option.bind_some, ih h.2, Option.map_some,
      List.append_assoc, List.singleton_append, List.nil_append]

theorem feed?_literal (cs read : List Char) :
    (literal read).feed? (escapeWith literalEscape? cs ++ ['\'']) =
      some ([.literal (String.ofList (read ++ cs))], between []) := by
  induction cs generalizing read with
  | nil => simp [escapeWith, feed?, step?]
  | cons c cs ih =>
    rw [escapeWith]
    by_cases hc : c = '\\' ∨ c = '\''
    · have hescaped : escaped? c = some c := by obtain rfl | rfl := hc <;> rfl
      have hslash : '\\' ≠ '\'' := by decide
      simp only [literalEscape?, if_pos hc, List.cons_append, feed?, step?, if_neg hslash, if_true,
        hescaped, Option.bind_some, Option.map_some, ih, List.append_assoc, List.nil_append]
    · rw [not_or] at hc
      simp only [literalEscape?, hc.1, hc.2, or_false, if_false, List.cons_append, feed?, step?,
        Option.bind_some, ih, Option.map_some, List.append_assoc, List.nil_append]

theorem feed?_name {cs : List Char} (h : '\x60' ∉ cs) (read : List Char) :
    (name read).feed? (cs ++ ['\x60']) =
      some ([.name (String.ofList (read ++ cs))], between []) := by
  induction cs generalizing read with
  | nil => simp [feed?, step?]
  | cons c cs ih =>
    rw [List.mem_cons, not_or] at h
    simp only [List.cons_append, feed?, step?, if_neg (Ne.symm h.1), Option.bind_some, ih h.2,
      Option.map_some, List.append_assoc, List.nil_append]

end Lexing

namespace Lexeme

def scan? (s : String) : Option (List Lexeme) :=
  ((Lexing.between []).feed? s.toList).bind fun read => read.2.finish?.map (read.1 ++ ·)

def Reads (s : String) (lexemes : List Lexeme) : Prop :=
  (Lexing.between []).feed? s.toList = some (lexemes, .between [])

instance (s : String) (lexemes : List Lexeme) : Decidable (Reads s lexemes) :=
  inferInstanceAs (Decidable (_ = _))

namespace Reads

variable {s t : String} {ls ms : List Lexeme}

theorem scan? (h : Reads s ls) : scan? s = some ls := by
  rw [Lexeme.scan?, h]
  simp [Lexing.finish?, Lexing.ofWord]

theorem append (h : Reads s ls) (h' : Reads t ms) : Reads (s ++ t) (ls ++ ms) := by
  rw [Reads] at h h' ⊢
  rw [String.toList_append, Lexing.feed?_append, h, Option.bind_some]
  simp only [h', Option.map_some]

theorem word (hs : Text.IsWord s) (h : Reads t ls)
    (ht : t.toList.head?.any (fun c => !Text.isWordChar c) = true) :
    Reads (s ++ t) (.word s :: ls) := by
  rw [Reads] at h ⊢
  rw [String.toList_append, Lexing.feed?_append, Lexing.feed?_word hs.2, Option.bind_some]
  cases hlist : t.toList with
  | nil => simp [hlist] at ht
  | cons c cs =>
    have hc : Text.isWordChar c = false := by simpa [hlist] using ht
    have hword : Lexing.ofWord s.toList = [.word s] := by
      rw [Lexing.ofWord, if_neg (by simpa using hs.1), String.ofList_toList]
    rw [hlist, Lexing.feed?] at h
    simp only [List.nil_append, Lexing.feed?, Lexing.step?_pending hc s.toList, hword]
    cases hstep : (Lexing.between []).step? c with
    | none =>
      rw [hstep] at h
      cases h
    | some first =>
      rw [hstep, Option.bind_some] at h
      obtain ⟨rest, hrest, heq⟩ := Option.map_eq_some_iff.mp h
      obtain ⟨rfl, hend⟩ := Prod.mk.inj heq
      simp only [Option.map_some, Option.bind_some, hrest, hend]
      rfl

theorem quoteLiteral (s : String) : Reads (quoteLiteral s) [.literal s] := by
  have hlist : (QueryConsole.quoteLiteral s).toList =
      '\'' :: (escapeWith literalEscape? s.toList ++ ['\'']) := by
    simp [QueryConsole.quoteLiteral]
  have hopen : (Lexing.between []).step? '\'' = some ([], .literal []) := by decide
  rw [Reads, hlist, Lexing.feed?, hopen, Option.bind_some]
  simp only [Lexing.feed?_literal, Option.map_some, List.nil_append, String.ofList_toList]

theorem name (h : '\x60' ∉ s.toList) : Reads ("`" ++ s ++ "`") [.name s] := by
  have hlist : ("`" ++ s ++ "`").toList = '\x60' :: (s.toList ++ ['\x60']) := by simp
  have hopen : (Lexing.between []).step? '\x60' = some ([], .name []) := by decide
  rw [Reads, hlist, Lexing.feed?, hopen, Option.bind_some]
  simp only [Lexing.feed?_name h, Option.map_some, List.nil_append, String.ofList_toList]

theorem intercalate {α : Type} {items : List α} {text : α → String} {lexemes : α → List Lexeme}
    (h : ∀ item ∈ items, Reads (text item) (lexemes item)) :
    Reads (", ".intercalate (items.map text)) ([.sign ','].intercalate (items.map lexemes)) := by
  induction items with
  | nil => rfl
  | cons item items ih =>
    rw [List.forall_mem_cons] at h
    cases items with
    | nil => simpa using h.1
    | cons item' items =>
      rw [List.map_cons, List.map_cons, List.map_cons, List.map_cons,
        String.intercalate_cons_cons, List.intercalate_cons_cons]
      have hcomma : Reads ", " [.sign ','] := by decide
      exact (h.1.append hcomma).append (ih h.2)

end Reads

def label? : Lexeme → Option String
  | .word w => some w
  | .name s => some s
  | _ => none

end Lexeme

def readColumns? (expression : List Lexeme) : List Lexeme → Option (List (List Lexeme × String))
  | [] => none
  | l :: rest =>
    if l = .word "AS" then
      match rest with
      | [label] => label.label?.map fun label => [(expression, label)]
      | label :: .sign ',' :: rest =>
        label.label?.bind fun label => (readColumns? [] rest).map ((expression, label) :: ·)
      | _ => none
    else readColumns? (expression ++ [l]) rest

section Columns

variable {expression : List Lexeme}

theorem readColumns?_expression (h : .word "AS" ∉ expression) (read rest : List Lexeme) :
    readColumns? read (expression ++ rest) = readColumns? (read ++ expression) rest := by
  induction expression generalizing read with
  | nil => rw [List.nil_append, List.append_nil]
  | cons l expression ih =>
    rw [List.mem_cons, not_or] at h
    rw [List.cons_append, readColumns?.eq_def]
    simp only [if_neg (Ne.symm h.1), ih h.2, List.append_assoc, List.singleton_append]

theorem readColumns?_append (h : .word "AS" ∉ expression) {l : Lexeme} {label : String}
    (hl : l.label? = some label) (rest : List Lexeme) :
    readColumns? [] (expression ++ [.word "AS", l] ++ [.sign ','] ++ rest) =
      (readColumns? [] rest).map ((expression, label) :: ·) := by
  rw [List.append_assoc, List.append_assoc, readColumns?_expression h]
  simp only [List.cons_append, List.nil_append, readColumns?, if_true, hl, Option.bind_some]

theorem readColumns?_intercalate {columns : List (List Lexeme × String)} (hne : columns ≠ [])
    (h : ∀ column ∈ columns, .word "AS" ∉ column.1) :
    readColumns? [] ([.sign ','].intercalate
      (columns.map fun column => column.1 ++ [.word "AS", .name column.2])) = some columns := by
  induction columns with
  | nil => exact absurd rfl hne
  | cons column columns ih =>
    rw [List.forall_mem_cons] at h
    cases columns with
    | nil =>
      rw [List.map_singleton, List.intercalate_singleton, readColumns?_expression h.1,
        readColumns?, if_pos rfl]
      rfl
    | cons column' columns =>
      have hrest := ih (List.cons_ne_nil _ _) h.2
      rw [List.map_cons] at hrest
      rw [List.map_cons, List.map_cons, List.intercalate_cons_cons, readColumns?_append h.1 rfl,
        hrest, Option.map_some]

end Columns

def Statement.columns? (s : Statement) : Option (List (List Lexeme × String)) :=
  (s.clause? "SELECT").bind fun line => (Lexeme.scan? line).bind (readColumns? [])

theorem Scope.clause?_projection {d : Dataset} {rows : RowFilter} {shape : Shape}
    {page : Option Page} (hshape : shape.IsInert) :
    ((d.table.scope rows).statement shape page).clause? "SELECT" =
      some ((d.table.scope rows).select shape (page.map fun _ => pageClause)).projection := by
  have hselect (projection : String) :
      "SELECT ".toList.isPrefixOf? ("SELECT " ++ projection).toList = some projection.toList := by
    rw [String.toList_append]
    rfl
  have hkeyword : "SELECT" ++ " " = "SELECT " := by decide
  rw [Statement.clause?, statement_text, Select.splitOn_text (isLine_lines hshape), hkeyword]
  simp only [Select.lines, List.cons_append, List.map_cons, List.findSome?_cons, hselect,
    Option.map_some, String.ofList_toList]

end QueryConsole
