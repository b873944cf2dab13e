import QueryConsole.Proofs.Text.Split
import QueryConsole.Store.Reply

namespace QueryConsole

namespace Json

def Mode.InWord : Mode → Prop
  | .word rest _ => rest ≠ [] ∧ '\r' ∉ rest
  | _ => True

theorem inWord_stepBetween (c : Char) : (stepBetween c).2.InWord := by
  rw [stepBetween.eq_def]
  split
  · trivial
  · split
    case h_8 | h_9 | h_10 => exact ⟨List.cons_ne_nil _ _, by decide⟩
    case h_12 => split <;> trivial
    all_goals trivial

theorem inWord_step {mode : Mode} (h : mode.InWord) (c : Char) : (mode.step c).2.InWord := by
  cases mode with
  | between => exact inWord_stepBetween c
  | word rest token =>
    cases rest with
    | nil => exact absurd rfl h.1
    | cons expected rest =>
      rw [Mode.step]
      split
      · split
        · trivial
        · next hrest =>
          exact ⟨by simpa using hrest, fun hmem => h.2 (List.mem_cons_of_mem _ hmem)⟩
      · trivial
  | number stage n =>
    rw [Mode.step]
    split
    · trivial
    · split
      · trivial
      · split
        · exact inWord_stepBetween c
        · trivial
  | text pieces =>
    rw [Mode.step]
    split
    · trivial
    · split
      · trivial
      · split <;> trivial
  | escape pieces =>
    rw [Mode.step]
    split
    · trivial
    · split <;> trivial
  | code pieces left value =>
    rw [Mode.step]
    split
    · split <;> trivial
    · trivial
  | stopped => trivial

theorem next?_return (stage : NumeralStage) (n : Numeral) : stage.next? n '\r' = none := by
  cases stage <;> rfl

theorem scan_return {mode : Mode} (h : mode.InWord) : mode.scan ['\r'] = mode.scan [] := by
  cases mode with
  | word rest token =>
    cases rest with
    | nil => exact absurd rfl h.1
    | cons expected rest =>
      have hne : '\r' ≠ expected := fun heq => h.2 (heq ▸ List.mem_cons_self)
      simp only [Mode.scan, Mode.step, if_neg hne]
      rfl
  | number stage n =>
    simp only [Mode.scan, Mode.step, next?_return]
    cases stage <;> rfl
  | _ => rfl

theorem scan_append_return {mode : Mode} (h : mode.InWord) (cs : List Char) :
    mode.scan (cs ++ ['\r']) = mode.scan cs := by
  induction cs generalizing mode with
  | nil => exact scan_return h
  | cons c cs ih => rw [List.cons_append, Mode.scan, Mode.scan, ih (inWord_step h c)]

theorem parse?_append_return (cs : List Char) :
    parse? (String.ofList (cs ++ ['\r'])) = parse? (String.ofList cs) := by
  have htokens : tokens (String.ofList (cs ++ ['\r'])) = tokens (String.ofList cs) := by
    rw [tokens, tokens, String.toList_ofList, String.toList_ofList]
    exact scan_append_return (show Mode.between.InWord from trivial) cs
  rw [parse?, parse?, wholeTree?, wholeTree?, htokens]

end Json

namespace Store

/-- The value of each line that is not blank, or none where a line is no JSON value. -/
def lineValues (lines : List String) : List (Option Json) :=
  (lines.filter fun line => !Text.isBlankText line).map Json.parse?

theorem lineValues_append (lines lines' : List String) :
    lineValues (lines ++ lines') = lineValues lines ++ lineValues lines' := by
  simp [lineValues]

theorem lineValues_cons (line : String) (lines : List String) :
    lineValues (line :: lines) = lineValues [line] ++ lineValues lines :=
  lineValues_append [line] lines

theorem lineValues_singleton (line : String) :
    lineValues [line] = if Text.isBlankText line then [] else [Json.parse? line] := by
  rw [lineValues]
  cases hblank : Text.isBlankText line <;> simp [hblank]

theorem lineValues_dropReturn (line : List Char) :
    lineValues [String.ofList (Text.dropReturn line)] = lineValues [String.ofList line] := by
  rw [Text.dropReturn]
  split
  · next hlast =>
    obtain ⟨before, rfl⟩ := List.getLast?_eq_some_iff.mp hlast
    have hblank : Text.isBlankText (String.ofList (before ++ ['\r'])) =
        Text.isBlankText (String.ofList before) := by
      have hreturn : Text.isBlank '\r' = true := by decide
      simp [Text.isBlankText, hreturn]
    rw [List.dropLast_concat, lineValues_singleton, lineValues_singleton, hblank,
      Json.parse?_append_return]
  · rfl

theorem lineValues_linesOfPieces (pieces : List (List Char)) :
    lineValues ((Text.linesOfPieces pieces).map String.ofList) =
      lineValues (pieces.map String.ofList) := by
  induction pieces with
  | nil => rfl
  | cons piece pieces ih =>
    cases pieces with
    | nil =>
      rw [Text.linesOfPieces]
      split
      · next hempty =>
        rw [List.isEmpty_iff.mp hempty]
        rfl
      · rfl
    | cons piece' pieces =>
      rw [Text.linesOfPieces, List.map_cons, List.map_cons, lineValues_cons,
        lineValues_dropReturn, ih, ← lineValues_cons]
      · nofun

theorem lineValues_lines (s : String) :
    lineValues (Text.lines s) = lineValues (Text.splitOn '\n' s) :=
  lineValues_linesOfPieces _

theorem lineValues_splitOn_append (a b : String) :
    lineValues (Text.splitOn '\n' (a ++ "\n" ++ b)) =
      lineValues (Text.splitOn '\n' a) ++ lineValues (Text.splitOn '\n' b) := by
  rw [← lineValues_append]
  exact congrArg lineValues (Text.splitOn_append '\n' a b)

def rowsOf (values : List (Option Json)) : Except Failure (List Json) :=
  match values.mapM id with
  | some rows => .ok rows
  | none => .error (.store .unreadableRow)

theorem rowsOf_eq_ok {values : List (Option Json)} {rows : List Json} :
    rowsOf values = .ok rows ↔ values = rows.map some := by
  have hmapM : values.mapM id = some rows ↔ values = rows.map some := by
    induction values generalizing rows with
    | nil => cases rows <;> simp
    | cons value values ih =>
      cases value with
      | none => cases rows <;> simp
      | some row =>
        cases rows with
        | nil => cases hrest : values.mapM id <;> simp [List.mapM_cons, hrest]
        | cons row' rows =>
          rw [List.map_cons, List.cons.injEq, ← ih]
          cases hrest : values.mapM id <;> simp [List.mapM_cons, hrest]
  rw [← hmapM, rowsOf]
  cases values.mapM id <;> simp

theorem exists_rowsOf (values : List (Option Json)) :
    (∃ rows, rowsOf values = .ok rows) ∧ (∀ value ∈ values, value ≠ none) ∨
      rowsOf values = .error (.store .unreadableRow) ∧ ¬ ∀ value ∈ values, value ≠ none := by
  by_cases hall : ∀ value ∈ values, value ≠ none
  · refine .inl ⟨⟨values.filterMap id, rowsOf_eq_ok.mpr ?_⟩, hall⟩
    induction values with
    | nil => rfl
    | cons value values ih =>
      rw [List.forall_mem_cons] at hall
      obtain ⟨row, rfl⟩ := Option.ne_none_iff_exists'.mp hall.1
      exact congrArg (some row :: ·) (ih hall.2)
  · refine .inr ⟨?_, hall⟩
    cases hrows : values.mapM id with
    | none => rw [rowsOf, hrows]
    | some rows =>
      have hvalues : values = rows.map some := rowsOf_eq_ok.mp (by rw [rowsOf, hrows])
      exact absurd (by simp [hvalues]) hall

theorem rowsOf_append (values values' : List (Option Json)) :
    rowsOf (values ++ values') =
      (rowsOf values).bind fun rows => (rowsOf values').map fun rows' => rows ++ rows' := by
  simp only [rowsOf, List.mapM_append]
  cases values.mapM id with
  | none => rfl
  | some rows => cases values'.mapM id <;> rfl

theorem readRows_eq (body : String) :
    readRows body = rowsOf (lineValues (Text.splitOn '\n' body)) := by
  have hlines (lines : List String) :
      lines.mapM readRow = rowsOf (lines.map Json.parse?) := by
    induction lines with
    | nil => rfl
    | cons line lines ih =>
      rw [List.mapM_cons, ih, List.map_cons, readRow]
      cases hline : Json.parse? line with
      | none => simp [rowsOf, List.mapM_cons, bind, Except.bind]
      | some row =>
        cases hrest : (lines.map Json.parse?).mapM id <;>
          simp [rowsOf, List.mapM_cons, bind, Except.bind, pure, Except.pure, hrest]
  rw [← lineValues_lines, readRows, hlines]
  rfl

theorem readRows_append (a b : String) :
    readRows (a ++ "\n" ++ b) =
      (readRows a).bind fun rows => (readRows b).map fun rows' => rows ++ rows' := by
  rw [readRows_eq, readRows_eq, readRows_eq, lineValues_splitOn_append, rowsOf_append]

end Store

end QueryConsole
