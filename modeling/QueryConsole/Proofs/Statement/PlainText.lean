import QueryConsole.Engine
import QueryConsole.Proofs.Text.Lines

namespace QueryConsole

open Text (HasLines IsLineEnd isBlankText)

namespace Explain

variable {line ending text a : String} {ls : List String}

def row (line : String) : Json :=
  .object [("explain", .text line)]

def rowText? (row : Json) : Option String :=
  match row.member? "explain" with
  | some (.text line) => some line
  | _ => none

def joined (rows : List Json) : String :=
  "\n".intercalate (rows.filterMap rowText?)

def shownLines (text : String) : List String :=
  (Text.lines text).filter fun line => !isBlankText line

theorem wrapLines_eq (text : String) : wrapLines text = (shownLines text).map row := rfl

theorem joined_map_row (ls : List String) : joined (ls.map row) = "\n".intercalate ls := by
  have htexts : (ls.map row).filterMap rowText? = ls := by
    rw [List.filterMap_map]
    exact List.filterMap_some
  rw [joined, htexts]

theorem shownLines_of_notMem (h : '\n' ∉ line.toList) :
    shownLines line = if isBlankText line then [] else [line] := by
  rw [shownLines, Text.lines_of_notMem h]
  by_cases hempty : line = ""
  · rw [hempty]
    rfl
  · rw [if_neg hempty]
    cases hblank : isBlankText line <;> simp [hblank]

theorem shownLines_ended (hfeed : '\n' ∉ line.toList) (hending : IsLineEnd line ending)
    (rest : String) : shownLines (line ++ ending ++ rest) = shownLines line ++ shownLines rest := by
  rw [shownLines_of_notMem hfeed, shownLines, Text.lines_ended hfeed hending, shownLines]
  cases hblank : isBlankText line <;> simp [hblank]

theorem shownLines_append (h : IsLineEnd a ending) (b : String) :
    shownLines (a ++ ending ++ b) = shownLines a ++ shownLines b := by
  obtain ⟨ls, hlines⟩ : ∃ ls, HasLines a ls := ⟨_, Text.hasLines_lines a⟩
  induction hlines with
  | nil => exact shownLines_ended (by simp) h b
  | last _ hfeed => exact shownLines_ended hfeed h b
  | @ended line ending' rest _ hfeed hending _ ih =>
    have hparts : line ++ ending' ++ rest ++ ending ++ b =
        line ++ ending' ++ (rest ++ ending ++ b) := by
      simp only [String.append_assoc]
    rw [hparts, shownLines_ended hfeed hending, shownLines_ended hfeed hending, ih h.of_append,
      List.append_assoc]

theorem of_mem_shownLines (h : line ∈ shownLines text) :
    '\n' ∉ line.toList ∧ isBlankText line = false := by
  obtain ⟨hmem, hblank⟩ := List.mem_filter.mp h
  exact ⟨(Text.hasLines_lines text).feed_notMem line hmem, by simpa using hblank⟩

theorem shownLines_return {kept : String} (h : '\n' ∉ (kept ++ "\r").toList)
    (hblank : isBlankText (kept ++ "\r") = false) (rest : String) :
    shownLines (kept ++ "\r" ++ "\n" ++ rest) = kept :: shownLines rest := by
  have hends : kept ++ "\r" ++ "\n" = kept ++ "\r\n" := by
    rw [String.append_assoc]
    rfl
  have hkept : isBlankText kept = false := by
    simpa [isBlankText, (by decide : Text.isBlank '\r' = true)] using hblank
  rw [hends, shownLines_append .returnFeed, shownLines_of_notMem (by simpa using h), hkept]
  rfl

theorem shownLines_intercalate_iff
    (h : ∀ line ∈ ls, '\n' ∉ line.toList ∧ isBlankText line = false) :
    shownLines ("\n".intercalate ls) = ls ↔
      ∀ line ∈ ls.dropLast, line.toList.getLast? ≠ some '\r' := by
  have hshown {line : String} (hline : '\n' ∉ line.toList ∧ isBlankText line = false) :
      shownLines line = [line] := by
    rw [shownLines_of_notMem hline.1, hline.2]
    rfl
  induction ls with
  | nil => exact ⟨fun _ => nofun, fun _ => rfl⟩
  | cons line ls ih =>
    rw [List.forall_mem_cons] at h
    cases ls with
    | nil =>
      rw [String.intercalate_singleton, hshown h.1]
      simp
    | cons line' ls =>
      rw [String.intercalate_cons_cons, List.dropLast_cons_cons, List.forall_mem_cons]
      by_cases hreturn : line.toList.getLast? = some '\r'
      · obtain ⟨kept, hkept⟩ := List.getLast?_eq_some_iff.mp hreturn
        obtain rfl : line = String.ofList kept ++ "\r" := by
          rw [← String.toList_inj, hkept]
          simp
        rw [shownLines_return h.1.1 h.1.2]
        refine ⟨fun heq => ?_, fun hlines => absurd hreturn hlines.1⟩
        have hlength := congrArg String.length (List.cons.inj heq).1
        simp at hlength
      · rw [shownLines_append (.feed hreturn), hshown h.1, List.singleton_append, List.cons.injEq,
          eq_self, true_and, and_iff_right hreturn]
        exact ih h.2

/-- Plain text is shown line by line: parting it between two lines parts its rows, each part without
a line feed is one row if it is not blank, and so the rows of a text are those of its lines that are
not blank, in order and as they are.  Their texts joined have the same rows, if no line keeps a
carriage return. -/
theorem wrapLines_losesNoLine :
    (∀ a b : String, a.toList.getLast? ≠ some '\r' →
      wrapLines (a ++ "\n" ++ b) = wrapLines a ++ wrapLines b ∧
      wrapLines (a ++ "\r\n" ++ b) = wrapLines a ++ wrapLines b) ∧
    (∀ text : String, '\n' ∉ text.toList →
      wrapLines text = if isBlankText text then [] else [row text]) ∧
    ∀ text : String, ∃ ls, (∀ ls', HasLines text ls' ↔ ls' = ls) ∧
      wrapLines text = (ls.filter fun line => !isBlankText line).map row ∧
      (∀ r ∈ wrapLines text, ∃ line, r = row line ∧ '\n' ∉ line.toList ∧
        isBlankText line = false) ∧
      ((∀ line ∈ ls, line.toList.getLast? ≠ some '\r') →
        wrapLines (joined (wrapLines text)) = wrapLines text) := by
  refine ⟨fun a b hreturn => ?_, fun text hfeed => ?_, fun text => ?_⟩
  · simp only [wrapLines_eq, shownLines_append (.feed hreturn), shownLines_append .returnFeed,
      List.map_append, and_self]
  · rw [wrapLines_eq, shownLines_of_notMem hfeed]
    split <;> rfl
  · refine ⟨Text.lines text, fun ls' => Text.hasLines_iff, rfl, ?_, ?_⟩
    · intro r hr
      obtain ⟨line, hline, rfl⟩ := List.mem_map.mp hr
      exact ⟨line, rfl, of_mem_shownLines hline⟩
    · intro hreturn
      have hkept : ∀ line ∈ (shownLines text).dropLast, line.toList.getLast? ≠ some '\r' :=
        fun line hline => hreturn line (List.mem_filter.mp (List.dropLast_subset _ hline)).1
      rw [wrapLines_eq text, joined_map_row, wrapLines_eq,
        (shownLines_intercalate_iff fun _ => of_mem_shownLines).mpr hkept]

def mixedEnds : String :=
  "SelectQuery (children 1)\r\n\r\n  ExpressionList\n \t\u2003\n\n   Literal 'a\rb'"

theorem wrapLines_losesNoLine_mixedEnds :
    wrapLines mixedEnds =
      [row "SelectQuery (children 1)", row "  ExpressionList", row "   Literal 'a\rb'"] ∧
    wrapLines (joined (wrapLines mixedEnds)) = wrapLines mixedEnds := by
  obtain ⟨-, -, hlines⟩ := wrapLines_losesNoLine
  obtain ⟨ls, hls, hrows, -, hjoined⟩ := hlines mixedEnds
  obtain rfl : Text.lines mixedEnds = ls := (hls _).mp (Text.hasLines_lines mixedEnds)
  have hread : Text.lines mixedEnds = ["SelectQuery (children 1)", "", "  ExpressionList",
      " \t\u2003", "", "   Literal 'a\rb'"] := by
    decide +kernel
  refine ⟨?_, hjoined (by rw [hread]; decide +kernel)⟩
  rw [hrows, hread]
  rfl

end Explain

theorem Engine.explain_plainText {e : Engine} {r : ExplainRequest} {mode : ExplainMode}
    {s : Statement} {answer : String} (hmode : ExplainMode.ofName r.mode = .ok mode)
    (hplain : mode.isPlainText = true) (hs : Explain.compile mode r.query = .ok s)
    (hanswer : e.storage.text s = .ok answer) {ls : List String} (hls : HasLines answer ls) :
    e.explain r =
      ⟨[.text s], .ok ((ls.filter fun line => !isBlankText line).map Explain.row)⟩ := by
  rw [Engine.explain, hmode, Outcome.after_ok, hs, Outcome.after_ok, if_pos hplain,
    Outcome.andThen, Outcome.callText, hanswer, Text.hasLines_iff.mp hls]
  rfl

end QueryConsole
