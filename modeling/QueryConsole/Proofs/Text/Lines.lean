import QueryConsole.Proofs.Text.Split

namespace QueryConsole.Text

variable {line ending text : String} {ls : List String}

/-- How a line may end where another text follows.  A carriage return before the line feed is part
of the end, so a line that keeps one needs a second one. -/
inductive IsLineEnd (line : String) : String → Prop
  | feed (hreturn : line.toList.getLast? ≠ some '\r') : IsLineEnd line "\n"
  | returnFeed : IsLineEnd line "\r\n"

theorem IsLineEnd.of_append {before : String} (h : IsLineEnd (before ++ line) ending) :
    IsLineEnd line ending := by
  cases h with
  | feed hreturn =>
    refine .feed fun hline => hreturn ?_
    rw [String.toList_append, List.getLast?_append, hline]
    rfl
  | returnFeed => exact .returnFeed

/-- The text is made of the lines, each with its end; the last one may go without if it is not
empty. -/
inductive HasLines : String → List String → Prop
  | nil : HasLines "" []
  | last {line : String} (hne : line ≠ "") (hfeed : '\n' ∉ line.toList) : HasLines line [line]
  | ended {line ending rest : String} {ls : List String} (hfeed : '\n' ∉ line.toList)
    (hending : IsLineEnd line ending) (hrest : HasLines rest ls) :
    HasLines (line ++ ending ++ rest) (line :: ls)

theorem splitChars_feed {cs : List Char} (h : '\n' ∉ cs) :
    splitChars (· == '\n') cs = [cs] := by
  apply splitChars_of_none
  intro c hc
  rw [beq_eq_false_iff_ne]
  rintro rfl
  exact h hc

theorem lines_of_notMem (h : '\n' ∉ text.toList) :
    lines text = if text = "" then [] else [text] := by
  rw [lines, splitChars_feed h, linesOfPieces]
  by_cases hempty : text = ""
  · rw [hempty]
    rfl
  · simp [hempty]

theorem dropReturn_of_ne {cs : List Char} (h : cs.getLast? ≠ some '\r') : dropReturn cs = cs :=
  if_neg h

theorem dropReturn_concat (cs : List Char) : dropReturn (cs ++ ['\r']) = cs := by
  rw [dropReturn, if_pos (List.getLast?_concat), List.dropLast_concat]

theorem lines_feed (h : '\n' ∉ line.toList) (rest : String) :
    lines (line ++ "\n" ++ rest) = String.ofList (dropReturn line.toList) :: lines rest := by
  have htext : (line ++ "\n" ++ rest).toList = line.toList ++ '\n' :: rest.toList := by simp
  rw [lines, htext, splitChars_append_cons (by rfl), splitChars_feed h, List.singleton_append,
    linesOfPieces.eq_3 _ _ (splitChars_ne_nil _ _), List.map_cons]
  rfl

theorem lines_ended (hfeed : '\n' ∉ line.toList) (hending : IsLineEnd line ending) (rest : String) :
    lines (line ++ ending ++ rest) = line :: lines rest := by
  cases hending with
  | feed hreturn => rw [lines_feed hfeed, dropReturn_of_ne hreturn, String.ofList_toList]
  | returnFeed =>
    have htext : line ++ "\r\n" = (line ++ "\r") ++ "\n" := by
      rw [String.append_assoc]
      rfl
    have hline : (line ++ "\r").toList = line.toList ++ ['\r'] := by simp
    rw [htext, lines_feed (by simp [hfeed]), hline, dropReturn_concat, String.ofList_toList]

theorem HasLines.lines_eq (h : HasLines text ls) : lines text = ls := by
  induction h with
  | nil => rfl
  | last hne hfeed => rw [lines_of_notMem hfeed, if_neg hne]
  | ended hfeed hending _ ih => rw [lines_ended hfeed hending, ih]

theorem exists_ended (h : '\n' ∈ text.toList) :
    ∃ line ending rest, text = line ++ ending ++ rest ∧ '\n' ∉ line.toList ∧
      IsLineEnd line ending ∧ rest.length < text.length := by
  obtain ⟨before, after, htext, hbefore⟩ := List.eq_append_cons_of_mem h
  have hlength : (String.ofList after).length < text.length := by
    rw [← String.length_toList, ← String.length_toList, htext, String.toList_ofList]
    simp
    omega
  by_cases hreturn : before.getLast? = some '\r'
  · obtain ⟨kept, rfl⟩ := List.getLast?_eq_some_iff.mp hreturn
    refine ⟨String.ofList kept, "\r\n", String.ofList after, ?_, ?_, .returnFeed, hlength⟩
    · simp [← String.toList_inj, htext]
    · rw [String.toList_ofList]
      exact fun hmem => hbefore (List.mem_append_left _ hmem)
  · refine ⟨String.ofList before, "\n", String.ofList after, ?_, ?_, ?_, hlength⟩
    · simp [← String.toList_inj, htext]
    · rwa [String.toList_ofList]
    · exact .feed (by rwa [String.toList_ofList])

theorem hasLines_lines (text : String) : HasLines text (lines text) := by
  by_cases hfeed : '\n' ∈ text.toList
  · obtain ⟨line, ending, rest, rfl, hline, hending, hlength⟩ := exists_ended hfeed
    rw [lines_ended hline hending]
    exact .ended hline hending (hasLines_lines rest)
  · rw [lines_of_notMem hfeed]
    split
    · next hempty => exact hempty ▸ .nil
    · next hne => exact .last hne hfeed
termination_by text.length

theorem hasLines_iff : HasLines text ls ↔ ls = lines text :=
  ⟨fun h => h.lines_eq.symm, fun h => h ▸ hasLines_lines text⟩

theorem HasLines.feed_notMem (h : HasLines text ls) : ∀ line ∈ ls, '\n' ∉ line.toList := by
  induction h with
  | nil => nofun
  | last _ hfeed => exact List.forall_mem_singleton.mpr hfeed
  | ended hfeed _ _ ih => exact List.forall_mem_cons.mpr ⟨hfeed, ih⟩

end QueryConsole.Text
