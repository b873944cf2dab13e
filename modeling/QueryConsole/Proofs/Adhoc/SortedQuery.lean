import QueryConsole.Proofs.Adhoc.Explained
import QueryConsole.Proofs.Adhoc.Settled

namespace QueryConsole.Adhoc

open Text (isBlank isWordChar IsWord sameWord)

/-- Some columns of a table, in the order of one column. -/
structure SortedQuery where
  columns : List String
  table : String
  sort : SortKey
  columns_ne : columns ≠ []
  isIdentifier_columns : ∀ column ∈ columns, Text.isIdentifier column = true
  isIdentifier_table : Text.isIdentifier table = true
  isIdentifier_sort : Text.isIdentifier sort.column = true

theorem ne_empty_of_getLast? {s : String} {c : Char} (h : s.toList.getLast? = some c) :
    s ≠ "" := by
  rintro rfl
  cases h

namespace SortedQuery

variable (q : SortedQuery)

def names : List String :=
  q.columns ++ [q.table, q.sort.column]

def stem : String :=
  "SELECT " ++ ", ".intercalate q.columns ++ " FROM " ++ q.table ++ " ORDER BY"

def text : String :=
  q.stem ++ " " ++ q.sort.text

theorem isIdentifier_order (order : SortOrder) : Text.isIdentifier order.text = true := by
  cases order <;> decide

theorem getLast?_text : q.text.toList.getLast? = some 'C' := by
  have horder := Text.isWord_of_isIdentifier (isIdentifier_order q.sort.order)
  rw [text, SortKey.text, ← String.append_assoc, String.toList_append,
    List.getLast?_append_of_ne_nil _ horder.1]
  cases q.sort.order <;> decide

theorem toList_text : ∃ rest, q.text.toList = "SELECT".toList ++ ' ' :: rest := by
  refine ⟨(", ".intercalate q.columns ++ " FROM " ++ q.table ++ " ORDER BY" ++ " " ++
    q.sort.text).toList, ?_⟩
  simp [text, stem]

theorem withoutTerminators_text : withoutTerminators q.text = q.text := by
  obtain ⟨rest, htext⟩ := q.toList_text
  refine withoutTerminators_eq_self ?_ ?_
  · rw [htext]
    rintro c ⟨⟩
    decide
  · rw [q.getLast?_text]
    rintro c ⟨⟩
    decide

theorem not_beginsForbidden_text : ¬ BeginsForbidden q.text := by
  obtain ⟨rest, htext⟩ := q.toList_text
  intro hbegins
  have hselect : BeginsForbidden "SELECT" := hbegins.of_append_break (by decide) htext
  rw [beginsForbidden_iff] at hselect
  exact hselect (by decide)

theorem getLast?_stem : q.stem.toList.getLast? = some 'Y' := by
  rw [stem, String.toList_append, List.getLast?_append_of_ne_nil _ (by decide)]
  decide

theorem stem_last : ∀ c ∈ q.stem.toList.getLast?, isBlank c = false := by
  rw [q.getLast?_stem]
  rintro c ⟨⟩
  decide

theorem beforeFormat?_text :
    beforeFormat? q.text = if sameWord q.sort.column "FORMAT" then some q.stem else none := by
  have hgap : IsGap " " := ⟨by decide, by decide⟩
  have hparts : q.text = q.stem ++ " " ++ q.sort.column ++ " " ++ q.sort.order.text := by
    rw [text, SortKey.text]
    simp only [String.append_assoc]
  rw [hparts, beforeFormat?_words hgap (Text.isWord_of_isIdentifier q.isIdentifier_sort) hgap
    (isIdentifier_order _), trimEnd_eq_self q.stem_last]

theorem words_text : Text.words q.text =
    "SELECT" :: q.columns ++
      ["FROM", q.table, "ORDER", "BY", q.sort.column, q.sort.order.text] := by
  have hidentifier {name : String} (h : Text.isIdentifier name = true) :
      Text.words name = [name] :=
    (Text.isWord_of_isIdentifier h).words_eq
  have hspace (s t : String) : Text.words (s ++ " " ++ t) = Text.words s ++ Text.words t :=
    Text.words_separated (by decide) (by simp [isWordChar])
  have hcolumns : Text.words (", ".intercalate q.columns) = q.columns := by
    have hmap : q.columns.map Text.words = q.columns.map fun column => [column] :=
      List.map_congr_left fun column hcolumn => hidentifier (q.isIdentifier_columns column hcolumn)
    rw [Text.words_intercalate (by decide) (by simp [isWordChar]), List.flatMap_def, hmap,
      ← List.flatMap_def]
    simp
  have hparts : q.text = "SELECT" ++ " " ++ ", ".intercalate q.columns ++ " " ++ "FROM" ++ " " ++
      q.table ++ " " ++ "ORDER" ++ " " ++ "BY" ++ " " ++ q.sort.column ++ " " ++
      q.sort.order.text := by
    rw [← String.toList_inj]
    simp [text, stem, SortKey.text]
  have hkeywords : Text.words "SELECT" = ["SELECT"] ∧ Text.words "FROM" = ["FROM"] ∧
      Text.words "ORDER" = ["ORDER"] ∧ Text.words "BY" = ["BY"] := by
    decide +kernel
  obtain ⟨hselect, hfrom, horder, hby⟩ := hkeywords
  simp only [hparts, hspace, hcolumns, hselect, hfrom, horder, hby,
    hidentifier q.isIdentifier_table, hidentifier q.isIdentifier_sort,
    hidentifier (isIdentifier_order _)]
  simp

theorem needsLimit_text :
    needsLimit q.text = true ↔ ∀ name ∈ q.names, sameWord name "LIMIT" = false := by
  have hkeywords : sameWord "SELECT" "LIMIT" = false ∧ sameWord "FROM" "LIMIT" = false ∧
      sameWord "ORDER" "LIMIT" = false ∧ sameWord "BY" "LIMIT" = false ∧
      ∀ order : SortOrder, sameWord order.text "LIMIT" = false := by
    refine ⟨by decide, by decide, by decide, by decide, ?_⟩
    rintro (_ | _) <;> decide
  have hopen : some 'C' ≠ some ')' := by decide
  have hquery : ∃ word, some "SELECT" = some word ∧ IsQueryWord word :=
    ⟨"SELECT", rfl, .inl (by decide)⟩
  obtain ⟨hselect, hfrom, horder, hby, hdirection⟩ := hkeywords
  rw [needsLimit_iff, needsCap_iff, q.words_text, q.getLast?_text, List.cons_append,
    List.head?_cons, and_iff_right hquery, and_iff_left hopen]
  simp only [names, List.forall_mem_cons, List.forall_mem_append, hselect, hfrom, horder, hby,
    hdirection]
  simp

theorem kept_text :
    kept q.text = if sameWord q.sort.column "FORMAT" then q.stem else q.text := by
  rw [kept, q.beforeFormat?_text]
  split <;> rfl

theorem compile_text {limit : UInt64} (hlimit : limit ≠ 0) :
    compile q.text limit = .ok (assemble (kept q.text) limit (needsLimit (kept q.text))
      (sameWord q.sort.column "FORMAT")) := by
  have hne : q.text ≠ "" := ne_empty_of_getLast? q.getLast?_text
  have hformatted : (beforeFormat? q.text).isSome = sameWord q.sort.column "FORMAT" := by
    rw [q.beforeFormat?_text]
    split <;> simp_all
  rw [compile_eq_ok, q.withoutTerminators_text, hformatted]
  exact ⟨⟨hne, hlimit, q.not_beginsForbidden_text⟩, rfl⟩

theorem stem_ne_text : q.stem ≠ q.text := by
  intro heq
  have hlast := q.getLast?_stem
  rw [heq, q.getLast?_text] at hlast
  cases hlast

theorem explain_text (mode : ExplainMode) :
    Explain.compile mode q.text = .ok ⟨mode.opening ++ kept q.text, ∅⟩ := by
  rw [Explain.compile_eq_ok, q.withoutTerminators_text]
  exact ⟨ne_empty_of_getLast? q.getLast?_text, rfl⟩

end SortedQuery

/-- The query is kept whole, and capped, exactly if the column it is sorted by is not spelled like
the keyword of a directive and no name in it like that of the cap.  In front of it, an explaining
statement keeps it whole exactly under the first of these. -/
theorem compile_sortedQuery (q : SortedQuery) {limit : UInt64} (hlimit : 1 ≤ limit) :
    (compile q.text limit =
        .ok ⟨q.text ++ capClause, ⟨[⟨"limit", .uint64 limit⟩]⟩⟩ ↔
      sameWord q.sort.column "FORMAT" = false ∧
        ∀ name ∈ q.names, sameWord name "LIMIT" = false) ∧
    ∀ mode : ExplainMode,
      (Explain.compile mode q.text = .ok ⟨mode.opening ++ q.text, ∅⟩ ↔
        sameWord q.sort.column "FORMAT" = false) := by
  have hpositive : limit ≠ 0 := by
    rintro rfl
    exact absurd hlimit (by decide)
  constructor
  · rw [q.compile_text hpositive, q.kept_text, Except.ok.injEq]
    cases sameWord q.sort.column "FORMAT" with
    | true =>
      have hne : assemble q.stem limit (needsLimit q.stem) true ≠
          ⟨q.text ++ capClause, ⟨[⟨"limit", .uint64 limit⟩]⟩⟩ := by
        intro h
        have hlast := congrArg (fun s => s.text.toList.getLast?) h
        simp only [assemble, if_true, getLast?_formatClause, getLast?_capClause] at hlast
        revert hlast
        decide
      simp [hne]
    | false =>
      rw [if_neg Bool.false_ne_true, and_iff_right rfl, ← q.needsLimit_text]
      cases needsLimit q.text with
      | true => simp [assemble]
      | false => simp [assemble, EmptyCollection.emptyCollection, Bindings.empty]
  · intro mode
    rw [q.explain_text, q.kept_text]
    cases sameWord q.sort.column "FORMAT" with
    | true => simp [q.stem_ne_text]
    | false => simp

theorem compile_sortedQuery_rows :
    compile "SELECT format, name FROM limits ORDER BY rows DESC" 5 =
      .ok ⟨"SELECT format, name FROM limits ORDER BY rows DESC LIMIT \x7blimit:UInt64\x7d",
        ⟨[⟨"limit", .uint64 5⟩]⟩⟩ ∧
    ∀ mode : ExplainMode,
      Explain.compile mode "SELECT name FROM t ORDER BY format DESC" ≠
        .ok ⟨mode.opening ++ "SELECT name FROM t ORDER BY format DESC", ∅⟩ := by
  have hlimit : (1 : UInt64) ≤ 5 := by decide
  have hrows := (compile_sortedQuery ⟨["format", "name"], "limits", ⟨"rows", .descending⟩,
    by decide, by decide, by decide, by decide⟩ hlimit).1.mpr (by decide)
  have hformat := (compile_sortedQuery ⟨["name"], "t", ⟨"format", .descending⟩, by decide,
    by decide, by decide, by decide⟩ hlimit).2
  refine ⟨hrows, fun mode hkept => ?_⟩
  have hspelled := (hformat mode).mp hkept
  revert hspelled
  decide

end QueryConsole.Adhoc
