import QueryConsole.Proofs.Condition.RoundTrip

namespace QueryConsole

universe u

open Text (IsLine isLine_append isLine_intercalate)

/-- The test on rows that a statement's text spells out.  Without a line for it all rows pass. -/
def Statement.rowTest? (s : Statement) : Option Formula :=
  match (s.text.toList.splitOn '\n').findSome? "WHERE ".toList.isPrefixOf? with
  | none => some .always
  | some cs => Formula.parse? (String.ofList cs)

theorem Placeholder.isLine_text {p : Placeholder} (h : Text.IsWord p.name) : IsLine p.text := by
  rw [text, isLine_append, isLine_append, isLine_append, isLine_append]
  refine ⟨⟨⟨⟨by decide, h.isInert.isLine⟩, by decide⟩, ?_⟩, by decide⟩
  cases p.type <;> decide

theorem Atom.isLine_text {a : Atom} (h : a.WellFormed) : IsLine a.text := by
  rw [text_eq, isLine_append, isLine_append, isLine_append, isLine_append]
  exact ⟨⟨⟨⟨a.isInert_opening.isLine, h.column.isInert.isLine⟩, a.isInert_middle.isLine⟩,
    Placeholder.isLine_text h.name⟩, a.isInert_closing.isLine⟩

theorem Condition.isLine_text {c : Condition} (h : c.WellFormed) : IsLine c.text := by
  cases c with
  | test a => exact Atom.isLine_text (h.atoms a (List.mem_singleton_self a))
  | anyOf as =>
    change IsLine ("(" ++ " OR ".intercalate (as.map Atom.text) ++ ")")
    rw [isLine_append, isLine_append]
    refine ⟨⟨by decide, isLine_intercalate (by decide) ?_⟩, by decide⟩
    rw [List.forall_mem_map]
    exact fun a ha => Atom.isLine_text (h.atoms a ha)

namespace Select

theorem isLine_clause {keyword separator : String} (hkeyword : IsLine keyword)
    (hseparator : IsLine separator) {items : List String} (h : ∀ item ∈ items, IsLine item) :
    ∀ line ∈ clause keyword separator items, IsLine line := by
  rw [clause]
  split
  · nofun
  · rw [List.forall_mem_singleton, isLine_append, isLine_append]
    exact ⟨⟨hkeyword, by decide⟩, isLine_intercalate hseparator h⟩

theorem findSome?_clause {keyword separator : String} {items : List String}
    (h : ∀ rest : List Char,
      "WHERE ".toList.isPrefixOf? (keyword.toList ++ " ".toList ++ rest) = none) :
    ((clause keyword separator items).map String.toList).findSome?
      "WHERE ".toList.isPrefixOf? = none := by
  rw [clause]
  split
  · rfl
  · rw [List.map_singleton, List.findSome?_singleton, String.toList_append, String.toList_append, h]

theorem findSome?_whereClause {items : List String} (hne : items ≠ []) :
    ((clause "WHERE" " AND " items).map String.toList).findSome? "WHERE ".toList.isPrefixOf? =
      some (" AND ".intercalate items).toList := by
  rw [clause, if_neg (by simpa using hne), List.map_singleton, List.findSome?_singleton,
    String.toList_append]
  rfl

variable {s : Select}

theorem splitOn_text (h : ∀ line ∈ s.lines, IsLine line) :
    s.text.toList.splitOn '\n' = s.lines.map String.toList := by
  rw [text, String.toList_intercalate]
  apply List.splitOn_intercalate
  · rw [List.forall_mem_map]
    exact fun line hline => (h line hline).newline_notMem
  · simp [lines]

theorem findSome?_lines :
    (s.lines.map String.toList).findSome? "WHERE ".toList.isPrefixOf? =
      if s.conditions = [] then none
      else some (" AND ".intercalate (s.conditions.map Condition.text)).toList := by
  have hgroup : ((clause "GROUP BY" ", " s.groupBy).map String.toList).findSome?
      "WHERE ".toList.isPrefixOf? = none :=
    findSome?_clause fun rest => rfl
  have horder : ((clause "ORDER BY" ", " (s.orderBy.map SortKey.text)).map String.toList).findSome?
      "WHERE ".toList.isPrefixOf? = none :=
    findSome?_clause fun rest => rfl
  have hpage : ((s.page.map PageClause.text).toList.map String.toList).findSome?
      "WHERE ".toList.isPrefixOf? = none := by
    cases s.page with
    | none => rfl
    | some c =>
      rw [Option.map_some, Option.toList_some, List.map_singleton, List.findSome?_singleton,
        PageClause.text, String.append_assoc, String.append_assoc, String.toList_append]
      rfl
  have hhead : (["SELECT " ++ s.projection, "FROM " ++ s.table].map String.toList).findSome?
      "WHERE ".toList.isPrefixOf? = none := by
    rw [List.map_cons, List.map_singleton, String.toList_append, String.toList_append]
    rfl
  simp only [lines, List.map_append, List.findSome?_append, hhead, hgroup, horder, hpage,
    Option.none_or, Option.or_none]
  split
  · next hnil =>
    rw [hnil]
    rfl
  · next hne => exact findSome?_whereClause (by simpa using hne)

end Select

namespace Scope

@[simp] theorem conditions_select (s : Scope) (shape : Shape) (page : Option PageClause) :
    (s.select shape page).conditions = s.conditions := rfl

variable {d : Dataset} {rows : RowFilter} {shape : Shape} {page : Option Page}

theorem isLine_lines (hshape : shape.IsInert) :
    ∀ line ∈ ((d.table.scope rows).select shape (page.map fun _ => pageClause)).lines,
      IsLine line := by
  have hcolumns : IsLine (", ".intercalate (shape.columns.map Column.text)) := by
    apply isLine_intercalate (by decide)
    rw [List.forall_mem_map]
    exact fun c hc => (hshape.columns c hc).isLine
  have hselect : IsLine ("SELECT " ++ ((d.table.scope rows).select shape none).projection) := by
    rw [isLine_append, Select.projection, isLine_append]
    refine ⟨by decide, ?_, hcolumns⟩
    split <;> decide
  have hfrom : IsLine ("FROM " ++ d.table.name) := by
    rw [isLine_append]
    exact ⟨by decide, (d.isInert_fragments _ (by simp [Table.fragments])).isLine⟩
  have hconditions : ∀ item ∈ (d.table.scope rows).conditions.map Condition.text, IsLine item := by
    rw [List.forall_mem_map]
    exact fun c hc => Condition.isLine_text (Dataset.condition_wellFormed hc)
  have horderBy : ∀ item ∈ shape.orderBy.map SortKey.text, IsLine item := by
    rw [List.forall_mem_map]
    exact fun k hk => (hshape.orderBy k hk).isLine
  have hpage : ∀ line ∈ ((page.map fun _ => pageClause).map PageClause.text).toList,
      IsLine line := by
    cases page with
    | none => simp
    | some page => exact (by decide : ∀ line ∈ [pageClause.text], IsLine line)
  simp only [Select.lines, List.forall_mem_append, List.forall_mem_cons]
  refine ⟨⟨⟨⟨⟨hselect, hfrom, ?_⟩, ?_⟩, ?_⟩, ?_⟩, hpage⟩
  · simp
  · exact Select.isLine_clause (by decide) (by decide) hconditions
  · exact Select.isLine_clause (by decide) (by decide) fun name hname =>
      (hshape.groupBy name hname).isLine
  · exact Select.isLine_clause (by decide) (by decide) horderBy

theorem rowTest?_statement (hshape : shape.IsInert) :
    ∃ f, ((d.table.scope rows).statement shape page).rowTest? = some f ∧
      ∀ {Row : Type u} (I : Interpretation Row) (b : Bindings) (row : Row),
        f.Holds I b row ↔ ∀ c ∈ (d.table.scope rows).conditions, c.Holds I b row := by
  have hwellFormed : ∀ c ∈ (d.table.scope rows).conditions, c.WellFormed :=
    fun c hc => Dataset.condition_wellFormed hc
  rw [Statement.rowTest?, statement_text, Select.splitOn_text (isLine_lines hshape),
    Select.findSome?_lines, conditions_select]
  by_cases hnil : (d.table.scope rows).conditions = []
  · rw [if_pos hnil]
    refine ⟨.always, rfl, ?_⟩
    simp [hnil, Formula.Holds]
  · rw [if_neg hnil]
    have hformulas : (d.table.scope rows).conditions.map Condition.formula ≠ [] := by
      rwa [ne_eq, List.map_eq_nil_iff]
    obtain ⟨f, hf⟩ := Formula.exists_join? .both hformulas
    refine ⟨f, ?_, ?_⟩
    · simp only [← hf, ← Formula.parse?_intercalate hnil hwellFormed, String.ofList_toList]
    · intro Row I b row
      rw [Formula.holds_join?_both hf, List.forall_mem_map]
      apply forall₂_congr
      intro c hc
      apply Condition.holds_formula
      rintro rfl
      exact (hwellFormed _ hc).atoms_ne_nil rfl

end Scope

end QueryConsole
