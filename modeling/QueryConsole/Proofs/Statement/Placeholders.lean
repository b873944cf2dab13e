import QueryConsole.Proofs.Condition.Atoms
import Mathlib.Data.List.Forall2
import Mathlib.Data.List.Nodup

namespace QueryConsole

open Text (IsInert IsWord braced? BracedAll isInert_append)

def Placeholder.group (p : Placeholder) : String :=
  p.name ++ ":" ++ p.type.name

theorem Placeholder.isInert_group {p : Placeholder} (h : IsWord p.name) : IsInert p.group := by
  rw [group, isInert_append, isInert_append]
  refine ⟨⟨h.isInert, by decide⟩, ?_⟩
  cases p.type <;> decide

theorem Placeholder.braced?_text {p : Placeholder} (h : IsWord p.name) :
    braced? p.text = some [p.group] := by
  have htext : p.text = "\x7b" ++ p.group ++ "\x7d" := by
    simp only [text, group, String.append_assoc]
  rw [htext]
  exact Text.braced?_group (isInert_group h)

theorem Placeholder.name_eq_of_group_eq {p q : Placeholder} (hp : IsWord p.name)
    (hq : IsWord q.name) (h : p.group = q.group) : p.name = q.name := by
  have takeName {r : Placeholder} (hr : IsWord r.name) :
      r.group.toList.takeWhile Text.isWordChar = r.name.toList := by
    have hall := List.all_eq_true.mp hr.2
    have hcolon : (":" ++ r.type.name).toList = ':' :: r.type.name.toList := by simp
    rw [group, String.append_assoc, String.toList_append, hcolon,
      List.takeWhile_append_of_pos hall]
    simp [Text.isWordChar]
  rw [← String.toList_inj, ← takeName hp, ← takeName hq, h]

theorem Atom.braced?_text {a : Atom} (h : a.WellFormed) :
    braced? a.text = some [a.placeholder.group] := by
  have hbefore : IsInert (a.opening ++ a.column ++ a.middle) := by
    rw [isInert_append, isInert_append]
    exact ⟨⟨a.isInert_opening, h.column.isInert⟩, a.isInert_middle⟩
  have hplaceholder := Text.braced?_append (Text.braced?_of_isInert hbefore)
    (Placeholder.braced?_text h.name)
  rw [text_eq]
  simpa using Text.braced?_append hplaceholder (Text.braced?_of_isInert a.isInert_closing)

namespace Condition

def groups (c : Condition) : List String :=
  c.atoms.map fun a => a.placeholder.group

theorem braced?_text {c : Condition} (h : c.WellFormed) : braced? c.text = some c.groups := by
  cases c with
  | test a => exact Atom.braced?_text (h.atoms a (List.mem_singleton_self a))
  | anyOf as =>
    have hall : BracedAll (as.map Atom.text) (as.flatMap fun a => [a.placeholder.group]) :=
      BracedAll.map fun a ha => Atom.braced?_text (h.atoms a ha)
    have hopen : braced? "(" = some [] := by decide
    have hclose : braced? ")" = some [] := by decide
    have hor : braced? " OR " = some [] := by decide
    have htext := Text.braced?_append (Text.braced?_append hopen (hall.intercalate hor)) hclose
    rw [List.nil_append, List.append_nil, ← List.map_eq_flatMap] at htext
    exact htext

end Condition

namespace PageClause

def groups (p : PageClause) : List String :=
  [p.limit.group, p.offset.group]

theorem braced?_text {p : PageClause} (hlimit : IsWord p.limit.name)
    (hoffset : IsWord p.offset.name) : braced? p.text = some p.groups := by
  have hlimitWord : braced? "LIMIT " = some [] := by decide
  have hoffsetWord : braced? " OFFSET " = some [] := by decide
  have hbefore := Text.braced?_append hlimitWord (Placeholder.braced?_text hlimit)
  exact Text.braced?_append (Text.braced?_append hbefore hoffsetWord)
    (Placeholder.braced?_text hoffset)

end PageClause

namespace Select

theorem bracedAll_clause {keyword separator : String} (hkeyword : IsInert keyword)
    (hseparator : IsInert separator) {items groups : List String}
    (h : BracedAll items groups) : BracedAll (clause keyword separator items) groups := by
  cases h with
  | nil => exact BracedAll.nil
  | cons hitem hrest =>
    rw [clause, if_neg (by simp)]
    apply BracedAll.singleton
    have hword := Text.braced?_of_isInert
      (isInert_append.mpr ⟨hkeyword, (by decide : IsInert " ")⟩)
    have hitems := (BracedAll.cons hitem hrest).intercalate (Text.braced?_of_isInert hseparator)
    simpa using Text.braced?_append hword hitems

theorem bracedAll_inert {items : List String} (h : ∀ item ∈ items, IsInert item) :
    BracedAll items [] := by
  induction items with
  | nil => exact BracedAll.nil
  | cons item items ih =>
    rw [List.forall_mem_cons] at h
    exact BracedAll.cons (Text.braced?_of_isInert h.1) (ih h.2)

end Select

namespace Scope

theorem braced?_select {s : Scope} {shape : Shape} (htable : IsInert s.table)
    (hconditions : ∀ c ∈ s.conditions, c.WellFormed) (hshape : shape.IsInert)
    (page : Option PageClause) (hpage : ∀ c ∈ page, IsWord c.limit.name ∧ IsWord c.offset.name) :
    braced? (s.select shape page).text =
      some (s.conditions.flatMap Condition.groups ++ page.toList.flatMap PageClause.groups) := by
  have hprojection : IsInert (s.select shape page).projection := by
    rw [Select.projection, isInert_append]
    constructor
    · split <;> decide
    · apply Text.isInert_intercalate (by decide)
      intro item hitem
      obtain ⟨c, hc, rfl⟩ := List.mem_map.mp hitem
      exact hshape.columns c hc
  have hhead :
      BracedAll ["SELECT " ++ (s.select shape page).projection, "FROM " ++ s.table] [] := by
    apply Select.bracedAll_inert
    rw [List.forall_mem_cons, List.forall_mem_singleton, isInert_append, isInert_append]
    exact ⟨⟨by decide, hprojection⟩, ⟨by decide, htable⟩⟩
  have hwhere : BracedAll (Select.clause "WHERE" " AND " (s.conditions.map Condition.text))
      (s.conditions.flatMap Condition.groups) :=
    Select.bracedAll_clause (by decide) (by decide)
      (BracedAll.map fun c hc => Condition.braced?_text (hconditions c hc))
  have hgroup : BracedAll (Select.clause "GROUP BY" ", " shape.groupBy) [] :=
    Select.bracedAll_clause (by decide) (by decide) (Select.bracedAll_inert hshape.groupBy)
  have horder : BracedAll (Select.clause "ORDER BY" ", " (shape.orderBy.map SortKey.text)) [] :=
    Select.bracedAll_clause (by decide) (by decide)
      (Select.bracedAll_inert (List.forall_mem_map.mpr hshape.orderBy))
  have hclause : BracedAll (page.map PageClause.text).toList
      (page.toList.flatMap PageClause.groups) := by
    cases page with
    | none => exact BracedAll.nil
    | some c =>
      obtain ⟨hlimit, hoffset⟩ := hpage c rfl
      simpa using BracedAll.singleton (PageClause.braced?_text hlimit hoffset)
  have hnewline : braced? "\n" = some [] := by decide
  have hlines := (((hhead.append hwhere).append hgroup).append horder).append hclause
  have htext := hlines.intercalate hnewline
  rw [List.nil_append, List.append_nil, List.append_nil] at htext
  exact htext

end Scope

def Repeats (block : List String) (group : String) : Prop :=
  block ≠ [] ∧ ∀ other ∈ block, other = group

theorem Repeats.eraseDups {block : List String} {group : String} (h : Repeats block group) :
    block.eraseDups = [group] := by
  obtain ⟨hne, hall⟩ := h
  cases block with
  | nil => exact absurd rfl hne
  | cons first rest =>
    obtain rfl := hall first List.mem_cons_self
    have hrest : rest.filter (fun other => !other == first) = [] := by
      rw [List.filter_eq_nil_iff]
      intro other hother
      simp [hall other (List.mem_cons_of_mem _ hother)]
    rw [List.eraseDups_cons, hrest, List.eraseDups_nil]

theorem eraseDups_flatten {blocks : List (List String)} {groups : List String}
    (h : List.Forall₂ Repeats blocks groups) (hgroups : groups.Nodup) :
    blocks.flatten.eraseDups = groups := by
  induction h with
  | nil => rfl
  | @cons block group blocks groups hblock hblocks ih =>
    rw [List.nodup_cons] at hgroups
    have hother : ∀ other ∈ blocks.flatten, other ∈ groups := by
      intro other hother
      obtain ⟨b, hb, hmem⟩ := List.mem_flatten.mp hother
      obtain ⟨i, hi, rfl⟩ := List.getElem_of_mem hb
      have hi' : i < groups.length := hblocks.length_eq ▸ hi
      rw [(hblocks.get hi hi').2 other hmem]
      exact List.getElem_mem hi'
    have hfresh : blocks.flatten.removeAll block = blocks.flatten := by
      rw [List.removeAll, List.filter_eq_self]
      intro other hmem
      have hne : other ∉ block := by
        intro hin
        rw [hblock.2 other hin] at hmem
        exact hgroups.1 (hother _ hmem)
      simpa using hne
    rw [List.flatten_cons, List.eraseDups_append, hfresh, ih hgroups.2, hblock.eraseDups]
    rfl

theorem Demand.repeats_groups {d : Demand} (hne : d.columns ≠ []) (position : Nat) :
    Repeats (d.condition (d.placeholder position)).groups (d.placeholder position).group := by
  constructor
  · intro hnil
    apply hne
    rw [← d.map_column_condition (d.placeholder position), List.map_eq_nil_iff.mp hnil]
    rfl
  · intro other hother
    obtain ⟨a, ha, rfl⟩ := List.mem_map.mp hother
    rw [placeholder_of_mem_condition ha]

def Binding.group (b : Binding) : String :=
  b.name ++ ":" ++ b.value.type.name

namespace Scope

variable (d : Dataset) (rows : RowFilter) (shape : Shape) (page : Option Page)

theorem map_group_bindings :
    ((d.table.scope rows).statement shape page).bindings.toList.map Binding.group =
      ((d.table.demands rows).mapIdx fun i d => (d.placeholder i).group) ++
        page.toList.flatMap fun _ => pageClause.groups := by
  have hplaceholders := congrArg (List.map Placeholder.group)
    (map_placeholder_bindings d.table rows shape page)
  rw [List.map_map, List.map_append, map_mapIdx] at hplaceholders
  cases page <;> exact hplaceholders

theorem repeats_conditions :
    List.Forall₂ Repeats ((d.table.scope rows).conditions.map Condition.groups)
      ((d.table.demands rows).mapIdx fun i d => (d.placeholder i).group) := by
  rw [Table.scope_conditions, map_mapIdx, List.forall₂_iff_get]
  refine ⟨by simp, ?_⟩
  intro i h h'
  simp only [List.get_eq_getElem, List.getElem_mapIdx]
  exact Demand.repeats_groups (Dataset.demand_columns (List.getElem_mem _)).1 i

variable {d shape}

theorem blocks_statement (hshape : shape.IsInert) :
    ∃ blocks, braced? ((d.table.scope rows).statement shape page).text = some blocks.flatten ∧
      List.Forall₂ Repeats blocks
        (((d.table.scope rows).statement shape page).bindings.toList.map Binding.group) := by
  have htable : IsInert (d.table.scope rows).table :=
    d.isInert_fragments _ (by simp [Table.fragments])
  have htext := braced?_select htable (fun c hc => Dataset.condition_wellFormed hc) hshape
    (page.map fun _ => pageClause) (by
      intro c hc
      obtain ⟨-, -, rfl⟩ := Option.map_eq_some_iff.mp hc
      decide)
  refine ⟨(d.table.scope rows).conditions.map Condition.groups ++
    page.toList.flatMap fun _ => pageClause.groups.map fun group => [group], ?_, ?_⟩
  · rw [statement_text, htext, List.flatMap_def, List.flatten_append]
    cases page <;> rfl
  · rw [map_group_bindings]
    apply List.rel_append (repeats_conditions d rows)
    cases page with
    | none => exact List.Forall₂.nil
    | some page =>
      have hsingle (group : String) : Repeats [group] group := by simp [Repeats]
      exact .cons (hsingle _) (.cons (hsingle _) .nil)

end Scope

theorem Bindings.nodup_groups {b : Bindings} (hnames : (b.toList.map Binding.name).Nodup)
    (hwords : ∀ binding ∈ b.toList, IsWord binding.name) :
    (b.toList.map Binding.group).Nodup := by
  apply List.Nodup.map_on _ (List.Nodup.of_map _ hnames)
  intro x hx y hy hgroup
  have hname := Placeholder.name_eq_of_group_eq (p := x.placeholder) (q := y.placeholder)
    (hwords x hx) (hwords y hy) hgroup
  exact List.inj_on_of_nodup_map hnames hx hy hname

theorem isWord_name_statement (t : Table) (rows : RowFilter) (shape : Shape)
    (page : Option Page) :
    ∀ binding ∈ ((t.scope rows).statement shape page).bindings.toList, IsWord binding.name := by
  intro binding hbinding
  obtain ⟨i, step, hstep, rfl⟩ := exists_step_of_mem hbinding
  cases List.mem_append.mp hstep with
  | inl hmem =>
    obtain ⟨d, -, rfl⟩ := List.mem_map.mp hmem
    exact d.isWord_name i
  | inr hmem =>
    obtain ⟨page, -, hmem⟩ := List.mem_flatMap.mp hmem
    simp only [Page.steps, List.mem_cons, List.not_mem_nil, or_false] at hmem
    cases hmem with
    | inl heq => exact heq ▸ (by decide : IsWord "limit")
    | inr heq => exact heq ▸ (by decide : IsWord "offset")

theorem groups_of_compile {d : Dataset} {pattern : ReadPattern} {p : Parameters} {limits : Limits}
    {s : Statement} (h : compile d pattern p limits = .ok s) :
    ∃ groups, braced? s.text = some groups ∧
      groups.eraseDups = s.bindings.toList.map Binding.group := by
  obtain ⟨rows, page, shape, -, -, hshape, rfl⟩ := compile_eq_ok h
  obtain ⟨blocks, htext, hblocks⟩ :=
    Scope.blocks_statement rows page (Dataset.shape_isInert hshape)
  refine ⟨blocks.flatten, htext, eraseDups_flatten hblocks ?_⟩
  exact Bindings.nodup_groups (nodup_names_statement d.table rows shape page)
    (isWord_name_statement d.table rows shape page)

/-- All braces of a statement belong to groups, which in order of first occurrence are its
bindings.  Names are bound once, so at every prefix of the bindings that a named value ends, its
name was still free. -/
theorem compile_groups_eq_bindings {d : Dataset} {pattern : ReadPattern} {p : Parameters}
    {limits : Limits} {s : Statement} (h : compile d pattern p limits = .ok s) :
    (∃ groups, braced? s.text = some groups ∧
      groups.eraseDups = s.bindings.toList.map fun b => b.name ++ ":" ++ b.value.type.name) ∧
    (s.bindings.toList.map Binding.name).Nodup ∧
    ∀ (b : Bindings) (name : String) (v : Value),
      (b.bindNamed name v).1.toList <+: s.bindings.toList → b.get? name = none := by
  have hgroups := groups_of_compile h
  obtain ⟨rows, page, shape, -, -, -, rfl⟩ := compile_eq_ok h
  have hnames := nodup_names_statement d.table rows shape page
  refine ⟨hgroups, hnames, ?_⟩
  intro b name v hearlier
  apply Bindings.get?_eq_none
  have hnodup := hnames.sublist (hearlier.sublist.map Binding.name)
  intro hmem
  rw [Bindings.bindNamed, Bindings.toList_push, List.map_append, List.nodup_append] at hnodup
  exact hnodup.2.2 name hmem name (by simp) rfl

def boundedSearch : Parameters where
  search := some " x "
  rangeFilters := some "\x7b\"parts_to_do\": \x7b\"min\": 1, \"max\": \"9\"\x7d\x7d"

theorem compile_groups_boundedSearch :
    ∃ s, compile .mutations .count boundedSearch {} = .ok s ∧
      (∃ groups, braced? s.text = some groups ∧
        groups.eraseDups = ["search:String", "range_1:UInt64", "range_2:UInt64"]) ∧
      (s.bindings.toList.map Binding.name).Nodup := by
  have h : compile .mutations .count boundedSearch {} = .ok
      ⟨"SELECT count() AS total\nFROM system.mutations\nWHERE " ++
          "(positionCaseInsensitive(toString(command), \x7bsearch:String\x7d) > 0 OR " ++
          "positionCaseInsensitive(toString(latest_fail_reason), \x7bsearch:String\x7d) > 0)" ++
          " AND parts_to_do >= \x7brange_1:UInt64\x7d AND parts_to_do <= \x7brange_2:UInt64\x7d",
        ⟨[⟨"search", .text "x"⟩, ⟨"range_1", .uint64 1⟩, ⟨"range_2", .uint64 9⟩]⟩⟩ := by
    decide +kernel
  obtain ⟨hgroups, hnames, -⟩ := compile_groups_eq_bindings h
  exact ⟨_, h, hgroups, hnames⟩

end QueryConsole
