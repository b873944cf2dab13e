import QueryConsole.Proofs.Dataset.Columns
import QueryConsole.Statement.Pattern

namespace QueryConsole

open Text (IsInert isInert_append isInert_intercalate)

theorem all_escapeWith {p : Char → Bool} {letter? : Char → Option Char} {cs : List Char}
    (hslash : p '\\' = true)
    (hletter : ∀ c letter, letter? c = some letter → p letter = true)
    (hraw : ∀ c ∈ cs, letter? c = none → p c = true) :
    (escapeWith letter? cs).all p = true := by
  induction cs with
  | nil => rfl
  | cons c cs ih =>
    rw [List.forall_mem_cons] at hraw
    rw [escapeWith]
    split
    · next letter hc => simp [hslash, hletter c letter hc, ih hraw.2]
    · next hc => simp [hraw.1 hc, ih hraw.2]

theorem isInert_quoteLiteral {s : String} (h : IsInert s) : IsInert (quoteLiteral s) := by
  have hescaped : IsInert (String.ofList (escapeWith literalEscape? s.toList)) := by
    rw [IsInert, String.toList_ofList]
    apply all_escapeWith (by decide) _ fun c hc _ => List.all_eq_true.mp h c hc
    intro c letter hc
    simp only [literalEscape?, Option.ite_none_right_eq_some, Option.some.injEq] at hc
    obtain ⟨rfl | rfl, rfl⟩ := hc <;> decide
  rw [quoteLiteral, isInert_append, isInert_append]
  exact ⟨⟨by decide, hescaped⟩, by decide⟩

namespace Column

theorem isInert_named {expression label : String} (he : IsInert expression)
    (hl : IsInert label) : IsInert (Column.named expression label).text := by
  rw [text, isInert_append, isInert_append]
  exact ⟨⟨he, by decide⟩, hl⟩

theorem isInert_countOf {column value : String} (hc : IsInert column) (hv : IsInert value) :
    IsInert (Column.countOf column value).text := by
  simp only [text, isInert_append]
  refine ⟨⟨⟨⟨⟨⟨?_, hc⟩, ?_⟩, isInert_quoteLiteral hv⟩, ?_⟩, hv⟩, ?_⟩ <;> decide

theorem isInert_countOthers {column : String} {values : List String} (hc : IsInert column)
    (hv : ∀ value ∈ values, IsInert value) :
    IsInert (Column.countOthers column values).text := by
  have hlist : IsInert (", ".intercalate (values.map quoteLiteral)) := by
    apply isInert_intercalate (by decide)
    intro item hitem
    obtain ⟨value, hvalue, rfl⟩ := List.mem_map.mp hitem
    exact isInert_quoteLiteral (hv value hvalue)
  simp only [text, isInert_append]
  refine ⟨⟨⟨⟨?_, hc⟩, ?_⟩, hlist⟩, ?_⟩ <;> decide

end Column

theorem SortKey.isInert_text {k : SortKey} (h : IsInert k.column) : IsInert k.text := by
  rw [text, isInert_append, isInert_append]
  refine ⟨⟨h, by decide⟩, ?_⟩
  cases k.order <;> decide

theorem RequestedSort.isInert_keyOr (s : RequestedSort) (allowed : String → Bool)
    {default : String} (h : IsInert default) : IsInert (s.keyOr allowed default).text := by
  apply SortKey.isInert_text
  simp only [keyOr, columnOr]
  split
  · split
    · next hallowed =>
      rw [Bool.and_eq_true] at hallowed
      exact (Text.isWord_of_isIdentifier hallowed.1).isInert
    · exact h
  · exact h

structure Shape.IsInert (s : Shape) : Prop where
  columns : ∀ c ∈ s.columns, Text.IsInert c.text
  groupBy : ∀ name ∈ s.groupBy, Text.IsInert name
  orderBy : ∀ k ∈ s.orderBy, Text.IsInert k.text

theorem isInert_bucketColumn {column : String} (b : Bucket) (h : IsInert column) :
    IsInert (bucketColumn column b).text := by
  apply Column.isInert_named
  · simp only [isInert_append]
    refine ⟨⟨⟨⟨by decide, h⟩, by decide⟩, ?_⟩, by decide⟩
    cases b <;> decide
  · decide

theorem isInert_rate (perSecond : Bool) (b : Bucket) {expression : String}
    (h : IsInert expression) : IsInert (rate perSecond b expression) := by
  rw [rate]
  split
  · simp only [isInert_append]
    refine ⟨⟨h, by decide⟩, ?_⟩
    cases b <;> decide
  · exact h

theorem isInert_measureColumns (perSecond : Bool) (b : Bucket) {measure : String}
    (h : IsInert measure) : ∀ c ∈ measureColumns perSecond b measure, IsInert c.text := by
  have hcall (stem : String) (hstem : IsInert stem) : IsInert (stem ++ measure ++ ")") := by
    simp only [isInert_append]
    exact ⟨⟨hstem, h⟩, by decide⟩
  have hname (stem : String) (hstem : IsInert stem) : IsInert (stem ++ measure) :=
    isInert_append.mpr ⟨hstem, h⟩
  rw [measureColumns, List.forall_mem_cons, List.forall_mem_cons, List.forall_mem_cons,
    List.forall_mem_singleton]
  refine ⟨?_, ?_, ?_, ?_⟩
  · exact Column.isInert_named (hcall "avg(" (by decide)) (hname "avg_" (by decide))
  · exact Column.isInert_named (hcall "min(" (by decide)) (hname "min_" (by decide))
  · exact Column.isInert_named (hcall "max(" (by decide)) (hname "max_" (by decide))
  · exact Column.isInert_named (isInert_rate _ _ (hcall "sum(" (by decide)))
      (hname "sum_" (by decide))

theorem isInert_bucketed {columns : List Column} (h : ∀ c ∈ columns, IsInert c.text) :
    (bucketed columns).IsInert where
  columns := h
  groupBy := (by decide : ∀ name ∈ ["bucket"], IsInert name)
  orderBy := (by decide : ∀ k ∈ [SortKey.mk "bucket" .ascending], IsInert k.text)

theorem Field.isInert_valueExpression {f : Field} (h : IsInert f.name) :
    IsInert f.valueExpression := by
  obtain ⟨name, kind⟩ := f
  cases kind with
  | scalar =>
    change IsInert ("toString(" ++ name ++ ")")
    rw [isInert_append, isInert_append]
    exact ⟨⟨by decide, h⟩, by decide⟩
  | arrayOfText =>
    change IsInert ("toString(arrayJoin(" ++ name ++ "))")
    rw [isInert_append, isInert_append]
    exact ⟨⟨by decide, h⟩, by decide⟩

theorem Categories.shown_sublist (c : Categories) (wanted : List String) :
    (c.shown wanted).Sublist c.values := by
  rw [shown]
  split
  · exact List.Sublist.refl _
  · exact List.filter_sublist

theorem Categories.shown_congr {c : Categories} {wanted wanted' : List String}
    (h : ∀ value ∈ c.values, (value ∈ wanted ↔ value ∈ wanted')) :
    c.shown wanted = c.shown wanted' := by
  have hchosen : (c.values.filter fun value => wanted.contains value) =
      c.values.filter fun value => wanted'.contains value := by
    apply List.filter_congr
    intro value hvalue
    rw [Bool.eq_iff_iff, List.contains_iff_mem, List.contains_iff_mem]
    exact h value hvalue
  simp only [shown, hchosen]

theorem Table.mem_of_field?_eq_some {t : Table} {name : String} {f : Field}
    (h : t.field? name = some f) :
    f = ⟨name, .arrayOfText⟩ ∧ name ∈ t.arrayFields ∨
      f = ⟨name, .scalar⟩ ∧ name ∈ t.scalarFields := by
  rw [field?] at h
  split at h
  · next harray =>
    cases h
    exact .inl ⟨rfl, by simpa using harray⟩
  · split at h
    · next hscalar =>
      cases h
      exact .inr ⟨rfl, by simpa using hscalar⟩
    · cases h

theorem Table.field?_array {t : Table} {name : String} (h : name ∈ t.arrayFields) :
    t.field? name = some ⟨name, .arrayOfText⟩ := by
  rw [field?, if_pos (by simpa using h)]

namespace Dataset

variable {d : Dataset} {pattern : ReadPattern} {p : Parameters} {shape : Shape}

theorem field?_scalar (d : Dataset) {name : String} (h : name ∈ d.table.scalarFields) :
    d.table.field? name = some ⟨name, .scalar⟩ := by
  have harray : name ∉ d.table.arrayFields := fun harray => d.arrayFields_disjoint name harray h
  rw [Table.field?, if_neg (by simpa using harray), if_pos (by simpa using h)]

theorem takesRange (d : Dataset) {column : String} (h : column ∈ d.table.rangeFields) :
    (Text.isIdentifier column && d.table.acceptsRange column) = true := by
  rw [(d.isColumn_rangeField h).1, Table.acceptsRange, Bool.true_and]
  simpa using h

theorem isColumn_field {name : String} {f : Field} (h : d.table.field? name = some f) :
    IsColumn f.name := by
  obtain ⟨rfl, hmem⟩ | ⟨rfl, hmem⟩ := Table.mem_of_field?_eq_some h
  · exact d.isColumn_arrayField hmem
  · exact d.isColumn_scalarField hmem

theorem listShape_isInert (d : Dataset) (p : Parameters) : (d.listShape p).IsInert where
  columns := (by decide : ∀ c ∈ [Column.everything], IsInert c.text)
  groupBy := nofun
  orderBy := by
    rw [listShape, List.forall_mem_singleton]
    exact p.sort.isInert_keyOr _ d.isColumn_defaultSort.isInert

theorem seriesShape_isInert (h : d.seriesShape p = .ok shape) : shape.IsInert := by
  rw [seriesShape] at h
  split at h
  · next column hcolumn =>
    split at h
    · cases h
    · cases h
      apply isInert_bucketed
      simp only [List.forall_mem_cons]
      refine ⟨isInert_bucketColumn _ (d.isColumn_timeColumn hcolumn).isInert,
        Column.isInert_named (isInert_rate _ _ (by decide)) (by decide), ?_⟩
      intro c hc
      obtain ⟨measure, hmeasure, hc⟩ := List.mem_flatMap.mp hc
      exact isInert_measureColumns _ _ (d.isColumn_measure hmeasure).isInert c hc
  · cases h

theorem stackedShape_isInert (h : d.stackedShape p = .ok shape) : shape.IsInert := by
  rw [stackedShape] at h
  split at h
  · next column c hcolumn hc =>
    cases h
    have hcategory : IsInert c.column := (d.isColumn_category hc).isInert
    have hvalues : ∀ value ∈ c.values, IsInert value := fun value hvalue =>
      d.isInert_fragments value (by simp [Table.fragments, hc, hvalue])
    have hshown : ∀ value ∈ c.shown p.eventNames, IsInert value :=
      fun value hvalue => hvalues value ((c.shown_sublist _).subset hvalue)
    apply isInert_bucketed
    rw [List.cons_append, List.forall_mem_cons, List.forall_mem_append, List.forall_mem_map,
      List.forall_mem_singleton]
    exact ⟨isInert_bucketColumn _ (d.isColumn_timeColumn hcolumn).isInert,
      fun value hvalue => Column.isInert_countOf hcategory (hshown value hvalue),
      Column.isInert_countOthers hcategory hvalues⟩
  · cases h

theorem summary_mem {s : Summary} {name : Option String} (h : d.table.summary? name = some s) :
    s ∈ d.table.summaries := by
  rw [Table.summary?] at h
  split at h
  · exact List.mem_of_head? h
  · exact List.mem_of_find?_eq_some h

theorem summaryShape_isInert (h : d.summaryShape p = .ok shape) : shape.IsInert := by
  rw [summaryShape] at h
  split at h
  · next s hs =>
    cases h
    have hmem := summary_mem hs
    have hkeys : ∀ key ∈ s.keys, IsInert key := fun key hkey =>
      (d.isColumn_summary hmem (by simp [hkey])).isInert
    constructor
    · simp only [List.forall_mem_append, List.forall_mem_map]
      refine ⟨hkeys, ?_⟩
      intro a ha
      apply Column.isInert_named
      · apply d.isInert_fragments
        rw [Table.fragments]
        exact List.mem_append_right _
          (List.mem_flatMap.mpr ⟨s, hmem, List.mem_map_of_mem ha⟩)
      · exact (d.isColumn_summary hmem (by simp [List.mem_map_of_mem ha])).isInert
    · exact hkeys
    · rw [List.forall_mem_singleton]
      exact p.sort.isInert_keyOr _ (d.isColumn_summary hmem (by simp)).isInert
  · cases h

theorem map_eq_ok {α β : Type} {f : α → β} {x : Except Failure α} {b : β}
    (h : x.map f = .ok b) : ∃ a, x = .ok a ∧ f a = b := by
  cases x with
  | error e => cases h
  | ok a =>
    cases h
    exact ⟨a, rfl, rfl⟩

theorem selectable_eq_ok {field : String} {f : Field} (h : d.selectable pattern field = .ok f) :
    d.table.field? field = some f := by
  rw [selectable] at h
  split at h
  · next hf =>
    cases h
    exact hf
  · cases h

theorem histogramShape_isInert {f : Field} (h : IsColumn f.name) :
    (histogramShape f).IsInert where
  columns := by
    rw [histogramShape, List.forall_mem_cons, List.forall_mem_singleton]
    exact ⟨Column.isInert_named (Field.isInert_valueExpression h.isInert) (by decide), by decide⟩
  groupBy := (by decide : ∀ name ∈ ["value"], IsInert name)
  orderBy :=
    (by decide :
      ∀ k ∈ [SortKey.mk "count" .descending, ⟨"value", .ascending⟩], IsInert k.text)

theorem distinctShape_isInert {f : Field} (h : IsColumn f.name) :
    (distinctShape f).IsInert where
  columns := by
    rw [distinctShape, List.forall_mem_singleton]
    exact Column.isInert_named (Field.isInert_valueExpression h.isInert) (by decide)
  groupBy := nofun
  orderBy := (by decide : ∀ k ∈ [SortKey.mk "value" .ascending], IsInert k.text)

theorem shape_isInert (h : d.shape pattern p = .ok shape) : shape.IsInert := by
  cases pattern with
  | list =>
    cases h
    exact d.listShape_isInert p
  | count =>
    cases h
    exact ⟨by decide, nofun, nofun⟩
  | timeSeries => exact seriesShape_isInert h
  | stacked => exact stackedShape_isInert h
  | summary => exact summaryShape_isInert h
  | histogram field =>
    obtain ⟨f, hf, rfl⟩ := map_eq_ok h
    exact histogramShape_isInert (isColumn_field (selectable_eq_ok hf))
  | distinct field =>
    obtain ⟨f, hf, rfl⟩ := map_eq_ok h
    exact distinctShape_isInert (isColumn_field (selectable_eq_ok hf))

end Dataset

end QueryConsole
