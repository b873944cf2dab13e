import Mathlib.Logic.Relation
import QueryConsole.Proofs.Statement.Acceptance
import QueryConsole.Proofs.Text.Split
import QueryConsole.Proofs.Text.Trim

namespace QueryConsole

/-- A parameter and another way to write it: with more blanks around it, or left out if blank. -/
inductive Pads : Option String → Option String → Prop
  | around {before after : String} (s : String) :
    Text.isBlankText before = true → Text.isBlankText after = true →
      Pads (some s) (some (before ++ s ++ after))
  | absent {s : String} : Text.isBlankText s = true → Pads (some s) none

def SameButBlanks : Option String → Option String → Prop :=
  Relation.EqvGen Pads

def itemsOf (raw : Option String) : List String :=
  (Text.splitOn ',' (raw.getD "")).filterMap fun item => Text.given (some item)

section Items

variable {s before after : String}

theorem itemsOf_some (s : String) :
    itemsOf (some s) = (Text.splitChars (· == ',') s.toList).filterMap fun piece =>
      Text.given (some (String.ofList piece)) := by
  rw [itemsOf, Option.getD_some, Text.splitOn, List.filterMap_map]
  rfl

theorem ne_comma_of_isBlankText (h : Text.isBlankText s = true) :
    ∀ c ∈ s.toList, (c == ',') = false := by
  intro c hc
  rw [beq_eq_false_iff_ne]
  rintro rfl
  exact absurd (List.all_eq_true.mp h _ hc) (by decide)

theorem itemsOf_append_left (h : Text.isBlankText before = true) :
    itemsOf (some (before ++ s)) = itemsOf (some s) := by
  obtain ⟨first, pieces, hpieces, happend⟩ :=
    Text.splitChars_append_left s.toList (ne_comma_of_isBlankText h)
  have hfirst : Text.given (some (String.ofList (before.toList ++ first))) =
      Text.given (some (String.ofList first)) := by
    have hpadded : Text.given (some (before ++ String.ofList first ++ "")) =
        Text.given (some (String.ofList first)) := Text.given_padded h rfl
    rwa [String.append_empty, ← String.ofList_toList (s := before ++ String.ofList first),
      String.toList_append, String.toList_ofList] at hpadded
  rw [itemsOf_some, itemsOf_some, String.toList_append, hpieces, happend, List.filterMap_cons,
    List.filterMap_cons, hfirst]

theorem itemsOf_append_right (h : Text.isBlankText after = true) :
    itemsOf (some (s ++ after)) = itemsOf (some s) := by
  obtain ⟨pieces, last, hpieces, happend⟩ :=
    Text.splitChars_append_right s.toList (ne_comma_of_isBlankText h)
  have hlast : Text.given (some (String.ofList (last ++ after.toList))) =
      Text.given (some (String.ofList last)) := by
    have hpadded : Text.given (some ("" ++ String.ofList last ++ after)) =
        Text.given (some (String.ofList last)) := Text.given_padded rfl h
    rwa [String.empty_append, ← String.ofList_toList (s := String.ofList last ++ after),
      String.toList_append, String.toList_ofList] at hpadded
  rw [itemsOf_some, itemsOf_some, String.toList_append, hpieces, happend, List.filterMap_append,
    List.filterMap_append, List.filterMap_cons, List.filterMap_cons, hlast]

theorem itemsOf_of_isBlankText (h : Text.isBlankText s = true) : itemsOf (some s) = [] := by
  rw [itemsOf_some, Text.splitChars_of_none (ne_comma_of_isBlankText h)]
  simp [Text.given, h]

end Items

namespace SameButBlanks

variable {α : Type} {raw raw' : Option String}

theorem congr {f : Option String → α} (hstep : ∀ a b, Pads a b → f a = f b)
    (h : SameButBlanks raw raw') : f raw = f raw' := by
  induction h with
  | rel a b h => exact hstep a b h
  | refl a => rfl
  | symm a b _ ih => exact ih.symm
  | trans a b c _ _ ihab ihbc => exact ihab.trans ihbc

theorem given_eq (h : SameButBlanks raw raw') : Text.given raw = Text.given raw' := by
  refine h.congr ?_
  rintro _ _ (⟨s, hbefore, hafter⟩ | hblank)
  · exact (Text.given_padded hbefore hafter).symm
  · simp [Text.given, hblank]

theorem itemsOf_eq (h : SameButBlanks raw raw') : itemsOf raw = itemsOf raw' := by
  refine h.congr ?_
  rintro _ _ (⟨s, hbefore, hafter⟩ | hblank)
  · rw [itemsOf_append_right hafter, itemsOf_append_left hbefore]
  · rw [itemsOf_of_isBlankText hblank]
    rfl

end SameButBlanks

namespace Parameters

/-- The sort field and order are taken as they are written. -/
structure AgreeButBlanks (p q : Parameters) : Prop where
  start : SameButBlanks p.start q.start
  finish : SameButBlanks p.finish q.finish
  search : SameButBlanks p.search q.search
  limit : SameButBlanks p.limit q.limit
  offset : SameButBlanks p.offset q.offset
  sortField : p.sortField = q.sortField
  sortOrder : p.sortOrder = q.sortOrder
  filters : SameButBlanks p.filters q.filters
  rangeFilters : SameButBlanks p.rangeFilters q.rangeFilters
  bucket : SameButBlanks p.bucket q.bucket
  normalize : SameButBlanks p.normalize q.normalize
  eventColumns : SameButBlanks p.eventColumns q.eventColumns
  groupBy : SameButBlanks p.groupBy q.groupBy

namespace AgreeButBlanks

variable {p q : Parameters}

theorem rowFilter_eq (h : p.AgreeButBlanks q) : p.rowFilter = q.rowFilter := by
  simp only [rowFilter, Calendar.Window.parse, Calendar.parseBound, parseFilters, parseRanges,
    parseEntries, h.start.given_eq, h.finish.given_eq, h.search.given_eq, h.filters.given_eq,
    h.rangeFilters.given_eq]

theorem page_eq (h : p.AgreeButBlanks q) (pattern : ReadPattern) (limits : Limits) :
    pattern.page p limits = pattern.page q limits := by
  simp only [ReadPattern.page, page, parseCount, h.limit.given_eq, h.offset.given_eq]

theorem sort_eq (h : p.AgreeButBlanks q) : p.sort = q.sort := by
  rw [sort, sort, h.sortField, h.sortOrder]

theorem bucketWidth_eq (h : p.AgreeButBlanks q) : p.bucketWidth = q.bucketWidth := by
  rw [bucketWidth, bucketWidth, Bucket.parse, Bucket.parse, h.bucket.given_eq]

theorem perSecond_eq (h : p.AgreeButBlanks q) : p.perSecond = q.perSecond := by
  rw [perSecond, perSecond, h.normalize.given_eq]

theorem eventNames_eq (h : p.AgreeButBlanks q) : p.eventNames = q.eventNames :=
  h.eventColumns.itemsOf_eq

theorem summary?_eq (h : p.AgreeButBlanks q) (t : Table) :
    t.summary? p.groupBy = t.summary? q.groupBy := by
  rw [Table.summary?, Table.summary?, h.groupBy.given_eq]

theorem shape_eq_or (h : p.AgreeButBlanks q) (d : Dataset) (pattern : ReadPattern) :
    d.shape pattern p = d.shape pattern q ∨
      pattern = .summary ∧
        d.shape .summary p = .error (.invalid (.summaryUnavailable p.groupBy d)) ∧
        d.shape .summary q = .error (.invalid (.summaryUnavailable q.groupBy d)) := by
  cases pattern with
  | list => left; rw [Dataset.shape, Dataset.shape, Dataset.listShape, Dataset.listShape, h.sort_eq]
  | count => exact .inl rfl
  | timeSeries =>
    left
    simp only [Dataset.shape, Dataset.seriesShape, h.bucketWidth_eq, h.perSecond_eq]
  | stacked =>
    left
    simp only [Dataset.shape, Dataset.stackedShape, h.bucketWidth_eq, h.eventNames_eq]
  | summary =>
    simp only [Dataset.shape, Dataset.summaryShape, h.summary?_eq, h.sort_eq]
    cases d.table.summary? q.groupBy with
    | none => exact .inr ⟨trivial, rfl, rfl⟩
    | some s => exact .inl rfl
  | histogram field => exact .inl rfl
  | distinct field => exact .inl rfl

end AgreeButBlanks

end Parameters

/-- Requests that differ in such blanks only compile to one statement, or both are refused for one
reason; where that reason quotes the name of a summary, each is told its own spelling of it. -/
theorem compile_agreeButBlanks {p q : Parameters} (h : p.AgreeButBlanks q) (d : Dataset)
    (pattern : ReadPattern) (limits : Limits) :
    (∃ s, compile d pattern p limits = .ok s ∧ compile d pattern q limits = .ok s) ∨
      ∃ f g, compile d pattern p limits = .error (.invalid f) ∧
        compile d pattern q limits = .error (.invalid g) ∧
        (f = g ∨ pattern = .summary ∧ f = .summaryUnavailable p.groupBy d ∧
          g = .summaryUnavailable q.groupBy d) := by
  obtain hshape | ⟨rfl, hp, hq⟩ := h.shape_eq_or d pattern
  · have heq : compile d pattern p limits = compile d pattern q limits := by
      rw [compile, compile, h.rowFilter_eq, h.page_eq, hshape]
    rw [heq]
    cases hresult : compile d pattern q limits with
    | ok s => exact .inl ⟨s, rfl, rfl⟩
    | error f =>
      obtain ⟨fault, rfl⟩ := onlyInvalid_compile f hresult
      exact .inr ⟨fault, fault, rfl, rfl, .inl rfl⟩
  · right
    rw [compile, compile, h.rowFilter_eq, h.page_eq, hp, hq]
    cases hrows : q.rowFilter with
    | error f =>
      obtain ⟨fault, rfl⟩ := Parameters.onlyInvalid_rowFilter f hrows
      exact ⟨fault, fault, rfl, rfl, .inl rfl⟩
    | ok rows =>
      cases hpage : ReadPattern.summary.page q limits with
      | error f =>
        obtain ⟨fault, rfl⟩ := ReadPattern.onlyInvalid_page f hpage
        exact ⟨fault, fault, rfl, rfl, .inl rfl⟩
      | ok page => exact ⟨_, _, rfl, rfl, .inr ⟨rfl, rfl, rfl⟩⟩

def tidySeries : Parameters where
  start := some "2024-01-02 03:04"
  search := some "merge"
  rangeFilters := some "\x7b\"source_line\": \x7b\"max\": 99\x7d\x7d"
  bucket := some "hour"
  normalize := some ""
  eventColumns := some "Error, Fatal"

def untidySeries : Parameters where
  start := some ("\t" ++ "2024-01-02 03:04" ++ "\n")
  finish := some "\u2003"
  search := some ("\u3000" ++ "merge" ++ " \u00A0")
  limit := some " "
  rangeFilters := some ("\u2028" ++ "\x7b\"source_line\": \x7b\"max\": 99\x7d\x7d" ++ "\r\n")
  bucket := some (" " ++ "hour" ++ "\u0085")
  eventColumns := some ("\u1680" ++ "Error, Fatal" ++ "\u205F")

theorem agreeButBlanks_untidySeries : tidySeries.AgreeButBlanks untidySeries where
  start := .rel _ _ (.around _ (by decide) (by decide))
  finish := .symm _ _ (.rel _ _ (.absent (by decide)))
  search := .rel _ _ (.around _ (by decide) (by decide))
  limit := .symm _ _ (.rel _ _ (.absent (by decide)))
  offset := .refl _
  sortField := rfl
  sortOrder := rfl
  filters := .refl _
  rangeFilters := .rel _ _ (.around _ (by decide) (by decide))
  bucket := .rel _ _ (.around _ (by decide) (by decide))
  normalize := .rel _ _ (.absent (by decide))
  eventColumns := .rel _ _ (.around _ (by decide) (by decide))
  groupBy := .refl _

theorem compile_agreeButBlanks_untidySeries :
    tidySeries.AgreeButBlanks untidySeries ∧
      ∃ s, compile .textLog .stacked tidySeries {} = .ok s ∧
        compile .textLog .stacked untidySeries {} = .ok s := by
  have haccepted : (compile .textLog .stacked tidySeries {}).isOk = true := by decide +kernel
  refine ⟨agreeButBlanks_untidySeries, ?_⟩
  obtain hok | ⟨f, -, herror, -⟩ :=
    compile_agreeButBlanks agreeButBlanks_untidySeries .textLog .stacked {}
  · exact hok
  · rw [herror] at haccepted
    cases haccepted

end QueryConsole
