import QueryConsole.Proofs.Request.Members
import QueryConsole.Proofs.Statement.Demands

namespace QueryConsole

section Meaning

open Json (StandFor Tree)

inductive IsFilterText : Tree → String → Prop
  | text {pieces : List Json.Piece} {s : String} (h : StandFor pieces s.toList) :
    IsFilterText (.text pieces) s
  | bool (b : Bool) : IsFilterText (.bool b) (toString b)
  | integer {n : Json.Numeral} {value : Int} (h : n.IsInteger64 value) :
    IsFilterText (.number n) (toString value)
  | double {n : Json.Numeral} {x : Decimal.Double} (h : ∀ value, ¬n.IsInteger64 value)
    (hx : n.double? = some x) : IsFilterText (.number n) x.text

inductive AreFilterTexts : Tree → List String → Prop
  | array {items : List Tree} {texts : List String} (h : List.Forall₂ IsFilterText items texts) :
    AreFilterTexts (.array items true) texts

theorem Json.Tree.filterText?_eq_some {t : Tree} (h : t.IsWritten) {s : String} :
    t.filterText? = some s ↔ IsFilterText t s := by
  constructor
  · intro ht
    cases t with
    | text pieces => exact .text ((Json.pieceText?_eq_some (h.text)).mp ht)
    | number n =>
      obtain ⟨number, hnumber, rfl⟩ := Option.map_eq_some_iff.mp ht
      cases number with
      | integer value => exact .integer ((Json.number?_eq_integer h.number).mp hnumber)
      | double x =>
        obtain ⟨hnone, hx⟩ := (Json.number?_eq_double h.number).mp hnumber
        exact .double hnone hx
    | bool b => cases b <;> cases ht <;> exact .bool _
    | null | array | object | broken => cases ht
  · intro ht
    cases ht with
    | text hstand => exact (Json.pieceText?_eq_some h.text).mpr hstand
    | bool b => cases b <;> rfl
    | integer hvalue =>
      rw [Json.Tree.filterText?, (Json.number?_eq_integer h.number).mpr hvalue]
      rfl
    | double hnone hx =>
      rw [Json.Tree.filterText?, (Json.number?_eq_double h.number).mpr ⟨hnone, hx⟩]
      rfl

theorem Json.Tree.filterTexts?_eq_some {t : Tree} (h : t.IsWritten) {texts : List String} :
    t.filterTexts? = some texts ↔ AreFilterTexts t texts := by
  have hitems {items : List Tree} (h : (Tree.array items true).IsWritten) :
      items.mapM Tree.filterText? = some texts ↔ List.Forall₂ IsFilterText items texts :=
    Json.mapM_eq_some.trans
      (forall₂_congr_left fun item hitem s => Json.Tree.filterText?_eq_some (h.item hitem))
  constructor
  · intro ht
    rw [Json.Tree.filterTexts?.eq_def] at ht
    split at ht
    · exact .array ((hitems h).mp ht)
    · cases ht
  · rintro ⟨htexts⟩
    exact (hitems h).mpr htexts

end Meaning

section Statement

variable {t : Table} {filters filters' : ValueFilters}

theorem Table.filterDemands_congr (h : KeysSorted filters) (h' : KeysSorted filters')
    (hmem : ∀ name values, (t.field? name).isSome → values ≠ [] →
      ((name, values) ∈ filters ↔ (name, values) ∈ filters')) :
    t.filterDemands filters = t.filterDemands filters' := by
  let asks (entry : String × List String) : Bool := (t.field? entry.1).isSome && !entry.2.isEmpty
  have hdemands (filters : ValueFilters) :
      t.filterDemands filters = t.filterDemands (filters.filter asks) := by
    rw [Table.filterDemands, Table.filterDemands, List.filterMap_filter]
    congr 1
    funext entry
    simp only [asks]
    cases t.field? entry.1 with
    | none => rfl
    | some field => cases entry.2.isEmpty <;> rfl
  have hsorted {filters : ValueFilters} (h : KeysSorted filters) :
      KeysSorted (filters.filter asks) := List.Pairwise.sublist (List.filter_sublist.map _) h
  have hsame : filters.filter asks = filters'.filter asks := by
    refine (hsorted h).ext (hsorted h') fun entry => ?_
    rw [List.mem_filter, List.mem_filter]
    refine and_congr_left fun hasks => ?_
    obtain ⟨hknown, hvalues⟩ := Bool.and_eq_true_iff.mp hasks
    exact hmem entry.1 entry.2 hknown (by simpa using hvalues)
  rw [hdemands, hsame, ← hdemands]

theorem Table.scope_congr {r r' : RowFilter} (h : t.demands r = t.demands r') :
    t.scope r = t.scope r' := by
  rw [Table.scope, Table.scope, h]

theorem compile_filters_congr {d : Dataset} {raw raw' : Option String}
    (h : parseFilters raw = .ok filters) (h' : parseFilters raw' = .ok filters')
    (hdemands : d.table.filterDemands filters = d.table.filterDemands filters')
    (pattern : ReadPattern) (p : Parameters) (limits : Limits) :
    compile d pattern { p with filters := raw } limits =
      compile d pattern { p with filters := raw' } limits := by
  have hpage : pattern.page { p with filters := raw } limits =
      pattern.page { p with filters := raw' } limits := by
    cases pattern <;> rfl
  have hshape : d.shape pattern { p with filters := raw } =
      d.shape pattern { p with filters := raw' } := by
    cases pattern <;> rfl
  have hscope (window : Calendar.Window) (ranges : RangeFilters) :
      d.table.scope ⟨window, Text.given p.search, filters, ranges⟩ =
        d.table.scope ⟨window, Text.given p.search, filters', ranges⟩ := by
    apply Table.scope_congr
    rw [Table.demands, Table.demands, hdemands]
  simp only [compile, hpage, hshape, Parameters.rowFilter, h, h', bind, Except.bind, pure,
    Except.pure]
  cases Calendar.Window.parse p.start p.finish with
  | error e => rfl
  | ok window =>
    cases parseRanges p.rangeFilters with
    | error e => rfl
    | ok ranges => simp only [hscope]

end Statement

/-- What two filter payloads have to share for one statement: the last lists, other than empty ones,
of the fields that the table knows. -/
def SameFilters (t : Table) (given given' : ValueFilters) : Prop :=
  ∀ name values, (t.field? name).isSome → values ≠ [] →
    (IsLast given (name, values) ↔ IsLast given' (name, values))

theorem parseFilters_exact (raw : String) :
    ((∃ filters, parseFilters (some raw) = .ok filters) ↔
      ∃ given, IsPayload AreFilterTexts raw given) ∧
    ((¬∃ given, IsPayload AreFilterTexts raw given) →
      parseFilters (some raw) = .error (.invalid .malformedFilters)) ∧
    (∀ given, IsPayload AreFilterTexts raw given →
      ∃ filters, parseFilters (some raw) = .ok filters ∧ IsLatest given filters) ∧
    ∀ raw' given given', IsPayload AreFilterTexts raw given →
      IsPayload AreFilterTexts raw' given' → ∀ d : Dataset, SameFilters d.table given given' →
        ∀ (pattern : ReadPattern) (p : Parameters) (limits : Limits),
          compile d pattern { p with filters := some raw } limits =
            compile d pattern { p with filters := some raw' } limits := by
  have hvalue (t : Json.Tree) (ht : t.IsWritten) (texts : List String) :
      t.filterTexts? = some texts ↔ AreFilterTexts t texts := Json.Tree.filterTexts?_eq_some ht
  have hparse {raw : String} {given : ValueFilters} (h : IsPayload AreFilterTexts raw given) :
      ∃ filters, parseFilters (some raw) = .ok filters ∧ IsLatest given filters :=
    ⟨_, (parseEntries_eq_ok hvalue).mpr ⟨given, h, isLatest_iff.mpr rfl⟩, isLatest_iff.mpr rfl⟩
  refine ⟨exists_parseEntries hvalue, parseEntries_eq_error hvalue, fun given => hparse, ?_⟩
  intro raw' given given' hgiven hgiven' d hsame pattern p limits
  obtain ⟨filters, hfilters, hlatest⟩ := hparse hgiven
  obtain ⟨filters', hfilters', hlatest'⟩ := hparse hgiven'
  refine compile_filters_congr hfilters hfilters' ?_ pattern p limits
  apply Table.filterDemands_congr hlatest.sorted hlatest'.sorted
  intro name values hknown hvalues
  rw [hlatest.mem_iff, hlatest'.mem_iff]
  exact hsame name values hknown hvalues

section Example

def plainFilters : String :=
  "\x7b\"user\":[\"ann\",7,true],\"bogus\":[\"x\"],\"type\":[]\x7d"

def respelledFilters : String :=
  " \x7b \"user\" : [\"bob\"], \"\\u0075ser\" : [\"ann\", 7, true] \x7d "

theorem isPayload_plainFilters :
    IsPayload AreFilterTexts plainFilters
      [("user", ["ann", "7", "true"]), ("bogus", ["x"]), ("type", [])] := by
  have hlexes := Json.wholeTree?_eq_some.mp
    (show Json.wholeTree? (Text.trim plainFilters) = some (.object
      [("user".toList.map .char,
        .array [.text ("ann".toList.map .char), .number ⟨false, ['7'], none, none⟩, .bool true]
          true),
       ("bogus".toList.map .char, .array [.text ("x".toList.map .char)] true),
       ("type".toList.map .char, .array [] true)] true) from rfl)
  have hseven : Json.Numeral.IsInteger64 ⟨false, ['7'], none, none⟩ 7 :=
    ⟨.natural ['7'], by decide, by decide, nofun⟩
  refine .object hlexes (.cons ⟨Json.standFor_map_char _, .array ?_⟩
    (.cons ⟨Json.standFor_map_char _, .array (.cons (.text (Json.standFor_map_char _)) .nil)⟩
      (.cons ⟨Json.standFor_map_char _, .array .nil⟩ .nil)))
  exact .cons (.text (Json.standFor_map_char _)) (.cons (.integer hseven) (.cons (.bool true) .nil))

theorem isPayload_respelledFilters :
    IsPayload AreFilterTexts respelledFilters
      [("user", ["bob"]), ("user", ["ann", "7", "true"])] := by
  have hlexes := Json.wholeTree?_eq_some.mp
    (show Json.wholeTree? (Text.trim respelledFilters) = some (.object
      [("user".toList.map .char, .array [.text ("bob".toList.map .char)] true),
       (.unit 'u'.toNat :: "ser".toList.map .char,
        .array [.text ("ann".toList.map .char), .number ⟨false, ['7'], none, none⟩, .bool true]
          true)] true) from rfl)
  have hseven : Json.Numeral.IsInteger64 ⟨false, ['7'], none, none⟩ 7 :=
    ⟨.natural ['7'], by decide, by decide, nofun⟩
  refine .object hlexes
    (.cons ⟨Json.standFor_map_char _, .array (.cons (.text (Json.standFor_map_char _)) .nil)⟩
      (.cons ⟨.unit 'u' (Json.standFor_map_char _), .array ?_⟩ .nil))
  exact .cons (.text (Json.standFor_map_char _)) (.cons (.integer hseven) (.cons (.bool true) .nil))

theorem sameFilters_respelled :
    SameFilters queryLogTable
      [("user", ["ann", "7", "true"]), ("bogus", ["x"]), ("type", [])]
      [("user", ["bob"]), ("user", ["ann", "7", "true"])] := by
  intro name values hknown hvalues
  have hbogus : name ≠ "bogus" := by
    rintro rfl
    cases hknown
  rw [← Json.mem_sortMembers, ← Json.mem_sortMembers]
  have hplain : Json.sortMembers
      [("user", ["ann", "7", "true"]), ("bogus", ["x"]), ("type", [])] =
        [("bogus", ["x"]), ("type", []), ("user", ["ann", "7", "true"])] := by decide
  have hrespelled : Json.sortMembers [("user", ["bob"]), ("user", ["ann", "7", "true"])] =
      [("user", ["ann", "7", "true"])] := by decide
  rw [hplain, hrespelled]
  simp [hbogus, hvalues]

end Example

theorem parseFilters_exact_respelled :
    (∃ filters, parseFilters (some plainFilters) = .ok filters ∧
      IsLatest [("user", ["ann", "7", "true"]), ("bogus", ["x"]), ("type", [])] filters) ∧
    compile .queryLog .count { filters := some plainFilters } {} =
      compile .queryLog .count { filters := some respelledFilters } {} ∧
    parseFilters (some "\x7b\"user\":[null]\x7d") = .error (.invalid .malformedFilters) := by
  refine ⟨(parseFilters_exact plainFilters).2.2.1 _ isPayload_plainFilters,
    (parseFilters_exact plainFilters).2.2.2 _ _ _ isPayload_plainFilters
      isPayload_respelledFilters .queryLog sameFilters_respelled .count {} {}, ?_⟩
  refine (parseFilters_exact _).2.1 fun hgiven => ?_
  obtain ⟨filters, hfilters⟩ := (parseFilters_exact _).1.mpr hgiven
  have hrefused : parseFilters (some "\x7b\"user\":[null]\x7d") =
      .error (.invalid .malformedFilters) := by decide +kernel
  rw [hrefused] at hfilters
  cases hfilters

/-- Minus zero is written as an integer but is read as a double, whose text has a point. -/
theorem parseFilters_minusZero :
    Json.Numeral.IsInteger ⟨true, ['0'], none, none⟩ 0 ∧
    Json.Lexes (Json.Tree.object [("user".toList.map .char,
        .array [.number ⟨true, ['0'], none, none⟩] true)] true).tokens
      "\x7b\"user\":[-0]\x7d".toList ∧
    parseFilters (some "\x7b\"user\":[-0]\x7d") = .ok [("user", ["-0.0"])] ∧
    "-0.0" ≠ toString (0 : Int) ∧ "-0.0" ≠ "-0" :=
  ⟨.negative ['0'], Json.wholeTree?_eq_some.mp rfl, by decide +kernel, by decide, by decide⟩

end QueryConsole
