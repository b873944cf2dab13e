import QueryConsole.Proofs.Http.Views
import QueryConsole.Proofs.Json.Payload
import QueryConsole.Proofs.Json.Printer
import QueryConsole.Proofs.Statement.Decoding
import QueryConsole.Proofs.Statement.Demands
import QueryConsole.Proofs.Store.Endpoint
import Mathlib.Data.List.Permutation

/-! A search term and value filters on their way to the store.  Whatever characters they hold, and
however the client writes them, the store reads the term and the lists that the client meant. -/

namespace QueryConsole

/-- Fields that the table knows, in the order of their bytes, each with the values it may have. -/
structure Table.IsSelection (t : Table) (selection : ValueFilters) : Prop where
  known : ∀ entry ∈ selection, t.field? entry.1 ≠ none
  nonempty : ∀ entry ∈ selection, entry.2 ≠ []
  ordered : selection.Pairwise fun a b =>
    Text.Utf8.encode a.1.toList < Text.Utf8.encode b.1.toList

namespace Table.IsSelection

variable {t : Table} {selection : ValueFilters}

theorem keysSorted (h : t.IsSelection selection) : KeysSorted selection :=
  List.pairwise_map.mpr (h.ordered.imp Text.Utf8.encode_lt_encode_iff.mp)

theorem map_step (h : t.IsSelection selection) :
    (t.filterDemands selection).map Demand.step =
      selection.map fun entry => .positional "filter" (.textArray entry.2) := by
  obtain ⟨hknown, hnonempty, -⟩ := h
  induction selection with
  | nil => rfl
  | cons entry selection ih =>
    rw [List.forall_mem_cons] at hknown hnonempty
    obtain ⟨field, hfield⟩ := Option.ne_none_iff_exists'.mp hknown.1
    have hvalues : entry.2.isEmpty = false := by simpa using hnonempty.1
    have hfirst : t.filterDemands (entry :: selection) =
        .oneOf field entry.2 :: t.filterDemands selection := by
      simp only [filterDemands, List.filterMap_cons, hfield, hvalues, Bool.false_eq_true, if_false]
    rw [hfirst, List.map_cons, List.map_cons, ih hknown.2 hnonempty.2]
    rfl

end Table.IsSelection

def selectedRows (term : String) (selection : ValueFilters) : RowFilter where
  window := ⟨none, none⟩
  search := some term
  filters := selection
  ranges := []

section Bindings

variable {d : Dataset} {term : String} {selection : ValueFilters}

theorem steps_selectedRows (h : d.table.IsSelection selection) :
    (d.table.demands (selectedRows term selection)).map Demand.step =
      .named "search" (.text term) ::
        selection.map fun entry => .positional "filter" (.textArray entry.2) := by
  have hwindow : d.table.windowDemands ⟨none, none⟩ = [] := by
    rw [Table.windowDemands]
    cases d.table.timeColumn <;> rfl
  have hsearch : d.table.searchDemands (some term) = [.mentions d.table.searchColumns term] := by
    have hcolumns : d.table.searchColumns.isEmpty = false := by
      simpa using d.searchColumns_ne_nil
    simp [Table.searchDemands, hcolumns]
  have hranges : d.table.rangeDemands [] = [] := rfl
  rw [Table.demands, selectedRows, hwindow, hsearch, hranges, List.nil_append, List.append_nil,
    List.map_append, h.map_step]
  rfl

theorem bindings_selectedRows (h : d.table.IsSelection selection) (shape : Shape) (page : Page) :
    ((d.table.scope (selectedRows term selection)).statement shape (some page)).bindings.toList =
      ⟨"search", .text term⟩ ::
        ((selection.mapIdx fun i entry =>
          ⟨Bindings.positionalName "filter" (i + 1), .textArray entry.2⟩) ++
        [⟨"limit", .uint64 page.limit⟩, ⟨"offset", .uint64 page.offset⟩]) := by
  have hfilters : (selection.map fun entry =>
        Bindings.Step.positional "filter" (.textArray entry.2)).mapIdx
          (fun i step => step.binding (i + 1)) =
      selection.mapIdx fun i entry =>
        ⟨Bindings.positionalName "filter" (i + 1), .textArray entry.2⟩ := by
    apply List.ext_getElem
    · simp
    · intros
      simp only [List.getElem_mapIdx, List.getElem_map]
      rfl
  rw [bindings_statement, Bindings.toList_run_empty, statementSteps, steps_selectedRows h,
    List.cons_append, List.mapIdx_cons, List.mapIdx_append, hfilters]
  rfl

end Bindings

section Parameters

variable {term payload : String} {pairs : List (String × String)} {p : Parameters}

theorem queryParameters_selection (h : pairs.Perm [("search", term), ("filters", payload)]) :
    Http.queryParameters pairs = .ok { search := some term, filters := some payload } := by
  obtain rfl | rfl := List.perm_pair.mp h
  · rfl
  · rfl

theorem compile_selection {d : Dataset} {limits : Limits} {selection : ValueFilters}
    (hterm : Text.given (some term) = some term)
    (hpayload : parseFilters (some payload) = .ok selection) :
    compile d .list { search := some term, filters := some payload } limits =
      .ok ((d.table.scope (selectedRows term selection)).statement
        (d.listShape { search := some term, filters := some payload })
        (some ⟨limits.clamp none, 0⟩)) := by
  have hrows : ({ search := some term, filters := some payload } : Parameters).rowFilter =
      .ok (selectedRows term selection) :=
    Parameters.rowFilter_eq_ok.mpr ⟨rfl, rfl, hterm.symm, hpayload, rfl⟩
  simp only [compile, hrows, bind, Except.bind]
  rfl

end Parameters

def Store.Endpoint.requests (e : Endpoint) (calls : List Call) : List Http.Request :=
  calls.filterMap e.request?

namespace Http

open Store (Endpoint Reply)

def Server.atStore (e : Endpoint) (respond : Request → Reply) (limits : Limits) : Server :=
  ⟨⟨e.storage respond, limits⟩, none⟩

theorem route_list (d : Dataset) :
    Route.ofSegments? ["", "api", d.name] = some (.view (.rows d.name .list)) ∧
      (View.rows d.name .list).decode? = some (.rows d.name .list) := by
  cases d <;> decide

theorem segments_list {r : Request} {d : Dataset} (h : r.path = "/api/" ++ d.name) :
    r.segments = ["", "api", d.name] := by
  refine Request.segments_of_path ?_ (List.cons_ne_nil _ _) ?_
  · rw [h]
    cases d <;> decide
  · cases d <;> decide

theorem Server.calls_selection {s : Server} {d : Dataset} {r : Request}
    {term payload : String} {selection : ValueFilters} {pairs : List (String × String)}
    (hkey : s.apiKey = none) (hmethod : r.method = "GET") (hpath : r.path = "/api/" ++ d.name)
    (hquery : Form.IsQuery pairs r.query)
    (hpairs : pairs.Perm [("search", term), ("filters", payload)])
    (hterm : Text.given (some term) = some term)
    (hpayload : parseFilters (some payload) = .ok selection) :
    ∃ shape page, (s.handle r).calls =
      [.rows ((d.table.scope (selectedRows term selection)).statement shape (some page))] := by
  obtain ⟨hroute, hdecode⟩ := route_list d
  rw [← segments_list hpath] at hroute
  refine ⟨d.listShape { search := some term, filters := some payload },
    ⟨s.engine.limits.clamp none, 0⟩, ?_⟩
  rw [handle_view hkey hmethod hroute, serve, hdecode, Form.decode_isQuery hquery]
  simp only [read, queryParameters_selection hpairs, Exchange.reading_ok, Dataset.ofName,
    Dataset.ofName?_name, Outcome.after_ok, Exchange.calls_ofOutcome, Engine.read,
    compile_selection hterm hpayload, Outcome.callRows]

section Pairs

def filterPairs (selection : ValueFilters) : List (String × String) :=
  selection.mapIdx fun i entry =>
    ("param_filter_" ++ toString (i + 1), (Value.textArray entry.2).encode)

def isFilterPair (pair : String × String) : Bool :=
  "param_filter_".toList.isPrefixOf pair.1.toList

theorem isFilterPair_of_mem {selection : ValueFilters} {pair : String × String}
    (h : pair ∈ filterPairs selection) : isFilterPair pair = true := by
  obtain ⟨i, _, rfl⟩ := List.mem_mapIdx.mp h
  rw [isFilterPair, List.isPrefixOf_iff_prefix, String.toList_append]
  exact List.prefix_append _ _

theorem map_parameterPair_filters (selection : ValueFilters) :
    (selection.mapIdx fun i entry =>
        Binding.mk (Bindings.positionalName "filter" (i + 1)) (.textArray entry.2)).map
      Endpoint.parameterPair = filterPairs selection := by
  have hname (position : Nat) : "param_" ++ Bindings.positionalName "filter" position =
      "param_filter_" ++ toString position := by
    simp [Bindings.positionalName, ← String.toList_inj]
  simp only [map_mapIdx, Endpoint.parameterPair, hname, filterPairs]

def selectionPairs (e : Endpoint) (term : String) (selection : ValueFilters) (page : Page) :
    List (String × String) :=
  ("database", e.database) :: ("default_format", Adhoc.outputFormat) ::
    ("param_search", escapeText term) :: (filterPairs selection ++
      [("param_limit", toString page.limit.toNat), ("param_offset", toString page.offset.toNat)])

variable {e : Endpoint} {term : String} {selection : ValueFilters} {page : Page}

theorem filter_search : (selectionPairs e term selection page).filter
      (fun pair => pair.1 == "param_search") = [("param_search", escapeText term)] := by
  have hnone : (filterPairs selection).filter (fun pair => pair.1 == "param_search") = [] := by
    rw [List.filter_eq_nil_iff]
    intro pair hpair hname
    have hprefix := isFilterPair_of_mem hpair
    rw [isFilterPair, beq_iff_eq.mp hname] at hprefix
    exact absurd hprefix (by decide)
  simp [selectionPairs, hnone]

theorem filter_isFilterPair :
    (selectionPairs e term selection page).filter isFilterPair = filterPairs selection := by
  have hall : (filterPairs selection).filter isFilterPair = filterPairs selection :=
    List.filter_eq_self.mpr fun pair hpair => isFilterPair_of_mem hpair
  have hothers : ∀ name ∈ ["database", "default_format", "param_search", "param_limit",
      "param_offset"], "param_filter_".toList.isPrefixOf name.toList = false := by
    decide
  have hother (name : String) (hname : name ∈ ["database", "default_format", "param_search",
      "param_limit", "param_offset"]) (value : String) : isFilterPair (name, value) = false :=
    hothers name hname
  simp [selectionPairs, hother, hall]

theorem decode_selection {d : Dataset} {shape : Shape} {sent : Request}
    (h : d.table.IsSelection selection) (hsent : e.Sends
      (.rows ((d.table.scope (selectedRows term selection)).statement shape (some page)))
      Adhoc.outputFormat sent) :
    Form.decode sent.query = selectionPairs e term selection page := by
  rw [hsent.query, Call.statement, bindings_selectedRows h, List.map_cons,
    List.map_append]
  exact congrArg _ (congrArg _ (congrArg _ (congrArg (· ++ _)
    (map_parameterPair_filters selection))))

end Pairs

/-- The term and the lists reach the store unchanged.  One request is sent, in which the search term
is written once and the lists one by one in the order of their fields' bytes. -/
theorem Server.handle_delivers {e : Endpoint} {respond : Request → Reply} {limits : Limits}
    {d : Dataset} {r : Request} {term payload : String} {selection members : ValueFilters}
    {pairs : List (String × String)} (hplain : e.IsPlain)
    (hcredentials : e.HasSendableCredentials) (hmethod : r.method = "GET")
    (hpath : r.path = "/api/" ++ d.name) (hquery : Form.IsQuery pairs r.query)
    (hpairs : pairs.Perm [("search", term), ("filters", payload)])
    (hblank : Text.isBlankText term = false) (htrim : Text.trim term = term)
    (hselection : d.table.IsSelection selection) (hmembers : members.Perm selection)
    (hpayload : Json.IsObjectText members payload) :
    ∃ sent, e.requests ((atStore e respond limits).handle r).calls = [sent] ∧
      (∃ encoded, (Form.decode sent.query).filter (fun pair => pair.1 == "param_search") =
        [("param_search", encoded)] ∧ unescapeText? encoded = some term) ∧
      ((Form.decode sent.query).filter fun pair =>
          "param_filter_".toList.isPrefixOf pair.1.toList).map
        (fun pair => (pair.1, arrayItems? pair.2)) =
      selection.mapIdx fun i entry => ("param_filter_" ++ toString (i + 1), some entry.2) := by
  have hterm : Text.given (some term) = some term := by
    simp only [Text.given, hblank, htrim, Bool.false_eq_true, if_false]
  obtain ⟨shape, page, hcalls⟩ := Server.calls_selection (s := atStore e respond limits) rfl
    hmethod hpath hquery hpairs hterm
    (Json.parseFilters_isObjectText hpayload hmembers hselection.keysSorted)
  obtain ⟨sent, hsent⟩ := Endpoint.sends_of_isPlain hplain hcredentials
    (.rows ((d.table.scope (selectedRows term selection)).statement shape (some page)))
  have hdecode := decode_selection hselection hsent
  refine ⟨sent, ?_, ⟨escapeText term, ?_, unescapeText?_escapeText term⟩, ?_⟩
  · rw [hcalls, Endpoint.requests, List.filterMap_cons_some hsent.request, List.filterMap_nil]
  · rw [hdecode]
    exact filter_search
  · change ((Form.decode sent.query).filter isFilterPair).map _ = _
    rw [hdecode, filter_isFilterPair, filterPairs, map_mapIdx]
    simp only [arrayItems?_encode]

def markedSelection : ValueFilters :=
  [("type", ["a,b'", "]\\"]), ("user", ["50% +x&y=z", "", "\u00fc\n\t\"#"])]

def markedTerm : String := "it's \x7b100%\x7d \\ a+b&c=d"

def markedPayload : String := (Json.ofTextLists markedSelection.reverse).render

def markedRead : Request :=
  ⟨"GET", "/api/query_log" ++ "?" ++
    Form.encode [("filters", markedPayload), ("search", markedTerm)], [], []⟩

theorem handle_delivers_markedRead :
    ∃ sent, Endpoint.marked.requests ((Server.atStore .marked (fun _ => ⟨200, []⟩) {}).handle
        markedRead).calls = [sent] ∧
      (∃ encoded, (Form.decode sent.query).filter (fun pair => pair.1 == "param_search") =
        [("param_search", encoded)] ∧ unescapeText? encoded = some markedTerm) ∧
      ((Form.decode sent.query).filter fun pair =>
          "param_filter_".toList.isPrefixOf pair.1.toList).map
        (fun pair => (pair.1, arrayItems? pair.2)) =
      [("param_filter_1", some ["a,b'", "]\\"]),
       ("param_filter_2", some ["50% +x&y=z", "", "\u00fc\n\t\"#"])] := by
  have htarget := Request.path_query_of_target (r := markedRead) rfl (by decide) (by decide)
    (Form.hash_notMem_encode _)
  have hselection : Dataset.queryLog.table.IsSelection markedSelection :=
    ⟨by decide, by decide, by decide⟩
  exact Server.handle_delivers Endpoint.isPlain_marked Endpoint.hasSendableCredentials_marked rfl
    htarget.1 (htarget.2 ▸ Form.isQuery_encode _) (.swap _ _ _) (by decide) (by decide) hselection
    (List.reverse_perm _) (Json.isObjectText_render _)

end Http

end QueryConsole
