import QueryConsole.Proofs.Bindings.Names
import QueryConsole.Proofs.Dataset.Columns
import QueryConsole.Proofs.Request.Entries
import QueryConsole.Statement.Compile

namespace QueryConsole

open Bindings (Step)

namespace Demand

def step (d : Demand) : Step :=
  match d with
  | .notBefore .. => .named "start" d.value
  | .notAfter .. => .named "end" d.value
  | .mentions .. => .named "search" d.value
  | .oneOf .. => .positional "filter" d.value
  | .atLeast .. => .positional "range" d.value
  | .atMost .. => .positional "range" d.value

def placeholder (position : Nat) (d : Demand) : Placeholder :=
  (d.step.binding position).placeholder

theorem value_step (d : Demand) : d.step.value = d.value := by
  cases d <;> rfl

theorem bind_eq (d : Demand) (b : Bindings) :
    d.bind b = (b.push (d.step.binding b.size), d.placeholder b.size) := by
  cases d <;> rfl

theorem bindAll_eq (b : Bindings) (ds : List Demand) :
    bindAll b ds =
      (b.run (ds.map step),
        ds.mapIdx fun i d => d.condition (d.placeholder (b.size + i))) := by
  induction ds generalizing b with
  | nil => rfl
  | cons d ds ih =>
    simp only [bindAll, bind_eq, ih, List.map_cons, Bindings.run_cons, Bindings.size_push,
      List.mapIdx_cons]
    simp [Nat.add_assoc, Nat.add_comm 1]

theorem not_isPositional_ownName {d : Demand} {name : String}
    (h : d.step.ownName? = some name) : ¬ Bindings.IsPositional name := by
  cases d <;> cases h <;> exact Bindings.not_isPositional (by decide)

theorem isWord_name (position : Nat) (d : Demand) : Text.IsWord (d.placeholder position).name := by
  have hpositional (stem : String) (hstem : Text.IsWord stem) :
      Text.IsWord (Bindings.positionalName stem position) := by
    rw [Bindings.positionalName, String.append_assoc]
    apply hstem.append
    rw [String.toList_append, List.all_append, Nat.toString_eq_repr, Nat.toList_repr]
    rw [Bool.and_eq_true]
    refine ⟨by decide, ?_⟩
    rw [List.all_eq_true]
    intro c hc
    have hdigit := Nat.isDigit_of_mem_toDigits (by decide) (by decide) hc
    simp [Text.isWordChar, Char.isAlphanum, hdigit]
  cases d with
  | notBefore => exact (by decide : Text.IsWord "start")
  | notAfter => exact (by decide : Text.IsWord "end")
  | mentions => exact (by decide : Text.IsWord "search")
  | oneOf => exact hpositional "filter" (by decide)
  | atLeast => exact hpositional "range" (by decide)
  | atMost => exact hpositional "range" (by decide)

end Demand

namespace Table

theorem scope_conditions (t : Table) (r : RowFilter) :
    (t.scope r).conditions =
      (t.demands r).mapIdx fun i d => d.condition (d.placeholder i) := by
  simp [scope, Demand.bindAll_eq, Bindings.size]

theorem scope_bindings (t : Table) (r : RowFilter) :
    (t.scope r).bindings = Bindings.run ∅ ((t.demands r).map Demand.step) := by
  simp [scope, Demand.bindAll_eq]

@[simp] theorem scope_table (t : Table) (r : RowFilter) : (t.scope r).table = t.name := by
  simp [scope]

variable {t : Table} {d : Demand}

theorem mem_windowDemands {w : Calendar.Window} :
    d ∈ t.windowDemands w ↔ ∃ column, t.timeColumn = some column ∧
      ((∃ i, w.start = some i ∧ .notBefore column i = d) ∨
        ∃ i, w.effectiveEnd = some i ∧ .notAfter column i = d) := by
  rw [windowDemands]
  cases t.timeColumn <;> simp

theorem mem_searchDemands {search : Option String} :
    d ∈ t.searchDemands search ↔
      ∃ term, search = some term ∧ t.searchColumns ≠ [] ∧
        d = .mentions t.searchColumns term := by
  cases search <;> simp [searchDemands]

theorem mem_filterDemands {filters : ValueFilters} :
    d ∈ t.filterDemands filters ↔
      ∃ name values field, (name, values) ∈ filters ∧ t.field? name = some field ∧
        values ≠ [] ∧ d = .oneOf field values := by
  rw [filterDemands, List.mem_filterMap]
  constructor
  · rintro ⟨⟨name, values⟩, hmem, hd⟩
    simp only at hd
    split at hd
    · cases hd
    · next field hfield =>
      split at hd
      · cases hd
      · next hvalues =>
        cases hd
        exact ⟨name, values, field, hmem, hfield, by simpa using hvalues, rfl⟩
  · rintro ⟨name, values, field, hmem, hfield, hvalues, rfl⟩
    exact ⟨(name, values), hmem, by simp [hfield, hvalues]⟩

theorem mem_rangeDemands {ranges : RangeFilters} :
    d ∈ t.rangeDemands ranges ↔
      ∃ column bounds, (column, bounds) ∈ ranges ∧
        (Text.isIdentifier column && t.acceptsRange column) = true ∧
        ((∃ n, bounds.least = some n ∧ .atLeast column n = d) ∨
          ∃ n, bounds.greatest = some n ∧ .atMost column n = d) := by
  rw [rangeDemands, List.mem_flatMap]
  constructor
  · rintro ⟨⟨column, bounds⟩, hmem, hd⟩
    simp only at hd
    split at hd
    · next haccepts => exact ⟨column, bounds, hmem, haccepts, by simpa using hd⟩
    · cases hd
  · rintro ⟨column, bounds, hmem, haccepts, hd⟩
    exact ⟨(column, bounds), hmem, by simpa [haccepts] using hd⟩

theorem mem_demands {r : RowFilter} :
    d ∈ t.demands r ↔
      d ∈ t.windowDemands r.window ∨ d ∈ t.searchDemands r.search ∨
        d ∈ t.filterDemands r.filters ∨ d ∈ t.rangeDemands r.ranges := by
  simp [demands]

variable (t : Table)

theorem ownNames_demands (r : RowFilter) :
    (((t.demands r).map Demand.step).filterMap Step.ownName?).Sublist
      ["start", "end", "search"] := by
  have hwindow : (((t.windowDemands r.window).map Demand.step).filterMap Step.ownName?).Sublist
      ["start", "end"] := by
    rw [windowDemands]
    cases t.timeColumn with
    | none => simp
    | some column =>
      cases r.window.start <;> cases r.window.effectiveEnd <;>
        simp [Demand.step, Step.ownName?]
  have hsearch : (((t.searchDemands r.search).map Demand.step).filterMap Step.ownName?).Sublist
      ["search"] := by
    cases r.search with
    | none => simp [searchDemands]
    | some term =>
      rw [searchDemands]
      split <;> simp [Demand.step, Step.ownName?]
  have hfilters : ((t.filterDemands r.filters).map Demand.step).filterMap Step.ownName? = [] := by
    rw [List.filterMap_map, List.filterMap_eq_nil_iff]
    intro d hd
    obtain ⟨-, -, -, -, -, -, rfl⟩ := mem_filterDemands.mp hd
    rfl
  have hranges : ((t.rangeDemands r.ranges).map Demand.step).filterMap Step.ownName? = [] := by
    rw [List.filterMap_map, List.filterMap_eq_nil_iff]
    intro d hd
    obtain ⟨-, -, -, -, ⟨-, -, rfl⟩ | ⟨-, -, rfl⟩⟩ := mem_rangeDemands.mp hd <;> rfl
  rw [demands, List.map_append, List.map_append, List.map_append, List.filterMap_append,
    List.filterMap_append, List.filterMap_append, hfilters, hranges, List.append_nil,
    List.append_nil]
  exact hwindow.append hsearch

end Table

def pageClause : PageClause :=
  ⟨⟨"limit", .uint64⟩, ⟨"offset", .uint64⟩⟩

namespace Page

def steps (page : Page) : List Step :=
  [.named "limit" (.uint64 page.limit), .named "offset" (.uint64 page.offset)]

end Page

namespace Scope

theorem statement_text (s : Scope) (shape : Shape) (page : Option Page) :
    (s.statement shape page).text = (s.select shape (page.map fun _ => pageClause)).text := by
  cases page <;> rfl

theorem statement_bindings (s : Scope) (shape : Shape) (page : Option Page) :
    (s.statement shape page).bindings = s.bindings.run (page.toList.flatMap Page.steps) := by
  cases page <;> rfl

end Scope

def statementSteps (ds : List Demand) (page : Option Page) : List Step :=
  ds.map Demand.step ++ page.toList.flatMap Page.steps

theorem compile_eq_ok {d : Dataset} {pattern : ReadPattern} {p : Parameters} {limits : Limits}
    {s : Statement} (h : compile d pattern p limits = .ok s) :
    ∃ rows page shape, p.rowFilter = .ok rows ∧ pattern.page p limits = .ok page ∧
      d.shape pattern p = .ok shape ∧ s = (d.table.scope rows).statement shape page := by
  simp only [compile, bind_eq_ok] at h
  obtain ⟨rows, hrows, page, hpage, shape, hshape, ⟨⟩⟩ := h
  exact ⟨rows, page, shape, hrows, hpage, hshape, rfl⟩

theorem bindings_statement (t : Table) (rows : RowFilter) (shape : Shape) (page : Option Page) :
    ((t.scope rows).statement shape page).bindings =
      Bindings.run ∅ (statementSteps (t.demands rows) page) := by
  rw [Scope.statement_bindings, Table.scope_bindings, statementSteps, Bindings.run_append]

theorem map_placeholder_bindings (t : Table) (rows : RowFilter) (shape : Shape)
    (page : Option Page) :
    ((t.scope rows).statement shape page).bindings.toList.map Binding.placeholder =
      ((t.demands rows).mapIdx fun i d => d.placeholder i) ++
        page.toList.flatMap fun _ => [pageClause.limit, pageClause.offset] := by
  rw [bindings_statement, Bindings.toList_run_empty, map_mapIdx, statementSteps,
    List.mapIdx_append]
  congr 1
  · apply List.ext_getElem
    · simp
    · intro i h h'
      simp only [List.getElem_mapIdx, List.getElem_map]
      rfl
  · cases page <;> rfl

theorem nodup_names_statement (t : Table) (rows : RowFilter) (shape : Shape)
    (page : Option Page) :
    (((t.scope rows).statement shape page).bindings.toList.map Binding.name).Nodup := by
  rw [bindings_statement]
  have hpage : ((page.toList.flatMap Page.steps).filterMap Step.ownName?).Sublist
      ["limit", "offset"] := by
    cases page <;> simp [Page.steps, Step.ownName?]
  apply Bindings.nodup_names_run
  · rw [statementSteps, List.filterMap_append]
    exact List.Nodup.sublist ((t.ownNames_demands rows).append hpage) (by decide)
  · intro s hs name hname
    cases List.mem_append.mp hs with
    | inl hs =>
      obtain ⟨d, -, rfl⟩ := List.mem_map.mp hs
      exact d.not_isPositional_ownName hname
    | inr hs =>
      have hmem := hpage.subset (List.mem_filterMap.mpr ⟨s, hs, hname⟩)
      simp only [List.mem_cons, List.not_mem_nil, or_false] at hmem
      cases hmem with
      | inl h => exact h ▸ Bindings.not_isPositional (by decide)
      | inr h => exact h ▸ Bindings.not_isPositional (by decide)

section Steps

variable {t : Table} {rows : RowFilter} {shape : Shape} {page : Option Page}

theorem exists_step_of_mem {b : Binding}
    (h : b ∈ ((t.scope rows).statement shape page).bindings.toList) :
    ∃ i, ∃ s ∈ statementSteps (t.demands rows) page, b = s.binding i := by
  rw [bindings_statement, Bindings.toList_run_empty] at h
  obtain ⟨i, hi, rfl⟩ := List.mem_mapIdx.mp h
  exact ⟨i, _, List.getElem_mem hi, rfl⟩

theorem get?_named {name : String} {v : Value}
    (h : .named name v ∈ statementSteps (t.demands rows) page) :
    ((t.scope rows).statement shape page).bindings.get? name = some v := by
  obtain ⟨i, hi, hstep⟩ := List.getElem_of_mem h
  have hmem : ⟨name, v⟩ ∈ ((t.scope rows).statement shape page).bindings.toList := by
    rw [bindings_statement, Bindings.toList_run_empty]
    exact List.mem_mapIdx.mpr ⟨i, hi, by rw [hstep]; rfl⟩
  exact Bindings.get?_of_mem (nodup_names_statement t rows shape page) hmem

theorem get?_demand {d : Demand} {name : String} (h : d ∈ t.demands rows)
    (hstep : d.step = .named name d.value) :
    ((t.scope rows).statement shape page).bindings.get? name = some d.value := by
  apply get?_named
  rw [statementSteps, ← hstep]
  exact List.mem_append_left _ (List.mem_map_of_mem h)

end Steps

end QueryConsole
