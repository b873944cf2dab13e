import Mathlib.Data.List.Sort
import QueryConsole.Proofs.Request.Entries
import QueryConsole.Proofs.Statement.Fragments
import QueryConsole.Proofs.Statement.Demands

namespace QueryConsole

open Bindings (Step)

namespace Demand

def blank : Demand → Demand
  | .notBefore column _ => .notBefore column ⟨0, 0⟩
  | .notAfter column _ => .notAfter column ⟨0, 0⟩
  | .mentions columns _ => .mentions columns ""
  | .oneOf field _ => .oneOf field []
  | .atLeast column _ => .atLeast column 0
  | .atMost column _ => .atMost column 0

theorem condition_blank (d : Demand) (p : Placeholder) : d.blank.condition p = d.condition p := by
  cases d with
  | oneOf field values =>
    obtain ⟨name, kind⟩ := field
    cases kind <;> rfl
  | _ => rfl

theorem placeholder_blank (d : Demand) (position : Nat) :
    d.blank.placeholder position = d.placeholder position := by
  cases d <;>
    simp only [blank, placeholder, step, value, Step.binding, Step.value, Step.name,
      Binding.placeholder, Value.type]

def key : Demand → String
  | .oneOf field _ => field.name
  | .atLeast column _ => column
  | .atMost column _ => column
  | _ => ""

def isUpper : Demand → Bool
  | .atMost .. => true
  | _ => false

def Precedes (d e : Demand) : Prop :=
  d.key < e.key ∨ d.key = e.key ∧ d.isUpper = false ∧ e.isUpper = true

theorem not_precedes_self (d : Demand) : ¬ d.Precedes d := by
  rintro (h | ⟨-, h, h'⟩)
  · exact String.lt_irrefl _ h
  · rw [h] at h'
    cases h'

theorem Precedes.not_precedes {d e : Demand} (h : d.Precedes e) : ¬ e.Precedes d := by
  rintro (h' | ⟨heq, hlow, hup⟩)
  · cases h with
    | inl h => exact String.lt_asymm h h'
    | inr h => exact String.lt_irrefl _ (h.1 ▸ h')
  · cases h with
    | inl h => exact String.lt_irrefl _ (heq ▸ h)
    | inr h =>
      rw [h.2.1] at hup
      cases hup

instance : Std.Irrefl Precedes := ⟨not_precedes_self⟩

instance : Std.Antisymm Precedes := ⟨fun _ _ h h' => absurd h' h.not_precedes⟩

end Demand

namespace Table

variable {t : Table}

theorem name_of_field?_eq_some {name : String} {f : Field} (h : t.field? name = some f) :
    f.name = name := by
  obtain ⟨rfl, -⟩ | ⟨rfl, -⟩ := mem_of_field?_eq_some h
  · rfl
  · rfl

theorem key_of_mem_filterDemands {entry : String × List String} {d : Demand}
    (h : d ∈ t.filterDemands [entry]) : d.blank.key = entry.1 := by
  obtain ⟨name, values, field, hmem, hfield, -, rfl⟩ := mem_filterDemands.mp h
  cases List.mem_singleton.mp hmem
  exact name_of_field?_eq_some hfield

theorem pairwise_filterDemands {filters : ValueFilters} (h : KeysSorted filters) :
    ((t.filterDemands filters).map Demand.blank).Pairwise Demand.Precedes := by
  rw [KeysSorted, List.pairwise_map] at h
  rw [List.pairwise_map, filterDemands, List.pairwise_filterMap]
  apply h.imp
  intro entry entry' hlt d hd e he
  have hkey : d.blank.key = entry.1 := key_of_mem_filterDemands
    (List.mem_filterMap.mpr ⟨entry, List.mem_singleton_self entry, hd⟩)
  have hkey' : e.blank.key = entry'.1 := key_of_mem_filterDemands
    (List.mem_filterMap.mpr ⟨entry', List.mem_singleton_self entry', he⟩)
  left
  rw [hkey, hkey']
  exact hlt

theorem pairwise_rangeDemands {ranges : RangeFilters} (h : KeysSorted ranges) :
    ((t.rangeDemands ranges).map Demand.blank).Pairwise Demand.Precedes := by
  rw [KeysSorted, List.pairwise_map] at h
  rw [List.pairwise_map, rangeDemands, List.pairwise_flatMap]
  constructor
  · rintro ⟨column, bounds⟩ -
    simp only
    split
    · cases bounds.least <;> cases bounds.greatest <;>
        simp [Demand.Precedes, Demand.blank, Demand.key, Demand.isUpper]
    · exact List.Pairwise.nil
  · apply h.imp
    rintro ⟨column, bounds⟩ ⟨column', bounds'⟩ hlt d hd e he
    have hkey {column : String} {bounds : Bounds} {d : Demand}
        (hd : d ∈ (bounds.least.map (Demand.atLeast column)).toList ++
          (bounds.greatest.map (Demand.atMost column)).toList) : d.blank.key = column := by
      rw [List.mem_append, Option.mem_toList, Option.mem_toList, Option.map_eq_some_iff,
        Option.map_eq_some_iff] at hd
      obtain ⟨n, -, rfl⟩ | ⟨n, -, rfl⟩ := hd
      · rfl
      · rfl
    simp only at hd he
    split at hd
    · split at he
      · left
        rw [hkey hd, hkey he]
        exact hlt
      · cases he
    · cases hd

end Table

def ListsValues (filters : ValueFilters) (name : String) : Prop :=
  ∃ values, (name, values) ∈ filters ∧ values ≠ []

def HasLeast (ranges : RangeFilters) (column : String) : Prop :=
  ∃ bounds n, (column, bounds) ∈ ranges ∧ bounds.least = some n

def HasGreatest (ranges : RangeFilters) (column : String) : Prop :=
  ∃ bounds n, (column, bounds) ∈ ranges ∧ bounds.greatest = some n

namespace Table

variable {t : Table}

theorem map_blank_windowDemands {w w' : Calendar.Window} (hstart : w.start.isSome = w'.start.isSome)
    (hfinish : w.finish.isSome = w'.finish.isSome) :
    (t.windowDemands w).map Demand.blank = (t.windowDemands w').map Demand.blank := by
  have hend : w.effectiveEnd.isSome = w'.effectiveEnd.isSome := by
    rw [w.isSome_effectiveEnd, w'.isSome_effectiveEnd, hfinish]
  rw [windowDemands, windowDemands]
  cases t.timeColumn with
  | none => rfl
  | some column =>
    revert hstart hend
    cases w.start <;> cases w'.start <;> cases w.effectiveEnd <;> cases w'.effectiveEnd <;>
      simp [Demand.blank]

theorem map_blank_searchDemands {search search' : Option String}
    (h : search.isSome = search'.isSome) :
    (t.searchDemands search).map Demand.blank = (t.searchDemands search').map Demand.blank := by
  cases search with
  | none =>
    cases search' with
    | none => rfl
    | some term' => cases h
  | some term =>
    cases search' with
    | none => cases h
    | some term' =>
      rw [searchDemands, searchDemands]
      split <;> rfl

theorem mem_map_blank_filterDemands {filters : ValueFilters} {e : Demand} :
    e ∈ (t.filterDemands filters).map Demand.blank ↔
      ∃ name field, t.field? name = some field ∧ ListsValues filters name ∧
        e = .oneOf field [] := by
  rw [List.mem_map]
  constructor
  · rintro ⟨d, hd, rfl⟩
    obtain ⟨name, values, field, hmem, hfield, hvalues, rfl⟩ := mem_filterDemands.mp hd
    exact ⟨name, field, hfield, ⟨values, hmem, hvalues⟩, rfl⟩
  · rintro ⟨name, field, hfield, ⟨values, hmem, hvalues⟩, rfl⟩
    exact ⟨_, mem_filterDemands.mpr ⟨name, values, field, hmem, hfield, hvalues, rfl⟩, rfl⟩

theorem mem_map_blank_rangeDemands {ranges : RangeFilters} {e : Demand} :
    e ∈ (t.rangeDemands ranges).map Demand.blank ↔
      ∃ column, (Text.isIdentifier column && t.acceptsRange column) = true ∧
        (HasLeast ranges column ∧ e = .atLeast column 0 ∨
          HasGreatest ranges column ∧ e = .atMost column 0) := by
  rw [List.mem_map]
  constructor
  · rintro ⟨d, hd, rfl⟩
    obtain ⟨column, bounds, hmem, haccepts, ⟨n, hn, rfl⟩ | ⟨n, hn, rfl⟩⟩ := mem_rangeDemands.mp hd
    · exact ⟨column, haccepts, .inl ⟨⟨bounds, n, hmem, hn⟩, rfl⟩⟩
    · exact ⟨column, haccepts, .inr ⟨⟨bounds, n, hmem, hn⟩, rfl⟩⟩
  · rintro ⟨column, haccepts, ⟨⟨bounds, n, hmem, hn⟩, rfl⟩ | ⟨⟨bounds, n, hmem, hn⟩, rfl⟩⟩
    · exact ⟨.atLeast column n,
        mem_rangeDemands.mpr ⟨column, bounds, hmem, haccepts, .inl ⟨n, hn, rfl⟩⟩, rfl⟩
    · exact ⟨.atMost column n,
        mem_rangeDemands.mpr ⟨column, bounds, hmem, haccepts, .inr ⟨n, hn, rfl⟩⟩, rfl⟩

end Table

theorem mapIdx_eq_of_map_blank {α : Type} {f : Nat → Demand → α}
    (hf : ∀ i d, f i d.blank = f i d) {ds es : List Demand}
    (h : ds.map Demand.blank = es.map Demand.blank) : ds.mapIdx f = es.mapIdx f := by
  have hmap (ds : List Demand) : (ds.map Demand.blank).mapIdx f = ds.mapIdx f := by
    apply List.ext_getElem
    · simp
    · intro i hi hi'
      simp [hf]
  rw [← hmap ds, h, hmap es]

end QueryConsole
