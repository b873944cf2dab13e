import QueryConsole.Proofs.Bindings.Run
import Mathlib.Data.List.Nodup

/-! The names that a run of binding steps gives.  A positional name tells its place in the list, so
it can only meet a name of a step's own; if those are new and look like no positional name, each
step adds one binding under a name that nothing else in the run has. -/

namespace QueryConsole.Bindings

variable {b : Bindings} {s : Step} {before steps steps' : List Step}

def names (b : Bindings) : List String :=
  b.toList.map Binding.name

theorem length_names (b : Bindings) : b.names.length = b.size := by
  simp [names, size]

theorem names_push (b : Bindings) (binding : Binding) :
    (b.push binding).names = b.names ++ [binding.name] := by
  simp [names]

theorem notMem_names {name : String} (h : b.get? name = none) : name ∉ b.names := by
  rw [get?, Option.map_eq_none_iff, List.find?_eq_none] at h
  intro hmem
  obtain ⟨binding, hbinding, rfl⟩ := List.mem_map.mp hmem
  exact h binding hbinding (beq_self_eq_true binding.name)

/-- No name is bound twice, and a name that looks positional stands at the position it tells. -/
structure Distinct (b : Bindings) : Prop where
  nodup : b.names.Nodup
  position : ∀ i stem position, b.names[i]? = some (positionalName stem position) → position = i

namespace Step

/-- A name of the step's own is not bound yet, nor could a position give it. -/
def IsNew (b : Bindings) (s : Step) : Prop :=
  ∀ name, s.ownName? = some name → b.get? name = none ∧ ¬ IsPositional name

theorem isNew_positional (b : Bindings) (stem : String) (v : Value) :
    (positional stem v).IsNew b := by
  rintro _ ⟨⟩

theorem isNew_named {name : String} {v : Value} :
    (named name v).IsNew b ↔ b.get? name = none ∧ ¬ IsPositional name := by
  simp [IsNew, ownName?]

theorem IsNew.position_eq {stem : String} {i position : Nat} (h : s.IsNew b)
    (hname : s.name i = positionalName stem position) : position = i := by
  cases s with
  | named name v => exact absurd ⟨stem, position, hname⟩ (h name rfl).2
  | positional stem' v => exact (positionalName_position hname).symm

theorem IsNew.name_notMem (h : s.IsNew b) (hb : b.Distinct) : s.name b.size ∉ b.names := by
  cases s with
  | named name v => exact notMem_names (h name rfl).1
  | positional stem v =>
    intro hmem
    obtain ⟨i, hi, hname⟩ := List.getElem_of_mem hmem
    have hlookup : b.names[i]? = some (positionalName stem b.size) := by
      rw [List.getElem?_eq_getElem hi, hname]
      rfl
    have hposition : b.size = i := hb.position i stem b.size hlookup
    rw [length_names] at hi
    omega

end Step

theorem distinct_empty : (∅ : Bindings).Distinct where
  nodup := List.nodup_nil
  position := nofun

theorem Distinct.apply (h : b.Distinct) (hs : s.IsNew b) : (s.apply b).1.Distinct := by
  rw [Step.apply_eq]
  constructor
  · rw [names_push, ← List.concat_eq_append]
    exact h.nodup.concat (hs.name_notMem h)
  · intro i stem position hname
    rw [names_push, List.getElem?_append, length_names] at hname
    split at hname
    · exact h.position i stem position hname
    · next hi =>
      obtain ⟨hlast, hname⟩ := List.getElem?_eq_some_iff.mp hname
      have hsize : i = b.size := by
        rw [List.length_singleton] at hlast
        omega
      rw [List.getElem_singleton] at hname
      rw [hsize]
      exact hs.position_eq hname

/-- The names of their own that the steps bring are new where they come. -/
inductive Admits : Bindings → List Step → Prop
  | nil {b : Bindings} : Admits b []
  | cons {b : Bindings} {s : Step} {steps : List Step} :
    s.IsNew b → Admits (s.apply b).1 steps → Admits b (s :: steps)

theorem Admits.of_append (h : Admits b (steps ++ steps')) : Admits b steps := by
  induction steps generalizing b with
  | nil => exact .nil
  | cons s steps ih =>
    cases h with
    | cons hs hsteps => exact .cons hs (ih hsteps)

theorem Distinct.run (h : b.Distinct) (hsteps : b.Admits steps) : (b.run steps).Distinct := by
  induction hsteps with
  | nil => exact h
  | cons hs _ ih => exact ih (h.apply hs)

theorem Admits.of_ownNames (hown : (steps.filterMap Step.ownName?).Nodup)
    (hnew : ∀ s ∈ steps, s.IsNew b) : b.Admits steps := by
  induction steps generalizing b with
  | nil => exact .nil
  | cons s steps ih =>
    have hrest : (steps.filterMap Step.ownName?).Nodup :=
      hown.sublist ((List.sublist_cons_self s steps).filterMap _)
    refine .cons (hnew s List.mem_cons_self) (ih hrest ?_)
    intro s' hs' name hname
    obtain ⟨hunbound, hpos⟩ := hnew s' (List.mem_cons_of_mem s hs') name hname
    refine ⟨?_, hpos⟩
    have hne : name ≠ s.name b.size := by
      cases s with
      | named name' v =>
        rintro rfl
        have howns : (Step.named name v).ownName? = some name := rfl
        rw [List.filterMap_cons_some howns, List.nodup_cons] at hown
        exact hown.1 (List.mem_filterMap.mpr ⟨s', hs', hname⟩)
      | positional stem v => exact fun heq => hpos ⟨stem, b.size, heq⟩
    rw [Step.apply_eq]
    apply get?_eq_none
    change name ∉ (b.push (s.binding b.size)).names
    rw [names_push, List.mem_append, List.mem_singleton]
    exact not_or.mpr ⟨notMem_names hunbound, hne⟩

theorem nodup_names_run (hown : (steps.filterMap Step.ownName?).Nodup)
    (hpos : ∀ s ∈ steps, ∀ name, s.ownName? = some name → ¬ IsPositional name) :
    (run ∅ steps).names.Nodup :=
  (distinct_empty.run (.of_ownNames hown fun s hs name hname => ⟨rfl, hpos s hs name hname⟩)).nodup

theorem size_run (steps : List Step) : (run ∅ steps).size = steps.length := by
  rw [size, toList_run_empty, List.length_mapIdx]

theorem mem_run (before : List Step) (s : Step) (after : List Step) :
    s.binding before.length ∈ (run ∅ (before ++ s :: after)).toList := by
  rw [toList_run_empty, List.mapIdx_append, List.mapIdx_cons]
  simp

/-- After each step of a run no name is bound twice and there are as many bindings as there were
steps; the step has put its binding behind the earlier ones and answered with the placeholder of
it; and the name of every step so far finds what that step has bound. -/
theorem run_distinguishes {after : List Step} (h : Admits ∅ (before ++ s :: after)) :
    (s.apply (run ∅ before)).1 = run ∅ (before ++ [s]) ∧
    (run ∅ (before ++ [s])).names.Nodup ∧
    (run ∅ (before ++ [s])).size = (before ++ [s]).length ∧
    (run ∅ (before ++ [s])).toList = (run ∅ before).toList ++ [s.binding before.length] ∧
    (s.apply (run ∅ before)).2.text =
      "\x7b" ++ s.name before.length ++ ":" ++ s.value.type.name ++ "\x7d" ∧
    ∀ (earlier : List Step) (s' : Step) (later : List Step),
      before ++ [s] = earlier ++ s' :: later →
        (run ∅ (before ++ [s])).get? (s'.name earlier.length) = some s'.value := by
  have hadmits : Admits ∅ (before ++ [s]) := by
    rw [List.append_cons] at h
    exact h.of_append
  have hdistinct : (run ∅ (before ++ [s])).Distinct := distinct_empty.run hadmits
  have happly : (s.apply (run ∅ before)).1 = run ∅ (before ++ [s]) :=
    (run_append ∅ before [s]).symm
  refine ⟨happly, hdistinct.nodup, size_run _, ?_, ?_, ?_⟩
  · rw [← happly, Step.apply_eq, toList_push, size_run]
  · rw [Step.apply_eq, size_run]
    rfl
  · intro earlier s' later hsplit
    have hmem := mem_run earlier s' later
    rw [← hsplit] at hmem
    exact get?_of_mem hdistinct.nodup hmem

def numberedStems : List Step :=
  [.named "start" (.dateTime "2024-01-02 03:04:05"), .positional "filter" (.textArray ["a"]),
    .positional "filter_1" (.textArray []), .positional "" (.text "it's"),
    .named "limit_" (.uint64 5), .positional "filter_1" (.textArray ["a"])]

theorem admits_numberedStems : Admits ∅ numberedStems := by
  refine .cons ?_ (.cons ?_ (.cons ?_ (.cons ?_ (.cons ?_ (.cons ?_ .nil)))))
  case refine_1 | refine_5 =>
    exact Step.isNew_named.mpr ⟨by decide +kernel, not_isPositional (by decide +kernel)⟩
  all_goals exact Step.isNew_positional _ _ _

theorem run_distinguishes_numberedStems :
    Admits ∅ numberedStems ∧
    (run ∅ numberedStems).names =
      ["start", "filter_1", "filter_1_2", "_3", "limit_", "filter_1_5"] ∧
    (run ∅ numberedStems).names.Nodup ∧
    (run ∅ numberedStems).get? "filter_1_2" = some (.textArray []) := by
  have hsplit : numberedStems =
      numberedStems.take 5 ++ [.positional "filter_1" (.textArray ["a"])] := rfl
  have hadmits := admits_numberedStems
  rw [hsplit] at hadmits
  obtain ⟨-, hnodup, -, -, -, hget⟩ := run_distinguishes hadmits
  have hvalue : (run ∅ numberedStems).get? "filter_1_2" = some (.textArray []) :=
    hget (numberedStems.take 2) (.positional "filter_1" (.textArray [])) _ rfl
  exact ⟨admits_numberedStems, by decide +kernel, hnodup, hvalue⟩

end QueryConsole.Bindings
