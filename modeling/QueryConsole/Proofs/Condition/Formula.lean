import QueryConsole.Statement.Condition

namespace QueryConsole

universe u

structure Interpretation (Row : Type u) where
  atLeast : Row → (column : String) → Value → Prop
  atMost : Row → (column : String) → Value → Prop
  text : Row → (column : String) → String
  elements : Row → (column : String) → List String
  contains : (text term : String) → Prop

variable {Row : Type u}

/-- The value bound to the placeholder's name, which has the placeholder's type. -/
def Placeholder.Denotes (p : Placeholder) (b : Bindings) (v : Value) : Prop :=
  b.get? p.name = some v ∧ v.type = p.type

theorem Placeholder.denotes_iff {p : Placeholder} {b : Bindings} {v w : Value}
    (h : p.Denotes b v) : p.Denotes b w ↔ w = v := by
  constructor
  · intro hw
    exact Option.some.inj (hw.1.symm.trans h.1)
  · rintro rfl
    exact h

namespace Atom

def Holds (I : Interpretation Row) (b : Bindings) (row : Row) : Atom → Prop
  | .atLeast column p => ∃ v, p.Denotes b v ∧ I.atLeast row column v
  | .atMost column p => ∃ v, p.Denotes b v ∧ I.atMost row column v
  | .oneOf column p => ∃ items, p.Denotes b (.textArray items) ∧ I.text row column ∈ items
  | .sharesAny column p =>
    ∃ items, p.Denotes b (.textArray items) ∧ ∃ item ∈ I.elements row column, item ∈ items
  | .mentions column p => ∃ term, p.Denotes b (.text term) ∧ I.contains (I.text row column) term

end Atom

def Condition.Holds (I : Interpretation Row) (b : Bindings) (row : Row) : Condition → Prop
  | .test a => a.Holds I b row
  | .anyOf as => ∃ a ∈ as, a.Holds I b row

inductive Formula : Type
  | always : Formula
  | test : Atom → Formula
  | both : Formula → Formula → Formula
  | either : Formula → Formula → Formula
  deriving DecidableEq

namespace Formula

def Holds (I : Interpretation Row) (b : Bindings) (row : Row) : Formula → Prop
  | .always => True
  | .test a => a.Holds I b row
  | .both f g => f.Holds I b row ∧ g.Holds I b row
  | .either f g => f.Holds I b row ∨ g.Holds I b row

def join? (op : Formula → Formula → Formula) : List Formula → Option Formula
  | [] => none
  | [f] => some f
  | f :: fs => (join? op fs).map (op f)

variable {I : Interpretation Row} {b : Bindings} {row : Row}

theorem exists_join? (op : Formula → Formula → Formula) {fs : List Formula} (h : fs ≠ []) :
    ∃ f, join? op fs = some f := by
  induction fs with
  | nil => exact absurd rfl h
  | cons f fs ih =>
    cases fs with
    | nil => exact ⟨f, rfl⟩
    | cons f' fs =>
      obtain ⟨g, hg⟩ := ih (List.cons_ne_nil _ _)
      exact ⟨op f g, by simp [join?, hg]⟩

theorem holds_join?_both {fs : List Formula} {f : Formula} (h : join? both fs = some f) :
    f.Holds I b row ↔ ∀ g ∈ fs, g.Holds I b row := by
  induction fs generalizing f with
  | nil => cases h
  | cons g fs ih =>
    cases fs with
    | nil =>
      cases h
      simp
    | cons g' fs =>
      obtain ⟨rest, hrest, rfl⟩ := Option.map_eq_some_iff.mp h
      rw [Holds, ih hrest, ← List.forall_mem_cons]

theorem holds_join?_either {fs : List Formula} {f : Formula} (h : join? either fs = some f) :
    f.Holds I b row ↔ ∃ g ∈ fs, g.Holds I b row := by
  induction fs generalizing f with
  | nil => cases h
  | cons g fs ih =>
    cases fs with
    | nil =>
      cases h
      simp
    | cons g' fs =>
      obtain ⟨rest, hrest, rfl⟩ := Option.map_eq_some_iff.mp h
      rw [Holds, ih hrest]
      simp

end Formula

def Condition.formula : Condition → Formula
  | .test a => .test a
  | .anyOf as => (Formula.join? .either (as.map .test)).getD .always

theorem Condition.holds_formula {I : Interpretation Row} {b : Bindings} {row : Row}
    {c : Condition} (h : c ≠ .anyOf []) : c.formula.Holds I b row ↔ c.Holds I b row := by
  cases c with
  | test a => rfl
  | anyOf as =>
    have hne : as.map Formula.test ≠ [] := by
      rw [ne_eq, List.map_eq_nil_iff]
      rintro rfl
      exact h rfl
    obtain ⟨f, hf⟩ := Formula.exists_join? .either hne
    rw [formula, hf, Option.getD_some, Formula.holds_join?_either hf]
    constructor
    · rintro ⟨g, hg, hholds⟩
      obtain ⟨a, ha, rfl⟩ := List.mem_map.mp hg
      exact ⟨a, ha, hholds⟩
    · rintro ⟨a, ha, hholds⟩
      exact ⟨.test a, List.mem_map_of_mem ha, hholds⟩

end QueryConsole
