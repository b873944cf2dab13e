import QueryConsole.Statement.Bindings
import QueryConsole.Text.Word

namespace QueryConsole

theorem map_mapIdx {α β γ : Type} (f : Nat → α → β) (g : β → γ) (xs : List α) :
    (xs.mapIdx f).map g = xs.mapIdx fun i x => g (f i x) := by
  apply List.ext_getElem <;> simp

namespace Bindings

def IsPositional (name : String) : Prop :=
  ∃ stem position, name = positionalName stem position

def lastPart (name : String) : List Char :=
  (name.toList.reverse.takeWhile fun c => c != '_').reverse

theorem toList_positionalName (stem : String) (position : Nat) :
    (positionalName stem position).toList = stem.toList ++ '_' :: Nat.toDigits 10 position := by
  simp [positionalName]

theorem lastPart_positionalName (stem : String) (position : Nat) :
    lastPart (positionalName stem position) = Nat.toDigits 10 position := by
  have hdigits : ∀ c ∈ (Nat.toDigits 10 position).reverse, (c != '_') = true := by
    intro c hc
    rw [bne_iff_ne]
    rintro rfl
    simp at hc
  rw [lastPart, toList_positionalName, List.reverse_append, List.reverse_cons, List.append_assoc,
    List.takeWhile_append_of_pos hdigits]
  simp

theorem positionalName_position {stem stem' : String} {i j : Nat}
    (h : positionalName stem i = positionalName stem' j) : i = j := by
  have hdigits := congrArg lastPart h
  rw [lastPart_positionalName, lastPart_positionalName] at hdigits
  simpa using congrArg (Nat.ofDigitChars 10 · 0) hdigits

theorem not_isPositional {name : String}
    (h : (name.toList.getLast?.any Char.isDigit) = false) : ¬ IsPositional name := by
  rintro ⟨stem, position, rfl⟩
  have hne : Nat.toDigits 10 position ≠ [] := Nat.toDigits_ne_nil
  have hdigit : ((Nat.toDigits 10 position).getLast hne).isDigit = true :=
    Nat.isDigit_of_mem_toDigits (by decide) (by decide) (List.getLast_mem hne)
  rw [toList_positionalName, List.getLast?_append, List.getLast?_cons,
    List.getLast?_eq_some_getLast hne] at h
  simp [hdigit] at h

/-- A value to bind, by a name of its own or by its position. -/
inductive Step : Type
  | named : (name : String) → Value → Step
  | positional : (stem : String) → Value → Step

namespace Step

def value : Step → Value
  | .named _ v => v
  | .positional _ v => v

def ownName? : Step → Option String
  | .named name _ => some name
  | .positional _ _ => none

def name (position : Nat) : Step → String
  | .named name _ => name
  | .positional stem _ => positionalName stem position

def binding (position : Nat) (s : Step) : Binding :=
  ⟨s.name position, s.value⟩

def apply (b : Bindings) : Step → Bindings × Placeholder
  | .named name v => b.bindNamed name v
  | .positional stem v => b.bind stem v

theorem apply_eq (b : Bindings) (s : Step) :
    s.apply b = (b.push (s.binding b.size), (s.binding b.size).placeholder) := by
  cases s <;> rfl

end Step

def run (b : Bindings) (steps : List Step) : Bindings :=
  steps.foldl (fun b s => (s.apply b).1) b

@[simp] theorem run_nil (b : Bindings) : b.run [] = b := rfl

@[simp] theorem run_cons (b : Bindings) (s : Step) (steps : List Step) :
    b.run (s :: steps) = (b.push (s.binding b.size)).run steps := by
  rw [run, List.foldl_cons, Step.apply_eq]
  rfl

theorem run_append (b : Bindings) (steps steps' : List Step) :
    b.run (steps ++ steps') = (b.run steps).run steps' := by
  simp [run]

theorem toList_run (b : Bindings) (steps : List Step) :
    (b.run steps).toList = b.toList ++ steps.mapIdx fun i s => s.binding (b.size + i) := by
  induction steps generalizing b with
  | nil => simp
  | cons s steps ih =>
    rw [run_cons, ih, toList_push, size_push, List.mapIdx_cons, List.append_assoc]
    simp [Nat.add_assoc, Nat.add_comm 1]

theorem toList_run_empty (steps : List Step) :
    (run ∅ steps).toList = steps.mapIdx fun i s => s.binding i := by
  simp [toList_run, size]

theorem get?_of_mem {b : Bindings} (hnames : (b.toList.map Binding.name).Nodup)
    {binding : Binding} (hmem : binding ∈ b.toList) : b.get? binding.name = some binding.value := by
  obtain ⟨bindings⟩ := b
  simp only [get?, Option.map_eq_some_iff]
  refine ⟨binding, ?_, rfl⟩
  induction bindings with
  | nil => cases hmem
  | cons first rest ih =>
    rw [List.map_cons, List.nodup_cons] at hnames
    cases List.mem_cons.mp hmem with
    | inl heq => simp [heq]
    | inr hrest =>
      have hne : first.name ≠ binding.name :=
        fun h => hnames.1 (h ▸ List.mem_map_of_mem hrest)
      rw [List.find?_cons_of_neg (by simpa using hne)]
      exact ih hnames.2 hrest

theorem get?_eq_none {b : Bindings} {name : String} (h : name ∉ b.toList.map Binding.name) :
    b.get? name = none := by
  rw [get?, Option.map_eq_none_iff, List.find?_eq_none]
  intro binding hmem heq
  exact h ((beq_iff_eq.mp heq) ▸ List.mem_map_of_mem hmem)

end Bindings

end QueryConsole
