import QueryConsole.Text.Word

namespace QueryConsole.Text

def bracedFrom : Option (List Char) → List Char → Option (List (List Char))
  | none, [] => some []
  | some _, [] => none
  | none, c :: cs =>
    if c = '\x7b' then bracedFrom (some []) cs
    else if c = '\x7d' then none
    else bracedFrom none cs
  | some group, c :: cs =>
    if c = '\x7b' then none
    else if c = '\x7d' then (bracedFrom none cs).map (group :: ·)
    else bracedFrom (some (group ++ [c])) cs

/-- The groups between braces, in order; nothing if some brace is not of a group. -/
def braced? (s : String) : Option (List String) :=
  (bracedFrom none s.toList).map (·.map String.ofList)

def isInertChar (c : Char) : Bool :=
  c != '\x7b' && c != '\x7d' && c != '\n'

def IsInert (s : String) : Prop :=
  s.toList.all isInertChar = true

instance (s : String) : Decidable (IsInert s) :=
  inferInstanceAs (Decidable (_ = _))

def IsWord (s : String) : Prop :=
  s.toList ≠ [] ∧ s.toList.all isWordChar = true

instance (s : String) : Decidable (IsWord s) :=
  inferInstanceAs (Decidable (_ ∧ _))

theorem isWord_of_isIdentifier {s : String} (h : isIdentifier s = true) : IsWord s := by
  rw [isIdentifier] at h
  split at h
  · cases h
  · next c cs heq =>
    rw [IsWord, heq]
    refine ⟨List.cons_ne_nil _ _, ?_⟩
    simp only [Bool.and_eq_true, Bool.or_eq_true] at h
    rw [List.all_cons, Bool.and_eq_true]
    refine ⟨?_, h.2⟩
    cases h.1 with
    | inl halpha => simp [isWordChar, Char.isAlphanum, halpha]
    | inr hscore => simp [isWordChar, hscore]

theorem IsWord.append {a b : String} (ha : IsWord a) (hb : b.toList.all isWordChar = true) :
    IsWord (a ++ b) := by
  refine ⟨?_, ?_⟩
  · simp [ha.1]
  · rw [String.toList_append, List.all_append, ha.2, hb]
    rfl

theorem isInertChar_of_isWordChar {c : Char} (h : isWordChar c = true) :
    isInertChar c = true := by
  rw [isInertChar, Bool.and_eq_true, Bool.and_eq_true, bne_iff_ne, bne_iff_ne, bne_iff_ne]
  refine ⟨⟨?_, ?_⟩, ?_⟩
  all_goals
    rintro rfl
    revert h
    decide

theorem IsWord.isInert {s : String} (h : IsWord s) : IsInert s := by
  rw [IsInert, List.all_eq_true]
  intro c hc
  exact isInertChar_of_isWordChar (List.all_eq_true.mp h.2 c hc)

@[simp] theorem isInert_append {a b : String} : IsInert (a ++ b) ↔ IsInert a ∧ IsInert b := by
  simp [IsInert]

theorem all_intercalate {p : Char → Bool} {separator : String}
    (hsep : separator.toList.all p = true) {items : List String}
    (h : ∀ item ∈ items, item.toList.all p = true) :
    (separator.intercalate items).toList.all p = true := by
  induction items with
  | nil => simp
  | cons item items ih =>
    rw [List.forall_mem_cons] at h
    cases items with
    | nil => simpa using h.1
    | cons item' items =>
      rw [String.intercalate_cons_cons, String.toList_append, String.toList_append,
        List.all_append, List.all_append, h.1, hsep, ih h.2]
      rfl

theorem isInert_intercalate {separator : String} (hsep : IsInert separator) {items : List String}
    (h : ∀ item ∈ items, IsInert item) : IsInert (separator.intercalate items) :=
  all_intercalate hsep h

def IsLine (s : String) : Prop :=
  s.toList.all (· != '\n') = true

instance (s : String) : Decidable (IsLine s) :=
  inferInstanceAs (Decidable (_ = _))

theorem IsInert.isLine {s : String} (h : IsInert s) : IsLine s := by
  rw [IsLine, List.all_eq_true]
  intro c hc
  have hinert := List.all_eq_true.mp h c hc
  rw [isInertChar, Bool.and_eq_true] at hinert
  exact hinert.2

@[simp] theorem isLine_append {a b : String} : IsLine (a ++ b) ↔ IsLine a ∧ IsLine b := by
  simp [IsLine]

theorem isLine_intercalate {separator : String} (hsep : IsLine separator) {items : List String}
    (h : ∀ item ∈ items, IsLine item) : IsLine (separator.intercalate items) :=
  all_intercalate hsep h

theorem IsLine.newline_notMem {s : String} (h : IsLine s) : '\n' ∉ s.toList := by
  intro hmem
  exact absurd (List.all_eq_true.mp h _ hmem) (by decide)

theorem bracedFrom_append {group : Option (List Char)} {cs ds : List Char}
    {groups : List (List Char)} (h : bracedFrom group cs = some groups) :
    bracedFrom group (cs ++ ds) = (bracedFrom none ds).map (groups ++ ·) := by
  induction cs generalizing group groups with
  | nil =>
    cases group with
    | none =>
      cases h
      simp
    | some group => cases h
  | cons c cs ih =>
    cases group with
    | none =>
      simp only [bracedFrom] at h
      rw [List.cons_append, bracedFrom]
      split at h
      · next hopen => rw [if_pos hopen, ih h]
      · next hopen =>
        rw [if_neg hopen]
        split at h
        · cases h
        · next hclose => rw [if_neg hclose, ih h]
    | some group =>
      simp only [bracedFrom] at h
      rw [List.cons_append, bracedFrom]
      split at h
      · cases h
      · next hopen =>
        rw [if_neg hopen]
        split at h
        · next hclose =>
          obtain ⟨rest, hrest, rfl⟩ := Option.map_eq_some_iff.mp h
          rw [if_pos hclose, ih hrest, Option.map_map]
          rfl
        · next hclose => rw [if_neg hclose, ih h]

theorem bracedFrom_of_all {cs : List Char} (h : cs.all isInertChar = true) :
    bracedFrom none cs = some [] := by
  induction cs with
  | nil => rfl
  | cons c cs ih =>
    simp only [List.all_cons, isInertChar, Bool.and_eq_true, bne_iff_ne] at h
    rw [bracedFrom, if_neg h.1.1.1, if_neg h.1.1.2]
    exact ih h.2

theorem bracedFrom_group {cs : List Char} (h : cs.all isInertChar = true) (group : List Char) :
    bracedFrom (some group) (cs ++ ['\x7d']) = some [group ++ cs] := by
  induction cs generalizing group with
  | nil => simp [bracedFrom]
  | cons c cs ih =>
    simp only [List.all_cons, isInertChar, Bool.and_eq_true, bne_iff_ne] at h
    rw [List.cons_append, bracedFrom, if_neg h.1.1.1, if_neg h.1.1.2, ih h.2]
    simp

theorem braced?_append {a b : String} {groups groups' : List String}
    (ha : braced? a = some groups) (hb : braced? b = some groups') :
    braced? (a ++ b) = some (groups ++ groups') := by
  obtain ⟨x, hx, rfl⟩ := Option.map_eq_some_iff.mp ha
  obtain ⟨y, hy, rfl⟩ := Option.map_eq_some_iff.mp hb
  rw [braced?, String.toList_append, bracedFrom_append hx, hy]
  simp

theorem braced?_of_isInert {s : String} (h : IsInert s) : braced? s = some [] := by
  rw [braced?, bracedFrom_of_all h]
  rfl

theorem braced?_group {s : String} (h : IsInert s) :
    braced? ("\x7b" ++ s ++ "\x7d") = some [s] := by
  have hlist : ("\x7b" ++ s ++ "\x7d").toList = '\x7b' :: (s.toList ++ ['\x7d']) := by simp
  rw [braced?, hlist, bracedFrom, if_pos rfl, bracedFrom_group h]
  simp

inductive BracedAll : List String → List String → Prop
  | nil : BracedAll [] []
  | cons {s : String} {groups : List String} {rest groups' : List String} :
      braced? s = some groups → BracedAll rest groups' →
        BracedAll (s :: rest) (groups ++ groups')

namespace BracedAll

theorem singleton {s : String} {groups : List String} (h : braced? s = some groups) :
    BracedAll [s] groups := by
  simpa using cons h nil

theorem append {items items' groups groups' : List String} (h : BracedAll items groups)
    (h' : BracedAll items' groups') : BracedAll (items ++ items') (groups ++ groups') := by
  induction h with
  | nil => exact h'
  | cons hs _ ih =>
    rw [List.cons_append, List.append_assoc]
    exact cons hs ih

theorem map {α : Type} {f : α → String} {g : α → List String} {items : List α}
    (h : ∀ item ∈ items, braced? (f item) = some (g item)) :
    BracedAll (items.map f) (items.flatMap g) := by
  induction items with
  | nil => exact nil
  | cons item items ih =>
    rw [List.map_cons, List.flatMap_cons]
    exact cons (h item List.mem_cons_self) (ih fun x hx => h x (List.mem_cons_of_mem _ hx))

theorem intercalate {separator : String} (hsep : braced? separator = some [])
    {items groups : List String} (h : BracedAll items groups) :
    braced? (separator.intercalate items) = some groups := by
  induction h with
  | nil => rfl
  | cons hs hrest ih =>
    cases hrest with
    | nil => simpa using hs
    | cons hs' hrest =>
      rw [String.intercalate_cons_cons]
      simpa using braced?_append (braced?_append hs hsep) ih

end BracedAll

end QueryConsole.Text
