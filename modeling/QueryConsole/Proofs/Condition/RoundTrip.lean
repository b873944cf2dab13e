import QueryConsole.Proofs.Condition.Atoms
import QueryConsole.Proofs.Condition.Tokens

namespace QueryConsole

open Token (word sign)

theorem mapM_map_eq_some {α β γ : Type} {f : α → β} {g : β → Option γ} {h : α → γ} {xs : List α}
    (hg : ∀ x ∈ xs, g (f x) = some (h x)) : (xs.map f).mapM g = some (xs.map h) := by
  induction xs with
  | nil => rfl
  | cons x xs ih =>
    rw [List.forall_mem_cons] at hg
    simp [List.mapM_cons, hg.1, ih hg.2]

def ValueType.tokens : ValueType → List Token
  | .text => [word "String"]
  | .textArray => [word "Array", sign '(', word "String", sign ')']
  | .uint64 => [word "UInt64"]
  | .dateTime => [word "DateTime", sign '(', sign '\'', word "UTC", sign '\'', sign ')']

def Placeholder.tokens (p : Placeholder) : List Token :=
  sign '\x7b' :: word p.name :: sign ':' :: p.type.tokens ++ [sign '\x7d']

theorem ValueType.scan_name (t : ValueType) : Token.scan t.name = t.tokens := by
  cases t <;> decide

theorem Placeholder.scan_text {p : Placeholder} (h : Text.IsWord p.name) :
    Token.scan p.text = p.tokens := by
  have hopen : Token.scan "\x7b" = [sign '\x7b'] := by decide
  have hclose : Token.scan "\x7d" = [sign '\x7d'] := by decide
  have hcolon : Token.scan ":" = [sign ':'] := by decide
  rw [text, Token.scan_append_left _ (by decide), Token.scan_around _ _ (by decide) (by decide),
    Token.scan_append_right (by decide), Token.scan_word h, ValueType.scan_name, hopen, hclose,
    hcolon]
  rfl

theorem Placeholder.take?_tokens (p : Placeholder) (rest : List Token) :
    Placeholder.take? (p.tokens ++ rest) = some (p, rest) := by
  obtain ⟨name, type⟩ := p
  cases type <;> rfl

theorem Placeholder.through_tokens (p : Placeholder) (keyword : String) (depth : Nat) :
    Token.through keyword depth p.tokens = some depth := by
  obtain ⟨name, type⟩ := p
  cases type <;>
    simp [tokens, ValueType.tokens, Token.through, Token.depthAfter, Token.isWord]

theorem Placeholder.before?_tokens (p : Placeholder) (closing : List Token) :
    Placeholder.before? closing (p.tokens ++ closing) = some p := by
  rw [before?, take?_tokens]
  simp

theorem Placeholder.before?_nil_tokens (p : Placeholder) :
    Placeholder.before? [] p.tokens = some p := by
  simpa using p.before?_tokens []

namespace Atom

def openingTokens : Atom → List Token
  | .atLeast .. => []
  | .atMost .. => []
  | .oneOf .. => [word "toString", sign '(']
  | .sharesAny .. =>
    [word "hasAny", sign '(', word "arrayMap", sign '(', word "x", sign '-', sign '>',
     word "toString", sign '(', word "x", sign ')', sign ',']
  | .mentions .. => [word "positionCaseInsensitive", sign '(', word "toString", sign '(']

def middleTokens : Atom → List Token
  | .atLeast .. => [sign '>', sign '=']
  | .atMost .. => [sign '<', sign '=']
  | .oneOf .. => [sign ')', word "IN"]
  | .sharesAny .. => [sign ')', sign ',']
  | .mentions .. => [sign ')', sign ',']

def closingTokens : Atom → List Token
  | .atLeast .. => []
  | .atMost .. => []
  | .oneOf .. => []
  | .sharesAny .. => [sign ')']
  | .mentions .. => [sign ')', sign '>', word "0"]

def tokens (a : Atom) : List Token :=
  a.openingTokens ++ word a.column :: a.middleTokens ++ a.placeholder.tokens ++ a.closingTokens

theorem scan_opening (a : Atom) : Token.scan a.opening = a.openingTokens := by
  cases a <;> simp only [opening, openingTokens] <;> decide

theorem scan_middle (a : Atom) : Token.scan a.middle = a.middleTokens := by
  cases a <;> simp only [middle, middleTokens] <;> decide

theorem scan_closing (a : Atom) : Token.scan a.closing = a.closingTokens := by
  cases a <;> simp only [closing, closingTokens] <;> decide

theorem scan_text {a : Atom} (h : a.WellFormed) : Token.scan a.text = a.tokens := by
  rw [text_eq, Token.scan_append_left, Token.scan_around, Token.scan_append_right,
    Token.scan_word h.column.isWord, Placeholder.scan_text h.name, scan_opening, scan_middle,
    scan_closing]
  · simp [tokens]
  all_goals cases a <;> simp only [opening, middle, closing] <;> decide

theorem ofTokens?_tokens (a : Atom) : ofTokens? a.tokens = some a := by
  cases a <;>
    simp [tokens, openingTokens, middleTokens, closingTokens, column, placeholder, ofTokens?,
      Placeholder.before?_tokens, Placeholder.before?_nil_tokens]

theorem through_tokens {a : Atom} (h : a.WellFormed) {keyword : String}
    (hkeyword : keyword = "AND" ∨ keyword = "OR") (depth : Nat) :
    Token.through keyword depth a.tokens = some depth := by
  have hcolumn : Text.sameWord a.column keyword = false := by
    cases hkeyword with
    | inl hand => rw [hand, h.column.2.1]
    | inr hor => rw [hor, h.column.2.2]
  have hwords : ∀ w ∈ ["toString", "IN", "hasAny", "arrayMap", "x", "positionCaseInsensitive",
      "0"], Text.sameWord w keyword = false := by
    cases hkeyword with
    | inl hand =>
      rw [hand]
      decide
    | inr hor =>
      rw [hor]
      decide
  simp only [List.forall_mem_cons] at hwords
  cases a <;>
    simp_all [tokens, openingTokens, middleTokens, closingTokens, Token.through,
      Token.through_append, Token.depthAfter, Token.isWord, Placeholder.through_tokens, column]

theorem factor?_tokens (a : Atom) (inside : List Token → Option Formula) :
    Formula.factor? inside a.tokens = some (.test a) := by
  simp only [Formula.factor?, ofTokens?_tokens]

end Atom

namespace Condition

def tokens : Condition → List Token
  | .test a => a.tokens
  | .anyOf as => sign '(' :: [word "OR"].intercalate (as.map Atom.tokens) ++ [sign ')']

theorem scan_text {c : Condition} (h : c.WellFormed) : Token.scan c.text = c.tokens := by
  cases c with
  | test a => exact Atom.scan_text (h.atoms a (List.mem_singleton_self a))
  | anyOf as =>
    have hopen : Token.scan "(" = [sign '('] := by decide
    have hclose : Token.scan ")" = [sign ')'] := by decide
    have hor : Token.scan " OR " = [word "OR"] := by decide
    have hatoms : (as.map Atom.text).map Token.scan = as.map Atom.tokens := by
      rw [List.map_map]
      exact List.map_congr_left fun a ha => Atom.scan_text (h.atoms a ha)
    change Token.scan ("(" ++ " OR ".intercalate (as.map Atom.text) ++ ")") = _
    rw [Token.scan_append_left _ (by decide), Token.scan_append_right (by decide),
      Token.scan_intercalate (by decide) (by decide), hatoms, hopen, hclose, hor]
    rfl

theorem through_tokens {c : Condition} (h : c.WellFormed) {keyword : String}
    (hkeyword : keyword = "AND" ∨ keyword = "OR") :
    Token.through keyword 0 c.tokens = some 0 := by
  cases c with
  | test a => exact Atom.through_tokens (h.atoms a (List.mem_singleton_self a)) hkeyword 0
  | anyOf as =>
    have hinside : Token.through keyword 1 ([word "OR"].intercalate (as.map Atom.tokens)) =
        some 1 := by
      apply Token.through_intercalate
      · simp [Token.through, Token.depthAfter]
      · rw [List.forall_mem_map]
        intro a ha
        exact Atom.through_tokens (h.atoms a ha) hkeyword 1
    rw [tokens, List.cons_append, Token.through, if_neg (by simp [Token.isWord]),
      Token.through_append]
    simp [Token.depthAfter, hinside, Token.through]

theorem factor?_tokens {c : Condition} (h : c.WellFormed) (depth : Nat) :
    Formula.factor? (Formula.read? (depth + 1)) c.tokens = some c.formula := by
  cases c with
  | test a => exact a.factor?_tokens _
  | anyOf as =>
    have hpieces : Token.splitAt "OR" ([word "OR"].intercalate (as.map Atom.tokens)) =
        as.map Atom.tokens := by
      apply Token.splitAt_intercalate (by decide)
      · rw [ne_eq, List.map_eq_nil_iff]
        exact h.atoms_ne_nil
      · rw [List.forall_mem_map]
        intro a ha
        exact Atom.through_tokens (h.atoms a ha) (.inr rfl) 0
    have hpiece : ∀ a ∈ as, ((Token.splitAt "AND" a.tokens).mapM
        (Formula.factor? (Formula.read? depth))).bind (Formula.join? .both) = some (.test a) := by
      intro a ha
      rw [Token.splitAt_of_through (Atom.through_tokens (h.atoms a ha) (.inl rfl) 0)]
      simp [a.factor?_tokens, Formula.join?]
    have hread : Formula.read? (depth + 1) ([word "OR"].intercalate (as.map Atom.tokens)) =
        Formula.join? .either (as.map .test) := by
      rw [Formula.read?, hpieces, mapM_map_eq_some hpiece, Option.bind_some]
    have hne : as.map Formula.test ≠ [] := by
      rw [ne_eq, List.map_eq_nil_iff]
      exact h.atoms_ne_nil
    obtain ⟨f, hf⟩ := Formula.exists_join? .either hne
    rw [tokens, formula, hf]
    simp [Formula.factor?, Atom.ofTokens?, hread, hf]

end Condition

theorem Condition.tokens_ne_nil (c : Condition) : c.tokens ≠ [] := by
  cases c with
  | test a => cases a <;> exact List.cons_ne_nil _ _
  | anyOf as => exact List.cons_ne_nil _ _

namespace Formula

variable {cs : List Condition}

theorem read?_intercalate (hne : cs ≠ []) (h : ∀ c ∈ cs, c.WellFormed) (depth : Nat) :
    read? (depth + 2) ([word "AND"].intercalate (cs.map Condition.tokens)) =
      join? both (cs.map Condition.formula) := by
  have hor : Token.splitAt "OR" ([word "AND"].intercalate (cs.map Condition.tokens)) =
      [[word "AND"].intercalate (cs.map Condition.tokens)] := by
    apply Token.splitAt_of_through
    apply Token.through_intercalate (by decide)
    rw [List.forall_mem_map]
    exact fun c hc => Condition.through_tokens (h c hc) (.inr rfl)
  have hand : Token.splitAt "AND" ([word "AND"].intercalate (cs.map Condition.tokens)) =
      cs.map Condition.tokens := by
    apply Token.splitAt_intercalate (by decide)
    · rwa [ne_eq, List.map_eq_nil_iff]
    · rw [List.forall_mem_map]
      exact fun c hc => Condition.through_tokens (h c hc) (.inl rfl)
  have hfactors : (cs.map Condition.tokens).mapM (factor? (read? (depth + 1))) =
      some (cs.map Condition.formula) :=
    mapM_map_eq_some fun c hc => Condition.factor?_tokens (h c hc) depth
  have hformulas : cs.map Condition.formula ≠ [] := by
    rwa [ne_eq, List.map_eq_nil_iff]
  obtain ⟨f, hf⟩ := exists_join? both hformulas
  rw [read?, hor]
  simp [hand, hfactors, hf, join?]

theorem parse?_intercalate (hne : cs ≠ []) (h : ∀ c ∈ cs, c.WellFormed) :
    parse? (" AND ".intercalate (cs.map Condition.text)) =
      join? both (cs.map Condition.formula) := by
  have hword : Token.scan " AND " = [word "AND"] := by decide
  have htokens : (cs.map Condition.text).map Token.scan = cs.map Condition.tokens := by
    rw [List.map_map]
    exact List.map_congr_left fun c hc => Condition.scan_text (h c hc)
  have hsome : [word "AND"].intercalate (cs.map Condition.tokens) ≠ [] := by
    cases cs with
    | nil => exact absurd rfl hne
    | cons c cs => cases cs <;> simp [List.intercalate_cons_cons, c.tokens_ne_nil]
  obtain ⟨depth, hdepth⟩ := Nat.exists_eq_add_one.mpr (List.length_pos_iff.mpr hsome)
  rw [parse?, Token.scan_intercalate (by decide) (by decide), hword, htokens, hdepth]
  exact read?_intercalate hne h depth

end Formula

end QueryConsole
