import QueryConsole.Decimal.Natural
import QueryConsole.Statement.Value

namespace QueryConsole

namespace Decimal

theorem ofDigits_eq {cs : List Char} (h : ∀ c ∈ cs, c.isDigit = true) (value : Nat) :
    ofDigits value cs = some (Nat.ofDigitChars 10 cs value) := by
  induction cs generalizing value with
  | nil => rw [ofDigits, Nat.ofDigitChars_nil]
  | cons c cs ih =>
    rw [List.forall_mem_cons] at h
    rw [ofDigits, if_pos h.1, ih h.2, Nat.ofDigitChars_cons, digitValue]

theorem natural?_of_digits {s : String} {c : Char} {cs : List Char} (hs : s.toList = c :: cs)
    (h : ∀ c' ∈ c :: cs, c'.isDigit = true) :
    natural? s = some (Nat.ofDigitChars 10 (c :: cs) 0) := by
  have hplus : c ≠ '+' := by
    rintro rfl
    exact absurd (h '+' List.mem_cons_self) (by decide)
  have hunsigned : unsignedDigits (c :: cs) = c :: cs := by
    rw [unsignedDigits.eq_2]
    rintro _ ⟨⟩
    exact hplus rfl
  rw [natural?, hs]
  simp only [hunsigned]
  exact ofDigits_eq h 0

theorem natural?_toString (n : Nat) : natural? (toString n) = some n := by
  have hdigits : ∀ c ∈ Nat.toDigits 10 n, c.isDigit = true :=
    fun c hc => Nat.isDigit_of_mem_toDigits (by decide) (by decide) hc
  have hvalue : Nat.ofDigitChars 10 (Nat.toDigits 10 n) 0 = n := by simp
  have hlist : (toString n).toList = Nat.toDigits 10 n := by simp
  obtain ⟨c, cs, hcs⟩ := List.exists_cons_of_ne_nil (Nat.toDigits_ne_nil (b := 10) (n := n))
  rw [hcs] at hdigits hvalue hlist
  rw [natural?_of_digits hlist hdigits, hvalue]

theorem uint64?_toString (n : UInt64) : uint64? (toString n.toNat) = some n := by
  have hsize : n.toNat < UInt64.size := n.toNat_lt_size
  rw [uint64?, natural?_toString, Option.bind_some, if_pos hsize, UInt64.ofNat_toNat]

end Decimal

def escaped? : Char → Option Char
  | '\\' => some '\\'
  | '\'' => some '\''
  | 't' => some '\t'
  | 'n' => some '\n'
  | 'r' => some '\r'
  | _ => none

def isEscaped (c : Char) : Bool :=
  c == '\\' || c == '\t' || c == '\n' || c == '\r'

def unescape? : List Char → Option (List Char)
  | [] => some []
  | '\\' :: letter :: cs => (escaped? letter).bind fun c => (unescape? cs).map (c :: ·)
  | c :: cs => if isEscaped c then none else (unescape? cs).map (c :: ·)

def unescapeText? (s : String) : Option String :=
  (unescape? s.toList).map String.ofList

inductive ItemStage : Type
  | first : ItemStage
  | next : ItemStage
  | inside : List Char → ItemStage
  | after : ItemStage

def readItems? : ItemStage → List Char → Option (List (List Char))
  | .first, '\'' :: cs => readItems? (.inside []) cs
  | .first, [']'] => some []
  | .next, '\'' :: cs => readItems? (.inside []) cs
  | .inside item, '\'' :: cs => (readItems? .after cs).map (item :: ·)
  | .inside item, '\\' :: letter :: cs =>
    (escaped? letter).bind fun c => readItems? (.inside (item ++ [c])) cs
  | .inside item, c :: cs => if isEscaped c then none else readItems? (.inside (item ++ [c])) cs
  | .after, ',' :: cs => readItems? .next cs
  | .after, [']'] => some []
  | _, _ => none

def arrayItems? (s : String) : Option (List String) :=
  match s.toList with
  | '[' :: cs => (readItems? .first cs).map (·.map String.ofList)
  | _ => none

def ValueType.decode? (type : ValueType) (s : String) : Option Value :=
  match type with
  | .text => (unescapeText? s).map .text
  | .textArray => (arrayItems? s).map .textArray
  | .uint64 => (Decimal.uint64? s).map .uint64
  | .dateTime => some (.dateTime s)

theorem escapeLetter?_eq_some {c letter : Char} (h : escapeLetter? c = some letter) :
    escaped? letter = some c := by
  rw [escapeLetter?.eq_def] at h
  split at h <;> cases h <;> rfl

theorem isEscaped_eq_false {c : Char} (h : escapeLetter? c = none) : isEscaped c = false := by
  simp only [isEscaped, Bool.or_eq_false_iff, beq_eq_false_iff_ne]
  refine ⟨⟨⟨?_, ?_⟩, ?_⟩, ?_⟩
  all_goals
    rintro rfl
    exact absurd h (by decide)

theorem ne_backslash {c : Char} (h : isEscaped c = false) : c ≠ '\\' := by
  rintro rfl
  cases h

theorem unescape?_cons {c : Char} (h : isEscaped c = false) (cs : List Char) :
    unescape? (c :: cs) = (unescape? cs).map (c :: ·) := by
  rw [unescape?.eq_def]
  split
  case h_1 heq => cases heq
  case h_2 heq =>
    cases heq
    exact absurd rfl (ne_backslash h)
  case h_3 heq =>
    cases heq
    rw [if_neg (by simp [h])]

theorem unescape?_escape (cs : List Char) :
    unescape? (escapeWith escapeLetter? cs) = some cs := by
  induction cs with
  | nil => rfl
  | cons c cs ih =>
    rw [escapeWith]
    cases hletter : escapeLetter? c with
    | none =>
      simp only
      rw [unescape?_cons (isEscaped_eq_false hletter), ih, Option.map_some]
    | some letter =>
      simp only
      rw [unescape?, escapeLetter?_eq_some hletter, Option.bind_some, ih, Option.map_some]

@[simp] theorem unescapeText?_escapeText (s : String) : unescapeText? (escapeText s) = some s := by
  rw [unescapeText?, escapeText, String.toList_ofList, unescape?_escape, Option.map_some,
    String.ofList_toList]

section Items

variable {item cs rest : List Char}

theorem quotedEscapeLetter?_eq_some {c letter : Char} (h : quotedEscapeLetter? c = some letter) :
    escaped? letter = some c := by
  rw [quotedEscapeLetter?] at h
  split at h
  · next hquote =>
    cases h
    rw [hquote]
    rfl
  · exact escapeLetter?_eq_some h

theorem readItems?_inside_cons {c : Char} (h : quotedEscapeLetter? c = none) :
    readItems? (.inside item) (c :: cs) = readItems? (.inside (item ++ [c])) cs := by
  rw [quotedEscapeLetter?] at h
  split at h
  · cases h
  · next hquote =>
    have hraw := isEscaped_eq_false h
    rw [readItems?.eq_def]
    split
    case h_4 heq =>
      cases heq
      exact absurd rfl hquote
    case h_5 heq =>
      cases heq
      exact absurd rfl (ne_backslash hraw)
    case h_6 heq₁ heq₂ =>
      cases heq₁
      cases heq₂
      rw [if_neg (by simp [hraw])]
    case h_9 hinside _ _ => exact (hinside _ _ _ rfl rfl).elim
    all_goals contradiction

theorem readItems?_inside (cs item rest : List Char) :
    readItems? (.inside item) (escapeWith quotedEscapeLetter? cs ++ '\'' :: rest) =
      (readItems? .after rest).map ((item ++ cs) :: ·) := by
  induction cs generalizing item with
  | nil =>
    rw [List.append_nil]
    rfl
  | cons c cs ih =>
    rw [escapeWith]
    cases hletter : quotedEscapeLetter? c with
    | none =>
      simp only [List.cons_append]
      rw [readItems?_inside_cons hletter, ih, List.append_assoc, List.singleton_append]
    | some letter =>
      simp only [List.cons_append]
      rw [readItems?, quotedEscapeLetter?_eq_some hletter, Option.bind_some, ih, List.append_assoc,
        List.singleton_append]

theorem toList_quoteItem (s : String) :
    (quoteItem s).toList = '\'' :: (escapeWith quotedEscapeLetter? s.toList ++ ['\'']) := by
  simp [quoteItem]

theorem readItems?_quoteItem {stage : ItemStage} (h : stage = .first ∨ stage = .next) (s : String)
    (rest : List Char) :
    readItems? stage ((quoteItem s).toList ++ rest) =
      (readItems? .after rest).map (s.toList :: ·) := by
  have hopen (cs : List Char) : readItems? stage ('\'' :: cs) = readItems? (.inside []) cs := by
    obtain rfl | rfl := h
    · rfl
    · rfl
  rw [toList_quoteItem, List.cons_append, hopen, List.append_assoc, List.singleton_append,
    readItems?_inside, List.nil_append]

theorem readItems?_items {stage : ItemStage} (h : stage = .first ∨ stage = .next) (s : String)
    (items : List String) :
    readItems? stage ((",".intercalate ((s :: items).map quoteItem)).toList ++ [']']) =
      some ((s :: items).map String.toList) := by
  induction items generalizing s stage with
  | nil =>
    rw [List.map_singleton, String.intercalate_singleton, readItems?_quoteItem h]
    rfl
  | cons s' items ih =>
    have hlist : (",".intercalate ((s :: s' :: items).map quoteItem)).toList ++ [']'] =
        (quoteItem s).toList ++
          ',' :: ((",".intercalate ((s' :: items).map quoteItem)).toList ++ [']']) := by
      simp [String.intercalate_cons_cons]
    rw [hlist, readItems?_quoteItem h]
    change (readItems? .next _).map _ = _
    rw [ih (.inr rfl)]
    rfl

@[simp] theorem arrayItems?_encode (items : List String) :
    arrayItems? (Value.textArray items).encode = some items := by
  have hlist : (Value.textArray items).encode.toList =
      '[' :: ((",".intercalate (items.map quoteItem)).toList ++ [']']) := by
    simp [Value.encode]
  rw [arrayItems?, hlist]
  cases items with
  | nil => rfl
  | cons s items =>
    simp only
    rw [readItems?_items (.inl rfl)]
    simp

end Items

namespace Value

theorem decode?_encode (v : Value) : v.type.decode? v.encode = some v := by
  cases v with
  | text s => simp [type, ValueType.decode?, encode]
  | textArray items =>
    rw [type, ValueType.decode?, arrayItems?_encode]
    rfl
  | uint64 n =>
    simp only [type, ValueType.decode?, encode, Decimal.uint64?_toString, Option.map_some]
  | dateTime literal => rfl

theorem encode_injective {v w : Value} (htype : v.type = w.type) (h : v.encode = w.encode) :
    v = w := by
  have hdecode := v.decode?_encode
  rw [htype, h, w.decode?_encode] at hdecode
  exact (Option.some.inj hdecode).symm

end Value

end QueryConsole
