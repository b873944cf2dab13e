import QueryConsole.Proofs.Json.Trees
import QueryConsole.Proofs.Statement.Decoding

namespace QueryConsole.Json

section Written

def Token.IsWritten (token : Token) : Prop :=
  ∃ cs, IsLexeme token cs

def Tree.IsWritten (t : Tree) : Prop :=
  ∀ token ∈ t.tokens, token.IsWritten

theorem Lexes.isWritten {ts : List Token} {cs : List Char} (h : Lexes ts cs) :
    ∀ token ∈ ts, token.IsWritten := by
  induction h with
  | done => exact List.forall_mem_nil _
  | token _ h _ _ ih => exact List.forall_mem_cons.mpr ⟨⟨_, h⟩, ih⟩

theorem Tree.IsWritten.text {pieces : List Piece} (h : (Tree.text pieces).IsWritten) :
    (Token.text pieces).IsWritten := by
  refine h _ ?_
  rw [Tree.tokens]
  exact List.mem_singleton_self _

theorem Tree.IsWritten.number {n : Numeral} (h : (Tree.number n).IsWritten) :
    (Token.number n).IsWritten := by
  refine h _ ?_
  rw [Tree.tokens]
  exact List.mem_singleton_self _

theorem Tree.IsWritten.item {items : List Tree} {item : Tree}
    (h : (Tree.array items true).IsWritten) (hitem : item ∈ items) : item.IsWritten :=
  fun _ htoken => h _ (mem_tokens_array hitem htoken)

section Member

variable {members : List (List Piece × Tree)} {member : List Piece × Tree}

theorem Tree.IsWritten.key (h : (Tree.object members true).IsWritten) (hmember : member ∈ members) :
    (Token.text member.1).IsWritten :=
  h _ (mem_tokens_object hmember List.mem_cons_self)

theorem Tree.IsWritten.value (h : (Tree.object members true).IsWritten)
    (hmember : member ∈ members) : member.2.IsWritten :=
  fun _ htoken => h _ (mem_tokens_object hmember (.tail _ (.tail _ htoken)))

end Member

end Written

section Strings

/-- The characters that the elements of a string stand for.  The two halves of a surrogate pair
stand for one character, and a half without the other one for none. -/
inductive StandFor : List Piece → List Char → Prop
  | nil : StandFor [] []
  | char (c : Char) {pieces : List Piece} {cs : List Char} (h : StandFor pieces cs) :
    StandFor (.char c :: pieces) (c :: cs)
  | unit (c : Char) {pieces : List Piece} {cs : List Char} (h : StandFor pieces cs) :
    StandFor (.unit c.toNat :: pieces) (c :: cs)
  | pair {c : Char} {high low : Nat} {pieces : List Piece} {cs : List Char}
    (hhigh : 0xD800 ≤ high ∧ high < 0xDC00) (hlow : 0xDC00 ≤ low ∧ low < 0xE000)
    (hc : c.toNat = 0x10000 + (high - 0xD800) * 0x400 + (low - 0xDC00)) (h : StandFor pieces cs) :
    StandFor (.unit high :: .unit low :: pieces) (c :: cs)

variable {pieces : List Piece} {cs : List Char}

theorem hexValue?_lt {c : Char} {i : Nat} (h : Text.hexValue? c = some i) : i < 16 := by
  rw [Text.hexValue?] at h
  have hle {a b : Char} (h : a ≤ b) : a.toNat ≤ b.toNat := h
  split at h
  · next hdigit =>
    cases h
    have hnine := (Char.isDigit_iff_toNat.mp hdigit).2
    simp only [Char.reduceToNat] at hnine ⊢
    omega
  · split at h
    · next hlower =>
      cases h
      have hf := hle hlower.2
      simp only [Char.reduceToNat] at hf ⊢
      omega
    · split at h
      · next hupper =>
        cases h
        have hf := hle hupper.2
        simp only [Char.reduceToNat] at hf ⊢
        omega
      · cases h

theorem code_lt {code : Nat} (h : IsCode code cs) : code < 0x10000 := by
  cases h with
  | digits ha hb hc hd =>
    have := hexValue?_lt ha
    have := hexValue?_lt hb
    have := hexValue?_lt hc
    have := hexValue?_lt hd
    omega

theorem code_lt_of_spells (h : Text.Spells IsPiece pieces cs) :
    ∀ code, .unit code ∈ pieces → code < 0x10000 := by
  induction h with
  | nil => nofun
  | cons hpiece _ ih =>
    intro code hcode
    cases hcode with
    | head =>
      cases hpiece with
      | code h => exact code_lt h
    | tail _ hcode => exact ih code hcode

theorem pieceChars?_of_standFor (h : StandFor pieces cs) : pieceChars? pieces = some cs := by
  induction h with
  | nil => rfl
  | char c _ ih => rw [pieceChars?_char, ih, Option.map_some]
  | unit c _ ih => rw [pieceChars?_unit, ih, Option.map_some]
  | pair hhigh hlow hc _ ih => rw [pieceChars?_pair hhigh hlow hc, ih, Option.map_some]

theorem toNat_ofNat {code : Nat} (h : code < 0xD800 ∨ 0xDFFF < code ∧ code < 0x110000) :
    (Char.ofNat code).toNat = code := by
  rw [Char.ofNat, dif_pos h]
  rfl

theorem standFor_map_char (cs : List Char) : StandFor (cs.map .char) cs := by
  induction cs with
  | nil => exact .nil
  | cons c cs ih => exact ih.char c

theorem standFor_unit {code : Nat} (hlt : code < 0x10000) (h : ¬(0xD800 ≤ code ∧ code < 0xE000))
    (hpieces : StandFor pieces cs) :
    StandFor (.unit code :: pieces) (Char.ofNat code :: cs) := by
  have hunit := hpieces.unit (Char.ofNat code)
  rwa [toNat_ofNat (by omega)] at hunit

theorem standFor_of_pieceChars? (hcodes : ∀ code, .unit code ∈ pieces → code < 0x10000)
    (h : pieceChars? pieces = some cs) : StandFor pieces cs := by
  induction pieces using pieceChars?.induct generalizing cs with
  | case1 =>
    cases h
    exact .nil
  | case2 c pieces ih =>
    rw [pieceChars?, Option.map_eq_some_iff] at h
    obtain ⟨cs, hcs, rfl⟩ := h
    exact .char c (ih (fun code hcode => hcodes code (.tail _ hcode)) hcs)
  | case3 pieces => cases h
  | case4 high low pieces hhigh hlow ih =>
    rw [pieceChars?, if_pos hhigh, if_pos hlow, Option.map_eq_some_iff] at h
    obtain ⟨cs, hcs, rfl⟩ := h
    refine .pair hhigh hlow (toNat_ofNat (by omega))
      (ih (fun code hcode => hcodes code (.tail _ (.tail _ hcode))) hcs)
  | case5 high low pieces hhigh hlow =>
    rw [pieceChars?, if_pos hhigh, if_neg hlow] at h
    cases h
  | case6 high low pieces hhigh hlow =>
    rw [pieceChars?, if_neg hhigh, if_pos hlow] at h
    cases h
  | case7 high low pieces hhigh hlow ih =>
    rw [pieceChars?, if_neg hhigh, if_neg hlow, Option.map_eq_some_iff] at h
    obtain ⟨cs, hcs, rfl⟩ := h
    exact standFor_unit (hcodes high List.mem_cons_self) (by omega)
      (ih (fun code hcode => hcodes code (.tail _ hcode)) hcs)
  | case8 code pieces hnext hsurrogate =>
    rw [pieceChars?, if_pos hsurrogate] at h
    · cases h
    · exact hnext
  | case9 code pieces hnext hsurrogate ih =>
    rw [pieceChars?, if_neg hsurrogate, Option.map_eq_some_iff] at h
    · obtain ⟨cs, hcs, rfl⟩ := h
      exact standFor_unit (hcodes code List.mem_cons_self) hsurrogate
        (ih (fun code hcode => hcodes code (.tail _ hcode)) hcs)
    · exact hnext

theorem standFor_spells {text : List Char} (h : Text.Spells IsSpelling text cs) :
    ∃ pieces, StandFor pieces text ∧ Text.Spells IsPiece pieces cs := by
  induction h with
  | nil => exact ⟨[], .nil, .nil⟩
  | @cons c _ _ _ hc _ ih =>
    obtain ⟨pieces, hstand, hspells⟩ := ih
    cases hc with
    | plain hcontrol hquote hbackslash =>
      exact ⟨_, hstand.char c, .cons (.plain hcontrol hquote hbackslash) hspells⟩
    | letter h => exact ⟨_, hstand.char c, .cons (.letter h) hspells⟩
    | code h => exact ⟨_, hstand.unit c, .cons (.code h) hspells⟩
    | pair h h' hhigh hlow hc =>
      refine ⟨_, .pair hhigh hlow hc hstand, ?_⟩
      rw [List.append_assoc]
      exact .cons (.code h) (.cons (.code h') hspells)

theorem pieceText?_eq_some {s : String} (h : (Token.text pieces).IsWritten) :
    pieceText? pieces = some s ↔ StandFor pieces s.toList := by
  obtain ⟨_, hlexeme⟩ := h
  cases hlexeme with
  | text hspells =>
    rw [pieceText?, Option.map_eq_some_iff]
    constructor
    · rintro ⟨cs, hcs, rfl⟩
      rw [String.toList_ofList]
      exact standFor_of_pieceChars? (code_lt_of_spells hspells) hcs
    · intro hstand
      exact ⟨s.toList, pieceChars?_of_standFor hstand, String.ofList_toList⟩

end Strings

section Numbers

inductive Numeral.IsInteger : Numeral → Int → Prop
  | natural (digits : List Char) :
    IsInteger ⟨false, digits, none, none⟩ (Nat.ofDigitChars 10 digits 0)
  | negative (digits : List Char) :
    IsInteger ⟨true, digits, none, none⟩ (-Nat.ofDigitChars 10 digits 0)

/-- An integer that 64 bits hold, with a sign or without one; minus zero is none of them. -/
structure Numeral.IsInteger64 (n : Numeral) (value : Int) : Prop where
  isInteger : n.IsInteger value
  least : -0x8000000000000000 ≤ value
  greatest : value < 0x10000000000000000
  minusZero : n.negative = true → value ≠ 0

variable {n : Numeral} {value : Int}

theorem areDigits_whole {cs : List Char} (h : IsNumeral n cs) : AreDigits n.whole := by
  cases h with
  | parts hwhole =>
    cases hwhole with
    | zero => exact List.forall_mem_singleton.mpr rfl
    | digits hdigit _ hcs => exact List.forall_mem_cons.mpr ⟨hdigit, hcs⟩

theorem isInteger_iff :
    n.IsInteger value ↔ n.fraction = none ∧ n.exponent = none ∧
      value = if n.negative = true then -(Nat.ofDigitChars 10 n.whole 0 : Int)
        else Nat.ofDigitChars 10 n.whole 0 := by
  constructor
  · rintro (_ | _) <;> exact ⟨rfl, rfl, rfl⟩
  · obtain ⟨negative, whole, fraction, exponent⟩ := n
    rintro ⟨rfl, rfl, rfl⟩
    cases negative with
    | false => exact .natural whole
    | true => exact .negative whole

theorem isInteger64_iff :
    n.IsInteger64 value ↔ (n.fraction = none ∧ n.exponent = none) ∧
      (n.negative = false ∧ Nat.ofDigitChars 10 n.whole 0 < 0x10000000000000000 ∧
          value = Nat.ofDigitChars 10 n.whole 0 ∨
        n.negative = true ∧ 0 < Nat.ofDigitChars 10 n.whole 0 ∧
          Nat.ofDigitChars 10 n.whole 0 ≤ 0x8000000000000000 ∧
            value = -Nat.ofDigitChars 10 n.whole 0) := by
  constructor
  · rintro ⟨hinteger, hleast, hgreatest, hminusZero⟩
    obtain ⟨hfraction, hexponent, hvalue⟩ := isInteger_iff.mp hinteger
    refine ⟨⟨hfraction, hexponent⟩, ?_⟩
    cases hnegative : n.negative with
    | false =>
      rw [hnegative, if_neg Bool.false_ne_true] at hvalue
      exact .inl ⟨rfl, by omega, hvalue⟩
    | true =>
      have hne := hminusZero hnegative
      rw [hnegative, if_pos rfl] at hvalue
      exact .inr ⟨rfl, by omega, by omega, hvalue⟩
  · rintro ⟨⟨hfraction, hexponent⟩, ⟨hnegative, hlt, hvalue⟩ | ⟨hnegative, hpos, hle, hvalue⟩⟩
    · refine ⟨isInteger_iff.mpr ⟨hfraction, hexponent, ?_⟩, by omega, by omega, ?_⟩
      · rw [hnegative, if_neg Bool.false_ne_true, hvalue]
      · rw [hnegative]
        nofun
    · refine ⟨isInteger_iff.mpr ⟨hfraction, hexponent, ?_⟩, by omega, by omega, fun _ => by omega⟩
      rw [hnegative, if_pos rfl, hvalue]

theorem number?_eq (h : (Token.number n).IsWritten) :
    (∃ value, n.IsInteger64 value ∧ n.number? = some (.integer value)) ∨
      (∀ value, ¬n.IsInteger64 value) ∧ n.number? = n.double?.map .double := by
  obtain ⟨_, hlexeme⟩ := h
  cases hlexeme with
  | number hnumeral =>
    have hvalue : (Decimal.ofDigits 0 n.whole).getD 0 = Nat.ofDigitChars 10 n.whole 0 := by
      rw [Decimal.ofDigits_eq (areDigits_whole hnumeral), Option.getD_some]
    have hsize : UInt64.size = 0x10000000000000000 := rfl
    have hpow : Nat.pow 2 63 = 0x8000000000000000 := rfl
    simp only [Numeral.number?, hvalue, hsize, hpow, Option.isNone_iff_eq_none]
    split
    · next hnatural =>
      obtain ⟨hfraction, hexponent, hnegative, hlt⟩ := hnatural
      exact .inl ⟨_, isInteger64_iff.mpr ⟨⟨hfraction, hexponent⟩, .inl ⟨hnegative, hlt, rfl⟩⟩, rfl⟩
    · next hnatural =>
      split
      · next hminus =>
        obtain ⟨hfraction, hexponent, hnegative, hpos, hle⟩ := hminus
        exact .inl ⟨_, isInteger64_iff.mpr
          ⟨⟨hfraction, hexponent⟩, .inr ⟨hnegative, hpos, hle, rfl⟩⟩, rfl⟩
      · next hminus =>
        refine .inr ⟨fun value hinteger => ?_, rfl⟩
        obtain ⟨⟨hfraction, hexponent⟩, ⟨hnegative, hlt, -⟩ | ⟨hnegative, hpos, hle, -⟩⟩ :=
          isInteger64_iff.mp hinteger
        · exact hnatural ⟨hfraction, hexponent, hnegative, hlt⟩
        · exact hminus ⟨hfraction, hexponent, hnegative, hpos, hle⟩

theorem Numeral.IsInteger64.unique {value' : Int} (h : n.IsInteger64 value)
    (h' : n.IsInteger64 value') : value = value' := by
  obtain ⟨-, -, hvalue⟩ := isInteger_iff.mp h.isInteger
  obtain ⟨-, -, hvalue'⟩ := isInteger_iff.mp h'.isInteger
  rw [hvalue, hvalue']

theorem number?_eq_integer (h : (Token.number n).IsWritten) :
    n.number? = some (.integer value) ↔ n.IsInteger64 value := by
  obtain ⟨value', hinteger, hnumber⟩ | ⟨hnone, hnumber⟩ := number?_eq h
  · rw [hnumber, Option.some_inj, JsonNumber.integer.injEq]
    exact ⟨fun heq => heq ▸ hinteger, fun h => hinteger.unique h⟩
  · rw [hnumber]
    exact ⟨fun heq => by simp at heq, fun h => (hnone value h).elim⟩

theorem number?_eq_double {x : Decimal.Double} (h : (Token.number n).IsWritten) :
    n.number? = some (.double x) ↔ (∀ value, ¬n.IsInteger64 value) ∧ n.double? = some x := by
  obtain ⟨value', hinteger, hnumber⟩ | ⟨hnone, hnumber⟩ := number?_eq h
  · rw [hnumber]
    exact ⟨nofun, fun h => (h.1 value' hinteger).elim⟩
  · rw [hnumber]
    simp [hnone]

end Numbers

end QueryConsole.Json
