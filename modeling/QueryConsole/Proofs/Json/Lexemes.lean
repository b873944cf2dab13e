import QueryConsole.Proofs.Json.Spelling
import Mathlib.Data.List.Basic

/-! The lexical grammar of JSON.  A text is the lexemes of its tokens with blank space around them,
and the scanner finds the tokens of every such text and breaks off in any other. -/

namespace QueryConsole.Json

section Grammar

inductive IsPiece : Piece → List Char → Prop
  | plain {c : Char} (hcontrol : 0x20 ≤ c.toNat) (hquote : c ≠ '"') (hbackslash : c ≠ '\\') :
    IsPiece (.char c) [c]
  | letter {c letter : Char} (h : escapedChar? letter = some c) : IsPiece (.char c) ['\\', letter]
  | code {code : Nat} {digits : List Char} (h : IsCode code digits) :
    IsPiece (.unit code) ('\\' :: 'u' :: digits)

def AreDigits (cs : List Char) : Prop :=
  ∀ c ∈ cs, c.isDigit = true

/-- The digits before the point: none but a single zero starts with a zero. -/
inductive IsWhole : List Char → Prop
  | zero : IsWhole ['0']
  | digits {c : Char} {cs : List Char} (hdigit : c.isDigit = true) (hzero : c ≠ '0')
    (hcs : AreDigits cs) : IsWhole (c :: cs)

inductive IsFraction : Option (List Char) → List Char → Prop
  | absent : IsFraction none []
  | point {ds : List Char} (hne : ds ≠ []) (h : AreDigits ds) : IsFraction (some ds) ('.' :: ds)

inductive IsExponentSign : Bool → List Char → Prop
  | absent : IsExponentSign false []
  | plus : IsExponentSign false ['+']
  | minus : IsExponentSign true ['-']

inductive IsExponent : Option (Bool × List Char) → List Char → Prop
  | absent : IsExponent none []
  | mark {mark : Char} {negative : Bool} {sign ds : List Char} (hmark : mark = 'e' ∨ mark = 'E')
    (hsign : IsExponentSign negative sign) (hne : ds ≠ []) (h : AreDigits ds) :
    IsExponent (some (negative, ds)) (mark :: (sign ++ ds))

def minus (negative : Bool) : List Char :=
  if negative then ['-'] else []

inductive IsNumeral : Numeral → List Char → Prop
  | parts {negative : Bool} {whole : List Char} {fraction : Option (List Char)}
    {exponent : Option (Bool × List Char)} {cs es : List Char} (hwhole : IsWhole whole)
    (hfraction : IsFraction fraction cs) (hexponent : IsExponent exponent es) :
    IsNumeral ⟨negative, whole, fraction, exponent⟩ (minus negative ++ (whole ++ (cs ++ es)))

inductive IsLexeme : Token → List Char → Prop
  | openArray : IsLexeme .openArray ['[']
  | closeArray : IsLexeme .closeArray [']']
  | openObject : IsLexeme .openObject ['\x7b']
  | closeObject : IsLexeme .closeObject ['\x7d']
  | comma : IsLexeme .comma [',']
  | colon : IsLexeme .colon [':']
  | null : IsLexeme .null ['n', 'u', 'l', 'l']
  | true : IsLexeme (.bool true) ['t', 'r', 'u', 'e']
  | false : IsLexeme (.bool false) ['f', 'a', 'l', 's', 'e']
  | number {n : Numeral} {cs : List Char} (h : IsNumeral n cs) : IsLexeme (.number n) cs
  | text {pieces : List Piece} {cs : List Char} (h : Text.Spells IsPiece pieces cs) :
    IsLexeme (.text pieces) ('"' :: (cs ++ ['"']))

def EndsNumber : List Char → Prop
  | [] => True
  | c :: _ => c.isDigit = false ∧ c ≠ '.' ∧ c ≠ 'e' ∧ c ≠ 'E'

/-- A number is as long as it can be; any other token ends by itself. -/
def Token.EndsBefore : Token → List Char → Prop
  | .number _, rest => EndsNumber rest
  | _, _ => True

/-- The lexemes of the tokens, with blank space around them. -/
inductive Lexes : List Token → List Char → Prop
  | done {space : List Char} (h : Spaces space) : Lexes [] space
  | token {token : Token} {tokens : List Token} {space lexeme rest : List Char}
    (hspace : Spaces space) (h : IsLexeme token lexeme) (hends : token.EndsBefore rest)
    (hrest : Lexes tokens rest) : Lexes (token :: tokens) (space ++ (lexeme ++ rest))

end Grammar

section Scan

variable {c : Char} {cs rest : List Char} {n : Numeral} {stage : NumeralStage}

theorem scan_isPiece {piece : Piece} (h : IsPiece piece cs) (before : List Piece) :
    (Mode.text before).scan (cs ++ rest) = (Mode.text (piece :: before)).scan rest := by
  cases h with
  | plain hcontrol hquote hbackslash => exact scan_plain hcontrol hquote hbackslash
  | letter h => exact scan_letter h
  | code h => exact scan_code h

theorem scan_pieces {pieces : List Piece} (h : Text.Spells IsPiece pieces cs)
    (before : List Piece) :
    (Mode.text before).scan (cs ++ rest) = (Mode.text (pieces.reverse ++ before)).scan rest := by
  induction h generalizing before with
  | nil => rfl
  | cons hpiece _ ih =>
    rw [List.append_assoc, scan_isPiece hpiece, ih, List.reverse_cons, List.append_assoc,
      List.singleton_append]

theorem scan_number {stage' : NumeralStage} {n' : Numeral}
    (h : stage.next? n c = some (stage', n')) :
    (Mode.number stage n).scan (c :: cs) = (Mode.number stage' n').scan cs := by
  rw [Mode.scan, Mode.step, h]
  rfl

theorem next?_of_endsNumber (hcomplete : stage.complete = true)
    (h : EndsNumber (c :: cs)) : stage.next? n c = none := by
  obtain ⟨hdigit, hpoint, hlower, hupper⟩ := h
  cases stage with
  | sign | point | mark | markSign => cases hcomplete
  | zero | whole | fraction | exponent =>
    simp [NumeralStage.next?, NumeralStage.next?.afterWhole, NumeralStage.next?.afterFraction,
      hdigit, hpoint, hlower, hupper]

theorem scan_number_ends (hcomplete : stage.complete = true)
    (h : EndsNumber rest) :
    (Mode.number stage n).scan rest = .number n :: Mode.between.scan rest := by
  cases rest with
  | nil => rw [Mode.scan, Mode.finish, if_pos hcomplete]; rfl
  | cons c cs =>
    rw [Mode.scan, Mode.step, next?_of_endsNumber hcomplete h]
    simp only
    rw [if_neg (by simp [h.1]), if_pos hcomplete]
    rfl

theorem scan_digits {add : Numeral → Char → Numeral}
    (hstage : ∀ n c, c.isDigit = true → stage.next? n c = some (stage, add n c)) {ds : List Char}
    (h : AreDigits ds) :
    (Mode.number stage n).scan (ds ++ rest) = (Mode.number stage (ds.foldl add n)).scan rest := by
  induction ds generalizing n with
  | nil => rfl
  | cons d ds ih =>
    rw [AreDigits, List.forall_mem_cons] at h
    rw [List.cons_append, scan_number (hstage n d h.1), ih h.2, List.foldl_cons]

theorem foldl_addWhole (ds : List Char) (negative : Bool) (whole : List Char) :
    ds.foldl Numeral.addWhole ⟨negative, whole, none, none⟩ =
      ⟨negative, whole ++ ds, none, none⟩ := by
  induction ds generalizing whole with
  | nil => rw [List.append_nil]; rfl
  | cons d ds ih =>
    rw [List.foldl_cons, Numeral.addWhole, ih, List.append_assoc, List.singleton_append]

theorem foldl_addFraction (ds : List Char) (negative : Bool) (whole fraction : List Char) :
    ds.foldl Numeral.addFraction ⟨negative, whole, some fraction, none⟩ =
      ⟨negative, whole, some (fraction ++ ds), none⟩ := by
  induction ds generalizing fraction with
  | nil => rw [List.append_nil]; rfl
  | cons d ds ih =>
    rw [List.foldl_cons, Numeral.addFraction, Option.getD_some, ih, List.append_assoc,
      List.singleton_append]

theorem foldl_addExponent (ds : List Char) (negative : Bool) (whole : List Char)
    (fraction : Option (List Char)) (negativeExponent : Bool) (digits : List Char) :
    ds.foldl Numeral.addExponent ⟨negative, whole, fraction, some (negativeExponent, digits)⟩ =
      ⟨negative, whole, fraction, some (negativeExponent, digits ++ ds)⟩ := by
  induction ds generalizing digits with
  | nil => rw [List.append_nil]; rfl
  | cons d ds ih =>
    rw [List.foldl_cons, Numeral.addExponent]
    simp only
    rw [ih, List.append_assoc, List.singleton_append]

section Parts

variable {negative : Bool} {whole ds es : List Char} {fraction : Option (List Char)}
  {exponent : Option (Bool × List Char)}

theorem scan_exponentDigits {negativeExponent : Bool}
    (hstage : ∀ d, d.isDigit = true →
      stage.next? n d =
        some (.exponent, ⟨negative, whole, fraction, some (negativeExponent, [d])⟩))
    (hne : ds ≠ []) (h : AreDigits ds) (hends : EndsNumber rest) :
    (Mode.number stage n).scan (ds ++ rest) =
      .number ⟨negative, whole, fraction, some (negativeExponent, ds)⟩ ::
        Mode.between.scan rest := by
  obtain ⟨d, ds, rfl⟩ := List.exists_cons_of_ne_nil hne
  rw [AreDigits, List.forall_mem_cons] at h
  have hexponent (n : Numeral) (c : Char) (hc : c.isDigit = true) :
      NumeralStage.exponent.next? n c = some (.exponent, n.addExponent c) := by
    rw [NumeralStage.next?, if_pos hc]
  rw [List.cons_append, scan_number (hstage d h.1), scan_digits hexponent h.2, foldl_addExponent,
    scan_number_ends rfl hends, List.singleton_append]

theorem scan_exponent (hcomplete : stage.complete = true)
    (hstage : ∀ n mark, mark = 'e' ∨ mark = 'E' → stage.next? n mark = some (.mark, n))
    (h : IsExponent exponent es) (hends : EndsNumber rest) :
    (Mode.number stage ⟨negative, whole, fraction, none⟩).scan (es ++ rest) =
      .number ⟨negative, whole, fraction, exponent⟩ :: Mode.between.scan rest := by
  cases h with
  | absent => exact scan_number_ends hcomplete hends
  | mark hmark hsign hne h =>
    have hdigit (negativeExponent : Bool) (d : Char) (hd : d.isDigit = true) :
        NumeralStage.markSign.next?
            ⟨negative, whole, fraction, some (negativeExponent, [])⟩ d =
          some (.exponent, ⟨negative, whole, fraction, some (negativeExponent, [d])⟩) := by
      rw [NumeralStage.next?, if_pos hd]
      rfl
    rw [List.cons_append, scan_number (hstage _ _ hmark), List.append_assoc]
    cases hsign with
    | absent =>
      refine scan_exponentDigits (fun d hd => ?_) hne h hends
      rw [NumeralStage.next?, if_pos hd]
      rfl
    | plus => exact scan_exponentDigits (hdigit Bool.false) hne h hends
    | minus => exact scan_exponentDigits (hdigit Bool.true) hne h hends

theorem scan_fraction (hcomplete : stage.complete = true)
    (hpoint : ∀ n, stage.next? n '.' = some (.point, { n with fraction := some [] }))
    (hmark : ∀ n mark, mark = 'e' ∨ mark = 'E' → stage.next? n mark = some (.mark, n))
    (hfraction : IsFraction fraction ds) (hexponent : IsExponent exponent es)
    (hends : EndsNumber rest) :
    (Mode.number stage ⟨negative, whole, none, none⟩).scan (ds ++ (es ++ rest)) =
      .number ⟨negative, whole, fraction, exponent⟩ :: Mode.between.scan rest := by
  cases hfraction with
  | absent => exact scan_exponent hcomplete hmark hexponent hends
  | point hne h =>
    rename_i digits
    obtain ⟨d, digits, rfl⟩ := List.exists_cons_of_ne_nil hne
    rw [AreDigits, List.forall_mem_cons] at h
    have hfirst (n : Numeral) :
        NumeralStage.point.next? n d = some (.fraction, n.addFraction d) := by
      rw [NumeralStage.next?, if_pos h.1]
    have hnext (n : Numeral) (c : Char) (hc : c.isDigit = true) :
        NumeralStage.fraction.next? n c = some (.fraction, n.addFraction c) := by
      rw [NumeralStage.next?, if_pos hc]
    have hend (n : Numeral) (mark : Char) (hmark : mark = 'e' ∨ mark = 'E') :
        NumeralStage.fraction.next? n mark = some (.mark, n) := by
      obtain rfl | rfl := hmark <;> rfl
    rw [List.cons_append, scan_number (hpoint _), List.cons_append, scan_number (hfirst _),
      scan_digits hnext h.2]
    simp only [Numeral.addFraction, Option.getD_some, List.nil_append]
    rw [foldl_addFraction, List.singleton_append]
    exact scan_exponent rfl hend hexponent hends

end Parts

theorem next?_sign (h : c.isDigit = true) (n : Numeral) :
    ∃ stage, NumeralStage.sign.next? n c = some (stage, n.addWhole c) := by
  by_cases hzero : c = '0'
  · exact ⟨.zero, by rw [NumeralStage.next?, if_pos hzero]⟩
  · exact ⟨.whole, by rw [NumeralStage.next?, if_neg hzero, if_pos h]⟩

theorem step_between_of_isDigit (h : c.isDigit = true) :
    Mode.between.step c = (Mode.number .sign (.start Bool.false)).step c := by
  obtain ⟨stage, hstage⟩ := next?_sign h (.start Bool.false)
  have hspace : isSpace c = Bool.false := by
    rw [Bool.eq_false_iff]
    intro hspace
    simp only [isSpace, Bool.or_eq_true, decide_eq_true_eq] at hspace
    obtain ((rfl | rfl) | rfl) | rfl := hspace <;> cases h
  rw [Mode.step, stepBetween, if_neg (by simp [hspace]), Mode.step, hstage]
  all_goals
    rintro rfl
    cases h

theorem scan_sign (h : c.isDigit = true) (negative : Bool) (cs : List Char) :
    Mode.between.scan (minus negative ++ c :: cs) =
      (Mode.number .sign (.start negative)).scan (c :: cs) := by
  cases negative with
  | true => rfl
  | false =>
    rw [minus, if_neg Bool.false_ne_true, List.nil_append, Mode.scan, Mode.scan,
      step_between_of_isDigit h]

theorem scan_isNumeral (h : IsNumeral n cs) (hends : EndsNumber rest) :
    Mode.between.scan (cs ++ rest) = .number n :: Mode.between.scan rest := by
  obtain ⟨hwhole, hfraction, hexponent⟩ := h
  rename_i negative whole fraction exponent ds es
  have hmark (stage : NumeralStage) (hstage : stage = .zero ∨ stage = .whole) (n : Numeral)
      (mark : Char) (hmark : mark = 'e' ∨ mark = 'E') :
      stage.next? n mark = some (.mark, n) := by
    obtain rfl | rfl := hstage <;> obtain rfl | rfl := hmark <;> rfl
  simp only [List.append_assoc]
  cases hwhole with
  | zero =>
    have hfirst : NumeralStage.sign.next? (.start negative) '0' =
        some (.zero, ⟨negative, ['0'], none, none⟩) := rfl
    rw [List.singleton_append, scan_sign rfl, scan_number hfirst]
    exact scan_fraction rfl (fun _ => rfl) (hmark .zero (.inl rfl)) hfraction hexponent hends
  | @digits c cs hdigit hzero hcs =>
    have hfirst : NumeralStage.sign.next? (.start negative) c =
        some (.whole, ⟨negative, [c], none, none⟩) := by
      rw [NumeralStage.next?, if_neg hzero, if_pos hdigit]
      rfl
    have hnext (n : Numeral) (c : Char) (hc : c.isDigit = true) :
        NumeralStage.whole.next? n c = some (.whole, n.addWhole c) := by
      rw [NumeralStage.next?, if_pos hc]
    rw [List.cons_append, scan_sign hdigit, scan_number hfirst, scan_digits hnext hcs,
      foldl_addWhole, List.singleton_append]
    exact scan_fraction rfl (fun _ => rfl) (hmark .whole (.inr rfl)) hfraction hexponent hends

theorem scan_isLexeme {token : Token} (h : IsLexeme token cs) (hends : token.EndsBefore rest) :
    Mode.between.scan (cs ++ rest) = token :: Mode.between.scan rest := by
  cases h with
  | number h => exact scan_isNumeral h hends
  | text h =>
    rw [List.cons_append, List.append_assoc]
    change (Mode.text []).scan _ = _
    rw [scan_pieces h, List.append_nil, List.singleton_append, Mode.scan, Mode.step, if_pos rfl,
      List.reverse_reverse]
    rfl
  | _ => rfl

theorem Lexes.scan {tokens : List Token} (h : Lexes tokens cs) :
    Mode.between.scan cs = tokens := by
  induction h with
  | done h =>
    have hscan := scan_spaces h []
    rw [List.append_nil] at hscan
    exact hscan
  | token hspace h hends _ ih => rw [scan_spaces hspace, scan_isLexeme h hends, ih]

end Scan

section Read

inductive NumeralStage.Holds : NumeralStage → Numeral → List Char → Prop
  | sign {negative : Bool} : Holds .sign (.start negative) (minus negative)
  | zero {negative : Bool} : Holds .zero ⟨negative, ['0'], none, none⟩ (minus negative ++ ['0'])
  | whole {negative : Bool} {c : Char} {cs : List Char} (hdigit : c.isDigit = true)
    (hzero : c ≠ '0') (hcs : AreDigits cs) :
    Holds .whole ⟨negative, c :: cs, none, none⟩ (minus negative ++ c :: cs)
  | point {negative : Bool} {whole : List Char} (hwhole : IsWhole whole) :
    Holds .point ⟨negative, whole, some [], none⟩ (minus negative ++ (whole ++ ['.']))
  | fraction {negative : Bool} {whole ds : List Char} (hwhole : IsWhole whole) (hne : ds ≠ [])
    (h : AreDigits ds) :
    Holds .fraction ⟨negative, whole, some ds, none⟩ (minus negative ++ (whole ++ '.' :: ds))
  | mark {negative : Bool} {whole cs : List Char} {fraction : Option (List Char)} {mark : Char}
    (hwhole : IsWhole whole) (hfraction : IsFraction fraction cs)
    (hmark : mark = 'e' ∨ mark = 'E') :
    Holds .mark ⟨negative, whole, fraction, none⟩ (minus negative ++ (whole ++ (cs ++ [mark])))
  | markSign {negative negativeExponent : Bool} {whole cs sign : List Char}
    {fraction : Option (List Char)} {mark : Char} (hwhole : IsWhole whole)
    (hfraction : IsFraction fraction cs) (hmark : mark = 'e' ∨ mark = 'E')
    (hsign : IsExponentSign negativeExponent sign) :
    Holds .markSign ⟨negative, whole, fraction, some (negativeExponent, [])⟩
      (minus negative ++ (whole ++ (cs ++ mark :: sign)))
  | exponent {negative negativeExponent : Bool} {whole cs sign ds : List Char}
    {fraction : Option (List Char)} {mark : Char} (hwhole : IsWhole whole)
    (hfraction : IsFraction fraction cs) (hmark : mark = 'e' ∨ mark = 'E')
    (hsign : IsExponentSign negativeExponent sign) (hne : ds ≠ []) (h : AreDigits ds) :
    Holds .exponent ⟨negative, whole, fraction, some (negativeExponent, ds)⟩
      (minus negative ++ (whole ++ (cs ++ mark :: (sign ++ ds))))

def hexValue? (value : Nat) (digits : List Char) : Option Nat :=
  digits.foldlM (fun value c => (Text.hexValue? c).map (16 * value + ·)) value

inductive Mode.Holds : Mode → List Char → Prop
  | between : Holds .between []
  | word {token : Token} {read left : List Char} (hleft : left ≠ [])
    (h : IsLexeme token (read ++ left)) (hends : ∀ rest, token.EndsBefore rest) :
    Holds (.word left token) read
  | number {stage : NumeralStage} {n : Numeral} {cs : List Char} (h : stage.Holds n cs) :
    Holds (.number stage n) cs
  | text {pieces : List Piece} {body : List Char}
    (h : Text.Spells IsPiece pieces.reverse body) : Holds (.text pieces) ('"' :: body)
  | escape {pieces : List Piece} {body : List Char}
    (h : Text.Spells IsPiece pieces.reverse body) :
    Holds (.escape pieces) ('"' :: (body ++ ['\\']))
  | code {pieces : List Piece} {body read : List Char} {left value : Nat}
    (h : Text.Spells IsPiece pieces.reverse body) (hread : hexValue? 0 read = some value)
    (hleft : 0 < left) (hlength : read.length + left = 4) :
    Holds (.code pieces left value) ('"' :: (body ++ '\\' :: 'u' :: read))

inductive Mode.Takes (c : Char) : Mode → List Char → Prop
  | space (hc : isSpace c = true) : Takes c .between []
  | goesOn {mode mode' : Mode} {cs : List Char} (hstep : mode.step c = ([], mode'))
    (h : mode'.Holds (cs ++ [c])) : Takes c mode cs
  | completes {mode : Mode} {token : Token} {cs : List Char}
    (hstep : mode.step c = ([token], .between)) (h : IsLexeme token (cs ++ [c]))
    (hends : ∀ rest, token.EndsBefore rest) : Takes c mode cs

variable {c : Char} {cs : List Char} {n n' : Numeral} {stage stage' : NumeralStage}

theorem AreDigits.concat {ds : List Char} (h : AreDigits ds) (hc : c.isDigit = true) :
    AreDigits (ds ++ [c]) := by
  rw [AreDigits, List.forall_mem_append, List.forall_mem_singleton]
  exact ⟨h, hc⟩

theorem holds_afterFraction {negative : Bool} {whole cs : List Char}
    {fraction : Option (List Char)} (hwhole : IsWhole whole) (hfraction : IsFraction fraction cs)
    (h : NumeralStage.next?.afterFraction ⟨negative, whole, fraction, none⟩ c =
      some (stage', n')) :
    stage'.Holds n' (minus negative ++ (whole ++ (cs ++ [c]))) := by
  rw [NumeralStage.next?.afterFraction] at h
  split at h
  · next hmark =>
    cases h
    exact .mark hwhole hfraction hmark
  · cases h

theorem holds_afterWhole {negative : Bool} {whole : List Char} (hwhole : IsWhole whole)
    (h : NumeralStage.next?.afterWhole ⟨negative, whole, none, none⟩ c = some (stage', n')) :
    stage'.Holds n' (minus negative ++ (whole ++ [c])) := by
  rw [NumeralStage.next?.afterWhole] at h
  split at h
  · next hpoint =>
    cases h
    rw [hpoint]
    exact .point hwhole
  · exact holds_afterFraction hwhole .absent h

theorem NumeralStage.Holds.next (hholds : stage.Holds n cs)
    (h : stage.next? n c = some (stage', n')) : stage'.Holds n' (cs ++ [c]) := by
  cases hholds with
  | sign =>
    rw [NumeralStage.next?] at h
    split at h
    · next hzero =>
      cases h
      rw [hzero]
      exact .zero
    · split at h
      · next hzero hdigit =>
        cases h
        exact .whole hdigit hzero nofun
      · cases h
  | zero =>
    rw [List.append_assoc]
    exact holds_afterWhole .zero h
  | whole hdigit hzero hcs =>
    rw [NumeralStage.next?] at h
    rw [List.append_assoc]
    split at h
    · next hc =>
      cases h
      exact .whole hdigit hzero (hcs.concat hc)
    · exact holds_afterWhole (.digits hdigit hzero hcs) h
  | point hwhole =>
    rw [NumeralStage.next?] at h
    split at h
    · next hc =>
      cases h
      rw [List.append_assoc, List.append_assoc]
      exact .fraction hwhole (List.cons_ne_nil _ _) (by simpa [AreDigits] using hc)
    · cases h
  | fraction hwhole hne hds =>
    rw [NumeralStage.next?] at h
    rw [List.append_assoc, List.append_assoc]
    split at h
    · next hc =>
      cases h
      exact .fraction hwhole (by simp) (hds.concat hc)
    · exact holds_afterFraction hwhole (.point hne hds) h
  | mark hwhole hfraction hmark =>
    rw [NumeralStage.next?] at h
    rw [List.append_assoc, List.append_assoc, List.append_assoc]
    split at h
    · next hc =>
      cases h
      exact .exponent hwhole hfraction hmark .absent (List.cons_ne_nil _ _)
        (by simpa [AreDigits] using hc)
    · split at h
      · next hplus =>
        cases h
        rw [hplus]
        exact .markSign hwhole hfraction hmark .plus
      · split at h
        · next hminus =>
          cases h
          rw [hminus]
          exact .markSign hwhole hfraction hmark .minus
        · cases h
  | markSign hwhole hfraction hmark hsign =>
    rw [NumeralStage.next?] at h
    rw [List.append_assoc, List.append_assoc, List.append_assoc]
    split at h
    · next hc =>
      cases h
      exact .exponent hwhole hfraction hmark hsign (List.cons_ne_nil _ _)
        (by simpa [AreDigits] using hc)
    · cases h
  | exponent hwhole hfraction hmark hsign hne hds =>
    rw [NumeralStage.next?] at h
    rw [List.append_assoc, List.append_assoc, List.append_assoc, List.cons_append,
      List.append_assoc]
    split at h
    · next hc =>
      cases h
      exact .exponent hwhole hfraction hmark hsign (by simp) (hds.concat hc)
    · cases h

theorem NumeralStage.Holds.isNumeral (hholds : stage.Holds n cs)
    (hcomplete : stage.complete = true) : IsNumeral n cs := by
  cases hholds with
  | sign | point | mark | markSign => cases hcomplete
  | zero => exact .parts .zero .absent .absent
  | @whole negative _ _ hdigit hzero hcs =>
    have hparts := @IsNumeral.parts negative _ _ _ _ _ (.digits hdigit hzero hcs) .absent .absent
    rwa [List.append_nil, List.append_nil] at hparts
  | @fraction negative _ _ hwhole hne h =>
    have hparts := @IsNumeral.parts negative _ _ _ _ _ hwhole (.point hne h) .absent
    rwa [List.append_nil] at hparts
  | exponent hwhole hfraction hmark hsign hne h =>
    exact .parts hwhole hfraction (.mark hmark hsign hne h)

theorem isCode_of_hexValue? {digits : List Char} {value : Nat}
    (h : hexValue? 0 digits = some value) (hlength : digits.length = 4) : IsCode value digits := by
  obtain ⟨a, b, c, d, rfl⟩ := List.length_eq_four.mp hlength
  simp only [hexValue?, List.foldlM_cons, List.foldlM_nil, Option.bind_eq_bind,
    Option.bind_eq_some_iff, Option.map_eq_some_iff, Nat.mul_zero, Nat.zero_add] at h
  obtain ⟨_, ⟨i, ha, rfl⟩, _, ⟨j, hb, rfl⟩, _, ⟨k, hc, rfl⟩, _, ⟨l, hd, rfl⟩, ⟨⟩⟩ := h
  exact .digits ha hb hc hd

theorem takes_between (hbroken : Token.broken ∉ (stepBetween c).1) :
    Mode.Takes c .between [] := by
  by_cases hspace : isSpace c = true
  · exact .space hspace
  have hstep : Mode.between.step c = stepBetween c := rfl
  rw [← hstep] at hbroken
  rw [stepBetween.eq_def, if_neg hspace] at hstep
  split at hstep
  case h_1 => exact .completes hstep .openArray fun _ => trivial
  case h_2 => exact .completes hstep .closeArray fun _ => trivial
  case h_3 => exact .completes hstep .openObject fun _ => trivial
  case h_4 => exact .completes hstep .closeObject fun _ => trivial
  case h_5 => exact .completes hstep .comma fun _ => trivial
  case h_6 => exact .completes hstep .colon fun _ => trivial
  case h_7 => exact .goesOn hstep (.text .nil)
  case h_8 => exact .goesOn hstep (.word (List.cons_ne_nil _ _) .null fun _ => trivial)
  case h_9 => exact .goesOn hstep (.word (List.cons_ne_nil _ _) .true fun _ => trivial)
  case h_10 => exact .goesOn hstep (.word (List.cons_ne_nil _ _) .false fun _ => trivial)
  case h_11 => exact .goesOn hstep (.number (@NumeralStage.Holds.sign Bool.true))
  case h_12 =>
    split at hstep
    · next hnext => exact .goesOn hstep (.number (NumeralStage.Holds.sign.next hnext))
    · rw [hstep] at hbroken
      exact absurd List.mem_cons_self hbroken

theorem endsNumber_of_next? (hcomplete : stage.complete = true) (h : stage.next? n c = none)
    (hzero : ¬(stage = .zero ∧ c.isDigit = true)) (hbroken : Token.broken ∉ (stepBetween c).1) :
    EndsNumber [c] := by
  have hdigit : c.isDigit = Bool.false := by
    rw [Bool.eq_false_iff]
    intro hdigit
    cases stage with
    | sign | point | mark | markSign => cases hcomplete
    | zero => exact hzero ⟨rfl, hdigit⟩
    | whole | fraction | exponent =>
      rw [NumeralStage.next?, if_pos hdigit] at h
      cases h
  refine ⟨hdigit, ?_, ?_, ?_⟩
  all_goals
    rintro rfl
    exact hbroken (by decide)

theorem takes_word {token : Token} {read left : List Char} (hleft : left ≠ [])
    (h : IsLexeme token (read ++ left)) (hends : ∀ rest, token.EndsBefore rest)
    (hstop : (Mode.word left token).step c ≠ stop) : (Mode.word left token).Takes c read := by
  obtain ⟨expected, left, rfl⟩ := List.exists_cons_of_ne_nil hleft
  by_cases hc : c = expected
  · subst hc
    have hstep : (Mode.word (c :: left) token).step c =
        if left.isEmpty then ([token], .between) else ([], .word left token) := if_pos rfl
    cases left with
    | nil => exact .completes hstep h hends
    | cons c' left =>
      rw [List.append_cons] at h
      exact .goesOn hstep (.word (List.cons_ne_nil _ _) h hends)
  · exact absurd (if_neg hc) hstop

section Text

variable {pieces : List Piece} {body : List Char} (h : Text.Spells IsPiece pieces.reverse body)

include h

theorem takes_text (hstop : (Mode.text pieces).step c ≠ stop) :
    (Mode.text pieces).Takes c ('"' :: body) := by
  by_cases hquote : c = '"'
  · subst hquote
    exact .completes rfl (.text h) fun _ => trivial
  by_cases hbackslash : c = '\\'
  · subst hbackslash
    exact .goesOn rfl (.escape h)
  have hstep : (Mode.text pieces).step c =
      if c.toNat < 0x20 then stop else ([], .text (.char c :: pieces)) := by
    rw [Mode.step, if_neg hquote, if_neg hbackslash]
  by_cases hcontrol : c.toNat < 0x20
  · exact absurd (hstep.trans (if_pos hcontrol)) hstop
  · have hpiece := h.concat (IsPiece.plain (Nat.le_of_not_lt hcontrol) hquote hbackslash)
    rw [← List.reverse_cons] at hpiece
    exact .goesOn (hstep.trans (if_neg hcontrol)) (.text hpiece)

theorem takes_escape (hstop : (Mode.escape pieces).step c ≠ stop) :
    (Mode.escape pieces).Takes c ('"' :: (body ++ ['\\'])) := by
  by_cases hcode : c = 'u'
  · refine .goesOn (if_pos hcode) ?_
    rw [hcode, List.cons_append, List.append_assoc]
    exact .code h rfl (by decide) rfl
  cases hplain : escapedChar? c with
  | none =>
    refine absurd ?_ hstop
    rw [Mode.step, if_neg hcode, hplain]
  | some plain =>
    have hstep : (Mode.escape pieces).step c = ([], .text (.char plain :: pieces)) := by
      rw [Mode.step, if_neg hcode, hplain]
    have hpiece := h.concat (IsPiece.letter hplain)
    rw [← List.reverse_cons] at hpiece
    refine .goesOn hstep ?_
    rw [List.cons_append, List.append_assoc]
    exact .text hpiece

theorem takes_code {read : List Char} {left value : Nat} (hread : hexValue? 0 read = some value)
    (hleft : 0 < left) (hlength : read.length + left = 4)
    (hstop : (Mode.code pieces left value).step c ≠ stop) :
    (Mode.code pieces left value).Takes c ('"' :: (body ++ '\\' :: 'u' :: read)) := by
  cases hdigit : Text.hexValue? c with
  | none =>
    refine absurd ?_ hstop
    rw [Mode.step, hdigit]
  | some digit =>
    have hread' : hexValue? 0 (read ++ [c]) = some (16 * value + digit) := by
      rw [hexValue?] at hread ⊢
      rw [List.foldlM_append, hread]
      simp [hdigit]
    have hlength' : (read ++ [c]).length = read.length + 1 := by simp
    have hstep : (Mode.code pieces left value).step c =
        if left ≤ 1 then ([], .text (.unit (16 * value + digit) :: pieces))
        else ([], .code pieces (left - 1) (16 * value + digit)) := by
      rw [Mode.step, hdigit]
    have hholds {mode : Mode} (hstep : (Mode.code pieces left value).step c = ([], mode))
        (h : mode.Holds ('"' :: (body ++ '\\' :: 'u' :: (read ++ [c])))) :
        (Mode.code pieces left value).Takes c ('"' :: (body ++ '\\' :: 'u' :: read)) := by
      refine .goesOn hstep ?_
      rwa [List.cons_append, List.append_assoc]
    by_cases hlast : left ≤ 1
    · have hpiece := h.concat (IsPiece.code (isCode_of_hexValue? hread' (by omega)))
      rw [← List.reverse_cons] at hpiece
      exact hholds (hstep.trans (if_pos hlast)) (.text hpiece)
    · exact hholds (hstep.trans (if_neg hlast)) (.code h hread' (by omega) (by omega))

end Text

theorem takes_number (h : stage.Holds n cs)
    (hbroken : Token.broken ∉ ((Mode.number stage n).step c).1) :
    (Mode.number stage n).Takes c cs ∨ IsNumeral n cs ∧ EndsNumber [c] ∧
      (Mode.number stage n).step c = (.number n :: (stepBetween c).1, (stepBetween c).2) := by
  cases hnext : stage.next? n c with
  | some next =>
    refine .inl (.goesOn ?_ (.number (h.next hnext)))
    rw [Mode.step, hnext]
  | none =>
    have hstep : (Mode.number stage n).step c =
        if stage = .zero ∧ c.isDigit = true then stop
        else if stage.complete = true then (.number n :: (stepBetween c).1, (stepBetween c).2)
        else stop := by
      rw [Mode.step, hnext]
    rw [hstep] at hbroken ⊢
    split at hbroken
    · exact absurd List.mem_cons_self hbroken
    · next hzero =>
      split at hbroken
      · next hcomplete =>
        rw [List.mem_cons, not_or] at hbroken
        rw [if_neg hzero, if_pos hcomplete]
        exact .inr ⟨h.isNumeral hcomplete, endsNumber_of_next? hcomplete hnext hzero hbroken.2, rfl⟩
      · exact absurd List.mem_cons_self hbroken

theorem Mode.Holds.takes {mode : Mode} (h : mode.Holds cs)
    (hbroken : Token.broken ∉ (mode.step c).1) :
    mode.Takes c cs ∨ ∃ n, IsNumeral n cs ∧ EndsNumber [c] ∧
      mode.step c = (.number n :: (stepBetween c).1, (stepBetween c).2) := by
  have hstop : mode.step c ≠ stop := by
    intro hstop
    rw [hstop] at hbroken
    exact hbroken List.mem_cons_self
  cases h with
  | between => exact .inl (takes_between hbroken)
  | word hleft h hends => exact .inl (takes_word hleft h hends hstop)
  | number h => exact (takes_number h hbroken).imp_right fun hends => ⟨_, hends⟩
  | text h => exact .inl (takes_text h hstop)
  | escape h => exact .inl (takes_escape h hstop)
  | code h hread hleft hlength => exact .inl (takes_code h hread hleft hlength hstop)

theorem Lexes.space {tokens : List Token} (h : Lexes tokens cs) (hc : isSpace c = true) :
    Lexes tokens (c :: cs) := by
  have hspaces {space : List Char} (h : Spaces space) : Spaces (c :: space) := by
    rw [Spaces, List.forall_mem_cons]
    exact ⟨hc, h⟩
  cases h with
  | done h => exact .done (hspaces h)
  | token hspace h hends hrest => exact .token (hspaces hspace) h hends hrest

theorem Lexes.cons {token : Token} {tokens : List Token} {lexeme rest : List Char}
    (h : IsLexeme token lexeme) (hends : token.EndsBefore rest) (hrest : Lexes tokens rest) :
    Lexes (token :: tokens) (lexeme ++ rest) :=
  .token spaces_nil h hends hrest

theorem endsNumber_cons (h : EndsNumber [c]) (cs : List Char) : EndsNumber (c :: cs) := h

theorem Mode.Holds.lexes {mode : Mode} {read : List Char} (h : mode.Holds read)
    (hbroken : Token.broken ∉ mode.scan cs) : Lexes (mode.scan cs) (read ++ cs) := by
  induction cs generalizing mode read with
  | nil =>
    rw [List.append_nil]
    rw [Mode.scan] at hbroken ⊢
    cases h with
    | between => exact .done spaces_nil
    | number h =>
      rw [Mode.finish] at hbroken ⊢
      split at hbroken
      · next hcomplete =>
        rw [if_pos hcomplete, ← List.append_nil read]
        exact .cons (.number (h.isNumeral hcomplete)) trivial (.done spaces_nil)
      · exact absurd List.mem_cons_self hbroken
    | _ => exact absurd List.mem_cons_self hbroken
  | cons c cs ih =>
    have htakes {mode : Mode} {read : List Char} (h : mode.Takes c read)
        (hbroken : Token.broken ∉ mode.scan (c :: cs)) :
        Lexes (mode.scan (c :: cs)) (read ++ c :: cs) := by
      rw [Mode.scan] at hbroken ⊢
      cases h with
      | space hc =>
        have hstep : Mode.between.step c = ([], .between) := if_pos hc
        rw [hstep, List.nil_append] at hbroken ⊢
        exact (ih .between hbroken).space hc
      | goesOn hstep h =>
        rw [hstep, List.nil_append] at hbroken ⊢
        rw [List.append_cons]
        exact ih h hbroken
      | completes hstep h hends =>
        rw [hstep] at hbroken ⊢
        rw [List.append_cons]
        rw [List.singleton_append, List.mem_cons, not_or] at hbroken
        exact .cons h (hends _) (ih .between hbroken.2)
    have hfirst : Token.broken ∉ (mode.step c).1 := by
      intro hfirst
      rw [Mode.scan] at hbroken
      exact hbroken (List.mem_append_left _ hfirst)
    obtain h | ⟨n, hn, hends, hstep⟩ := h.takes hfirst
    · exact htakes h hbroken
    · have hscan : mode.scan (c :: cs) = .number n :: Mode.between.scan (c :: cs) := by
        rw [Mode.scan, hstep]
        rfl
      rw [hscan] at hbroken ⊢
      rw [List.mem_cons, not_or] at hbroken
      rw [hstep, List.mem_cons, not_or] at hfirst
      exact .cons (.number hn) (endsNumber_cons hends cs)
        (htakes (takes_between hfirst.2) hbroken.2)

end Read

theorem Lexes.broken_notMem {ts : List Token} {cs : List Char} (h : Lexes ts cs) :
    .broken ∉ ts := by
  induction h with
  | done => exact List.not_mem_nil
  | token _ h _ _ ih =>
    rw [List.mem_cons, not_or]
    refine ⟨?_, ih⟩
    rintro rfl
    cases h

theorem tokens_eq_iff {ts : List Token} {s : String} :
    tokens s = ts ∧ .broken ∉ ts ↔ Lexes ts s.toList := by
  constructor
  · rintro ⟨rfl, hbroken⟩
    exact Mode.Holds.between.lexes hbroken
  · exact fun h => ⟨h.scan, h.broken_notMem⟩

end QueryConsole.Json
