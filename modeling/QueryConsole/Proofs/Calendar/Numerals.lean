import Mathlib.Algebra.Group.Nat.Defs
import QueryConsole.Calendar.Literal
import QueryConsole.Proofs.Text.Trim

namespace QueryConsole.Calendar

structure IsNumeral (ds : List Char) (n : Nat) : Prop where
  ne_nil : ds ≠ []
  isDigit : ∀ c ∈ ds, c.isDigit = true
  value : digitsValue ds = n

def EndsNumeral (rest : List Char) : Prop :=
  ∀ c ∈ rest.head?, c.isDigit = false

variable {ds es rest : List Char} {n : Nat}

theorem digitsValue_append (ds es : List Char) :
    digitsValue (ds ++ es) = digitsValue ds * 10 ^ es.length + digitsValue es := by
  have happend := Nat.ofDigitChars_append (b := 10) (l := ds) (m := es) 0
  rw [Nat.ofDigitChars_eq_ofDigitChars_zero (l := es), Nat.mul_comm] at happend
  exact happend

theorem digitsValue_lt (h : ∀ c ∈ ds, c.isDigit = true) : digitsValue ds < 10 ^ ds.length := by
  induction ds with
  | nil => exact Nat.zero_lt_one
  | cons c ds ih =>
    rw [List.forall_mem_cons] at h
    have hsplit := digitsValue_append [c] ds
    have hdigit : digitsValue [c] ≤ 9 := by
      have hrange : 48 ≤ c.toNat ∧ c.toNat ≤ 57 := Char.isDigit_iff_toNat.mp h.1
      show 10 * 0 + (c.toNat - 48) ≤ 9
      omega
    have hpow : digitsValue [c] * 10 ^ ds.length ≤ 9 * 10 ^ ds.length :=
      Nat.mul_le_mul_right _ hdigit
    rw [List.singleton_append] at hsplit
    rw [hsplit, List.length_cons, Nat.pow_succ]
    have := ih h.2
    omega

section Padded

variable {width : Nat}

theorem toList_padded (width n : Nat) : (padded width n).toList =
    List.replicate (width - (Nat.toDigits 10 n).length) '0' ++ Nat.toDigits 10 n := by
  simp only [padded, Nat.toString_eq_ofList_toDigits, String.length_ofList, String.toList_append,
    String.toList_ofList]

theorem isNumeral_padded (width n : Nat) : IsNumeral (padded width n).toList n := by
  rw [toList_padded]
  constructor
  · simp [Nat.toDigits_ne_nil]
  · intro c hc
    rcases List.mem_append.mp hc with hzero | hdigit
    · rw [List.eq_of_mem_replicate hzero]
      rfl
    · exact Nat.isDigit_of_mem_toDigits (by decide) (by decide) hdigit
  · show Nat.ofDigitChars 10 _ 0 = n
    rw [Nat.ofDigitChars_append, Nat.ofDigitChars_replicate_zero, Nat.mul_zero,
      Nat.ofDigitChars_ten_toDigits]

theorem length_padded (hwidth : 0 < width) (h : n < 10 ^ width) :
    (padded width n).toList.length = width := by
  have hlength := (Nat.length_toDigits_le_iff (by decide) hwidth).mpr h
  rw [toList_padded, List.length_append, List.length_replicate]
  omega

end Padded

theorem isBlank_eq_false_of_isDigit {c : Char} (h : c.isDigit = true) : Text.isBlank c = false :=
  Text.isBlank_eq_false_of_isWordChar (by simp [Text.isWordChar, Char.isAlphanum, h])

theorem IsNumeral.exists_cons (h : IsNumeral ds n) : ∃ c cs, ds = c :: cs ∧ c.isDigit = true := by
  obtain ⟨c, cs, rfl⟩ := List.exists_cons_of_ne_nil h.ne_nil
  exact ⟨c, cs, rfl, h.isDigit c List.mem_cons_self⟩

@[simp] theorem IsNumeral.dropWhile_isBlank (h : IsNumeral ds n) :
    (ds ++ rest).dropWhile Text.isBlank = ds ++ rest := by
  obtain ⟨c, cs, rfl, hdigit⟩ := h.exists_cons
  rw [List.cons_append,
    List.dropWhile_cons_of_neg (by simp [isBlank_eq_false_of_isDigit hdigit])]

theorem takeWhile_isDigit (h : ∀ c ∈ ds, c.isDigit = true) (hends : EndsNumeral rest) :
    (ds ++ rest).takeWhile Char.isDigit = ds := by
  rw [List.takeWhile_append_of_pos h]
  cases rest with
  | nil => simp
  | cons c cs =>
    rw [List.takeWhile_cons_of_neg (by simp [hends c rfl]), List.append_nil]

theorem takeFull_numeral (h : IsNumeral ds n) (rest : List Char) :
    takeFull ds.length (ds ++ rest) = some (n, rest) := by
  have hdigits : ds.all Char.isDigit = true := List.all_eq_true.mpr h.isDigit
  rw [takeFull]
  simp [hdigits, h.value]

theorem takeFull_lt {width : Nat} {cs : List Char} (h : takeFull width cs = some (n, rest)) :
    n < 10 ^ width := by
  rw [takeFull] at h
  split at h
  · next hdigits =>
    cases h
    have hlt := digitsValue_lt (List.all_eq_true.mp hdigits.2)
    rwa [hdigits.1] at hlt
  · cases h

theorem takeNumber_numeral {most : Nat} (h : IsNumeral ds n) (hmost : ds.length ≤ most)
    (hends : ds.length = most ∨ EndsNumeral rest) :
    takeNumber most (ds ++ rest) = some (n, rest) := by
  have htake : ((ds ++ rest).take most).takeWhile Char.isDigit = ds := by
    rw [List.take_append, List.take_of_length_le hmost]
    apply takeWhile_isDigit h.isDigit
    rcases hends with hfull | hends
    · intro c hc
      simp [hfull] at hc
    · intro c hc
      exact hends c (by
        cases rest with
        | nil => simp at hc
        | cons d rest =>
          cases hroom : most - ds.length with
          | zero => simp [hroom] at hc
          | succ room => simpa [hroom] using hc)
  have hne : ds.isEmpty = false := by simpa using h.ne_nil
  rw [takeNumber]
  simp [htake, hne, h.value]

theorem takeNumber_two (h : IsNumeral ds n) (hlength : ds.length = 2) :
    takeNumber 2 (ds ++ rest) = some (n, rest) :=
  takeNumber_numeral h (Nat.le_of_eq hlength) (.inl hlength)

theorem takeYear_of_isDigit {c : Char} {cs : List Char} (h : c.isDigit = true) :
    takeYear (c :: cs) = (takeNumber 4 (c :: cs)).map fun (n, rest) => (n, rest) := by
  apply takeYear.eq_3
  · rintro _ ⟨⟩
    exact absurd h (by decide)
  · rintro _ ⟨⟩
    exact absurd h (by decide)

theorem takeYear_yearText (year : Int) (hends : EndsNumeral rest) :
    takeYear ((yearText year).toList ++ rest) = some (year, rest) := by
  have hsigned (n : Nat) : takeNumber ((padded 4 n).toList ++ rest).length
      ((padded 4 n).toList ++ rest) = some (n, rest) :=
    takeNumber_numeral (isNumeral_padded 4 n) (by simp) (.inr hends)
  rw [yearText]
  split
  · next hfour =>
    have hnumeral := isNumeral_padded 4 year.toNat
    have hlength : (padded 4 year.toNat).toList.length = 4 := length_padded (by decide) (by omega)
    have hread : takeNumber 4 ((padded 4 year.toNat).toList ++ rest) = some (year.toNat, rest) :=
      takeNumber_numeral hnumeral (Nat.le_of_eq hlength) (.inl hlength)
    obtain ⟨c, cs, hcs, hdigit⟩ := hnumeral.exists_cons
    rw [hcs, List.cons_append] at hread ⊢
    simp only [takeYear_of_isDigit hdigit, hread, Option.map_some, Int.toNat_of_nonneg hfour.1]
  · split
    · next hpositive =>
      have hsign : ("+" ++ padded 4 year.toNat).toList = '+' :: (padded 4 year.toNat).toList := by
        simp
      simp only [hsign, List.cons_append, takeYear, hsigned, Option.map_some,
        Int.toNat_of_nonneg hpositive]
    · next hnegative =>
      have hsign : ("-" ++ padded 4 year.natAbs).toList = '-' :: (padded 4 year.natAbs).toList := by
        simp
      have hvalue : -(year.natAbs : Int) = year := by omega
      simp only [hsign, List.cons_append, takeYear, hsigned, Option.map_some, hvalue]

section Fraction

inductive IsFraction : Nat → List Char → Prop
  | none : IsFraction 0 []
  | digits {nanos : Nat} {ds : List Char} (hne : ds ≠ []) (hdigits : ∀ c ∈ ds, c.isDigit = true)
    (hvalue : digitsValue ds * nanosPerSecond = nanos * 10 ^ ds.length) :
    IsFraction nanos ('.' :: ds)

theorem takeNanos_lt {cs : List Char} (h : takeNanos cs = some (n, rest)) : n < nanosPerSecond := by
  rw [takeNanos] at h
  split at h
  · cases h
  · cases h
    have hdigits : ∀ c ∈ (cs.takeWhile Char.isDigit).take 9, c.isDigit = true := fun c hc =>
      List.all_eq_true.mp List.all_takeWhile c (List.mem_of_mem_take hc)
    have hlength : ((cs.takeWhile Char.isDigit).take 9).length ≤ 9 :=
      List.length_take_le 9 _
    calc
      _ < 10 ^ ((cs.takeWhile Char.isDigit).take 9).length *
          10 ^ (9 - ((cs.takeWhile Char.isDigit).take 9).length) :=
        Nat.mul_lt_mul_of_pos_right (digitsValue_lt hdigits) (Nat.pow_pos (by decide))
      _ = 10 ^ 9 := by rw [← Nat.pow_add, Nat.add_sub_of_le hlength]

theorem takeNanos_digits {nanos : Nat} (hne : ds ≠ []) (hdigits : ∀ c ∈ ds, c.isDigit = true)
    (hvalue : digitsValue ds * nanosPerSecond = nanos * 10 ^ ds.length)
    (hends : EndsNumeral rest) : takeNanos (ds ++ rest) = some (nanos, rest) := by
  have hnanos : digitsValue (ds.take 9) * 10 ^ (9 - (ds.take 9).length) = nanos := by
    change digitsValue ds * 10 ^ 9 = _ at hvalue
    rcases Nat.le_total ds.length 9 with hshort | hlong
    · rw [List.take_of_length_le hshort]
      have hpow : (10 : Nat) ^ 9 = 10 ^ (9 - ds.length) * 10 ^ ds.length := by
        rw [← Nat.pow_add, Nat.sub_add_cancel hshort]
      rw [hpow, ← Nat.mul_assoc] at hvalue
      exact Nat.eq_of_mul_eq_mul_right (Nat.pow_pos (by decide)) hvalue
    · have hsplit := digitsValue_append (ds.take 9) (ds.drop 9)
      have hlow : digitsValue (ds.drop 9) < 10 ^ (ds.drop 9).length :=
        digitsValue_lt fun c hc => hdigits c (List.mem_of_mem_drop hc)
      have hpow : (10 : Nat) ^ ds.length = 10 ^ (ds.drop 9).length * 10 ^ 9 := by
        rw [← Nat.pow_add, List.length_drop, Nat.sub_add_cancel hlong]
      rw [List.take_append_drop] at hsplit
      rw [hpow, ← Nat.mul_assoc] at hvalue
      have hscaled := Nat.eq_of_mul_eq_mul_right (Nat.pow_pos (by decide)) hvalue
      have hkept : (ds.take 9).length = 9 := by simp [hlong]
      have hdiv := congrArg (· / 10 ^ (ds.drop 9).length) (hsplit.symm.trans hscaled)
      rw [Nat.mul_div_cancel _ (Nat.pow_pos (by decide)), Nat.mul_comm,
        Nat.mul_add_div (Nat.pow_pos (by decide)), Nat.div_eq_of_lt hlow] at hdiv
      rw [hkept]
      simpa using hdiv
  have hempty : ds.isEmpty = false := by simpa using hne
  rw [takeNanos]
  simp only [takeWhile_isDigit hdigits hends, hempty, Bool.false_eq_true, if_false,
    List.drop_left]
  exact congrArg (fun n => some (n, rest)) hnanos

end Fraction

end QueryConsole.Calendar
