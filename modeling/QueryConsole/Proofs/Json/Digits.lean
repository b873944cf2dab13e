import QueryConsole.Proofs.Json.Scalars

namespace QueryConsole.Json

variable {c : Char} {cs : List Char} {n : Numeral} {m : Nat}

theorem digitChar_of_isDigit (h : c.isDigit = true) : Nat.digitChar (c.toNat - '0'.toNat) = c := by
  have hrange := Char.isDigit_iff_toNat.mp h
  simp only [Char.reduceToNat] at hrange ⊢
  apply Char.toNat_inj.mp
  rw [Nat.toNat_digitChar_of_lt_ten (by omega)]
  omega

theorem toDigits_digit (h : c.isDigit = true) : Nat.toDigits 10 (c.toNat - '0'.toNat) = [c] := by
  have hrange := Char.isDigit_iff_toNat.mp h
  rw [Nat.toDigits_of_lt_base, digitChar_of_isDigit h]
  simp only [Char.reduceToNat] at hrange ⊢
  omega

theorem toDigits_append (hm : 0 < m) (h : AreDigits cs) :
    Nat.toDigits 10 m ++ cs = Nat.toDigits 10 (Nat.ofDigitChars 10 cs m) := by
  induction cs generalizing m with
  | nil => rw [List.append_nil, Nat.ofDigitChars_nil]
  | cons c cs ih =>
    rw [AreDigits, List.forall_mem_cons] at h
    have hlt : c.toNat - '0'.toNat < 10 := by
      have hrange := Char.isDigit_iff_toNat.mp h.1
      simp only [Char.reduceToNat] at hrange ⊢
      omega
    calc
      Nat.toDigits 10 m ++ c :: cs =
          Nat.toDigits 10 m ++ Nat.toDigits 10 (c.toNat - '0'.toNat) ++ cs := by
        rw [toDigits_digit h.1, List.append_assoc, List.singleton_append]
      _ = Nat.toDigits 10 (10 * m + (c.toNat - '0'.toNat)) ++ cs := by
        rw [Nat.toDigits_append_toDigits (by decide) hm hlt]
      _ = Nat.toDigits 10 (Nat.ofDigitChars 10 (c :: cs) m) := by
        rw [ih (by omega) h.2, Nat.ofDigitChars_cons]

theorem toDigits_of_isWhole (h : IsWhole cs) :
    Nat.toDigits 10 (Nat.ofDigitChars 10 cs 0) = cs := by
  cases h with
  | zero => rfl
  | @digits c cs hdigit hzero hcs =>
    have hpos : 0 < c.toNat - '0'.toNat := by
      have hrange := Char.isDigit_iff_toNat.mp hdigit
      have hne : c.toNat ≠ '0'.toNat := fun heq => hzero (Char.toNat_inj.mp heq)
      simp only [Char.reduceToNat] at hrange hne ⊢
      omega
    rw [Nat.ofDigitChars_cons, Nat.mul_zero, Nat.zero_add, ← toDigits_append hpos hcs,
      toDigits_digit hdigit, List.singleton_append]

theorem isWhole_toDigits (m : Nat) : IsWhole (Nat.toDigits 10 m) := by
  induction m using Nat.strongRecOn with
  | ind m ih =>
    rw [Nat.toDigits_eq_if (by decide)]
    split
    · next hlt =>
      have hdigit : m.digitChar.isDigit = true := by simp [Nat.isDigit_digitChar, hlt]
      by_cases hzero : m = 0
      · subst hzero
        exact .zero
      · exact .digits hdigit (by simpa using hzero) nofun
    · next hle =>
      have hdigit : (m % 10).digitChar.isDigit = true := by
        simp [Nat.isDigit_digitChar, Nat.mod_lt]
      have hbefore := ih (m / 10) (by omega)
      have hvalue : Nat.ofDigitChars 10 (Nat.toDigits 10 (m / 10)) 0 = m / 10 :=
        Nat.ofDigitChars_ten_toDigits
      cases hdigits : Nat.toDigits 10 (m / 10) with
      | nil => exact absurd hdigits Nat.toDigits_ne_nil
      | cons c cs =>
        rw [hdigits] at hbefore hvalue
        cases hbefore with
        | zero =>
          have hten : m / 10 = 0 := hvalue.symm
          omega
        | digits hc hzero hcs =>
          exact .digits hc hzero (hcs.concat hdigit)

theorem isNumeral_toDigits (m : Nat) :
    IsNumeral ⟨false, Nat.toDigits 10 m, none, none⟩ (Nat.toDigits 10 m) := by
  have hparts : IsNumeral ⟨false, Nat.toDigits 10 m, none, none⟩
      (minus false ++ (Nat.toDigits 10 m ++ ([] ++ []))) :=
    .parts (isWhole_toDigits m) .absent .absent
  simpa [minus] using hparts

theorem areDigits_toDigits (m : Nat) : AreDigits (Nat.toDigits 10 m) :=
  fun _ hc => Nat.isDigit_of_mem_toDigits (by decide) (by decide) hc

theorem isInteger64_iff_toDigits (h : IsNumeral n cs) (hm : m < UInt64.size) :
    n.IsInteger64 m ↔ cs = Nat.toDigits 10 m := by
  cases h with
  | @parts negative whole fraction exponent fs es hwhole hfraction hexponent =>
    constructor
    · intro hinteger
      obtain ⟨⟨hnone, hnone'⟩, ⟨hnegative, -, hvalue⟩ | ⟨-, hpos, -, hvalue⟩⟩ :=
        isInteger64_iff.mp hinteger
      · cases hnone
        cases hnone'
        cases hnegative
        cases hfraction
        cases hexponent
        have hvalue : m = Nat.ofDigitChars 10 whole 0 := Int.ofNat_inj.mp hvalue
        rw [hvalue, toDigits_of_isWhole hwhole]
        simp [minus]
      · simp only at hpos hvalue
        omega
    · intro hcs
      have hdigits := areDigits_toDigits m
      rw [← hcs] at hdigits
      have hno (c : Char) (hc : c ∈ minus negative ++ (whole ++ (fs ++ es)))
          (hdigit : c.isDigit = false) : False := by
        rw [hdigits c hc] at hdigit
        cases hdigit
      cases negative with
      | true => exact (hno '-' (by simp [minus]) rfl).elim
      | false =>
        cases hfraction with
        | point => exact (hno '.' (by simp) rfl).elim
        | absent =>
          cases hexponent with
          | @mark mark _ _ _ hmark =>
            refine (hno mark (by simp) ?_).elim
            obtain rfl | rfl := hmark <;> rfl
          | absent =>
            have hwhole' : whole = Nat.toDigits 10 m := by simpa [minus] using hcs
            have hvalue : Nat.ofDigitChars 10 whole 0 = m := by
              rw [hwhole', Nat.ofDigitChars_ten_toDigits]
            refine isInteger64_iff.mpr ⟨⟨rfl, rfl⟩, .inl ⟨rfl, ?_, ?_⟩⟩
            · exact hvalue ▸ hm
            · exact congrArg _ hvalue.symm

theorem isText_digits {s : String} (h : AreDigits s.toList) :
    IsText s ('"' :: (s.toList ++ ['"'])) := by
  refine .quoted ?_
  generalize s.toList = cs at h
  induction cs with
  | nil => exact .nil
  | cons c cs ih =>
    rw [AreDigits, List.forall_mem_cons] at h
    have hplain : IsSpelling c [c] := by
      have hrange := Char.isDigit_iff_toNat.mp h.1
      simp only [Char.reduceToNat] at hrange
      refine .plain (by omega) ?_ ?_
      all_goals
        rintro rfl
        exact absurd h.1 (by decide)
    exact .cons hplain (ih h.2)

end QueryConsole.Json
