import QueryConsole.Proofs.Json.Lexemes
import QueryConsole.Proofs.Statement.Decoding

namespace QueryConsole

open Json (AreDigits)

/-- Decimal digits for the number, perhaps with a plus sign before them. -/
inductive IsUnsigned (n : UInt64) (s : String) : Prop
  | digits (sign digits : List Char) (hs : s.toList = sign ++ digits)
    (hsign : sign = [] ∨ sign = ['+']) (hne : digits ≠ []) (h : AreDigits digits)
    (hn : Nat.ofDigitChars 10 digits 0 = n.toNat) : IsUnsigned n s

namespace Decimal

theorem ofDigits_eq_some {cs : List Char} {value n : Nat} :
    ofDigits value cs = some n ↔ AreDigits cs ∧ Nat.ofDigitChars 10 cs value = n := by
  constructor
  · intro h
    have hdigits : AreDigits cs := by
      induction cs generalizing value with
      | nil => nofun
      | cons c cs ih =>
        rw [ofDigits] at h
        split at h
        · next hc => exact List.forall_mem_cons.mpr ⟨hc, ih h⟩
        · cases h
    rw [ofDigits_eq hdigits, Option.some_inj] at h
    exact ⟨hdigits, h⟩
  · rintro ⟨hdigits, rfl⟩
    exact ofDigits_eq hdigits value

theorem exists_sign (cs : List Char) :
    ∃ sign, (sign = [] ∨ sign = ['+']) ∧ cs = sign ++ unsignedDigits cs := by
  rw [unsignedDigits.eq_def]
  split
  · exact ⟨['+'], .inr rfl, rfl⟩
  · exact ⟨[], .inl rfl, rfl⟩

theorem unsignedDigits_append {sign digits : List Char} (hsign : sign = [] ∨ sign = ['+'])
    (h : AreDigits digits) : unsignedDigits (sign ++ digits) = digits := by
  obtain rfl | rfl := hsign
  · rw [List.nil_append, unsignedDigits.eq_def]
    split
    · exact absurd (h '+' List.mem_cons_self) (by decide)
    · rfl
  · rfl

theorem natural?_eq_some {s : String} {n : Nat} :
    natural? s = some n ↔ unsignedDigits s.toList ≠ [] ∧
      AreDigits (unsignedDigits s.toList) ∧
        Nat.ofDigitChars 10 (unsignedDigits s.toList) 0 = n := by
  rw [natural?, ← ofDigits_eq_some]
  split
  · next hnil => simp [hnil]
  · next hne => exact (and_iff_right hne).symm

theorem uint64?_eq_some {s : String} {n : UInt64} :
    uint64? s = some n ↔ IsUnsigned n s := by
  have hsize : n.toNat < UInt64.size := n.toNat_lt_size
  have huint : uint64? s = some n ↔ natural? s = some n.toNat := by
    rw [uint64?, Option.bind_eq_some_iff]
    constructor
    · rintro ⟨value, hvalue, hn⟩
      split at hn
      · next hlt =>
        cases hn
        rw [hvalue, UInt64.toNat_ofNat_of_lt' hlt]
      · cases hn
    · intro hvalue
      exact ⟨n.toNat, hvalue, by rw [if_pos hsize, UInt64.ofNat_toNat]⟩
  rw [huint, natural?_eq_some]
  constructor
  · rintro ⟨hne, hdigits, hvalue⟩
    obtain ⟨sign, hsign, hs⟩ := exists_sign s.toList
    exact .digits sign _ hs hsign hne hdigits hvalue
  · rintro ⟨sign, digits, hs, hsign, hne, hdigits, hvalue⟩
    rw [hs, unsignedDigits_append hsign hdigits]
    exact ⟨hne, hdigits, hvalue⟩

end Decimal

end QueryConsole
