import QueryConsole.Proofs.Text.Braces
import Mathlib.Data.List.TakeWhile

namespace QueryConsole.Text

variable {p q : Char → Bool} {c : Char} {cs ds : List Char}

theorem dropEndWhile_cons_of_neg (h : p c = false) :
    dropEndWhile p (c :: cs) = c :: dropEndWhile p cs := by
  rw [dropEndWhile, dropEndWhile, List.reverse_cons, List.dropWhile_append]
  split
  · next hempty =>
    rw [List.isEmpty_iff.mp hempty, List.dropWhile_cons_of_neg (by simp [h])]
    rfl
  · rw [List.reverse_append]
    rfl

theorem dropEndWhile_append_of_none (h : ∀ c ∈ cs, p c = false) :
    dropEndWhile p (cs ++ ds) = cs ++ dropEndWhile p ds := by
  induction cs with
  | nil => rfl
  | cons c cs ih =>
    rw [List.forall_mem_cons] at h
    rw [List.cons_append, dropEndWhile_cons_of_neg h.1, ih h.2, List.cons_append]

theorem dropEndWhile_concat_of_neg (h : p c = false) :
    dropEndWhile p (cs ++ [c]) = cs ++ [c] := by
  rw [dropEndWhile, List.reverse_append, List.reverse_singleton, List.singleton_append,
    List.dropWhile_cons_of_neg (by simp [h]), List.reverse_cons, List.reverse_reverse]

theorem trimChars_between {before after : List Char} {d : Char}
    (hbefore : before.all isBlank = true) (hafter : after.all isBlank = true)
    (hc : isBlank c = false) (hd : isBlank d = false) :
    trimChars (before ++ (c :: (cs ++ [d]) ++ after)) = c :: (cs ++ [d]) := by
  rw [trimChars, List.dropWhile_append_of_pos (List.all_eq_true.mp hbefore), List.cons_append,
    List.dropWhile_cons_of_neg (by simp [hc]), ← List.cons_append,
    dropEndWhile_append_of_all hafter, ← List.cons_append, dropEndWhile_concat_of_neg hd]

theorem dropEndWhile_dropEndWhile (h : ∀ c, q c = true → p c = true) :
    dropEndWhile p (dropEndWhile q cs) = dropEndWhile p cs := by
  have hdropped : ∀ c ∈ cs.reverse.takeWhile q, p c = true :=
    fun c hc => h c (List.all_eq_true.mp List.all_takeWhile c hc)
  have hreverse : (cs.reverse.dropWhile q).dropWhile p = cs.reverse.dropWhile p := by
    calc
      (cs.reverse.dropWhile q).dropWhile p =
          (cs.reverse.takeWhile q ++ cs.reverse.dropWhile q).dropWhile p :=
        (List.dropWhile_append_of_pos hdropped).symm
      _ = cs.reverse.dropWhile p := by rw [List.takeWhile_append_dropWhile]
  rw [dropEndWhile, dropEndWhile, List.reverse_reverse, hreverse, dropEndWhile]

theorem trimChars_eq_nil_iff : trimChars cs = [] ↔ cs.all isBlank = true := by
  rw [trimChars, List.all_eq_true, ← List.dropWhile_eq_nil_iff]
  constructor
  · intro h
    cases hkept : cs.dropWhile isBlank with
    | nil => rfl
    | cons c kept =>
      have hc := List.head?_dropWhile_not isBlank cs
      rw [hkept] at h hc
      rw [dropEndWhile_cons_of_neg (by simpa using hc)] at h
      cases h
  · intro h
    rw [h]
    rfl

theorem trim_eq_empty_iff {s : String} : trim s = "" ↔ isBlankText s = true := by
  rw [trim, ← String.toList_inj, String.toList_ofList, String.toList_empty, trimChars_eq_nil_iff,
    isBlankText]

theorem trimChars_padded {before after : List Char} (hbefore : before.all isBlank = true)
    (hafter : after.all isBlank = true) : trimChars (before ++ cs ++ after) = trimChars cs := by
  cases hcs : cs.all isBlank with
  | true =>
    have hall : (before ++ cs ++ after).all isBlank = true := by
      rw [List.all_append, List.all_append, hbefore, hcs, hafter]
      rfl
    rw [trimChars_eq_nil_iff.mpr hall, trimChars_eq_nil_iff.mpr hcs]
  | false =>
    have hkept : (cs.dropWhile isBlank).isEmpty = false := by
      rw [Bool.eq_false_iff, ne_eq, List.isEmpty_iff, List.dropWhile_eq_nil_iff,
        ← List.all_eq_true, hcs]
      nofun
    rw [trimChars, List.append_assoc, List.dropWhile_append_of_pos (List.all_eq_true.mp hbefore),
      List.dropWhile_append, if_neg (by simp [hkept]), dropEndWhile_append_of_all hafter, trimChars]

theorem isBlankText_padded {s before after : String} (hbefore : isBlankText before = true)
    (hafter : isBlankText after = true) : isBlankText (before ++ s ++ after) = isBlankText s := by
  rw [isBlankText] at hbefore hafter
  rw [isBlankText, String.toList_append, String.toList_append, List.all_append, List.all_append,
    hbefore, hafter, Bool.true_and, Bool.and_true, isBlankText]

theorem given_padded {s before after : String} (hbefore : isBlankText before = true)
    (hafter : isBlankText after = true) : given (some (before ++ s ++ after)) = given (some s) := by
  have htrim : trim (before ++ s ++ after) = trim s := by
    rw [trim, trim, String.toList_append, String.toList_append, trimChars_padded hbefore hafter]
  rw [given, given, isBlankText_padded hbefore hafter, htrim]

theorem toNat_of_isUpper (h : c.isUpper = true) : 65 ≤ c.toNat ∧ c.toNat ≤ 90 := by
  have hrange : 'A'.val ≤ c.val ∧ c.val ≤ 'Z'.val := of_decide_eq_true h
  exact hrange.imp UInt32.le_iff_toNat_le.mp UInt32.le_iff_toNat_le.mp

theorem toNat_of_isLower (h : c.isLower = true) : 97 ≤ c.toNat ∧ c.toNat ≤ 122 := by
  have hrange : (decide ('a'.val ≤ c.val) && decide (c.val ≤ 'z'.val)) = true := h
  rw [Bool.and_eq_true, decide_eq_true_eq, decide_eq_true_eq] at hrange
  exact hrange.imp UInt32.le_iff_toNat_le.mp UInt32.le_iff_toNat_le.mp

theorem isUpper_toUpper (h : c.isLower = true) : c.toUpper.isUpper = true := by
  have hrange := toNat_of_isLower h
  have hle : 'a'.val ≤ c.val ∧ c.val ≤ 'z'.val := by
    rw [UInt32.le_iff_toNat_le, UInt32.le_iff_toNat_le]
    exact hrange
  have hval : c.val.toNat = c.toNat := rfl
  have hshift : c.toUpper.val = c.val + ('A'.val - 'a'.val) := by
    have hupper := congrArg Char.val (dif_pos hle : c.toUpper = _)
    exact hupper
  have hupper : c.toUpper.val.toNat + 32 = c.val.toNat := by
    have hconst : ('A'.val - 'a'.val).toNat = 2 ^ 32 - 32 := by decide
    rw [hshift, UInt32.toNat_add, hconst, hval]
    omega
  have hbounds : 'A'.val ≤ c.toUpper.val ∧ c.toUpper.val ≤ 'Z'.val := by
    rw [UInt32.le_iff_toNat_le, UInt32.le_iff_toNat_le]
    show 65 ≤ _ ∧ _ ≤ 90
    omega
  exact decide_eq_true hbounds

theorem toUpper_eq_self (h : c.isLower = false) : c.toUpper = c := by
  have hrange : (decide ('a'.val ≤ c.val) && decide (c.val ≤ 'z'.val)) = false := h
  rw [← Bool.decide_and, decide_eq_false_iff_not] at hrange
  exact dif_neg hrange

theorem isWordChar_toUpper (c : Char) : isWordChar c.toUpper = isWordChar c := by
  have hkinds (c : Char) :
      isWordChar c = (((c.isUpper || c.isLower) || c.isDigit) || c == '_') := rfl
  cases h : c.isLower with
  | true => rw [hkinds, hkinds, isUpper_toUpper h, h, Bool.true_or, Bool.or_true]; rfl
  | false => rw [toUpper_eq_self h]

theorem toNat_of_isWordChar (h : isWordChar c = true) : 48 ≤ c.toNat ∧ c.toNat ≤ 122 := by
  have hkinds : (((c.isUpper || c.isLower) || c.isDigit) || c == '_') = true := h
  simp only [Bool.or_eq_true, beq_iff_eq] at hkinds
  obtain ((h | h) | h) | rfl := hkinds
  · have hrange := toNat_of_isUpper h
    omega
  · have hrange := toNat_of_isLower h
    omega
  · have hrange : 48 ≤ c.toNat ∧ c.toNat ≤ 57 := Char.isDigit_iff_toNat.mp h
    omega
  · decide

theorem isBlank_eq_false_of_isWordChar (h : isWordChar c = true) : isBlank c = false := by
  have hrange := toNat_of_isWordChar h
  simp only [isBlank, Bool.or_eq_false_iff, Bool.and_eq_false_iff, decide_eq_false_iff_not,
    beq_eq_false_iff_ne]
  omega

theorem dropEndWhile_eq_self (h : ∀ c ∈ cs, p c = false) : dropEndWhile p cs = cs := by
  calc
    dropEndWhile p cs = dropEndWhile p (cs ++ []) := by rw [List.append_nil]
    _ = cs ++ dropEndWhile p [] := dropEndWhile_append_of_none h
    _ = cs := List.append_nil cs

theorem exists_dropEndWhile_append (p : Char → Bool) (cs : List Char) :
    ∃ dropped, cs = dropEndWhile p cs ++ dropped ∧ ∀ c ∈ dropped, p c = true := by
  refine ⟨(cs.reverse.takeWhile p).reverse, ?_, ?_⟩
  · rw [dropEndWhile, ← List.reverse_append, List.takeWhile_append_dropWhile, List.reverse_reverse]
  · intro c hc
    exact List.all_eq_true.mp List.all_takeWhile c (List.mem_reverse.mp hc)

theorem getLast?_dropEndWhile (p : Char → Bool) (cs : List Char) :
    ∀ c ∈ (dropEndWhile p cs).getLast?, p c = false := by
  intro c hc
  rw [dropEndWhile, List.getLast?_reverse] at hc
  have hfirst := List.head?_dropWhile_not p cs.reverse
  rw [hc] at hfirst
  simpa using hfirst

theorem dropEndWhile_of_last (h : ∀ c ∈ cs.getLast?, p c = false) : dropEndWhile p cs = cs := by
  rcases List.eq_nil_or_concat cs with rfl | ⟨cs, c, rfl⟩
  · rfl
  · rw [List.concat_eq_append]
    exact dropEndWhile_concat_of_neg (h c (by simp))

theorem dropWhile_eq_self (h : ∀ c ∈ cs, p c = false) : cs.dropWhile p = cs := by
  cases cs with
  | nil => rfl
  | cons c cs => exact List.dropWhile_cons_of_neg (by simp [h c List.mem_cons_self])

theorem given_eq_self {s : String} {d : Char} (hfirst : s.toList.head? = some c)
    (hlast : s.toList.getLast? = some d) (hc : isBlank c = false) (hd : isBlank d = false) :
    given (some s) = some s := by
  obtain ⟨cs, hs⟩ := List.head?_eq_some_iff.mp hfirst
  have hblank : isBlankText s = false := by
    rw [isBlankText, hs, List.all_cons, hc, Bool.false_and]
  have hkept : dropEndWhile isBlank s.toList = s.toList := by
    apply dropEndWhile_of_last
    rw [hlast]
    rintro _ ⟨⟩
    exact hd
  have htrim : trim s = s := by
    rw [trim, trimChars, hs, List.dropWhile_cons_of_neg (by simp [hc]), ← hs, hkept,
      String.ofList_toList]
  rw [given, hblank, htrim]
  rfl

theorem trim_eq_self_of_isIdentifier {s : String} (h : isIdentifier s = true) : trim s = s := by
  have hword := (isWord_of_isIdentifier h).2
  have hnone : ∀ c ∈ s.toList, isBlank c = false :=
    fun c hc => isBlank_eq_false_of_isWordChar (List.all_eq_true.mp hword c hc)
  rw [trim, trimChars, dropWhile_eq_self hnone, dropEndWhile_eq_self hnone, String.ofList_toList]

end QueryConsole.Text
