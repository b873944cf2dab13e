import QueryConsole.Text.Utf8
import Mathlib.Tactic.SplitIfs
import Mathlib.Order.Basic

namespace QueryConsole.Text.Utf8

theorem toNat_byte {n : Nat} (h : n < 0x100) : (byte n).toNat = n := by
  simp [byte, Nat.mod_eq_of_lt h]

theorem decodeFrom_last {low high value b : Nat} (hlow : low ≤ b) (hhigh : b ≤ high)
    (hb : b < 0x100) (bs : List UInt8) :
    decodeFrom (some ⟨1, low, high, value⟩) (byte b :: bs) =
      some (Char.ofNat (value * 0x40 + (b - 0x80))) :: decodeFrom none bs := by
  rw [decodeFrom, toNat_byte hb, step]
  simp [hlow, hhigh]

theorem decodeFrom_next {left low high value b : Nat} (hlow : low ≤ b) (hhigh : b ≤ high)
    (hb : b < 0x100) (bs : List UInt8) :
    decodeFrom (some ⟨left + 2, low, high, value⟩) (byte b :: bs) =
      decodeFrom (some ⟨left + 1, 0x80, 0xBF, value * 0x40 + (b - 0x80)⟩) bs := by
  rw [decodeFrom, toNat_byte hb, step]
  simp [hlow, hhigh]

theorem decodeFrom_first {b : Nat} {begun : Begun} (hb : b < 0x100)
    (h : first b = ([], some begun)) (bs : List UInt8) :
    decodeFrom none (byte b :: bs) = decodeFrom (some begun) bs := by
  rw [decodeFrom, toNat_byte hb, step, h, List.nil_append]

theorem first_two {q : Nat} (hlow : 2 ≤ q) (hhigh : q < 0x20) :
    first (0xC0 + q) = ([], some ⟨1, 0x80, 0xBF, q⟩) := by
  rw [first, if_neg (by omega), if_pos (by omega), Nat.add_sub_cancel_left]

theorem first_three {q b : Nat} (hq : q < 0x10) (hb : 0x80 ≤ b ∧ b ≤ 0xBF)
    (hoverlong : q = 0 → 0xA0 ≤ b) (hsurrogate : q = 0xD → b ≤ 0x9F) :
    ∃ low high, first (0xE0 + q) = ([], some ⟨2, low, high, q⟩) ∧ low ≤ b ∧ b ≤ high := by
  rw [first, if_neg (by omega), if_neg (by omega)]
  by_cases hzero : q = 0
  · subst hzero
    exact ⟨_, _, rfl, hoverlong rfl, hb.2⟩
  · rw [if_neg (by omega)]
    by_cases hd : q = 0xD
    · subst hd
      exact ⟨_, _, rfl, hb.1, hsurrogate rfl⟩
    · rw [if_neg (by omega), if_pos (by omega), Nat.add_sub_cancel_left]
      exact ⟨_, _, rfl, hb⟩

theorem first_four {q b : Nat} (hq : q < 5) (hb : 0x80 ≤ b ∧ b ≤ 0xBF)
    (hoverlong : q = 0 → 0x90 ≤ b) (hbeyond : q = 4 → b ≤ 0x8F) :
    ∃ low high, first (0xF0 + q) = ([], some ⟨3, low, high, q⟩) ∧ low ≤ b ∧ b ≤ high := by
  rw [first, if_neg (by omega), if_neg (by omega), if_neg (by omega), if_neg (by omega),
    if_neg (by omega)]
  by_cases hzero : q = 0
  · subst hzero
    exact ⟨_, _, rfl, hoverlong rfl, hb.2⟩
  · rw [if_neg (by omega)]
    by_cases hfour : q = 4
    · subst hfour
      exact ⟨_, _, rfl, hb.1, hbeyond rfl⟩
    · rw [if_neg (by omega), if_pos (by omega), Nat.add_sub_cancel_left]
      exact ⟨_, _, rfl, hb⟩

theorem toNat_valid (c : Char) : c.toNat < 0xD800 ∨ 0xDFFF < c.toNat ∧ c.toNat < 0x110000 :=
  c.valid

theorem decodeFrom_encodeChar (c : Char) (bs : List UInt8) :
    decodeFrom none (encodeChar c ++ bs) = some c :: decodeFrom none bs := by
  have hvalid := toNat_valid c
  have hself : Char.ofNat c.toNat = c := Char.ofNat_toNat c
  simp only [encodeChar]
  generalize hn : c.toNat = n at hvalid hself
  split
  case isTrue hone =>
    rw [List.singleton_append, decodeFrom, toNat_byte (by omega), step, first, if_pos hone, hself]
    rfl
  case isFalse hone =>
    split
    case isTrue htwo =>
      have hvalue : n / 0x40 * 0x40 + (0x80 + n % 0x40 - 0x80) = n := by omega
      rw [List.cons_append, decodeFrom_first (by omega) (first_two (by omega) (by omega)),
        List.singleton_append, decodeFrom_last (by omega) (by omega) (by omega), hvalue, hself]
    case isFalse htwo =>
      split
      case isTrue hthree =>
        obtain ⟨low, high, hfirst, hlow, hhigh⟩ :=
          first_three (q := n / 0x1000) (b := 0x80 + n / 0x40 % 0x40) (by omega) (by omega)
            (by omega) (by omega)
        have hvalue : (n / 0x1000 * 0x40 + (0x80 + n / 0x40 % 0x40 - 0x80)) * 0x40 +
            (0x80 + n % 0x40 - 0x80) = n := by omega
        rw [List.cons_append, decodeFrom_first (by omega) hfirst, List.cons_append,
          decodeFrom_next hlow hhigh (by omega), List.singleton_append,
          decodeFrom_last (by omega) (by omega) (by omega), hvalue, hself]
      case isFalse hthree =>
        obtain ⟨low, high, hfirst, hlow, hhigh⟩ :=
          first_four (q := n / 0x40000) (b := 0x80 + n / 0x1000 % 0x40) (by omega) (by omega)
            (by omega) (by omega)
        have hvalue : ((n / 0x40000 * 0x40 + (0x80 + n / 0x1000 % 0x40 - 0x80)) * 0x40 +
            (0x80 + n / 0x40 % 0x40 - 0x80)) * 0x40 + (0x80 + n % 0x40 - 0x80) = n := by omega
        rw [List.cons_append, decodeFrom_first (by omega) hfirst, List.cons_append,
          decodeFrom_next hlow hhigh (by omega), List.cons_append,
          decodeFrom_next (by omega) (by omega) (by omega), List.singleton_append,
          decodeFrom_last (by omega) (by omega) (by omega), hvalue, hself]

theorem decode_encode (cs : List Char) : decode (encode cs) = cs.map some := by
  induction cs with
  | nil => rfl
  | cons c cs ih =>
    rw [encode, List.flatMap_cons, decode, decodeFrom_encodeChar, List.map_cons]
    exact congrArg _ ih

@[simp] theorem decodeLossy_encode (s : String) : decodeLossy (encode s.toList) = s := by
  simp [decodeLossy, decode_encode, Function.comp_def]

theorem encode_injective {s t : String} (h : encode s.toList = encode t.toList) : s = t := by
  rw [← decodeLossy_encode s, h, decodeLossy_encode]

@[simp] theorem decodeStrict?_encode (s : String) : decodeStrict? (encode s.toList) = some s := by
  have hall : (s.toList.map some).mapM id = some s.toList := by
    rw [List.mapM_map]
    simpa using List.mapM_pure (m := Option) (f := fun c => c) (l := s.toList)
  rw [decodeStrict?, decode_encode, hall, Option.map_some, String.ofList_toList]

theorem encode_cons (c : Char) (cs : List Char) : encode (c :: cs) = encodeChar c ++ encode cs :=
  List.flatMap_cons

theorem encodeChar_of_ascii {c : Char} (h : c.toNat < 0x80) : encodeChar c = [byte c.toNat] :=
  if_pos h

theorem exists_encode_of_ascii {bytes : List UInt8} (h : ∀ b ∈ bytes, b.toNat < 0x80) :
    ∃ s : String, bytes = encode s.toList := by
  refine ⟨String.ofList (bytes.map fun b => Char.ofNat b.toNat), ?_⟩
  rw [String.toList_ofList]
  induction bytes with
  | nil => rfl
  | cons b bytes ih =>
    rw [List.forall_mem_cons] at h
    have hc : (Char.ofNat b.toNat).toNat = b.toNat := by
      rw [Char.ofNat, dif_pos (.inl (by omega))]
      rfl
    have hb : byte b.toNat = b := UInt8.ofNat_toNat
    rw [List.map_cons, encode_cons, encodeChar_of_ascii (hc.symm ▸ h.1), hc, hb, ← ih h.2]
    rfl

theorem lt_split {m n : Nat} (h : m < n) (k : Nat) :
    m / k < n / k ∨ m / k = n / k ∧ m % k < n % k := by
  obtain hlt | heq := Nat.lt_or_eq_of_le (Nat.div_le_div_right (c := k) (Nat.le_of_lt h))
  · exact .inl hlt
  · refine .inr ⟨heq, ?_⟩
    have hm := Nat.div_add_mod m k
    have hn := Nat.div_add_mod n k
    rw [heq] at hm
    omega

theorem cons_lt_cons {m n : Nat} (hm : m < 0x100) (hn : n < 0x100) {bs bs' : List UInt8}
    (h : m < n ∨ m = n ∧ bs < bs') : byte m :: bs < byte n :: bs' := by
  rw [List.cons_lt_cons_iff, UInt8.lt_iff_toNat_lt, toNat_byte hm, toNat_byte hn]
  exact h.imp id fun h => ⟨congrArg byte h.1, h.2⟩

theorem tail_lt {m n : Nat} (h : m % 0x40 < n % 0x40) (bs bs' : List UInt8) :
    byte (0x80 + m % 0x40) :: bs < byte (0x80 + n % 0x40) :: bs' :=
  cons_lt_cons (by omega) (by omega) (.inl (by omega))

theorem twoTails_lt {m n : Nat} (h : m % 0x1000 < n % 0x1000) (bs bs' : List UInt8) :
    byte (0x80 + m / 0x40 % 0x40) :: byte (0x80 + m % 0x40) :: bs <
      byte (0x80 + n / 0x40 % 0x40) :: byte (0x80 + n % 0x40) :: bs' := by
  refine cons_lt_cons (by omega) (by omega) ?_
  obtain hlt | ⟨heq, hlt⟩ := lt_split h 0x40
  · exact .inl (by omega)
  · exact .inr ⟨by omega, tail_lt (by omega) bs bs'⟩

theorem threeTails_lt {m n : Nat} (h : m % 0x40000 < n % 0x40000) (bs bs' : List UInt8) :
    byte (0x80 + m / 0x1000 % 0x40) :: byte (0x80 + m / 0x40 % 0x40) ::
        byte (0x80 + m % 0x40) :: bs <
      byte (0x80 + n / 0x1000 % 0x40) :: byte (0x80 + n / 0x40 % 0x40) ::
        byte (0x80 + n % 0x40) :: bs' := by
  refine cons_lt_cons (by omega) (by omega) ?_
  obtain hlt | ⟨heq, hlt⟩ := lt_split h 0x1000
  · exact .inl (by omega)
  · exact .inr ⟨by omega, twoTails_lt (by omega) bs bs'⟩

theorem encodeChar_lt {c d : Char} (h : c < d) (bs bs' : List UInt8) :
    encodeChar c ++ bs < encodeChar d ++ bs' := by
  have hlt : c.toNat < d.toNat := h
  have hc := toNat_valid c
  have hd := toNat_valid d
  simp only [encodeChar]
  generalize c.toNat = m at *
  generalize d.toNat = n at *
  split
  case isTrue =>
    split_ifs
    all_goals exact cons_lt_cons (by omega) (by omega) (.inl (by omega))
  case isFalse =>
    split
    case isTrue =>
      split_ifs
      case pos => omega
      case pos =>
        obtain hlt | ⟨heq, hlt⟩ := lt_split hlt 0x40
        · exact cons_lt_cons (by omega) (by omega) (.inl (by omega))
        · exact cons_lt_cons (by omega) (by omega) (.inr ⟨by omega, tail_lt hlt bs bs'⟩)
      all_goals exact cons_lt_cons (by omega) (by omega) (.inl (by omega))
    case isFalse =>
      split
      case isTrue =>
        split_ifs
        case pos | pos => omega
        case pos =>
          obtain hlt | ⟨heq, hlt⟩ := lt_split hlt 0x1000
          · exact cons_lt_cons (by omega) (by omega) (.inl (by omega))
          · exact cons_lt_cons (by omega) (by omega) (.inr ⟨by omega, twoTails_lt hlt bs bs'⟩)
        case neg => exact cons_lt_cons (by omega) (by omega) (.inl (by omega))
      case isFalse =>
        split_ifs
        case pos | pos | pos => omega
        case neg =>
          obtain hlt | ⟨heq, hlt⟩ := lt_split hlt 0x40000
          · exact cons_lt_cons (by omega) (by omega) (.inl (by omega))
          · exact cons_lt_cons (by omega) (by omega) (.inr ⟨by omega, threeTails_lt hlt bs bs'⟩)

theorem encodeChar_ne_nil (c : Char) : encodeChar c ≠ [] := by
  simp only [encodeChar]
  split_ifs <;> exact List.cons_ne_nil _ _

theorem encode_lt_encode {cs ds : List Char} (h : cs < ds) : encode cs < encode ds := by
  induction h with
  | @nil d ds =>
    obtain ⟨b, bs, hd⟩ := List.exists_cons_of_ne_nil (encodeChar_ne_nil d)
    rw [encode, encode, List.flatMap_cons, hd]
    exact List.nil_lt_cons _ _
  | rel h => exact encodeChar_lt h _ _
  | cons h ih =>
    rw [encode, encode, List.flatMap_cons, List.flatMap_cons]
    exact List.append_left_lt ih

theorem encode_lt_encode_iff {s t : String} : encode s.toList < encode t.toList ↔ s < t := by
  have hasymm : Std.Asymm fun a b : UInt8 => a < b := ⟨fun _ _ => UInt8.lt_asymm⟩
  constructor
  · intro h
    rw [← String.not_le]
    intro hle
    obtain rfl | hne := eq_or_ne s t
    · exact List.lt_asymm h h
    · have hlt : t < s := Std.lt_of_le_of_ne hle hne.symm
      exact List.lt_asymm h (encode_lt_encode hlt)
  · exact fun h => encode_lt_encode h

end QueryConsole.Text.Utf8
