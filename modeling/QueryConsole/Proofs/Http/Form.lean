import QueryConsole.Http.Form
import QueryConsole.Http.Request
import QueryConsole.Proofs.Text.Braces
import QueryConsole.Proofs.Text.Split
import QueryConsole.Proofs.Text.Utf8
import Mathlib.Data.List.TakeWhile
import Mathlib.Tactic.SplitIfs

/-! The ways to write texts in a query string and in a path.  Whichever is taken, what is read are
the texts: nothing in them is a mark that separates them. -/

namespace QueryConsole.Http

open Text (hexValue? upperHexDigit)
open Text.Utf8 (byte encodeChar)

inductive IsSpelling (marks : List Char) (b : UInt8) : List Char → Prop
  | plain {c : Char} (hc : encodeChar c = [b]) (hmark : c ∉ marks) : IsSpelling marks b [c]
  | digits {x y : Char} {i j : Nat} (hx : hexValue? x = some i) (hy : hexValue? y = some j)
    (h : 16 * i + j = b.toNat) : IsSpelling marks b ['%', x, y]

section Bytes

variable {marks cs : List Char} {b : UInt8}

theorem percentDecode_cons {c : Char} (h : c ≠ '%') (rest : List Char) :
    percentDecode (c :: rest) = encodeChar c ++ percentDecode rest := by
  rw [percentDecode.eq_def]
  split
  case h_1 heq => cases heq
  case h_2 heq =>
    cases heq
    exact absurd rfl h
  case h_3 heq =>
    cases heq
    rfl

theorem percentDecode_isSpelling (h : IsSpelling marks b cs) (hpercent : '%' ∈ marks)
    (rest : List Char) : percentDecode (cs ++ rest) = b :: percentDecode rest := by
  cases h with
  | plain hc hmark =>
    have hne := (ne_of_mem_of_not_mem hpercent hmark).symm
    rw [List.singleton_append, percentDecode_cons hne, hc, List.singleton_append]
  | digits hx hy h =>
    simp only [List.cons_append, List.nil_append, percentDecode, hx, hy, h, byte,
      UInt8.ofNat_toNat]

theorem percentDecode_spells {bytes : List UInt8} (h : Text.Spells (IsSpelling marks) bytes cs)
    (hpercent : '%' ∈ marks) : percentDecode cs = bytes := by
  induction h with
  | nil => rfl
  | cons hb _ ih => rw [percentDecode_isSpelling hb hpercent, ih]

theorem notMem_isSpelling (h : IsSpelling marks b cs) {mark : Char} (hmark : mark ∈ marks)
    (hpercent : mark ≠ '%') (hdigit : hexValue? mark = none) : mark ∉ cs := by
  intro hmem
  cases h with
  | plain _ hplain =>
    obtain rfl := List.mem_singleton.mp hmem
    exact hplain hmark
  | digits hx hy =>
    simp only [List.mem_cons, List.not_mem_nil, or_false] at hmem
    obtain rfl | rfl | rfl := hmem
    · exact hpercent rfl
    · cases hdigit.symm.trans hx
    · cases hdigit.symm.trans hy

theorem isSpelling_percentByte (marks : List Char) (b : UInt8) :
    IsSpelling marks b (percentByte b) := by
  have hb : b.toNat < 256 := b.toNat_lt
  exact .digits (Text.hexValue?_upperHexDigit _ (by omega))
    (Text.hexValue?_upperHexDigit _ (by omega)) (Nat.div_add_mod _ _)

theorem encodeChar_ofNat (h : b.toNat < 0x80) : encodeChar (Char.ofNat b.toNat) = [b] := by
  have hnat : (Char.ofNat b.toNat).toNat = b.toNat := by
    rw [Char.ofNat, dif_pos (.inl (by omega))]
    rfl
  rw [encodeChar, hnat, if_pos h, byte, UInt8.ofNat_toNat]

theorem percentByte_chars (b : UInt8) : ∀ c ∈ percentByte b, c = '%' ∨ c.isAlphanum = true := by
  have hb : b.toNat < 256 := b.toNat_lt
  intro c hc
  simp only [percentByte, List.mem_cons, List.not_mem_nil, or_false] at hc
  obtain rfl | rfl | rfl := hc
  · exact .inl rfl
  · exact .inr (Text.isAlphanum_upperHexDigit _ (by omega))
  · exact .inr (Text.isAlphanum_upperHexDigit _ (by omega))

end Bytes

namespace Form

inductive Spelling (b : UInt8) : List Char → Prop
  | plus (h : b = 0x20) : Spelling b ['+']
  | marked {cs : List Char} (h : IsSpelling ['%', '+', '&', '='] b cs) : Spelling b cs

def IsPart (s : String) : List Char → Prop :=
  Text.Spells Spelling (Text.Utf8.encode s.toList)

inductive IsPair (pair : String × String) : List Char → Prop
  | equals {name value : List Char} (hname : IsPart pair.1 name) (hvalue : IsPart pair.2 value) :
    IsPair pair (name ++ '=' :: value)

/-- A query string that has the pairs, in their order. -/
inductive IsQuery : List (String × String) → String → Prop
  | nil : IsQuery [] ""
  | pair {pair : String × String} {query : String} (h : IsPair pair query.toList) :
    IsQuery [pair] query
  | append {pairs pairs' : List (String × String)} {query query' : String}
    (h : IsQuery pairs query) (h' : IsQuery pairs' query') :
    IsQuery (pairs ++ pairs') (query ++ "&" ++ query')

section Decode

variable {b : UInt8} {s : String} {pair : String × String} {pairs : List (String × String)}
  {cs : List Char} {query : String}

def plusToSpace (c : Char) : Char :=
  if c = '+' then ' ' else c

theorem map_plusToSpace (h : '+' ∉ cs) : cs.map plusToSpace = cs := by
  have hkept : ∀ c ∈ cs, plusToSpace c = c := by
    intro c hc
    rw [plusToSpace, if_neg]
    rintro rfl
    exact h hc
  rw [List.map_congr_left hkept, List.map_id']

theorem percentDecode_spelling (h : Spelling b cs) (rest : List Char) :
    percentDecode (cs.map plusToSpace ++ rest) = b :: percentDecode rest := by
  cases h with
  | plus h =>
    subst h
    exact percentDecode_cons (by decide) rest
  | marked h =>
    rw [map_plusToSpace (notMem_isSpelling h (by decide) (by decide) (by decide)),
      percentDecode_isSpelling h (by decide)]

theorem percentDecode_isPart (h : IsPart s cs) :
    percentDecode (cs.map plusToSpace) = Text.Utf8.encode s.toList := by
  rw [IsPart] at h
  generalize Text.Utf8.encode s.toList = bytes at h
  induction h with
  | nil => rfl
  | cons hb _ ih => rw [List.map_append, percentDecode_spelling hb, ih]

theorem decodePart_isPart (h : IsPart s cs) : decodePart cs = s := by
  rw [decodePart]
  exact (congrArg Text.Utf8.decodeLossy (percentDecode_isPart h)).trans
    (Text.Utf8.decodeLossy_encode s)

theorem notMem_isPart (h : IsPart s cs) : '&' ∉ cs ∧ '=' ∉ cs := by
  rw [IsPart] at h
  generalize Text.Utf8.encode s.toList = bytes at h
  induction h with
  | nil => exact ⟨List.not_mem_nil, List.not_mem_nil⟩
  | cons hb _ ih =>
    rw [List.mem_append, List.mem_append, not_or, not_or]
    refine ⟨⟨?_, ih.1⟩, ⟨?_, ih.2⟩⟩
    all_goals
      cases hb with
      | plus => decide
      | marked hb => exact notMem_isSpelling hb (by decide) (by decide) (by decide)

theorem decodePair_isPair (h : IsPair pair cs) : decodePair cs = pair := by
  cases h with
  | @equals name value hname hvalue =>
    have hequals : ∀ c ∈ name, (c != '=') = true := by
      intro c hc
      rw [bne_iff_ne]
      rintro rfl
      exact (notMem_isPart hname).2 hc
    rw [decodePair, List.takeWhile_append_of_pos hequals, List.dropWhile_append_of_pos hequals]
    simp [decodePart_isPart hname, decodePart_isPart hvalue]

theorem decode_append (query query' : String) :
    decode (query ++ "&" ++ query') = decode query ++ decode query' := by
  have hlist : (query ++ "&" ++ query').toList = query.toList ++ '&' :: query'.toList := by simp
  rw [decode, hlist, Text.splitChars_append_cons rfl, List.filter_append, List.map_append]
  rfl

theorem decode_isPair (h : IsPair pair query.toList) : decode query = [pair] := by
  rw [decode]
  generalize query.toList = cs at h
  have hamp : ∀ c ∈ cs, (c == '&') = false := by
    intro c hc
    rw [beq_eq_false_iff_ne]
    rintro rfl
    cases h with
    | equals hname hvalue => simp [(notMem_isPart hname).1, (notMem_isPart hvalue).1] at hc
  have hne : cs.isEmpty = false := by
    cases h
    simp
  rw [Text.splitChars_of_none hamp, List.filter_cons_of_pos (by simp [hne]), List.filter_nil,
    List.map_singleton, decodePair_isPair h]

theorem decode_isQuery (h : IsQuery pairs query) : decode query = pairs := by
  induction h with
  | nil => rfl
  | pair h => exact decode_isPair h
  | append _ _ ih ih' => rw [decode_append, ih, ih']

end Decode

inductive Inserts (pair : String × String) (query : String) : String → Prop
  | alone {part : String} (h : IsPair pair part.toList) (hquery : query = "") :
    Inserts pair query part
  | first {part : String} (h : IsPair pair part.toList) : Inserts pair query (part ++ "&" ++ query)
  | last {part : String} (h : IsPair pair part.toList) : Inserts pair query (query ++ "&" ++ part)
  | between {part before after : String} (h : IsPair pair part.toList)
    (hquery : query = before ++ "&" ++ after) :
    Inserts pair query (before ++ "&" ++ part ++ "&" ++ after)

theorem decode_inserts {pair : String × String} {query query' : String}
    (h : Inserts pair query query') :
    ∃ before after, decode query = before ++ after ∧ decode query' = before ++ pair :: after := by
  cases h with
  | alone h hquery =>
    subst hquery
    exact ⟨[], [], rfl, decode_isPair h⟩
  | first h => exact ⟨[], decode query, rfl, by rw [decode_append, decode_isPair h]; rfl⟩
  | last h =>
    exact ⟨decode query, [], (List.append_nil _).symm, by rw [decode_append, decode_isPair h]⟩
  | @between part before after h hquery =>
    refine ⟨decode before, decode after, by rw [hquery, decode_append], ?_⟩
    rw [decode_append, decode_append, decode_isPair h, List.append_assoc, List.singleton_append]

section Encode

def isFormChar (c : Char) : Bool :=
  c.isAlphanum || "*-._+%".toList.contains c

theorem isFormChar_of_isAlphanum {c : Char} (h : c.isAlphanum = true) : isFormChar c = true := by
  rw [isFormChar, h, Bool.true_or]

theorem isFormChar_of_isPlain {b : UInt8} (h : isPlain b = true) :
    isFormChar (Char.ofNat b.toNat) = true := by
  simp only [isPlain, Bool.and_eq_true] at h
  generalize Char.ofNat b.toNat = c at h
  simp only [Bool.or_eq_true, beq_iff_eq] at h
  obtain (((h | h) | h) | h) | h := h.2
  · exact isFormChar_of_isAlphanum h
  all_goals
    rw [h]
    decide

theorem encodeByte_chars (b : UInt8) : ∀ c ∈ encodeByte b, isFormChar c = true := by
  intro c hc
  rw [encodeByte] at hc
  split_ifs at hc with hspace hplain
  · obtain rfl := List.mem_singleton.mp hc
    decide
  · obtain rfl := List.mem_singleton.mp hc
    exact isFormChar_of_isPlain hplain
  · obtain rfl | h := percentByte_chars b c hc
    · decide
    · exact isFormChar_of_isAlphanum h

theorem spelling_encodeByte (b : UInt8) : Spelling b (encodeByte b) := by
  rw [encodeByte]
  split_ifs with hspace hplain
  · exact .plus hspace
  · have hascii : b.toNat < 0x80 := by
      simp only [isPlain, Bool.and_eq_true, decide_eq_true_eq] at hplain
      exact hplain.1
    refine .marked (.plain (encodeChar_ofNat hascii) ?_)
    have hmarks : ['%', '+', '&', '='].all (fun mark =>
        !(mark.isAlphanum || mark == '*' || mark == '-' || mark == '.' || mark == '_')) = true := by
      decide
    intro hmark
    have hnot := List.all_eq_true.mp hmarks _ hmark
    rw [Bool.not_eq_true'] at hnot
    simp only [isPlain, hnot, Bool.and_false] at hplain
    cases hplain
  · exact .marked (isSpelling_percentByte _ b)

theorem isPart_encodePart (s : String) : IsPart s (encodePart s) := by
  rw [IsPart, encodePart]
  induction Text.Utf8.encode s.toList with
  | nil => exact .nil
  | cons b bytes ih => exact .cons (spelling_encodeByte b) ih

theorem isPair_encodePair (pair : String × String) : IsPair pair (encodePair pair).toList := by
  rw [encodePair, String.toList_ofList]
  exact .equals (isPart_encodePart _) (isPart_encodePart _)

theorem isQuery_encode (pairs : List (String × String)) : IsQuery pairs (encode pairs) := by
  rw [encode]
  induction pairs with
  | nil => exact .nil
  | cons pair pairs ih =>
    cases pairs with
    | nil =>
      rw [List.map_singleton, String.intercalate_singleton]
      exact .pair (isPair_encodePair pair)
    | cons pair' pairs =>
      rw [List.map_cons, List.map_cons, String.intercalate_cons_cons]
      exact .append (.pair (isPair_encodePair pair)) ih

@[simp] theorem decode_encode (pairs : List (String × String)) : decode (encode pairs) = pairs :=
  decode_isQuery (isQuery_encode pairs)

def isQueryChar (c : Char) : Bool :=
  isFormChar c || c == '=' || c == '&'

theorem encode_chars (pairs : List (String × String)) :
    (encode pairs).toList.all isQueryChar = true := by
  have hpart (s : String) : ∀ c ∈ encodePart s, isFormChar c = true := by
    intro c hc
    obtain ⟨b, -, hb⟩ := List.mem_flatMap.mp hc
    exact encodeByte_chars b c hb
  rw [encode]
  apply Text.all_intercalate (by decide)
  intro item hitem
  obtain ⟨pair, -, rfl⟩ := List.mem_map.mp hitem
  rw [List.all_eq_true]
  intro c hc
  rw [encodePair, String.toList_ofList, List.mem_append, List.mem_cons] at hc
  obtain h | h | h := hc
  · simp [isQueryChar, hpart _ c h]
  · simp [isQueryChar, h]
  · simp [isQueryChar, hpart _ c h]

theorem hash_notMem_encode (pairs : List (String × String)) : '#' ∉ (encode pairs).toList := by
  intro hmem
  exact absurd (List.all_eq_true.mp (encode_chars pairs) '#' hmem) (by decide)

end Encode

end Form

namespace Request

variable {r : Request} {path query : String}

theorem resource_of_target (htarget : r.target = path ++ "?" ++ query)
    (hslash : path.toList.head? = some '/') (hpath : '#' ∉ path.toList)
    (hquery : '#' ∉ query.toList) : r.resource = path.toList ++ '?' :: query.toList := by
  have hlist : r.target.toList = path.toList ++ '?' :: query.toList := by simp [htarget]
  have hfragment : r.target.toList.takeWhile (· != '#') = path.toList ++ '?' :: query.toList := by
    rw [← hlist, List.takeWhile_eq_self_iff]
    intro c hc
    rw [bne_iff_ne]
    rintro rfl
    rw [hlist] at hc
    simp [hpath, hquery] at hc
  simp only [resource, hfragment]
  rw [if_pos]
  rw [List.head?_append, hslash, Option.some_or]

theorem path_query_of_target (htarget : r.target = path ++ "?" ++ query)
    (hslash : path.toList.head? = some '/') (hpath : '?' ∉ path.toList ∧ '#' ∉ path.toList)
    (hquery : '#' ∉ query.toList) : r.path = path ∧ r.query = query := by
  have hbefore : ∀ c ∈ path.toList, (c != '?') = true := by
    intro c hc
    rw [bne_iff_ne]
    rintro rfl
    exact hpath.1 hc
  rw [Request.path, Request.query, resource_of_target htarget hslash hpath.2 hquery,
    List.takeWhile_append_of_pos hbefore, List.dropWhile_append_of_pos hbefore]
  simp

end Request

section Segment

def IsSegment (s segment : String) : Prop :=
  Text.Spells (IsSpelling ['%', '/', '?', '#']) (Text.Utf8.encode s.toList) segment.toList

variable {s segment : String}

theorem decodeSegment?_isSegment (h : IsSegment s segment) : decodeSegment? segment = some s := by
  rw [decodeSegment?, percentDecode_spells h (by decide), Text.Utf8.decodeStrict?_encode]

theorem IsSegment.ne_empty (h : IsSegment s segment) (hs : s ≠ "") : segment ≠ "" := by
  rintro rfl
  have hempty : decodeSegment? "" = some "" := by decide
  exact hs (Option.some.inj ((decodeSegment?_isSegment h).symm.trans hempty))

theorem slash_notMem (h : IsSegment s segment) : '/' ∉ segment.toList := by
  rw [IsSegment] at h
  generalize Text.Utf8.encode s.toList = bytes at h
  generalize segment.toList = cs at h
  induction h with
  | nil => exact List.not_mem_nil
  | cons hb _ ih =>
    rw [List.mem_append, not_or]
    exact ⟨notMem_isSpelling hb (by decide) (by decide) (by decide), ih⟩

theorem isSegment_percentByte (s : String) :
    IsSegment s (String.ofList ((Text.Utf8.encode s.toList).flatMap percentByte)) := by
  rw [IsSegment, String.toList_ofList]
  induction Text.Utf8.encode s.toList with
  | nil => exact .nil
  | cons b bytes ih => exact .cons (isSpelling_percentByte _ b) ih

end Segment

end QueryConsole.Http
