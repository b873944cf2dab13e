import QueryConsole.Proofs.Statement.Decoding
import QueryConsole.Proofs.Statement.Fragments

/-! What a bound value cannot do to its text form.  A reader that knows of quotes and backslashes
alone cuts an array literal into its items: whatever an item holds, its quotes end behind it, and
nothing of it comes to stand between two items. -/

namespace QueryConsole

inductive Quoting : Type
  | outside : Quoting
  | inside : Quoting
  | escaping : Quoting
  deriving DecidableEq

namespace Quoting

def step : Quoting → Char → Quoting
  | .outside, c => if c = '\'' then .inside else .outside
  | .inside, c => if c = '\'' then .outside else if c = '\\' then .escaping else .inside
  | .escaping, _ => .inside

/-- The pieces between the quotes that open and end an item, the first of them after what is read
of it. -/
def cut : Quoting → List Char → List Char → List (List Char)
  | _, read, [] => [read]
  | q, read, c :: cs =>
    if c = '\'' ∧ q ≠ .escaping then read :: cut (q.step c) [] cs
    else cut (q.step c) (read ++ [c]) cs

def written (s : String) : List Char :=
  escapeWith quotedEscapeLetter? s.toList

def pieces (items : List String) : List (List Char) :=
  if items.isEmpty then [['[', ']']]
  else ['['] :: ((items.map written).intersperse [','] ++ [[']']])

section Cut

variable {cs read : List Char} {c letter : Char}

theorem cut_opening (read cs : List Char) :
    cut .outside read ('\'' :: cs) = read :: cut .inside [] cs := by
  rw [cut, if_pos ⟨rfl, by decide⟩]
  rfl

theorem cut_closing (read cs : List Char) :
    cut .inside read ('\'' :: cs) = read :: cut .outside [] cs := by
  rw [cut, if_pos ⟨rfl, by decide⟩]
  rfl

theorem cut_outside (h : c ≠ '\'') :
    cut .outside read (c :: cs) = cut .outside (read ++ [c]) cs := by
  rw [cut, if_neg fun hc => h hc.1, step, if_neg h]

theorem cut_raw (h : quotedEscapeLetter? c = none) :
    cut .inside read (c :: cs) = cut .inside (read ++ [c]) cs := by
  have hquote : c ≠ '\'' := by
    rintro rfl
    exact absurd h (by decide)
  have hbackslash : c ≠ '\\' := by
    rintro rfl
    exact absurd h (by decide)
  rw [cut, if_neg fun hc => hquote hc.1, step, if_neg hquote, if_neg hbackslash]

theorem cut_escape :
    cut .inside read ('\\' :: letter :: cs) = cut .inside (read ++ ['\\', letter]) cs := by
  rw [cut, if_neg (by decide), step, if_neg (by decide), if_pos rfl, cut, if_neg (by simp),
    List.append_assoc]
  rfl

theorem cut_escapeWith (cs read rest : List Char) :
    cut .inside read (escapeWith quotedEscapeLetter? cs ++ rest) =
      cut .inside (read ++ escapeWith quotedEscapeLetter? cs) rest := by
  induction cs generalizing read with
  | nil => rw [escapeWith, List.nil_append, List.append_nil]
  | cons c cs ih =>
    rw [escapeWith]
    cases hletter : quotedEscapeLetter? c with
    | none =>
      simp only [List.cons_append]
      rw [cut_raw hletter, ih, List.append_assoc, List.singleton_append]
    | some letter =>
      simp only [List.cons_append]
      rw [cut_escape, ih, List.append_assoc]
      rfl

theorem cut_quoteItem (s : String) (read rest : List Char) :
    cut .outside read ((quoteItem s).toList ++ rest) =
      read :: written s :: cut .outside [] rest := by
  rw [toList_quoteItem, List.cons_append, List.append_assoc, List.singleton_append, cut_opening,
    cut_escapeWith, cut_closing, List.nil_append, written]

theorem cut_items (s : String) (items : List String) (read : List Char) :
    cut .outside read ((",".intercalate ((s :: items).map quoteItem)).toList ++ [']']) =
      read :: (((s :: items).map written).intersperse [','] ++ [[']']]) := by
  induction items generalizing s read with
  | nil =>
    rw [List.map_singleton, String.intercalate_singleton, cut_quoteItem]
    rfl
  | cons s' items ih =>
    have hlist : (",".intercalate ((s :: s' :: items).map quoteItem)).toList ++ [']'] =
        (quoteItem s).toList ++
          ',' :: ((",".intercalate ((s' :: items).map quoteItem)).toList ++ [']']) := by
      simp [String.intercalate_cons_cons]
    rw [hlist, cut_quoteItem, cut_outside (by decide), ih]
    simp

theorem cut_encode (items : List String) :
    cut .outside [] (Value.textArray items).encode.toList = pieces items := by
  have hlist : (Value.textArray items).encode.toList =
      '[' :: ((",".intercalate (items.map quoteItem)).toList ++ [']']) := by
    simp [Value.encode]
  rw [hlist, cut_outside (by decide)]
  cases items with
  | nil => rfl
  | cons s items => exact cut_items s items ['[']

end Cut

end Quoting

def isSeparator (c : Char) : Bool :=
  c == '\t' || c == '\n' || c == '\r'

def IsUnseparated (s : String) : Prop :=
  s.toList.all (fun c => !isSeparator c) = true

section Unseparated

variable {letter? : Char → Option Char}

theorem escapeLetter?_of_isSeparator {c : Char} (h : isSeparator c = true) :
    ∃ letter, escapeLetter? c = some letter := by
  simp only [isSeparator, Bool.or_eq_true, beq_iff_eq] at h
  obtain (rfl | rfl) | rfl := h
  · exact ⟨'t', rfl⟩
  · exact ⟨'n', rfl⟩
  · exact ⟨'r', rfl⟩

theorem isUnseparated_escapeWith
    (hletter : ∀ c letter, letter? c = some letter → isSeparator letter = false)
    (hraw : ∀ c, letter? c = none → escapeLetter? c = none) (cs : List Char) :
    IsUnseparated (String.ofList (escapeWith letter? cs)) := by
  rw [IsUnseparated, String.toList_ofList]
  refine all_escapeWith (by decide) (fun c letter hc => by simp [hletter c letter hc]) ?_
  intro c _ hc
  rw [Bool.not_eq_true', Bool.eq_false_iff]
  intro hseparator
  obtain ⟨letter, hletter⟩ := escapeLetter?_of_isSeparator hseparator
  rw [hraw c hc] at hletter
  cases hletter

theorem isSeparator_escapeLetter {c letter : Char} (h : escapeLetter? c = some letter) :
    isSeparator letter = false := by
  rw [escapeLetter?.eq_def] at h
  split at h <;> cases h <;> rfl

theorem isUnseparated_escapeText (s : String) : IsUnseparated (escapeText s) :=
  isUnseparated_escapeWith (fun _ _ => isSeparator_escapeLetter) (fun _ h => h) s.toList

theorem isUnseparated_quoteItem (s : String) : IsUnseparated (quoteItem s) := by
  have hitem : IsUnseparated (String.ofList (escapeWith quotedEscapeLetter? s.toList)) := by
    apply isUnseparated_escapeWith
    · intro c letter h
      rw [quotedEscapeLetter?] at h
      split at h
      · cases h
        rfl
      · exact isSeparator_escapeLetter h
    · intro c h
      rw [quotedEscapeLetter?] at h
      split at h
      · cases h
      · exact h
  rw [IsUnseparated, quoteItem, String.toList_append, String.toList_append, List.all_append,
    List.all_append, hitem]
  rfl

theorem isUnseparated_encode (items : List String) :
    IsUnseparated (Value.textArray items).encode := by
  have hitems : IsUnseparated (",".intercalate (items.map quoteItem)) := by
    apply Text.all_intercalate (by decide)
    intro item hitem
    obtain ⟨s, -, rfl⟩ := List.mem_map.mp hitem
    exact isUnseparated_quoteItem s
  rw [IsUnseparated, Value.encode, String.toList_append, String.toList_append, List.all_append,
    List.all_append, hitems]
  rfl

end Unseparated

/-- What is written of a value reads back as the value, so no two values of a type are written
alike.  Of a text and of an array nothing separates values or rows, and an array is cut at its
quotes into the items it was written from. -/
theorem encode_faithful :
    (∀ v : Value, v.type.decode? v.encode = some v) ∧
    (∀ v w : Value, v.type = w.type → v.encode = w.encode → v = w) ∧
    (∀ s : String, IsUnseparated (Value.text s).encode) ∧
    (∀ items : List String, IsUnseparated (Value.textArray items).encode ∧
      Quoting.cut .outside [] (Value.textArray items).encode.toList = Quoting.pieces items) :=
  ⟨Value.decode?_encode, fun _ _ => Value.encode_injective, isUnseparated_escapeText,
    fun items => ⟨isUnseparated_encode items, Quoting.cut_encode items⟩⟩

theorem encode_faithful_smuggled :
    Quoting.cut .outside [] (Value.textArray ["a\\", "b','c"]).encode.toList =
      [['['], "a\\\\".toList, [','], "b\\',\\'c".toList, [']']] ∧
    (Value.textArray ["a\\", "b','c"]).encode ≠ (Value.textArray ["a\\", "b", "c"]).encode := by
  obtain ⟨-, hinjective, -, hitems⟩ := encode_faithful
  constructor
  · rw [(hitems ["a\\", "b','c"]).2]
    decide
  · intro h
    have heq := hinjective _ _ (by rfl) h
    revert heq
    decide

end QueryConsole
