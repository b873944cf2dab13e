import QueryConsole.Text.Word

namespace QueryConsole.Text

inductive Spells {α : Type} (IsSpelling : α → List Char → Prop) : List α → List Char → Prop
  | nil : Spells IsSpelling [] []
  | cons {a : α} {as : List α} {spelling rest : List Char} :
    IsSpelling a spelling → Spells IsSpelling as rest →
      Spells IsSpelling (a :: as) (spelling ++ rest)

theorem Spells.concat {α : Type} {IsSpelling : α → List Char → Prop} {as : List α} {a : α}
    {cs spelling : List Char} (h : Spells IsSpelling as cs) (ha : IsSpelling a spelling) :
    Spells IsSpelling (as ++ [a]) (cs ++ spelling) := by
  induction h with
  | nil =>
    have hsingle := Spells.cons ha .nil
    rwa [List.append_nil] at hsingle
  | cons hfirst _ ih =>
    rw [List.cons_append, List.append_assoc]
    exact .cons hfirst ih

variable {p : Char → Bool} {c : Char} {cs ds : List Char}

theorem splitChars_of_none (h : ∀ c ∈ cs, p c = false) : splitChars p cs = [cs] := by
  induction cs with
  | nil => rfl
  | cons c cs ih =>
    rw [List.forall_mem_cons] at h
    rw [splitChars, ih h.2, if_neg (by simp [h.1])]

theorem splitChars_append_cons (h : p c = true) :
    splitChars p (cs ++ c :: ds) = splitChars p cs ++ splitChars p ds := by
  induction cs with
  | nil =>
    rw [List.nil_append, splitChars.eq_2, if_pos h]
    rfl
  | cons d cs ih =>
    rw [List.cons_append, splitChars, splitChars, ih]
    cases p d with
    | true => rfl
    | false =>
      obtain ⟨piece, pieces, hpieces⟩ := List.exists_cons_of_ne_nil (splitChars_ne_nil p cs)
      rw [hpieces]
      rfl

theorem splitChars_append_left (cs : List Char) (h : ∀ c ∈ ds, p c = false) :
    ∃ first pieces, splitChars p cs = first :: pieces ∧
      splitChars p (ds ++ cs) = (ds ++ first) :: pieces := by
  obtain ⟨first, pieces, hpieces⟩ := List.exists_cons_of_ne_nil (splitChars_ne_nil p cs)
  refine ⟨first, pieces, hpieces, ?_⟩
  induction ds with
  | nil => exact hpieces
  | cons d ds ih =>
    rw [List.forall_mem_cons] at h
    rw [List.cons_append, splitChars, if_neg (by simp [h.1]), ih h.2]
    rfl

theorem splitChars_append_right (cs : List Char) (h : ∀ c ∈ ds, p c = false) :
    ∃ pieces last, splitChars p cs = pieces ++ [last] ∧
      splitChars p (cs ++ ds) = pieces ++ [last ++ ds] := by
  induction cs with
  | nil => exact ⟨[], [], rfl, splitChars_of_none h⟩
  | cons c cs ih =>
    obtain ⟨pieces, last, hcs, happend⟩ := ih
    rw [List.cons_append, splitChars, splitChars, hcs, happend]
    cases p c with
    | true => exact ⟨[] :: pieces, last, rfl, rfl⟩
    | false =>
      cases pieces with
      | nil => exact ⟨[], c :: last, rfl, rfl⟩
      | cons piece pieces => exact ⟨(c :: piece) :: pieces, last, rfl, rfl⟩

theorem splitOn_append (separator : Char) (s t : String) :
    splitOn separator (s ++ String.singleton separator ++ t) =
      splitOn separator s ++ splitOn separator t := by
  have hlist : (s ++ String.singleton separator ++ t).toList =
      s.toList ++ separator :: t.toList := by simp
  rw [splitOn, hlist, splitChars_append_cons (by exact beq_self_eq_true separator), List.map_append]
  rfl

theorem splitOn_intercalate {separator : Char} {items : List String} (hne : items ≠ [])
    (h : ∀ item ∈ items, separator ∉ item.toList) :
    splitOn separator ((String.singleton separator).intercalate items) = items := by
  have hnone {item : String} (hitem : separator ∉ item.toList) :
      ∀ c ∈ item.toList, (c == separator) = false := by
    intro c hc
    rw [beq_eq_false_iff_ne]
    rintro rfl
    exact hitem hc
  induction items with
  | nil => exact absurd rfl hne
  | cons item items ih =>
    rw [List.forall_mem_cons] at h
    cases items with
    | nil =>
      rw [String.intercalate_singleton, splitOn, splitChars_of_none (hnone h.1)]
      simp
    | cons item' items =>
      rw [String.intercalate_cons_cons, splitOn_append, ih (List.cons_ne_nil _ _) h.2, splitOn,
        splitChars_of_none (hnone h.1), List.map_singleton, String.ofList_toList,
        List.singleton_append]

theorem splitLast_eq_some {s head tail : String} :
    splitLast p s = some (head, tail) ↔
      ∃ c, p c = true ∧ s.toList = head.toList ++ c :: tail.toList ∧
        ∀ d ∈ tail.toList, p d = false := by
  constructor
  · intro h
    rw [splitLast] at h
    split at h
    · cases h
    · next c rest hdrop =>
      cases h
      have hsplit : s.toList.reverse = s.toList.reverse.takeWhile (fun c => !p c) ++ c :: rest := by
        rw [← hdrop, List.takeWhile_append_dropWhile]
      refine ⟨c, ?_, ?_, ?_⟩
      · have hc := List.head?_dropWhile_not (fun c => !p c) s.toList.reverse
        rw [hdrop] at hc
        simpa using hc
      · simpa using congrArg List.reverse hsplit
      · intro d hd
        rw [String.toList_ofList, List.mem_reverse] at hd
        simpa using List.all_eq_true.mp List.all_takeWhile d hd
  · rintro ⟨c, hc, hs, htail⟩
    have hreverse : s.toList.reverse = tail.toList.reverse ++ c :: head.toList.reverse := by
      rw [hs]
      simp
    have hkept : ∀ d ∈ tail.toList.reverse, (!p d) = true := by
      intro d hd
      simp [htail d (List.mem_reverse.mp hd)]
    simp only [splitLast, hreverse]
    rw [List.dropWhile_append_of_pos hkept, List.takeWhile_append_of_pos hkept]
    simp [hc]

end QueryConsole.Text
