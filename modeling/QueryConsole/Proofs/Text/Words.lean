import Mathlib.Data.List.Basic
import QueryConsole.Proofs.Text.Split
import QueryConsole.Proofs.Text.Trim

/-! The words of a text are its longest runs of word characters: each is found where it stands, and
nothing else is.  A text made of parts has the words of its parts, unless a run crosses the
joint. -/

namespace QueryConsole.Text

/-- The run stands between two parts of the text and goes on in neither of them. -/
structure IsRunBetween (before after run cs : List Char) : Prop where
  eq : cs = before ++ run ++ after
  ne_nil : run ≠ []
  all : run.all isWordChar = true
  before_last : ∀ c ∈ before.getLast?, isWordChar c = false
  after_head : ∀ c ∈ after.head?, isWordChar c = false

def HasWord (text word : String) : Prop :=
  ∃ before after, IsRunBetween before after word.toList text.toList

def HasFirstWord (text word : String) : Prop :=
  ∃ before after, IsRunBetween before after word.toList text.toList ∧
    ∀ c ∈ before, isWordChar c = false

theorem runInduction {P : List Char → Prop}
    (last : ∀ run : List Char, run.all isWordChar = true → P run)
    (next : ∀ (run : List Char) (c : Char) (cs : List Char), run.all isWordChar = true →
      isWordChar c = false → P cs → P (run ++ c :: cs)) (cs : List Char) : P cs := by
  induction hn : cs.length using Nat.strong_induction_on generalizing cs with
  | _ n ih =>
    have hrun : (cs.takeWhile isWordChar).all isWordChar = true := List.all_takeWhile
    have hsplit := List.takeWhile_append_dropWhile (p := isWordChar) (l := cs)
    cases hrest : cs.dropWhile isWordChar with
    | nil =>
      rw [hrest, List.append_nil] at hsplit
      rw [← hsplit]
      exact last _ hrun
    | cons c rest =>
      have hc := List.head?_dropWhile_not isWordChar cs
      rw [hrest] at hsplit hc
      rw [← hsplit]
      refine next _ c rest hrun (by simpa using hc) (ih rest.length ?_ rest rfl)
      have hlength := congrArg List.length hsplit
      rw [List.length_append, List.length_cons] at hlength
      omega

def runs (cs : List Char) : List (List Char) :=
  (splitChars (fun c => !isWordChar c) cs).filter fun w => !w.isEmpty

theorem words_eq (s : String) : words s = (runs s.toList).map String.ofList := rfl

@[simp] theorem runs_nil : runs [] = [] := rfl

section Runs

variable {c : Char} {run cs ds : List Char}

theorem runs_append_cons (h : isWordChar c = false) :
    runs (cs ++ c :: ds) = runs cs ++ runs ds := by
  rw [runs, splitChars_append_cons (by simp [h]), List.filter_append, runs, runs]

theorem runs_cons (h : isWordChar c = false) : runs (c :: cs) = runs cs := by
  rw [← List.nil_append (c :: cs), runs_append_cons h, runs_nil, List.nil_append]

theorem runs_of_all (h : run.all isWordChar = true) (hne : run ≠ []) : runs run = [run] := by
  have hnone : ∀ c ∈ run, (!isWordChar c) = false := by
    intro c hc
    rw [List.all_eq_true.mp h c hc, Bool.not_true]
  rw [runs, splitChars_of_none hnone]
  simp [hne]

theorem runs_of_none (h : ∀ c ∈ cs, isWordChar c = false) : runs cs = [] := by
  induction cs with
  | nil => rfl
  | cons c cs ih =>
    rw [List.forall_mem_cons] at h
    rw [runs_cons h.1, ih h.2]

theorem runs_append (h : ∀ d ∈ ds.head?, isWordChar d = false) :
    runs (cs ++ ds) = runs cs ++ runs ds := by
  cases ds with
  | nil => simp
  | cons d ds =>
    have hd : isWordChar d = false := h d rfl
    rw [runs_append_cons hd, runs_cons hd]

theorem runs_append' (h : ∀ c ∈ cs.getLast?, isWordChar c = false) :
    runs (cs ++ ds) = runs cs ++ runs ds := by
  rcases List.eq_nil_or_concat cs with rfl | ⟨cs, c, rfl⟩
  · rfl
  · have hc : isWordChar c = false := h c (by simp)
    rw [List.concat_eq_append, List.append_assoc, List.singleton_append, runs_append_cons hc,
      runs_append_cons hc, runs_nil, List.append_nil]

theorem runs_eq_nil (h : runs cs = []) : ∀ c ∈ cs, isWordChar c = false := by
  have hnil {own : List Char} (hall : own.all isWordChar = true) (h : runs own = []) :
      own = [] := by
    by_contra hne
    rw [runs_of_all hall hne] at h
    cases h
  induction cs using runInduction with
  | last own hall =>
    rw [hnil hall h]
    simp
  | next own c cs hall hc ih =>
    rw [runs_append_cons hc, List.append_eq_nil_iff] at h
    rw [hnil hall h.1]
    simpa [hc] using ih h.2

end Runs

namespace IsRunBetween

variable {before after run cs : List Char}

theorem runs_eq (h : IsRunBetween before after run cs) :
    runs cs = runs before ++ run :: runs after := by
  rw [h.eq, runs_append h.after_head, runs_append' h.before_last, runs_of_all h.all h.ne_nil,
    List.append_assoc, List.singleton_append]

theorem whole (hall : run.all isWordChar = true) (hne : run ≠ []) : IsRunBetween [] [] run run :=
  ⟨by simp, hne, hall, by simp, by simp⟩

theorem start {c : Char} (hall : run.all isWordChar = true) (hne : run ≠ [])
    (hc : isWordChar c = false) : IsRunBetween [] (c :: cs) run (run ++ c :: cs) :=
  ⟨by simp, hne, hall, by simp, by simpa using hc⟩

theorem later {own : List Char} {c : Char} (h : IsRunBetween before after run cs)
    (hc : isWordChar c = false) : IsRunBetween (own ++ c :: before) after run (own ++ c :: cs) := by
  refine ⟨by simp [h.eq], h.ne_nil, h.all, ?_, h.after_head⟩
  cases before with
  | nil => simpa using hc
  | cons d before => simpa using h.before_last

end IsRunBetween

theorem exists_isRunBetween {cs run : List Char} {earlier subsequent : List (List Char)}
    (h : runs cs = earlier ++ run :: subsequent) :
    ∃ before after, IsRunBetween before after run cs ∧ runs before = earlier := by
  induction cs using runInduction generalizing earlier with
  | last own hall =>
    by_cases hne : own = []
    · simp [hne] at h
    · rw [runs_of_all hall hne] at h
      cases earlier with
      | nil =>
        obtain ⟨rfl, -⟩ := List.cons_eq_cons.mp h
        exact ⟨[], [], .whole hall hne, rfl⟩
      | cons e earlier => simp at h
  | next own c cs hall hc ih =>
    rw [runs_append_cons hc] at h
    by_cases hne : own = []
    · rw [hne, runs_nil, List.nil_append] at h
      obtain ⟨before, after, hbetween, rfl⟩ := ih h
      exact ⟨own ++ c :: before, after, hbetween.later hc, by rw [hne]; exact runs_cons hc⟩
    · rw [runs_of_all hall hne] at h
      cases earlier with
      | nil =>
        obtain ⟨rfl, -⟩ := List.cons_eq_cons.mp h
        exact ⟨[], c :: cs, .start hall hne hc, rfl⟩
      | cons e earlier =>
        obtain ⟨rfl, hcs⟩ := List.cons_eq_cons.mp h
        obtain ⟨before, after, hbetween, rfl⟩ := ih hcs
        refine ⟨own ++ c :: before, after, hbetween.later hc, ?_⟩
        rw [runs_append_cons hc, runs_of_all hall hne]
        rfl

theorem mem_words_iff {text word : String} : word ∈ words text ↔ HasWord text word := by
  constructor
  · intro h
    rw [words_eq, List.mem_map] at h
    obtain ⟨run, hrun, rfl⟩ := h
    obtain ⟨earlier, subsequent, hruns⟩ := List.append_of_mem hrun
    obtain ⟨before, after, hbetween, -⟩ := exists_isRunBetween hruns
    exact ⟨before, after, by simpa using hbetween⟩
  · rintro ⟨before, after, h⟩
    rw [words_eq, h.runs_eq]
    simp

theorem head?_words_iff {text word : String} :
    (words text).head? = some word ↔ HasFirstWord text word := by
  constructor
  · intro h
    rw [words_eq, List.head?_map, Option.map_eq_some_iff] at h
    obtain ⟨run, hrun, rfl⟩ := h
    obtain ⟨subsequent, hruns⟩ := List.head?_eq_some_iff.mp hrun
    rw [← List.nil_append (run :: subsequent)] at hruns
    obtain ⟨before, after, hbetween, hbefore⟩ := exists_isRunBetween hruns
    exact ⟨before, after, by simpa using hbetween, runs_eq_nil hbefore⟩
  · rintro ⟨before, after, h, hnone⟩
    rw [words_eq, h.runs_eq, runs_of_none hnone]
    simp

section Words

variable {s t : String}

theorem words_append (h : ∀ c ∈ t.toList.head?, isWordChar c = false) :
    words (s ++ t) = words s ++ words t := by
  rw [words_eq, String.toList_append, runs_append h, List.map_append, ← words_eq, ← words_eq]

theorem words_append' (h : ∀ c ∈ s.toList.getLast?, isWordChar c = false) :
    words (s ++ t) = words s ++ words t := by
  rw [words_eq, String.toList_append, runs_append' h, List.map_append, ← words_eq, ← words_eq]

theorem words_of_none (h : ∀ c ∈ s.toList, isWordChar c = false) : words s = [] := by
  rw [words_eq, runs_of_none h, List.map_nil]

theorem words_separated {separator : String} (hne : separator ≠ "")
    (h : ∀ c ∈ separator.toList, isWordChar c = false) :
    words (s ++ separator ++ t) = words s ++ words t := by
  have hlast : ∀ c ∈ (s ++ separator).toList.getLast?, isWordChar c = false := by
    have hnil : separator.toList ≠ [] := fun hnil => hne (String.toList_inj.mp hnil)
    rw [String.toList_append, List.getLast?_append_of_ne_nil _ hnil]
    exact fun c hc => h c (List.mem_of_getLast? hc)
  rw [words_append' hlast, words_append (fun c hc => h c (List.mem_of_head? hc)),
    words_of_none h, List.append_nil]

theorem words_intercalate {separator : String} (hne : separator ≠ "")
    (h : ∀ c ∈ separator.toList, isWordChar c = false) (items : List String) :
    words (separator.intercalate items) = items.flatMap words := by
  induction items with
  | nil => rfl
  | cons item items ih =>
    cases items with
    | nil => simp
    | cons item' items =>
      rw [String.intercalate_cons_cons, words_separated hne h, ih]
      exact List.flatMap_cons.symm

theorem IsWord.words_eq (h : IsWord s) : words s = [s] := by
  rw [Text.words_eq, runs_of_all h.2 h.1, List.map_singleton, String.ofList_toList]

theorem sameWord_iff :
    sameWord s t = true ↔ s.toList.map Char.toUpper = t.toList.map Char.toUpper :=
  beq_iff_eq

theorem IsWord.of_sameWord (ht : IsWord t) (h : sameWord s t = true) : IsWord s := by
  rw [sameWord_iff] at h
  have hall {u : String} :
      (u.toList.map Char.toUpper).all isWordChar = u.toList.all isWordChar := by
    rw [List.all_map]
    congr 1
    exact funext isWordChar_toUpper
  refine ⟨?_, ?_⟩
  · have hne := ht.1
    rintro hs
    rw [hs, List.map_nil] at h
    exact hne (List.map_eq_nil_iff.mp h.symm)
  · rw [← hall, h, hall, ht.2]

end Words

end QueryConsole.Text
