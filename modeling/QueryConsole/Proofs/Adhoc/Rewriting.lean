import QueryConsole.Proofs.Adhoc.Screening
import QueryConsole.Proofs.Text.Words

/-! What becomes of an operator's statement.  Of the text only the terminators and a directive for
the output format at its end are dropped; what is kept stands first in the statement, before a row
cap and the one output format. -/

namespace QueryConsole.Adhoc

open Text (isBlank isWordChar IsWord HasWord HasFirstWord sameWord dropEndWhile)

/-- The query without the blanks before it and without the blanks and semicolons behind it. -/
structure IsStripped (query statement : String) : Prop where
  parts : ∃ before behind : List Char, query.toList = before ++ statement.toList ++ behind ∧
    (∀ c ∈ before, isBlank c = true) ∧ ∀ c ∈ behind, isTerminator c = true
  head : ∀ c ∈ statement.toList.head?, isBlank c = false
  last : ∀ c ∈ statement.toList.getLast?, isTerminator c = false

def BeginsForbidden (text : String) : Prop :=
  ∃ keyword ∈ forbiddenKeywords, ∃ start rest : String,
    text = start ++ rest ∧ sameWord start keyword = true

def IsGap (s : String) : Prop :=
  s ≠ "" ∧ Text.isBlankText s = true

inductive IsDirective : String → Prop
  | named {gap keyword gap' name : String} : IsGap gap → sameWord keyword "FORMAT" = true →
    IsGap gap' → Text.isIdentifier name = true → IsDirective (gap ++ keyword ++ gap' ++ name)

def EndsInFormat (body statement : String) : Prop :=
  ∃ directive, IsDirective directive ∧ statement = body ++ directive

def IsQueryWord (word : String) : Prop :=
  sameWord word "SELECT" = true ∨ sameWord word "WITH" = true

instance (word : String) : Decidable (IsQueryWord word) :=
  inferInstanceAs (Decidable (_ ∨ _))

/-- A query whose rows nobody has limited, and that does not end in a parenthesis. -/
structure NeedsCap (body : String) : Prop where
  isQuery : ∃ word, HasFirstWord body word ∧ IsQueryWord word
  unlimited : ∀ word, HasWord body word → sameWord word "LIMIT" = false
  isOpen : body.toList.getLast? ≠ some ')'

def capClause : String :=
  " LIMIT " ++ Placeholder.text ⟨"limit", .uint64⟩

def formatClause : String :=
  " FORMAT " ++ outputFormat

/-- What is made of the statement: how much of it is kept, and what is put behind that. -/
structure Rewriting (statement : String) where
  body : String
  capped : Bool
  formatted : Bool
  body_ne : body ≠ ""
  body_last : ∀ c ∈ body.toList.getLast?, isBlank c = false
  kept : if formatted then EndsInFormat body statement else body = statement
  formatted_iff : formatted = true ↔ ∃ text, EndsInFormat text statement
  capped_iff : capped = true ↔ NeedsCap body

def assemble (body : String) (limit : UInt64) (capped formatted : Bool) : Statement where
  text := body ++ (if capped then capClause else "") ++ if formatted then formatClause else ""
  bindings := if capped then ⟨[⟨"limit", .uint64 limit⟩]⟩ else ∅

def Rewriting.result {statement : String} (r : Rewriting statement) (limit : UInt64) : Statement :=
  assemble r.body limit r.capped r.formatted

theorem isStripped_withoutTerminators (query : String) :
    IsStripped query (withoutTerminators query) := by
  have hstatement := toList_withoutTerminators query
  obtain ⟨behind, hbehind, hdropped⟩ :=
    Text.exists_dropEndWhile_append isTerminator (query.toList.dropWhile isBlank)
  rw [← hstatement] at hbehind
  refine ⟨⟨query.toList.takeWhile isBlank, behind, ?_, ?_, hdropped⟩, ?_, ?_⟩
  · rw [List.append_assoc, ← hbehind, List.takeWhile_append_dropWhile]
  · exact List.all_eq_true.mp List.all_takeWhile
  · intro c hc
    have hhead := List.head?_dropWhile_not isBlank query.toList
    rw [hbehind, List.head?_append, hc] at hhead
    simpa using hhead
  · rw [hstatement]
    exact Text.getLast?_dropEndWhile isTerminator _

theorem IsStripped.eq {query statement : String} (h : IsStripped query statement) :
    withoutTerminators query = statement := by
  obtain ⟨before, behind, hquery, hbefore, hbehind⟩ := h.parts
  rw [← String.toList_inj, toList_withoutTerminators, hquery, List.append_assoc,
    List.dropWhile_append_of_pos hbefore]
  cases hstatement : statement.toList with
  | nil =>
    rw [List.nil_append]
    have hnone := Text.getLast?_dropEndWhile isTerminator (behind.dropWhile isBlank)
    obtain ⟨dropped, hdropped, -⟩ :=
      Text.exists_dropEndWhile_append isTerminator (behind.dropWhile isBlank)
    cases hlast : (dropEndWhile isTerminator (behind.dropWhile isBlank)).getLast? with
    | none => exact List.getLast?_eq_none_iff.mp hlast
    | some c =>
      have hmem : c ∈ behind.dropWhile isBlank := by
        rw [hdropped]
        exact List.mem_append_left _ (List.mem_of_getLast? hlast)
      have hc := hbehind c ((List.dropWhile_sublist _).subset hmem)
      rw [hnone c hlast] at hc
      cases hc
  | cons c cs =>
    have hc : isBlank c = false := h.head c (by rw [hstatement]; rfl)
    have hall : behind.all isTerminator = true := List.all_eq_true.mpr hbehind
    have hlast := h.last
    rw [hstatement] at hlast
    rw [List.cons_append, List.dropWhile_cons_of_neg (by simp [hc]), ← List.cons_append,
      Text.dropEndWhile_append_of_all hall, Text.dropEndWhile_of_last hlast]

theorem withoutTerminators_eq_self {statement : String}
    (hhead : ∀ c ∈ statement.toList.head?, isBlank c = false)
    (hlast : ∀ c ∈ statement.toList.getLast?, isTerminator c = false) :
    withoutTerminators statement = statement :=
  IsStripped.eq ⟨⟨[], [], by simp, by simp, by simp⟩, hhead, hlast⟩

section Directive

variable {body statement : String}

theorem isWordChar_eq_false_of_isBlank {c : Char} (h : isBlank c = true) :
    isWordChar c = false := by
  by_contra hword
  rw [Text.isBlank_eq_false_of_isWordChar (by simpa using hword)] at h
  cases h

theorem isWordChar_eq_false_of_isTerminator {c : Char} (h : isTerminator c = true) :
    isWordChar c = false := by
  by_contra hword
  rw [isTerminator_eq_false_of_isWordChar (by simpa using hword)] at h
  cases h

theorem IsGap.isWordChar_eq_false {gap : String} (h : IsGap gap) :
    ∀ c ∈ gap.toList, isWordChar c = false :=
  fun c hc => isWordChar_eq_false_of_isBlank (List.all_eq_true.mp h.2 c hc)

theorem toList_trimEnd (s : String) : (trimEnd s).toList = dropEndWhile isBlank s.toList := by
  rw [trimEnd, String.toList_ofList]

theorem trimEnd_eq_self (h : ∀ c ∈ body.toList.getLast?, isBlank c = false) :
    trimEnd body = body := by
  rw [← String.toList_inj, toList_trimEnd, Text.dropEndWhile_of_last h]

theorem isBlank_eq_false_of_isWord {word : String} (h : IsWord word) :
    ∀ c ∈ word.toList, isBlank c = false :=
  fun c hc => Text.isBlank_eq_false_of_isWordChar (List.all_eq_true.mp h.2 c hc)

theorem isWord_of_sameWord_format {keyword : String} (h : sameWord keyword "FORMAT" = true) :
    IsWord keyword :=
  IsWord.of_sameWord (by decide) h

theorem splitLast_gap {gap word : String} (hgap : IsGap gap) (hword : IsWord word) (text : String) :
    ∃ blanks : List Char, blanks.all isBlank = true ∧
      Text.splitLast isBlank (text ++ gap ++ word) =
        some (String.ofList (text.toList ++ blanks), word) := by
  obtain ⟨hne, hblank⟩ := hgap
  rw [Text.isBlankText] at hblank
  rcases List.eq_nil_or_concat gap.toList with hnil | ⟨blanks, c, hgap⟩
  · exact absurd (String.toList_inj.mp hnil) hne
  · rw [hgap, List.concat_eq_append, List.all_append, Bool.and_eq_true] at hblank
    refine ⟨blanks, hblank.1, Text.splitLast_eq_some.mpr ⟨c, by simpa using hblank.2, ?_, ?_⟩⟩
    · rw [String.toList_append, String.toList_append, hgap]
      simp
    · exact isBlank_eq_false_of_isWord hword

theorem beforeFormat?_words {text gap word gap' name : String} (hgap : IsGap gap)
    (hword : IsWord word) (hgap' : IsGap gap') (hname : Text.isIdentifier name = true) :
    beforeFormat? (text ++ gap ++ word ++ gap' ++ name) =
      if sameWord word "FORMAT" then some (trimEnd text) else none := by
  obtain ⟨blanks', hblanks', hlast⟩ :=
    splitLast_gap hgap' (Text.isWord_of_isIdentifier hname) (text ++ gap ++ word)
  obtain ⟨blanks, hblanks, hlast'⟩ := splitLast_gap hgap hword text
  have hhead : trimEnd (String.ofList ((text ++ gap ++ word).toList ++ blanks')) =
      text ++ gap ++ word := by
    rw [← String.toList_inj, toList_trimEnd, String.toList_ofList,
      Text.dropEndWhile_append_of_all hblanks', Text.dropEndWhile_of_last]
    intro c hc
    rw [String.toList_append, List.getLast?_append_of_ne_nil _ hword.1] at hc
    exact isBlank_eq_false_of_isWord hword c (List.mem_of_getLast? hc)
  have htext : trimEnd (String.ofList (text.toList ++ blanks)) = trimEnd text := by
    rw [← String.toList_inj, toList_trimEnd, toList_trimEnd, String.toList_ofList,
      Text.dropEndWhile_append_of_all hblanks]
  rw [beforeFormat?, hlast]
  simp only [hname, if_true, hhead, hlast', htext]

theorem beforeFormat?_of_endsInFormat (h : EndsInFormat body statement) :
    beforeFormat? statement = some (trimEnd body) := by
  obtain ⟨_, ⟨hgap, hkeyword, hgap', hname⟩, rfl⟩ := h
  rw [← String.append_assoc, ← String.append_assoc, ← String.append_assoc,
    beforeFormat?_words hgap (isWord_of_sameWord_format hkeyword) hgap' hname, if_pos hkeyword]

theorem exists_gap {text before word : String}
    (h : Text.splitLast isBlank text = some (before, word)) :
    ∃ gap, IsGap gap ∧ text = trimEnd before ++ gap ++ word := by
  obtain ⟨c, hc, htext, -⟩ := Text.splitLast_eq_some.mp h
  obtain ⟨dropped, hbefore, hdropped⟩ := Text.exists_dropEndWhile_append isBlank before.toList
  refine ⟨String.ofList (dropped ++ [c]), ⟨by simp [← String.toList_inj], ?_⟩, ?_⟩
  · rw [Text.isBlankText, String.toList_ofList, List.all_append, List.all_eq_true.mpr hdropped]
    simp [hc]
  · rw [← String.toList_inj, htext, hbefore]
    simp [toList_trimEnd]

theorem beforeFormat?_cases (statement : String) :
    beforeFormat? statement = none ∨ ∃ head name body keyword,
      Text.splitLast isBlank statement = some (head, name) ∧ Text.isIdentifier name = true ∧
      Text.splitLast isBlank (trimEnd head) = some (body, keyword) ∧
      sameWord keyword "FORMAT" = true ∧ beforeFormat? statement = some (trimEnd body) := by
  rw [beforeFormat?]
  cases hsplit : Text.splitLast isBlank statement with
  | none => exact .inl rfl
  | some parts =>
    obtain ⟨head, name⟩ := parts
    cases hname : Text.isIdentifier name with
    | false => exact .inl (by simp [hname])
    | true =>
      cases hsplit' : Text.splitLast isBlank (trimEnd head) with
      | none => exact .inl (by simp [hname, hsplit'])
      | some parts =>
        obtain ⟨body, keyword⟩ := parts
        cases hkeyword : sameWord keyword "FORMAT" with
        | false => exact .inl (by simp [hname, hsplit', hkeyword])
        | true => exact .inr ⟨head, name, body, keyword, rfl, hname, hsplit', hkeyword,
            by simp [hname, hsplit', hkeyword]⟩

theorem endsInFormat_of_beforeFormat? (h : beforeFormat? statement = some body) :
    EndsInFormat body statement ∧ ∀ c ∈ body.toList.getLast?, isBlank c = false := by
  obtain hnone | ⟨head, name, text, keyword, hsplit, hname, hsplit', hkeyword, hsome⟩ :=
    beforeFormat?_cases statement
  · rw [hnone] at h
    cases h
  · rw [hsome] at h
    cases h
    obtain ⟨gap', hgap', hstatement⟩ := exists_gap hsplit
    obtain ⟨gap, hgap, htrimmed⟩ := exists_gap hsplit'
    refine ⟨⟨_, .named hgap hkeyword hgap' hname, ?_⟩, ?_⟩
    · rw [hstatement, htrimmed]
      simp only [String.append_assoc]
    rw [toList_trimEnd]
    exact Text.getLast?_dropEndWhile isBlank _

theorem beforeFormat?_eq_some : beforeFormat? statement = some body ↔
    EndsInFormat body statement ∧ ∀ c ∈ body.toList.getLast?, isBlank c = false := by
  constructor
  · exact endsInFormat_of_beforeFormat?
  · rintro ⟨h, hlast⟩
    rw [beforeFormat?_of_endsInFormat h, trimEnd_eq_self hlast]

end Directive

section Keyword

variable {keyword text : String}

theorem startsWithWord_iff_exists (hmem : keyword ∈ forbiddenKeywords) :
    startsWithWord keyword text = true ↔
      ∃ start rest : String, text = start ++ rest ∧ sameWord start keyword = true := by
  simp only [startsWithWord_iff, Text.sameWord_iff, map_toUpper_forbidden keyword hmem]
  constructor
  · intro h
    refine ⟨String.ofList (text.toList.take keyword.toList.length),
      String.ofList (text.toList.drop keyword.toList.length), ?_, ?_⟩
    · rw [← String.toList_inj]
      simp
    · rw [String.toList_ofList, List.map_take]
      exact (List.prefix_iff_eq_take.mp h).symm
  · rintro ⟨start, rest, rfl, hstart⟩
    rw [String.toList_append, List.map_append, hstart]
    exact List.prefix_append _ _

theorem beginsForbidden_iff : BeginsForbidden text ↔ forbiddenKeyword? text ≠ none := by
  rw [forbiddenKeyword?, Option.ne_none_iff_isSome, List.find?_isSome]
  constructor
  · rintro ⟨keyword, hmem, hstarts⟩
    exact ⟨keyword, hmem, (startsWithWord_iff_exists hmem).mpr hstarts⟩
  · rintro ⟨keyword, hmem, hstarts⟩
    exact ⟨keyword, hmem, (startsWithWord_iff_exists hmem).mp hstarts⟩

theorem BeginsForbidden.of_append_break {longer : String} {c : Char} {rest : List Char}
    (h : BeginsForbidden longer) (hc : isWordChar c = false)
    (hlonger : longer.toList = text.toList ++ c :: rest) : BeginsForbidden text := by
  have hword : ∀ keyword ∈ forbiddenKeywords, keyword.toList.all isWordChar = true := by
    decide
  obtain ⟨keyword, hmem, hstarts⟩ := h
  have hbreak : c.toUpper ∉ keyword.toList := by
    intro hin
    have hupper := List.all_eq_true.mp (hword keyword hmem) _ hin
    rw [Text.isWordChar_toUpper, hc] at hupper
    cases hupper
  refine ⟨keyword, hmem, ?_⟩
  rw [← startsWithWord_iff_exists hmem, startsWithWord_iff] at hstarts ⊢
  have hcut : text.toList.map Char.toUpper ++ [c.toUpper] <+: longer.toList.map Char.toUpper := by
    rw [hlonger]
    exact ⟨rest.map Char.toUpper, by simp⟩
  obtain hinitial | hinitial := List.prefix_or_prefix_of_prefix hstarts hcut
  · obtain heq | hinitial := List.prefix_concat_iff.mp hinitial
    · exact absurd (by simp [heq]) hbreak
    · exact hinitial
  · exact absurd (hinitial.subset (by simp)) hbreak

end Keyword

theorem needsCap_iff {body : String} : NeedsCap body ↔
    (∃ word, (Text.words body).head? = some word ∧ IsQueryWord word) ∧
    (∀ word ∈ Text.words body, sameWord word "LIMIT" = false) ∧
    body.toList.getLast? ≠ some ')' := by
  simp only [Text.head?_words_iff, Text.mem_words_iff]
  exact ⟨fun h => ⟨h.isQuery, h.unlimited, h.isOpen⟩, fun h => ⟨h.1, h.2.1, h.2.2⟩⟩

theorem needsLimit_iff {body : String} : needsLimit body = true ↔ NeedsCap body := by
  rw [needsCap_iff, needsLimit]
  cases (Text.words body).head? with
  | none => simp
  | some first => simp [IsQueryWord, and_assoc]

def kept (statement : String) : String :=
  (beforeFormat? statement).getD statement

theorem limited_eq (body : String) (limit : UInt64) :
    limited body limit = assemble body limit (needsLimit body) false := by
  rw [limited]
  cases needsLimit body with
  | true =>
    simp only [assemble, if_true, capClause, String.append_assoc]
    rfl
  | false => simp [assemble]

theorem limited_formatted (body : String) (limit : UInt64) :
    Statement.mk ((limited body limit).text ++ " FORMAT " ++ outputFormat)
        (limited body limit).bindings =
      assemble body limit (needsLimit body) true := by
  rw [limited_eq]
  simp [assemble, formatClause, String.append_assoc]

theorem compile_eq_ok {query : String} {limit : UInt64} {s : Statement} :
    compile query limit = .ok s ↔
      (withoutTerminators query ≠ "" ∧ limit ≠ 0 ∧
        ¬ BeginsForbidden (withoutTerminators query)) ∧
      s = assemble (kept (withoutTerminators query)) limit
        (needsLimit (kept (withoutTerminators query)))
        (beforeFormat? (withoutTerminators query)).isSome := by
  have hrewritten : rewritten query limit =
      assemble (kept (withoutTerminators query)) limit
        (needsLimit (kept (withoutTerminators query)))
        (beforeFormat? (withoutTerminators query)).isSome := by
    rw [rewritten, kept]
    cases beforeFormat? (withoutTerminators query) with
    | none => exact limited_eq _ _
    | some body => exact limited_formatted _ _
  rw [compile_eq_ok_rewritten, hrewritten, beginsForbidden_iff, not_not]
  exact and_congr_right fun _ => eq_comm

section Ends

variable {body statement : String}

theorem IsDirective.getLast? {directive : String} (h : IsDirective directive) (text : String) :
    ∃ c, (text ++ directive).toList.getLast? = some c ∧ isWordChar c = true := by
  obtain ⟨-, -, -, hname⟩ := h
  rename_i gap keyword gap' name
  have hword := Text.isWord_of_isIdentifier hname
  rw [← String.append_assoc, String.toList_append, List.getLast?_append_of_ne_nil _ hword.1]
  cases hlast : name.toList.getLast? with
  | none => exact absurd (List.getLast?_eq_none_iff.mp hlast) hword.1
  | some c => exact ⟨c, rfl, List.all_eq_true.mp hword.2 c (List.mem_of_getLast? hlast)⟩

theorem IsDirective.exists_blank {directive : String} (h : IsDirective directive) :
    ∃ c rest, directive.toList = c :: rest ∧ isBlank c = true := by
  obtain ⟨⟨hne, hblank⟩, -, -, -⟩ := h
  rename_i gap keyword gap' name
  rw [Text.isBlankText] at hblank
  cases hgap : gap.toList with
  | nil => exact absurd (String.toList_inj.mp hgap) hne
  | cons c cs =>
    rw [hgap, List.all_cons, Bool.and_eq_true] at hblank
    exact ⟨c, cs ++ keyword.toList ++ gap'.toList ++ name.toList, by simp [hgap], hblank.1⟩

theorem IsDirective.words {directive : String} (h : IsDirective directive) :
    ∃ keyword name, Text.words directive = [keyword, name] ∧ sameWord keyword "FORMAT" = true := by
  obtain ⟨hgap, hkeyword, hgap', hname⟩ := h
  rename_i gap keyword gap' name
  have hkeywords : Text.words (gap ++ keyword) = [keyword] := by
    have hempty : gap ++ keyword = "" ++ gap ++ keyword := by simp
    rw [hempty, Text.words_separated hgap.1 hgap.isWordChar_eq_false,
      (isWord_of_sameWord_format hkeyword).words_eq]
    rfl
  refine ⟨keyword, name, ?_, hkeyword⟩
  rw [Text.words_separated hgap'.1 hgap'.isWordChar_eq_false, hkeywords,
    (Text.isWord_of_isIdentifier hname).words_eq]
  rfl

theorem beforeFormat?_eq_none (h : ∀ c ∈ statement.toList.getLast?, isWordChar c = false) :
    beforeFormat? statement = none := by
  by_contra hsome
  obtain ⟨body, hbody⟩ := Option.ne_none_iff_exists'.mp hsome
  obtain ⟨directive, hdirective, rfl⟩ := (endsInFormat_of_beforeFormat? hbody).1
  obtain ⟨c, hlast, hc⟩ := hdirective.getLast? body
  rw [h c hlast] at hc
  cases hc

theorem beforeFormat?_isSome_iff :
    (beforeFormat? statement).isSome = true ↔ ∃ text, EndsInFormat text statement := by
  constructor
  · intro h
    obtain ⟨body, hbody⟩ := Option.isSome_iff_exists.mp h
    exact ⟨body, (endsInFormat_of_beforeFormat? hbody).1⟩
  · rintro ⟨text, h⟩
    rw [beforeFormat?_of_endsInFormat h]
    rfl

theorem kept_isPrefix (statement : String) : (kept statement).toList <+: statement.toList := by
  rw [kept]
  cases h : beforeFormat? statement with
  | none => exact List.prefix_rfl
  | some body =>
    obtain ⟨directive, -, rfl⟩ := (endsInFormat_of_beforeFormat? h).1
    exact ⟨directive.toList, by simp⟩

theorem kept_ne_empty (hne : statement ≠ "")
    (hhead : ∀ c ∈ statement.toList.head?, isBlank c = false) : kept statement ≠ "" := by
  rw [kept]
  cases h : beforeFormat? statement with
  | none => exact hne
  | some body =>
    rintro rfl
    obtain ⟨directive, hdirective, rfl⟩ := (endsInFormat_of_beforeFormat? h).1
    obtain ⟨c, rest, htext, hc⟩ := hdirective.exists_blank
    rw [hhead c (by simp [htext])] at hc
    cases hc

theorem kept_last (hlast : ∀ c ∈ statement.toList.getLast?, isTerminator c = false) :
    ∀ c ∈ (kept statement).toList.getLast?, isBlank c = false := by
  rw [kept]
  cases h : beforeFormat? statement with
  | none =>
    intro c hc
    have hterminator := hlast c hc
    rw [isTerminator, Bool.or_eq_false_iff] at hterminator
    exact hterminator.2
  | some body => exact (endsInFormat_of_beforeFormat? h).2

theorem beginsForbidden_of_isPrefix {text : String} (h : BeginsForbidden text)
    (hinitial : text.toList <+: statement.toList) : BeginsForbidden statement := by
  obtain ⟨keyword, hmem, start, rest, rfl, hstart⟩ := h
  obtain ⟨after, hafter⟩ := hinitial
  refine ⟨keyword, hmem, start, rest ++ String.ofList after, ?_, hstart⟩
  rw [← String.toList_inj, ← hafter]
  simp

end Ends

section Assemble

variable {body : String} {limit : UInt64}

theorem exists_capClause : ∃ rest, capClause.toList = ' ' :: rest :=
  ⟨capClause.toList.tail, by decide⟩

theorem exists_formatClause : ∃ rest, formatClause.toList = ' ' :: rest :=
  ⟨formatClause.toList.tail, by decide⟩

theorem toList_assemble (body : String) (limit : UInt64) (capped formatted : Bool) :
    (assemble body limit capped formatted).text = body ∨
      ∃ rest, (assemble body limit capped formatted).text.toList = body.toList ++ ' ' :: rest := by
  obtain ⟨cap, hcap⟩ := exists_capClause
  obtain ⟨format, hformat⟩ := exists_formatClause
  cases capped <;> cases formatted <;> simp [assemble, hcap, hformat]

theorem BeginsForbidden.of_assemble {capped formatted : Bool}
    (h : BeginsForbidden (assemble body limit capped formatted).text) : BeginsForbidden body := by
  obtain heq | ⟨rest, heq⟩ := toList_assemble body limit capped formatted
  · rwa [heq] at h
  · exact h.of_append_break (by decide) heq

end Assemble

def rewritingOf (query : String) (hne : withoutTerminators query ≠ "") :
    Rewriting (withoutTerminators query) where
  body := kept (withoutTerminators query)
  capped := needsLimit (kept (withoutTerminators query))
  formatted := (beforeFormat? (withoutTerminators query)).isSome
  body_ne := kept_ne_empty hne (isStripped_withoutTerminators query).head
  body_last := kept_last (isStripped_withoutTerminators query).last
  kept := by
    rw [kept]
    cases h : beforeFormat? (withoutTerminators query) with
    | none => rfl
    | some body => exact (endsInFormat_of_beforeFormat? h).1
  formatted_iff := beforeFormat?_isSome_iff
  capped_iff := needsLimit_iff

theorem body_rewritingOf {query : String} (hne : withoutTerminators query ≠ "") :
    (rewritingOf query hne).body = kept (withoutTerminators query) := by
  rw [rewritingOf]

theorem result_rewritingOf {query : String} (hne : withoutTerminators query ≠ "")
    (limit : UInt64) :
    (rewritingOf query hne).result limit = assemble (kept (withoutTerminators query)) limit
      (needsLimit (kept (withoutTerminators query)))
      (beforeFormat? (withoutTerminators query)).isSome := by
  rw [Rewriting.result, rewritingOf]

theorem not_beginsForbidden_of_compile {query : String} {limit : UInt64} {s : Statement}
    (h : compile query limit = .ok s) : ¬ BeginsForbidden s.text := by
  obtain ⟨⟨-, -, hallowed⟩, rfl⟩ := compile_eq_ok.mp h
  intro hbegins
  exact hallowed (beginsForbidden_of_isPrefix hbegins.of_assemble (kept_isPrefix _))

/-- A query is read without the blanks and terminators around it.  It is refused as invalid if
nothing is left, if no row is asked for, or if it begins with a forbidden keyword.  Otherwise all of
it is sent but a directive for the output format at its end, with a bound row cap where it needs one
and the one output format in place of the directive. -/
theorem compile_rewrites (query : String) (limit : UInt64) :
    IsStripped query (withoutTerminators query) ∧
    OnlyInvalid (compile query limit) ∧
    ((∃ s, compile query limit = .ok s) ↔
      withoutTerminators query ≠ "" ∧ 1 ≤ limit ∧ ¬ BeginsForbidden (withoutTerminators query)) ∧
    ∀ s, compile query limit = .ok s →
      (∃ r : Rewriting (withoutTerminators query), s = r.result limit) ∧
      ¬ BeginsForbidden s.text := by
  have hpositive : 1 ≤ limit ↔ limit ≠ 0 := by
    rw [UInt64.le_iff_toNat_le, ne_eq, ← UInt64.toNat_inj]
    exact Nat.one_le_iff_ne_zero
  refine ⟨isStripped_withoutTerminators query, onlyInvalid_compile, ?_, ?_⟩
  · rw [hpositive]
    constructor
    · rintro ⟨s, hs⟩
      exact (compile_eq_ok.mp hs).1
    · intro h
      exact ⟨_, compile_eq_ok.mpr ⟨h, rfl⟩⟩
  · intro s hs
    obtain ⟨⟨hne, -, -⟩, hresult⟩ := compile_eq_ok.mp hs
    refine ⟨⟨rewritingOf query hne, ?_⟩, not_beginsForbidden_of_compile hs⟩
    rw [hresult, result_rewritingOf]

example : compile " with 1 AS x SELECT x format\tCSV ;\n" 5 =
    .ok ⟨"with 1 AS x SELECT x LIMIT \x7blimit:UInt64\x7d FORMAT JSONEachRow",
      ⟨[⟨"limit", .uint64 5⟩]⟩⟩ := by
  decide +kernel

end QueryConsole.Adhoc
