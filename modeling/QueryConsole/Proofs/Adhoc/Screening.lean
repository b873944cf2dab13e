import QueryConsole.Engine
import QueryConsole.Proofs.Request.Given
import QueryConsole.Proofs.Text.Trim

namespace QueryConsole.Adhoc

open Text (isBlank isWordChar dropEndWhile)

inductive Gap : Type
  | blanks : Gap
  | line : Gap
  | block : Gap
  deriving DecidableEq

/-- Drops blanks and comments up to the first character of a token. -/
def skip : Gap → List Char → List Char
  | _, [] => []
  | .blanks, '-' :: '-' :: cs => skip .line cs
  | .blanks, '/' :: '*' :: cs => skip .block cs
  | .blanks, c :: cs => if isBlank c then skip .blanks cs else c :: cs
  | .line, c :: cs => if c = '\n' then skip .blanks cs else skip .line cs
  | .block, '*' :: '/' :: cs => skip .blanks cs
  | .block, _ :: cs => skip .block cs

/-- The word that a query starts with, after blanks and comments. -/
def firstWord (query : String) : String :=
  String.ofList ((skip .blanks query.toList).takeWhile isWordChar)

def opensComment : List Char → Bool
  | '-' :: '-' :: _ => true
  | '/' :: '*' :: _ => true
  | _ => false

def startsWithComment (query : String) : Bool :=
  opensComment (query.toList.dropWhile isBlank)

def IsMark (c : Char) : Prop := c = '-' ∨ c = '/'

theorem mark_of_opensComment {cs : List Char} (h : opensComment cs = true) :
    ∃ mark rest, IsMark mark ∧ cs = mark :: rest := by
  rw [opensComment.eq_def] at h
  split at h
  · exact ⟨'-', _, .inl rfl, rfl⟩
  · exact ⟨'/', _, .inr rfl, rfl⟩
  · cases h

theorem IsMark.isBlank_eq_false {mark : Char} (h : IsMark mark) : isBlank mark = false := by
  cases h with
  | inl h => rw [h]; decide
  | inr h => rw [h]; decide

theorem skip_cons {c : Char} {cs : List Char} (h : opensComment (c :: cs) = false) :
    skip .blanks (c :: cs) = if isBlank c then skip .blanks cs else c :: cs := by
  rw [skip.eq_def]
  split
  case h_1 heq => cases heq
  case h_2 heq =>
    rw [heq] at h
    cases h
  case h_3 heq =>
    rw [heq] at h
    cases h
  case h_4 heq =>
    cases heq
    rfl
  case h_5 hgap _ => cases hgap
  case h_6 hgap _ => cases hgap
  case h_7 hgap _ => cases hgap

theorem skip_eq_dropWhile {cs : List Char} (h : opensComment (cs.dropWhile isBlank) = false) :
    skip .blanks cs = cs.dropWhile isBlank := by
  induction cs with
  | nil => rfl
  | cons c cs ih =>
    cases hblank : isBlank c with
    | true =>
      have hopens : opensComment (c :: cs) = false := by
        rw [Bool.eq_false_iff]
        intro hcomment
        obtain ⟨mark, rest, hmark, heq⟩ := mark_of_opensComment hcomment
        cases heq
        rw [hmark.isBlank_eq_false] at hblank
        cases hblank
      rw [List.dropWhile_cons_of_pos hblank] at h ⊢
      rw [skip_cons hopens, if_pos hblank, ih h]
    | false =>
      rw [List.dropWhile_cons_of_neg (by simp [hblank])] at h ⊢
      rw [skip_cons h, if_neg (by simp [hblank])]

def isTerminator (c : Char) : Bool :=
  c == ';' || isBlank c

theorem isTerminator_eq_false_of_isWordChar {c : Char} (h : isWordChar c = true) :
    isTerminator c = false := by
  rw [isTerminator, Text.isBlank_eq_false_of_isWordChar h, Bool.or_false, beq_eq_false_iff_ne]
  rintro rfl
  revert h
  decide

theorem IsMark.isTerminator_eq_false {mark : Char} (h : IsMark mark) :
    isTerminator mark = false := by
  rw [isTerminator, h.isBlank_eq_false, Bool.or_false]
  cases h with
  | inl h => rw [h]; decide
  | inr h => rw [h]; decide

theorem toList_withoutTerminators (query : String) :
    (withoutTerminators query).toList =
      dropEndWhile isTerminator (query.toList.dropWhile isBlank) := by
  have hblank : ∀ c, isBlank c = true → isTerminator c = true := by
    intro c hc
    rw [isTerminator, hc, Bool.or_true]
  rw [withoutTerminators, String.toList_ofList, Text.trim, String.toList_ofList, Text.trimChars]
  exact Text.dropEndWhile_dropEndWhile hblank

theorem firstWord_kept {query : String} (h : startsWithComment query = false) :
    (firstWord query).toList <+: (withoutTerminators query).toList := by
  have hkept : ∀ c ∈ (query.toList.dropWhile isBlank).takeWhile isWordChar,
      isTerminator c = false :=
    fun c hc => isTerminator_eq_false_of_isWordChar (List.all_eq_true.mp List.all_takeWhile c hc)
  rw [firstWord, String.toList_ofList, skip_eq_dropWhile h, toList_withoutTerminators]
  refine ⟨dropEndWhile isTerminator ((query.toList.dropWhile isBlank).dropWhile isWordChar), ?_⟩
  rw [← Text.dropEndWhile_append_of_none hkept, List.takeWhile_append_dropWhile]

theorem startsWithWord_iff {keyword statement : String} :
    startsWithWord keyword statement = true ↔
      keyword.toList <+: statement.toList.map Char.toUpper :=
  List.isPrefixOf_iff_prefix

theorem eq_of_prefix_forbidden : ∀ keyword ∈ forbiddenKeywords, ∀ keyword' ∈ forbiddenKeywords,
    keyword.toList <+: keyword'.toList → keyword = keyword' := by
  decide

theorem forbiddenKeyword?_eq_some {keyword statement : String}
    (hmem : keyword ∈ forbiddenKeywords)
    (hstarts : startsWithWord keyword statement = true) :
    forbiddenKeyword? statement = some keyword := by
  have hfound : (forbiddenKeyword? statement).isSome = true := by
    rw [forbiddenKeyword?, List.find?_isSome]
    exact ⟨keyword, hmem, hstarts⟩
  obtain ⟨keyword', hkeyword'⟩ := Option.isSome_iff_exists.mp hfound
  rw [hkeyword']
  rw [forbiddenKeyword?] at hkeyword'
  have hmem' : keyword' ∈ forbiddenKeywords := List.mem_of_find?_eq_some hkeyword'
  have hstarts' := List.find?_some hkeyword'
  rw [startsWithWord_iff] at hstarts hstarts'
  cases List.prefix_or_prefix_of_prefix hstarts hstarts' with
  | inl h => rw [eq_of_prefix_forbidden _ hmem _ hmem' h]
  | inr h => rw [eq_of_prefix_forbidden _ hmem' _ hmem h]

theorem map_toUpper_forbidden :
    ∀ keyword ∈ forbiddenKeywords, keyword.toList.map Char.toUpper = keyword.toList := by
  decide

theorem startsWithWord_of_firstWord {query keyword : String} (hmem : keyword ∈ forbiddenKeywords)
    (hword : Text.sameWord (firstWord query) keyword = true)
    (hplain : startsWithComment query = false) :
    startsWithWord keyword (withoutTerminators query) = true := by
  have hfirst : (firstWord query).toList.map Char.toUpper = keyword.toList := by
    rw [← map_toUpper_forbidden keyword hmem]
    exact beq_iff_eq.mp hword
  rw [startsWithWord_iff, ← hfirst]
  exact (firstWord_kept hplain).map Char.toUpper

theorem ne_empty_of_startsWithWord {keyword statement : String}
    (hmem : keyword ∈ forbiddenKeywords) (h : startsWithWord keyword statement = true) :
    statement ≠ "" := by
  have hnonempty : ∀ keyword ∈ forbiddenKeywords, keyword.toList ≠ [] := by
    decide
  rintro rfl
  rw [startsWithWord_iff] at h
  exact hnonempty keyword hmem (List.prefix_nil.mp h)

theorem IsMark.not_startsWithWord {mark : Char} (h : IsMark mark) {keyword statement : String}
    (hmem : keyword ∈ forbiddenKeywords) (hhead : statement.toList.head? = some mark) :
    ¬ startsWithWord keyword statement = true := by
  have hletter : ∀ keyword ∈ forbiddenKeywords, ∃ c, keyword.toList.head? = some c ∧ c ≠ '-' ∧
      c ≠ '/' := by
    simp [forbiddenKeywords]
  obtain ⟨c, hc, hdash, hslash⟩ := hletter keyword hmem
  rw [startsWithWord_iff]
  rintro ⟨rest, heq⟩
  have hupper : some c = some mark.toUpper := by
    rw [← Option.map_some, ← hhead, ← List.head?_map, ← heq, List.head?_append, hc, Option.some_or]
  cases h with
  | inl h =>
    rw [h] at hupper
    exact hdash (Option.some.inj hupper)
  | inr h =>
    rw [h] at hupper
    exact hslash (Option.some.inj hupper)

theorem forbiddenKeyword?_eq_none {query : String} (h : startsWithComment query = true) :
    withoutTerminators query ≠ "" ∧ forbiddenKeyword? (withoutTerminators query) = none := by
  obtain ⟨mark, rest, hmark, heq⟩ := mark_of_opensComment h
  have hstatement : (withoutTerminators query).toList = mark :: dropEndWhile isTerminator rest := by
    rw [toList_withoutTerminators, heq,
      Text.dropEndWhile_cons_of_neg hmark.isTerminator_eq_false]
  constructor
  · intro hempty
    rw [hempty] at hstatement
    cases hstatement
  · rw [forbiddenKeyword?, List.find?_eq_none]
    intro keyword hkeyword
    exact hmark.not_startsWithWord hkeyword (by rw [hstatement]; rfl)

section Compile

variable {query : String} {limit : UInt64}

def rewritten (query : String) (limit : UInt64) : Statement :=
  match beforeFormat? (withoutTerminators query) with
  | some body =>
    ⟨(limited body limit).text ++ " FORMAT " ++ outputFormat, (limited body limit).bindings⟩
  | none => limited (withoutTerminators query) limit

theorem compile_eq_ok_rewritten {s : Statement} :
    compile query limit = .ok s ↔
      (withoutTerminators query ≠ "" ∧ limit ≠ 0 ∧
        forbiddenKeyword? (withoutTerminators query) = none) ∧ rewritten query limit = s := by
  rw [compile, rewritten]
  by_cases hempty : withoutTerminators query = ""
  · simp [hempty]
  · by_cases hlimit : limit = 0
    · simp [hempty, hlimit]
    · cases forbiddenKeyword? (withoutTerminators query) with
      | some keyword => simp [hempty, hlimit]
      | none => cases beforeFormat? (withoutTerminators query) <;> simp [hempty, hlimit]

theorem onlyInvalid_compile : OnlyInvalid (compile query limit) := by
  simp only [compile]
  split
  · exact OnlyInvalid.invalid _
  · split
    · exact OnlyInvalid.invalid _
    · split
      · exact OnlyInvalid.invalid _
      · split
        · exact OnlyInvalid.ok _
        · exact OnlyInvalid.ok _

theorem compile_forbidden {keyword : String} (hempty : withoutTerminators query ≠ "")
    (h : forbiddenKeyword? (withoutTerminators query) = some keyword) :
    compile query limit =
      .error (.invalid (if limit = 0 then .zeroLimit else .forbidden keyword)) := by
  rw [compile]
  by_cases hlimit : limit = 0
  · simp [hempty, hlimit]
  · simp [hempty, hlimit, h]

/-- The query is refused, by compiling and by any engine, which then calls no store. -/
def Refused (query : String) (limit : UInt64) (fault : Fault) : Prop :=
  compile query limit = .error (.invalid fault) ∧
    ∀ (e : Engine) (requested : Option UInt64), requested.getD e.limits.adhoc = limit →
      e.adhoc ⟨query, requested⟩ = ⟨[], .error (.invalid fault)⟩

theorem refused_of_compile {fault : Fault} (h : compile query limit = .error (.invalid fault)) :
    Refused query limit fault := by
  refine ⟨h, ?_⟩
  intro e requested hlimit
  rw [Engine.adhoc, hlimit, h]
  rfl

theorem exists_refused :
    (∃ fault, Refused query limit fault) ↔ ¬ ∃ s, compile query limit = .ok s := by
  constructor
  · rintro ⟨fault, herror, -⟩ ⟨s, hs⟩
    cases hs.symm.trans herror
  · intro h
    cases hcompile : compile query limit with
    | ok s => exact absurd ⟨s, hcompile⟩ h
    | error f =>
      obtain ⟨fault, rfl⟩ := onlyInvalid_compile f hcompile
      exact ⟨fault, refused_of_compile hcompile⟩

end Compile

/-- A query that starts with a forbidden keyword, in whatever letter case and after whatever blanks,
is refused for that keyword, or for its limit.  Behind a comment a keyword is not screened for: such
a query is refused for its limit alone. -/
theorem compile_leadingKeyword {query keyword : String} (hmem : keyword ∈ forbiddenKeywords)
    (hword : Text.sameWord (firstWord query) keyword = true) (limit : UInt64) :
    (startsWithComment query = false →
      Refused query limit (if limit = 0 then .zeroLimit else .forbidden keyword)) ∧
    (startsWithComment query = true → ((∃ fault, Refused query limit fault) ↔ limit = 0)) := by
  constructor
  · intro hplain
    have hstarts := startsWithWord_of_firstWord hmem hword hplain
    exact refused_of_compile (compile_forbidden (ne_empty_of_startsWithWord hmem hstarts)
      (forbiddenKeyword?_eq_some hmem hstarts))
  · intro hcomment
    obtain ⟨hne, hnone⟩ := forbiddenKeyword?_eq_none hcomment
    rw [exists_refused]
    simp [compile_eq_ok_rewritten, hne, hnone]

theorem compile_leadingKeyword_spacedDrop :
    "DROP" ∈ forbiddenKeywords ∧
      Text.sameWord (firstWord "\n\u3000 dRop\tTABLE t ; ") "DROP" = true ∧
      startsWithComment "\n\u3000 dRop\tTABLE t ; " = false ∧
      Refused "\n\u3000 dRop\tTABLE t ; " 5 (.forbidden "DROP") := by
  have hmem : "DROP" ∈ forbiddenKeywords := by decide
  have hword : Text.sameWord (firstWord "\n\u3000 dRop\tTABLE t ; ") "DROP" = true := by
    decide +kernel
  have hplain : startsWithComment "\n\u3000 dRop\tTABLE t ; " = false := by decide +kernel
  exact ⟨hmem, hword, hplain, (compile_leadingKeyword hmem hword 5).1 hplain⟩

def idleEngine : Engine where
  storage := ⟨fun _ => .ok [], fun _ => .ok ""⟩
  limits := {}

/-- A comment hides the keyword behind it: the statement is sent to the store as it is. -/
theorem compile_commentedDrop :
    Text.sameWord (firstWord "/* x */ DROP TABLE t") "DROP" = true ∧
      compile "/* x */ DROP TABLE t" 10 = .ok ⟨"/* x */ DROP TABLE t", ∅⟩ ∧
      (idleEngine.adhoc ⟨"/* x */ DROP TABLE t", some 10⟩).calls =
        [.rows ⟨"/* x */ DROP TABLE t", ∅⟩] := by
  decide +kernel

end QueryConsole.Adhoc
