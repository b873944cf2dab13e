import QueryConsole.Proofs.Adhoc.LiveText
import QueryConsole.Proofs.Adhoc.Rewriting

/-! Whether the row cap of a query takes effect.  The rewriting takes the words of comments and
literals for words of the query, and puts the cap behind the text even where that ends in a comment;
these are the two ways in which a query that asks for a cap goes without one. -/

namespace QueryConsole.Adhoc

open Text (isBlank isWordChar HasWord HasFirstWord sameWord)

structure IsEnding (ending : String) : Prop where
  parts : ∃ directive terminators : String, ending = directive ++ terminators ∧
    (directive = "" ∨ IsDirective directive) ∧ ∀ c ∈ terminators.toList, isTerminator c = true

/-- The last live character is a parenthesis.  Behind it there are only quotes, comments and an
ending. -/
def EndsInParenthesis (query : String) : Prop :=
  ∃ before hidden ending : String, liveText query = before ++ ")" ++ hidden ++ ending ∧
    (∀ c ∈ hidden.toList, isBlank c = true ∨ c = '\'') ∧ IsEnding ending

/-- Read without its comments and literals, this is a query whose rows nobody has limited. -/
structure AsksCap (query : String) : Prop where
  closed : (lastRegion query).IsClosed
  isQuery : ∃ word, HasFirstWord (liveText query) word ∧ IsQueryWord word
  unlimited : ∀ word, HasWord (liveText query) word → sameWord word "LIMIT" = false
  isOpen : ¬ EndsInParenthesis query

def HasLiveCap (text : String) : Prop :=
  ∃ before after, liveText text = before ++ capClause ++ after

structure IsCapped (s : Statement) (limit : UInt64) : Prop where
  bound : s.bindings = ⟨[⟨"limit", .uint64 limit⟩]⟩
  live : HasLiveCap s.text

/-- No comment and no literal stands in the way of a cap: none starts the body with a word that
starts no query, none holds the keyword of a cap, and no comment goes on behind the body. -/
structure IsUndisturbed (body : String) : Prop where
  first : ∀ word, HasFirstWord body word → HasWord (hiddenText body) word → IsQueryWord word
  unlimited : ∀ word, HasWord (hiddenText body) word → sameWord word "LIMIT" = false
  ends : lastRegion body ≠ .line

namespace IsEnding

variable {ending : String}

theorem isPlain (h : IsEnding ending) : ∀ c ∈ ending.toList, isMarkChar c = false := by
  obtain ⟨directive, terminators, rfl, hdirective, hterminators⟩ := h.parts
  rw [String.toList_append, List.forall_mem_append]
  constructor
  · obtain rfl | ⟨hgap, hkeyword, hgap', hname⟩ := hdirective
    · simp
    · have hword {word : String} (hword : Text.IsWord word) :
          ∀ c ∈ word.toList, isMarkChar c = false :=
        fun c hc => isMarkChar_eq_false_of_isWordChar (List.all_eq_true.mp hword.2 c hc)
      have hblank {gap : String} (hgap : IsGap gap) : ∀ c ∈ gap.toList, isMarkChar c = false :=
        fun c hc => isMarkChar_eq_false (by decide) (List.all_eq_true.mp hgap.2 c hc)
      simp only [String.toList_append, List.forall_mem_append]
      exact ⟨⟨⟨hblank hgap, hword (isWord_of_sameWord_format hkeyword)⟩, hblank hgap'⟩,
        hword (Text.isWord_of_isIdentifier hname)⟩
  · exact fun c hc => isMarkChar_eq_false (by decide) (hterminators c hc)

theorem head? (h : IsEnding ending) : ∀ c ∈ ending.toList.head?, isWordChar c = false := by
  obtain ⟨directive, terminators, rfl, hdirective, hterminators⟩ := h.parts
  intro c hc
  obtain rfl | hdirective := hdirective
  · rw [String.empty_append] at hc
    exact isWordChar_eq_false_of_isTerminator (hterminators c (List.mem_of_head? hc))
  · obtain ⟨d, rest, htext, hd⟩ := hdirective.exists_blank
    rw [String.toList_append, htext] at hc
    cases hc
    exact isWordChar_eq_false_of_isBlank hd

theorem sameWord_format (h : IsEnding ending) :
    ∀ word ∈ (Text.words ending).head?, sameWord word "FORMAT" = true := by
  obtain ⟨directive, terminators, rfl, hdirective, hterminators⟩ := h.parts
  have hnone : ∀ c ∈ terminators.toList, isWordChar c = false :=
    fun c hc => isWordChar_eq_false_of_isTerminator (hterminators c hc)
  intro word hword
  rw [Text.words_append (fun c hc => hnone c (List.mem_of_head? hc)), Text.words_of_none hnone,
    List.append_nil] at hword
  obtain rfl | hdirective := hdirective
  · cases hword
  · obtain ⟨keyword, name, hwords, hkeyword⟩ := hdirective.words
    rw [hwords] at hword
    cases hword
    exact hkeyword

end IsEnding

theorem not_isQueryWord_of_format {word : String} (h : sameWord word "FORMAT" = true) :
    ¬ IsQueryWord word := by
  rw [Text.sameWord_iff] at h
  rw [IsQueryWord, Text.sameWord_iff, Text.sameWord_iff, h]
  decide

structure IsWithin (body query before ending : String) : Prop where
  eq : query = before ++ body ++ ending
  before : ∀ c ∈ before.toList, isBlank c = true
  ending : IsEnding ending

theorem exists_isWithin (query : String) :
    ∃ before ending, IsWithin (kept (withoutTerminators query)) query before ending := by
  obtain ⟨before, behind, hquery, hbefore, hbehind⟩ := (isStripped_withoutTerminators query).parts
  have htext :
      query = String.ofList before ++ withoutTerminators query ++ String.ofList behind := by
    rw [← String.toList_inj, hquery]
    simp
  have hbehind : ∀ c ∈ (String.ofList behind).toList, isTerminator c = true := by
    rwa [String.toList_ofList]
  refine ⟨String.ofList before, ?_⟩
  rw [kept]
  cases hformat : beforeFormat? (withoutTerminators query) with
  | none =>
    exact ⟨String.ofList behind, htext, by rwa [String.toList_ofList],
      ⟨"", _, by simp, .inl rfl, hbehind⟩⟩
  | some body =>
    obtain ⟨directive, hdirective, hstatement⟩ := (endsInFormat_of_beforeFormat? hformat).1
    refine ⟨directive ++ String.ofList behind, ?_, by rwa [String.toList_ofList],
      ⟨directive, _, rfl, .inr hdirective, hbehind⟩⟩
    rw [htext, hstatement]
    simp only [String.append_assoc, Option.getD_some]

namespace IsWithin

variable {body query before ending : String}

theorem isPlain (h : IsWithin body query before ending) :
    ∀ c ∈ before.toList, isMarkChar c = false :=
  fun c hc => isMarkChar_eq_false (by decide) (h.before c hc)

theorem isClosed (h : IsWithin body query before ending) (hclosed : (lastRegion query).IsClosed) :
    (lastRegion body).IsClosed := by
  rw [h.eq] at hclosed
  have hbody := isClosed_of_lastRegion_append h.ending.isPlain hclosed
  rwa [lastRegion_plain_append h.isPlain] at hbody

theorem liveText_eq (h : IsWithin body query before ending) (hends : lastRegion body = .code) :
    liveText query = before ++ liveText body ++ ending := by
  have hlast : lastRegion (before ++ body) = .code := by
    rwa [lastRegion_plain_append h.isPlain]
  rw [h.eq, liveText_append_plain h.ending.isPlain hlast,
    liveText_plain_append h.isPlain]

theorem words_liveText (h : IsWithin body query before ending) (hends : lastRegion body = .code) :
    Text.words (liveText query) = Text.words (liveText body) ++ Text.words ending := by
  have hnone : ∀ c ∈ before.toList, isWordChar c = false :=
    fun c hc => isWordChar_eq_false_of_isBlank (h.before c hc)
  rw [h.liveText_eq hends, Text.words_append h.ending.head?,
    Text.words_append' (fun c hc => hnone c (List.mem_of_getLast? hc)), Text.words_of_none hnone,
    List.nil_append]

theorem endsInParenthesis (h : IsWithin body query before ending) (hends : lastRegion body = .code)
    (hlast : body.toList.getLast? = some ')') : EndsInParenthesis query := by
  obtain ⟨start, hstart⟩ := List.getLast?_eq_some_iff.mp hlast
  have hbody : body = String.ofList start ++ String.singleton ')' := by
    rw [← String.toList_inj, hstart]
    simp
  have hcode : lastRegion (String.ofList start) = .code := by
    rw [hbody] at hends
    exact lastRegion_eq_code (by decide) (by decide) hends
  have hplain : ∀ c ∈ (String.singleton ')').toList, isMarkChar c = false := by
    simp [isMarkChar, marks]
  refine ⟨before ++ liveText (String.ofList start), "", ending, ?_, by simp, h.ending⟩
  rw [h.liveText_eq hends, hbody, liveText_append_plain hplain hcode]
  simp only [String.append_assoc, String.append_empty]
  rfl

theorem needsCap (h : IsWithin body query before ending) (hasks : AsksCap query)
    (hbody : IsUndisturbed body) (hends : lastRegion body = .code) : NeedsCap body := by
  have hinterleaved := interleaved_words body
  obtain ⟨first, hfirst, hquery⟩ := hasks.isQuery
  rw [← Text.head?_words_iff, h.words_liveText hends] at hfirst
  refine ⟨?_, ?_, fun hlast => hasks.isOpen (h.endsInParenthesis hends hlast)⟩
  · cases hwords : (Text.words body).head? with
    | none =>
      have hnone : Text.words (liveText body) = [] := by
        rw [List.eq_nil_iff_forall_not_mem]
        intro word hword
        have hmem := hinterleaved.mem_iff.mpr (.inl hword)
        rw [List.head?_eq_none_iff.mp hwords] at hmem
        cases hmem
      rw [hnone, List.nil_append] at hfirst
      exact absurd hquery (not_isQueryWord_of_format (h.ending.sameWord_format first hfirst))
    | some word =>
      refine ⟨word, Text.head?_words_iff.mp hwords, ?_⟩
      obtain hlive | hhidden := hinterleaved.head? hwords
      · rw [List.head?_append, hlive] at hfirst
        cases hfirst
        exact hquery
      · exact hbody.first word (Text.head?_words_iff.mp hwords) (Text.mem_words_iff.mp hhidden)
  · intro word hword
    obtain hlive | hhidden := hinterleaved.mem_iff.mp (Text.mem_words_iff.mpr hword)
    · refine hasks.unlimited word (Text.mem_words_iff.mp ?_)
      rw [h.words_liveText hends]
      exact List.mem_append_left _ hlive
    · exact hbody.unlimited word (Text.mem_words_iff.mp hhidden)

end IsWithin

section Clauses

variable {body : String}

theorem isMarkChar_clauses (formatted : Bool) :
    ∀ c ∈ (capClause ++ if formatted then formatClause else "").toList,
      isMarkChar c = false ∧ c ≠ '\n' := by
  have hnone : (capClause ++ if formatted then formatClause else "").toList.any
      (fun c => isMarkChar c || c == '\n') = false := by
    cases formatted <;> decide
  intro c hc
  simpa using List.any_eq_false.mp hnone c hc

theorem isUndisturbed_of_live {formatted : Bool} (hneeds : NeedsCap body)
    (hlive : HasLiveCap (body ++ (capClause ++ if formatted then formatClause else ""))) :
    IsUndisturbed body := by
  have hinterleaved := interleaved_words body
  refine ⟨?_, ?_, ?_⟩
  · obtain ⟨word, hword, hquery⟩ := hneeds.isQuery
    intro word' hword' _
    rw [← Text.head?_words_iff] at hword hword'
    rw [hword] at hword'
    cases hword'
    exact hquery
  · intro word hword
    exact hneeds.unlimited word
      (Text.mem_words_iff.mp (hinterleaved.mem_iff.mpr (.inr (Text.mem_words_iff.mpr hword))))
  · intro hends
    obtain ⟨before, after, hlive⟩ := hlive
    have hmem : "LIMIT" ∈ Text.words (before ++ capClause ++ after) := by
      have hparts : capClause = " LIMIT " ++ "\x7blimit:UInt64\x7d" := by decide
      rw [Text.mem_words_iff]
      refine ⟨before.toList ++ [' '], " \x7blimit:UInt64\x7d".toList ++ after.toList, ?_, by decide,
        by decide, by simp [isWordChar], by simp [isWordChar]⟩
      simp [hparts]
    rw [← hlive, words_liveText_append (isMarkChar_clauses formatted) hends] at hmem
    have hlimit := hneeds.unlimited "LIMIT"
      (Text.mem_words_iff.mp (hinterleaved.mem_iff.mpr (.inl hmem)))
    revert hlimit
    decide

theorem live_of_lastRegion (formatted : Bool) (hends : lastRegion body = .code) :
    HasLiveCap (body ++ (capClause ++ if formatted then formatClause else "")) := by
  refine ⟨liveText body, if formatted then formatClause else "", ?_⟩
  rw [liveText_append_plain (fun c hc => (isMarkChar_clauses formatted c hc).1) hends,
    String.append_assoc]

end Clauses

section Computed

variable {text : String}

theorem asksCap_of_words {first : String} (hclosed : (lastRegion text).IsClosed)
    (hfirst : (Text.words (liveText text)).head? = some first) (hquery : IsQueryWord first)
    (hunlimited : ∀ word ∈ Text.words (liveText text), sameWord word "LIMIT" = false)
    (hopen : ')' ∉ (liveText text).toList) : AsksCap text := by
  refine ⟨hclosed, ⟨first, Text.head?_words_iff.mp hfirst, hquery⟩, ?_, ?_⟩
  · exact fun word hword => hunlimited word (Text.mem_words_iff.mpr hword)
  · rintro ⟨before, hidden, ending, heq, -, -⟩
    exact hopen (by simp [heq])

theorem isUndisturbed_iff : IsUndisturbed text ↔
    (∀ word ∈ (Text.words text).head?, word ∈ Text.words (hiddenText text) → IsQueryWord word) ∧
    (∀ word ∈ Text.words (hiddenText text), sameWord word "LIMIT" = false) ∧
    lastRegion text ≠ .line := by
  simp only [Option.mem_def, Text.head?_words_iff, Text.mem_words_iff]
  exact ⟨fun h => ⟨h.first, h.unlimited, h.ends⟩, fun h => ⟨h.1, h.2.1, h.2.2⟩⟩

end Computed

/-- A query that asks for a cap gets one that takes effect exactly if no comment and no literal
stands in its way. -/
theorem compile_isCapped_iff {query : String} {limit : UInt64} {s : Statement}
    (hs : compile query limit = .ok s) (hasks : AsksCap query) :
    IsCapped s limit ↔ IsUndisturbed (kept (withoutTerminators query)) := by
  obtain ⟨before, ending, hwithin⟩ := exists_isWithin query
  obtain ⟨-, rfl⟩ := compile_eq_ok.mp hs
  generalize kept (withoutTerminators query) = body at *
  generalize (beforeFormat? (withoutTerminators query)).isSome = formatted at *
  constructor
  · rintro ⟨hbound, hlive⟩
    have hneeds : needsLimit body = true := by
      by_contra hnot
      simp [assemble, hnot, EmptyCollection.emptyCollection, Bindings.empty] at hbound
    rw [assemble, hneeds, if_pos rfl, String.append_assoc] at hlive
    exact isUndisturbed_of_live (needsLimit_iff.mp hneeds) hlive
  · intro hbody
    have hends : lastRegion body = .code :=
      (hwithin.isClosed hasks.closed).resolve_right hbody.ends
    have hneeds := needsLimit_iff.mpr (hwithin.needsCap hasks hbody hends)
    rw [assemble, hneeds, if_pos rfl, if_pos rfl, String.append_assoc]
    exact ⟨rfl, live_of_lastRegion formatted hends⟩

theorem isCapped_commented :
    IsCapped ⟨"SELECT '--', \"f(x)\" FROM t -- all\n/* ; */ LIMIT \x7blimit:UInt64\x7d",
      ⟨[⟨"limit", .uint64 5⟩]⟩⟩ 5 ∧
    ¬ IsCapped ⟨"SELECT 'limit' FROM t", ∅⟩ 5 ∧
    ¬ IsCapped ⟨"SELECT x FROM t -- all LIMIT \x7blimit:UInt64\x7d",
      ⟨[⟨"limit", .uint64 5⟩]⟩⟩ 5 := by
  refine ⟨?_, ?_, ?_⟩
  · have hcompile : compile "SELECT '--', \"f(x)\" FROM t -- all\n/* ; */ ;" 5 =
        .ok ⟨"SELECT '--', \"f(x)\" FROM t -- all\n/* ; */ LIMIT \x7blimit:UInt64\x7d",
          ⟨[⟨"limit", .uint64 5⟩]⟩⟩ := by
      decide +kernel
    have hasks : AsksCap "SELECT '--', \"f(x)\" FROM t -- all\n/* ; */ ;" :=
      asksCap_of_words (by decide +kernel) rfl (by decide +kernel) (by decide +kernel)
        (by decide +kernel)
    rw [compile_isCapped_iff hcompile hasks, isUndisturbed_iff]
    decide +kernel
  · have hcompile : compile "SELECT 'limit' FROM t" 5 = .ok ⟨"SELECT 'limit' FROM t", ∅⟩ := by
      decide +kernel
    have hasks : AsksCap "SELECT 'limit' FROM t" :=
      asksCap_of_words (by decide +kernel) rfl (by decide +kernel) (by decide +kernel)
        (by decide +kernel)
    rw [compile_isCapped_iff hcompile hasks, isUndisturbed_iff]
    decide +kernel
  · have hcompile : compile "SELECT x FROM t -- all" 5 =
        .ok ⟨"SELECT x FROM t -- all LIMIT \x7blimit:UInt64\x7d",
          ⟨[⟨"limit", .uint64 5⟩]⟩⟩ := by
      decide +kernel
    have hasks : AsksCap "SELECT x FROM t -- all" :=
      asksCap_of_words (by decide +kernel) rfl (by decide +kernel) (by decide +kernel)
        (by decide +kernel)
    rw [compile_isCapped_iff hcompile hasks, isUndisturbed_iff]
    decide +kernel

end QueryConsole.Adhoc
