import QueryConsole.Proofs.Adhoc.Rewriting

namespace QueryConsole.Adhoc

open Text (isBlank isWordChar sameWord)

/-- The text is accepted and loses nothing, needs no cap, and has the one output format if it has
any. -/
structure IsSettled (text : String) : Prop where
  ne_empty : text ≠ ""
  head : ∀ c ∈ text.toList.head?, isBlank c = false
  last : ∀ c ∈ text.toList.getLast?, isTerminator c = false
  allowed : ¬ BeginsForbidden text
  capped : needsLimit (kept text) = false
  formatted : text = kept text ++ if (beforeFormat? text).isSome then formatClause else ""

theorem IsSettled.compile_eq {text : String} (h : IsSettled text) {limit : UInt64}
    (hlimit : limit ≠ 0) : compile text limit = .ok ⟨text, ∅⟩ := by
  have hstripped := withoutTerminators_eq_self h.head h.last
  rw [compile_eq_ok, hstripped]
  refine ⟨⟨h.ne_empty, hlimit, h.allowed⟩, ?_⟩
  rw [h.capped, assemble, Statement.mk.injEq]
  exact ⟨by simpa using h.formatted, rfl⟩

section Clauses

variable {body : String}

theorem words_capClause : Text.words capClause = ["LIMIT", "limit", "UInt64"] := by
  decide +kernel

theorem needsLimit_capClause (body : String) : needsLimit (body ++ capClause) = false := by
  obtain ⟨rest, hcap⟩ := exists_capClause
  have hspace : isWordChar ' ' = false := by decide
  have hwords : Text.words (body ++ capClause) = Text.words body ++ Text.words capClause :=
    Text.words_append (by simp [hcap, hspace])
  rw [Bool.eq_false_iff, ne_eq, needsLimit_iff, needsCap_iff, hwords, words_capClause]
  rintro ⟨-, hunlimited, -⟩
  have hlimit : sameWord "LIMIT" "LIMIT" = false := hunlimited "LIMIT" (by simp)
  revert hlimit
  decide

theorem getLast?_capClause (body : String) :
    (body ++ capClause).toList.getLast? = some '\x7d' := by
  rw [String.toList_append, List.getLast?_append_of_ne_nil _ (by decide)]
  decide

theorem getLast?_formatClause (body : String) :
    (body ++ formatClause).toList.getLast? = some 'w' := by
  rw [String.toList_append, List.getLast?_append_of_ne_nil _ (by decide)]
  decide

theorem isDirective_formatClause : IsDirective formatClause := by
  have hgap : IsGap " " := ⟨by decide, by decide⟩
  have hparts : formatClause = " " ++ "FORMAT" ++ " " ++ outputFormat := by decide
  rw [hparts]
  exact .named hgap (by decide) hgap (by decide)

theorem head?_append (hne : body ≠ "") (rest : String) :
    (body ++ rest).toList.head? = body.toList.head? := by
  have hbody : body.toList ≠ [] := fun hnil => hne (String.toList_inj.mp hnil)
  rw [String.toList_append, List.head?_append_of_ne_nil _ hbody]

theorem append_ne_empty (hne : body ≠ "") (rest : String) : body ++ rest ≠ "" := by
  simp [hne]

end Clauses

def withCap (body : String) : String :=
  body ++ if needsLimit body then capClause else ""

section WithCap

variable {body : String}

theorem withCap_ne_empty (hne : body ≠ "") : withCap body ≠ "" :=
  append_ne_empty hne _

theorem head?_withCap (hne : body ≠ "") : (withCap body).toList.head? = body.toList.head? :=
  head?_append hne _

theorem needsLimit_withCap (body : String) : needsLimit (withCap body) = false := by
  rw [withCap]
  cases hneeds : needsLimit body with
  | true => exact needsLimit_capClause body
  | false => simpa using hneeds

theorem withCap_last {p : Char → Bool} (hbrace : p '\x7d' = false)
    (hlast : ∀ c ∈ body.toList.getLast?, p c = false) :
    ∀ c ∈ (withCap body).toList.getLast?, p c = false := by
  rw [withCap]
  cases needsLimit body with
  | true =>
    rw [if_pos rfl, getLast?_capClause]
    rintro c ⟨⟩
    exact hbrace
  | false => simpa using hlast

theorem beforeFormat?_withCap (h : beforeFormat? body = none) :
    beforeFormat? (withCap body) = none := by
  rw [withCap]
  cases needsLimit body with
  | true =>
    refine beforeFormat?_eq_none ?_
    rw [if_pos rfl, getLast?_capClause]
    rintro c ⟨⟩
    decide
  | false => simpa using h

theorem isSettled_formatted (hne : body ≠ "")
    (hhead : ∀ c ∈ body.toList.head?, isBlank c = false)
    (hlast : ∀ c ∈ body.toList.getLast?, isBlank c = false)
    (hallowed : ¬ BeginsForbidden (body ++ formatClause)) (hcapped : needsLimit body = false) :
    IsSettled (body ++ formatClause) := by
  have hformat : beforeFormat? (body ++ formatClause) = some body :=
    beforeFormat?_eq_some.mpr ⟨⟨formatClause, isDirective_formatClause, rfl⟩, hlast⟩
  have hkept : kept (body ++ formatClause) = body := by rw [kept, hformat, Option.getD_some]
  refine ⟨append_ne_empty hne _, ?_, ?_, hallowed, by rwa [hkept], by rw [hkept, hformat]; rfl⟩
  · rwa [head?_append hne]
  · rw [getLast?_formatClause]
    rintro c ⟨⟩
    decide

theorem isSettled_plain (hne : body ≠ "")
    (hhead : ∀ c ∈ body.toList.head?, isBlank c = false)
    (hlast : ∀ c ∈ body.toList.getLast?, isTerminator c = false)
    (hallowed : ¬ BeginsForbidden body) (hcapped : needsLimit body = false)
    (hformat : beforeFormat? body = none) : IsSettled body := by
  have hkept : kept body = body := by rw [kept, hformat, Option.getD_none]
  exact ⟨hne, hhead, hlast, hallowed, by rwa [hkept], by simp [hkept, hformat]⟩

end WithCap

theorem text_of_compile {query : String} {limit : UInt64} {s : Statement}
    (h : compile query limit = .ok s) :
    s.text = withCap (kept (withoutTerminators query)) ++
      if (beforeFormat? (withoutTerminators query)).isSome then formatClause else "" := by
  obtain ⟨-, rfl⟩ := compile_eq_ok.mp h
  rw [assemble, withCap]

theorem isSettled_of_compile {query : String} {limit : UInt64} {s : Statement}
    (h : compile query limit = .ok s) : IsSettled s.text := by
  have hallowed := not_beginsForbidden_of_compile h
  have hstripped := isStripped_withoutTerminators query
  have hne := (compile_eq_ok.mp h).1.1
  have hbody := kept_ne_empty hne hstripped.head
  have hlast := kept_last hstripped.last
  rw [text_of_compile h] at hallowed ⊢
  generalize withoutTerminators query = statement at *
  have hhead : ∀ c ∈ (kept statement).toList.head?, isBlank c = false := by
    obtain ⟨rest, hrest⟩ := kept_isPrefix statement
    intro c hc
    refine hstripped.head c ?_
    rw [← hrest, List.head?_append, hc]
    rfl
  cases hformat : beforeFormat? statement with
  | some body =>
    rw [hformat] at hallowed
    refine isSettled_formatted (withCap_ne_empty hbody) ?_ ?_ hallowed (needsLimit_withCap _)
    · rwa [head?_withCap hbody]
    · exact withCap_last (by decide) hlast
  | none =>
    have hkept : kept statement = statement := by rw [kept, hformat, Option.getD_none]
    have hplain : (withCap (kept statement) ++
        if (none : Option String).isSome = true then formatClause else "") = withCap statement := by
      simp [hkept]
    rw [hformat, hplain] at hallowed
    rw [hplain]
    refine isSettled_plain (withCap_ne_empty hne) ?_ ?_ hallowed (needsLimit_withCap _) ?_
    · rw [head?_withCap hne]
      exact hstripped.head
    · exact withCap_last (by decide) hstripped.last
    · exact beforeFormat?_withCap hformat

/-- Rewriting twice is rewriting once: the statement is accepted again under any limit, comes out
as it went in, and has nothing bound. -/
theorem compile_again {query : String} {limit limit' : UInt64} {s : Statement}
    (h : compile query limit = .ok s) (hlimit : limit' ≠ 0) :
    compile s.text limit' = .ok ⟨s.text, ∅⟩ :=
  (isSettled_of_compile h).compile_eq hlimit

theorem compile_again_formatted :
    compile "\twith 1 AS x SELECT x, 'format' FoRmAt\u3000CSV ;\n" 7 =
      .ok ⟨"with 1 AS x SELECT x, 'format' LIMIT \x7blimit:UInt64\x7d FORMAT JSONEachRow",
        ⟨[⟨"limit", .uint64 7⟩]⟩⟩ ∧
    compile "with 1 AS x SELECT x, 'format' LIMIT \x7blimit:UInt64\x7d FORMAT JSONEachRow" 3 =
      .ok ⟨"with 1 AS x SELECT x, 'format' LIMIT \x7blimit:UInt64\x7d FORMAT JSONEachRow", ∅⟩ := by
  have hfirst : compile "\twith 1 AS x SELECT x, 'format' FoRmAt\u3000CSV ;\n" 7 =
      .ok ⟨"with 1 AS x SELECT x, 'format' LIMIT \x7blimit:UInt64\x7d FORMAT JSONEachRow",
        ⟨[⟨"limit", .uint64 7⟩]⟩⟩ := by
    decide +kernel
  have hpositive : (3 : UInt64) ≠ 0 := by decide
  have hagain := compile_again hfirst hpositive
  exact ⟨hfirst, hagain⟩

end QueryConsole.Adhoc
