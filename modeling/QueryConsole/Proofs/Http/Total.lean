import QueryConsole.Proofs.Engine.Total
import QueryConsole.Proofs.Http.Admission
import QueryConsole.Proofs.Http.Rows
import QueryConsole.Proofs.Json.Digits
import QueryConsole.Proofs.Json.Printer

namespace QueryConsole

namespace Json

section Row

variable {cs : List Char} {n : Numeral} {s : String}

def totalRow (cs : List Char) : String := "\x7b\"total\":" ++ String.ofList cs ++ "\x7d"

theorem parse?_totalRow {t : Tree} (h : Writes (cs ++ ['\x7d']) (t.tokens ++ [.closeObject])) :
    parse? (totalRow cs) = (t.json? 126).map fun value => .object [("total", value)] := by
  obtain ⟨pieces, hpieces, hkey⟩ := writes_isText (isText_quote "total")
  have hopen : Writes ['\x7b'] [.openObject] := writes_lexeme .openObject fun _ => trivial
  have hcolon : Writes [':'] [.colon] := writes_lexeme .colon fun _ => trivial
  have hlist : (totalRow cs).toList =
      ['\x7b'] ++ ((quote "total").toList ++ ([':'] ++ (cs ++ ['\x7d']))) := by
    simp [totalRow, quote, escapeChar]
  have htokens : (Tree.object [(pieces, t)] true).tokens =
      [.openObject] ++ ([.text pieces] ++ ([.colon] ++ (t.tokens ++ [.closeObject]))) := by
    simp [Tree.tokens_object, memberTokens]
  have hwhole : wholeTree? (totalRow cs) = some (.object [(pieces, t)] true) := by
    apply Writes.wholeTree?
    rw [hlist, htokens]
    exact hopen.append (hkey.append (hcolon.append h))
  rw [parse?, hwhole, Option.bind_some, nestingLimit, Tree.json?, List.mapM_cons, hpieces]
  cases t.json? 126 <;> rfl

theorem parse?_totalRow_number (h : IsNumeral n cs) :
    parse? (totalRow cs) = n.number?.map fun value => .object [("total", .number value)] := by
  have hwrites : Writes (cs ++ ['\x7d']) ((Tree.number n).tokens ++ [.closeObject]) := by
    intro rest tokens hrest
    simp only [Tree.tokens, List.append_assoc, List.cons_append, List.nil_append]
    refine .cons (.number h) ?_ (.cons .closeObject trivial hrest)
    exact ⟨by decide, by decide, by decide, by decide⟩
  rw [parse?_totalRow hwrites, Tree.json?, Option.map_map]
  rfl

theorem parse?_totalRow_text (h : IsText s cs) :
    parse? (totalRow cs) = some (.object [("total", .text s)]) := by
  obtain ⟨pieces, hpieces, htext⟩ := writes_isText h
  have hclose : Writes ['\x7d'] [.closeObject] := writes_lexeme .closeObject fun _ => trivial
  have hwrites : Writes (cs ++ ['\x7d']) ((Tree.text pieces).tokens ++ [.closeObject]) := by
    rw [Tree.tokens]
    exact htext.append hclose
  rw [parse?_totalRow hwrites, Tree.json?, hpieces]
  rfl

end Row

end Json

namespace Store

structure Reply.BeginsWith (reply : Reply) (row : String) : Prop where
  status : reply.status = 200
  lines : ∃ others, ((Text.splitOn '\n' (Text.Utf8.decodeLossy reply.body)).filter fun line =>
    !Text.isBlankText line) = row :: others ∧ ∀ line ∈ others, Json.parse? line ≠ none

theorem Reply.BeginsWith.rows_or {reply : Reply} {row : String} (h : reply.BeginsWith row) :
    (∃ value rest, Json.parse? row = some value ∧ reply.rows = .ok (value :: rest)) ∨
      Json.parse? row = none ∧ reply.rows = .error (.store .unreadableRow) := by
  obtain ⟨hstatus, others, hlines, hothers⟩ := h
  rw [Reply.rows_of_ok hstatus, lineValues, hlines, List.map_cons]
  obtain ⟨⟨rows, hrows⟩, -⟩ | ⟨herror, hnone⟩ :=
    exists_rowsOf (Json.parse? row :: others.map Json.parse?)
  · left
    have hvalues := rowsOf_eq_ok.mp hrows
    cases rows with
    | nil => cases hvalues
    | cons value rest =>
      rw [List.map_cons, List.cons.injEq] at hvalues
      exact ⟨value, rest, hvalues.1, hrows⟩
  · right
    refine ⟨?_, herror⟩
    rw [List.forall_mem_cons, not_and] at hnone
    by_contra hrow
    exact hnone hrow (by simpa using hothers)

end Store

namespace Http

open Store (Endpoint Reply)

def Answer.total (t : UInt64) : Answer :=
  ⟨200, some "application/json", "\x7b\"total\":" ++ toString t.toNat ++ "\x7d"⟩

theorem Answer.total_injective {t t' : UInt64} (h : total t = total t') : t = t' := by
  have hbody : "\x7b\"total\":" ++ toString t.toNat ++ "\x7d" =
      "\x7b\"total\":" ++ toString t'.toNat ++ "\x7d" := congrArg Answer.body h
  have hdigits : Nat.toDigits 10 t.toNat = Nat.toDigits 10 t'.toNat := by
    simpa using congrArg String.toList hbody
  apply UInt64.toNat_inj.mp
  simpa using congrArg (Nat.ofDigitChars 10 · 0) hdigits

theorem Response.answer_total (t : UInt64) :
    (Response.ok (.object [("total", .ofNat t.toNat)])).answer = .total t := by
  have hbody : (Json.object [("total", .ofNat t.toNat)]).render =
      "\x7b\"total\":" ++ toString t.toNat ++ "\x7d" := by
    have hkey : Json.quote "total" = "\"total\"" := by decide
    simp only [Json.render, Json.renderMembers, Json.ofNat, JsonNumber.text, hkey,
      String.intercalate_singleton]
    rfl
  simp only [Response.answer, Response.ok, Response.body, Response.contentType, hbody]
  rfl

/-- How a total is written in a row: by its digits, or as the text of an unsigned integer. -/
inductive SpellsTotal (t : UInt64) : List Char → Prop
  | digits : SpellsTotal t (toString t.toNat).toList
  | text {s : String} {cs : List Char} (hs : Json.IsText s cs) (h : IsUnsigned t s) :
    SpellsTotal t cs

namespace Server

/-- An admitted request for the count of a dataset, and the statement it compiles to. -/
structure Counts (s : Server) (r : Request) (d : Dataset) (stmt : Statement) : Prop where
  admitted : s.admits r = true
  method : r.method = "GET"
  path : r.path = "/api/" ++ d.name ++ "/count"
  compiles : ∃ p, queryParameters (Form.decode r.query) = .ok p ∧
    compile d .count p s.engine.limits = .ok stmt

namespace Counts

variable {s : Server} {r : Request} {d : Dataset} {stmt : Statement} {rows : List Json}

theorem handle_eq (h : s.Counts r d stmt) :
    s.handle r = .ofOutcome (fun n => .object [("total", .ofNat n.toNat)])
      (s.engine.total d stmt) := by
  obtain ⟨hadmitted, hmethod, hpath, p, hp, hcompile⟩ := h
  have hslash : '/' ∉ d.name.toList := by cases d <;> decide
  have hname : decodeSegment? d.name = some d.name := by cases d <;> decide +kernel
  have hreads : r.Reads d.name .count r.query := by
    refine ⟨hmethod, ⟨.count, .plain rfl, ?_⟩, rfl⟩
    rw [hpath]
    cases d <;> decide
  have hlist : ReadPattern.count = .list → Route.isReserved d.name = false := nofun
  have hfield : ∀ f, ReadPattern.count.field? = some f → f ≠ "" := nofun
  rw [handle_unlocked hadmitted, handle_executing rfl hslash hlist hfield hreads, hname,
    Option.elim_some]
  simp only [View.executing, read, hp, Exchange.reading_ok, Dataset.ofName, Dataset.ofName?_name,
    Outcome.after_ok, Engine.count_eq]
  change Exchange.ofOutcome _ (.after (compile d .count p s.engine.limits) _) = _
  rw [hcompile]
  rfl

theorem answer_of_rows (h : s.Counts r d stmt) (hrows : s.engine.storage.rows stmt = .ok rows) :
    (s.handle r).response.answer =
      (totalOf rows).elim (.storeFailure (StoreFault.noTotal d).message) .total := by
  rw [h.handle_eq, Engine.total, Outcome.callRows, hrows]
  simp only [Exchange.ofOutcome, Outcome.andThen, Except.bind]
  cases totalOf rows with
  | some t => exact Response.answer_total t
  | none => rfl

theorem answer_of_unreadable (h : s.Counts r d stmt)
    (hrows : s.engine.storage.rows stmt = .error (.store .unreadableRow)) :
    (s.handle r).response.answer = .storeFailure "unreadable result row" := by
  rw [h.handle_eq, Engine.total, Outcome.callRows, hrows]
  rfl

section Row

variable {reply : Reply} {t : UInt64} {value : Json} {cs : List Char}

theorem answer_of_parse? (h : s.Counts r d stmt)
    (hstorage : s.engine.storage.rows stmt = reply.rows)
    (hrow : reply.BeginsWith (Json.totalRow cs))
    (hvalue : Json.parse? (Json.totalRow cs) = some (.object [("total", value)])) :
    (s.handle r).response.answer =
      (readTotal value).elim (.storeFailure (StoreFault.noTotal d).message) .total := by
  obtain ⟨value', rest, hvalue', hrows⟩ | ⟨hnone, -⟩ := hrow.rows_or
  · cases hvalue.symm.trans hvalue'
    rw [h.answer_of_rows (hstorage.trans hrows)]
    rfl
  · cases hvalue.symm.trans hnone

theorem answer_of_spellsTotal (h : s.Counts r d stmt)
    (hstorage : s.engine.storage.rows stmt = reply.rows)
    (hrow : reply.BeginsWith (Json.totalRow cs)) (ht : SpellsTotal t cs) :
    (s.handle r).response.answer = .total t := by
  cases ht with
  | digits =>
    have hnumeral := Json.isNumeral_toDigits t.toNat
    rw [Nat.toString_eq_repr, Nat.toList_repr] at hrow
    have hinteger := (Json.isInteger64_iff_toDigits hnumeral t.toNat_lt_size).mpr rfl
    have hnumber := (Json.number?_eq_integer ⟨_, .number hnumeral⟩).mpr hinteger
    have hparse := Json.parse?_totalRow_number hnumeral
    rw [hnumber, Option.map_some] at hparse
    rw [h.answer_of_parse? hstorage hrow hparse, readTotal_eq_some.mpr .number]
    rfl
  | text hs hunsigned =>
    rw [h.answer_of_parse? hstorage hrow (Json.parse?_totalRow_text hs),
      readTotal_eq_some.mpr (.text hunsigned)]
    rfl

theorem answer_or (h : s.Counts r d stmt)
    (hstorage : s.engine.storage.rows stmt = reply.rows)
    (hrow : reply.BeginsWith (Json.totalRow cs))
    (hcs : (∃ n, Json.IsNumeral n cs) ∨ ∃ s, Json.IsText s cs) :
    (∃ t, SpellsTotal t cs ∧ (s.handle r).response.answer = .total t) ∨
      ∃ explanation, (s.handle r).response.answer = .storeFailure explanation := by
  obtain ⟨n, hnumeral⟩ | ⟨text, htext⟩ := hcs
  · have hparse := Json.parse?_totalRow_number hnumeral
    cases hnumber : n.number? with
    | none =>
      rw [hnumber] at hparse
      obtain ⟨value, rest, hvalue, -⟩ | ⟨-, hrows⟩ := hrow.rows_or
      · cases hvalue.symm.trans hparse
      · exact .inr ⟨_, h.answer_of_unreadable (hstorage.trans hrows)⟩
    | some number =>
      rw [hnumber, Option.map_some] at hparse
      have hanswer := h.answer_of_parse? hstorage hrow hparse
      cases htotal : readTotal (.number number) with
      | none =>
        rw [htotal] at hanswer
        exact .inr ⟨_, hanswer⟩
      | some t =>
        rw [htotal] at hanswer
        refine .inl ⟨t, ?_, hanswer⟩
        cases readTotal_eq_some.mp htotal with
        | number =>
          have hinteger := (Json.number?_eq_integer ⟨_, .number hnumeral⟩).mp hnumber
          have hdigits := (Json.isInteger64_iff_toDigits hnumeral t.toNat_lt_size).mp hinteger
          have hspelled := SpellsTotal.digits (t := t)
          rwa [Nat.toString_eq_repr, Nat.toList_repr, ← hdigits] at hspelled
  · have hanswer := h.answer_of_parse? hstorage hrow (Json.parse?_totalRow_text htext)
    cases htotal : readTotal (.text text) with
    | none =>
      rw [htotal] at hanswer
      exact .inr ⟨_, hanswer⟩
    | some t =>
      rw [htotal] at hanswer
      refine .inl ⟨t, ?_, hanswer⟩
      cases readTotal_eq_some.mp htotal with
      | text hunsigned => exact .text htext hunsigned

end Row

end Counts

/-- Counts are exact or refused.  A count comes to the total in the first row or fails at the store,
and a client gets the digits that the store's reply has, as a number or as a text.  A number of any
other spelling, signed, fractional or too large, is answered by a failure. -/
theorem handle_count (d : Dataset) :
    (∀ (e : Engine) (p : Parameters) (stmt : Statement) (rows : List Json),
      compile d .count p e.limits = .ok stmt → e.storage.rows stmt = .ok rows →
        (e.count d p).calls = [.rows stmt] ∧
        (∀ t, (e.count d p).result = .ok t ↔ GivesTotal t rows) ∧
        ((∀ t, ¬GivesTotal t rows) → (e.count d p).result = .error (.store (.noTotal d)))) ∧
    ∀ (s : Server) (r : Request) (stmt : Statement) (e : Endpoint) (respond : Request → Reply)
        (sent : Request), s.Counts r d stmt → s.engine.storage = e.storage respond →
          e.request? (.rows stmt) = some sent →
      (∀ t : UInt64,
        (respond sent).BeginsWith ("\x7b\"total\":" ++ toString t.toNat ++ "\x7d") ∨
          (respond sent).BeginsWith ("\x7b\"total\":\"" ++ toString t.toNat ++ "\"\x7d") →
        (s.handle r).response.answer = .total t) ∧
      ∀ cs, (respond sent).BeginsWith (Json.totalRow cs) →
        ((∃ n, Json.IsNumeral n cs) ∨ ∃ text, Json.IsText text cs) →
        (∀ t, (s.handle r).response.answer = .total t ↔ SpellsTotal t cs) ∧
        ((∀ t, ¬SpellsTotal t cs) →
          ∃ explanation, (s.handle r).response.answer = .storeFailure explanation) := by
  refine ⟨fun e p stmt rows hcompile hrows => Engine.result_count hcompile hrows, ?_⟩
  intro s r stmt e respond sent h hstorage hsent
  have hrows : s.engine.storage.rows stmt = (respond sent).rows := by
    simp only [hstorage, Endpoint.storage, Endpoint.reply, hsent]
    rfl
  constructor
  · rintro t (hrow | hrow)
    · have hdigits : "\x7b\"total\":" ++ toString t.toNat ++ "\x7d" =
          Json.totalRow (toString t.toNat).toList := by
        rw [Json.totalRow, String.ofList_toList]
      rw [hdigits] at hrow
      exact h.answer_of_spellsTotal hrows hrow .digits
    · have hquoted : "\x7b\"total\":\"" ++ toString t.toNat ++ "\"\x7d" =
          Json.totalRow ('"' :: ((toString t.toNat).toList ++ ['"'])) := by
        simp [Json.totalRow, ← String.toList_inj]
      have hdigits : Json.AreDigits (toString t.toNat).toList := by
        rw [Nat.toString_eq_repr, Nat.toList_repr]
        exact Json.areDigits_toDigits _
      rw [hquoted] at hrow
      exact h.answer_of_spellsTotal hrows hrow (.text (Json.isText_digits hdigits)
        (Decimal.uint64?_eq_some.mp (Decimal.uint64?_toString t)))
  · intro cs hrow hcs
    have hanswer := h.answer_or hrows hrow hcs
    constructor
    · intro t
      refine ⟨fun heq => ?_, h.answer_of_spellsTotal hrows hrow⟩
      obtain ⟨t', hspelled, htotal⟩ | ⟨explanation, hfailure⟩ := hanswer
      · rwa [Answer.total_injective (heq.symm.trans htotal)]
      · have hstatus := Answer.status_storeFailure explanation
        rw [← hfailure, heq] at hstatus
        exact absurd rfl hstatus
    · intro hnone
      obtain ⟨t, hspelled, -⟩ | hfailure := hanswer
      · exact absurd hspelled (hnone t)
      · exact hfailure

end Server

def countedParts : Request := ⟨"GET", "/api/parts/count", [], []⟩

def partsCount : Statement := ⟨"SELECT count() AS total\nFROM system.parts", ⟨[]⟩⟩

theorem counts_countedParts (body : String) :
    (repliedServer body).Counts countedParts .parts partsCount where
  admitted := rfl
  method := rfl
  path := by decide
  compiles := by
    have hcompile : compile .parts .count {} {} = .ok partsCount := by decide +kernel
    exact ⟨{}, by decide +kernel, hcompile⟩

theorem handle_count_countedParts :
    ((repliedServer "\x7b\"total\":18446744073709551615\x7d\n").handle
        countedParts).response.answer = .total 18446744073709551615 ∧
      ((repliedServer "\x7b\"total\":\"18446744073709551615\"\x7d\n").handle
        countedParts).response.answer = .total 18446744073709551615 ∧
      ∃ explanation,
        ((repliedServer "\x7b\"total\":18446744073709551616\x7d\n").handle
          countedParts).response.answer = .storeFailure explanation := by
  obtain ⟨sent, hsent⟩ := Endpoint.sends_of_isPlain Endpoint.isPlain_marked
    Endpoint.hasSendableCredentials_marked (.rows partsCount)
  obtain ⟨-, hreply⟩ := Server.handle_count .parts
  refine ⟨?_, ?_, ?_⟩
  · obtain ⟨hexact, -⟩ := hreply _ countedParts partsCount .marked _ sent
      (counts_countedParts "\x7b\"total\":18446744073709551615\x7d\n") rfl hsent.request
    exact hexact _ (.inl ⟨rfl, [], by decide +kernel, nofun⟩)
  · obtain ⟨hexact, -⟩ := hreply _ countedParts partsCount .marked _ sent
      (counts_countedParts "\x7b\"total\":\"18446744073709551615\"\x7d\n") rfl hsent.request
    exact hexact _ (.inr ⟨rfl, [], by decide +kernel, nofun⟩)
  · obtain ⟨-, hscalar⟩ := hreply _ countedParts partsCount .marked _ sent
      (counts_countedParts "\x7b\"total\":18446744073709551616\x7d\n") rfl hsent.request
    have hspelling : Nat.toDigits 10 18446744073709551616 = "18446744073709551616".toList := by
      decide +kernel
    refine (hscalar (Nat.toDigits 10 18446744073709551616) ⟨rfl, [], by decide +kernel, nofun⟩
      (.inl ⟨_, Json.isNumeral_toDigits _⟩)).2 ?_
    intro t ht
    rw [hspelling] at ht
    generalize hcs : "18446744073709551616".toList = cs at ht
    cases ht with
    | digits =>
      rw [← hspelling, Nat.toString_eq_repr, Nat.toList_repr] at hcs
      have hvalue := congrArg (Nat.ofDigitChars 10 · 0) hcs
      simp only [Nat.ofDigitChars_ten_toDigits] at hvalue
      have hlt : t.toNat < 18446744073709551616 := t.toNat_lt_size
      omega
    | text hs =>
      cases hs
      have hquote : '"' ∈ Nat.toDigits 10 18446744073709551616 := by
        rw [hspelling, hcs]
        exact List.mem_cons_self
      exact absurd (Json.areDigits_toDigits _ _ hquote) (by decide)

end Http

end QueryConsole
