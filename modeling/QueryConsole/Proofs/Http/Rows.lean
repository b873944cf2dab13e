import QueryConsole.Proofs.Http.Key
import QueryConsole.Proofs.Store.Endpoint
import QueryConsole.Proofs.Store.Rows

namespace QueryConsole

namespace Store

theorem Reply.rows_of_ok {reply : Reply} (h : reply.status = 200) :
    reply.rows = rowsOf (lineValues (Text.splitOn '\n' (Text.Utf8.decodeLossy reply.body))) := by
  have hcontent : reply.content = Text.Utf8.decodeLossy reply.body := by
    rw [Reply.content, if_neg (by omega)]
  rw [Reply.rows, Reply.text, if_pos h, hcontent]
  exact readRows_eq _

theorem Reply.rows_of_ne {reply : Reply} (h : reply.status ≠ 200) :
    reply.rows = .error (.store (.refused (Text.trim reply.content))) := by
  rw [Reply.rows, Reply.text, if_neg h]
  rfl

end Store

namespace Http

open Store (Endpoint Reply lineValues)

theorem Response.status_answer (r : Response) : r.answer.status = r.status := rfl

def Answer.rows (rows : List Json) : Answer :=
  ⟨200, some "application/json", (Json.array rows).render⟩

def Answer.storeFailure (explanation : String) : Answer :=
  ⟨502, some "application/json",
    (Json.object [("error", .text ("backend error: " ++ explanation))]).render⟩

theorem Answer.status_storeFailure (explanation : String) :
    (storeFailure explanation).status ≠ 200 := by
  change 502 ≠ 200
  decide

def Answer.ofRows : Except Failure (List Json) → Answer
  | .ok rows => .rows rows
  | .error f => (Response.ofFailure f).answer

/-- How a reply of these values is answered. -/
inductive Answer.OfReply (reply : Reply) (values : List (Option Json)) : Answer → Prop
  | rows (rows : List Json) (hstatus : reply.status = 200) (h : values = rows.map some) :
    OfReply reply values (.rows rows)
  | unreadable (h : reply.status = 200) (hvalue : ¬ ∀ value ∈ values, value ≠ none) :
    OfReply reply values (.storeFailure "unreadable result row")
  | refused (h : reply.status ≠ 200) :
    OfReply reply values (.storeFailure (Text.trim reply.content))

theorem Answer.ofReply_rows (reply : Reply) :
    OfReply reply (lineValues (Text.splitOn '\n' (Text.Utf8.decodeLossy reply.body)))
      (.ofRows reply.rows) := by
  by_cases hstatus : reply.status = 200
  · rw [Reply.rows_of_ok hstatus]
    obtain ⟨⟨rows, hrows⟩, -⟩ | ⟨herror, hvalue⟩ := Store.exists_rowsOf
      (lineValues (Text.splitOn '\n' (Text.Utf8.decodeLossy reply.body)))
    · rw [hrows]
      exact .rows rows hstatus (Store.rowsOf_eq_ok.mp hrows)
    · rw [herror]
      exact .unreadable hstatus hvalue
  · rw [Reply.rows_of_ne hstatus]
    exact .refused hstatus

theorem View.decode?_rows {dataset : String} {pattern : ReadPattern} {decoded : View}
    (h : (View.rows dataset pattern).decode? = some decoded) :
    ∃ dataset pattern, decoded = .rows dataset pattern := by
  rw [View.decode?.eq_def] at h
  split at h
  all_goals simp only [Option.bind_eq_some_iff, Option.map_eq_some_iff] at h
  case h_1 | h_2 =>
    obtain ⟨_, -, _, -, rfl⟩ := h
    exact ⟨_, _, rfl⟩
  case h_3 =>
    obtain ⟨_, -, rfl⟩ := h
    exact ⟨_, _, rfl⟩
  all_goals contradiction

namespace Server

variable {s : Server} {r : Request} {dataset : String} {pattern : ReadPattern} {stmt : Statement}

theorem answer_read {pairs : List (String × String)}
    (hcalls : (s.read (.rows dataset pattern) pairs).calls = [.rows stmt]) :
    (s.read (.rows dataset pattern) pairs).response.answer =
      .ofRows (s.engine.storage.rows stmt) := by
  rw [read] at hcalls ⊢
  cases hp : queryParameters pairs with
  | error rejection =>
    rw [hp] at hcalls
    cases hcalls
  | ok p =>
    rw [hp] at hcalls
    simp only [Exchange.reading_ok, Exchange.calls_ofOutcome] at hcalls ⊢
    cases hd : Dataset.ofName dataset with
    | error f =>
      rw [hd] at hcalls
      cases hcalls
    | ok d =>
      rw [hd] at hcalls
      simp only [Outcome.after_ok, Engine.read] at hcalls ⊢
      cases hcompile : compile d pattern p s.engine.limits with
      | error f =>
        rw [hcompile] at hcalls
        cases hcalls
      | ok stmt' =>
        rw [hcompile] at hcalls
        cases hcalls
        simp only [Outcome.after_ok, Outcome.callRows, Exchange.ofOutcome]
        cases s.engine.storage.rows stmt <;> rfl

theorem answer_of_calls (hmethod : r.method = "GET")
    (hroute : Route.ofSegments? r.segments = some (.view (.rows dataset pattern)))
    (hcalls : (s.handle r).calls = [.rows stmt]) :
    (s.handle r).response.answer = .ofRows (s.engine.storage.rows stmt) := by
  have hhandle : s.handle r = s.exchange (.view (.rows dataset pattern)) r := by
    simp [handle, hroute, Route.omitsBody, hmethod]
  rw [hhandle, exchange] at hcalls ⊢
  split at hcalls
  · cases hcalls
  · next hadmitted =>
    rw [if_neg hadmitted]
    split at hcalls
    · next hserves =>
      rw [if_pos hserves]
      rw [serve] at hcalls ⊢
      cases hdecode : (View.rows dataset pattern).decode? with
      | none =>
        rw [hdecode] at hcalls
        cases hcalls
      | some decoded =>
        obtain ⟨dataset', pattern', rfl⟩ := View.decode?_rows hdecode
        rw [hdecode] at hcalls
        exact answer_read hcalls
    · cases hcalls

/-- All rows or none.  A reply's rows are answered if its status is 200 and each of its lines that
is not blank is one JSON value, whether or not a carriage return counts as the end of a line: then
they are the values of those lines, in their order.  Otherwise there is only a message. -/
theorem handle_rows {e : Endpoint} {respond : Request → Reply} {sent : Request}
    {lines : List String} (hstorage : s.engine.storage = e.storage respond)
    (hmethod : r.method = "GET")
    (hroute : Route.ofSegments? r.segments = some (.view (.rows dataset pattern)))
    (hcalls : (s.handle r).calls = [.rows stmt]) (hsent : e.request? (.rows stmt) = some sent)
    (hlines : lines = Text.lines (Text.Utf8.decodeLossy (respond sent).body) ∨
      lines = Text.splitOn '\n' (Text.Utf8.decodeLossy (respond sent).body)) :
    ((s.handle r).response.status = 200 ↔
      (respond sent).status = 200 ∧ ∀ value ∈ lineValues lines, value ≠ none) ∧
    ((s.handle r).response.status = 200 →
      ∃ rows, lineValues lines = rows.map some ∧ (s.handle r).response.answer = .rows rows) ∧
    ((s.handle r).response.status ≠ 200 →
      ∃ explanation, (s.handle r).response.answer = .storeFailure explanation) ∧
    ((respond sent).status ≠ 200 →
      (s.handle r).response.answer = .storeFailure (Text.trim (respond sent).content)) ∧
    ∀ a b, Store.readRows (a ++ "\n" ++ b) =
      (Store.readRows a).bind fun rows => (Store.readRows b).map fun rows' => rows ++ rows' := by
  have hvalues : lineValues lines =
      lineValues (Text.splitOn '\n' (Text.Utf8.decodeLossy (respond sent).body)) := by
    obtain rfl | rfl := hlines
    · exact Store.lineValues_lines _
    · rfl
  have hstore : s.engine.storage.rows stmt = (respond sent).rows := by
    simp only [hstorage, Endpoint.storage, Endpoint.reply, hsent]
    rfl
  have hanswer := Answer.ofReply_rows (respond sent)
  rw [← hvalues, ← hstore, ← answer_of_calls hmethod hroute hcalls] at hanswer
  rw [← Response.status_answer]
  generalize (s.handle r).response.answer = answer at hanswer
  cases hanswer with
  | rows rows hok h =>
    have hall : ∀ value ∈ lineValues lines, value ≠ none := by simp [h]
    exact ⟨⟨fun _ => ⟨hok, hall⟩, fun _ => rfl⟩, fun _ => ⟨rows, h, rfl⟩, fun hne => absurd rfl hne,
      fun hne => absurd hok hne, Store.readRows_append⟩
  | unreadable hok hvalue =>
    have hstatus := Answer.status_storeFailure "unreadable result row"
    exact ⟨⟨fun h => absurd h hstatus, fun h => absurd h.2 hvalue⟩, fun h => absurd h hstatus,
      fun _ => ⟨_, rfl⟩, fun hne => absurd hok hne, Store.readRows_append⟩
  | refused hne =>
    have hstatus := Answer.status_storeFailure (Text.trim (respond sent).content)
    exact ⟨⟨fun h => absurd h hstatus, fun h => absurd h.1 hne⟩, fun h => absurd h hstatus,
      fun _ => ⟨_, rfl⟩, fun _ => rfl, Store.readRows_append⟩

end Server

def repliedServer (body : String) : Server where
  engine := ⟨Endpoint.marked.storage fun _ => ⟨200, Text.Utf8.encode body.toList⟩, {}⟩
  apiKey := none

def listedParts : Request := ⟨"GET", "/api/parts", [], []⟩

def mixedLines : String := "\r\n\x7b\"a\":1\x7d\r\n \n[2]"

def brokenLines : String := "\x7b\"a\":1\x7d\n[2]\nCode: 241"

def writtenRows : List Json :=
  [.object [("a", .ofNat 1)], .array [.ofNat 2]]

theorem lineValues_repliedLines :
    lineValues (Text.lines (Text.Utf8.decodeLossy (Text.Utf8.encode mixedLines.toList))) =
        writtenRows.map some ∧
      lineValues (Text.lines (Text.Utf8.decodeLossy (Text.Utf8.encode brokenLines.toList))) =
        writtenRows.map some ++ [none] := by
  have hmixed :
      (Text.lines (Text.Utf8.decodeLossy (Text.Utf8.encode mixedLines.toList))).filter
        (fun line => !Text.isBlankText line) = ["\x7b\"a\":1\x7d", "[2]"] := by
    decide +kernel
  have hbroken :
      (Text.lines (Text.Utf8.decodeLossy (Text.Utf8.encode brokenLines.toList))).filter
        (fun line => !Text.isBlankText line) = ["\x7b\"a\":1\x7d", "[2]", "Code: 241"] := by
    decide +kernel
  constructor
  · rw [lineValues, hmixed]
    rfl
  · rw [lineValues, hbroken]
    rfl

theorem handle_rows_listedParts :
    ((repliedServer mixedLines).handle listedParts).response.answer =
      .rows [.object [("a", .ofNat 1)], .array [.ofNat 2]] ∧
    ∃ explanation,
      ((repliedServer brokenLines).handle listedParts).response.answer =
        .storeFailure explanation := by
  have hcalls : ∃ stmt, ∀ body ∈ [mixedLines, brokenLines],
      ((repliedServer body).handle listedParts).calls = [.rows stmt] := by
    refine ⟨⟨"SELECT *\nFROM system.parts\nORDER BY modification_time DESC\n" ++
      "LIMIT \x7blimit:UInt64\x7d OFFSET \x7boffset:UInt64\x7d",
      ⟨[⟨"limit", .uint64 100⟩, ⟨"offset", .uint64 0⟩]⟩⟩, ?_⟩
    decide +kernel
  obtain ⟨stmt, hcalls⟩ := hcalls
  obtain ⟨sent, hsent⟩ := Endpoint.sends_of_isPlain Endpoint.isPlain_marked
    Endpoint.hasSendableCredentials_marked (.rows stmt)
  have hroute : Route.ofSegments? listedParts.segments = some (.view (.rows "parts" .list)) := by
    decide +kernel
  obtain ⟨hmixed, hbroken⟩ := lineValues_repliedLines
  constructor
  · obtain ⟨hok, hrows, -⟩ := Server.handle_rows (s := repliedServer mixedLines) rfl rfl hroute
      (hcalls _ (by simp)) hsent.request (.inl rfl)
    have hread : ∀ value ∈ lineValues (Text.lines
        (Text.Utf8.decodeLossy (Text.Utf8.encode mixedLines.toList))), value ≠ none := by
      rw [hmixed]
      simp
    obtain ⟨rows, hlines, hanswer⟩ := hrows (hok.mpr ⟨rfl, hread⟩)
    obtain rfl : writtenRows = rows :=
      List.map_injective_iff.mpr (fun _ _ => Option.some.inj) (hmixed.symm.trans hlines)
    exact hanswer
  · obtain ⟨hok, -, hfailure, -⟩ := Server.handle_rows (s := repliedServer brokenLines) rfl rfl
      hroute (hcalls _ (by simp)) hsent.request (.inl rfl)
    refine hfailure fun hstatus => ?_
    have hnone : none ∈ lineValues (Text.lines
        (Text.Utf8.decodeLossy (Text.Utf8.encode brokenLines.toList))) := by
      rw [hbroken]
      simp
    exact (hok.mp hstatus).2 none hnone rfl

end Http

end QueryConsole
