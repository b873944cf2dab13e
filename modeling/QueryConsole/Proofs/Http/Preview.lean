import QueryConsole.Proofs.Http.Calls
import QueryConsole.Proofs.Http.Form
import QueryConsole.Proofs.Http.Views
import QueryConsole.Proofs.Text.Trim

/-! Previews show what would run.  The preview of a pattern is refused when the read of the pattern
is refused before it gets to the storage, and shows the statement that the read calls otherwise.  A
field in a path is taken as it is; one in a query string loses the blanks around it. -/

namespace QueryConsole

namespace ReadPattern

def trimmed : ReadPattern → ReadPattern
  | .histogram field => .histogram (Text.trim field)
  | .distinct field => .distinct (Text.trim field)
  | pattern => pattern

section Field

variable {pattern : ReadPattern} {field : String} {p : Parameters}

theorem field?_trimmed (pattern : ReadPattern) :
    pattern.trimmed.field? = pattern.field?.map Text.trim := by
  cases pattern <;> rfl

theorem trimmed_eq_self (h : ∀ field, pattern.field? = some field → Text.trim field = field) :
    pattern.trimmed = pattern := by
  cases pattern with
  | histogram field => exact congrArg _ (h field rfl)
  | distinct field => exact congrArg _ (h field rfl)
  | _ => rfl

theorem ofName_trimmed {field? : Option String}
    (h : ∀ field, pattern.field? = some field →
      field? = some field ∧ Text.isBlankText field = false) :
    ofName pattern.name field? = .ok pattern.trimmed := by
  have hgiven (field : String) (hfield : pattern.field? = some field) :
      Text.given field? = some (Text.trim field) := by
    obtain ⟨rfl, hblank⟩ := h field hfield
    simp only [Text.given, hblank, Bool.false_eq_true, if_false]
  cases pattern with
  | histogram field => simp only [name, ofName, ofName.withField, hgiven field rfl, trimmed]
  | distinct field => simp only [name, ofName, ofName.withField, hgiven field rfl, trimmed]
  | _ => rfl

theorem ofName_blank (h : pattern.field? = some field) (hblank : Text.isBlankText field = true)
    (pattern' : ReadPattern) : ofName pattern.name (some field) ≠ .ok pattern' := by
  have hgiven : Text.given (some field) = none := by simp only [Text.given, hblank, if_true]
  cases pattern <;> cases h <;> simp [name, ofName, ofName.withField, hgiven]

theorem trim_eq_of_offers {d : Dataset} (h : d.table.Offers p pattern)
    (hfield : pattern.field? = some field) : Text.trim field = field := by
  have hknown : field ∈ d.table.scalarFields ∨ field ∈ d.table.arrayFields := by
    cases pattern <;> cases hfield <;> exact h
  obtain hscalar | harray := hknown
  · exact Text.trim_eq_self_of_isIdentifier (d.isColumn_scalarField hscalar).1
  · exact Text.trim_eq_self_of_isIdentifier (d.isColumn_arrayField harray).1

end Field

end ReadPattern

namespace Engine

def total (e : Engine) (d : Dataset) (stmt : Statement) : Outcome UInt64 :=
  (Outcome.callRows e.storage stmt).andThen fun rows =>
    match totalOf rows with
    | some total => .ok total
    | none => .error (.store (.noTotal d))

theorem count_eq (e : Engine) (d : Dataset) (p : Parameters) :
    e.count d p = .after (compile d .count p e.limits) (e.total d) := by
  rw [count, read]
  cases compile d .count p e.limits <;> rfl

end Engine

namespace Http

structure Request.Reads (r : Request) (dataset : String) (pattern : ReadPattern)
    (query : String) : Prop where
  method : r.method = "GET"
  path : ∃ written, View.IsWritten pattern written ∧
    r.path = "/".intercalate (View.executingSegments dataset written)
  query : r.query = query

structure Request.Previews (r : Request) (dataset : String) (pattern : ReadPattern)
    (query : String) : Prop where
  method : r.method = "GET"
  path : r.path = "/".intercalate (View.previewSegments dataset pattern.name)
  query : (∃ field, (∀ f, pattern.field? = some f → field = f) ∧
      Form.Inserts ("field", field) query r.query) ∨
    pattern.field? = none ∧ r.query = query

def Exchange.IsRefused (e : Exchange) : Prop :=
  e.response.status = 400 ∧ e.calls = []

namespace Exchange.IsRefused

variable {α β : Type} {json : β → Json}

theorem reading {read : Except Rejection α} {next : α → Exchange}
    (hread : ∀ r, read = .error r → r.status = 400)
    (hnext : ∀ a, read = .ok a → (next a).IsRefused) : (Exchange.reading read next).IsRefused := by
  cases read with
  | ok a => exact hnext a rfl
  | error r => exact ⟨hread r rfl, rfl⟩

theorem after {check : Except Failure α} {next : α → Outcome β} (hcheck : OnlyInvalid check)
    (hnext : ∀ a, check = .ok a → (ofOutcome json (next a)).IsRefused) :
    (ofOutcome json (.after check next)).IsRefused := by
  cases check with
  | ok a => exact hnext a rfl
  | error f =>
    obtain ⟨fault, rfl⟩ := hcheck f rfl
    exact ⟨rfl, rfl⟩

theorem ofResult {x : Except Failure β} (hx : OnlyInvalid x) (h : ∀ a, x ≠ .ok a) :
    (ofOutcome json (.ofResult x)).IsRefused := by
  cases x with
  | ok a => exact absurd rfl (h a)
  | error f =>
    obtain ⟨fault, rfl⟩ := hx f rfl
    exact ⟨rfl, rfl⟩

end Exchange.IsRefused

/-- The preview is refused with the read, or shows the statement that it calls. -/
structure Shows (preview read : Exchange) : Prop where
  refused : preview.response.status = 400 ↔ read.IsRefused
  shown : preview.response.status ≠ 400 →
    ∃ s, read.calls = [.rows s] ∧ preview.response = .ok s.json

theorem Shows.ofRefused {preview read : Exchange} (hpreview : preview.IsRefused)
    (hread : read.IsRefused) : Shows preview read :=
  ⟨⟨fun _ => hread, fun _ => hpreview.1⟩, fun h => absurd hpreview.1 h⟩

theorem isRefused_undecodable : (Exchange.ofResponse (.ofRejection .undecodablePath)).IsRefused :=
  ⟨rfl, rfl⟩

section Query

variable {field : String} {pairs before after : List (String × String)}

theorem queryParameters_insert :
    queryParameters (before ++ ("field", field) :: after) = queryParameters (before ++ after) := by
  have hskip (p : Parameters) : p.assign "field" field = some p := rfl
  simp only [queryParameters, List.foldlM_append, List.foldlM_cons, hskip]
  rfl

theorem status_of_queryParameters {rejection : Rejection}
    (h : queryParameters pairs = .error rejection) : rejection.status = 400 := by
  rw [queryParameters] at h
  split at h
  · cases h
  · cases h
    rfl

theorem filter_field (h : ∀ pair ∈ pairs, pair.1 ≠ "field") :
    pairs.filter (fun pair => pair.1 == "field") = [] := by
  rw [List.filter_eq_nil_iff]
  intro pair hpair
  simpa using h pair hpair

theorem queryField_insert (h : ∀ pair ∈ before ++ after, pair.1 ≠ "field") :
    queryField (before ++ ("field", field) :: after) = .ok (some field) := by
  rw [List.forall_mem_append] at h
  rw [queryField, List.filter_append, filter_field h.1, List.nil_append,
    List.filter_cons_of_pos (by rfl), filter_field h.2]

theorem queryField_none (h : ∀ pair ∈ pairs, pair.1 ≠ "field") : queryField pairs = .ok none := by
  rw [queryField, filter_field h]

end Query

namespace Server

variable {s : Server} {name : String} {pattern : ReadPattern}
  {pairs pairs' : List (String × String)} {field : Option String} {stmt : Statement}

def Compiles (s : Server) (name : String) (pattern : ReadPattern)
    (pairs : List (String × String)) (stmt : Statement) : Prop :=
  ∃ p d, queryParameters pairs = .ok p ∧ Dataset.ofName name = .ok d ∧
    compile d pattern p s.engine.limits = .ok stmt

theorem read_executing (s : Server) (name : String) (pattern : ReadPattern)
    (pairs : List (String × String)) :
    ∃ (α : Type) (json : α → Json) (next : Dataset → Statement → Outcome α),
      (∀ d stmt, (next d stmt).calls = [.rows stmt]) ∧
      s.read (View.executing name pattern) pairs =
        .reading (queryParameters pairs) fun p =>
          .ofOutcome json (.after (Dataset.ofName name) fun d =>
            .after (compile d pattern p s.engine.limits) (next d)) := by
  cases pattern with
  | count =>
    refine ⟨UInt64, fun n => .object [("total", .ofNat n.toNat)], s.engine.total,
      fun _ _ => rfl, ?_⟩
    simp only [View.executing, read, Engine.count_eq]
  | _ => exact ⟨_, .array, fun _ => .callRows s.engine.storage, fun _ _ => rfl, rfl⟩

theorem calls_read (h : s.Compiles name pattern pairs stmt) :
    (s.read (View.executing name pattern) pairs).calls = [.rows stmt] := by
  obtain ⟨p, d, hp, hd, hcompile⟩ := h
  obtain ⟨α, json, next, hcalls, hread⟩ := s.read_executing name pattern pairs
  simp only [hread, hp, hd, hcompile, Exchange.reading_ok, Outcome.after_ok,
    Exchange.calls_ofOutcome, hcalls]

theorem isRefused_read (h : ∀ stmt, ¬ s.Compiles name pattern pairs stmt) :
    (s.read (View.executing name pattern) pairs).IsRefused := by
  obtain ⟨α, json, next, -, hread⟩ := s.read_executing name pattern pairs
  rw [hread]
  refine .reading (fun _ => status_of_queryParameters) fun p hp => ?_
  refine .after (Dataset.onlyInvalid_ofName name) fun d hd => ?_
  exact .after onlyInvalid_compile fun stmt hcompile =>
    absurd ⟨p, d, hp, hd, hcompile⟩ (h stmt)

theorem read_preview (h : s.Compiles name pattern pairs stmt)
    (hfield : queryField pairs = .ok field) {patternName : String}
    (hpattern : ReadPattern.ofName patternName field = .ok pattern) :
    s.read (.preview name patternName) pairs = .ofResponse (.ok stmt.json) := by
  obtain ⟨p, d, hp, hd, hcompile⟩ := h
  simp only [read, hp, hd, hfield, hpattern, Exchange.reading_ok, Outcome.after_ok,
    Engine.preview, hcompile]
  rfl

theorem isRefused_preview (hfield : queryField pairs = .ok field) {patternName : String}
    (h : ∀ pattern stmt, ReadPattern.ofName patternName field = .ok pattern →
      ¬ s.Compiles name pattern pairs stmt) :
    (s.read (.preview name patternName) pairs).IsRefused := by
  refine .reading (fun _ => status_of_queryParameters) fun p hp => ?_
  simp only [hfield, Exchange.reading_ok]
  refine .after (Dataset.onlyInvalid_ofName name) fun d hd => ?_
  refine .after (ReadPattern.onlyInvalid_ofName patternName field) fun pattern hpattern => ?_
  exact .ofResult onlyInvalid_compile fun stmt hcompile =>
    h pattern stmt hpattern ⟨p, d, hp, hd, hcompile⟩

theorem shows_read {patternName : String} (hpairs : queryParameters pairs' = queryParameters pairs)
    (hfield : queryField pairs' = .ok field)
    (hpattern : ReadPattern.ofName patternName field = .ok pattern) :
    Shows (s.read (.preview name patternName) pairs')
      (s.read (View.executing name pattern) pairs) := by
  by_cases hcompiles : ∃ stmt, s.Compiles name pattern pairs stmt
  · obtain ⟨stmt, hread⟩ := hcompiles
    have hcalls := calls_read hread
    have hpreview : s.Compiles name pattern pairs' stmt := by rwa [Compiles, hpairs]
    rw [read_preview hpreview hfield hpattern]
    refine ⟨⟨nofun, fun hrefused => ?_⟩, fun _ => ⟨stmt, hcalls, rfl⟩⟩
    cases hcalls.symm.trans hrefused.2
  · refine .ofRefused (isRefused_preview hfield fun pattern' stmt hpattern' h => ?_)
      (isRefused_read (not_exists.mp hcompiles))
    obtain rfl := Except.ok.inj (hpattern.symm.trans hpattern')
    rw [Compiles, hpairs] at h
    exact hcompiles ⟨stmt, h⟩

theorem trim_eq_of_compiles (h : s.Compiles name pattern pairs stmt) {text : String}
    (hfield : pattern.field? = some text) : Text.trim text = text := by
  obtain ⟨p, d, -, -, hcompile⟩ := h
  exact ReadPattern.trim_eq_of_offers
    (Dataset.exists_shape.mp (exists_compile.mp ⟨stmt, hcompile⟩).2.2) hfield

section Handle

variable {dataset query : String} {r : Request} (hkey : s.apiKey = none)
  (hslash : '/' ∉ dataset.toList)
include hkey hslash

theorem handle_executing (hlist : pattern = .list → Route.isReserved dataset = false)
    (hfield : ∀ f, pattern.field? = some f → f ≠ "") (h : r.Reads dataset pattern query) :
    s.handle r = (decodeSegment? dataset).elim (.ofResponse (.ofRejection .undecodablePath))
      fun name => s.read (View.executing name pattern) (Form.decode query) := by
  obtain ⟨hmethod, ⟨written, hwritten, hpath⟩, rfl⟩ := h
  exact handle_decoded hkey hmethod (Request.route_executing hpath hwritten hslash hlist hfield)
    (View.decode?_executing hwritten)

theorem handle_previewing (hquery : ∀ pair ∈ Form.decode query, pair.1 ≠ "field")
    (h : r.Previews dataset pattern query) :
    ∃ pairs field, queryParameters pairs = queryParameters (Form.decode query) ∧
      queryField pairs = .ok field ∧ (∀ f, pattern.field? = some f → field = some f) ∧
      s.handle r = (decodeSegment? dataset).elim (.ofResponse (.ofRejection .undecodablePath))
        fun name => s.read (.preview name pattern.name) pairs := by
  have hhandle := handle_decoded hkey h.method (Request.route_preview h.path hslash)
    (View.decode?_preview dataset pattern)
  obtain ⟨field, hfield, hinserts⟩ | ⟨hfield, hsame⟩ := h.query
  · obtain ⟨before, after, hdecode, hdecode'⟩ := Form.decode_inserts hinserts
    rw [hdecode] at hquery ⊢
    rw [hdecode'] at hhandle
    exact ⟨_, some field, queryParameters_insert, queryField_insert hquery,
      fun f hf => congrArg some (hfield f hf), hhandle⟩
  · rw [hsame] at hhandle
    refine ⟨_, none, rfl, queryField_none hquery, fun f hf => ?_, hhandle⟩
    cases hfield.symm.trans hf

section Padding

variable {preview read : Request} (hquery : ∀ pair ∈ Form.decode query, pair.1 ≠ "field")

include hquery in
theorem shows_trimmed (hlist : pattern = .list → Route.isReserved dataset = false)
    (hblank : ∀ f, pattern.field? = some f → Text.isBlankText f = false)
    (hpreview : preview.Previews dataset pattern query)
    (hread : read.Reads dataset pattern.trimmed query) :
    Shows (s.handle preview) (s.handle read) := by
  obtain ⟨pairs, field, hpairs, hfield, hwritten, hhandle⟩ :=
    handle_previewing hkey hslash hquery hpreview
  have htrimmedList : pattern.trimmed = .list → Route.isReserved dataset = false := by
    intro h
    cases pattern <;> first | exact hlist rfl | cases h
  have htrimmedField : ∀ f, pattern.trimmed.field? = some f → f ≠ "" := by
    intro f hf
    rw [ReadPattern.field?_trimmed, Option.map_eq_some_iff] at hf
    obtain ⟨f, hf, rfl⟩ := hf
    rw [ne_eq, Text.trim_eq_empty_iff, hblank f hf]
    exact Bool.false_ne_true
  rw [hhandle, handle_executing hkey hslash htrimmedList htrimmedField hread]
  cases decodeSegment? dataset with
  | none => exact .ofRefused isRefused_undecodable isRefused_undecodable
  | some name =>
    exact shows_read hpairs hfield
      (ReadPattern.ofName_trimmed fun f hf => ⟨hwritten f hf, hblank f hf⟩)

theorem handle_padded {text : String} (hpattern : pattern.field? = some text)
    (hne : text ≠ "") (hpadded : Text.trim text ≠ text) (hread : read.Reads dataset pattern query) :
    (s.handle read).IsRefused := by
  have hlist : pattern = .list → Route.isReserved dataset = false := by
    rintro rfl
    cases hpattern
  have hfield : ∀ f, pattern.field? = some f → f ≠ "" := by
    intro f hf
    cases hpattern.symm.trans hf
    exact hne
  rw [handle_executing hkey hslash hlist hfield hread]
  cases decodeSegment? dataset with
  | none => exact isRefused_undecodable
  | some name => exact isRefused_read fun stmt h => hpadded (trim_eq_of_compiles h hpattern)

include hquery in
theorem handle_blank {text : String} (hpattern : pattern.field? = some text)
    (hblank : Text.isBlankText text = true) (hpreview : preview.Previews dataset pattern query) :
    (s.handle preview).IsRefused := by
  obtain ⟨pairs, field, -, hfield, hwritten, hhandle⟩ :=
    handle_previewing hkey hslash hquery hpreview
  rw [hhandle]
  cases decodeSegment? dataset with
  | none => exact isRefused_undecodable
  | some name =>
    refine isRefused_preview hfield fun pattern' stmt hpattern' => ?_
    rw [hwritten text hpattern] at hpattern'
    exact absurd hpattern' (ReadPattern.ofName_blank hpattern hblank pattern')

end Padding

end Handle

theorem calls_of_invalid {r : Request} (hstorage : s.engine.storage.FailsAtStore)
    (hstatus : (s.handle r).response.status = 400) : (s.handle r).calls = [] := by
  cases hroute : Route.ofSegments? r.segments with
  | none => simp [handle, hroute, Exchange.ofResponse]
  | some route =>
    have horderly := orderly_matched hstorage hroute
    generalize s.handle r = e at horderly hstatus
    cases horderly with
    | refused => rfl
    | answered calls r hcalls h => cases h.symm.trans hstatus
    | failed call r h => cases h.symm.trans hstatus

/-- A preview is refused with the read of its pattern, before any call, or it shows the statement
that the read calls.  A field with blanks around it makes a difference: in a path it names nothing,
and the preview is that of the field without them. -/
theorem handle_preview {dataset query : String} {preview read : Request} (hkey : s.apiKey = none)
    (hslash : '/' ∉ dataset.toList)
    (hlist : pattern = .list → Route.isReserved dataset = false)
    (hfield : ∀ f, pattern.field? = some f → f ≠ "")
    (hquery : ∀ pair ∈ Form.decode query, pair.1 ≠ "field")
    (hpreview : preview.Previews dataset pattern query)
    (hread : read.Reads dataset pattern query) :
    ((∀ f, pattern.field? = some f → Text.trim f = f ∨ Text.isBlankText f = true) →
      Shows (s.handle preview) (s.handle read)) ∧
    (∀ f, pattern.field? = some f → Text.trim f ≠ f → (s.handle read).IsRefused) ∧
    (∀ trimmed : Request, (∀ f, pattern.field? = some f → Text.isBlankText f = false) →
      trimmed.Reads dataset pattern.trimmed query → Shows (s.handle preview) (s.handle trimmed)) ∧
    (s.engine.storage.FailsAtStore → (s.handle read).response.status = 400 →
      (s.handle read).IsRefused) := by
  have hpadded (f : String) (hf : pattern.field? = some f) (hne : Text.trim f ≠ f) :=
    handle_padded hkey hslash hf (hfield f hf) hne hread
  refine ⟨fun hplain => ?_, hpadded, fun trimmed hblank htrimmed =>
    shows_trimmed hkey hslash hquery hlist hblank hpreview htrimmed, fun hstorage hstatus => ?_⟩
  · by_cases hpad : ∃ f, pattern.field? = some f ∧ Text.trim f ≠ f
    · obtain ⟨f, hf, hne⟩ := hpad
      have hblank := (hplain f hf).resolve_left hne
      exact .ofRefused (handle_blank hkey hslash hquery hf hblank hpreview) (hpadded f hf hne)
    · have htrim (f : String) (hf : pattern.field? = some f) : Text.trim f = f :=
        by_contra fun hne => hpad ⟨f, hf, hne⟩
      have hblank (f : String) (hf : pattern.field? = some f) : Text.isBlankText f = false := by
        rw [← Bool.not_eq_true, ← Text.trim_eq_empty_iff, htrim f hf]
        exact hfield f hf
      rw [← ReadPattern.trimmed_eq_self htrim] at hread
      exact shows_trimmed hkey hslash hquery hlist hblank hpreview hread
  · exact ⟨hstatus, calls_of_invalid hstorage hstatus⟩

end Server

def usersRead : Request := ⟨"GET", "/api/query_log/histogram/%75%73%65%72?limit=5", [], []⟩

def spacedRead : Request := ⟨"GET", "/api/query_log/histogram/%20%75%73%65%72?limit=5", [], []⟩

def usersPreview (field : String) : Request :=
  ⟨"GET", "/api/query_log/translate/histogram?limit=5&" ++ Form.encodePair ("field", field), [], []⟩

theorem reads_usersRead : usersRead.Reads "query_log" (.histogram "user") "limit=5" where
  method := rfl
  path := ⟨_, .histogram (isSegment_percentByte "user"), by decide +kernel⟩
  query := by decide +kernel

theorem reads_spacedRead : spacedRead.Reads "query_log" (.histogram " user") "limit=5" where
  method := rfl
  path := ⟨_, .histogram (isSegment_percentByte " user"), by decide +kernel⟩
  query := by decide +kernel

theorem previews_usersPreview {field : String} (hfield : field ∈ ["user", " user"]) :
    (usersPreview field).Previews "query_log" (.histogram field) "limit=5" := by
  have hpath : ∀ f ∈ ["user", " user"], (usersPreview f).path =
      "/".intercalate (View.previewSegments "query_log" "histogram") ∧
        (usersPreview f).query = "limit=5" ++ "&" ++ Form.encodePair ("field", f) := by
    decide +kernel
  refine ⟨rfl, (hpath field hfield).1, .inl ⟨field, fun f hf => Option.some.inj hf, ?_⟩⟩
  rw [(hpath field hfield).2]
  exact .last (Form.isPair_encodePair _)

def reservedRead : Request := ⟨"GET", "/api/adhoc", [], []⟩

def reservedPreview : Request := ⟨"GET", "/api/adhoc/translate/list", [], []⟩

def invalidServer : Server where
  engine := ⟨⟨fun _ => .error (.invalid .emptyQuery), fun _ => .error (.invalid .emptyQuery)⟩, {}⟩
  apiKey := none

/-- Reads and previews part over a field with a space before it, over a name that means no dataset
where one is listed, and where the storage itself finds a statement invalid. -/
theorem previews_differ :
    (spacedRead.Reads "query_log" (.histogram " user") "limit=5" ∧
      (usersPreview " user").Previews "query_log" (.histogram " user") "limit=5" ∧
      (refusedServer.handle spacedRead).response.status = 400 ∧
      (refusedServer.handle (usersPreview " user")).response.status = 200) ∧
    (reservedRead.Reads "adhoc" .list "" ∧ reservedPreview.Previews "adhoc" .list "" ∧
      (refusedServer.handle reservedRead).response.status = 405 ∧
      (refusedServer.handle reservedPreview).response.status = 400) ∧
    (usersRead.Reads "query_log" (.histogram "user") "limit=5" ∧
      (usersPreview "user").Previews "query_log" (.histogram "user") "limit=5" ∧
      (invalidServer.handle usersRead).response.status = 400 ∧
      (invalidServer.handle (usersPreview "user")).response.status = 200) := by
  have hreserved : reservedRead.Reads "adhoc" .list "" :=
    ⟨rfl, ⟨.list, .plain rfl, by decide +kernel⟩, by decide +kernel⟩
  have hreservedPreview : reservedPreview.Previews "adhoc" .list "" :=
    ⟨rfl, by decide +kernel, .inr ⟨rfl, by decide +kernel⟩⟩
  refine ⟨⟨reads_spacedRead, previews_usersPreview (by decide), ?_, ?_⟩,
    ⟨hreserved, hreservedPreview, ?_, ?_⟩,
    ⟨reads_usersRead, previews_usersPreview (by decide), ?_, ?_⟩⟩
  all_goals decide +kernel

theorem handle_preview_usersRead :
    Shows (refusedServer.handle (usersPreview "user")) (refusedServer.handle usersRead) ∧
      (refusedServer.handle spacedRead).calls = [] ∧
      ∃ stmt, (refusedServer.handle usersRead).calls = [.rows stmt] ∧
        (refusedServer.handle (usersPreview " user")).response = .ok stmt.json := by
  have hslash : '/' ∉ "query_log".toList := by decide
  have hquery : ∀ pair ∈ Form.decode "limit=5", pair.1 ≠ "field" := by decide +kernel
  have hfield (field : String) (h : field ≠ "") :
      ∀ f, (ReadPattern.histogram field).field? = some f → f ≠ "" := by
    rintro f ⟨⟩
    exact h
  have hlist (field : String) : ReadPattern.histogram field = .list →
      Route.isReserved "query_log" = false := nofun
  have hplain := Server.handle_preview (s := refusedServer) rfl hslash (hlist "user")
    (hfield "user" (by decide)) hquery (previews_usersPreview (by decide)) reads_usersRead
  have hspaced := Server.handle_preview (s := refusedServer) rfl hslash (hlist " user")
    (hfield " user" (by decide)) hquery (previews_usersPreview (by decide)) reads_spacedRead
  have hanswered : (refusedServer.handle (usersPreview " user")).response.status = 200 := by
    decide +kernel
  refine ⟨hplain.1 ?_, (hspaced.2.1 _ rfl (by decide)).2, ?_⟩
  · rintro f ⟨⟩
    decide
  · refine (hspaced.2.2.1 usersRead ?_ reads_usersRead).shown ?_
    · rintro f ⟨⟩
      decide
    · rw [hanswered]
      decide

end Http

end QueryConsole
