import QueryConsole.Http.Server
import QueryConsole.Proofs.Http.Form

namespace QueryConsole.Http

theorem Request.segments_of_path {r : Request} {segments : List String}
    (h : r.path = "/".intercalate segments) (hne : segments ≠ [])
    (hslash : ∀ s ∈ segments, '/' ∉ s.toList) : r.segments = segments := by
  rw [Request.segments, h]
  exact Text.splitOn_intercalate hne hslash

theorem segment_name (pattern : ReadPattern) :
    pattern.name ≠ "" ∧ '/' ∉ pattern.name.toList ∧
      decodeSegment? pattern.name = some pattern.name := by
  have hnames : ∀ name ∈ ["list", "count", "timeseries", "stacked", "summary", "histogram",
      "distinct"], name ≠ "" ∧ '/' ∉ name.toList ∧ decodeSegment? name = some name := by
    decide +kernel
  apply hnames
  cases pattern <;> simp only [ReadPattern.name, List.mem_cons, true_or, or_true]

namespace View

def executing (dataset : String) : ReadPattern → View
  | .count => .total dataset
  | pattern => .rows dataset pattern

def executingSegments (dataset : String) : ReadPattern → List String
  | .list => ["", "api", dataset]
  | .count => ["", "api", dataset, "count"]
  | .timeSeries => ["", "api", dataset, "timeseries"]
  | .stacked => ["", "api", dataset, "stacked"]
  | .summary => ["", "api", dataset, "summary"]
  | .histogram field => ["", "api", dataset, "histogram", field]
  | .distinct field => ["", "api", dataset, "distinct", field]

def previewSegments (dataset pattern : String) : List String :=
  ["", "api", dataset, "translate", pattern]

inductive IsWritten : ReadPattern → ReadPattern → Prop
  | plain {pattern : ReadPattern} (h : pattern.field? = none) : IsWritten pattern pattern
  | histogram {field segment : String} (h : IsSegment field segment) :
    IsWritten (.histogram field) (.histogram segment)
  | distinct {field segment : String} (h : IsSegment field segment) :
    IsWritten (.distinct field) (.distinct segment)

variable {dataset segment : String} {pattern written : ReadPattern}

theorem IsWritten.isSegment (h : IsWritten pattern written)
    (hsegment : written.field? = some segment) :
    ∃ field, pattern.field? = some field ∧ IsSegment field segment := by
  cases h with
  | plain h => cases h.symm.trans hsegment
  | histogram h | distinct h =>
    cases hsegment
    exact ⟨_, rfl, h⟩

theorem IsWritten.eq_list (h : IsWritten pattern written) (hlist : written = .list) :
    pattern = .list := by
  cases h with
  | plain => exact hlist
  | histogram | distinct => cases hlist

theorem slash_notMem_executingSegments (h : IsWritten pattern written)
    (hdataset : '/' ∉ dataset.toList) :
    ∀ s ∈ executingSegments dataset written, '/' ∉ s.toList := by
  have hnames : ∀ s ∈ ["", "api", "count", "timeseries", "stacked", "summary", "histogram",
      "distinct"], '/' ∉ s.toList := by
    decide
  intro s hs
  have hcases : s ∈ ["", "api", "count", "timeseries", "stacked", "summary", "histogram",
      "distinct"] ∨ s = dataset ∨ written.field? = some s := by
    cases written <;> grind [executingSegments, ReadPattern.field?]
  obtain hname | rfl | hsegment := hcases
  · exact hnames s hname
  · exact hdataset
  · obtain ⟨field, -, hfield⟩ := h.isSegment hsegment
    exact slash_notMem hfield

theorem slash_notMem_previewSegments (hdataset : '/' ∉ dataset.toList) (pattern : ReadPattern) :
    ∀ s ∈ previewSegments dataset pattern.name, '/' ∉ s.toList := by
  have hnames : '/' ∉ "".toList ∧ '/' ∉ "api".toList ∧ '/' ∉ "translate".toList := by decide
  simp only [previewSegments, List.forall_mem_cons]
  exact ⟨hnames.1, hnames.2.1, hdataset, hnames.2.2, (segment_name pattern).2.1, nofun⟩

theorem decode?_executing (h : IsWritten pattern written) :
    (executing dataset written).decode? =
      (decodeSegment? dataset).map fun name => executing name pattern := by
  cases h with
  | plain h => cases pattern <;> cases h <;> rfl
  | histogram h | distinct h =>
    simp only [executing, decode?, decodeSegment?_isSegment h, Option.map_some]
    cases decodeSegment? dataset <;> rfl

theorem decode?_preview (dataset : String) (pattern : ReadPattern) :
    (View.preview dataset pattern.name).decode? =
      (decodeSegment? dataset).map fun name => .preview name pattern.name := by
  rw [decode?, (segment_name pattern).2.2]
  cases decodeSegment? dataset <;> rfl

end View

namespace Route

variable {dataset : String}

def isReserved (dataset : String) : Bool :=
  dataset == "" || dataset == "adhoc" || dataset == "explain"

theorem ofSegments?_list (h : isReserved dataset = false) :
    ofSegments? ["", "api", dataset] = some (.view (.rows dataset .list)) := by
  simp only [isReserved, Bool.or_eq_false_iff, beq_eq_false_iff_ne] at h
  simp [ofSegments?, viewOf, h]

theorem ofSegments?_executing {pattern : ReadPattern}
    (hlist : pattern = .list → isReserved dataset = false)
    (hfield : ∀ field, pattern.field? = some field → field ≠ "") :
    ofSegments? (View.executingSegments dataset pattern) =
      some (.view (View.executing dataset pattern)) := by
  cases pattern with
  | list => exact ofSegments?_list (hlist rfl)
  | count | timeSeries | stacked | summary =>
    simp only [View.executingSegments, ofSegments?, View.executing]
  | histogram field | distinct field =>
    simp only [View.executingSegments, ofSegments?, View.executing, viewOf, String.isEmpty_iff,
      hfield field rfl, if_false]

theorem ofSegments?_preview {pattern : String} (h : pattern ≠ "") :
    ofSegments? (View.previewSegments dataset pattern) =
      some (.view (.preview dataset pattern)) := by
  simp only [View.previewSegments, ofSegments?, viewOf, String.isEmpty_iff, h, if_false]

end Route

namespace Request

variable {r : Request} {dataset : String} {pattern written : ReadPattern}

theorem route_executing (h : r.path = "/".intercalate (View.executingSegments dataset written))
    (hwritten : View.IsWritten pattern written) (hdataset : '/' ∉ dataset.toList)
    (hlist : pattern = .list → Route.isReserved dataset = false)
    (hfield : ∀ field, pattern.field? = some field → field ≠ "") :
    Route.ofSegments? r.segments = some (.view (View.executing dataset written)) := by
  have hne : View.executingSegments dataset written ≠ [] := by
    cases written <;> exact List.cons_ne_nil _ _
  rw [segments_of_path h hne (View.slash_notMem_executingSegments hwritten hdataset)]
  refine Route.ofSegments?_executing (fun h => hlist (hwritten.eq_list h)) fun segment h => ?_
  obtain ⟨field, hpattern, hsegment⟩ := hwritten.isSegment h
  exact hsegment.ne_empty (hfield field hpattern)

theorem route_preview (h : r.path = "/".intercalate (View.previewSegments dataset pattern.name))
    (hdataset : '/' ∉ dataset.toList) :
    Route.ofSegments? r.segments = some (.view (.preview dataset pattern.name)) := by
  rw [segments_of_path h (List.cons_ne_nil _ _)
    (View.slash_notMem_previewSegments hdataset pattern)]
  exact Route.ofSegments?_preview (segment_name pattern).1

end Request

namespace Server

variable {s : Server} {r : Request}

theorem handle_view {view : View} (hkey : s.apiKey = none) (hmethod : r.method = "GET")
    (hroute : Route.ofSegments? r.segments = some (.view view)) :
    s.handle r = s.serve (.view view) r := by
  have hexchange : s.exchange (.view view) r = s.serve (.view view) r := by
    simp [exchange, admits, hkey, Route.serves, Route.takesBody, hmethod]
  simp [handle, hroute, hexchange, Route.omitsBody, hmethod]

theorem handle_decoded {view : View} {dataset : String} {decoded : String → View}
    (hkey : s.apiKey = none) (hmethod : r.method = "GET")
    (hroute : Route.ofSegments? r.segments = some (.view view))
    (hdecode : view.decode? = (decodeSegment? dataset).map decoded) :
    s.handle r = (decodeSegment? dataset).elim (.ofResponse (.ofRejection .undecodablePath))
      fun name => s.read (decoded name) (Form.decode r.query) := by
  rw [handle_view hkey hmethod hroute, serve, hdecode]
  cases decodeSegment? dataset <;> simp only [Option.map_none, Option.map_some, Option.elim]

end Server

end QueryConsole.Http
