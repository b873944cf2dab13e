import QueryConsole.Config.Environment
import QueryConsole.Proofs.Adhoc.Screening
import QueryConsole.Proofs.Request.Selection
import QueryConsole.Proofs.Statement.Demands

namespace QueryConsole

variable {l : Limits} {m n : UInt64} {requested : Option UInt64}

/-- There is a page size between one and the greatest, and the defaults are such sizes. -/
structure Limits.Sound (l : Limits) : Prop where
  one_le_default : 1 ≤ l.default
  default_le_most : l.default ≤ l.most
  one_le_adhoc : 1 ≤ l.adhoc

def clampTo? (least most n : UInt64) : Option UInt64 :=
  if least ≤ most then some (if n < least then least else if most < n then most else n) else none

theorem le_max_of_uint64 (m n : UInt64) : m ≤ max m n ∧ n ≤ max m n := by
  have hmax : max m n = if m ≤ n then n else m := rfl
  rw [hmax]
  grind

namespace Limits.Sound

theorem one_le_most (h : l.Sound) : 1 ≤ l.most :=
  UInt64.le_trans h.one_le_default h.default_le_most

theorem clampTo?_eq (h : l.Sound) :
    clampTo? 1 l.most (requested.getD l.default) = some (l.clamp requested) :=
  if_pos h.one_le_most

theorem clamp_bounds (h : l.Sound) : 1 ≤ l.clamp requested ∧ l.clamp requested ≤ l.most := by
  have hmost := h.one_le_most
  simp only [Limits.clamp]
  grind

theorem clamp_mono (h : l.Sound) (hle : m ≤ n) : l.clamp (some m) ≤ l.clamp (some n) := by
  have hmost := h.one_le_most
  simp only [Limits.clamp, Option.getD_some]
  grind

end Limits.Sound

theorem Limits.clamp_of_mem (hleast : 1 ≤ n) (hmost : n ≤ l.most) : l.clamp (some n) = n := by
  simp only [Limits.clamp, Option.getD_some]
  grind

theorem Limits.Sound.clamp_none (h : l.Sound) : l.clamp none = l.default :=
  Limits.clamp_of_mem h.one_le_default h.default_le_most

theorem Config.sound_limitsOf (default most adhoc : UInt64) :
    (limitsOf default most adhoc).Sound :=
  ⟨(le_max_of_uint64 _ _).2, (le_max_of_uint64 _ _).2, (le_max_of_uint64 _ _).2⟩

section Environment

variable {lookup : Config.HostLookup} {env : Config.Environment} {c : Config}

theorem Config.exists_of_ofEnvironment (h : ofEnvironment lookup env = .ok c) :
    ∃ (default most adhoc timeout : UInt64) (apiKey : Option String),
      c.limits = limitsOf default most adhoc ∧ c.timeout = max timeout 1 ∧
        c.apiKey = apiKey.filter fun s => !Text.isBlankText s := by
  rw [ofEnvironment] at h
  iterate 8 obtain ⟨_, -, h⟩ := bind_eq_ok.mp h
  obtain ⟨apiKey, -, h⟩ := bind_eq_ok.mp h
  obtain ⟨default, -, h⟩ := bind_eq_ok.mp h
  obtain ⟨most, -, h⟩ := bind_eq_ok.mp h
  obtain ⟨adhoc, -, h⟩ := bind_eq_ok.mp h
  obtain ⟨timeout, -, h⟩ := bind_eq_ok.mp h
  obtain ⟨_, -, h⟩ := bind_eq_ok.mp h
  split at h
  · cases h
  · cases h
    exact ⟨default, most, adhoc, timeout, apiKey, rfl, rfl, rfl⟩

end Environment

section Page

variable {d : Dataset} {pattern : ReadPattern} {p : Parameters} {s : Statement}

/-- The page of a statement: its size is the requested one, brought into range, and its offset the
requested one as it is. -/
structure Statement.HasPage (s : Statement) (p : Parameters) (l : Limits) : Prop where
  limit : ∃ requested, IsCount p.limit requested ∧
    s.bindings.get? "limit" = some (.uint64 (l.clamp requested))
  offset : ∃ requested, IsCount p.offset requested ∧
    s.bindings.get? "offset" = some (.uint64 (requested.getD 0))

theorem hasPage_of_compile (hpaged : pattern.isPaged = true)
    (h : compile d pattern p l = .ok s) : s.HasPage p l := by
  obtain ⟨rows, page, shape, -, hpage, -, rfl⟩ := compile_eq_ok h
  rw [ReadPattern.page, if_pos hpaged] at hpage
  cases hpaging : p.page l with
  | error f =>
    rw [hpaging] at hpage
    cases hpage
  | ok page =>
    rw [hpaging] at hpage
    cases hpage
    obtain ⟨limit, offset, hlimit, hoffset, rfl⟩ := Parameters.page_eq_ok.mp hpaging
    constructor
    · refine ⟨limit, hlimit, get?_named ?_⟩
      exact List.mem_append_right _ (by simp [Page.steps])
    · refine ⟨offset, hoffset, get?_named ?_⟩
      exact List.mem_append_right _ (by simp [Page.steps])

end Page

section Adhoc

variable {query : String} {e : Engine} {r : AdhocRequest} {fault : Fault}

theorem Engine.adhoc_refused_iff : e.adhoc r = ⟨[], .error (.invalid fault)⟩ ↔
    Adhoc.compile r.query (r.limit.getD e.limits.adhoc) = .error (.invalid fault) := by
  rw [Engine.adhoc]
  cases Adhoc.compile r.query (r.limit.getD e.limits.adhoc) with
  | error f => simp [Outcome.ofResult]
  | ok s => simp [Outcome.andThen, Outcome.callRows]

theorem Adhoc.compile_error_congr (hm : m ≠ 0) (hn : n ≠ 0)
    (h : compile query m = .error (.invalid fault)) :
    fault ≠ .zeroLimit ∧ compile query n = .error (.invalid fault) := by
  simp only [compile, if_neg hm] at h
  simp only [compile, if_neg hn]
  split at h
  · next hempty =>
    cases h
    exact ⟨by decide, if_pos hempty⟩
  · next hempty =>
    rw [if_neg hempty]
    split at h
    · next keyword hkeyword =>
      cases h
      exact ⟨by simp, rfl⟩
    · split at h <;> cases h

end Adhoc

/-- Whatever the settings are, a page has at least one row and at most the greatest number, the
default size is taken as it is and any other is brought into range, in order; a statement that has
pages binds such a size and the offset asked for; and an operator's statement without a limit is
refused for what would refuse it under any limit but zero. -/
theorem ofEnvironment_limits {lookup : Config.HostLookup} {env : Config.Environment} {c : Config}
    (h : Config.ofEnvironment lookup env = .ok c) :
    (1 ≤ c.limits.default ∧ c.limits.default ≤ c.limits.most ∧ 1 ≤ c.limits.adhoc ∧
      1 ≤ c.timeout) ∧
    (∀ requested, clampTo? 1 c.limits.most (requested.getD c.limits.default) =
      some (c.limits.clamp requested)) ∧
    c.limits.clamp none = c.limits.default ∧
    (∀ n, 1 ≤ c.limits.clamp (some n) ∧ c.limits.clamp (some n) ≤ c.limits.most) ∧
    (∀ n, 1 ≤ n → n ≤ c.limits.most → c.limits.clamp (some n) = n) ∧
    (∀ m n, m ≤ n → c.limits.clamp (some m) ≤ c.limits.clamp (some n)) ∧
    (∀ d pattern p s, pattern.isPaged = true → compile d pattern p c.limits = .ok s →
      (∃ requested, IsCount p.limit requested ∧
        s.bindings.get? "limit" = some (.uint64 (c.limits.clamp requested)) ∧
        1 ≤ c.limits.clamp requested ∧ c.limits.clamp requested ≤ c.limits.most) ∧
      ∃ requested, IsCount p.offset requested ∧
        s.bindings.get? "offset" = some (.uint64 (requested.getD 0))) ∧
    ∀ storage query fault,
      Engine.adhoc ⟨storage, c.limits⟩ ⟨query, none⟩ = ⟨[], .error (.invalid fault)⟩ →
        fault ≠ .zeroLimit ∧ ∀ n, n ≠ 0 →
          Engine.adhoc ⟨storage, c.limits⟩ ⟨query, some n⟩ = ⟨[], .error (.invalid fault)⟩ := by
  obtain ⟨default, most, adhoc, timeout, -, hlimits, htimeout, -⟩ :=
    Config.exists_of_ofEnvironment h
  have hsound : c.limits.Sound := hlimits ▸ Config.sound_limitsOf default most adhoc
  have hpositive : 1 ≤ c.timeout := htimeout ▸ (le_max_of_uint64 timeout 1).2
  refine ⟨⟨hsound.one_le_default, hsound.default_le_most, hsound.one_le_adhoc, hpositive⟩,
    fun _ => hsound.clampTo?_eq, hsound.clamp_none, fun _ => hsound.clamp_bounds,
    fun _ => Limits.clamp_of_mem, fun _ _ => hsound.clamp_mono, ?_, ?_⟩
  · intro d pattern p s hpaged hcompile
    have hpage := hasPage_of_compile hpaged hcompile
    obtain ⟨requested, hrequested, hlimit⟩ := hpage.limit
    exact ⟨⟨requested, hrequested, hlimit, hsound.clamp_bounds⟩, hpage.offset⟩
  · intro storage query fault hrefused
    have hadhoc : c.limits.adhoc ≠ 0 := by
      have := hsound.one_le_adhoc
      grind
    rw [Engine.adhoc_refused_iff] at hrefused
    constructor
    · exact (Adhoc.compile_error_congr hadhoc hadhoc hrefused).1
    · intro n hn
      exact Engine.adhoc_refused_iff.mpr (Adhoc.compile_error_congr hadhoc hn hrefused).2

def consoleHost : Config.HostLookup
  | "console.lan" => some [.v4 0xC0A80005, .v4 0xC0A80105]
  | _ => none

def zeroSettings : Config.Environment :=
  [("CHMON_CLICKHOUSE_URL", "http://store:8123"), ("CHMON_DEFAULT_LIMIT", "0"),
   ("CHMON_MAX_LIMIT", "0"), ("CHMON_ADHOC_DEFAULT_LIMIT", "0"),
   ("CHMON_REQUEST_TIMEOUT_SECS", "0")]

def crossedSettings : Config.Environment :=
  [("CLICKHOUSE_URL", "http://store:8123"), ("CHMON_LISTEN_HOST", "console.lan"),
   ("CHMON_DEFAULT_LIMIT", "250"), ("chmon_max_limit", "200"), ("CHMON_ADHOC_DEFAULT_LIMIT", "7")]

def wideListing : Parameters where
  limit := some " +300 "
  offset := some "40"

theorem ofEnvironment_limits_crossedSettings :
    (∃ c, Config.ofEnvironment consoleHost zeroSettings = .ok c ∧ c.limits = ⟨1, 1, 1⟩ ∧
      1 ≤ c.timeout ∧
      (∀ requested, clampTo? 1 1 (requested.getD 1) = some (c.limits.clamp requested)) ∧
      ∀ storage query, Engine.adhoc ⟨storage, c.limits⟩ ⟨query, none⟩ ≠
        ⟨[], .error (.invalid .zeroLimit)⟩) ∧
    ∃ c s, Config.ofEnvironment consoleHost crossedSettings = .ok c ∧
      c.listen = ⟨.v4 0xC0A80005, 8490⟩ ∧ c.limits = ⟨250, 250, 7⟩ ∧
      compile .parts .list wideListing c.limits = .ok s ∧
      s.bindings.get? "limit" = some (.uint64 250) ∧ s.bindings.get? "offset" = some (.uint64 40) ∧
      (∃ requested, IsCount wideListing.limit requested ∧
        s.bindings.get? "limit" = some (.uint64 (c.limits.clamp requested)) ∧
        1 ≤ c.limits.clamp requested ∧ c.limits.clamp requested ≤ 250) ∧
      ∃ requested, IsCount wideListing.offset requested ∧
        s.bindings.get? "offset" = some (.uint64 (requested.getD 0)) := by
  constructor
  · have h : Config.ofEnvironment consoleHost zeroSettings = .ok
        { listen := ⟨.v4 0, 8490⟩
          store := { url := "http://store:8123" }
          apiKey := none
          limits := ⟨1, 1, 1⟩
          timeout := 1 } := by
      decide +kernel
    obtain ⟨⟨-, -, -, htimeout⟩, hclamp, -, -, -, -, -, hadhoc⟩ := ofEnvironment_limits h
    refine ⟨_, h, rfl, htimeout, hclamp, ?_⟩
    intro storage query hrefused
    exact (hadhoc storage query _ hrefused).1 rfl
  · have h : Config.ofEnvironment consoleHost crossedSettings = .ok
        { listen := ⟨.v4 0xC0A80005, 8490⟩
          store := { url := "http://store:8123" }
          apiKey := none
          limits := ⟨250, 250, 7⟩
          timeout := 30 } := by
      decide +kernel
    have hcompile : compile .parts .list wideListing ⟨250, 250, 7⟩ = .ok
        ⟨"SELECT *\nFROM system.parts\nORDER BY modification_time DESC\n" ++
            "LIMIT \x7blimit:UInt64\x7d OFFSET \x7boffset:UInt64\x7d",
          ⟨[⟨"limit", .uint64 250⟩, ⟨"offset", .uint64 40⟩]⟩⟩ := by
      decide +kernel
    obtain ⟨-, -, -, -, -, -, hpaged, -⟩ := ofEnvironment_limits h
    obtain ⟨hlimit, hoffset⟩ := hpaged _ _ _ _ rfl hcompile
    exact ⟨_, _, h, rfl, rfl, hcompile, rfl, rfl, hlimit, hoffset⟩

end QueryConsole
