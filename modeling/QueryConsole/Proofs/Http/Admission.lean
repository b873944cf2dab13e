import QueryConsole.Proofs.Config.Limits
import QueryConsole.Proofs.Http.Key

namespace QueryConsole

namespace Config

variable {lookup : HostLookup} {env : Environment} {c : Config} {key name : String}

theorem isBlankText_of_apiKey (h : ofEnvironment lookup env = .ok c) (hkey : c.apiKey = some key) :
    Text.isBlankText key = false := by
  obtain ⟨-, -, -, -, apiKey, -, -, hfilter⟩ := exists_of_ofEnvironment h
  rw [hkey] at hfilter
  simpa using (Option.filter_eq_some_iff.mp hfilter.symm).2

def keyedSettings (key : String) : Environment :=
  [("CLICKHOUSE_URL", "http://localhost:8123"), ("CHMON_API_KEY", key)]

theorem foldName_keyedSettings :
    foldName "CLICKHOUSE_URL" = "clickhouse_url" ∧
      foldName "CHMON_API_KEY" = "chmon_api_key" := by
  decide +kernel

theorem get_keyedSettings_url :
    (keyedSettings key).get "CLICKHOUSE_URL" = .ok (some "http://localhost:8123") := by
  simp [Environment.get, keyedSettings, foldName_keyedSettings]

theorem get_keyedSettings_key :
    (keyedSettings key).get "CHMON_API_KEY" = .ok (some key) := by
  simp [Environment.get, keyedSettings, foldName_keyedSettings]

theorem get_keyedSettings_of_ne
    (h : foldName name ≠ "clickhouse_url" ∧ foldName name ≠ "chmon_api_key") :
    (keyedSettings key).get name = .ok none := by
  simp [Environment.get, keyedSettings, foldName_keyedSettings, h.1.symm, h.2.symm]

theorem exists_apiKey (h : Text.isBlankText key = false) :
    ∃ c, ofEnvironment lookup (keyedSettings key) = .ok c ∧ c.apiKey = some key := by
  have hlisten : ∃ a, listenAddress lookup none none none = .ok a := ⟨_, rfl⟩
  obtain ⟨listen, hlisten⟩ := hlisten
  simp (disch := decide +kernel) only [ofEnvironment, Environment.getUInt64,
    Environment.getNumber, get_keyedSettings_url, get_keyedSettings_key, get_keyedSettings_of_ne,
    hlisten, bind, Except.bind, pure, Except.pure]
  refine ⟨_, rfl, ?_⟩
  simp [h]

theorem exists_apiKey_iff (lookup : HostLookup) :
    (∃ env c, ofEnvironment lookup env = .ok c ∧ c.apiKey = some key) ↔
      Text.isBlankText key = false := by
  constructor
  · rintro ⟨env, c, h, hkey⟩
    exact isBlankText_of_apiKey h hkey
  · intro h
    exact ⟨keyedSettings key, exists_apiKey h⟩

end Config

namespace Http

theorem Request.isPrintable_singleton {n : Nat} (h : n < 0x100) :
    isPrintable [Text.Utf8.byte n] = true ↔ n = 9 ∨ 32 ≤ n ∧ n < 127 := by
  have hbyte := Text.Utf8.toNat_byte h
  simp only [isPrintable, List.all_cons, List.all_nil, Bool.and_true, Bool.or_eq_true, beq_iff_eq,
    Bool.and_eq_true, decide_eq_true_eq, ← UInt8.toNat_inj, UInt8.le_iff_toNat_le,
    UInt8.lt_iff_toNat_lt, hbyte]
  rfl

theorem Request.isPrintable_encodeChar {c : Char} (h : 0x80 ≤ c.toNat) :
    isPrintable (Text.Utf8.encodeChar c) = false := by
  have hfirst {n : Nat} {bytes : List UInt8} (hlow : 0x80 ≤ n) (hhigh : n < 0x100) :
      isPrintable (Text.Utf8.byte n :: bytes) = false := by
    have hnot : ¬isPrintable [Text.Utf8.byte n] = true := by
      rw [isPrintable_singleton hhigh]
      omega
    rw [Bool.eq_false_iff]
    intro hall
    rw [isPrintable, List.all_cons, Bool.and_eq_true] at hall
    exact hnot (by simpa [isPrintable] using hall.1)
  have hvalid := Text.Utf8.toNat_valid c
  rw [Text.Utf8.encodeChar, if_neg (by omega)]
  split
  · exact hfirst (by omega) (by omega)
  · split
    · exact hfirst (by omega) (by omega)
    · exact hfirst (by omega) (by omega)

theorem Request.isPrintable_iff {value : String} (h : Store.Endpoint.isSendable value = true) :
    isPrintable (Text.Utf8.encode value.toList) = true ↔ ∀ c ∈ value.toList, c.toNat < 128 := by
  have hchar : ∀ c ∈ value.toList,
      isPrintable (Text.Utf8.encodeChar c) = true ↔ c.toNat < 128 := by
    intro c hc
    have hsendable := List.all_eq_true.mp h c hc
    simp only [Bool.or_eq_true, beq_iff_eq, Bool.and_eq_true, decide_eq_true_eq,
      bne_iff_ne] at hsendable
    by_cases hascii : c.toNat < 0x80
    · rw [Text.Utf8.encodeChar_of_ascii hascii, isPrintable_singleton (by omega)]
      obtain rfl | ⟨hle, hne⟩ := hsendable
      · decide
      · omega
    · rw [isPrintable_encodeChar (Nat.not_lt.mp hascii)]
      simpa using hascii
  rw [isPrintable, Text.Utf8.encode, List.all_flatMap, List.all_eq_true]
  exact forall₂_congr hchar

namespace Server

variable {s : Server} {key : String} {r : Request}

def unlocked (s : Server) : Server := { s with apiKey := none }

theorem handle_unlocked (h : s.admits r = true) : s.handle r = s.unlocked.handle r := by
  have hexchange (route : Route) : s.exchange route r = s.unlocked.exchange route r := by
    rw [exchange, exchange, h]
    rfl
  simp only [handle, hexchange]

theorem lacksKey_of_not_isPrintable
    (h : Request.isPrintable (Text.Utf8.encode key.toList) = false) : r.LacksKey key := by
  cases hheader : r.header? keyHeader with
  | none => exact .missing hheader
  | some value =>
    cases hvalue : Request.isPrintable value with
    | false => exact .unreadable value hheader hvalue
    | true =>
      refine .different value hheader ?_
      rintro rfl
      rw [h] at hvalue
      cases hvalue

def probe (key : String) : Request :=
  ⟨"PATCH", "/api/parts", [(keyHeader, Text.Utf8.encode key.toList)], []⟩

theorem header?_probe :
    (probe key).header? keyHeader = some (Text.Utf8.encode key.toList) := by
  have hname : Request.sameName keyHeader keyHeader = true := by decide
  simp [probe, Request.header?, hname]

theorem handle_probe_ne (hkey : s.apiKey = some key)
    (h : Request.isPrintable (Text.Utf8.encode key.toList) = false) :
    s.handle (probe key) ≠ s.unlocked.handle (probe key) := by
  have hroute : Route.ofSegments? (probe key).segments = some (.view (.rows "parts" .list)) := by
    have hsegments : (probe key).segments = (probe "").segments := rfl
    rw [hsegments]
    decide +kernel
  intro heq
  have hlocked : (s.handle (probe key)).response.status = 401 := by
    simp only [handle, hroute]
    rw [exchange_of_lacksKey rfl hkey (lacksKey_of_not_isPrintable h)]
    rfl
  have hopen : (s.unlocked.handle (probe key)).response.status = 405 := by
    simp only [handle, hroute]
    rfl
  rw [heq, hopen] at hlocked
  cases hlocked

/-- With the right key a request is handled as by an open server if, and only if, the key is in
ASCII.  Any other key that is set, which any key but a blank one can be, admits no one. -/
theorem handle_rightKey (hkey : s.apiKey = some key)
    (hsendable : Store.Endpoint.isSendable key = true) :
    ((∀ r : Request, r.header? keyHeader = some (Text.Utf8.encode key.toList) →
        s.handle r = s.unlocked.handle r) ↔
      ∀ c ∈ key.toList, c.toNat < 128) ∧
    (∀ c ∈ key.toList, 128 ≤ c.toNat → ∀ r : Request, r.IsGuarded →
      (s.handle r).calls = [] ∧
        ((s.handle r).response.answer = .unauthenticated ∨
          r.method = "HEAD" ∧
            (s.handle r).response.answer = Answer.unauthenticated.withoutBody)) ∧
    ∀ lookup, (∃ env c, Config.ofEnvironment lookup env = .ok c ∧ c.apiKey = some key) ↔
      Text.isBlankText key = false := by
  refine ⟨?_, ?_, Config.exists_apiKey_iff⟩
  · rw [← Request.isPrintable_iff hsendable]
    constructor
    · intro h
      cases hprintable : Request.isPrintable (Text.Utf8.encode key.toList) with
      | true => rfl
      | false => exact absurd (h _ header?_probe) (handle_probe_ne hkey hprintable)
    · intro hprintable r hheader
      exact handle_unlocked ((admits_iff hkey).mpr ⟨hheader, hprintable⟩)
  · intro c hc hlarge r hguarded
    have hprintable : Request.isPrintable (Text.Utf8.encode key.toList) = false := by
      rw [Bool.eq_false_iff, ne_eq, Request.isPrintable_iff hsendable]
      intro hascii
      exact absurd (hascii c hc) (by omega)
    have hlacks : r.LacksKey key := lacksKey_of_not_isPrintable hprintable
    exact ⟨calls_of_lacksKey hkey hlacks, answer_of_isGuarded hguarded hkey hlacks⟩

end Server

def accentedServer : Server where
  engine := ⟨⟨fun _ => .ok [], fun _ => .ok ""⟩, {}⟩
  apiKey := some "s\u00e9cret"

def accentedRead : Request :=
  ⟨"GET", "/api/parts", [("x-api-key", Text.Utf8.encode "s\u00e9cret".toList)], []⟩

theorem handle_rightKey_accentedServer :
    accentedServer.apiKey = some "s\u00e9cret" ∧
      Store.Endpoint.isSendable "s\u00e9cret" = true ∧
      accentedRead.header? Server.keyHeader = some (Text.Utf8.encode "s\u00e9cret".toList) ∧
      (accentedServer.handle accentedRead).calls = [] ∧
      (accentedServer.handle accentedRead).response.answer = .unauthenticated ∧
      (∃ env c, Config.ofEnvironment (fun _ => none) env = .ok c ∧
        c.apiKey = some "s\u00e9cret") ∧
      ∀ r : Request, r.header? Server.keyHeader = some (Text.Utf8.encode "k3y".toList) →
        lockedServer.handle r = lockedServer.unlocked.handle r := by
  have hsendable : Store.Endpoint.isSendable "s\u00e9cret" = true := by decide
  have hguarded : accentedRead.IsGuarded := ⟨by decide +kernel, by decide +kernel⟩
  obtain ⟨-, hlocked, hset⟩ := Server.handle_rightKey (s := accentedServer) rfl hsendable
  obtain ⟨hcalls, hanswer⟩ := hlocked '\u00e9' (by decide) (by decide) accentedRead hguarded
  have hplain : Store.Endpoint.isSendable "k3y" = true := by decide
  obtain ⟨hopens, -⟩ := Server.handle_rightKey (s := lockedServer) rfl hplain
  exact ⟨rfl, hsendable, rfl, hcalls, hanswer.resolve_right (by decide),
    (hset _).mpr (by decide), hopens.mpr (by simp)⟩

end Http

end QueryConsole
