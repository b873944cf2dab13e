import QueryConsole.Http.Server
import QueryConsole.Proofs.Text.Utf8

namespace QueryConsole.Http

/-- What a client sees of a response. -/
structure Answer where
  status : Nat
  contentType : Option String
  body : String
  deriving DecidableEq

def Response.answer (r : Response) : Answer := ⟨r.status, r.contentType, r.body⟩

def Answer.withoutBody (a : Answer) : Answer := { a with body := "" }

theorem Response.answer_withoutBody (r : Response) :
    r.withoutBody.answer = r.answer.withoutBody := rfl

def Answer.unauthenticated : Answer :=
  ⟨401, some "application/json", "\x7b\"error\":\"authentication failed\"\x7d"⟩

theorem Response.answer_unauthenticated :
    (Response.ofFailure .unauthenticated).answer = .unauthenticated := by
  decide +kernel

/-- The first header for the key is missing, is not printable, or holds other bytes than those of
the key. -/
inductive Request.LacksKey (r : Request) (key : String) : Prop
  | missing (h : r.header? Server.keyHeader = none) : LacksKey r key
  | unreadable (value : List UInt8) (h : r.header? Server.keyHeader = some value)
    (hvalue : Request.isPrintable value = false) : LacksKey r key
  | different (value : List UInt8) (h : r.header? Server.keyHeader = some value)
    (hvalue : value ≠ Text.Utf8.encode key.toList) : LacksKey r key

def Request.IsGuarded (r : Request) : Prop :=
  ["", "api"] <+: r.segments ∧ Route.ofSegments? r.segments ≠ none

namespace Route

variable {segments : List String} {route : Route}

theorem eq_of_viewOf {name : String} {v : View} (h : viewOf name v = some route) :
    route = .view v := by
  rw [viewOf] at h
  split at h
  · cases h
  · cases h
    rfl

theorem health_or_isGuarded (h : ofSegments? segments = some route) :
    (segments = ["", "healthz"] ∧ route = .health) ∨
      (["", "api"] <+: segments ∧ route.isGuarded = true) := by
  rw [ofSegments?.eq_def] at h
  split at h
  case h_1 =>
    cases h
    exact .inl ⟨rfl, rfl⟩
  case h_2 | h_3 | h_5 | h_6 | h_7 | h_8 =>
    cases h
    exact .inr ⟨⟨_, rfl⟩, rfl⟩
  case h_4 | h_9 | h_10 | h_11 =>
    cases eq_of_viewOf h
    exact .inr ⟨⟨_, rfl⟩, rfl⟩
  case h_12 => cases h

end Route

namespace Server

variable {s : Server} {key : String} {r : Request}

theorem printableHeader?_eq_some {name text : String} :
    r.printableHeader? name = some text ↔
      r.header? name = some (Text.Utf8.encode text.toList) ∧
        Request.isPrintable (Text.Utf8.encode text.toList) = true := by
  rw [Request.printableHeader?]
  constructor
  · intro h
    split at h
    · next value hheader =>
      split at h
      · next hprintable =>
        have hascii : ∀ b ∈ value, b.toNat < 0x80 := by
          intro b hb
          have hb := List.all_eq_true.mp hprintable b hb
          simp only [Bool.or_eq_true, beq_iff_eq, Bool.and_eq_true, decide_eq_true_eq] at hb
          obtain rfl | ⟨-, hlt⟩ := hb
          · decide
          · exact Nat.lt_trans (UInt8.lt_iff_toNat_lt.mp hlt) (by decide)
        obtain ⟨s, rfl⟩ := Text.Utf8.exists_encode_of_ascii hascii
        rw [Text.Utf8.decodeStrict?_encode, Option.some_inj] at h
        subst h
        exact ⟨hheader, hprintable⟩
      · cases h
    · cases h
  · rintro ⟨hheader, hprintable⟩
    simp only [hheader, hprintable, if_true, Text.Utf8.decodeStrict?_encode]

theorem admits_iff (hkey : s.apiKey = some key) :
    s.admits r = true ↔ r.header? keyHeader = some (Text.Utf8.encode key.toList) ∧
      Request.isPrintable (Text.Utf8.encode key.toList) = true := by
  simp only [admits, hkey, beq_iff_eq, printableHeader?_eq_some]

theorem admits_eq_false_iff (hkey : s.apiKey = some key) :
    s.admits r = false ↔ r.LacksKey key := by
  rw [← Bool.not_eq_true, admits_iff hkey]
  constructor
  · intro h
    cases hheader : r.header? keyHeader with
    | none => exact .missing hheader
    | some value =>
      cases hprintable : Request.isPrintable value with
      | false => exact .unreadable value hheader hprintable
      | true =>
        refine .different value hheader ?_
        rintro rfl
        exact h ⟨hheader, hprintable⟩
  · rintro hlacks ⟨hheader, hprintable⟩
    cases hlacks with
    | missing h => cases h.symm.trans hheader
    | unreadable value h hvalue =>
      cases h.symm.trans hheader
      cases hvalue.symm.trans hprintable
    | different value h hvalue =>
      cases h.symm.trans hheader
      exact hvalue rfl

theorem exchange_of_lacksKey {route : Route} (hguarded : route.isGuarded = true)
    (hkey : s.apiKey = some key) (h : r.LacksKey key) :
    s.exchange route r = .ofResponse (.ofFailure .unauthenticated) := by
  rw [exchange, hguarded, (admits_eq_false_iff hkey).mpr h]
  rfl

theorem answer_of_isGuarded (hguarded : r.IsGuarded) (hkey : s.apiKey = some key)
    (h : r.LacksKey key) :
    (s.handle r).response.answer = .unauthenticated ∨
      r.method = "HEAD" ∧ (s.handle r).response.answer = Answer.unauthenticated.withoutBody := by
  obtain ⟨hbelow, hmatched⟩ := hguarded
  obtain ⟨route, hroute⟩ := Option.ne_none_iff_exists'.mp hmatched
  obtain ⟨hhealth, -⟩ | ⟨-, hguarded⟩ := Route.health_or_isGuarded hroute
  · rw [hhealth] at hbelow
    exact absurd hbelow (by decide)
  · simp only [handle, hroute, exchange_of_lacksKey hguarded hkey h]
    split
    case isTrue homits =>
      rw [Route.omitsBody, Bool.and_eq_true, beq_iff_eq] at homits
      refine .inr ⟨homits.2, ?_⟩
      change (Response.ofFailure .unauthenticated).withoutBody.answer = _
      rw [Response.answer_withoutBody, Response.answer_unauthenticated]
    case isFalse => exact .inl Response.answer_unauthenticated

theorem handle_health {s' : Server} {r' : Request} (hr : r.segments = ["", "healthz"])
    (hr' : r'.segments = r.segments) (hmethod : r'.method = r.method) :
    s'.handle r' = s.handle r := by
  rw [hr] at hr'
  simp only [handle, hr, hr', Route.ofSegments?, exchange, Route.isGuarded, serve, hmethod,
    Bool.false_and]

theorem calls_of_lacksKey (hkey : s.apiKey = some key) (h : r.LacksKey key) :
    (s.handle r).calls = [] := by
  cases hroute : Route.ofSegments? r.segments with
  | none => simp only [handle, hroute, Exchange.ofResponse]
  | some route =>
    have hcalls : (s.exchange route r).calls = [] := by
      obtain ⟨-, rfl⟩ | ⟨-, hguarded⟩ := Route.health_or_isGuarded hroute
      · rw [exchange, Route.isGuarded, Bool.false_and]
        cases Route.health.serves r.method <;> rfl
      · rw [exchange_of_lacksKey hguarded hkey h]
        rfl
    simp only [handle, hroute]
    split
    · exact hcalls
    · exact hcalls

/-- Without the key nothing is called, and nothing but the path tells two answers apart: below
`/api` they are one answer, whatever is asked, however it is asked and whatever the store holds. -/
theorem handle_lacksKey (hkey : s.apiKey = some key) (h : r.LacksKey key) :
    (s.handle r).calls = [] ∧
      (Route.ofSegments? r.segments = none → (s.handle r).response.answer = ⟨404, none, ""⟩) ∧
      (r.segments = ["", "healthz"] → ∀ (s' : Server) (r' : Request),
        r'.segments = r.segments → r'.method = r.method → s'.handle r' = s.handle r) ∧
      (r.IsGuarded → (s.handle r).response.answer = .unauthenticated ∨
        r.method = "HEAD" ∧ (s.handle r).response.answer = Answer.unauthenticated.withoutBody) ∧
      ∀ (s' : Server) (key' : String) (r' : Request), s'.apiKey = some key' → r'.LacksKey key' →
        r.IsGuarded → r'.IsGuarded → r.method ≠ "HEAD" → r'.method ≠ "HEAD" →
          (s'.handle r').response.answer = (s.handle r).response.answer := by
  refine ⟨calls_of_lacksKey hkey h, ?_, fun hr s' r' => handle_health hr,
    fun hr => answer_of_isGuarded hr hkey h, ?_⟩
  · intro hroute
    simp only [handle, hroute]
    rfl
  · intro s' key' r' hkey' h' hr hr' hmethod hmethod'
    have hanswer := (answer_of_isGuarded hr hkey h).resolve_right fun hhead => hmethod hhead.1
    have hanswer' := (answer_of_isGuarded hr' hkey' h').resolve_right fun hhead => hmethod' hhead.1
    rw [hanswer, hanswer']

end Server

def lockedServer : Server where
  engine := ⟨⟨fun _ => .ok [], fun _ => .ok ""⟩, {}⟩
  apiKey := some "k3y"

def forgedDrop : Request :=
  ⟨"POST", "/api/adhoc", [("X-API-Key", Text.Utf8.encode "K3Y".toList)],
    Text.Utf8.encode "\x7b\"query\":\"DROP TABLE t\"\x7d".toList⟩

def strayRead : Request :=
  ⟨"PATCH", "/api/nowhere/distinct/%FF?limit=-1&limit=", [("x-api-key", [0x6B, 0xFF])], [0xC3]⟩

theorem handle_lacksKey_forgedDrop :
    lockedServer.apiKey = some "k3y" ∧ forgedDrop.LacksKey "k3y" ∧ strayRead.LacksKey "k3y" ∧
      (lockedServer.handle forgedDrop).calls = [] ∧
      (lockedServer.handle forgedDrop).response.answer = .unauthenticated ∧
      (lockedServer.handle strayRead).response.answer =
        (lockedServer.handle forgedDrop).response.answer := by
  have hkey : lockedServer.apiKey = some "k3y" := rfl
  have hforged : forgedDrop.LacksKey "k3y" := .different _ rfl (by decide)
  have hstray : strayRead.LacksKey "k3y" := .unreadable _ rfl (by decide)
  have hguarded : forgedDrop.IsGuarded := ⟨by decide +kernel, by decide +kernel⟩
  have hguarded' : strayRead.IsGuarded := ⟨by decide +kernel, by decide +kernel⟩
  obtain ⟨hcalls, -, -, hanswer, htwo⟩ := Server.handle_lacksKey hkey hforged
  exact ⟨hkey, hforged, hstray, hcalls, (hanswer hguarded).resolve_right (by decide),
    htwo lockedServer "k3y" strayRead hkey hstray hguarded hguarded' (by decide) (by decide)⟩

end QueryConsole.Http
