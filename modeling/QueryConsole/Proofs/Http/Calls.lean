import QueryConsole.Http.Server
import QueryConsole.Proofs.Engine.Calls

namespace QueryConsole

theorem ReadPattern.onlyInvalid_ofName (name : String) (field : Option String) :
    OnlyInvalid (ReadPattern.ofName name field) := by
  have hfield (pattern : String → ReadPattern) :
      OnlyInvalid (ReadPattern.ofName.withField name field pattern) := by
    rw [ReadPattern.ofName.withField]
    split
    · exact OnlyInvalid.ok _
    · exact OnlyInvalid.invalid _
  rw [ReadPattern.ofName.eq_def]
  split
  case h_6 => exact hfield .histogram
  case h_7 => exact hfield .distinct
  case h_8 => exact OnlyInvalid.invalid _
  all_goals exact OnlyInvalid.ok _

namespace Http

def View.executes : View → Bool
  | .rows _ _ | .total _ => true
  | .preview _ _ => false

def Route.executes : Route → Bool
  | .health => false
  | .adhoc | .explain => true
  | .view v => v.executes

theorem View.executes_decode {view decoded : View} (h : view.decode? = some decoded) :
    decoded.executes = view.executes := by
  rw [View.decode?.eq_def] at h
  split at h
  all_goals simp only [Option.bind_eq_some_iff, Option.map_eq_some_iff] at h
  case h_1 | h_2 | h_5 =>
    obtain ⟨_, -, _, -, rfl⟩ := h
    rfl
  case h_3 | h_4 =>
    obtain ⟨_, -, rfl⟩ := h
    rfl

def refusals : List Nat := [400, 401, 404, 405, 413, 415, 422]

/-- How a request ends on a route, or before one is found. -/
inductive Exchange.Orderly (executes : Bool) : Exchange → Prop
  | refused (r : Response) (h : r.status ∈ refusals) : Orderly executes ⟨[], r⟩
  | answered (calls : List Call) (r : Response) (hcalls : calls.length = executes.toNat)
    (h : r.status = 200) : Orderly executes ⟨calls, r⟩
  | failed (call : Call) (r : Response) (h : r.status = 502) : Orderly executes ⟨[call], r⟩

namespace Exchange.Orderly

variable {executes : Bool} {α : Type}

theorem ofOutcome {json : α → Json} {o : Outcome α} (h : o.Orderly executes) :
    (Exchange.ofOutcome json o).Orderly executes := by
  cases h with
  | refused fault =>
    refine refused (.ofFailure (.invalid fault)) ?_
    change 400 ∈ refusals
    decide
  | answered calls a h => exact answered calls _ h rfl
  | failed call fault => exact failed call _ rfl

theorem ofRejection (r : Rejection) :
    (Exchange.ofResponse (.ofRejection r)).Orderly executes := by
  refine refused _ ?_
  cases r <;> decide

theorem reading {read : Except Rejection α} {next : α → Exchange}
    (h : ∀ a, (next a).Orderly executes) : (Exchange.reading read next).Orderly executes := by
  cases read with
  | ok a => exact h a
  | error r => exact ofRejection r

theorem withoutBody {e : Exchange} (h : e.Orderly executes) : e.withoutBody.Orderly executes := by
  cases h with
  | refused r h => exact refused _ h
  | answered calls r hcalls h => exact answered calls _ hcalls h
  | failed call r h => exact failed call _ h

end Exchange.Orderly

namespace Server

variable {s : Server} (hstorage : s.engine.storage.FailsAtStore)
include hstorage

theorem orderly_read (view : View) (pairs : List (String × String)) :
    (s.read view pairs).Orderly view.executes := by
  refine .reading fun p => ?_
  cases view with
  | rows dataset pattern =>
    exact .ofOutcome (.after (Dataset.onlyInvalid_ofName dataset) fun d =>
      Engine.orderly_read hstorage d pattern p)
  | total dataset =>
    exact .ofOutcome (.after (Dataset.onlyInvalid_ofName dataset) fun d =>
      Engine.orderly_count hstorage d p)
  | preview dataset pattern =>
    exact .reading fun field => .ofOutcome (.after (Dataset.onlyInvalid_ofName dataset) fun d =>
      .after (ReadPattern.onlyInvalid_ofName pattern field) fun pattern =>
        Engine.orderly_preview d pattern p)

theorem orderly_serve (route : Route) (r : Request) :
    (s.serve route r).Orderly route.executes := by
  cases route with
  | health => exact .answered [] _ rfl rfl
  | adhoc => exact .reading fun request => .ofOutcome (Engine.orderly_adhoc hstorage request)
  | explain => exact .reading fun request => .ofOutcome (Engine.orderly_explain hstorage request)
  | view view =>
    rw [serve]
    split
    case h_1 decoded hdecoded =>
      rw [Route.executes, ← View.executes_decode hdecoded]
      exact orderly_read hstorage decoded _
    case h_2 => exact .ofRejection _

theorem orderly_exchange (route : Route) (r : Request) :
    (s.exchange route r).Orderly route.executes := by
  rw [exchange]
  split
  · exact .refused _ (by decide)
  · split
    · exact orderly_serve hstorage route r
    · exact .refused _ (by decide)

theorem orderly_matched {r : Request} {route : Route}
    (h : Route.ofSegments? r.segments = some route) : (s.handle r).Orderly route.executes := by
  simp only [handle, h]
  split
  · exact .withoutBody (orderly_exchange hstorage route r)
  · exact orderly_exchange hstorage route r

/-- A request makes one call at most.  A refused one makes none, one that fails at the store has
made it, and an answered one has made it if its route executes anything. -/
theorem handle_calls (r : Request) :
    (s.handle r).calls.length ≤ 1 ∧
      ((s.handle r).response.status ≠ 200 → (s.handle r).response.status ≠ 502 →
        (s.handle r).calls = []) ∧
      ((s.handle r).response.status = 502 → (s.handle r).calls.length = 1) ∧
      ((s.handle r).response.status = 200 → ∃ route, Route.ofSegments? r.segments = some route ∧
        (s.handle r).calls.length = route.executes.toNat) ∧
      (s.handle r).response.status ≠ 500 := by
  cases hroute : Route.ofSegments? r.segments with
  | none => simp [handle, hroute, Exchange.ofResponse, Response.notFound]
  | some route =>
    have h := orderly_matched hstorage hroute
    generalize s.handle r = e at h
    cases h with
    | refused r h =>
      have hrefused : ∀ status ∈ refusals, status ≠ 200 ∧ status ≠ 502 ∧ status ≠ 500 := by
        decide
      obtain ⟨hok, hfailed, hinternal⟩ := hrefused _ h
      exact ⟨Nat.zero_le 1, fun _ _ => rfl, fun h => absurd h hfailed, fun h => absurd h hok,
        hinternal⟩
    | answered calls r hcalls h =>
      simp [h, hcalls, Bool.toNat_le]
    | failed call r h => simp [h]

end Server

def refusedServer : Server where
  engine := ⟨(Store.Endpoint.mk "http://store:8123" "system" "default" none).storage
    fun _ => ⟨500, "Code: 60".toUTF8.toList⟩, {}⟩
  apiKey := none

def searchedTotal : Request := ⟨"GET", "/api/parts/count?search=merged", [], []⟩

theorem handle_calls_refusedTotal :
    refusedServer.engine.storage.FailsAtStore ∧
      (refusedServer.handle searchedTotal).response.status = 502 ∧
      (refusedServer.handle searchedTotal).calls.length = 1 := by
  have hstorage : refusedServer.engine.storage.FailsAtStore :=
    Store.Endpoint.failsAtStore_storage _ _
  have hstatus : (refusedServer.handle searchedTotal).response.status = 502 := by
    decide +kernel
  exact ⟨hstorage, hstatus, (Server.handle_calls hstorage searchedTotal).2.2.1 hstatus⟩

end Http

end QueryConsole
