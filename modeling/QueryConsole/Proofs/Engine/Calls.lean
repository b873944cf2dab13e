import QueryConsole.Proofs.Adhoc.Screening
import QueryConsole.Proofs.Statement.Acceptance
import QueryConsole.Store.Reply

namespace QueryConsole

variable {α β : Type}

def OnlyStore (x : Except Failure α) : Prop :=
  ∀ f, x = .error f → ∃ fault, f = .store fault

namespace OnlyStore

theorem ok (a : α) : OnlyStore (.ok a) := nofun

theorem store (fault : StoreFault) : OnlyStore (.error (.store fault) : Except Failure α) := by
  rintro f ⟨⟩
  exact ⟨fault, rfl⟩

theorem bind {x : Except Failure α} {next : α → Except Failure β} (hx : OnlyStore x)
    (hnext : ∀ a, OnlyStore (next a)) : OnlyStore (x.bind next) := by
  cases x with
  | ok a => exact hnext a
  | error f =>
    rintro f' ⟨⟩
    exact hx f rfl

theorem mapM {g : α → Except Failure β} (hg : ∀ a, OnlyStore (g a)) (as : List α) :
    OnlyStore (as.mapM g) := by
  induction as with
  | nil => exact ok _
  | cons a as ih =>
    rw [List.mapM_cons]
    exact (hg a).bind fun _ => ih.bind fun _ => ok _

end OnlyStore

structure Storage.FailsAtStore (storage : Storage) : Prop where
  rows : ∀ s, OnlyStore (storage.rows s)
  text : ∀ s, OnlyStore (storage.text s)

namespace Store

theorem Reply.onlyStore_text (r : Reply) : OnlyStore r.text := by
  rw [Reply.text]
  split
  · exact OnlyStore.ok _
  · exact OnlyStore.store _

theorem Reply.onlyStore_rows (r : Reply) : OnlyStore r.rows := by
  have hrow (line : String) : OnlyStore (readRow line) := by
    rw [readRow]
    split
    · exact OnlyStore.ok _
    · exact OnlyStore.store _
  exact r.onlyStore_text.bind fun _ => OnlyStore.mapM hrow _

theorem Endpoint.onlyStore_reply (e : Endpoint) (respond : Http.Request → Reply) (c : Call) :
    OnlyStore (e.reply respond c) := by
  rw [Endpoint.reply]
  split
  · exact OnlyStore.ok _
  · exact OnlyStore.store _

theorem Endpoint.failsAtStore_storage (e : Endpoint) (respond : Http.Request → Reply) :
    (e.storage respond).FailsAtStore := by
  constructor
  · intro s
    simp only [Endpoint.storage]
    exact (e.onlyStore_reply respond (.rows s)).bind Reply.onlyStore_rows
  · intro s
    simp only [Endpoint.storage]
    exact (e.onlyStore_reply respond (.text s)).bind Reply.onlyStore_text

end Store

/-- How an operation ends, with one call if it executes anything and with none if it does not. -/
inductive Outcome.Orderly (executes : Bool) : Outcome α → Prop
  | refused (fault : Fault) : Orderly executes ⟨[], .error (.invalid fault)⟩
  | answered (calls : List Call) (a : α) (h : calls.length = executes.toNat) :
    Orderly executes ⟨calls, .ok a⟩
  | failed (call : Call) (fault : StoreFault) : Orderly executes ⟨[call], .error (.store fault)⟩

namespace Outcome.Orderly

theorem ofResult {x : Except Failure α} (h : OnlyInvalid x) :
    (Outcome.ofResult x).Orderly false := by
  cases x with
  | ok a => exact answered [] a rfl
  | error f =>
    obtain ⟨fault, rfl⟩ := h f rfl
    exact refused fault

theorem ofCall {x : Except Failure α} (call : Call) (h : OnlyStore x) :
    Orderly true ⟨[call], x⟩ := by
  cases x with
  | ok a => exact answered [call] a rfl
  | error f =>
    obtain ⟨fault, rfl⟩ := h f rfl
    exact failed call fault

theorem after {executes : Bool} {check : Except Failure α} {next : α → Outcome β}
    (hcheck : OnlyInvalid check) (hnext : ∀ a, (next a).Orderly executes) :
    (Outcome.after check next).Orderly executes := by
  cases check with
  | ok a => exact hnext a
  | error f =>
    obtain ⟨fault, rfl⟩ := hcheck f rfl
    exact refused fault

theorem andThen {o : Outcome α} {f : α → Except Failure β} (ho : o.Orderly true)
    (hf : ∀ a, OnlyStore (f a)) : (o.andThen f).Orderly true := by
  cases ho with
  | refused fault => exact refused fault
  | answered calls a h =>
    obtain ⟨call, rfl⟩ := List.length_eq_one_iff.mp h
    exact ofCall call (hf a)
  | failed call fault => exact failed call fault

end Outcome.Orderly

theorem Dataset.onlyInvalid_ofName (name : String) : OnlyInvalid (Dataset.ofName name) := by
  rw [Dataset.ofName]
  split
  · exact OnlyInvalid.ok _
  · exact OnlyInvalid.invalid _

theorem ExplainMode.onlyInvalid_ofName (name : String) : OnlyInvalid (ExplainMode.ofName name) := by
  rw [ExplainMode.ofName]
  split
  · exact OnlyInvalid.ok _
  · exact OnlyInvalid.invalid _

theorem Explain.onlyInvalid_compile (mode : ExplainMode) (query : String) :
    OnlyInvalid (Explain.compile mode query) := by
  simp only [Explain.compile]
  split
  · exact OnlyInvalid.invalid _
  · exact OnlyInvalid.ok _

namespace Engine

variable {e : Engine}

theorem orderly_preview (d : Dataset) (pattern : ReadPattern) (p : Parameters) :
    (Outcome.ofResult (e.preview d pattern p)).Orderly false :=
  .ofResult onlyInvalid_compile

theorem orderly_read (h : e.storage.FailsAtStore) (d : Dataset) (pattern : ReadPattern)
    (p : Parameters) : (e.read d pattern p).Orderly true :=
  .after onlyInvalid_compile fun s => .ofCall (.rows s) (h.rows s)

theorem orderly_count (h : e.storage.FailsAtStore) (d : Dataset) (p : Parameters) :
    (e.count d p).Orderly true := by
  refine .andThen (orderly_read h d .count p) fun rows => ?_
  cases totalOf rows with
  | some total => exact OnlyStore.ok total
  | none => exact OnlyStore.store (.noTotal d)

theorem orderly_adhoc (h : e.storage.FailsAtStore) (r : AdhocRequest) :
    (e.adhoc r).Orderly true :=
  .after Adhoc.onlyInvalid_compile fun s =>
    .andThen (.ofCall (.rows s) (h.rows s)) fun _ => OnlyStore.ok _

theorem orderly_explain (h : e.storage.FailsAtStore) (r : ExplainRequest) :
    (e.explain r).Orderly true := by
  refine .after (ExplainMode.onlyInvalid_ofName r.mode) fun mode =>
    .after (Explain.onlyInvalid_compile mode r.query) fun s => ?_
  split
  · exact .andThen (.ofCall (.text s) (h.text s)) fun _ => OnlyStore.ok _
  · exact .ofCall (.rows s) (h.rows s)

end Engine

end QueryConsole
