import QueryConsole.Proofs.Request.Entries

namespace QueryConsole

variable {α β : Type}

/-- What a parameter stands for: nothing if it is absent or blank, and otherwise what its text
means without the blanks around it. -/
inductive IsGiven (Means : String → α → Prop) (raw : Option String) : Option α → Prop
  | blank (h : Text.given raw = none) : IsGiven Means raw none
  | given {s : String} {a : α} (h : Text.given raw = some s) (ha : Means s a) :
    IsGiven Means raw (some a)

def OnlyInvalid (x : Except Failure α) : Prop :=
  ∀ f, x = .error f → ∃ fault, f = .invalid fault

namespace OnlyInvalid

theorem ok (a : α) : OnlyInvalid (.ok a) := nofun

theorem invalid (fault : Fault) : OnlyInvalid (.error (.invalid fault) : Except Failure α) := by
  rintro f ⟨⟩
  exact ⟨fault, rfl⟩

theorem bind {x : Except Failure α} {next : α → Except Failure β} (hx : OnlyInvalid x)
    (hnext : ∀ a, OnlyInvalid (next a)) : OnlyInvalid (x.bind next) := by
  cases x with
  | ok a => exact hnext a
  | error f =>
    rintro f' ⟨⟩
    exact hx f rfl

theorem map {x : Except Failure α} {g : α → β} (hx : OnlyInvalid x) : OnlyInvalid (x.map g) := by
  cases x with
  | ok a => exact ok _
  | error f =>
    rintro f' ⟨⟩
    exact hx f rfl

end OnlyInvalid

def readGiven (read? : String → Option α) (fault : String → Fault) (raw : Option String) :
    Except Failure (Option α) :=
  match Text.given raw with
  | none => .ok none
  | some s =>
    match read? s with
    | some a => .ok (some a)
    | none => .error (.invalid (fault s))

section Given

variable {Means : String → α → Prop} {read? : String → Option α} {fault : String → Fault}
  {raw : Option String} {given : Option α}

theorem readGiven_eq_ok (hread : ∀ s a, read? s = some a ↔ Means s a) :
    readGiven read? fault raw = .ok given ↔ IsGiven Means raw given := by
  rw [readGiven]
  constructor
  · intro h
    split at h
    · next hraw =>
      cases h
      exact .blank hraw
    · next s hraw =>
      split at h
      · next a ha =>
        cases h
        exact .given hraw ((hread s a).mp ha)
      · cases h
  · intro h
    cases h with
    | blank hraw => rw [hraw]
    | given hraw ha => simp only [hraw, (hread _ _).mpr ha]

theorem onlyInvalid_readGiven : OnlyInvalid (readGiven read? fault raw) := by
  rw [readGiven]
  split
  · exact OnlyInvalid.ok _
  · split
    · exact OnlyInvalid.ok _
    · exact OnlyInvalid.invalid _

end Given

theorem Calendar.parseBound_eq (raw : Option String) :
    parseBound raw = readGiven readInstant .notATime raw := by
  rw [parseBound, readGiven]
  cases Text.given raw with
  | none => rfl
  | some literal =>
    simp only [parseInstant]
    cases readInstant literal <;> rfl

theorem onlyInvalid_parseEntries (value? : Json.Tree → Option α) (fault : Fault)
    (raw : Option String) : OnlyInvalid (parseEntries value? fault raw) := by
  rw [parseEntries]
  split
  · exact OnlyInvalid.ok _
  · split
    · exact OnlyInvalid.ok _
    · exact OnlyInvalid.invalid _

theorem Parameters.parseCount_eq (parameter : CountParameter) (raw : Option String) :
    parseCount parameter raw =
      readGiven Decimal.uint64? (fun _ => .notACount parameter) raw := by
  rw [parseCount, readGiven]
  cases Text.given raw with
  | none => rfl
  | some s =>
    simp only
    cases Decimal.uint64? s <;> rfl

theorem Parameters.onlyInvalid_rowFilter {p : Parameters} : OnlyInvalid p.rowFilter := by
  have htime (raw : Option String) : OnlyInvalid (Calendar.parseBound raw) := by
    rw [Calendar.parseBound_eq]
    exact onlyInvalid_readGiven
  have hwindow : OnlyInvalid (Calendar.Window.parse p.start p.finish) :=
    (htime _).bind fun _ => (htime _).bind fun _ => OnlyInvalid.ok _
  exact hwindow.bind fun _ => (onlyInvalid_parseEntries _ _ _).bind fun _ =>
    (onlyInvalid_parseEntries _ _ _).bind fun _ => OnlyInvalid.ok _

theorem Parameters.onlyInvalid_page {p : Parameters} {limits : Limits} :
    OnlyInvalid (p.page limits) := by
  have hcount (parameter : CountParameter) (raw : Option String) :
      OnlyInvalid (parseCount parameter raw) := by
    rw [parseCount_eq]
    exact onlyInvalid_readGiven
  exact (hcount _ _).bind fun _ => (hcount _ _).bind fun _ => OnlyInvalid.ok _

end QueryConsole
