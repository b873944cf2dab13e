import QueryConsole.Proofs.Json.Payload
import QueryConsole.Proofs.Json.Scalars
import QueryConsole.Proofs.Request.Given
import Mathlib.Data.List.Induction
import Mathlib.Data.List.Sort

/-! The objects that filter payloads are.  A payload is accepted when it is the JSON text of one
object whose every value can be read; of the members with one key the last one counts, and the order
of the members does not. -/

namespace QueryConsole

variable {α : Type} {given entries entries' : List (String × α)} {entry : String × α}

section Latest

def IsLast (given : List (String × α)) (entry : String × α) : Prop :=
  ∃ before after, given = before ++ entry :: after ∧ entry.1 ∉ after.map (·.1)

/-- One entry for each key, the last one that is given, in key order. -/
structure IsLatest (given entries : List (String × α)) : Prop where
  sorted : KeysSorted entries
  mem_iff : ∀ entry, entry ∈ entries ↔ IsLast given entry

theorem KeysSorted.ext (h : KeysSorted entries) (h' : KeysSorted entries')
    (hmem : ∀ entry, entry ∈ entries ↔ entry ∈ entries') : entries = entries' := by
  have : Std.Irrefl fun a b : String × α => a.1 < b.1 := ⟨fun a => String.lt_irrefl a.1⟩
  have : Std.Antisymm fun a b : String × α => a.1 < b.1 :=
    ⟨fun _ _ hab hba => absurd hba (String.lt_asymm hab)⟩
  exact (List.pairwise_map.mp h).eq_of_mem_iff (List.pairwise_map.mp h') hmem

theorem Json.mem_insertMember {key : String} {value : α} (h : KeysSorted entries) :
    entry ∈ Json.insertMember key value entries ↔
      entry = (key, value) ∨ entry ∈ entries ∧ entry.1 ≠ key := by
  induction entries with
  | nil => simp [Json.insertMember]
  | cons first entries ih =>
    rw [KeysSorted, List.map_cons, List.pairwise_cons] at h
    have hlater {entry : String × α} (hentry : entry ∈ entries) : first.1 < entry.1 :=
      h.1 entry.1 (List.mem_map_of_mem hentry)
    rw [Json.insertMember]
    split
    · next hlt =>
      have hne (hentry : entry ∈ first :: entries) : entry.1 ≠ key := by
        rintro rfl
        cases hentry with
        | head => exact String.lt_irrefl _ hlt
        | tail _ hentry => exact String.lt_asymm hlt (hlater hentry)
      rw [List.mem_cons]
      exact or_congr_right ⟨fun hentry => ⟨hentry, hne hentry⟩, And.left⟩
    · split
      · next heq =>
        have hne (hentry : entry ∈ entries) : entry.1 ≠ key := by
          intro hkey
          exact String.ne_of_lt (hlater hentry) (heq.symm.trans hkey.symm)
        rw [List.mem_cons, List.mem_cons]
        constructor
        · rintro (rfl | hentry)
          · exact .inl rfl
          · exact .inr ⟨.inr hentry, hne hentry⟩
        · rintro (rfl | ⟨rfl | hentry, hkey⟩)
          · exact .inl rfl
          · exact absurd heq.symm hkey
          · exact .inr hentry
      · next hne =>
        rw [List.mem_cons, ih h.2, List.mem_cons]
        constructor
        · rintro (rfl | rfl | ⟨hentry, hkey⟩)
          · exact .inr ⟨.inl rfl, fun heq => hne heq.symm⟩
          · exact .inl rfl
          · exact .inr ⟨.inr hentry, hkey⟩
        · rintro (rfl | ⟨rfl | hentry, hkey⟩)
          · exact .inr (.inl rfl)
          · exact .inl rfl
          · exact .inr (.inr ⟨hentry, hkey⟩)

theorem isLast_concat {member : String × α} :
    IsLast (given ++ [member]) entry ↔
      entry = member ∨ IsLast given entry ∧ entry.1 ≠ member.1 := by
  constructor
  · rintro ⟨before, after, hgiven, hafter⟩
    cases after using List.reverseRecOn with
    | nil =>
      obtain ⟨-, hlast⟩ := List.append_inj' hgiven rfl
      cases hlast
      exact .inl rfl
    | append_singleton after last =>
      rw [← List.cons_append, ← List.append_assoc] at hgiven
      obtain ⟨rfl, hlast⟩ := List.append_inj' hgiven rfl
      cases hlast
      rw [List.map_append, List.mem_append, not_or] at hafter
      exact .inr ⟨⟨before, after, rfl, hafter.1⟩, by simpa using hafter.2⟩
  · rintro (rfl | ⟨⟨before, after, rfl, hafter⟩, hkey⟩)
    · exact ⟨given, [], rfl, List.not_mem_nil⟩
    · exact ⟨before, after ++ [member], by simp, by simp [hafter, hkey]⟩

theorem Json.mem_sortMembers (given : List (String × α)) (entry : String × α) :
    entry ∈ Json.sortMembers given ↔ IsLast given entry := by
  induction given using List.reverseRecOn with
  | nil => simp [Json.sortMembers, IsLast]
  | append_singleton given member ih =>
    rw [Json.sortMembers, List.foldl_concat, ← Json.sortMembers,
      Json.mem_insertMember (Json.keysSorted_sortMembers given), ih, isLast_concat]

theorem isLatest_iff : IsLatest given entries ↔ Json.sortMembers given = entries := by
  have hlatest : IsLatest given (Json.sortMembers given) :=
    ⟨Json.keysSorted_sortMembers given, Json.mem_sortMembers given⟩
  constructor
  · exact fun h => hlatest.sorted.ext h.sorted fun entry => by rw [hlatest.mem_iff, h.mem_iff]
  · rintro rfl
    exact hlatest

end Latest

section Payload

open Json (Lexes Piece StandFor Tree)

variable {Means : Tree → α → Prop} {value? : Tree → Option α} {fault : Fault} {raw : String}

def IsEntry (Means : Tree → α → Prop) (member : List Piece × Tree) (entry : String × α) : Prop :=
  StandFor member.1 entry.1.toList ∧ Means member.2 entry.2

/-- A payload and its entries in the order they are written in: it is blank, or the JSON text of one
object. -/
inductive IsPayload (Means : Tree → α → Prop) (raw : String) : List (String × α) → Prop
  | blank (h : Text.trim raw = "") : IsPayload Means raw []
  | object {members : List (List Piece × Tree)} {given : List (String × α)}
    (h : Lexes (Tree.object members true).tokens (Text.trim raw).toList)
    (hmembers : List.Forall₂ (IsEntry Means) members given) : IsPayload Means raw given

theorem forall₂_congr_left {β γ : Type} {R S : β → γ → Prop} {bs : List β} {cs : List γ}
    (h : ∀ b ∈ bs, ∀ c, R b c ↔ S b c) : List.Forall₂ R bs cs ↔ List.Forall₂ S bs cs := by
  constructor
  · exact fun hR => ((List.forall₂_and_left _ _).mpr ⟨h, hR⟩).imp fun _ c hb => (hb.1 c).mp hb.2
  · exact fun hS => ((List.forall₂_and_left _ _).mpr ⟨h, hS⟩).imp fun _ c hb => (hb.1 c).mpr hb.2

theorem Json.Tree.entries?_eq_some {members : List (List Piece × Tree)}
    (h : (Tree.object members true).IsWritten)
    (hvalue : ∀ t : Tree, t.IsWritten → ∀ a, value? t = some a ↔ Means t a) :
    (Tree.object members true).entries? value? = some entries ↔
      ∃ given, List.Forall₂ (IsEntry Means) members given ∧ IsLatest given entries := by
  have hentry (member) (hmember : member ∈ members) (entry : String × α) :
      ((Json.pieceText? member.1).bind fun key => (value? member.2).map fun value => (key, value)) =
        some entry ↔ IsEntry Means member entry := by
    rw [IsEntry, ← hvalue _ (h.value hmember), ← Json.pieceText?_eq_some (h.key hmember),
      Option.bind_eq_some_iff]
    constructor
    · rintro ⟨key, hkey, hmap⟩
      obtain ⟨value, hvalue, rfl⟩ := Option.map_eq_some_iff.mp hmap
      exact ⟨hkey, hvalue⟩
    · rintro ⟨hkey, hvalue⟩
      exact ⟨entry.1, hkey, by rw [hvalue, Option.map_some]⟩
  rw [Json.Tree.entries?, Option.map_eq_some_iff]
  simp only [isLatest_iff]
  refine exists_congr fun given => and_congr_left fun _ => ?_
  exact Json.mapM_eq_some.trans (forall₂_congr_left hentry)

theorem Json.Tree.exists_of_entries? {t : Tree} (h : t.entries? value? = some entries) :
    ∃ members, t = .object members true := by
  rw [Json.Tree.entries?.eq_def] at h
  split at h
  · exact ⟨_, rfl⟩
  · cases h

theorem Json.wholeTree?_entries? {s : String}
    (hvalue : ∀ t : Tree, t.IsWritten → ∀ a, value? t = some a ↔ Means t a) :
    (Json.wholeTree? s).bind (Tree.entries? value?) = some entries ↔
      ∃ members given, Lexes (Tree.object members true).tokens s.toList ∧
        List.Forall₂ (IsEntry Means) members given ∧ IsLatest given entries := by
  rw [Option.bind_eq_some_iff]
  constructor
  · rintro ⟨t, ht, hentries⟩
    obtain ⟨members, rfl⟩ := Json.Tree.exists_of_entries? hentries
    have hlexes := Json.wholeTree?_eq_some.mp ht
    obtain ⟨given, hgiven⟩ := (Json.Tree.entries?_eq_some hlexes.isWritten hvalue).mp hentries
    exact ⟨members, given, hlexes, hgiven⟩
  · rintro ⟨members, given, hlexes, hgiven⟩
    exact ⟨_, Json.wholeTree?_eq_some.mpr hlexes,
      (Json.Tree.entries?_eq_some hlexes.isWritten hvalue).mpr ⟨given, hgiven⟩⟩

theorem not_lexes_empty (token : Json.Token) (ts : List Json.Token) :
    ¬Lexes (token :: ts) "".toList := by
  intro h
  have hscan := h.scan
  cases hscan

theorem parseEntries_eq_ok (hvalue : ∀ t : Tree, t.IsWritten → ∀ a, value? t = some a ↔ Means t a) :
    parseEntries value? fault (some raw) = .ok entries ↔
      ∃ given, IsPayload Means raw given ∧ IsLatest given entries := by
  cases hblank : Text.isBlankText raw with
  | true =>
    have htrim : Text.trim raw = "" := Text.trim_eq_empty_iff.mpr hblank
    have hparse : parseEntries value? fault (some raw) = .ok [] := by
      rw [parseEntries, Text.given, if_pos hblank]
    rw [hparse]
    constructor
    · rintro ⟨⟩
      exact ⟨[], .blank htrim, isLatest_iff.mpr rfl⟩
    · rintro ⟨given, hgiven, hlatest⟩
      cases hgiven with
      | blank => rw [← isLatest_iff.mp hlatest]; rfl
      | object h =>
        rw [htrim, Json.Tree.tokens_object] at h
        exact absurd h (not_lexes_empty _ _)
  | false =>
    have htrim : Text.trim raw ≠ "" := by
      rw [ne_eq, Text.trim_eq_empty_iff, hblank]
      exact Bool.false_ne_true
    have hparse : parseEntries value? fault (some raw) = .ok entries ↔
        (Json.wholeTree? (Text.trim raw)).bind (Tree.entries? value?) = some entries := by
      rw [parseEntries, Text.given, hblank, if_neg Bool.false_ne_true]
      simp only
      cases (Json.wholeTree? (Text.trim raw)).bind (Tree.entries? value?) <;> simp
    rw [hparse, Json.wholeTree?_entries? hvalue]
    constructor
    · rintro ⟨members, given, hlexes, hgiven, hlatest⟩
      exact ⟨given, .object hlexes hgiven, hlatest⟩
    · rintro ⟨given, hgiven, hlatest⟩
      cases hgiven with
      | blank h => exact absurd h htrim
      | object hlexes hgiven => exact ⟨_, given, hlexes, hgiven, hlatest⟩

/-- The entries of a payload that may be absent, the last one of each key. -/
inductive HasEntries (Means : Tree → α → Prop) : Option String → List (String × α) → Prop
  | absent : HasEntries Means none []
  | payload {raw : String} {given entries : List (String × α)} (h : IsPayload Means raw given)
    (hlatest : IsLatest given entries) : HasEntries Means (some raw) entries

theorem hasEntries_iff {raw : Option String}
    (hvalue : ∀ t : Tree, t.IsWritten → ∀ a, value? t = some a ↔ Means t a) :
    HasEntries Means raw entries ↔ parseEntries value? fault raw = .ok entries := by
  constructor
  · intro h
    cases h with
    | absent => rfl
    | payload h hlatest => exact (parseEntries_eq_ok hvalue).mpr ⟨_, h, hlatest⟩
  · intro h
    cases raw with
    | none =>
      cases h
      exact .absent
    | some raw =>
      obtain ⟨given, hgiven, hlatest⟩ := (parseEntries_eq_ok hvalue).mp h
      exact .payload hgiven hlatest

theorem exists_parseEntries
    (hvalue : ∀ t : Tree, t.IsWritten → ∀ a, value? t = some a ↔ Means t a) :
    (∃ entries, parseEntries value? fault (some raw) = .ok entries) ↔
      ∃ given, IsPayload Means raw given := by
  simp only [parseEntries_eq_ok hvalue, isLatest_iff]
  constructor
  · rintro ⟨entries, given, hgiven, -⟩
    exact ⟨given, hgiven⟩
  · rintro ⟨given, hgiven⟩
    exact ⟨_, given, hgiven, rfl⟩

theorem parseEntries_eq_error
    (hvalue : ∀ t : Tree, t.IsWritten → ∀ a, value? t = some a ↔ Means t a)
    (h : ¬∃ given, IsPayload Means raw given) :
    parseEntries value? fault (some raw) = .error (.invalid fault) := by
  have hrefused : ¬∃ entries, parseEntries value? fault (some raw) = .ok entries :=
    mt (exists_parseEntries hvalue).mp h
  have hfault : (∃ entries, parseEntries value? fault (some raw) = .ok entries) ∨
      parseEntries value? fault (some raw) = .error (.invalid fault) := by
    rw [parseEntries]
    split
    · exact .inl ⟨_, rfl⟩
    · split
      · exact .inl ⟨_, rfl⟩
      · exact .inr rfl
  exact hfault.resolve_left hrefused

end Payload

end QueryConsole
