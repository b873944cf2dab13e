import QueryConsole.Request.RowFilter

namespace QueryConsole

def KeysSorted {α : Type} (entries : List (String × α)) : Prop :=
  (entries.map (·.1)).Pairwise (· < ·)

namespace Json

variable {α : Type} {key : String} {value : α} {entries : List (String × α)}

theorem mem_keys_insertMember {k : String}
    (h : k ∈ (insertMember key value entries).map (·.1)) :
    k = key ∨ k ∈ entries.map (·.1) := by
  induction entries with
  | nil => simpa [insertMember] using h
  | cons entry entries ih =>
    rw [insertMember] at h
    split at h
    · simpa using h
    · split at h
      · next heq => simp_all
      · rw [List.map_cons, List.mem_cons] at h ⊢
        cases h with
        | inl heq => exact .inr (.inl heq)
        | inr hrest => exact (ih hrest).imp_right .inr

theorem keysSorted_insertMember (h : KeysSorted entries) :
    KeysSorted (insertMember key value entries) := by
  induction entries with
  | nil => simp [KeysSorted, insertMember]
  | cons entry entries ih =>
    have hcons := h
    rw [KeysSorted, List.map_cons, List.pairwise_cons] at hcons
    rw [insertMember]
    split
    · next hlt =>
      rw [KeysSorted, List.map_cons, List.pairwise_cons]
      refine ⟨?_, h⟩
      intro k hk
      rw [List.map_cons, List.mem_cons] at hk
      cases hk with
      | inl heq => exact heq ▸ hlt
      | inr hmem => exact String.lt_trans hlt (hcons.1 k hmem)
    · next hnotLt =>
      split
      · next heq =>
        rw [KeysSorted, List.map_cons, List.pairwise_cons]
        exact ⟨heq ▸ hcons.1, hcons.2⟩
      · next hne =>
        have hlt : entry.1 < key := by
          rw [← String.not_le]
          intro hle
          exact hne (String.le_antisymm hle (String.not_lt.mp hnotLt))
        rw [KeysSorted, List.map_cons, List.pairwise_cons]
        refine ⟨?_, ih hcons.2⟩
        intro k hk
        cases mem_keys_insertMember hk with
        | inl heq => exact heq ▸ hlt
        | inr hmem => exact hcons.1 k hmem

theorem keysSorted_sortMembers (members : List (String × α)) :
    KeysSorted (sortMembers members) := by
  have hfold (entries : List (String × α)) (h : KeysSorted entries) :
      KeysSorted (members.foldl (fun sorted m => insertMember m.1 m.2 sorted) entries) := by
    induction members generalizing entries with
    | nil => exact h
    | cons m members ih => exact ih _ (keysSorted_insertMember h)
  exact hfold [] List.Pairwise.nil

theorem insertMember_perm (h : key ∉ entries.map (·.1)) :
    (insertMember key value entries).Perm ((key, value) :: entries) := by
  induction entries with
  | nil => rfl
  | cons entry entries ih =>
    rw [List.map_cons, List.mem_cons, not_or] at h
    rw [insertMember]
    split
    · rfl
    · rw [if_neg h.1]
      exact ((ih h.2).cons entry).trans (.swap _ _ _)

theorem sortMembers_perm {members : List (String × α)} (h : (members.map (·.1)).Nodup) :
    (sortMembers members).Perm members := by
  have hfold (members sorted : List (String × α))
      (h : ((sorted ++ members).map Prod.fst).Nodup) :
      (members.foldl (fun sorted m => insertMember m.1 m.2 sorted) sorted).Perm
        (sorted ++ members) := by
    induction members generalizing sorted with
    | nil =>
      rw [List.append_nil]
      rfl
    | cons m members ih =>
      have hfresh : m.1 ∉ sorted.map Prod.fst := by
        intro hmem
        rw [List.map_append, List.map_cons, List.nodup_append] at h
        exact h.2.2 m.1 hmem m.1 List.mem_cons_self rfl
      have hperm : (insertMember m.1 m.2 sorted ++ members).Perm (sorted ++ m :: members) :=
        ((insertMember_perm hfresh).append_right members).trans List.perm_middle.symm
      exact (ih _ ((hperm.map Prod.fst).nodup_iff.mpr h)).trans hperm
  exact hfold members [] h

theorem sortMembers_eq {members : List (String × α)} (hsorted : KeysSorted entries)
    (h : members.Perm entries) : sortMembers members = entries := by
  have hnodup : (members.map Prod.fst).Nodup := by
    refine (h.map Prod.fst).nodup_iff.mpr (hsorted.imp ?_)
    rintro key _ hlt rfl
    exact String.lt_irrefl key hlt
  have hleft : (sortMembers members).Pairwise fun a b => a.1 < b.1 :=
    List.pairwise_map.mp (keysSorted_sortMembers members)
  have hright : entries.Pairwise fun a b => a.1 < b.1 := List.pairwise_map.mp hsorted
  refine List.Perm.eq_of_pairwise ?_ hleft hright ((sortMembers_perm hnodup).trans h)
  intro a b _ _ hab hba
  exact absurd hab (String.lt_asymm hba)

theorem Tree.keysSorted_entries {value? : Tree → Option α} {t : Tree}
    (h : t.entries? value? = some entries) : KeysSorted entries := by
  unfold entries? at h
  split at h
  · obtain ⟨members, -, rfl⟩ := Option.map_eq_some_iff.mp h
    exact keysSorted_sortMembers members
  · cases h

end Json

theorem keysSorted_parseEntries {α : Type} {value? : Json.Tree → Option α} {fault : Fault}
    {raw : Option String} {entries : List (String × α)}
    (h : parseEntries value? fault raw = .ok entries) : KeysSorted entries := by
  rw [parseEntries] at h
  split at h
  · cases h
    exact List.Pairwise.nil
  · split at h
    · next hentries =>
      cases h
      obtain ⟨t, -, ht⟩ := Option.bind_eq_some_iff.mp hentries
      exact Json.Tree.keysSorted_entries ht
    · cases h

theorem Calendar.isSome_of_parseBound {raw : Option String} {bound : Option Instant}
    (h : parseBound raw = .ok bound) : bound.isSome = (Text.given raw).isSome := by
  rw [parseBound] at h
  split at h
  · next hraw =>
    cases h
    rw [hraw]
    rfl
  · next literal hraw =>
    rw [hraw]
    cases hinstant : parseInstant literal with
    | error e =>
      rw [hinstant] at h
      cases h
    | ok i =>
      rw [hinstant] at h
      cases h
      rfl

theorem Calendar.Window.isSome_effectiveEnd (w : Window) :
    w.effectiveEnd.isSome = w.finish.isSome := by
  rw [effectiveEnd]
  split
  · next h =>
    rw [h]
    split <;> rfl
  · next h => rw [h]

theorem bind_eq_ok {ε α β : Type} {x : Except ε α} {next : α → Except ε β} {b : β} :
    (x >>= next) = .ok b ↔ ∃ a, x = .ok a ∧ next a = .ok b := by
  constructor
  · intro h
    cases x with
    | error e => cases h
    | ok a => exact ⟨a, rfl, h⟩
  · rintro ⟨a, rfl, h⟩
    exact h

theorem Calendar.Window.parse_eq_ok {start finish : Option String} {w : Window} :
    Window.parse start finish = .ok w ↔
      parseBound start = .ok w.start ∧ parseBound finish = .ok w.finish := by
  simp only [Window.parse, bind_eq_ok]
  constructor
  · rintro ⟨first, hstart, last, hfinish, ⟨⟩⟩
    exact ⟨hstart, hfinish⟩
  · rintro ⟨hstart, hfinish⟩
    exact ⟨_, hstart, _, hfinish, rfl⟩

theorem Parameters.rowFilter_eq_ok {p : Parameters} {rows : RowFilter} :
    p.rowFilter = .ok rows ↔
      Calendar.parseBound p.start = .ok rows.window.start ∧
      Calendar.parseBound p.finish = .ok rows.window.finish ∧
      rows.search = Text.given p.search ∧
      parseFilters p.filters = .ok rows.filters ∧
      parseRanges p.rangeFilters = .ok rows.ranges := by
  simp only [rowFilter, bind_eq_ok, Calendar.Window.parse_eq_ok]
  constructor
  · rintro ⟨window, ⟨hstart, hfinish⟩, filters, hfilters, ranges, hranges, ⟨⟩⟩
    exact ⟨hstart, hfinish, rfl, hfilters, hranges⟩
  · rintro ⟨hstart, hfinish, hsearch, hfilters, hranges⟩
    refine ⟨rows.window, ⟨hstart, hfinish⟩, _, hfilters, _, hranges, ?_⟩
    rw [← hsearch]
    rfl

end QueryConsole
