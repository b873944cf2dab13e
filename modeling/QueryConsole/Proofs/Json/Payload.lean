import QueryConsole.Proofs.Json.Scalars
import QueryConsole.Proofs.Request.Entries
import QueryConsole.Proofs.Text.Trim
import Mathlib.Data.List.Forall2

namespace QueryConsole.Json

section Read

variable {α β : Type} {as : List α} {cs ds : List Char} {ts us : List Token}

def Writes (cs : List Char) (ts : List Token) : Prop :=
  ∀ (rest : List Char) (tokens : List Token), Lexes tokens rest → Lexes (ts ++ tokens) (cs ++ rest)

theorem Writes.append (h : Writes cs ts) (h' : Writes ds us) : Writes (cs ++ ds) (ts ++ us) := by
  intro rest tokens hrest
  rw [List.append_assoc, List.append_assoc]
  exact h _ _ (h' _ _ hrest)

theorem writes_spaces (h : Spaces cs) : Writes cs [] := by
  intro rest tokens hrest
  induction cs with
  | nil => exact hrest
  | cons c cs ih =>
    rw [Spaces, List.forall_mem_cons] at h
    exact (ih h.2).space h.1

theorem writes_lexeme {token : Token} (h : IsLexeme token cs)
    (hends : ∀ rest, token.EndsBefore rest) : Writes cs [token] :=
  fun _ _ hrest => .cons h (hends _) hrest

theorem writes_isText {s : String} (h : IsText s cs) :
    ∃ pieces, pieceText? pieces = some s ∧ Writes cs [.text pieces] := by
  obtain ⟨hspells⟩ := h
  obtain ⟨pieces, hstand, hpieces⟩ := standFor_spells hspells
  refine ⟨pieces, ?_, writes_lexeme (.text hpieces) fun _ => trivial⟩
  rw [pieceText?, pieceChars?_of_standFor hstand, Option.map_some, String.ofList_toList]

section Lists

variable {IsPart : α → List Char → Prop} {Means : α → β → Prop} {part : β → List Token}

theorem writes_listed (h : Listed IsPart as cs)
    (hpart : ∀ a cs, IsPart a cs → ∃ b, Means a b ∧ Writes cs (part b)) :
    ∃ bs, List.Forall₂ Means as bs ∧ Writes cs ([.comma].intercalate (bs.map part)) := by
  induction h with
  | single hbefore ha hafter =>
    obtain ⟨b, hb, hwrites⟩ := hpart _ _ ha
    refine ⟨[b], .cons hb .nil, ?_⟩
    have hspaced := (writes_spaces hbefore).append (hwrites.append (writes_spaces hafter))
    rw [List.nil_append, List.append_nil] at hspaced
    rwa [List.map_singleton, List.intercalate_singleton]
  | cons hbefore ha hafter hlisted ih =>
    obtain ⟨b, hb, hwrites⟩ := hpart _ _ ha
    obtain ⟨bs, hbs, hrest⟩ := ih
    have hne : bs.map part ≠ [] := by
      intro hnil
      rw [List.map_eq_nil_iff] at hnil
      subst hnil
      cases hbs
      cases hlisted
    have hcomma : Writes [','] [.comma] := writes_lexeme .comma fun _ => trivial
    refine ⟨b :: bs, .cons hb hbs, ?_⟩
    rw [List.map_cons, List.intercalate_cons_of_ne_nil hne, List.append_assoc]
    exact (writes_spaces hbefore).append
      (hwrites.append ((writes_spaces hafter).append (hcomma.append hrest)))

theorem writes_enclosed {opening closing : Char} {opener closer : Token}
    (hopening : Writes [opening] [opener]) (hclosing : Writes [closing] [closer])
    (h : Enclosed opening closing IsPart as cs)
    (hpart : ∀ a cs, IsPart a cs → ∃ b, Means a b ∧ Writes cs (part b)) :
    ∃ bs, List.Forall₂ Means as bs ∧
      Writes cs (opener :: ([.comma].intercalate (bs.map part) ++ [closer])) := by
  cases h with
  | empty h => exact ⟨[], .nil, hopening.append ((writes_spaces h).append hclosing)⟩
  | listed h =>
    obtain ⟨bs, hbs, hwrites⟩ := writes_listed h hpart
    exact ⟨bs, hbs, hopening.append (hwrites.append hclosing)⟩

end Lists

theorem mapM_eq_some {f : β → Option α} {bs : List β} :
    bs.mapM f = some as ↔ List.Forall₂ (fun b a => f b = some a) bs as := by
  constructor
  · intro h
    induction bs generalizing as with
    | nil =>
      cases h
      exact .nil
    | cons b bs ih =>
      rw [List.mapM_cons] at h
      obtain ⟨a, hb, h⟩ := Option.bind_eq_some_iff.mp h
      obtain ⟨as, hbs, h⟩ := Option.bind_eq_some_iff.mp h
      cases h
      exact .cons hb (ih hbs)
  · intro h
    induction h with
    | nil => rfl
    | cons hb _ ih =>
      rw [List.mapM_cons, hb, ih]
      rfl

theorem writes_isTexts {items : List String} (h : IsTexts items cs) :
    ∃ t : Tree, t.filterTexts? = some items ∧ Writes cs t.tokens := by
  have hitem (s : String) (cs : List Char) (hs : IsText s cs) :
      ∃ t, Tree.filterText? t = some s ∧ Writes cs t.tokens := by
    obtain ⟨pieces, hpieces, hwrites⟩ := writes_isText hs
    refine ⟨.text pieces, hpieces, ?_⟩
    rwa [Tree.tokens]
  obtain ⟨ts, hts, hwrites⟩ := writes_enclosed (writes_lexeme .openArray fun _ => trivial)
    (writes_lexeme .closeArray fun _ => trivial) h hitem
  refine ⟨.array ts true, mapM_eq_some.mpr hts.flip, ?_⟩
  rwa [Tree.tokens_array]

theorem writes_isMember {m : String × List String} (h : IsMember m cs) :
    ∃ member : List Piece × Tree,
      ((pieceText? member.1).bind fun key => member.2.filterTexts?.map fun value => (key, value)) =
        some m ∧ Writes cs (memberTokens member) := by
  cases h with
  | colon hkey hbefore hafter hvalue =>
    obtain ⟨pieces, hpieces, hwritesKey⟩ := writes_isText hkey
    obtain ⟨t, ht, hwritesValue⟩ := writes_isTexts hvalue
    have hcolon : Writes [':'] [.colon] := writes_lexeme .colon fun _ => trivial
    refine ⟨(pieces, t), ?_, ?_⟩
    · simp only [hpieces, ht, Option.bind_some, Option.map_some]
    · exact hwritesKey.append ((writes_spaces hbefore).append
        (hcolon.append ((writes_spaces hafter).append hwritesValue)))

theorem writes_isMembers {members : List (String × List String)} (h : IsMembers members cs) :
    ∃ t : Tree, t.entries? Tree.filterTexts? = some (sortMembers members) ∧ Writes cs t.tokens := by
  obtain ⟨ts, hts, hwrites⟩ := writes_enclosed (writes_lexeme .openObject fun _ => trivial)
    (writes_lexeme .closeObject fun _ => trivial) h fun _ _ => writes_isMember
  refine ⟨.object ts true, ?_, ?_⟩
  · rw [Tree.entries?, mapM_eq_some.mpr hts.flip]
    rfl
  · rwa [Tree.tokens_object]

theorem Writes.wholeTree? {t : Tree} {s : String} (h : Writes s.toList t.tokens) :
    wholeTree? s = some t := by
  have hlexes := h [] [] (.done spaces_nil)
  rw [List.append_nil, List.append_nil] at hlexes
  exact wholeTree?_eq_some.mpr hlexes

end Read

section Payload

variable {cs : List Char}

theorem all_isBlank (h : Spaces cs) : cs.all Text.isBlank = true := by
  have hspace : [' ', '\t', '\n', '\r'].all Text.isBlank = true := by decide
  rw [List.all_eq_true]
  intro c hc
  have hc := h c hc
  simp only [isSpace, Bool.or_eq_true, decide_eq_true_eq, or_assoc] at hc
  exact List.all_eq_true.mp hspace c (by simpa using hc)

theorem exists_isMembers_eq {members : List (String × List String)} (h : IsMembers members cs) :
    ∃ inner, cs = '\x7b' :: (inner ++ ['\x7d']) := by
  cases h with
  | empty => exact ⟨_, rfl⟩
  | listed => exact ⟨_, rfl⟩

theorem parseFilters_isObjectText {members : List (String × List String)} {filters : ValueFilters}
    {s : String} (h : IsObjectText members s) (hperm : members.Perm filters)
    (hsorted : KeysSorted filters) : parseFilters (some s) = .ok filters := by
  cases h with
  | @spaced before object after hs hbefore hafter h =>
    obtain ⟨inner, hobject⟩ := exists_isMembers_eq h
    have htrim : (Text.trim s).toList = object := by
      rw [Text.trim, String.toList_ofList, hs, hobject]
      exact Text.trimChars_between (all_isBlank hbefore) (all_isBlank hafter) (by decide)
        (by decide)
    have hgiven : Text.given (some s) = some (Text.trim s) := by
      have hblank : Text.isBlankText s = false := by
        rw [Text.isBlankText, hs, hobject]
        simp [show Text.isBlank '\x7b' = false by decide]
      rw [Text.given, hblank]
      rfl
    obtain ⟨t, ht, hwrites⟩ := writes_isMembers h
    rw [← htrim] at hwrites
    simp only [parseFilters, parseEntries, hgiven, hwrites.wholeTree?, Option.bind_some, ht,
      sortMembers_eq hsorted hperm]

end Payload

end QueryConsole.Json
