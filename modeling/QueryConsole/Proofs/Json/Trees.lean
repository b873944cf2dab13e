import QueryConsole.Proofs.Json.Lexemes

/-! The grammar of JSON over tokens.  The tree of a text is the one whose tokens the text is made
of; any other text has none. -/

namespace QueryConsole.Json

section Grammar

def Tree.tokens : Tree → List Token
  | .null => [.null]
  | .bool b => [.bool b]
  | .number n => [.number n]
  | .text pieces => [.text pieces]
  | .array items true =>
    .openArray :: ([.comma].intercalate (items.map fun item => item.tokens) ++ [.closeArray])
  | .object members true =>
    .openObject ::
      ([.comma].intercalate (members.map fun member => .text member.1 :: .colon :: member.2.tokens)
        ++ [.closeObject])
  | _ => [.broken]
decreasing_by
  · rename_i hitem
    have hsize := List.sizeOf_lt_of_mem hitem
    simp only [Tree.array.sizeOf_spec]
    omega
  · rename_i hmember
    have hsize := List.sizeOf_lt_of_mem hmember
    obtain ⟨key, t⟩ := member
    simp only [Tree.object.sizeOf_spec, Prod.mk.sizeOf_spec] at hsize ⊢
    omega

def memberTokens (member : List Piece × Tree) : List Token :=
  .text member.1 :: .colon :: member.2.tokens

theorem Tree.tokens_object (members : List (List Piece × Tree)) :
    (Tree.object members true).tokens =
      .openObject :: ([.comma].intercalate (members.map memberTokens) ++ [.closeObject]) := by
  rw [Tree.tokens]
  rfl

theorem Tree.tokens_array (items : List Tree) :
    (Tree.array items true).tokens =
      .openArray :: ([.comma].intercalate (items.map Tree.tokens) ++ [.closeArray]) := by
  rw [Tree.tokens]

def separated (parts : List (List Token)) : List Token :=
  parts.flatMap fun part => part ++ [.comma]

theorem intercalate_concat (parts : List (List Token)) (part : List Token) :
    [.comma].intercalate (parts ++ [part]) = separated parts ++ part := by
  induction parts with
  | nil => simp [separated]
  | cons first parts ih =>
    rw [List.cons_append, List.intercalate_cons_of_ne_nil (List.concat_ne_nil _ _), ih, separated,
      separated, List.flatMap_cons, List.append_assoc _ _ part]

end Grammar

section Read

theorem run_cons (frames : List Frame) (phase : Phase) (token : Token) (tokens : List Token) :
    (Progress.reading frames phase).run (token :: tokens) =
      (stepPhase frames phase token).run tokens := by
  rw [Progress.run]

theorem run_done (t : Tree) (tokens : List Token) :
    (Progress.done t).run tokens = (.done t, tokens) := by
  cases tokens <;> rfl

theorem run_failed (t : Tree) (tokens : List Token) :
    (Progress.failed t).run tokens = (.failed t, tokens) := by
  cases tokens <;> rfl

def beforeItem (items : List Tree) : List Token :=
  .openArray :: separated (items.reverse.map Tree.tokens)

def beforeMember (members : List (List Piece × Tree)) : List Token :=
  .openObject :: separated (members.reverse.map memberTokens)

def Frame.tokens : Frame → List Token
  | .array items => beforeItem items
  | .object members key => beforeMember members ++ [.text key, .colon]

def framesTokens (frames : List Frame) : List Token :=
  frames.reverse.flatMap Frame.tokens

inductive Phase.Holds : Phase → List Token → Prop
  | value : Holds .value []
  | firstItem : Holds .firstItem [.openArray]
  | afterItem (t : Tree) (items : List Tree) :
    Holds (.afterItem (t :: items)) (beforeItem items ++ t.tokens)
  | memberKey (members : List (List Piece × Tree)) :
    Holds (.memberKey members) (beforeMember members)
  | colon (members : List (List Piece × Tree)) (key : List Piece) :
    Holds (.colon members key) (beforeMember members ++ [.text key])
  | afterMember (member : List Piece × Tree) (members : List (List Piece × Tree)) :
    Holds (.afterMember (member :: members)) (beforeMember members ++ memberTokens member)

inductive Progress.Holds : Progress → List Token → Prop
  | reading (frames : List Frame) {phase : Phase} {read : List Token} (h : phase.Holds read) :
    Holds (.reading frames phase) (framesTokens frames ++ read)
  | done (t : Tree) : Holds (.done t) t.tokens

theorem framesTokens_cons (frame : Frame) (frames : List Frame) :
    framesTokens (frame :: frames) = framesTokens frames ++ frame.tokens := by
  simp [framesTokens]

theorem beforeItem_cons (t : Tree) (items : List Tree) :
    beforeItem (t :: items) = beforeItem items ++ t.tokens ++ [.comma] := by
  simp [beforeItem, separated]

theorem beforeMember_cons (member : List Piece × Tree) (members : List (List Piece × Tree)) :
    beforeMember (member :: members) = beforeMember members ++ memberTokens member ++ [.comma] := by
  simp [beforeMember, separated]

theorem tokens_closed_array (t : Tree) (items : List Tree) :
    (Tree.array (t :: items).reverse true).tokens =
      beforeItem items ++ t.tokens ++ [.closeArray] := by
  rw [Tree.tokens_array, List.reverse_cons, List.map_append, List.map_singleton,
    intercalate_concat, beforeItem]
  rfl

theorem tokens_closed_object (member : List Piece × Tree)
    (members : List (List Piece × Tree)) :
    (Tree.object (member :: members).reverse true).tokens =
      beforeMember members ++ memberTokens member ++ [.closeObject] := by
  rw [Tree.tokens_object, List.reverse_cons, List.map_append, List.map_singleton,
    intercalate_concat, beforeMember]
  rfl

theorem holds_complete (t : Tree) (frames : List Frame) :
    (complete t frames).Holds (framesTokens frames ++ t.tokens) := by
  cases frames with
  | nil => exact .done t
  | cons frame frames =>
    rw [framesTokens_cons, List.append_assoc]
    cases frame with
    | array items => exact .reading frames (.afterItem t items)
    | object members key =>
      rw [Frame.tokens, List.append_assoc]
      exact .reading frames (.afterMember (key, t) members)

/-- What has been read, unless reading has failed. -/
def Progress.Reads (p : Progress) (read : List Token) : Prop :=
  p.Holds read ∨ ∃ t, p = .failed t

theorem reads_scalar (t : Tree) {token : Token} (h : t.tokens = [token]) (frames : List Frame) :
    (complete t frames).Reads (framesTokens frames ++ [token]) :=
  .inl (h ▸ holds_complete t frames)

theorem reads_giveUp (frames : List Frame) (phase : Phase) (read : List Token) :
    (giveUp frames phase).Reads read :=
  .inr ⟨_, rfl⟩

theorem reads_stepValue (frames : List Frame) (token : Token) :
    (stepValue frames token).Reads (framesTokens frames ++ [token]) := by
  cases token with
  | null => exact reads_scalar .null (by rw [Tree.tokens]) frames
  | bool b => exact reads_scalar (.bool b) (by rw [Tree.tokens]) frames
  | number n => exact reads_scalar (.number n) (by rw [Tree.tokens]) frames
  | text pieces => exact reads_scalar (.text pieces) (by rw [Tree.tokens]) frames
  | openArray => exact .inl (.reading frames .firstItem)
  | openObject => exact .inl (.reading frames (.memberKey []))
  | closeArray | closeObject | comma | colon | broken => exact reads_giveUp _ _ _

theorem Phase.Holds.stepPhase {phase : Phase} {read : List Token} (h : phase.Holds read)
    (frames : List Frame) (token : Token) :
    (stepPhase frames phase token).Reads (framesTokens frames ++ read ++ [token]) := by
  cases h with
  | value =>
    rw [List.append_nil]
    exact reads_stepValue frames token
  | firstItem =>
    have hitem := reads_stepValue (.array [] :: frames) token
    rw [framesTokens_cons] at hitem
    cases token with
    | closeArray =>
      rw [List.append_assoc]
      have hempty := holds_complete (.array [] true) frames
      rw [Tree.tokens_array] at hempty
      exact .inl hempty
    | _ => exact hitem
  | afterItem t items =>
    cases token with
    | comma =>
      have hnext := Progress.Holds.reading (.array (t :: items) :: frames) .value
      rw [framesTokens_cons, Frame.tokens, beforeItem_cons, List.append_nil, ← List.append_assoc]
        at hnext
      exact .inl hnext
    | closeArray =>
      have hclosed := holds_complete (.array (t :: items).reverse true) frames
      rw [tokens_closed_array, ← List.append_assoc] at hclosed
      exact .inl hclosed
    | _ => exact reads_giveUp _ _ _
  | memberKey members =>
    have hkey (key : List Piece) :
        Json.stepPhase frames (.memberKey members) (.text key) =
          .reading frames (.colon members key) := by
      cases members <;> rfl
    cases token with
    | text key =>
      rw [hkey, List.append_assoc]
      exact .inl (.reading frames (.colon members key))
    | closeObject =>
      cases members with
      | nil =>
        rw [List.append_assoc]
        have hempty := holds_complete (.object [] true) frames
        rw [Tree.tokens_object] at hempty
        exact .inl hempty
      | cons => exact reads_giveUp _ _ _
    | _ => cases members <;> exact reads_giveUp _ _ _
  | colon members key =>
    cases token with
    | colon =>
      have hvalue := Progress.Holds.reading (.object members key :: frames) .value
      rw [framesTokens_cons, Frame.tokens, List.append_nil] at hvalue
      rw [List.append_assoc, List.append_assoc]
      exact .inl hvalue
    | _ => exact reads_giveUp _ _ _
  | afterMember member members =>
    cases token with
    | comma =>
      have hnext := Progress.Holds.reading frames (.memberKey (member :: members))
      rw [beforeMember_cons, ← List.append_assoc] at hnext
      exact .inl hnext
    | closeObject =>
      have hclosed := holds_complete (.object (member :: members).reverse true) frames
      rw [tokens_closed_object, ← List.append_assoc] at hclosed
      exact .inl hclosed
    | _ => exact reads_giveUp _ _ _

theorem stepPhase_broken (frames : List Frame) (phase : Phase) :
    ∃ t, stepPhase frames phase .broken = .failed t := by
  cases phase with
  | memberKey members => cases members <;> exact ⟨_, rfl⟩
  | _ => exact ⟨_, rfl⟩

theorem Progress.Holds.run {p : Progress} {read ts rest : List Token} {t : Tree} (h : p.Holds read)
    (hrun : p.run ts = (.done t, rest)) :
    ∃ more, ts = more ++ rest ∧ t.tokens = read ++ more ∧ .broken ∉ more := by
  induction ts generalizing p read with
  | nil =>
    cases h with
    | reading => cases hrun
    | done t =>
      cases hrun
      exact ⟨[], rfl, (List.append_nil _).symm, List.not_mem_nil⟩
  | cons token ts ih =>
    cases h with
    | @reading frames phase read h =>
      rw [run_cons] at hrun
      have hbroken : token ≠ .broken := by
        rintro rfl
        obtain ⟨t', hfailed⟩ := stepPhase_broken frames phase
        rw [hfailed, run_failed] at hrun
        cases hrun
      obtain hnext | ⟨t', hfailed⟩ := h.stepPhase frames token
      · obtain ⟨more, hts, htokens, hmore⟩ := ih hnext hrun
        refine ⟨token :: more, ?_, ?_, ?_⟩
        · rw [hts, List.cons_append]
        · rw [htokens, List.append_assoc, List.singleton_append]
        · rw [List.mem_cons, not_or]
          exact ⟨hbroken.symm, hmore⟩
      · rw [hfailed, run_failed] at hrun
        cases hrun
    | done t =>
      rw [run_done] at hrun
      cases hrun
      exact ⟨[], rfl, (List.append_nil _).symm, List.not_mem_nil⟩

end Read

section Write

theorem mem_intercalate {parts : List (List Token)} {part : List Token} {token : Token}
    (hpart : part ∈ parts) (h : token ∈ part) : token ∈ [Token.comma].intercalate parts := by
  induction parts with
  | nil => cases hpart
  | cons first parts ih =>
    cases parts with
    | nil =>
      rw [List.mem_singleton] at hpart
      rwa [List.intercalate_singleton, ← hpart]
    | cons second parts =>
      rw [List.intercalate_cons_cons, List.mem_append]
      cases hpart with
      | head => exact .inl (List.mem_append_left _ h)
      | tail _ hpart => exact .inr (ih hpart)

theorem mem_tokens_array {items : List Tree} {item : Tree} {token : Token} (hitem : item ∈ items)
    (h : token ∈ item.tokens) : token ∈ (Tree.array items true).tokens := by
  rw [Tree.tokens_array]
  exact .tail _ (List.mem_append_left _ (mem_intercalate (List.mem_map_of_mem hitem) h))

theorem mem_tokens_object {members : List (List Piece × Tree)} {member : List Piece × Tree}
    {token : Token} (hmember : member ∈ members) (h : token ∈ memberTokens member) :
    token ∈ (Tree.object members true).tokens := by
  rw [Tree.tokens_object]
  exact .tail _ (List.mem_append_left _ (mem_intercalate (List.mem_map_of_mem hmember) h))

def Tree.IsRead (t : Tree) : Prop :=
  ∀ frames rest, (Progress.reading frames .value).run (t.tokens ++ rest) =
    (complete t frames).run rest

theorem run_items {items : List Tree} (hne : items ≠ []) (h : ∀ item ∈ items, item.IsRead)
    (done : List Tree) (frames : List Frame) (rest : List Token) :
    (Progress.reading (.array done :: frames) .value).run
        ([.comma].intercalate (items.map Tree.tokens) ++ .closeArray :: rest) =
      (complete (.array (done.reverse ++ items) true) frames).run rest := by
  induction items generalizing done with
  | nil => exact absurd rfl hne
  | cons item items ih =>
    rw [List.forall_mem_cons] at h
    cases items with
    | nil =>
      rw [List.map_singleton, List.intercalate_singleton, h.1, complete, run_cons, stepPhase,
        List.reverse_cons]
    | cons second items =>
      rw [List.map_cons, List.map_cons, List.intercalate_cons_cons, ← List.map_cons,
        List.append_assoc, List.append_assoc, h.1, List.singleton_append, complete, run_cons,
        stepPhase, ih (List.cons_ne_nil _ _) h.2, List.reverse_cons, List.append_assoc,
        List.singleton_append]

theorem run_members {members : List (List Piece × Tree)} (hne : members ≠ [])
    (h : ∀ member ∈ members, member.2.IsRead) (done : List (List Piece × Tree))
    (frames : List Frame) (rest : List Token) :
    (Progress.reading frames (.memberKey done)).run
        ([.comma].intercalate (members.map memberTokens) ++ .closeObject :: rest) =
      (complete (.object (done.reverse ++ members) true) frames).run rest := by
  have hmember (member : List Piece × Tree) (h : member.2.IsRead)
      (done : List (List Piece × Tree)) (rest : List Token) :
      (Progress.reading frames (.memberKey done)).run (memberTokens member ++ rest) =
        (Progress.reading frames (.afterMember (member :: done))).run rest := by
    have hkey : stepPhase frames (.memberKey done) (.text member.1) =
        .reading frames (.colon done member.1) := by
      cases done <;> rfl
    rw [memberTokens, List.cons_append, List.cons_append, run_cons, hkey, run_cons, stepPhase, h,
      complete]
  induction members generalizing done with
  | nil => exact absurd rfl hne
  | cons member members ih =>
    rw [List.forall_mem_cons] at h
    cases members with
    | nil =>
      rw [List.map_singleton, List.intercalate_singleton, hmember member h.1, run_cons, stepPhase,
        List.reverse_cons]
    | cons second members =>
      rw [List.map_cons, List.map_cons, List.intercalate_cons_cons, ← List.map_cons,
        List.append_assoc, List.append_assoc, hmember member h.1, List.singleton_append, run_cons,
        stepPhase, ih (List.cons_ne_nil _ _) h.2, List.reverse_cons, List.append_assoc,
        List.singleton_append]

theorem run_firstItem {t : Tree} {tokens : List Token}
    (h : ((Progress.reading [.array []] .value).run tokens).1 = .done t) (frames : List Frame) :
    (Progress.reading frames .firstItem).run tokens =
      (Progress.reading (.array [] :: frames) .value).run tokens := by
  cases tokens with
  | nil => cases h
  | cons token tokens =>
    rw [run_cons, run_cons]
    cases token with
    | closeArray =>
      rw [run_cons, stepPhase, stepValue, giveUp, run_failed] at h
      · cases h
      all_goals nofun
    | _ => rfl

theorem Tree.isRead (t : Tree) (h : .broken ∉ t.tokens) : t.IsRead := by
  have hscalar {t : Tree} {token : Token} (ht : t.tokens = [token])
      (hstep : ∀ frames, stepValue frames token = complete t frames) : t.IsRead := by
    intro frames rest
    rw [ht, List.singleton_append, run_cons, stepPhase, hstep]
  induction t using Tree.tokens.induct with
  | case1 => exact hscalar (by rw [Tree.tokens]) fun _ => rfl
  | case2 b => exact hscalar (by rw [Tree.tokens]) fun _ => rfl
  | case3 n => exact hscalar (by rw [Tree.tokens]) fun _ => rfl
  | case4 pieces => exact hscalar (by rw [Tree.tokens]) fun _ => rfl
  | case5 items ih =>
    have hitems : ∀ item ∈ items, item.IsRead :=
      fun item hitem => ih item hitem fun hbroken => h (mem_tokens_array hitem hbroken)
    intro frames rest
    rw [Tree.tokens_array, List.cons_append, List.append_assoc, List.singleton_append, run_cons]
    change (Progress.reading frames .firstItem).run _ = _
    cases items with
    | nil => exact run_cons frames .firstItem .closeArray rest
    | cons item items =>
      have hrun (frames : List Frame) := run_items (List.cons_ne_nil _ _) hitems [] frames rest
      have htop : ((Progress.reading [.array []] .value).run
          ([.comma].intercalate ((item :: items).map Tree.tokens) ++ .closeArray :: rest)).1 =
            .done (.array (item :: items) true) := by
        rw [hrun, complete, run_done]
        rfl
      rw [run_firstItem htop, hrun]
      rfl
  | case6 members ih =>
    have hmembers : ∀ member ∈ members, member.2.IsRead := by
      intro member hmember
      refine ih member hmember fun hbroken => h (mem_tokens_object hmember ?_)
      exact .tail _ (.tail _ hbroken)
    intro frames rest
    rw [Tree.tokens_object, List.cons_append, List.append_assoc, List.singleton_append, run_cons]
    change (Progress.reading frames (.memberKey [])).run _ = _
    cases members with
    | nil => exact run_cons frames (.memberKey []) .closeObject rest
    | cons member members =>
      rw [run_members (List.cons_ne_nil _ _) hmembers]
      rfl
  | case7 t hnull hbool hnumber htext harray hobject =>
    rw [Tree.tokens] at h
    · exact absurd List.mem_cons_self h
    all_goals assumption

end Write

theorem wholeTree?_eq_some {s : String} {t : Tree} :
    wholeTree? s = some t ↔ Lexes t.tokens s.toList := by
  rw [← tokens_eq_iff, wholeTree?]
  constructor
  · intro h
    split at h
    · next hrun =>
      cases h
      obtain ⟨more, hmore, htokens, hbroken⟩ :=
        (Progress.Holds.reading [] .value).run hrun
      rw [List.append_nil] at hmore
      change t.tokens = more at htokens
      rw [hmore, htokens]
      exact ⟨rfl, hbroken⟩
    · cases h
  · rintro ⟨htokens, hbroken⟩
    have hrun := t.isRead hbroken [] []
    rw [List.append_nil] at hrun
    rw [htokens, hrun, complete, run_done]

end QueryConsole.Json
