import QueryConsole.Proofs.Statement.Decoding
import QueryConsole.Proofs.Statement.Placeholders
import QueryConsole.Proofs.Store.Endpoint

/-! A request tells the statement that it was sent for.  The types of the bindings are not sent, but
they stand in the placeholders of the text, and a type and a written value tell the value. -/

namespace QueryConsole

theorem ValueType.name_injective {t t' : ValueType} (h : t.name = t'.name) : t = t' := by
  cases t <;> cases t' <;> first | rfl | exact absurd h (by decide)

theorem Binding.eq_of_group_eq {b b' : Binding} (hname : b.name = b'.name)
    (hgroup : b.group = b'.group) (hencode : b.value.encode = b'.value.encode) : b = b' := by
  obtain ⟨name, v⟩ := b
  obtain ⟨name', v'⟩ := b'
  obtain rfl : name = name' := hname
  have htype : v.type = v'.type := by
    simp only [Binding.group, ← String.toList_inj, String.toList_append,
      List.append_cancel_left_eq] at hgroup
    exact ValueType.name_injective (String.toList_inj.mp hgroup)
  rw [Value.encode_injective htype hencode]

theorem Bindings.eq_of_groups_eq {b b' : Bindings}
    (hpairs : b.toList.map Store.Endpoint.parameterPair =
      b'.toList.map Store.Endpoint.parameterPair)
    (hgroups : b.toList.map Binding.group = b'.toList.map Binding.group) : b = b' := by
  obtain ⟨bindings⟩ := b
  obtain ⟨bindings'⟩ := b'
  rw [Bindings.mk.injEq]
  simp only at hpairs hgroups
  induction bindings generalizing bindings' with
  | nil =>
    cases bindings' with
    | nil => rfl
    | cons => cases hgroups
  | cons x bindings ih =>
    cases bindings' with
    | nil => cases hgroups
    | cons y bindings' =>
      rw [List.map_cons, List.map_cons, List.cons.injEq] at hpairs hgroups
      obtain ⟨hpair, hpairs⟩ := hpairs
      obtain ⟨hgroup, hgroups⟩ := hgroups
      simp only [Store.Endpoint.parameterPair, Prod.mk.injEq, ← String.toList_inj,
        String.toList_append, List.append_cancel_left_eq] at hpair
      rw [Binding.eq_of_group_eq (String.toList_inj.mp hpair.1) hgroup
        (String.toList_inj.mp hpair.2), ih _ hpairs hgroups]

theorem Statement.eq_of_pairs_eq {d d' : Dataset} {pattern pattern' : ReadPattern}
    {p p' : Parameters} {limits limits' : Limits} {s s' : Statement}
    (h : compile d pattern p limits = .ok s) (h' : compile d' pattern' p' limits' = .ok s')
    (htext : s.text = s'.text)
    (hpairs : s.bindings.toList.map Store.Endpoint.parameterPair =
      s'.bindings.toList.map Store.Endpoint.parameterPair) : s = s' := by
  obtain ⟨groups, hgroups, hbindings⟩ := groups_of_compile h
  obtain ⟨groups', hgroups', hbindings'⟩ := groups_of_compile h'
  rw [htext, hgroups'] at hgroups
  obtain rfl := Option.some.inj hgroups
  have hbindings := Bindings.eq_of_groups_eq hpairs (hbindings.symm.trans hbindings')
  cases s
  cases s'
  rw [Statement.mk.injEq]
  exact ⟨htext, hbindings⟩

namespace Store.Endpoint

variable {e : Endpoint}

/-- At a plain address every statement is sent, in one request that has its text as the body and its
bindings, in order, in the query string.  No two calls with compiled statements are sent in the same
request. -/
theorem request?_determines (h : e.IsPlain) (hcredentials : e.HasSendableCredentials) :
    (∀ s : Statement, (∃ sent, e.Sends (.rows s) "JSONEachRow" sent) ∧
      ∃ sent, e.Sends (.text s) "TabSeparatedRaw" sent) ∧
    ∀ (e' : Endpoint) (c c' : Call) (d d' : Dataset) (pattern pattern' : ReadPattern)
      (p p' : Parameters) (limits limits' : Limits), e'.IsPlain → e'.HasSendableCredentials →
      compile d pattern p limits = .ok c.statement →
      compile d' pattern' p' limits' = .ok c'.statement →
      e.request? c = e'.request? c' → c = c' := by
  refine ⟨fun s => ⟨sends_of_isPlain h hcredentials (.rows s),
    sends_of_isPlain h hcredentials (.text s)⟩, ?_⟩
  intro e' c c' d d' pattern pattern' p p' limits limits' h' hcredentials' hcompile hcompile' heq
  obtain ⟨sent, hsent⟩ := sends_of_isPlain h hcredentials c
  obtain ⟨sent', hsent'⟩ := sends_of_isPlain h' hcredentials' c'
  rw [hsent.request, hsent'.request] at heq
  obtain rfl := Option.some.inj heq
  have hquery := hsent.query.symm.trans hsent'.query
  rw [List.cons.injEq, List.cons.injEq, Prod.mk.injEq, Prod.mk.injEq] at hquery
  obtain ⟨-, ⟨-, hformat⟩, hpairs⟩ := hquery
  have htext : c.statement.text = c'.statement.text :=
    Text.Utf8.encode_injective (hsent.body.symm.trans hsent'.body)
  have hstatement : c.statement = c'.statement :=
    Statement.eq_of_pairs_eq hcompile hcompile' htext hpairs
  have hformats : "JSONEachRow" ≠ "TabSeparatedRaw" := by decide
  cases c with
  | rows s =>
    cases c' with
    | rows s' => exact congrArg Call.rows hstatement
    | text s' => exact absurd hformat hformats
  | text s =>
    cases c' with
    | rows s' => exact absurd hformat.symm hformats
    | text s' => exact congrArg Call.text hstatement

theorem request?_determines_samePage :
    ∃ s s' : Statement,
      compile .parts .list { limit := some "10" } {} = .ok s ∧
      compile .parts .list { limit := some " +10 ", offset := some "\t" } {} = .ok s' ∧
      marked.request? (.rows s) = marked.request? (.rows s') ∧
      (∃ sent, marked.Sends (.rows s) "JSONEachRow" sent) ∧ Call.rows s = .rows s' := by
  have hcompile : ∃ s, compile .parts .list { limit := some "10" } {} = .ok s ∧
      compile .parts .list { limit := some " +10 ", offset := some "\t" } {} = .ok s := by
    refine ⟨⟨"SELECT *\nFROM system.parts\nORDER BY modification_time DESC\n" ++
      "LIMIT \x7blimit:UInt64\x7d OFFSET \x7boffset:UInt64\x7d",
      ⟨[⟨"limit", .uint64 10⟩, ⟨"offset", .uint64 0⟩]⟩⟩, ?_⟩
    decide +kernel
  obtain ⟨s, h, h'⟩ := hcompile
  obtain ⟨hsends, hinjective⟩ := request?_determines isPlain_marked hasSendableCredentials_marked
  exact ⟨s, s, h, h', rfl, (hsends s).1,
    hinjective marked (.rows s) (.rows s) _ _ _ _ _ _ _ _ isPlain_marked
      hasSendableCredentials_marked h h' rfl⟩

end Store.Endpoint

end QueryConsole
