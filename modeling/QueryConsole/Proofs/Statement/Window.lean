import QueryConsole.Proofs.Calendar.StoreLiteral
import QueryConsole.Proofs.Calendar.Widening
import QueryConsole.Proofs.Request.Entries
import QueryConsole.Proofs.Statement.Demands

namespace QueryConsole

open Calendar (Instant Window readInstant IsStoreLiteral)

variable {d : Dataset} {pattern : ReadPattern} {p : Parameters} {limits : Limits} {s : Statement}

/-- The statement has both bounds, and the times that they read as lie on both sides. -/
def Statement.Spans (s : Statement) (t : Instant) : Prop :=
  ∃ first last a b, s.bindings.get? "start" = some (.dateTime first) ∧
    s.bindings.get? "end" = some (.dateTime last) ∧
    readInstant first = some a ∧ readInstant last = some b ∧ a ≤ t ∧ t ≤ b

/-- The statement binds the bounds of the window, the end widened if need be. -/
structure Statement.IsOver (s : Statement) (w : Window) : Prop where
  start : ∀ t, w.start = some t → s.bindings.get? "start" = some (.dateTime t.text)
  finish : ∀ t, w.effectiveEnd = some t → s.bindings.get? "end" = some (.dateTime t.text)

theorem Parameters.parse_window {rows : RowFilter} (h : p.rowFilter = .ok rows) :
    Window.parse p.start p.finish = .ok rows.window := by
  obtain ⟨hstart, hfinish, -⟩ := rowFilter_eq_ok.mp h
  exact Window.parse_eq_ok.mpr ⟨hstart, hfinish⟩

theorem compile_isOver (h : compile d pattern p limits = .ok s) {w : Window}
    (hw : Window.parse p.start p.finish = .ok w) (htime : d.table.timeColumn ≠ none) :
    s.IsOver w := by
  obtain ⟨rows, page, shape, hrows, -, -, rfl⟩ := compile_eq_ok h
  obtain ⟨column, hcolumn⟩ := Option.ne_none_iff_exists'.mp htime
  cases (Parameters.parse_window hrows).symm.trans hw
  constructor
  · intro t ht
    refine get?_demand (d := .notBefore column t) (Table.mem_demands.mpr (.inl ?_)) rfl
    exact Table.mem_windowDemands.mpr ⟨column, hcolumn, .inl ⟨t, ht, rfl⟩⟩
  · intro t ht
    refine get?_demand (d := .notAfter column t) (Table.mem_demands.mpr (.inl ?_)) rfl
    exact Table.mem_windowDemands.mpr ⟨column, hcolumn, .inr ⟨t, ht, rfl⟩⟩

theorem Statement.IsOver.spans_iff {w : Window} {t e i : Instant} (h : s.IsOver w)
    (hstart : w.start = some t) (hend : w.effectiveEnd = some e) (ht : t.Representable)
    (he : e.Representable) : s.Spans i ↔ t.wholeSecond ≤ i ∧ i ≤ e.wholeSecond := by
  have hfirst := h.start t hstart
  have hlast := h.finish e hend
  constructor
  · rintro ⟨first, last, a, b, hfirst', hlast', ha, hb, hbounds⟩
    have hstartText : t.text = first :=
      Value.dateTime.inj (Option.some.inj (hfirst.symm.trans hfirst'))
    have hendText : e.text = last :=
      Value.dateTime.inj (Option.some.inj (hlast.symm.trans hlast'))
    subst hstartText hendText
    cases (Calendar.readInstant_text ht).symm.trans ha
    cases (Calendar.readInstant_text he).symm.trans hb
    exact hbounds
  · rintro hbounds
    exact ⟨_, _, _, _, hfirst, hlast, Calendar.readInstant_text ht, Calendar.readInstant_text he,
      hbounds⟩

/-- The end of a window stays, or is second 59 of its minute if the window selects one instant.
The start is then not after it as they are written, and the statement spans the start, unless that
is in a leap second: second 60 is after second 59, and the statement spans nothing. -/
theorem effectiveEnd_spans {t u : Instant}
    (h : Window.parse p.start p.finish = .ok ⟨some t, some u⟩) (hle : t ≤ u) :
    ∃ e, Window.effectiveEnd ⟨some t, some u⟩ = some e ∧
      (t ≠ u → e = u) ∧
      (t = u → e.date = u.date ∧ e.hour = u.hour ∧ e.minute = u.minute ∧ e.clockSecond = 59 ∧
        e.nanos = 0) ∧
      (∃ a b, readInstant t.text = some a ∧ readInstant e.text = some b ∧
        (a ≤ b ↔ ¬ (t = u ∧ t.InLeapSecond))) ∧
      ∀ d pattern limits s, compile d pattern p limits = .ok s → d.table.timeColumn ≠ none →
        (¬ (t = u ∧ t.InLeapSecond) → s.Spans t.wholeSecond) ∧
        (t = u ∧ t.InLeapSecond → ∀ i, ¬ s.Spans i) := by
  obtain ⟨e, he⟩ : ∃ e, Window.effectiveEnd ⟨some t, some u⟩ = some e :=
    Option.isSome_iff_exists.mp (Window.isSome_effectiveEnd _)
  have ht : t.Representable := Calendar.representable_of_parseBound (Window.parse_eq_ok.mp h).1
  have hend : e.Representable := Window.representable_effectiveEnd h he
  have hwindow := Window.wholeSecond_le_effectiveEnd ht hle he
  refine ⟨e, he, ?_, ?_, ?_, ?_⟩
  · intro hne
    cases (Window.effectiveEnd_of_ne hne).symm.trans he
    rfl
  · rintro rfl
    cases (Window.effectiveEnd_self t).symm.trans he
    exact ⟨t.date_endOfMinute, t.hour_endOfMinute, t.minute_endOfMinute,
      t.clockSecond_endOfMinute, t.nanos_endOfMinute⟩
  · exact ⟨_, _, Calendar.readInstant_text ht, Calendar.readInstant_text hend, hwindow⟩
  · intro d pattern limits s hcompile htime
    have hspans (i : Instant) : s.Spans i ↔ t.wholeSecond ≤ i ∧ i ≤ e.wholeSecond :=
      (compile_isOver hcompile h htime).spans_iff rfl he ht hend
    constructor
    · intro hleap
      exact (hspans _).mpr ⟨Instant.le_refl _, hwindow.mpr hleap⟩
    · intro hleap i hi
      obtain ⟨hfirst, hlast⟩ := (hspans i).mp hi
      exact hwindow.mp (Instant.le_trans hfirst hlast) hleap

def leapSecondSelection : Parameters where
  start := some "2016-12-31T23:59:60Z"
  finish := some "2016-12-31T23:59:60Z"

theorem effectiveEnd_spans_leapSecond :
    ∃ s, compile .queryLog .count leapSecondSelection {} = .ok s ∧
      s.bindings = ⟨[⟨"start", .dateTime "2016-12-31 23:59:60"⟩,
        ⟨"end", .dateTime "2016-12-31 23:59:59"⟩]⟩ ∧
      ∀ i, ¬ s.Spans i := by
  have hwindow : Window.parse (some "2016-12-31T23:59:60Z") (some "2016-12-31T23:59:60Z") =
      .ok ⟨some ⟨1483228799, 1000000000⟩, some ⟨1483228799, 1000000000⟩⟩ := by
    decide +kernel
  have hcompile : compile .queryLog .count leapSecondSelection {} = .ok
      ⟨"SELECT count() AS total\nFROM system.query_log\n" ++
          "WHERE event_time >= \x7bstart:DateTime('UTC')\x7d AND " ++
          "event_time <= \x7bend:DateTime('UTC')\x7d",
        ⟨[⟨"start", .dateTime "2016-12-31 23:59:60"⟩,
          ⟨"end", .dateTime "2016-12-31 23:59:59"⟩]⟩⟩ := by
    decide +kernel
  obtain ⟨_, -, -, -, -, hspans⟩ :=
    effectiveEnd_spans (p := leapSecondSelection) hwindow (Instant.le_refl _)
  refine ⟨_, hcompile, rfl, ?_⟩
  exact (hspans _ _ _ _ hcompile (by decide)).2 ⟨rfl, by decide⟩

section Times

variable {t : Table} {rows : RowFilter} {name literal : String}

theorem Table.mem_windowDemands_of_value {demand : Demand} (h : demand ∈ t.demands rows)
    (hvalue : .dateTime literal = demand.value) : demand ∈ t.windowDemands rows.window := by
  rcases mem_demands.mp h with hwindow | hsearch | hfilter | hrange
  · exact hwindow
  · obtain ⟨_, -, -, rfl⟩ := mem_searchDemands.mp hsearch
    cases hvalue
  · obtain ⟨_, _, _, -, -, -, rfl⟩ := mem_filterDemands.mp hfilter
    cases hvalue
  · obtain ⟨_, _, -, -, ⟨_, -, rfl⟩ | ⟨_, -, rfl⟩⟩ := mem_rangeDemands.mp hrange <;> cases hvalue

theorem bound_of_dateTime {shape : Shape} {page : Option Page}
    (h : ⟨name, .dateTime literal⟩ ∈ ((t.scope rows).statement shape page).bindings.toList) :
    ∃ i, literal = i.text ∧ (name = "start" ∧ rows.window.start = some i ∨
      name = "end" ∧ rows.window.effectiveEnd = some i) := by
  obtain ⟨position, step, hstep, heq⟩ := exists_step_of_mem h
  have hname := congrArg Binding.name heq
  have hvalue : .dateTime literal = step.value := congrArg Binding.value heq
  cases List.mem_append.mp hstep with
  | inl hdemand =>
    obtain ⟨demand, hmem, rfl⟩ := List.mem_map.mp hdemand
    rw [Demand.value_step] at hvalue
    have hwindow := Table.mem_windowDemands_of_value hmem hvalue
    obtain ⟨_, -, ⟨i, hstart, rfl⟩ | ⟨i, hend, rfl⟩⟩ := Table.mem_windowDemands.mp hwindow
    · exact ⟨i, Value.dateTime.inj hvalue, .inl ⟨hname, hstart⟩⟩
    · exact ⟨i, Value.dateTime.inj hvalue, .inr ⟨hname, hend⟩⟩
  | inr hpage =>
    obtain ⟨page, -, hmem⟩ := List.mem_flatMap.mp hpage
    simp only [Page.steps, List.mem_cons, List.not_mem_nil, or_false] at hmem
    rcases hmem with rfl | rfl <;> cases hvalue

end Times

/-- A time that a statement binds is a bound of its window as it is written, and a literal of the
store unless its year needs a sign or its second is a leap second. -/
theorem compile_isStoreLiteral_iff {name literal : String}
    (h : compile d pattern p limits = .ok s) (hb : ⟨name, .dateTime literal⟩ ∈ s.bindings.toList) :
    ∃ w t, Window.parse p.start p.finish = .ok w ∧
      (name = "start" ∧ w.start = some t ∨ name = "end" ∧ w.effectiveEnd = some t) ∧
      literal = t.text ∧
      (IsStoreLiteral literal ↔
        (0 ≤ t.date.year ∧ t.date.year ≤ 9999) ∧ ¬ t.InLeapSecond) ∧
      (IsStoreLiteral literal → literal.length = 19) := by
  obtain ⟨rows, page, shape, hrows, -, -, rfl⟩ := compile_eq_ok h
  obtain ⟨t, hliteral, hbound⟩ := bound_of_dateTime hb
  have hw := Parameters.parse_window hrows
  have ht : t.Representable := by
    rcases hbound with ⟨-, hstart⟩ | ⟨-, hend⟩
    · exact Calendar.representable_of_parseBound (hstart ▸ (Window.parse_eq_ok.mp hw).1)
    · exact Window.representable_effectiveEnd hw hend
  exact ⟨rows.window, t, hw, hbound, hliteral,
    hliteral ▸ Calendar.isStoreLiteral_text_iff ht, IsStoreLiteral.length⟩

def lastMinute : Parameters where
  start := some "9999-12-31T23:59:59-00:01"

theorem compile_isStoreLiteral_iff_lastMinute :
    ∃ s, compile .queryLog .count lastMinute {} = .ok s ∧
      ⟨"start", .dateTime "+10000-01-01 00:00:59"⟩ ∈ s.bindings.toList ∧
      ¬ IsStoreLiteral "+10000-01-01 00:00:59" := by
  have hwindow : Window.parse (some "9999-12-31T23:59:59-00:01") none =
      .ok ⟨some ⟨253402300859, 0⟩, none⟩ := by
    decide +kernel
  have hcompile : compile .queryLog .count lastMinute {} = .ok
      ⟨"SELECT count() AS total\nFROM system.query_log\n" ++
          "WHERE event_time >= \x7bstart:DateTime('UTC')\x7d",
        ⟨[⟨"start", .dateTime "+10000-01-01 00:00:59"⟩]⟩⟩ := by
    decide +kernel
  refine ⟨_, hcompile, List.mem_singleton_self _, ?_⟩
  obtain ⟨_, t, hw, hbound, -, hiff, -⟩ :=
    compile_isStoreLiteral_iff hcompile (List.mem_singleton_self _)
  cases hwindow.symm.trans hw
  rcases hbound with ⟨-, hstart⟩ | ⟨hname, -⟩
  · cases hstart
    rw [hiff]
    decide +kernel
  · exact absurd hname (by decide)

end QueryConsole
