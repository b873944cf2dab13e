import QueryConsole.Proofs.Calendar.Clock
import QueryConsole.Proofs.Calendar.Numerals

namespace QueryConsole.Calendar

def two (n : Nat) : List Char :=
  (padded 2 n).toList

namespace Instant

def dateChars (t : Instant) : List Char :=
  (yearText t.date.year).toList ++ '-' :: (two t.date.month ++ '-' :: two t.date.day)

def clockChars (t : Instant) : List Char :=
  two t.hour ++ ':' :: (two t.minute ++ ':' :: two t.clockSecond)

theorem toList_text (t : Instant) : t.text.toList = t.dateChars ++ ' ' :: t.clockChars := by
  simp [text, dateChars, clockChars, two]

end Instant

/-- How RFC 3339 writes an offset of so many minutes. -/
inductive IsOffset : Int → List Char → Prop
  | utc : IsOffset 0 ['Z']
  | lowerUtc : IsOffset 0 ['z']
  | ahead {hours minutes : Nat} (hhours : hours ≤ 23) (hminutes : minutes ≤ 59) :
    IsOffset (60 * hours + minutes) ('+' :: (two hours ++ ':' :: two minutes))
  | behind {hours minutes : Nat} (hhours : hours ≤ 23) (hminutes : minutes ≤ 59) :
    IsOffset (-(60 * hours + minutes)) ('-' :: (two hours ++ ':' :: two minutes))

/-- The texts that RFC 3339 has for an instant, on a clock so many minutes ahead of UTC.  There is
room for four digits of the year on that clock. -/
inductive IsRfc3339 (t : Instant) (minutes : Int) : String → Prop
  | text {separator : Char} {fraction zone : List Char}
    (hyear : 0 ≤ (t.ahead minutes).date.year ∧ (t.ahead minutes).date.year ≤ 9999)
    (hseparator : separator ∈ ['t', 'T', ' '])
    (hfraction : IsFraction (t.nanos % nanosPerSecond) fraction)
    (hzone : IsOffset minutes zone) :
    IsRfc3339 t minutes (String.ofList ((t.ahead minutes).dateChars ++
      separator :: ((t.ahead minutes).clockChars ++ (fraction ++ zone))))

def offsetChars (minutes : Int) : List Char :=
  (if 0 ≤ minutes then '+' else '-') ::
    (two (minutes.natAbs / 60) ++ ':' :: two (minutes.natAbs % 60))

def Instant.rfc3339 (t : Instant) (minutes : Int) : String :=
  String.ofList ((t.ahead minutes).dateChars ++ 'T' :: ((t.ahead minutes).clockChars ++
    (('.' :: (padded 9 (t.nanos % nanosPerSecond)).toList) ++ offsetChars minutes)))

theorem isOffset_offsetChars {minutes : Int} (h : minutes.natAbs ≤ 23 * 60 + 59) :
    IsOffset minutes (offsetChars minutes) := by
  have hhours : minutes.natAbs / 60 ≤ 23 := by omega
  have hminutes : minutes.natAbs % 60 ≤ 59 := by omega
  rw [offsetChars]
  split
  · have hsum : minutes = 60 * (minutes.natAbs / 60 : Nat) + (minutes.natAbs % 60 : Nat) := by
      omega
    have hoffset := IsOffset.ahead hhours hminutes
    rwa [← hsum] at hoffset
  · have hsum : minutes = -(60 * (minutes.natAbs / 60 : Nat) + (minutes.natAbs % 60 : Nat)) := by
      omega
    have hoffset := IsOffset.behind hhours hminutes
    rwa [← hsum] at hoffset

theorem Instant.isRfc3339_rfc3339 (t : Instant) {minutes : Int}
    (hminutes : minutes.natAbs ≤ 23 * 60 + 59)
    (hyear : 0 ≤ (t.ahead minutes).date.year ∧ (t.ahead minutes).date.year ≤ 9999) :
    IsRfc3339 t minutes (t.rfc3339 minutes) := by
  have hnumeral := isNumeral_padded 9 (t.nanos % nanosPerSecond)
  have hlength : (padded 9 (t.nanos % nanosPerSecond)).toList.length = 9 :=
    length_padded (by decide) (Nat.mod_lt _ (by decide))
  refine .text hyear (by simp) (.digits hnumeral.ne_nil hnumeral.isDigit ?_)
    (isOffset_offsetChars hminutes)
  rw [hnumeral.value, hlength]
  rfl

section Items

variable {f f' : Fields} {cs rest : List Char} {n : Nat} {part : Part}

theorem isNumeral_two (n : Nat) : IsNumeral (two n) n :=
  isNumeral_padded 2 n

theorem length_two (h : n < 100) : (two n).length = 2 :=
  length_padded (by decide) h

theorem readItem_full (h : n < 100) :
    readItem f (two n ++ rest) (.full part) = some (f.set n part, rest) := by
  have hread := takeFull_numeral (isNumeral_two n) rest
  rw [length_two h] at hread
  rw [readItem, hread]
  rfl

theorem readItem_short (h : n < 100) :
    readItem f (two n ++ rest) (.short part) = some (f.set n part, rest) := by
  rw [readItem, (isNumeral_two n).dropWhile_isBlank,
    takeNumber_two (isNumeral_two n) (length_two h)]
  rfl

theorem readItem_char (c : Char) : readItem f (c :: rest) (.char c) = some (f, rest) := by
  simp [readItem]

theorem readItem_oneOf {c : Char} {allowed : List Char} (h : c ∈ allowed) :
    readItem f (c :: rest) (.oneOf allowed) = some (f, rest) := by
  simp [readItem, h]

theorem dropWhile_isBlank_two :
    (two n ++ rest).dropWhile Text.isBlank = two n ++ rest :=
  (isNumeral_two n).dropWhile_isBlank

theorem readItem_gap :
    readItem f (' ' :: (two n ++ rest)) .gap = some (f, two n ++ rest) := by
  rw [readItem, List.dropWhile_cons_of_pos (by decide), dropWhile_isBlank_two]

theorem readItem_noFraction (h : '.' ∉ rest.head?) :
    readItem f rest .fraction = some (f, rest) := by
  cases rest with
  | nil => rfl
  | cons c rest =>
    rw [readItem.eq_def]
    split <;> simp_all

theorem readItem_fraction {nanos : Nat} (h : IsFraction nanos cs) (hpoint : '.' ∉ rest.head?)
    (hends : EndsNumeral rest) (hf : f.nanos = 0) :
    readItem f (cs ++ rest) .fraction = some ({ f with nanos }, rest) := by
  cases h with
  | none =>
    rw [List.nil_append, readItem_noFraction hpoint, ← hf]
  | digits hne hdigits hvalue =>
    rw [List.cons_append, readItem, takeNanos_digits hne hdigits hvalue hends]
    rfl

theorem dropWhile_isBlank_yearText (year : Int) :
    ((yearText year).toList ++ rest).dropWhile Text.isBlank = (yearText year).toList ++ rest := by
  rw [yearText]
  split
  · exact (isNumeral_padded 4 year.toNat).dropWhile_isBlank
  · split
    · simp [Text.isBlank]
    · simp [Text.isBlank]

theorem readItems_append (items items' : List Item) (f : Fields) (cs : List Char) :
    readItems (items ++ items') f cs =
      (readItems items f cs).bind fun (f, rest) => readItems items' f rest := by
  induction items generalizing f cs with
  | nil => rfl
  | cons item items ih =>
    simp only [List.cons_append, readItems]
    cases readItem f cs item with
    | none => rfl
    | some step => exact ih step.1 step.2

theorem readItems_induction {P : Fields → Prop} {items : List Item}
    (hstep : ∀ item ∈ items, ∀ f cs f' rest, readItem f cs item = some (f', rest) → P f → P f')
    (h : readItems items f cs = some (f', rest)) (hf : P f) : P f' := by
  induction items generalizing f cs with
  | nil =>
    cases h
    exact hf
  | cons item items ih =>
    rw [List.forall_mem_cons] at hstep
    obtain ⟨⟨f'', rest'⟩, hitem, hitems⟩ := Option.bind_eq_some_iff.mp h
    exact ih hstep.2 hitems (hstep.1 _ _ _ _ hitem hf)

end Items

section Written

variable {t : Instant} {rest : List Char}

theorem Instant.Representable.lt_hundred (h : t.Representable) :
    t.date.month < 100 ∧ t.date.day < 100 ∧ t.hour < 100 ∧ t.minute < 100 ∧
      t.clockSecond < 100 := by
  have hmonth := t.valid_date.2.1
  have hday := t.day_le
  have hhour := t.hour_le
  have hminute := t.minute_le
  have hsecond := h.clockSecond_le
  omega

theorem readItems_dateItems (h : t.Representable) (f : Fields) :
    readItems dateItems f (t.dateChars ++ rest) =
      some ({ f with year := t.date.year, month := t.date.month, day := t.date.day }, rest) := by
  obtain ⟨hmonth, hday, -⟩ := h.lt_hundred
  have hyear (rest : List Char) : readItem f ((yearText t.date.year).toList ++ '-' :: rest) .year =
      some ({ f with year := t.date.year }, '-' :: rest) := by
    have hends : EndsNumeral ('-' :: rest) := by
      rintro c ⟨⟩
      rfl
    rw [readItem, dropWhile_isBlank_yearText, takeYear_yearText _ hends]
    rfl
  simp only [Instant.dateChars, dateItems, readItems, List.append_assoc, List.cons_append, hyear,
    readItem_char, readItem_short hmonth, readItem_short hday, Option.bind_some, Fields.set]

theorem readItems_secondItems (h : t.Representable) (f : Fields) (hrest : '.' ∉ rest.head?) :
    readItems secondItems f (t.clockChars ++ rest) =
      some ({ f with hour := t.hour, minute := t.minute, second := t.clockSecond }, rest) := by
  obtain ⟨-, -, hhour, hminute, hsecond⟩ := h.lt_hundred
  simp only [Instant.clockChars, secondItems, minuteItems, readItems, List.append_assoc,
    List.cons_append, List.nil_append, readItem_char, readItem_short hhour, readItem_short hminute,
    readItem_short hsecond, readItem_noFraction hrest, Option.bind_some, Fields.set]

theorem readItems_rfc3339Items (h : t.Representable)
    (hyear : 0 ≤ t.date.year ∧ t.date.year ≤ 9999) {separator : Char}
    (hseparator : separator ∈ ['t', 'T', ' ']) {fraction : List Char}
    (hfraction : IsFraction (t.nanos % nanosPerSecond) fraction) (hpoint : '.' ∉ rest.head?)
    (hends : EndsNumeral rest) :
    readItems rfc3339Items {} (t.dateChars ++ separator :: (t.clockChars ++ (fraction ++ rest))) =
      some (t.fields, rest) := by
  obtain ⟨hmonth, hday, hhour, hminute, hsecond⟩ := h.lt_hundred
  have hyearItem (f : Fields) (rest : List Char) :
      readItem f ((yearText t.date.year).toList ++ rest) .fullYear =
        some ({ f with year := t.date.year }, rest) := by
    have hlength : (padded 4 t.date.year.toNat).toList.length = 4 :=
      length_padded (by decide) (by omega)
    have hread := takeFull_numeral (isNumeral_padded 4 t.date.year.toNat) rest
    rw [hlength] at hread
    simp only [yearText, if_pos hyear, readItem, hread, Option.map_some,
      Int.toNat_of_nonneg hyear.1]
  simp only [Instant.dateChars, Instant.clockChars, rfc3339Items, readItems, List.append_assoc,
    List.cons_append, hyearItem, readItem_char, readItem_full hmonth, readItem_full hday,
    readItem_full hhour, readItem_full hminute, readItem_full hsecond, readItem_oneOf hseparator,
    readItem_fraction hfraction hpoint hends, Option.bind_some, Fields.set]
  rfl

theorem takeFull_signed {year : Int} (hyear : ¬(0 ≤ year ∧ year ≤ 9999)) (rest : List Char) :
    takeFull 4 ((yearText year).toList ++ rest) = none := by
  rw [yearText, if_neg hyear]
  split
  · simp [takeFull]
  · simp [takeFull]

theorem readRfc3339_signed {year : Int} (hyear : ¬(0 ≤ year ∧ year ≤ 9999)) (rest : List Char) :
    readRfc3339 ((yearText year).toList ++ rest) = none := by
  simp only [readRfc3339, rfc3339Items, readItems, readItem, takeFull_signed hyear,
    Option.map_none, Option.bind_none, bind]

theorem Instant.nanos_wholeSecond (t : Instant) : t.wholeSecond.nanos % nanosPerSecond = 0 := by
  simp only [wholeSecond, nanosPerSecond]
  omega

theorem Instant.text_wholeSecond (t : Instant) : t.wholeSecond.text = t.text := by
  have hsecond : t.wholeSecond.clockSecond = t.clockSecond := by
    have hday : t.wholeSecond.secondOfDay = t.secondOfDay := rfl
    have hnanos : t.wholeSecond.nanos / nanosPerSecond = t.nanos / nanosPerSecond := by
      simp only [wholeSecond, nanosPerSecond]
      omega
    rw [clockSecond, clockSecond, hday, hnanos]
  rw [text, text, hsecond]
  rfl

theorem readRfc3339_text (h : t.Representable) (hwhole : t.nanos % nanosPerSecond = 0) :
    readRfc3339 t.text.toList = none := by
  rw [Instant.toList_text]
  by_cases hyear : 0 ≤ t.date.year ∧ t.date.year ≤ 9999
  · have hfraction : IsFraction (t.nanos % nanosPerSecond) [] := hwhole ▸ .none
    have hread : readItems rfc3339Items {} (t.dateChars ++ ' ' :: (t.clockChars ++ ([] ++ []))) =
        some (t.fields, []) :=
      readItems_rfc3339Items h hyear (by simp) hfraction (by simp) (by simp [EndsNumeral])
    rw [List.append_nil, List.append_nil] at hread
    rw [readRfc3339, hread]
    rfl
  · rw [Instant.dateChars, List.append_assoc]
    exact readRfc3339_signed hyear _

theorem readLocal_text (h : t.Representable) (hwhole : t.nanos % nanosPerSecond = 0) :
    readLocal (dateItems ++ .gap :: secondItems) t.text.toList = some t := by
  have hgap (f : Fields) : readItem f (' ' :: t.clockChars) .gap = some (f, t.clockChars) :=
    readItem_gap
  have hclock (f : Fields) : readItems secondItems f (t.clockChars ++ []) =
      some ({ f with hour := t.hour, minute := t.minute, second := t.clockSecond }, []) :=
    readItems_secondItems h f (by simp)
  have hfields : t.fields = ⟨t.date.year, t.date.month, t.date.day, t.hour, t.minute,
      t.clockSecond, 0⟩ := by
    rw [Instant.fields, hwhole]
  have hinstant : t.fields.instant? 0 = some t := by
    rw [h.instant?_fields, Int.sub_zero]
  simp only [List.append_nil] at hclock
  simp only [readLocal, Instant.toList_text, readItems_append, readItems_dateItems h,
    Option.bind_some, readItems, hgap, hclock]
  exact hfields ▸ hinstant

theorem readInstant_text (h : t.Representable) : readInstant t.text = some t.wholeSecond := by
  have hwhole := t.nanos_wholeSecond
  rw [← t.text_wholeSecond, readInstant, readRfc3339_text h.wholeSecond hwhole, localShapes,
    List.findSome?_cons, readLocal_text h.wholeSecond hwhole]
  rfl

section Offset

variable {minutes : Int} {zone : List Char}

theorem readOffset_signed {hours minutes : Nat} (hhours : hours ≤ 23) (hminutes : minutes ≤ 59) :
    readOffset ('+' :: (two hours ++ ':' :: two minutes)) =
        some (60 * (60 * (hours : Int) + minutes)) ∧
      readOffset ('-' :: (two hours ++ ':' :: two minutes)) =
        some (60 * -(60 * (hours : Int) + minutes)) := by
  have hread {n : Nat} (h : n < 100) (rest : List Char) :
      takeFull 2 (two n ++ rest) = some (n, rest) := by
    have hnumeral := takeFull_numeral (isNumeral_two n) rest
    rwa [length_two h] at hnumeral
  have hfirst := hread (show hours < 100 by omega) (':' :: two minutes)
  have hlast := hread (show minutes < 100 by omega) []
  rw [List.append_nil] at hlast
  constructor
  · rw [readOffset.eq_3 _ _ (by simp) (by simp)]
    simp only [hfirst, hlast, hhours, hminutes, and_self, if_true]
    rw [Option.some.injEq]
    omega
  · rw [readOffset.eq_3 _ _ (by simp) (by simp)]
    simp only [hfirst, hlast, hhours, hminutes, and_self, if_true, true_or]
    rw [if_neg (by decide), Option.some.injEq]
    omega

theorem readOffset_zone (h : IsOffset minutes zone) : readOffset zone = some (60 * minutes) := by
  cases h with
  | utc => rfl
  | lowerUtc => rfl
  | ahead hhours hminutes => exact (readOffset_signed hhours hminutes).1
  | behind hhours hminutes => exact (readOffset_signed hhours hminutes).2

theorem IsOffset.ends (h : IsOffset minutes zone) : '.' ∉ zone.head? ∧ EndsNumeral zone := by
  cases h <;> simp [EndsNumeral]

theorem readInstant_rfc3339 {text : String} (h : t.Representable)
    (htext : IsRfc3339 t minutes text) : readInstant text = some t := by
  obtain @⟨separator, fraction, zone, hyear, hseparator, hfraction, hzone⟩ := htext
  have hahead : (t.ahead minutes).Representable :=
    h.ahead ⟨Int.le_trans (by decide) hyear.1, Int.le_trans hyear.2 (by decide)⟩
  have hread := readItems_rfc3339Items hahead hyear hseparator hfraction hzone.ends.1 hzone.ends.2
  have hinstant : (t.ahead minutes).fields.instant? (60 * minutes) = some t := by
    rw [hahead.instant?_fields, Instant.ahead, Int.add_sub_cancel]
  rw [readInstant, String.toList_ofList, readRfc3339, hread]
  simp only [readOffset_zone hzone, bind, Option.bind_some, hinstant]
  rfl

end Offset

end Written

section Read

variable {f f' : Fields} {cs rest : List Char} {item : Item} {t : Instant}

inductive Item.Effect (f : Fields) : Item → Fields → Prop
  | nothing {item : Item} : Effect f item f
  | part {item : Item} (n : Nat) (part : Part) : Effect f item (f.set n part)
  | year (year : Int) : Effect f .year { f with year }
  | fullYear {n : Nat} (h : n < 10000) : Effect f .fullYear { f with year := n }
  | fraction {nanos : Nat} (h : nanos < nanosPerSecond) : Effect f .fraction { f with nanos }

theorem effect_of_readItem (h : readItem f cs item = some (f', rest)) : item.Effect f f' := by
  rw [readItem.eq_def] at h
  cases item with
  | fullYear =>
    obtain ⟨⟨n, _⟩, hread, heq⟩ := Option.map_eq_some_iff.mp h
    cases heq
    exact .fullYear (takeFull_lt hread)
  | year =>
    obtain ⟨⟨year, _⟩, -, heq⟩ := Option.map_eq_some_iff.mp h
    cases heq
    exact .year year
  | full part | short part =>
    obtain ⟨⟨n, _⟩, -, heq⟩ := Option.map_eq_some_iff.mp h
    cases heq
    exact .part n part
  | fraction =>
    simp only at h
    split at h
    · obtain ⟨⟨nanos, _⟩, hread, heq⟩ := Option.map_eq_some_iff.mp h
      cases heq
      exact .fraction (takeNanos_lt hread)
    · cases h
      exact .nothing
  | char | oneOf =>
    simp only at h
    split at h
    · split at h <;> cases h
      exact .nothing
    · cases h
  | gap =>
    cases h
    exact .nothing

theorem Item.Effect.nanos_lt (h : item.Effect f f') (hf : f.nanos < nanosPerSecond) :
    f'.nanos < nanosPerSecond := by
  cases h with
  | nothing => exact hf
  | part n part => cases part <;> exact hf
  | year year => exact hf
  | fullYear hn => exact hf
  | fraction hnanos => exact hnanos

theorem Item.Effect.year_bounds (h : item.Effect f f') (hitem : item ≠ .year)
    (hf : 0 ≤ f.year ∧ f.year ≤ 9999) : 0 ≤ f'.year ∧ f'.year ≤ 9999 := by
  cases h with
  | nothing => exact hf
  | part n part => cases part <;> exact hf
  | year year => exact absurd rfl hitem
  | fullYear hn => exact ⟨Int.natCast_nonneg _, by simp only; omega⟩
  | fraction hnanos => exact hf

theorem nanos_readItems {items : List Item} (h : readItems items {} cs = some (f, rest)) :
    f.nanos < nanosPerSecond :=
  readItems_induction (P := fun f => f.nanos < nanosPerSecond)
    (fun _ _ _ _ _ _ hread => (effect_of_readItem hread).nanos_lt) h (by decide)

theorem year_readItems (h : readItems rfc3339Items {} cs = some (f, rest)) :
    0 ≤ f.year ∧ f.year ≤ 9999 := by
  refine readItems_induction (P := fun f => 0 ≤ f.year ∧ f.year ≤ 9999) ?_ h (by decide)
  intro item hitem f cs f' rest hread
  refine (effect_of_readItem hread).year_bounds ?_
  rintro rfl
  revert hitem
  decide

theorem readOffset_bounds {offset : Int} (h : readOffset cs = some offset) :
    offset % 60 = 0 ∧ -86400 < offset ∧ offset < 86400 := by
  rw [readOffset.eq_def] at h
  split at h
  · cases h
    decide
  · cases h
    decide
  · split at h
    · split at h
      · split at h
        · next hlimits =>
          simp only at h
          split at h
          · cases h
            omega
          · split at h
            · cases h
              omega
            · cases h
        · cases h
      · cases h
    · cases h
  · cases h

theorem representable_of_readRfc3339 (h : readRfc3339 cs = some t) : t.Representable := by
  simp only [readRfc3339, bind] at h
  obtain ⟨⟨f, rest⟩, hread, hinstant⟩ := Option.bind_eq_some_iff.mp h
  obtain ⟨offset, hoffset, hinstant⟩ := Option.bind_eq_some_iff.mp hinstant
  obtain ⟨hminutes, hday⟩ := readOffset_bounds hoffset
  exact Fields.representable_of_instant? hinstant (nanos_readItems hread) hminutes hday
    (.inr (year_readItems hread))

theorem representable_of_readLocal {shape : List Item} (h : readLocal shape cs = some t) :
    t.Representable := by
  rw [readLocal] at h
  split at h
  · next hread =>
    exact Fields.representable_of_instant? h (nanos_readItems hread) (by decide) (by decide)
      (.inl rfl)
  · cases h

theorem representable_of_readInstant {s : String} (h : readInstant s = some t) :
    t.Representable := by
  rw [readInstant] at h
  cases Option.or_eq_some_iff.mp h with
  | inl hrfc => exact representable_of_readRfc3339 hrfc
  | inr hlocal =>
    obtain ⟨shape, -, hread⟩ := List.exists_of_findSome?_eq_some hlocal.2
    exact representable_of_readLocal hread

end Read

end QueryConsole.Calendar
