import Mathlib.Data.List.DropRight
import Mathlib.Data.List.Forall2
import QueryConsole.Proofs.Calendar.Literal

/-! Time literals are unambiguous.  Up to the minute all shapes read the same characters, so a text
decides by what comes next which of them it can have: the separator, the seconds, the offset. -/

namespace QueryConsole.Calendar

variable {f f' : Fields} {cs rest : List Char} {items items' shape : List Item}
  {r : Fields × List Char} {c : Char} {n : Nat}

section Relaxed

theorem exists_of_takeFull {width : Nat} (hwidth : 0 < width)
    (h : takeFull width cs = some (n, rest)) :
    ∃ ds, cs = ds ++ rest ∧ ds.length = width ∧ IsNumeral ds n := by
  rw [takeFull] at h
  split at h
  · next hdigits =>
    cases h
    have hne : cs.take width ≠ [] := List.ne_nil_of_length_pos (hdigits.1.symm ▸ hwidth)
    exact ⟨cs.take width, (List.take_append_drop width cs).symm, hdigits.1, hne,
      List.all_eq_true.mp hdigits.2, rfl⟩
  · cases h

inductive Item.IsRelaxedTo : Item → Item → Prop
  | year : IsRelaxedTo .fullYear .year
  | part (part : Part) : IsRelaxedTo (.full part) (.short part)
  | same (item : Item) : IsRelaxedTo item item

theorem Item.IsRelaxedTo.readItem {item item' : Item} (h : item.IsRelaxedTo item')
    (hread : readItem f cs item = some r) : readItem f cs item' = some r := by
  cases h with
  | year =>
    obtain ⟨⟨n, rest⟩, htake, rfl⟩ := Option.map_eq_some_iff.mp hread
    obtain ⟨ds, rfl, hlength, hnumeral⟩ := exists_of_takeFull (by decide) htake
    have hnumber : takeNumber 4 (ds ++ rest) = some (n, rest) :=
      takeNumber_numeral hnumeral (Nat.le_of_eq hlength) (.inl hlength)
    rw [Calendar.readItem, hnumeral.dropWhile_isBlank]
    obtain ⟨c, cs, rfl, hdigit⟩ := hnumeral.exists_cons
    rw [List.cons_append] at hnumber ⊢
    rw [takeYear_of_isDigit hdigit, hnumber]
    rfl
  | part part =>
    obtain ⟨⟨n, rest⟩, htake, rfl⟩ := Option.map_eq_some_iff.mp hread
    obtain ⟨ds, rfl, hlength, hnumeral⟩ := exists_of_takeFull (by decide) htake
    rw [Calendar.readItem, hnumeral.dropWhile_isBlank, takeNumber_two hnumeral hlength]
    rfl
  | same => exact hread

theorem readItems_relaxed (h : List.Forall₂ Item.IsRelaxedTo items items')
    (hread : readItems items f cs = some r) : readItems items' f cs = some r := by
  induction h generalizing f cs with
  | nil => exact hread
  | cons hitem _ ih =>
    obtain ⟨step, hstep, hread⟩ := Option.bind_eq_some_iff.mp hread
    rw [readItems, hitem.readItem hstep]
    exact ih hread

end Relaxed

section Parted

theorem readItems_append_eq_some : readItems (items ++ items') f cs = some r ↔
    ∃ f' mid, readItems items f cs = some (f', mid) ∧ readItems items' f' mid = some r := by
  rw [readItems_append, Option.bind_eq_some_iff]
  exact Prod.exists

theorem readItems_ne_of_char (h : readItems (items ++ .char c :: items') f cs = some r) :
    readItems items f cs ≠ some (f', []) := by
  intro hend
  rw [readItems_append, hend] at h
  cases h

theorem readItems_char_cons {d : Char} : readItems (.char c :: items) f (d :: cs) =
    if d = c then readItems items f cs else none := by
  rw [readItems, readItem]
  split <;> rfl

theorem exists_of_readItem_oneOf {allowed : List Char}
    (h : readItem f cs (.oneOf allowed) = some (f', rest)) :
    f' = f ∧ ∃ c ∈ allowed, cs = c :: rest := by
  rw [readItem.eq_def] at h
  cases cs with
  | nil => cases h
  | cons c cs =>
    simp only at h
    split at h
    · next hc =>
      cases h
      exact ⟨rfl, c, hc, rfl⟩
    · cases h

theorem readItems_gap_blank (h : Text.isBlank c = true) :
    readItems (.gap :: (minuteItems ++ items)) f (c :: cs) =
      readItems (minuteItems ++ items) f cs := by
  simp only [minuteItems, List.cons_append, readItems, readItem, Option.bind_some,
    List.dropWhile_cons_of_pos h, List.dropWhile_idempotent]

theorem readItems_gap_letter (hblank : Text.isBlank c = false) (hdigit : c.isDigit = false) :
    readItems (.gap :: (minuteItems ++ items)) f (c :: cs) = none := by
  simp [minuteItems, readItems, readItem, takeNumber, hblank, hdigit]

end Parted

section Shapes

def secondsRest : List Item :=
  [.char ':', .short .second, .fraction]

def localShape (separator : Item) (items : List Item) : List Item :=
  dateItems ++ separator :: (minuteItems ++ items)

theorem localShapes_eq : localShapes =
    [localShape .gap secondsRest, localShape (.char 'T') secondsRest, localShape .gap [],
      localShape (.char 'T') []] := rfl

theorem exists_of_mem_localShapes (h : shape ∈ localShapes) :
    ∃ separator items, shape = localShape separator items ∧
      (separator = .gap ∨ separator = .char 'T') ∧ (items = secondsRest ∨ items = []) := by
  rw [localShapes_eq] at h
  simp only [List.mem_cons, List.not_mem_nil, or_false] at h
  rcases h with rfl | rfl | rfl | rfl
  · exact ⟨_, _, rfl, .inl rfl, .inl rfl⟩
  · exact ⟨_, _, rfl, .inr rfl, .inl rfl⟩
  · exact ⟨_, _, rfl, .inl rfl, .inr rfl⟩
  · exact ⟨_, _, rfl, .inr rfl, .inr rfl⟩

/-- The shape reads the text and leaves nothing. -/
def Fits (shape : List Item) (cs : List Char) : Prop :=
  ∃ f, readItems shape {} cs = some (f, [])

theorem readLocal_of_not_fits (h : ¬ Fits shape cs) : readLocal shape cs = none := by
  rw [readLocal]
  split
  · next f hread => exact absurd ⟨f, hread⟩ h
  · rfl

theorem not_fits_gap_and_mark :
    ¬ (Fits (localShape .gap items) cs ∧ Fits (localShape (.char 'T') items') cs) := by
  rintro ⟨⟨f, hgap⟩, f', hmark⟩
  obtain ⟨g, mid, hdate, hgap⟩ := readItems_append_eq_some.mp hgap
  obtain ⟨g', mid', hdate', hmark⟩ := readItems_append_eq_some.mp hmark
  cases hdate.symm.trans hdate'
  cases mid with
  | nil => cases hmark
  | cons c mid =>
    rw [readItems_char_cons] at hmark
    split at hmark
    · next heq =>
      rw [heq, readItems_gap_letter (by decide) (by decide)] at hgap
      cases hgap
    · cases hmark

theorem not_fits_seconds_and_none {separator : Item} :
    ¬ (Fits (localShape separator secondsRest) cs ∧ Fits (localShape separator []) cs) := by
  rintro ⟨⟨f, hseconds⟩, f', hnone⟩
  have hsplit : localShape separator secondsRest =
      localShape separator [] ++ .char ':' :: [.short .second, .fraction] := by
    simp [localShape, secondsRest]
  rw [hsplit] at hseconds
  exact readItems_ne_of_char hseconds hnone

end Shapes

section Offset

def fullDateItems : List Item :=
  [.fullYear, .char '-', .full .month, .char '-', .full .day]

def fullClockItems : List Item :=
  [.full .hour, .char ':', .full .minute, .char ':', .full .second, .fraction]

theorem rfc3339Items_eq :
    rfc3339Items = fullDateItems ++ .oneOf ['t', 'T', ' '] :: fullClockItems := rfl

theorem relaxed_date : List.Forall₂ Item.IsRelaxedTo fullDateItems dateItems :=
  .cons .year (.cons (.same _) (.cons (.part _) (.cons (.same _) (.cons (.part _) .nil))))

theorem relaxed_clock : List.Forall₂ Item.IsRelaxedTo fullClockItems (minuteItems ++ secondsRest) :=
  .cons (.part _) (.cons (.same _) (.cons (.part _) (.cons (.same _) (.cons (.part _)
    (.cons (.same _) .nil)))))

theorem readItems_separator {separator : Item} (hc : c ∈ ['t', 'T', ' '])
    (hseparator : separator = .gap ∨ separator = .char 'T')
    (h : readItems (separator :: (minuteItems ++ items)) f (c :: cs) = some r) :
    readItems (minuteItems ++ items) f cs = some r := by
  rcases hseparator with rfl | rfl
  · cases hblank : Text.isBlank c with
    | true => rwa [readItems_gap_blank hblank] at h
    | false =>
      have hdigit : c.isDigit = false := by
        simp only [List.mem_cons, List.not_mem_nil, or_false] at hc
        rcases hc with rfl | rfl | rfl <;> rfl
      rw [readItems_gap_letter hblank hdigit] at h
      cases h
  · rw [readItems_char_cons] at h
    split at h
    · exact h
    · cases h

theorem not_fits_of_offset (h : readItems rfc3339Items {} cs = some (f, rest)) (hrest : rest ≠ [])
    (hshape : shape ∈ localShapes) : ¬ Fits shape cs := by
  rintro ⟨f', hfits⟩
  obtain ⟨separator, items, rfl, hseparator, hitems⟩ := exists_of_mem_localShapes hshape
  obtain ⟨g', mid', hdate', hfits⟩ := readItems_append_eq_some.mp hfits
  obtain ⟨g, mid, hdate, h⟩ := readItems_append_eq_some.mp (rfc3339Items_eq ▸ h)
  obtain ⟨⟨_, clock⟩, honeOf, hclock⟩ := Option.bind_eq_some_iff.mp h
  obtain ⟨rfl, c, hc, rfl⟩ := exists_of_readItem_oneOf honeOf
  cases hdate'.symm.trans (readItems_relaxed relaxed_date hdate)
  have hlocal := readItems_separator hc hseparator hfits
  have hseconds := readItems_relaxed relaxed_clock hclock
  rcases hitems with rfl | rfl
  · cases hlocal.symm.trans hseconds
    exact hrest rfl
  · rw [List.append_nil] at hlocal
    exact readItems_ne_of_char hseconds hlocal

theorem readRfc3339_or_readLocal (hshape : shape ∈ localShapes) :
    readRfc3339 cs = none ∨ readLocal shape cs = none := by
  cases h : readRfc3339 cs with
  | none => exact .inl rfl
  | some t =>
    simp only [readRfc3339, bind] at h
    obtain ⟨⟨f, rest⟩, hread, h⟩ := Option.bind_eq_some_iff.mp h
    obtain ⟨offset, hoffset, -⟩ := Option.bind_eq_some_iff.mp h
    have hrest : rest ≠ [] := by
      rintro rfl
      cases hoffset
    exact .inr (readLocal_of_not_fits (not_fits_of_offset hread hrest hshape))

end Offset

section Order

variable {α β : Type} {g : α → Option β} {xs ys : List α}

theorem findSome?_eq_some_iff_mem (h : xs.Pairwise fun x y => g x = none ∨ g y = none) {b : β} :
    xs.findSome? g = some b ↔ ∃ x ∈ xs, g x = some b := by
  constructor
  · exact List.exists_of_findSome?_eq_some
  · rintro ⟨x, hx, hb⟩
    induction xs with
    | nil => cases hx
    | cons y xs ih =>
      rw [List.pairwise_cons] at h
      rcases List.mem_cons.mp hx with rfl | hx
      · rw [List.findSome?_cons, hb]
      · have hy : g y = none := (h.1 x hx).resolve_right (by simp [hb])
        rw [List.findSome?_cons, hy]
        exact ih h.2 hx

theorem findSome?_perm (hperm : ys.Perm xs) (h : xs.Pairwise fun x y => g x = none ∨ g y = none) :
    ys.findSome? g = xs.findSome? g := by
  have h' := hperm.symm.pairwise h Or.symm
  ext b
  rw [findSome?_eq_some_iff_mem h, findSome?_eq_some_iff_mem h']
  simp only [hperm.mem_iff]

end Order

def shapeReaders : List (List Char → Option Instant) :=
  readRfc3339 :: localShapes.map readLocal

theorem readInstant_eq (s : String) :
    readInstant s = shapeReaders.findSome? fun read => read s.toList := by
  rw [readInstant, shapeReaders, List.findSome?_cons, List.findSome?_map]
  cases readRfc3339 s.toList <;> rfl

theorem pairwise_shapeReaders (cs : List Char) :
    shapeReaders.Pairwise fun read read' => read cs = none ∨ read' cs = none := by
  have hor {shape shape' : List Item} (h : ¬ (Fits shape cs ∧ Fits shape' cs)) :
      readLocal shape cs = none ∨ readLocal shape' cs = none :=
    (not_and_or.mp h).imp readLocal_of_not_fits readLocal_of_not_fits
  rw [shapeReaders, List.pairwise_cons, List.forall_mem_map, List.pairwise_map, localShapes_eq]
  refine ⟨fun shape hshape => readRfc3339_or_readLocal hshape, ?_⟩
  simp only [List.pairwise_cons, List.forall_mem_cons]
  exact ⟨⟨hor not_fits_gap_and_mark, hor not_fits_seconds_and_none, hor not_fits_gap_and_mark,
      nofun⟩,
    ⟨(hor not_fits_gap_and_mark).symm, hor not_fits_seconds_and_none, nofun⟩,
    ⟨hor not_fits_gap_and_mark, nofun⟩, nofun, .nil⟩

/-- At most one of the five shapes accepts a text, so the instant it names is the one that any
shape accepts it as, and trying the shapes in another order makes no difference. -/
theorem readInstant_anyOrder (s : String) :
    (shapeReaders.Pairwise fun read read' => read s.toList = none ∨ read' s.toList = none) ∧
    (∀ t, readInstant s = some t ↔ ∃ read ∈ shapeReaders, read s.toList = some t) ∧
    ∀ order : List (List Char → Option Instant), order.Perm shapeReaders →
      (order.findSome? fun read => read s.toList) = readInstant s := by
  have hpairwise := pairwise_shapeReaders s.toList
  rw [readInstant_eq]
  exact ⟨hpairwise, fun t => findSome?_eq_some_iff_mem hpairwise,
    fun order hperm => findSome?_perm hperm hpairwise⟩

theorem readInstant_anyOrder_runTogether :
    (shapeReaders.reverse.findSome? fun read => read "2024-1-2003:4:05.5".toList) =
        some ⟨1705719845, 500000000⟩ ∧
      readInstant "2024-1-2003:4:05.5" = some ⟨1705719845, 500000000⟩ := by
  have hread : readInstant "2024-1-2003:4:05.5" = some ⟨1705719845, 500000000⟩ := by
    decide +kernel
  obtain ⟨-, -, horder⟩ := readInstant_anyOrder "2024-1-2003:4:05.5"
  exact ⟨(horder _ shapeReaders.reverse_perm).trans hread, hread⟩

end QueryConsole.Calendar
