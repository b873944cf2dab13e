import QueryConsole.Proofs.Http.Preview
import QueryConsole.Proofs.Request.RangeBounds

namespace QueryConsole

variable {t : UInt64} {value : Json} {rows : List Json}

inductive IsTotal (t : UInt64) : Json → Prop
  | number : IsTotal t (.number (.integer t.toNat))
  | text {s : String} (h : IsUnsigned t s) : IsTotal t (.text s)

/-- The first row is an object, and the last of its members of that name is the total. -/
inductive GivesTotal (t : UInt64) : List Json → Prop
  | first {members : List (String × Json)} {value : Json} (rest : List Json)
    (hmember : IsLast members ("total", value)) (h : IsTotal t value) :
    GivesTotal t (.object members :: rest)

theorem readTotal_eq_some : readTotal value = some t ↔ IsTotal t value := by
  constructor
  · intro h
    cases value with
    | number n =>
      cases n with
      | integer n =>
        rw [readTotal] at h
        split at h
        · next hrange =>
          cases h
          obtain ⟨n, rfl⟩ := Int.eq_ofNat_of_zero_le hrange.1
          have hlt : n < UInt64.size := by omega
          have htotal := IsTotal.number (t := UInt64.ofNat n)
          rwa [UInt64.toNat_ofNat_of_lt' hlt] at htotal
        · cases h
      | double x => cases h
    | text s => exact .text (Decimal.uint64?_eq_some.mp h)
    | null | bool | array | object => cases h
  · rintro (_ | h)
    · have hrange : (0 : Int) ≤ t.toNat ∧ (t.toNat : Int) < UInt64.size := by
        have hlt := t.toNat_lt_size
        omega
      rw [readTotal, if_pos hrange, Int.toNat_natCast, UInt64.ofNat_toNat]
    · exact Decimal.uint64?_eq_some.mpr h

theorem Json.member?_eq_some {key : String} {members : List (String × Json)} :
    (Json.object members).member? key = some value ↔ IsLast members (key, value) := by
  rw [member?, Option.map_eq_some_iff]
  constructor
  · rintro ⟨⟨key', value'⟩, hfind, rfl⟩
    obtain ⟨hkey, after, before, hmembers, hafter⟩ := List.find?_eq_some_iff_append.mp hfind
    obtain rfl : key' = key := by simpa using hkey
    refine ⟨before.reverse, after.reverse, by simpa using congrArg List.reverse hmembers, ?_⟩
    rw [List.mem_map]
    rintro ⟨member, hmember, rfl⟩
    exact absurd (hafter member (List.mem_reverse.mp hmember)) (by simp)
  · rintro ⟨before, after, rfl, hafter⟩
    refine ⟨(key, value), List.find?_eq_some_iff_append.mpr ⟨by simp, after.reverse,
      before.reverse, by simp, fun member hmember => ?_⟩, rfl⟩
    rw [Bool.not_eq_true', beq_eq_false_iff_ne]
    intro hkey
    exact hafter (List.mem_map.mpr ⟨member, List.mem_reverse.mp hmember, hkey⟩)

theorem totalOf_eq_some : totalOf rows = some t ↔ GivesTotal t rows := by
  constructor
  · intro h
    rw [totalOf] at h
    obtain ⟨row, hrow, hrest⟩ := Option.bind_eq_some_iff.mp h
    obtain ⟨value, hvalue, htotal⟩ := Option.bind_eq_some_iff.mp hrest
    obtain ⟨rest, rfl⟩ := List.head?_eq_some_iff.mp hrow
    cases row with
    | object members =>
      exact .first rest (Json.member?_eq_some.mp hvalue) (readTotal_eq_some.mp htotal)
    | _ => cases hvalue
  · rintro ⟨rest, hmember, h⟩
    rw [totalOf, List.head?_cons, Option.bind_some, Json.member?_eq_some.mpr hmember,
      Option.bind_some, readTotal_eq_some.mpr h]

theorem totalOf_eq_none : totalOf rows = none ↔ ∀ t, ¬GivesTotal t rows := by
  simp only [← totalOf_eq_some, Option.eq_none_iff_forall_ne_some, ne_eq]

namespace Engine

variable {e : Engine} {d : Dataset} {p : Parameters} {stmt : Statement}

theorem count_of_rows (hcompile : compile d .count p e.limits = .ok stmt)
    (hrows : e.storage.rows stmt = .ok rows) :
    e.count d p = ⟨[.rows stmt],
      (totalOf rows).elim (.error (.store (.noTotal d))) .ok⟩ := by
  simp only [count_eq, hcompile, Outcome.after_ok, total, Outcome.callRows, Outcome.andThen, hrows,
    Except.bind]
  cases totalOf rows <;> rfl

theorem result_count (hcompile : compile d .count p e.limits = .ok stmt)
    (hrows : e.storage.rows stmt = .ok rows) :
    (e.count d p).calls = [.rows stmt] ∧
      (∀ t, (e.count d p).result = .ok t ↔ GivesTotal t rows) ∧
      ((∀ t, ¬GivesTotal t rows) → (e.count d p).result = .error (.store (.noTotal d))) := by
  rw [count_of_rows hcompile hrows]
  refine ⟨rfl, fun t => ?_, fun hnone => ?_⟩
  · rw [← totalOf_eq_some]
    cases totalOf rows <;> simp
  · rw [totalOf_eq_none.mpr hnone]
    rfl

end Engine

end QueryConsole
