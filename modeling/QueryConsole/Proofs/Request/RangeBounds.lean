import QueryConsole.Proofs.Decimal.Unsigned
import QueryConsole.Proofs.Request.Members
import QueryConsole.Proofs.Statement.Demands
import QueryConsole.Proofs.Statement.Fragments
import QueryConsole.Proofs.Text.Utf8

namespace QueryConsole

section Bounds

open Json (AreDigits Piece StandFor Tree)

inductive IsBound : Tree → Option UInt64 → Prop
  | null : IsBound .null none
  | number {digits : List Char} {n : UInt64} (hn : Nat.ofDigitChars 10 digits 0 = n.toNat) :
    IsBound (.number ⟨false, digits, none, none⟩) (some n)
  | text {pieces : List Piece} {s : String} {n : UInt64} (hs : StandFor pieces s.toList)
    (h : IsUnsigned n s) : IsBound (.text pieces) (some n)

/-- The bound of the name among the members: none if there is no member of that name, and otherwise
that of the only one. -/
inductive GivesBound (name : String) (members : List (List Piece × Tree)) :
    Option UInt64 → Prop
  | absent (h : ∀ member ∈ members, ¬StandFor member.1 name.toList) :
    GivesBound name members none
  | present (before after : List (List Piece × Tree)) {member : List Piece × Tree}
    {bound : Option UInt64} (hmembers : members = before ++ member :: after)
    (hname : StandFor member.1 name.toList) (hbound : IsBound member.2 bound)
    (honce : ∀ other ∈ before ++ after, ¬StandFor other.1 name.toList) :
    GivesBound name members bound

/-- An object with a bound of either name, whatever else it has, or an array of at most two
bounds. -/
inductive IsBounds : Tree → Bounds → Prop
  | object {members : List (List Piece × Tree)} {least greatest : Option UInt64}
    (hnames : ∀ member ∈ members, ∃ name : String, StandFor member.1 name.toList)
    (hleast : GivesBound "min" members least) (hgreatest : GivesBound "max" members greatest) :
    IsBounds (.object members true) ⟨least, greatest⟩
  | empty : IsBounds (.array [] true) ⟨none, none⟩
  | least {t : Tree} {least : Option UInt64} (h : IsBound t least) :
    IsBounds (.array [t] true) ⟨least, none⟩
  | both {t t' : Tree} {least greatest : Option UInt64} (h : IsBound t least)
    (h' : IsBound t' greatest) : IsBounds (.array [t, t'] true) ⟨least, greatest⟩

theorem Json.Tree.bound?_eq_some {t : Tree} (h : t.IsWritten) {bound : Option UInt64} :
    t.bound? = some bound ↔ IsBound t bound := by
  constructor
  · intro ht
    cases t with
    | null =>
      cases ht
      exact .null
    | number n =>
      rw [Json.Tree.bound?] at ht
      split at ht
      · next value hnumber =>
        split at ht
        · next hpos =>
          cases ht
          have hinteger := (Json.number?_eq_integer h.number).mp hnumber
          obtain ⟨⟨hfraction, hexponent⟩, ⟨hnegative, hlt, rfl⟩ | ⟨-, hpositive, -, rfl⟩⟩ :=
            Json.isInteger64_iff.mp hinteger
          · obtain ⟨negative, digits, fraction, exponent⟩ := n
            cases hfraction
            cases hexponent
            cases hnegative
            rw [Int.toNat_natCast]
            exact .number (UInt64.toNat_ofNat_of_lt' hlt).symm
          · omega
        · cases ht
      · cases ht
    | text pieces =>
      obtain ⟨n, hn, rfl⟩ := Option.map_eq_some_iff.mp ht
      obtain ⟨s, hs, hcount⟩ := Option.bind_eq_some_iff.mp hn
      exact .text ((Json.pieceText?_eq_some h.text).mp hs) (Decimal.uint64?_eq_some.mp hcount)
    | bool | array | object | broken => cases ht
  · intro ht
    cases ht with
    | null => rfl
    | @number digits n hn =>
      have hinteger : Json.Numeral.IsInteger64 ⟨false, digits, none, none⟩ n.toNat := by
        have hlt := n.toNat_lt
        exact ⟨hn ▸ .natural digits, by omega, by omega, nofun⟩
      rw [Json.Tree.bound?, (Json.number?_eq_integer h.number).mpr hinteger]
      simp
    | text hs hcount =>
      rw [Json.Tree.bound?, (Json.pieceText?_eq_some h.text).mpr hs, Option.bind_some,
        Decimal.uint64?_eq_some.mpr hcount, Option.map_some]

variable {members : List (List Piece × Tree)} {member : List Piece × Tree} {name : String}
  {value : Option UInt64} {bound : Option (Option UInt64)}

inductive Fills (name : String) :
    List (List Piece × Tree) → Option (Option UInt64) → Option (Option UInt64) → Prop
  | nil (bound : Option (Option UInt64)) : Fills name [] bound bound
  | other {member : List Piece × Tree} {members : List (List Piece × Tree)}
    {bound bound' : Option (Option UInt64)} (hname : ¬StandFor member.1 name.toList)
    (h : Fills name members bound bound') : Fills name (member :: members) bound bound'
  | taken {member : List Piece × Tree} {members : List (List Piece × Tree)}
    {value : Option UInt64} {bound : Option (Option UInt64)}
    (hname : StandFor member.1 name.toList) (hvalue : IsBound member.2 value)
    (h : Fills name members (some value) bound) : Fills name (member :: members) none bound

theorem fills_some :
    Fills name members (some value) bound ↔
      (∀ member ∈ members, ¬StandFor member.1 name.toList) ∧ bound = some value := by
  constructor
  · intro h
    generalize hstart : some value = start at h
    induction h with
    | nil =>
      cases hstart
      exact ⟨nofun, rfl⟩
    | other hname _ ih =>
      obtain ⟨hnames, hbound⟩ := ih hstart
      exact ⟨List.forall_mem_cons.mpr ⟨hname, hnames⟩, hbound⟩
    | taken => cases hstart
  · rintro ⟨hnames, rfl⟩
    induction members with
    | nil => exact .nil _
    | cons member members ih =>
      rw [List.forall_mem_cons] at hnames
      exact .other hnames.1 (ih hnames.2)

theorem fills_cons_other {bound' : Option (Option UInt64)}
    (hname : ¬StandFor member.1 name.toList) :
    Fills name (member :: members) bound bound' ↔ Fills name members bound bound' := by
  constructor
  · intro h
    cases h with
    | other _ h => exact h
    | taken hnamed => exact absurd hnamed hname
  · exact .other hname

theorem fills_cons_named {bound' : Option (Option UInt64)}
    (hname : StandFor member.1 name.toList) :
    Fills name (member :: members) bound bound' ↔
      bound = none ∧ ∃ value, IsBound member.2 value ∧ Fills name members (some value) bound' := by
  constructor
  · intro h
    cases h with
    | other hother => exact absurd hname hother
    | taken _ hvalue h => exact ⟨rfl, _, hvalue, h⟩
  · rintro ⟨rfl, value, hvalue, h⟩
    exact .taken hname hvalue h

theorem givesBound_cons_other (hname : ¬StandFor member.1 name.toList) :
    GivesBound name (member :: members) value ↔ GivesBound name members value := by
  constructor
  · intro h
    cases h with
    | absent h => exact .absent (List.forall_mem_cons.mp h).2
    | @present before after named _ hmembers hnamed hbound honce =>
      cases before with
      | nil =>
        cases hmembers
        exact absurd hnamed hname
      | cons first before =>
        cases hmembers
        exact .present before after rfl hnamed hbound (List.forall_mem_cons.mp honce).2
  · intro h
    cases h with
    | absent h => exact .absent (List.forall_mem_cons.mpr ⟨hname, h⟩)
    | @present before after named _ hmembers hnamed hbound honce =>
      rw [hmembers]
      exact .present (member :: before) after rfl hnamed hbound
        (List.forall_mem_cons.mpr ⟨hname, honce⟩)

theorem givesBound_cons_named (hname : StandFor member.1 name.toList) :
    GivesBound name (member :: members) value ↔
      IsBound member.2 value ∧ ∀ other ∈ members, ¬StandFor other.1 name.toList := by
  constructor
  · intro h
    cases h with
    | absent h => exact absurd hname (h member List.mem_cons_self)
    | @present before after named _ hmembers hnamed hbound honce =>
      cases before with
      | nil =>
        cases hmembers
        exact ⟨hbound, honce⟩
      | cons first before =>
        cases hmembers
        exact absurd hname (honce member List.mem_cons_self)
  · rintro ⟨hbound, honce⟩
    exact .present [] members rfl hname hbound honce

theorem exists_fills :
    (∃ bound, Fills name members none bound ∧ bound.join = value) ↔
      GivesBound name members value := by
  induction members with
  | nil =>
    constructor
    · rintro ⟨bound, h, rfl⟩
      cases h
      exact .absent nofun
    · intro h
      cases h with
      | absent => exact ⟨none, .nil none, rfl⟩
      | present before after hmembers => simp at hmembers
  | cons member members ih =>
    by_cases hname : StandFor member.1 name.toList
    · simp only [fills_cons_named hname, givesBound_cons_named hname, fills_some]
      constructor
      · rintro ⟨bound, ⟨-, value, hvalue, honce, rfl⟩, rfl⟩
        exact ⟨hvalue, honce⟩
      · rintro ⟨hvalue, honce⟩
        exact ⟨some value, ⟨trivial, value, hvalue, honce, rfl⟩, rfl⟩
    · simp only [fills_cons_other hname, givesBound_cons_other hname, ih]

theorem bind_taken {b : Json.BoundsInProgress} {set : Option UInt64 → Json.BoundsInProgress}
    {next : Json.BoundsInProgress → Option Json.BoundsInProgress} (h : member.2.IsWritten) :
    (if bound.isSome then none else member.2.bound?.map set).bind next = some b ↔
      bound = none ∧ ∃ value, IsBound member.2 value ∧ next (set value) = some b := by
  cases bound with
  | some value => simp
  | none =>
    simp only [Option.isSome_none, Bool.false_eq_true, if_false, Option.bind_map,
      Option.bind_eq_some_iff, Function.comp_apply, true_and, Json.Tree.bound?_eq_some h]

theorem foldlM_member? {b b' : Json.BoundsInProgress}
    (h : ∀ member ∈ members, (Json.Token.text member.1).IsWritten ∧ member.2.IsWritten) :
    members.foldlM Json.BoundsInProgress.member? b = some b' ↔
      (∀ member ∈ members, ∃ name : String, StandFor member.1 name.toList) ∧
        Fills "min" members b.least b'.least ∧ Fills "max" members b.greatest b'.greatest := by
  induction members generalizing b with
  | nil =>
    obtain ⟨least, greatest⟩ := b
    obtain ⟨least', greatest'⟩ := b'
    constructor
    · intro heq
      cases heq
      exact ⟨nofun, .nil _, .nil _⟩
    · rintro ⟨-, hleast, hgreatest⟩
      cases hleast
      cases hgreatest
      rfl
  | cons member members ih =>
    rw [List.forall_mem_cons] at h
    rw [List.foldlM_cons, List.forall_mem_cons, Option.bind_eq_bind]
    cases hkey : Json.pieceText? member.1 with
    | none =>
      have hmember : b.member? member = none := by rw [Json.BoundsInProgress.member?, hkey]
      rw [hmember]
      refine ⟨nofun, fun ⟨⟨⟨name, hname⟩, _⟩, _⟩ => ?_⟩
      rw [(Json.pieceText?_eq_some h.1.1).mpr hname] at hkey
      cases hkey
    | some key =>
      have hnamed {name : String} : StandFor member.1 name.toList ↔ key = name := by
        rw [← Json.pieceText?_eq_some h.1.1, hkey, Option.some_inj]
      have hreadable : ∃ name : String, StandFor member.1 name.toList := ⟨key, hnamed.mpr rfl⟩
      rw [and_iff_right hreadable]
      by_cases hmin : key = "min"
      · have hmax : key ≠ "max" := by
          rw [hmin]
          decide
        have hmember : b.member? member = if b.least.isSome then none
            else member.2.bound?.map fun v => { b with least := some v } := by
          rw [Json.BoundsInProgress.member?, hkey, hmin]
          rfl
        rw [hmember, bind_taken h.1.2, fills_cons_named (hnamed.mpr hmin),
          fills_cons_other (mt hnamed.mp hmax)]
        simp only [ih h.2]
        tauto
      by_cases hmax : key = "max"
      · have hmember : b.member? member = if b.greatest.isSome then none
            else member.2.bound?.map fun v => { b with greatest := some v } := by
          rw [Json.BoundsInProgress.member?, hkey, hmax]
          rfl
        rw [hmember, bind_taken h.1.2, fills_cons_named (hnamed.mpr hmax),
          fills_cons_other (mt hnamed.mp hmin)]
        simp only [ih h.2]
        tauto
      · have hmember : b.member? member = some b := by
          rw [Json.BoundsInProgress.member?, hkey]
          split
          · next heq => exact absurd (Option.some.inj heq) hmin
          · next heq => exact absurd (Option.some.inj heq) hmax
          · rfl
          · next heq => cases heq
        rw [hmember, Option.bind_some, ih h.2, fills_cons_other (mt hnamed.mp hmin),
          fills_cons_other (mt hnamed.mp hmax)]

theorem Json.Tree.bounds?_eq_some {t : Tree} (h : t.IsWritten) {bounds : Bounds} :
    t.bounds? = some bounds ↔ IsBounds t bounds := by
  have hobject {members : List (List Piece × Tree)} (h : (Tree.object members true).IsWritten) :
      (Tree.object members true).bounds? = some bounds ↔
        (∀ member ∈ members, ∃ name : String, StandFor member.1 name.toList) ∧
          GivesBound "min" members bounds.least ∧ GivesBound "max" members bounds.greatest := by
    have hmembers : ∀ member ∈ members,
        (Json.Token.text member.1).IsWritten ∧ member.2.IsWritten :=
      fun member hmember => ⟨h.key hmember, h.value hmember⟩
    rw [Json.Tree.bounds?, Option.map_eq_some_iff, ← exists_fills, ← exists_fills]
    simp only [foldlM_member? hmembers]
    constructor
    · rintro ⟨b, ⟨hnames, hleast, hgreatest⟩, rfl⟩
      exact ⟨hnames, ⟨_, hleast, rfl⟩, ⟨_, hgreatest, rfl⟩⟩
    · rintro ⟨hnames, ⟨least, hleast, hl⟩, ⟨greatest, hgreatest, hg⟩⟩
      exact ⟨⟨least, greatest⟩, ⟨hnames, hleast, hgreatest⟩, by rw [hl, hg]⟩
  constructor
  · intro ht
    rw [Json.Tree.bounds?.eq_def] at ht
    split at ht
    case h_1 =>
      obtain ⟨hnames, hleast, hgreatest⟩ := (hobject h).mp ht
      exact .object hnames hleast hgreatest
    case h_2 =>
      cases ht
      exact .empty
    case h_3 t =>
      obtain ⟨least, hleast, rfl⟩ := Option.map_eq_some_iff.mp ht
      exact .least ((Json.Tree.bound?_eq_some (h.item List.mem_cons_self)).mp hleast)
    case h_4 t t' =>
      obtain ⟨least, hleast, ht⟩ := Option.bind_eq_some_iff.mp ht
      obtain ⟨greatest, hgreatest, rfl⟩ := Option.map_eq_some_iff.mp ht
      exact .both ((Json.Tree.bound?_eq_some (h.item List.mem_cons_self)).mp hleast)
        ((Json.Tree.bound?_eq_some (h.item (.tail _ List.mem_cons_self))).mp hgreatest)
    case h_5 => cases ht
  · intro ht
    cases ht with
    | object hnames hleast hgreatest => exact (hobject h).mpr ⟨hnames, hleast, hgreatest⟩
    | empty => rfl
    | least hleast =>
      rw [Json.Tree.bounds?,
        (Json.Tree.bound?_eq_some (h.item List.mem_cons_self)).mpr hleast, Option.map_some]
    | both hleast hgreatest =>
      rw [Json.Tree.bounds?,
        (Json.Tree.bound?_eq_some (h.item List.mem_cons_self)).mpr hleast, Option.bind_some,
        (Json.Tree.bound?_eq_some (h.item (.tail _ List.mem_cons_self))).mpr hgreatest,
        Option.map_some]

theorem Json.StandFor.unique {pieces : List Piece} {cs cs' : List Char} (h : StandFor pieces cs)
    (h' : StandFor pieces cs') : cs = cs' := by
  rw [← Option.some_inj, ← Json.pieceChars?_of_standFor h, Json.pieceChars?_of_standFor h']

theorem IsBound.unique {t : Tree} {bound bound' : Option UInt64} (h : IsBound t bound)
    (h' : IsBound t bound') : bound = bound' := by
  cases h with
  | null =>
    cases h'
    rfl
  | number hn =>
    cases h' with
    | number hn' => rw [UInt64.toNat_inj.mp (hn.symm.trans hn')]
  | text hs h =>
    cases h' with
    | text hs' h' =>
      rw [← String.toList_inj.mp (hs.unique hs')] at h'
      rw [← Decimal.uint64?_eq_some.mpr h, Decimal.uint64?_eq_some.mpr h']

theorem isBound_forms (n : UInt64) :
    IsBound (.number ⟨false, Nat.toDigits 10 n.toNat, none, none⟩) (some n) ∧
      IsBound (.text ((Nat.toDigits 10 n.toNat).map .char)) (some n) := by
  have hdigits : AreDigits (Nat.toDigits 10 n.toNat) :=
    fun c hc => Nat.isDigit_of_mem_toDigits (by decide) (by decide) hc
  have hvalue : Nat.ofDigitChars 10 (Nat.toDigits 10 n.toNat) 0 = n.toNat := by simp
  have hlist : (toString n.toNat).toList = Nat.toDigits 10 n.toNat := by simp
  have hstand := Json.standFor_map_char (Nat.toDigits 10 n.toNat)
  rw [← hlist] at hstand
  exact ⟨.number hvalue, .text (hlist ▸ hstand)
    (.digits [] _ hlist (.inl rfl) Nat.toDigits_ne_nil hdigits hvalue)⟩

end Bounds

section Tests

structure RangeTest where
  column : String
  isUpper : Bool
  value : UInt64

namespace RangeTest

def operator (r : RangeTest) : String :=
  if r.isUpper then " <= " else " >= "

def binding (position : Nat) (r : RangeTest) : Binding :=
  ⟨"range_" ++ toString position, .uint64 r.value⟩

def text (position : Nat) (r : RangeTest) : String :=
  r.column ++ r.operator ++ (r.binding position).placeholder.text

/-- The columns go by their bytes, and the least value goes before the greatest one. -/
def Precedes (r r' : RangeTest) : Prop :=
  Text.Utf8.encode r.column.toList < Text.Utf8.encode r'.column.toList ∨
    r.column = r'.column ∧ r.isUpper = false ∧ r'.isUpper = true

def IsAsked (t : Table) (ranges : RangeFilters) (r : RangeTest) : Prop :=
  t.acceptsRange r.column = true ∧ ∃ bounds, (r.column, bounds) ∈ ranges ∧
    (if r.isUpper then bounds.greatest else bounds.least) = some r.value

def demand (r : RangeTest) : Demand :=
  if r.isUpper then .atMost r.column r.value else .atLeast r.column r.value

end RangeTest

variable {t : Table} {ranges : RangeFilters}

def Bounds.tests (column : String) (bounds : Bounds) : List RangeTest :=
  (bounds.least.map (⟨column, false, ·⟩)).toList ++
    (bounds.greatest.map (⟨column, true, ·⟩)).toList

def Table.rangeTests (t : Table) (ranges : RangeFilters) : List RangeTest :=
  ranges.flatMap fun entry =>
    if Text.isIdentifier entry.1 && t.acceptsRange entry.1 then entry.2.tests entry.1 else []

theorem Table.rangeDemands_eq (t : Table) (ranges : RangeFilters) :
    t.rangeDemands ranges = (t.rangeTests ranges).map RangeTest.demand := by
  rw [Table.rangeDemands, Table.rangeTests, List.map_flatMap]
  congr 1
  funext entry
  obtain ⟨column, bounds⟩ := entry
  dsimp only
  split
  · rw [Bounds.tests]
    cases bounds.least <;> cases bounds.greatest <;> rfl
  · rfl

theorem Bounds.mem_tests {column : String} {bounds : Bounds} {r : RangeTest} :
    r ∈ bounds.tests column ↔
      r.column = column ∧ (if r.isUpper then bounds.greatest else bounds.least) = some r.value := by
  obtain ⟨column', isUpper, value⟩ := r
  cases isUpper <;> simp [Bounds.tests, eq_comm, and_comm]

theorem Dataset.takesRange_iff {d : Dataset} {column : String} :
    (Text.isIdentifier column && d.table.acceptsRange column) = true ↔
      d.table.acceptsRange column = true :=
  ⟨fun h => (Bool.and_eq_true_iff.mp h).2, fun h => d.takesRange (List.contains_iff_mem.mp h)⟩

theorem Dataset.mem_rangeTests {d : Dataset} {r : RangeTest} :
    r ∈ d.table.rangeTests ranges ↔ r.IsAsked d.table ranges := by
  rw [Table.rangeTests, List.mem_flatMap, RangeTest.IsAsked]
  simp only [takesRange_iff]
  constructor
  · rintro ⟨⟨column, bounds⟩, hmem, hr⟩
    dsimp only at hr
    split at hr
    · next haccepts =>
      obtain ⟨rfl, hvalue⟩ := Bounds.mem_tests.mp hr
      exact ⟨haccepts, bounds, hmem, hvalue⟩
    · cases hr
  · rintro ⟨haccepts, bounds, hmem, hvalue⟩
    refine ⟨(r.column, bounds), hmem, ?_⟩
    rw [if_pos haccepts]
    exact Bounds.mem_tests.mpr ⟨rfl, hvalue⟩

theorem Table.pairwise_rangeTests (h : KeysSorted ranges) :
    (t.rangeTests ranges).Pairwise RangeTest.Precedes := by
  rw [KeysSorted, List.pairwise_map] at h
  rw [Table.rangeTests, List.pairwise_flatMap]
  constructor
  · rintro ⟨column, bounds⟩ -
    dsimp only
    split
    · rw [Bounds.tests]
      cases bounds.least <;> cases bounds.greatest <;> simp [RangeTest.Precedes]
    · exact List.Pairwise.nil
  · refine h.imp fun {entry entry'} hlt r hr r' hr' => .inl ?_
    split at hr
    · split at hr'
      · rw [(Bounds.mem_tests.mp hr).1, (Bounds.mem_tests.mp hr').1]
        exact Text.Utf8.encode_lt_encode_iff.mpr hlt
      · cases hr'
    · cases hr

theorem bindAll_rangeTests (b : Bindings) (tests : List RangeTest) :
    (Demand.bindAll b (tests.map RangeTest.demand)).1.toList =
        b.toList ++ tests.mapIdx (fun i r => r.binding (b.size + i)) ∧
      (Demand.bindAll b (tests.map RangeTest.demand)).2.map Condition.text =
        tests.mapIdx fun i r => r.text (b.size + i) := by
  have hbinding (i : Nat) (r : RangeTest) : r.demand.step.binding i = r.binding i := by
    obtain ⟨column, isUpper, value⟩ := r
    cases isUpper <;> rfl
  have htext (i : Nat) (r : RangeTest) :
      (r.demand.condition (r.demand.placeholder i)).text = r.text i := by
    obtain ⟨column, isUpper, value⟩ := r
    cases isUpper <;> rfl
  have hmap {α β γ : Type} (xs : List α) (g : α → β) (f : Nat → β → γ) :
      (xs.map g).mapIdx f = xs.mapIdx fun i x => f i (g x) := by
    apply List.ext_getElem <;> simp
  rw [Demand.bindAll_eq]
  dsimp only
  rw [Bindings.toList_run, map_mapIdx, List.map_map, hmap, hmap]
  simp only [Function.comp_apply, hbinding, htext, and_self]

end Tests

theorem parseRanges_exact (raw : String) :
    ((∃ ranges, parseRanges (some raw) = .ok ranges) ↔ ∃ given, IsPayload IsBounds raw given) ∧
    ((¬∃ given, IsPayload IsBounds raw given) →
      parseRanges (some raw) = .error (.invalid .malformedRanges)) ∧
    (∀ given, IsPayload IsBounds raw given →
      ∃ ranges, parseRanges (some raw) = .ok ranges ∧ IsLatest given ranges) ∧
    (∀ n : UInt64, IsBound (.number ⟨false, Nat.toDigits 10 n.toNat, none, none⟩) (some n) ∧
      IsBound (.text ((Nat.toDigits 10 n.toNat).map .char)) (some n)) ∧
    (∀ t bound bound', IsBound t bound → IsBound t bound' → bound = bound') ∧
    ∀ ranges : RangeFilters, KeysSorted ranges → ∀ (d : Dataset) (b : Bindings),
      ∃ tests : List RangeTest, tests.Pairwise RangeTest.Precedes ∧
        (∀ r, r ∈ tests ↔ r.IsAsked d.table ranges) ∧
        (Demand.bindAll b (d.table.rangeDemands ranges)).1.toList =
          b.toList ++ tests.mapIdx (fun i r => r.binding (b.size + i)) ∧
        (Demand.bindAll b (d.table.rangeDemands ranges)).2.map Condition.text =
          tests.mapIdx fun i r => r.text (b.size + i) := by
  have hvalue (t : Json.Tree) (ht : t.IsWritten) (bounds : Bounds) :
      t.bounds? = some bounds ↔ IsBounds t bounds := Json.Tree.bounds?_eq_some ht
  refine ⟨exists_parseEntries hvalue, parseEntries_eq_error hvalue, fun given hgiven => ?_,
    isBound_forms, fun _ _ _ => IsBound.unique, fun ranges hsorted d b => ?_⟩
  · exact ⟨_, (parseEntries_eq_ok hvalue).mpr ⟨given, hgiven, isLatest_iff.mpr rfl⟩,
      isLatest_iff.mpr rfl⟩
  · rw [Table.rangeDemands_eq]
    exact ⟨d.table.rangeTests ranges, Table.pairwise_rangeTests hsorted,
      fun _ => Dataset.mem_rangeTests, bindAll_rangeTests b _⟩

section Example

open Json (StandFor Tree)

def mixedRanges : String :=
  "\x7b\"user\":[1],\"read_rows\":\x7b\"max\":\"+0500\",\"unit\":[1e9]," ++
    "\"min\":18446744073709551615\x7d\x7d"

def storedRanges : RangeFilters :=
  [("read_rows", ⟨some 18446744073709551615, some 500⟩), ("user", ⟨some 1, none⟩)]

theorem keysSorted_storedRanges : KeysSorted storedRanges :=
  (by decide : (["read_rows", "user"] : List String).Pairwise (· < ·))

theorem isPayload_mixedRanges :
    IsPayload IsBounds mixedRanges
      [("user", ⟨some 1, none⟩), ("read_rows", ⟨some 18446744073709551615, some 500⟩)] := by
  have hlexes := Json.wholeTree?_eq_some.mp
    (show Json.wholeTree? (Text.trim mixedRanges) = some (.object
      [("user".toList.map .char, .array [.number ⟨false, ['1'], none, none⟩] true),
       ("read_rows".toList.map .char, .object
         [("max".toList.map .char, .text ("+0500".toList.map .char)),
          ("unit".toList.map .char,
            .array [.number ⟨false, ['1'], none, some (false, ['9'])⟩] true),
          ("min".toList.map .char,
            .number ⟨false, "18446744073709551615".toList, none, none⟩)] true)] true) from rfl)
  have hother {name : String} {other : List Char} (hne : name.toList ≠ other) :
      ¬StandFor (other.map .char) name.toList :=
    fun h => hne (h.unique (Json.standFor_map_char other))
  have hupper : IsBound (.text ("+0500".toList.map .char)) (some 500) :=
    .text (Json.standFor_map_char "+0500".toList)
      (.digits ['+'] "0500".toList rfl (.inr rfl) (by decide)
        (List.all_eq_true.mp (by decide)) (by decide))
  refine .object hlexes (.cons ⟨Json.standFor_map_char _, .least (.number rfl)⟩
    (.cons ⟨Json.standFor_map_char _, .object ?_ ?_ ?_⟩ .nil))
  · simp only [List.forall_mem_cons, List.not_mem_nil, false_imp_iff, implies_true, and_true]
    exact ⟨⟨"max", Json.standFor_map_char _⟩, ⟨"unit", Json.standFor_map_char _⟩,
      ⟨"min", Json.standFor_map_char _⟩⟩
  · refine .present [_, _] [] rfl (Json.standFor_map_char _) (.number (by decide)) ?_
    simp only [List.append_nil, List.forall_mem_cons, List.not_mem_nil, false_imp_iff,
      implies_true, and_true]
    exact ⟨hother (by decide), hother (by decide)⟩
  · refine .present [] _ rfl (Json.standFor_map_char _) hupper ?_
    simp only [List.nil_append, List.forall_mem_cons, List.not_mem_nil, false_imp_iff,
      implies_true, and_true]
    exact ⟨hother (by decide), hother (by decide)⟩

end Example

theorem parseRanges_exact_mixedRanges :
    (∃ ranges, parseRanges (some mixedRanges) = .ok ranges ∧
      IsLatest
        [("user", ⟨some 1, none⟩), ("read_rows", ⟨some 18446744073709551615, some 500⟩)] ranges) ∧
    parseRanges (some "\x7b\"read_rows\":[18446744073709551616]\x7d") =
      .error (.invalid .malformedRanges) ∧
    ∃ tests : List RangeTest, tests.Pairwise RangeTest.Precedes ∧
      (∀ r, r ∈ tests ↔ r.IsAsked Dataset.queryLog.table storedRanges) ∧
      (Demand.bindAll ⟨[⟨"search", .text "x"⟩]⟩
          (Dataset.queryLog.table.rangeDemands storedRanges)).1.toList =
        [⟨"search", .text "x"⟩] ++ tests.mapIdx (fun i r => r.binding (1 + i)) ∧
      (Demand.bindAll ⟨[⟨"search", .text "x"⟩]⟩
          (Dataset.queryLog.table.rangeDemands storedRanges)).2.map Condition.text =
        tests.mapIdx fun i r => r.text (1 + i) := by
  refine ⟨(parseRanges_exact mixedRanges).2.2.1 _ isPayload_mixedRanges, ?_,
    (parseRanges_exact mixedRanges).2.2.2.2.2 storedRanges keysSorted_storedRanges .queryLog
      ⟨[⟨"search", .text "x"⟩]⟩⟩
  refine (parseRanges_exact _).2.1 fun hgiven => ?_
  obtain ⟨ranges, hranges⟩ := (parseRanges_exact _).1.mpr hgiven
  have hrefused : parseRanges (some "\x7b\"read_rows\":[18446744073709551616]\x7d") =
      .error (.invalid .malformedRanges) := by decide +kernel
  rw [hrefused] at hranges
  cases hranges

end QueryConsole
