import QueryConsole.Proofs.Text.Words

/-! What of a statement is live: all that stands outside comments, string literals and quoted
identifiers.  The words of a statement are its live words and its hidden ones, interleaved. -/

namespace QueryConsole.Adhoc

open Text (isWordChar runs)

inductive Quote : Type
  | single : Quote
  | double : Quote
  | back : Quote
  deriving DecidableEq

def Quote.char : Quote → Char
  | .single => '\''
  | .double => '"'
  | .back => '\x60'

def Quote.ofChar? (c : Char) : Option Quote :=
  [single, double, back].find? fun q => q.char == c

inductive Region : Type
  | code : Region
  | line : Region
  | opening : Region
  | block : Region
  | star : Region
  | quoted : Quote → Region
  | escaped : Quote → Region
  deriving DecidableEq

namespace Region

def enter (c : Char) (rest : List Char) : Region :=
  if c = '-' ∧ rest.head? = some '-' then .line
  else if c = '/' ∧ rest.head? = some '*' then .opening
  else match Quote.ofChar? c with
    | some q => .quoted q
    | none => .code

def next : Region → Char → List Char → Region
  | .code, c, rest => enter c rest
  | .line, c, _ => if c = '\n' then .code else .line
  | .opening, _, _ => .block
  | .block, c, _ => if c = '*' then .star else .block
  | .star, c, _ => if c = '/' then .code else if c = '*' then .star else .block
  | .quoted q, c, _ => if c = q.char then .code else if c = '\\' then .escaped q else .quoted q
  | .escaped q, _, _ => .quoted q

def owner (r : Region) (c : Char) (rest : List Char) : Region :=
  if r = .code then enter c rest else r

def after : Region → List Char → Region
  | r, [] => r
  | r, c :: cs => after (r.next c cs) cs

def layer (face : Region → Char → Char) : Region → List Char → List Char
  | _, [] => []
  | r, c :: cs => face (r.owner c cs) c :: layer face (r.next c cs) cs

def liveFace : Region → Char → Char
  | .code, c => c
  | .quoted _, _ => '\''
  | .escaped _, _ => '\''
  | _, _ => ' '

def hiddenFace : Region → Char → Char
  | .code, _ => ' '
  | _, c => c

end Region

def liveText (text : String) : String :=
  String.ofList (Region.layer Region.liveFace .code text.toList)

/-- What stands in comments, literals and quoted identifiers. -/
def hiddenText (text : String) : String :=
  String.ofList (Region.layer Region.hiddenFace .code text.toList)

def Region.IsClosed (r : Region) : Prop :=
  r = .code ∨ r = .line

instance (r : Region) : Decidable r.IsClosed :=
  inferInstanceAs (Decidable (_ ∨ _))

def lastRegion (text : String) : Region :=
  Region.after .code text.toList

def marks : List Char :=
  ['-', '/', '*', '\'', '"', '\x60']

def isMarkChar (c : Char) : Bool :=
  marks.contains c

theorem isMarkChar_eq_false {p : Char → Bool} {c : Char} (hmarks : marks.any p = false)
    (hc : p c = true) : isMarkChar c = false := by
  rw [isMarkChar, List.contains_eq_mem, decide_eq_false_iff_not]
  intro hmark
  exact List.any_eq_false.mp hmarks c hmark hc

theorem isMarkChar_eq_false_of_isWordChar {c : Char} (h : isWordChar c = true) :
    isMarkChar c = false :=
  isMarkChar_eq_false (by decide) h

theorem ne_of_isMarkChar_eq_false {c mark : Char} (h : isMarkChar c = false)
    (hmark : mark ∈ marks) : c ≠ mark := by
  rintro rfl
  rw [isMarkChar, List.contains_eq_mem, decide_eq_true hmark] at h
  cases h

namespace Region

variable {face : Region → Char → Char} {r : Region} {c : Char} {cs ds : List Char}

theorem enter_of_not_isMarkChar (h : isMarkChar c = false) (rest : List Char) :
    enter c rest = .code := by
  have hdash : c ≠ '-' := ne_of_isMarkChar_eq_false h (by decide)
  have hslash : c ≠ '/' := ne_of_isMarkChar_eq_false h (by decide)
  have hquote : Quote.ofChar? c = none := by
    rw [Quote.ofChar?, List.find?_eq_none]
    intro q _ hq
    rw [beq_iff_eq] at hq
    exact ne_of_isMarkChar_eq_false h (by cases q <;> decide) hq.symm
  simp [enter, hdash, hslash, hquote]

theorem isClosed_of_next (h : isMarkChar c = false) (rest : List Char)
    (hnext : (r.next c rest).IsClosed) : r.IsClosed := by
  have hquote (q : Quote) : c ≠ q.char :=
    ne_of_isMarkChar_eq_false h (by cases q <;> decide)
  have hslash : c ≠ '/' := ne_of_isMarkChar_eq_false h (by decide)
  cases r with
  | code => exact .inl rfl
  | line => exact .inr rfl
  | opening => simp [next, IsClosed] at hnext
  | block =>
    rw [next] at hnext
    split at hnext <;> simp [IsClosed] at hnext
  | star =>
    rw [next, if_neg hslash] at hnext
    split at hnext <;> simp [IsClosed] at hnext
  | quoted q =>
    rw [next, if_neg (hquote q)] at hnext
    split at hnext <;> simp [IsClosed] at hnext
  | escaped q => simp [next, IsClosed] at hnext

theorem isClosed_of_after (h : ∀ c ∈ cs, isMarkChar c = false) (hafter : (r.after cs).IsClosed) :
    r.IsClosed := by
  induction cs generalizing r with
  | nil => exact hafter
  | cons c cs ih =>
    rw [List.forall_mem_cons] at h
    exact isClosed_of_next h.1 cs (ih h.2 hafter)

theorem after_code (h : ∀ c ∈ cs, isMarkChar c = false) (rest : List Char) :
    after .code (cs ++ rest) = after .code rest := by
  induction cs with
  | nil => rfl
  | cons c cs ih =>
    rw [List.forall_mem_cons] at h
    rw [List.cons_append, after, next, enter_of_not_isMarkChar h.1, ih h.2]

theorem layer_code (h : ∀ c ∈ cs, isMarkChar c = false) (rest : List Char) :
    layer face .code (cs ++ rest) = cs.map (face .code) ++ layer face .code rest := by
  induction cs with
  | nil => rfl
  | cons c cs ih =>
    rw [List.forall_mem_cons] at h
    rw [List.cons_append, layer, owner, if_pos rfl, next, enter_of_not_isMarkChar h.1, ih h.2]
    rfl

theorem layer_line (h : ∀ c ∈ cs, c ≠ '\n') : layer face .line cs = cs.map (face .line) := by
  induction cs with
  | nil => rfl
  | cons c cs ih =>
    rw [List.forall_mem_cons] at h
    rw [layer, next, if_neg h.1, ih h.2]
    rfl

theorem enter_append (h : ∀ d ∈ ds.head?, d ≠ '-' ∧ d ≠ '*') (c : Char) :
    enter c (cs ++ ds) = enter c cs := by
  cases cs with
  | nil =>
    have hdash : ds.head? ≠ some '-' := fun hd => (h _ hd).1 rfl
    have hstar : ds.head? ≠ some '*' := fun hd => (h _ hd).2 rfl
    simp [enter, hdash, hstar]
  | cons d cs => rfl

theorem next_append (h : ∀ d ∈ ds.head?, d ≠ '-' ∧ d ≠ '*') (r : Region) (c : Char) :
    r.next c (cs ++ ds) = r.next c cs := by
  cases r with
  | code => exact enter_append h c
  | _ => rfl

theorem after_append (h : ∀ d ∈ ds.head?, d ≠ '-' ∧ d ≠ '*') (r : Region) :
    r.after (cs ++ ds) = (r.after cs).after ds := by
  induction cs generalizing r with
  | nil => rfl
  | cons c cs ih => rw [List.cons_append, after, after, next_append h, ih]

theorem layer_append (h : ∀ d ∈ ds.head?, d ≠ '-' ∧ d ≠ '*') (r : Region) :
    layer face r (cs ++ ds) = layer face r cs ++ layer face (r.after cs) ds := by
  induction cs generalizing r with
  | nil => rfl
  | cons c cs ih =>
    rw [List.cons_append, layer, layer, after, next_append h, ih, owner, owner, enter_append h]
    rfl

theorem next_ne_code (hr : r ≠ .code) (hc : isWordChar c = true) (rest : List Char) :
    r.next c rest ≠ .code := by
  intro hnext
  obtain hcode | hline :=
    isClosed_of_next (isMarkChar_eq_false_of_isWordChar hc) rest (.inl hnext)
  · exact hr hcode
  · rw [hline, next] at hnext
    split at hnext
    · next heq =>
      rw [heq] at hc
      revert hc
      decide
    · cases hnext

theorem isWordChar_liveFace (h : isWordChar c = false) (r : Region) :
    isWordChar (liveFace r c) = false := by
  cases r with
  | code => exact h
  | quoted q => show isWordChar '\'' = false; decide
  | escaped q => show isWordChar '\'' = false; decide
  | _ => show isWordChar ' ' = false; decide

theorem isWordChar_hiddenFace (h : isWordChar c = false) (r : Region) :
    isWordChar (hiddenFace r c) = false := by
  cases r with
  | code => show isWordChar ' ' = false; decide
  | _ => exact h

theorem isWordChar_liveFace_of_ne (hr : r ≠ .code) (c : Char) :
    isWordChar (liveFace r c) = false := by
  cases r with
  | code => exact absurd rfl hr
  | quoted q => show isWordChar '\'' = false; decide
  | escaped q => show isWordChar '\'' = false; decide
  | _ => show isWordChar ' ' = false; decide

theorem hiddenFace_of_ne (hr : r ≠ .code) (c : Char) : hiddenFace r c = c := by
  cases r with
  | code => exact absurd rfl hr
  | _ => rfl

theorem layer_run {run : List Char} (hr : r ≠ .code) (hrun : run.all isWordChar = true)
    (rest : List Char) :
    ∃ r' mask, (∀ c ∈ mask, isWordChar c = false) ∧
      layer liveFace r (run ++ rest) = mask ++ layer liveFace r' rest ∧
      layer hiddenFace r (run ++ rest) = run ++ layer hiddenFace r' rest := by
  induction run generalizing r with
  | nil => exact ⟨r, [], by simp, rfl, rfl⟩
  | cons c run ih =>
    rw [List.all_cons, Bool.and_eq_true] at hrun
    obtain ⟨r', mask, hmask, hlive, hhidden⟩ := ih (next_ne_code hr hrun.1 (run ++ rest)) hrun.2
    refine ⟨r', liveFace r c :: mask, ?_, ?_, ?_⟩
    · exact List.forall_mem_cons.mpr ⟨isWordChar_liveFace_of_ne hr c, hmask⟩
    · rw [List.cons_append, layer, owner, if_neg hr, hlive, List.cons_append]
    · rw [List.cons_append, layer, owner, if_neg hr, hhidden, hiddenFace_of_ne hr, List.cons_append]

end Region

inductive Interleaved {α : Type} : List α → List α → List α → Prop
  | nil : Interleaved [] [] []
  | left {a : α} {as bs cs : List α} : Interleaved as bs cs → Interleaved (a :: as) bs (a :: cs)
  | right {b : α} {as bs cs : List α} : Interleaved as bs cs → Interleaved as (b :: bs) (b :: cs)

namespace Interleaved

variable {α β : Type} {as bs cs : List α} {a : α}

theorem mem_iff (h : Interleaved as bs cs) : a ∈ cs ↔ a ∈ as ∨ a ∈ bs := by
  induction h with
  | nil => simp
  | left _ ih => simp [ih, or_assoc]
  | right _ ih => simp [ih, or_left_comm]

theorem head? (h : Interleaved as bs cs) (hcs : cs.head? = some a) :
    as.head? = some a ∨ a ∈ bs := by
  cases h with
  | nil => cases hcs
  | left h => exact .inl hcs
  | right h =>
    cases hcs
    exact .inr List.mem_cons_self

theorem map (f : α → β) (h : Interleaved as bs cs) :
    Interleaved (as.map f) (bs.map f) (cs.map f) := by
  induction h with
  | nil => exact .nil
  | left _ ih => exact .left ih
  | right _ ih => exact .right ih

end Interleaved

namespace Region

variable {r : Region} {run rest : List Char}

theorem head?_layer {face : Region → Char → Char}
    (hface : ∀ c, isWordChar c = false → ∀ r, isWordChar (face r c) = false)
    (hrest : ∀ c ∈ rest.head?, isWordChar c = false) (r : Region) :
    ∀ c ∈ (layer face r rest).head?, isWordChar c = false := by
  cases rest with
  | nil => simp [layer]
  | cons d rest =>
    rintro c ⟨⟩
    exact hface d (hrest d rfl) _

theorem runs_mask_append {mask cs : List Char} (h : ∀ c ∈ mask, isWordChar c = false) :
    runs (mask ++ cs) = runs cs := by
  rw [Text.runs_append' (fun c hc => h c (List.mem_of_getLast? hc)), Text.runs_of_none h,
    List.nil_append]

theorem runs_run_append {cs : List Char} (hrun : run.all isWordChar = true) (hne : run ≠ [])
    (h : ∀ c ∈ cs.head?, isWordChar c = false) : runs (run ++ cs) = run :: runs cs := by
  rw [Text.runs_append h, Text.runs_of_all hrun hne, List.singleton_append]

theorem interleaved_run (hrun : run.all isWordChar = true)
    (hrest : ∀ c ∈ rest.head?, isWordChar c = false)
    (h : ∀ r, Interleaved (runs (layer liveFace r rest)) (runs (layer hiddenFace r rest))
      (runs rest)) (r : Region) :
    Interleaved (runs (layer liveFace r (run ++ rest))) (runs (layer hiddenFace r (run ++ rest)))
      (runs (run ++ rest)) := by
  have hlive := head?_layer (fun c hc r => isWordChar_liveFace hc r) hrest
  have hhidden := head?_layer (fun c hc r => isWordChar_hiddenFace hc r) hrest
  by_cases hne : run = []
  · rw [hne]
    exact h r
  · rw [runs_run_append hrun hne hrest]
    by_cases hr : r = .code
    · have hmark : ∀ c ∈ run, isMarkChar c = false :=
        fun c hc => isMarkChar_eq_false_of_isWordChar (List.all_eq_true.mp hrun c hc)
      have hshown : run.map (liveFace .code) = run := List.map_id run
      have hblank : ∀ c ∈ run.map (hiddenFace .code), isWordChar c = false := by
        intro c hc
        obtain ⟨d, -, rfl⟩ := List.mem_map.mp hc
        show isWordChar ' ' = false
        decide
      rw [hr, layer_code hmark, layer_code hmark, hshown, runs_run_append hrun hne (hlive _),
        runs_mask_append hblank]
      exact .left (h .code)
    · obtain ⟨r', mask, hmask, hshown, hkept⟩ := layer_run hr hrun rest
      rw [hshown, hkept, runs_mask_append hmask, runs_run_append hrun hne (hhidden _)]
      exact .right (h r')

theorem interleaved_runs (r : Region) (cs : List Char) :
    Interleaved (runs (layer liveFace r cs)) (runs (layer hiddenFace r cs)) (runs cs) := by
  induction cs using Text.runInduction generalizing r with
  | last run hrun =>
    have hempty (r : Region) : Interleaved (runs (layer liveFace r []))
        (runs (layer hiddenFace r [])) (runs []) := .nil
    simpa using interleaved_run hrun (by simp) hempty r
  | next run c cs hrun hc ih =>
    refine interleaved_run hrun (by simpa using hc) (fun r => ?_) r
    rw [layer, layer, Text.runs_cons (isWordChar_liveFace hc _),
      Text.runs_cons (isWordChar_hiddenFace hc _), Text.runs_cons hc]
    exact ih _

end Region

theorem interleaved_words (text : String) :
    Interleaved (Text.words (liveText text)) (Text.words (hiddenText text)) (Text.words text) := by
  simp only [Text.words_eq, liveText, hiddenText, String.toList_ofList]
  exact (Region.interleaved_runs .code text.toList).map String.ofList

section Append

variable {text plain : String}

theorem head?_ne_mark (h : ∀ c ∈ plain.toList, isMarkChar c = false) :
    ∀ d ∈ plain.toList.head?, d ≠ '-' ∧ d ≠ '*' := by
  intro d hd
  have hplain := h d (List.mem_of_head? hd)
  exact ⟨ne_of_isMarkChar_eq_false hplain (by decide),
    ne_of_isMarkChar_eq_false hplain (by decide)⟩

theorem liveText_plain_append (h : ∀ c ∈ plain.toList, isMarkChar c = false) (text : String) :
    liveText (plain ++ text) = plain ++ liveText text := by
  have hshown : plain.toList.map (Region.liveFace .code) = plain.toList := List.map_id _
  rw [liveText, String.toList_append, Region.layer_code h, hshown, String.ofList_append,
    String.ofList_toList, liveText]

theorem lastRegion_plain_append (h : ∀ c ∈ plain.toList, isMarkChar c = false) (text : String) :
    lastRegion (plain ++ text) = lastRegion text := by
  rw [lastRegion, String.toList_append, Region.after_code h, lastRegion]

theorem liveText_append_plain (h : ∀ c ∈ plain.toList, isMarkChar c = false)
    (hends : lastRegion text = .code) : liveText (text ++ plain) = liveText text ++ plain := by
  have hplain : Region.layer Region.liveFace .code plain.toList = plain.toList := by
    have hlive := liveText_plain_append h ""
    rw [String.append_empty] at hlive
    simpa [liveText, Region.layer] using congrArg String.toList hlive
  rw [lastRegion] at hends
  rw [liveText, String.toList_append, Region.layer_append (head?_ne_mark h), hends, hplain,
    String.ofList_append, String.ofList_toList, liveText]

theorem words_liveText_append (h : ∀ c ∈ plain.toList, isMarkChar c = false ∧ c ≠ '\n')
    (hends : lastRegion text = .line) :
    Text.words (liveText (text ++ plain)) = Text.words (liveText text) := by
  have hhidden : ∀ c ∈ plain.toList.map (Region.liveFace .line), isWordChar c = false := by
    intro c hc
    obtain ⟨d, -, rfl⟩ := List.mem_map.mp hc
    exact Region.isWordChar_liveFace_of_ne (by decide) d
  have hnone : Text.words (String.ofList (plain.toList.map (Region.liveFace .line))) = [] :=
    Text.words_of_none (by rwa [String.toList_ofList])
  have hhead : ∀ c ∈ (String.ofList (plain.toList.map (Region.liveFace .line))).toList.head?,
      isWordChar c = false := by
    rw [String.toList_ofList]
    exact fun c hc => hhidden c (List.mem_of_head? hc)
  rw [lastRegion] at hends
  rw [liveText, String.toList_append, Region.layer_append (head?_ne_mark fun c hc => (h c hc).1),
    hends, Region.layer_line fun c hc => (h c hc).2, String.ofList_append,
    Text.words_append hhead, hnone, List.append_nil, liveText]

theorem isClosed_of_lastRegion_append (h : ∀ c ∈ plain.toList, isMarkChar c = false)
    (hclosed : (lastRegion (text ++ plain)).IsClosed) : (lastRegion text).IsClosed := by
  rw [lastRegion, String.toList_append, Region.after_append (head?_ne_mark h)] at hclosed
  exact Region.isClosed_of_after h hclosed

theorem lastRegion_eq_code {c : Char} (hmark : isMarkChar c = false) (hc : c ≠ '\n')
    (hends : lastRegion (text ++ String.singleton c) = .code) : lastRegion text = .code := by
  have hplain : ∀ d ∈ (String.singleton c).toList, isMarkChar d = false := by
    simpa using hmark
  rw [lastRegion, String.toList_append, Region.after_append (head?_ne_mark hplain)] at hends
  obtain hcode | hline := Region.isClosed_of_after hplain (.inl hends)
  · exact hcode
  · rw [hline, String.toList_singleton, Region.after, Region.next, if_neg hc] at hends
    cases hends

end Append

end QueryConsole.Adhoc
