import QueryConsole.Proofs.Condition.Reader
import QueryConsole.Proofs.Text.Braces

namespace QueryConsole

namespace Token

theorem scanFrom_append_cons {c : Char} (hc : Text.isWordChar c = false)
    (pending cs ds : List Char) :
    scanFrom pending (cs ++ c :: ds) = scanFrom pending cs ++ ofSign c ++ scanFrom [] ds := by
  induction cs generalizing pending with
  | nil => simp [scanFrom, hc]
  | cons c' cs ih =>
    rw [List.cons_append, scanFrom, scanFrom]
    split
    · rw [ih]
    · simp [ih]

theorem scanFrom_word {w : List Char} (hw : w.all Text.isWordChar = true) (pending : List Char) :
    scanFrom pending w = ofWord (pending ++ w) := by
  induction w generalizing pending with
  | nil => simp [scanFrom]
  | cons c w ih =>
    rw [List.all_cons, Bool.and_eq_true] at hw
    rw [scanFrom, if_pos hw.1, ih hw.2]
    simp

theorem scan_word {w : String} (hw : Text.IsWord w) : scan w = [word w] := by
  rw [scan, scanFrom_word hw.2, List.nil_append, ofWord, if_neg (by simpa using hw.1),
    String.ofList_toList]

theorem scan_append_left (a : String) {b : String}
    (hb : b.toList.head?.all (fun c => !Text.isWordChar c) = true) :
    scan (a ++ b) = scan a ++ scan b := by
  rw [scan, scan, scan, String.toList_append]
  cases hlist : b.toList with
  | nil => simp [scanFrom, ofWord]
  | cons c cs =>
    have hc : Text.isWordChar c = false := by simpa [hlist] using hb
    have hb' := scanFrom_append_cons hc [] [] cs
    rw [List.nil_append] at hb'
    rw [scanFrom_append_cons hc, hb', List.append_assoc]
    rfl

theorem scan_append_right {a : String}
    (ha : a.toList.getLast?.all (fun c => !Text.isWordChar c) = true) (b : String) :
    scan (a ++ b) = scan a ++ scan b := by
  rw [scan, scan, scan, String.toList_append]
  cases hlast : a.toList.getLast? with
  | none =>
    rw [List.getLast?_eq_none_iff.mp hlast]
    rfl
  | some c =>
    obtain ⟨cs, hlist⟩ := List.getLast?_eq_some_iff.mp hlast
    have hc : Text.isWordChar c = false := by simpa [hlast] using ha
    rw [hlist, List.append_assoc, List.singleton_append, scanFrom_append_cons hc,
      scanFrom_append_cons hc]
    simp [scanFrom, ofWord]

theorem scan_around (a : String) {b : String} (c : String)
    (hfirst : b.toList.head?.any (fun c => !Text.isWordChar c) = true)
    (hlast : b.toList.getLast?.all (fun c => !Text.isWordChar c) = true) :
    scan (a ++ b ++ c) = scan a ++ scan b ++ scan c := by
  have hb : (b ++ c).toList.head?.all (fun c => !Text.isWordChar c) = true := by
    cases hlist : b.toList with
    | nil => simp [hlist] at hfirst
    | cons c' cs => simpa [hlist] using hfirst
  rw [String.append_assoc, scan_append_left a hb, scan_append_right hlast, List.append_assoc]

theorem scan_intercalate {separator : String}
    (hfirst : separator.toList.head?.any (fun c => !Text.isWordChar c) = true)
    (hlast : separator.toList.getLast?.all (fun c => !Text.isWordChar c) = true)
    (items : List String) :
    scan (separator.intercalate items) = (scan separator).intercalate (items.map scan) := by
  induction items with
  | nil => rfl
  | cons item items ih =>
    cases items with
    | nil => simp
    | cons item' items =>
      rw [String.intercalate_cons_cons, scan_around _ _ hfirst hlast, ih]
      simp [List.intercalate_cons_cons]

def through (keyword : String) : Nat → List Token → Option Nat
  | depth, [] => some depth
  | depth, t :: ts =>
    if depth = 0 && isWord keyword t then none else through keyword (t.depthAfter depth) ts

variable {keyword : String}

theorem through_append (depth : Nat) (ts us : List Token) :
    through keyword depth (ts ++ us) =
      (through keyword depth ts).bind fun depth => through keyword depth us := by
  induction ts generalizing depth with
  | nil => rfl
  | cons t ts ih =>
    rw [List.cons_append, through, through]
    split
    · rfl
    · exact ih _

theorem through_intercalate {depth : Nat} {separator : List Token}
    (hsep : through keyword depth separator = some depth) {pieces : List (List Token)}
    (h : ∀ piece ∈ pieces, through keyword depth piece = some depth) :
    through keyword depth (separator.intercalate pieces) = some depth := by
  induction pieces with
  | nil => rfl
  | cons piece pieces ih =>
    rw [List.forall_mem_cons] at h
    cases pieces with
    | nil => simpa using h.1
    | cons piece' pieces =>
      rw [List.intercalate_cons_cons, through_append, through_append, h.1, Option.bind_some, hsep,
        Option.bind_some, ih h.2]

theorem splitFrom_append {depth depth' : Nat} {ts : List Token}
    (h : through keyword depth ts = some depth') (us : List Token) :
    splitFrom (isWord keyword) depth (ts ++ us) =
      (splitFrom (isWord keyword) depth' us).modifyHead (ts ++ ·) := by
  induction ts generalizing depth with
  | nil =>
    cases h
    cases hsplit : splitFrom (isWord keyword) depth' us <;> simp [hsplit]
  | cons t ts ih =>
    rw [through] at h
    split at h
    · cases h
    · next hplain =>
      rw [List.cons_append, splitFrom, if_neg hplain, ih h]
      cases splitFrom (isWord keyword) depth' us <;> rfl

theorem splitAt_of_through {ts : List Token} (h : through keyword 0 ts = some 0) :
    splitAt keyword ts = [ts] := by
  have hsplit := splitFrom_append h []
  rw [List.append_nil] at hsplit
  rw [splitAt, hsplit]
  simp [splitFrom]

theorem splitAt_intercalate {t : Token} (ht : isWord keyword t = true)
    {pieces : List (List Token)} (hne : pieces ≠ [])
    (h : ∀ piece ∈ pieces, through keyword 0 piece = some 0) :
    splitAt keyword ([t].intercalate pieces) = pieces := by
  induction pieces with
  | nil => exact absurd rfl hne
  | cons piece pieces ih =>
    rw [List.forall_mem_cons] at h
    cases pieces with
    | nil => rw [List.intercalate_singleton, splitAt_of_through h.1]
    | cons piece' pieces =>
      have hrest := ih (List.cons_ne_nil _ _) h.2
      rw [splitAt] at hrest
      rw [List.intercalate_cons_cons, List.append_assoc, splitAt, splitFrom_append h.1,
        List.singleton_append, splitFrom, if_pos (by simp [ht]), hrest]
      simp

end Token

end QueryConsole
