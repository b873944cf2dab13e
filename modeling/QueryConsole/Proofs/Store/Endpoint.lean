import QueryConsole.Proofs.Http.Form
import QueryConsole.Proofs.Text.Trim
import QueryConsole.Store.Reply
import Mathlib.Data.List.Basic
import Mathlib.Data.List.TakeWhile

namespace QueryConsole

namespace Http

namespace Url

def isAuthorityChar (c : Char) : Bool :=
  isNameChar c || c == ':' || c == '[' || c == ']'

theorem isAuthorityChar_of_isNameChar {c : Char} (h : isNameChar c = true) :
    isAuthorityChar c = true := by
  simp [isAuthorityChar, h]

theorem isAuthorityChar_of_isAddressChar {c : Char} (h : isAddressChar c = true) :
    isAuthorityChar c = true := by
  simp only [isAddressChar, Bool.or_eq_true, beq_iff_eq] at h
  obtain (h | rfl) | rfl := h
  · have halnum : c.isAlphanum = true := by
      change ((c.isUpper || c.isLower) || c.isDigit) = true
      rw [Text.hexValue?] at h
      split_ifs at h with hdigit hlower hupper
      · rw [hdigit, Bool.or_true]
      · have hc : c.isLower = true := by
          exact (Bool.and_eq_true _ _).mpr ⟨decide_eq_true hlower.1,
            decide_eq_true (Char.le_trans hlower.2 (by decide))⟩
        rw [hc, Bool.or_true, Bool.true_or]
      · have hc : c.isUpper = true :=
          decide_eq_true ⟨hupper.1, Char.le_trans hupper.2 (by decide)⟩
        rw [hc, Bool.true_or, Bool.true_or]
      · cases h
    simp [isAuthorityChar, isNameChar, halnum]
  · decide
  · decide

theorem isAuthorityChar_of_isPortNumber {cs : List Char} (h : isPortNumber cs = true) :
    ∀ c ∈ cs, isAuthorityChar c = true := by
  rw [isPortNumber.eq_def] at h
  split at h
  · nofun
  · next digits =>
    rw [Bool.and_eq_true] at h
    rw [List.forall_mem_cons]
    refine ⟨by decide, fun c hc => ?_⟩
    have hdigit := List.all_eq_true.mp h.1 c hc
    simp [isAuthorityChar, isNameChar, Char.isAlphanum, hdigit]
  · cases h

theorem isAuthorityChar_of_isHost {cs : List Char} (h : isHost cs = true) :
    ∀ c ∈ cs, isAuthorityChar c = true := by
  rw [isHost.eq_def] at h
  split at h
  case h_1 rest =>
    simp only [Bool.and_eq_true] at h
    obtain ⟨⟨⟨haddress, -⟩, hclosed⟩, hport⟩ := h
    rw [List.forall_mem_cons]
    refine ⟨by decide, fun c hc => ?_⟩
    rw [← List.takeWhile_append_dropWhile (p := (· != ']')) (l := rest), List.mem_append] at hc
    obtain hc | hc := hc
    · exact isAuthorityChar_of_isAddressChar (List.all_eq_true.mp haddress c hc)
    · obtain ⟨first, port, hrest⟩ := List.exists_cons_of_ne_nil (List.ne_nil_of_mem hc)
      rw [hrest] at hc hport
      obtain rfl | hc := List.mem_cons.mp hc
      · have hfirst := List.head?_dropWhile_not (· != ']') rest
        rw [hrest] at hfirst
        obtain rfl : _ = ']' := by simpa using hfirst
        decide
      · exact isAuthorityChar_of_isPortNumber hport c hc
  case h_2 =>
    simp only [isName, Bool.and_eq_true] at h
    obtain ⟨⟨⟨-, hname⟩, -⟩, hport⟩ := h
    intro c hc
    rw [← List.takeWhile_append_dropWhile (p := (· != ':')) (l := cs), List.mem_append] at hc
    obtain hc | hc := hc
    · exact isAuthorityChar_of_isNameChar (List.all_eq_true.mp hname c hc)
    · exact isAuthorityChar_of_isPortNumber hport c hc

theorem isHost_ne_nil {cs : List Char} (h : isHost cs = true) : cs ≠ [] := by
  rintro rfl
  cases h

theorem toNat_of_isAuthorityChar {c : Char} (h : isAuthorityChar c = true) : 0x20 < c.toNat := by
  simp only [isAuthorityChar, isNameChar, Bool.or_eq_true, beq_iff_eq] at h
  obtain (((((h | rfl) | rfl) | rfl) | rfl) | rfl) | rfl := h
  · have hword : Text.isWordChar c = true := by simp [Text.isWordChar, h]
    have hrange := Text.toNat_of_isWordChar hword
    omega
  all_goals decide

theorem endsHost_of_isAuthorityChar {c : Char} (h : isAuthorityChar c = true) :
    endsHost c = false := by
  have hends : ['/', '\\', '?', '#'].all (fun mark => !isAuthorityChar mark) = true := by decide
  rw [Bool.eq_false_iff]
  intro hc
  simp only [endsHost, isSlash, Bool.or_eq_true, beq_iff_eq, or_assoc] at hc
  have hnot := List.all_eq_true.mp hends c (by simpa using hc)
  rw [h] at hnot
  cases hnot

theorem isSlash_of_isAuthorityChar {c : Char} (h : isAuthorityChar c = true) :
    isSlash c = false := by
  have hends := endsHost_of_isAuthorityChar h
  simp only [endsHost, Bool.or_eq_false_iff] at hends
  exact hends.1.1

theorem strip_eq_self {cs : List Char} (h : ∀ c ∈ cs, 0x20 < c.toNat) : strip cs = cs := by
  have hinside : ∀ c ∈ cs, decide (c.toNat ≤ 0x20) = false := by
    intro c hc
    rw [decide_eq_false_iff_not, Nat.not_le]
    exact h c hc
  have hkept : ∀ c ∈ cs, (c != '\t' && c != '\n' && c != '\r') = true := by
    intro c hc
    have hc := h c hc
    simp only [Bool.and_eq_true, bne_iff_ne]
    refine ⟨⟨?_, ?_⟩, ?_⟩
    all_goals
      rintro rfl
      revert hc
      decide
  rw [strip, Text.dropWhile_eq_self hinside, Text.dropEndWhile_eq_self hinside,
    List.filter_eq_self.mpr hkept]

section Plain

variable {scheme authority : String}

theorem toLower_eq_self {c : Char} (h : c.toNat ≤ 0x20) : c.toLower = c := by
  refine dif_neg fun hupper => ?_
  have hlow : 'A'.toNat ≤ c.toNat := UInt32.le_iff_toNat_le.mp hupper.1
  exact absurd (Nat.le_trans hlow h) (by decide)

theorem scheme_chars (h : scheme.toList.map Char.toLower ∈ ["http".toList, "https".toList]) :
    ∀ c ∈ scheme.toList, 0x20 < c.toNat ∧ c ≠ ':' := by
  have hletters : ["http".toList, "https".toList].all (fun name => name.all fun letter =>
      0x20 < letter.toNat ∧ letter ≠ ':') = true := by
    decide
  simp only [List.all_eq_true, decide_eq_true_eq] at hletters
  intro c hc
  obtain ⟨hnat, hcolon⟩ := hletters _ h _ (List.mem_map_of_mem hc)
  constructor
  · by_contra hlow
    rw [toLower_eq_self (Nat.not_lt.mp hlow)] at hnat
    exact hlow hnat
  · rintro rfl
    exact hcolon rfl

def plainChars (scheme authority : String) : List Char :=
  scheme.toList ++ ':' :: '/' :: '/' :: (authority.toList ++ ['/'])

theorem takeWhile_plainChars (h : scheme.toList.map Char.toLower ∈ ["http".toList, "https".toList])
    (authority : String) :
    (plainChars scheme authority).takeWhile (· != ':') = scheme.toList ∧
      (plainChars scheme authority).dropWhile (· != ':') =
        ':' :: '/' :: '/' :: (authority.toList ++ ['/']) := by
  have hbefore : ∀ c ∈ scheme.toList, (c != ':') = true :=
    fun c hc => bne_iff_ne.mpr (scheme_chars h c hc).2
  rw [plainChars, List.takeWhile_append_of_pos hbefore, List.dropWhile_append_of_pos hbefore]
  simp

theorem isReadScheme (h : scheme.toList.map Char.toLower ∈ ["http".toList, "https".toList]) :
    (String.ofList (scheme.toList.map Char.toLower) == "http" ||
      String.ofList (scheme.toList.map Char.toLower) == "https") = true := by
  simp only [List.mem_cons, List.not_mem_nil, or_false] at h
  obtain h | h := h
  · rw [h]
    decide
  · rw [h]
    decide

section Authority

variable (hauthority : isHost authority.toList = true)
include hauthority

theorem strip_plainChars (h : scheme.toList.map Char.toLower ∈ ["http".toList, "https".toList]) :
    strip (plainChars scheme authority) = plainChars scheme authority := by
  apply strip_eq_self
  intro c hc
  simp only [plainChars, List.mem_append, List.mem_cons, List.not_mem_nil, or_false] at hc
  obtain hc | rfl | rfl | rfl | hc | rfl := hc
  · exact (scheme_chars h c hc).1
  · decide
  · decide
  · decide
  · exact toNat_of_isAuthorityChar (isAuthorityChar_of_isHost hauthority c hc)
  · decide

theorem dropWhile_isSlash : ('/' :: '/' :: (authority.toList ++ ['/'])).dropWhile isSlash =
    authority.toList ++ ['/'] := by
  obtain ⟨first, rest, hfirst⟩ := List.exists_cons_of_ne_nil (isHost_ne_nil hauthority)
  have hslash := isSlash_of_isAuthorityChar
    (isAuthorityChar_of_isHost hauthority first (by simp [hfirst]))
  change (authority.toList ++ ['/']).dropWhile isSlash = _
  rw [hfirst, List.cons_append, List.dropWhile_cons_of_neg (by simp [hslash])]

theorem takeWhile_host :
    (authority.toList ++ ['/']).takeWhile (fun c => !endsHost c) = authority.toList ∧
      (authority.toList ++ ['/']).dropWhile (fun c => !endsHost c) = ['/'] := by
  have hinside : ∀ c ∈ authority.toList, (!endsHost c) = true := by
    intro c hc
    rw [endsHost_of_isAuthorityChar (isAuthorityChar_of_isHost hauthority c hc), Bool.not_false]
  rw [List.takeWhile_append_of_pos hinside, List.dropWhile_append_of_pos hinside]
  exact ⟨List.append_nil _, rfl⟩

theorem parse?_plain (h : scheme.toList.map Char.toLower ∈ ["http".toList, "https".toList]) :
    parse? (scheme ++ "://" ++ authority ++ "/") = some ⟨authority, [""], none⟩ := by
  have hlist : (scheme ++ "://" ++ authority ++ "/").toList = plainChars scheme authority := by
    simp [plainChars]
  obtain ⟨hbefore, hafter⟩ := takeWhile_plainChars h authority
  obtain ⟨hhost, hlocation⟩ := takeWhile_host hauthority
  simp only [parse?, hlist, strip_plainChars hauthority h, hbefore, hafter, List.drop_succ_cons,
    List.drop_zero, dropWhile_isSlash hauthority, hhost, hlocation, isReadScheme h, hauthority,
    String.ofList_toList]
  rfl

end Authority

end Plain

end Url

end Http

namespace Store.Endpoint

/-- An address of scheme, host and port, with any number of slashes after it. -/
inductive IsPlain (e : Endpoint) : Prop
  | address (scheme authority : String) (slashes : Nat)
    (hscheme : scheme.toList.map Char.toLower ∈ ["http".toList, "https".toList])
    (hauthority : Http.Url.isHost authority.toList = true)
    (hurl : e.url = scheme ++ "://" ++ authority ++ String.ofList (List.replicate slashes '/'))

structure HasSendableCredentials (e : Endpoint) : Prop where
  user : isSendable e.user = true
  password : ∀ key, e.password = some key → isSendable key = true

/-- The request that a call is sent in, and what the store finds in it. -/
structure Sends (e : Endpoint) (c : Call) (format : String) (sent : Http.Request) : Prop where
  request : e.request? c = some sent
  reply : ∀ respond, e.reply respond c = .ok (respond sent)
  method : sent.method = "POST"
  path : sent.path = "/"
  body : sent.body = Text.Utf8.encode c.statement.text.toList
  query : Http.Form.decode sent.query =
    ("database", e.database) :: ("default_format", format) ::
      c.statement.bindings.toList.map fun b => ("param_" ++ b.name, b.value.encode)
  user : sent.header? "x-clickhouse-user" = some (Text.Utf8.encode e.user.toList)
  key : sent.header? "x-clickhouse-key" =
    e.password.map fun key => Text.Utf8.encode key.toList

variable {e : Endpoint}

theorem base_of_isPlain (h : e.IsPlain) :
    ∃ scheme authority, scheme.toList.map Char.toLower ∈ ["http".toList, "https".toList] ∧
      Http.Url.isHost authority.toList = true ∧ e.base = scheme ++ "://" ++ authority := by
  obtain ⟨scheme, authority, slashes, hscheme, hauthority, hurl⟩ := h
  refine ⟨scheme, authority, hscheme, hauthority, ?_⟩
  obtain ⟨before, last, hlast⟩ :=
    (List.eq_nil_or_concat' authority.toList).resolve_left (Http.Url.isHost_ne_nil hauthority)
  have hslash : (fun c => c == '/') last = false := by
    have hslash := Http.Url.isSlash_of_isAuthorityChar
      (Http.Url.isAuthorityChar_of_isHost hauthority last (by simp [hlast]))
    rw [Http.Url.isSlash, Bool.or_eq_false_iff] at hslash
    exact hslash.1
  have hlist : e.url.toList = scheme.toList ++ "://".toList ++ before ++ [last] ++
      List.replicate slashes '/' := by
    simp [hurl, hlast]
  rw [base, hlist, Text.dropEndWhile_append_of_all (by simp),
    Text.dropEndWhile_concat_of_neg (p := fun c => c == '/') hslash, List.append_assoc, ← hlast,
    ← String.toList_append, ← String.toList_append, String.ofList_toList]

theorem sends_of_isPlain (h : e.IsPlain) (hcredentials : e.HasSendableCredentials) (c : Call) :
    ∃ sent, e.Sends c c.format sent := by
  obtain ⟨scheme, authority, hscheme, hauthority, hbase⟩ := base_of_isPlain h
  have hurl : Http.Url.parse? (e.base ++ "/") = some ⟨authority, [""], none⟩ := by
    rw [hbase, Http.Url.parse?_plain hauthority hscheme]
  have hsendable : (e.credentials.all fun h => isSendable h.2) = true := by
    rw [credentials]
    cases hpassword : e.password with
    | none => simp [hcredentials.user]
    | some key => simp [hcredentials.user, hcredentials.password key hpassword]
  have hrequest : e.request? c = some ⟨"POST", "/" ++ "?" ++ Http.Form.encode (e.pairs c),
      e.headers, Text.Utf8.encode c.statement.text.toList⟩ := by
    simp only [request?, hurl, hsendable, if_true]
    rfl
  obtain ⟨hpath, hquery⟩ := Http.Request.path_query_of_target
    (r := ⟨"POST", "/" ++ "?" ++ Http.Form.encode (e.pairs c), e.headers,
      Text.Utf8.encode c.statement.text.toList⟩) rfl
    (by decide) (by decide) (Http.Form.hash_notMem_encode (e.pairs c))
  have huser : Http.Request.sameName "x-clickhouse-user" "x-clickhouse-user" = true := by decide
  have hkey : Http.Request.sameName "x-clickhouse-key" "x-clickhouse-key" = true := by decide
  have hother : Http.Request.sameName "x-clickhouse-user" "x-clickhouse-key" = false := by decide
  refine ⟨_, ⟨hrequest, ?_, rfl, hpath, rfl, ?_, ?_, ?_⟩⟩
  · intro respond
    rw [Endpoint.reply, hrequest]
  · rw [hquery, Http.Form.decode_encode]
    rfl
  · simp [Http.Request.header?, headers, credentials, huser]
  · cases hpassword : e.password with
    | none => simp [Http.Request.header?, headers, credentials, hpassword, hother]
    | some key =>
      simp [Http.Request.header?, headers, credentials, hpassword, hother, hkey]

def marked : Endpoint := ⟨"HTTP://[::1]:8123//", "a&b=c", "o=r&1", some "k3y"⟩

theorem isPlain_marked : marked.IsPlain :=
  .address "HTTP" "[::1]:8123" 2 (by decide) (by decide) (by decide)

theorem hasSendableCredentials_marked : marked.HasSendableCredentials where
  user := by decide
  password := by
    rintro key ⟨⟩
    decide

end Store.Endpoint

end QueryConsole
