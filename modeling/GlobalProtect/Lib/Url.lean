import Mathlib.Data.List.Infix
import Mathlib.Data.List.TakeWhile
import Mathlib.Data.String.Basic

/-! # URLs

A URL parser, as a program that calls it relies on it. What is documented of the whole parser is
kept as laws of `UrlParser`: a parsed URL is ASCII (everything else is percent-encoded), changing the
host keeps the query, and a port that is no number is refused. Texts of a plain form are decided
here (`plainUrl`), for the parser that knows no others: a domain of lower case letters, and a path
and a query of characters that a URL keeps as they are. -/

namespace GlobalProtect.Lib

structure Url where
  scheme : String
  /-- There is no hierarchy, as in a `data:` URL. -/
  cannotBeABase : Bool := false
  host : Option String := none
  port : Option ℕ := none
  path : String := ""
  query : Option String := none
  deriving DecidableEq, Repr

def IsAscii (s : String) : Prop := ∀ c ∈ s.toList, c.toNat < 128

/-! ### Plain texts -/

def isVisible (c : Char) : Bool := '!' ≤ c && c ≤ '~'

/-- The character is kept in a path, and does not end it or make a segment of dots, which may be
percent-encoded. -/
def isPathChar (c : Char) : Bool :=
  isVisible c && c ∉ ['"', '#', '%', '<', '>', '?', '\x60', '\x7b', '\x7d', '^', '\\', '.']

def isQueryChar (c : Char) : Bool := isVisible c && c ∉ ['"', '#', '<', '>', '\'']

/-- The path, the query or the fragment begins, or a path that is written with backslashes. -/
def endsAuthority (c : Char) : Bool := c = '/' || c = '?' || c = '#' || c = '\\'

def isDomain (host : List Char) : Bool :=
  host.all (fun c => c = '.' || c.isLower) && (host.splitOn '.').all (· ≠ [])

/-- The path and the query. -/
def plainTail (scheme : String) (host : List Char) (rest : List Char) : Option Url :=
  let url path := { scheme, host := some (String.ofList host), path : Url }
  match rest with
  | [] => some (url "/")
  | '/' :: rest =>
    let path := String.ofList ('/' :: rest.takeWhile isPathChar)
    match rest.dropWhile isPathChar with
    | [] => some (url path)
    | '?' :: query =>
      if query.all isQueryChar then some { url path with query := some (String.ofList query) }
      else none
    | _ => none
  | _ => none

/-- The verdict on a text after the scheme, if it is plain. -/
def plainRest (scheme : String) (text : List Char) : Option (Option Url) :=
  let host := text.takeWhile fun c => c = '.' || c.isLower || c.isDigit
  match text.dropWhile fun c => c = '.' || c.isLower || c.isDigit with
  | ':' :: rest =>
    let authority := rest.takeWhile (!endsAuthority ·)
    -- a sign at would make a name and a password of what is before it
    match authority.dropWhile Char.isDigit with
    | c :: _ => if isVisible c && '@' ∉ authority then some none else none
    | [] => none
  | rest => if isDomain host then (plainTail scheme host rest).map some else none

/-- The verdict on a plain text: a URL, or none. -/
def plainUrl (text : String) : Option (Option Url) :=
  match text.toList with
  | 'h' :: 't' :: 't' :: 'p' :: ':' :: '/' :: '/' :: rest => plainRest "http" rest
  | 'h' :: 't' :: 't' :: 'p' :: 's' :: ':' :: '/' :: '/' :: rest => plainRest "https" rest
  | _ => none

theorem toNat_lt_of_isVisible {c : Char} (h : isVisible c = true) : c.toNat < 128 := by
  have hle : c ≤ '~' := by simpa using (Bool.and_eq_true_iff.mp h).2
  have : c.toNat ≤ 126 := hle
  omega

theorem isAscii_of_all {text : List Char} (h : ∀ c ∈ text, isVisible c = true) :
    IsAscii (String.ofList text) := by
  intro c hc
  rw [String.toList_ofList] at hc
  exact toNat_lt_of_isVisible (h c hc)

/-- The parts of the URL are ASCII. -/
def Url.Ascii (url : Url) : Prop :=
  (∀ host ∈ url.host, IsAscii host) ∧ IsAscii url.path ∧ ∀ query ∈ url.query, IsAscii query

theorem isVisible_of_isDomain {host : List Char} (h : isDomain host = true) :
    ∀ c ∈ host, isVisible c = true := by
  intro c hc
  have hall := List.all_eq_true.mp (Bool.and_eq_true_iff.mp h).1 c hc
  rcases Bool.or_eq_true_iff.mp hall with hdot | hlower
  · rw [of_decide_eq_true hdot]
    decide
  · obtain ⟨hlow, hhigh⟩ := Bool.and_eq_true_iff.mp hlower
    have hlow : 'a'.val ≤ c.val := of_decide_eq_true hlow
    have hhigh : c.val ≤ 'z'.val := of_decide_eq_true hhigh
    refine Bool.and_eq_true_iff.mpr ⟨decide_eq_true ?_, decide_eq_true ?_⟩
    · exact le_trans (by decide : '!'.val ≤ 'a'.val) hlow
    · exact le_trans hhigh (by decide : 'z'.val ≤ '~'.val)

theorem ascii_plainTail {scheme : String} {host rest : List Char} {url : Url}
    (hhost : isDomain host = true) (h : plainTail scheme host rest = some url) : url.Ascii := by
  have hhost : ∀ h ∈ some (String.ofList host), IsAscii h := by
    rintro _ ⟨⟩
    exact isAscii_of_all (isVisible_of_isDomain hhost)
  have hpath : ∀ text : List Char, IsAscii (String.ofList ('/' :: text.takeWhile isPathChar)) := by
    intro text
    refine isAscii_of_all fun c hc => ?_
    rcases List.mem_cons.mp hc with rfl | hc
    · decide
    · have hkept : isPathChar c = true := List.mem_takeWhile_imp hc
      exact (Bool.and_eq_true_iff.mp hkept).1
  unfold plainTail at h
  split at h
  · cases h
    exact ⟨hhost, hpath [], by simp⟩
  · simp only at h
    split at h
    · cases h
      exact ⟨hhost, hpath _, by simp⟩
    · split_ifs at h with hquery
      cases h
      refine ⟨hhost, hpath _, ?_⟩
      rintro _ ⟨⟩
      refine isAscii_of_all fun c hc => ?_
      have hkept : isQueryChar c = true := List.all_eq_true.mp hquery c hc
      exact (Bool.and_eq_true_iff.mp hkept).1
    · cases h
  · cases h

theorem ascii_plainRest {scheme : String} {text : List Char} {url : Url}
    (h : plainRest scheme text = some (some url)) : url.Ascii := by
  unfold plainRest at h
  simp only at h
  split at h
  · split at h
    · split_ifs at h
      cases Option.some.inj h
    · cases h
  · split_ifs at h with hhost
    obtain ⟨u, hu, heq⟩ := Option.map_eq_some_iff.mp h
    cases heq
    exact ascii_plainTail hhost hu

theorem ascii_plainUrl {text : String} {url : Url} (h : plainUrl text = some (some url)) :
    url.Ascii := by
  unfold plainUrl at h
  split at h
  · exact ascii_plainRest h
  · exact ascii_plainRest h
  · cases h

theorem plainRest_refused {scheme : String} {host port rest : List Char} {c : Char}
    (hhost : ∀ d ∈ host, (d = '.' || d.isLower || d.isDigit) = true)
    (hport : ∀ d ∈ port, d.isDigit = true ∧ endsAuthority d = false) (hvisible : isVisible c = true)
    (hdigit : c.isDigit = false) (hend : endsAuthority c = false)
    (hat : '@' ∉ port ++ (c :: rest).takeWhile (!endsAuthority ·)) :
    plainRest scheme (host ++ ':' :: (port ++ c :: rest)) = some none := by
  have hrest : (host ++ ':' :: (port ++ c :: rest)).dropWhile
      (fun d => d = '.' || d.isLower || d.isDigit) = ':' :: (port ++ c :: rest) := by
    rw [List.dropWhile_append_of_pos hhost]
    rfl
  have hauthority : (port ++ c :: rest).takeWhile (!endsAuthority ·) =
      port ++ (c :: rest).takeWhile (!endsAuthority ·) :=
    List.takeWhile_append_of_pos fun d hd => by simp [(hport d hd).2]
  have hafter : (port ++ (c :: rest).takeWhile (!endsAuthority ·)).dropWhile Char.isDigit =
      c :: rest.takeWhile (!endsAuthority ·) := by
    rw [List.dropWhile_append_of_pos fun d hd => (hport d hd).1,
      List.takeWhile_cons_of_pos (by simp [hend]), List.dropWhile_cons_of_neg (by simp [hdigit])]
  simp only [plainRest, hrest, hauthority, hafter, hvisible, Bool.true_and]
  rw [if_pos (by simpa using hat)]

/-! ### Parsers -/

structure UrlParser where
  parse : String → Option Url
  setHost : Url → String → Option Url
  setQuery : Url → Option String → Url
  toString : Url → String
  parse_refused : ∀ text, plainUrl text = some none → parse text = none
  parse_ascii : ∀ text url, parse text = some url → url.Ascii
  setHost_query : ∀ url host url', setHost url host = some url' → url'.query = url.query

/-- The parser that knows plain texts only. -/
def UrlParser.plain : UrlParser where
  parse text := (plainUrl text).join
  setHost url host := some { url with host := some host }
  setQuery url query := { url with query }
  toString url := url.scheme ++ "://" ++ url.host.getD "" ++ url.path ++
    (url.query.map ("?" ++ ·)).getD ""
  parse_refused text h := by rw [h, Option.join_some]
  parse_ascii text url h := ascii_plainUrl (Option.join_eq_some_iff.mp h)
  setHost_query url host url' h := by
    cases h
    rfl

end GlobalProtect.Lib
