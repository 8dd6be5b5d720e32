import GlobalProtect.Lib.FormUrlencoded
import GlobalProtect.Lib.Url
import GlobalProtect.Lib.Utf8

/-! # Redacting URIs

`redact_value`, `redact_uri` and `redact_query` (`gpapi`, `utils/redact.rs`). They cut texts by
bytes, and a cut inside a character is a panic: that is `none` here.

The parts of a parsed URL are ASCII, so hosts and paths are cut safely. A value in a query is decoded
first, and can begin or end with any character (`Splits`): it is exactly then that the program panics
(`redaction_returns_iff`, `encoded_value_panics`). -/

namespace GlobalProtect.Utils

open Lib

def redactValue (text : String) : Option String :=
  if text.utf8ByteSize < 3 then some text
  else do
    let first ← Utf8.slice? text.toList 0 1
    let last ← Utf8.slice? text.toList (text.utf8ByteSize - 1) text.utf8ByteSize
    return String.ofList (first ++ List.replicate 10 '*' ++ last)

def redactPair (p : String × String) : Option (String × String) := do
  return (p.1, ← redactValue p.2)

def redactQuery : Option String → Option (Option String)
  | none => some none
  | some query => do
    let pairs ← (Form.parse (Form.bytesOf query)).mapM redactPair
    return some (Form.serialize pairs)

/-- A URL without a hierarchy, such as a `data:` URI. -/
def redactOpaque (url : Url) (uri : String) : Option String :=
  if url.scheme = "about" then some uri
  else if 15 < url.path.utf8ByteSize then do
    let head ← Utf8.slice? url.path.toList 0 10
    let tail ← Utf8.slice? url.path.toList 10 url.path.utf8ByteSize
    return url.scheme ++ ":" ++ String.ofList head ++ (← redactValue (String.ofList tail))
  else do
    return url.scheme ++ ":" ++ (← redactValue url.path)

def redactHierarchical (parser : UrlParser) (url : Url) : Option String := do
  let host ← redactValue (url.host.getD "")
  match parser.setHost url host with
  | none =>
    let query ← redactQuery url.query
    return url.scheme ++ "://[**********]" ++ url.path ++ (query.map ("?" ++ ·)).getD ""
  | some url =>
    let query ← redactQuery url.query
    return parser.toString (parser.setQuery url query)

def redactUri (parser : UrlParser) (uri : String) : Option String :=
  match parser.parse uri with
  | none => some uri
  | some url => if url.cannotBeABase then redactOpaque url uri else redactHierarchical parser url

/-! ### Values -/

/-- The text is redacted, and its first or last byte is not a character. -/
def Splits (text : String) : Prop :=
  3 ≤ text.utf8ByteSize ∧
    ∃ c, (c ∈ text.toList.head? ∨ c ∈ text.toList.getLast?) ∧ 128 ≤ c.toNat

theorem redactValue_eq {text : String} (h : 3 ≤ text.utf8ByteSize) :
    ∃ c ∈ text.toList.head?, ∃ d ∈ text.toList.getLast?,
      redactValue text = if c.toNat < 128 ∧ d.toNat < 128 then
        some (String.ofList ([c] ++ List.replicate 10 '*' ++ [d])) else none := by
  obtain ⟨l, rfl⟩ : ∃ l, text = String.ofList l := ⟨text.toList, String.ofList_toList.symm⟩
  rw [String.utf8ByteSize_ofList] at h
  rw [redactValue, String.utf8ByteSize_ofList, if_neg (by omega), String.toList_ofList]
  cases l with
  | nil => exact absurd h (by decide)
  | cons c rest =>
    obtain ⟨front, d, hlast⟩ : ∃ front d, c :: rest = front ++ [d] := by
      rcases List.eq_nil_or_concat (c :: rest) with hnil | ⟨front, d, hconcat⟩
      · cases hnil
      · exact ⟨front, d, by rw [hconcat, List.concat_eq_append]⟩
    refine ⟨c, rfl, d, by rw [hlast]; simp, ?_⟩
    rw [Utf8.slice?_first, hlast, Utf8.slice?_last]
    simp only [Utf8.utf8Size_eq_one]
    by_cases hc : c.toNat < 128
    · by_cases hd : d.toNat < 128
      · simp [hc, hd]
      · simp [hc, hd]
    · simp [hc]

theorem redactValue_isSome {text : String} : (redactValue text).isSome ↔ ¬ Splits text := by
  by_cases h : 3 ≤ text.utf8ByteSize
  · obtain ⟨c, hc, d, hd, heq⟩ := redactValue_eq h
    rw [heq]
    constructor
    · rintro hsome ⟨-, x, hx | hx, hhigh⟩
      · obtain rfl := Option.mem_unique hc hx
        rw [if_neg (by omega)] at hsome
        cases hsome
      · obtain rfl := Option.mem_unique hd hx
        rw [if_neg (by omega)] at hsome
        cases hsome
    · intro hnot
      rw [if_pos]
      · rfl
      · by_contra hhigh
        rcases not_and_or.mp hhigh with hhigh | hhigh
        · exact hnot ⟨h, c, Or.inl hc, by omega⟩
        · exact hnot ⟨h, d, Or.inr hd, by omega⟩
  · rw [redactValue, if_pos (by omega)]
    exact iff_of_true rfl fun hsplits => h hsplits.1

/-- Nothing but the first and the last character is revealed. -/
theorem redactValue_congr {text text' : String} (h : 3 ≤ text.utf8ByteSize)
    (h' : 3 ≤ text'.utf8ByteSize) (hhead : text.toList.head? = text'.toList.head?)
    (hlast : text.toList.getLast? = text'.toList.getLast?) :
    redactValue text = redactValue text' := by
  obtain ⟨c, hc, d, hd, heq⟩ := redactValue_eq h
  obtain ⟨c', hc', d', hd', heq'⟩ := redactValue_eq h'
  obtain rfl := Option.mem_unique hc (hhead ▸ hc')
  obtain rfl := Option.mem_unique hd (hlast ▸ hd')
  rw [heq, heq']

theorem redactValue_of_ascii {text : String} (h : IsAscii text) : (redactValue text).isSome := by
  rw [redactValue_isSome]
  rintro ⟨-, c, hc | hc, hhigh⟩
  · have := h c (List.mem_of_mem_head? hc)
    omega
  · have := h c (List.mem_of_mem_getLast? hc)
    omega

/-! ### Queries and URIs -/

theorem mapM_isSome {α β : Type} {f : α → Option β} (l : List α) :
    (l.mapM f).isSome ↔ ∀ a ∈ l, (f a).isSome := by
  induction l with
  | nil => simp
  | cons a l ih =>
    rw [List.mapM_cons, List.forall_mem_cons, ← ih]
    cases f a <;> cases l.mapM f <;> simp

/-- A value in the query is split. -/
def SplitsQuery (query : String) : Prop := ∃ p ∈ Form.parse (Form.bytesOf query), Splits p.2

theorem redactPair_isSome {p : String × String} : (redactPair p).isSome ↔ ¬ Splits p.2 := by
  rw [← redactValue_isSome, redactPair]
  cases redactValue p.2 <;> simp

theorem redactQuery_isSome {query : Option String} :
    (redactQuery query).isSome ↔ ∀ q ∈ query, ¬ SplitsQuery q := by
  cases query with
  | none => simp [redactQuery]
  | some q =>
    have hpairs : ((Form.parse (Form.bytesOf q)).mapM redactPair).isSome ↔ ¬ SplitsQuery q := by
      rw [mapM_isSome, SplitsQuery]
      push Not
      exact forall₂_congr fun p _ => redactPair_isSome
    simp only [Option.mem_some_iff, forall_eq']
    rw [← hpairs, redactQuery]
    cases (Form.parse (Form.bytesOf q)).mapM redactPair <;> simp

theorem slice?_ascii {text : List Char} (h : ∀ c ∈ text, c.toNat < 128) {k : ℕ}
    (hk : k ≤ text.length) :
    Utf8.slice? text 0 k = some (text.take k) ∧
      Utf8.slice? text k text.length = some (text.drop k) := by
  have htake := Utf8.utf8Len_of_ascii fun c hc => h c (List.mem_of_mem_take (i := k) hc)
  have hdrop := Utf8.utf8Len_of_ascii fun c hc => h c (List.mem_of_mem_drop (i := k) hc)
  rw [List.length_take, Nat.min_eq_left hk] at htake
  rw [List.length_drop] at hdrop
  have hhead := Utf8.slice?_middle [] (text.take k) (text.drop k)
  have htail := Utf8.slice?_middle (text.take k) (text.drop k) []
  rw [List.nil_append, List.take_append_drop, String.utf8Len_nil, Nat.zero_add, htake] at hhead
  rw [List.append_nil, List.take_append_drop, htake, hdrop, Nat.add_sub_cancel' hk] at htail
  exact ⟨hhead, htail⟩

theorem redactOpaque_isSome {url : Url} (h : IsAscii url.path) (uri : String) :
    (redactOpaque url uri).isSome := by
  unfold redactOpaque
  split_ifs with habout hlong
  · rfl
  · have hsize : url.path.utf8ByteSize = url.path.toList.length := by
      rw [← Utf8.utf8Len_of_ascii h, ← String.utf8ByteSize_ofList, String.ofList_toList]
    obtain ⟨hhead, htail⟩ := slice?_ascii h (k := 10) (by omega)
    have hascii : IsAscii (String.ofList (url.path.toList.drop 10)) := by
      intro c hc
      rw [String.toList_ofList] at hc
      exact h c (List.mem_of_mem_drop hc)
    obtain ⟨v, hv⟩ := Option.isSome_iff_exists.mp (redactValue_of_ascii hascii)
    simp [hhead, hsize, htail, hv]
  · obtain ⟨v, hv⟩ := Option.isSome_iff_exists.mp (redactValue_of_ascii h)
    simp [hv]

theorem redactHierarchical_isSome (parser : UrlParser) {url : Url}
    (h : ∀ host ∈ url.host, IsAscii host) :
    (redactHierarchical parser url).isSome ↔ ∀ query ∈ url.query, ¬ SplitsQuery query := by
  have hascii : IsAscii (url.host.getD "") := by
    cases hhost : url.host with
    | none => intro c hc; cases hc
    | some host => exact h host hhost
  obtain ⟨v, hv⟩ := Option.isSome_iff_exists.mp (redactValue_of_ascii hascii)
  rw [← redactQuery_isSome, redactHierarchical, hv]
  cases hset : parser.setHost url v with
  | none => cases redactQuery url.query <;> simp [hset]
  | some url' =>
    rw [← parser.setHost_query url v url' hset]
    cases hquery : redactQuery url'.query <;> simp [hset, hquery]

theorem redactUri_isSome (parser : UrlParser) (uri : String) :
    (redactUri parser uri).isSome ↔ ∀ url, parser.parse uri = some url →
      url.cannotBeABase = false → ∀ query ∈ url.query, ¬ SplitsQuery query := by
  unfold redactUri
  cases hparse : parser.parse uri with
  | none => simp
  | some url =>
    obtain ⟨hhost, hpath, -⟩ := parser.parse_ascii uri url hparse
    simp only [Option.some.injEq, forall_eq']
    cases hbase : url.cannotBeABase with
    | true => simpa using redactOpaque_isSome hpath uri
    | false => simpa using redactHierarchical_isSome parser hhost

theorem length_le_utf8ByteSize (text : String) : text.toList.length ≤ text.utf8ByteSize := by
  have hle : ∀ l : List Char, l.length ≤ String.utf8Len l := by
    intro l
    induction l with
    | nil => exact Nat.le_refl 0
    | cons c l ih =>
      have := c.utf8Size_pos
      rw [String.utf8Len_cons, List.length_cons]
      omega
  rw [← String.ofList_toList (s := text), String.utf8ByteSize_ofList, String.toList_ofList]
  exact hle _

/-- **Redaction returns exactly if no decoded value is split.** A text of three characters or more
then reveals its first and its last character only. -/
theorem redaction_returns_iff (parser : UrlParser) :
    (∀ uri, (redactUri parser uri).isSome ↔ ∀ url, parser.parse uri = some url →
      url.cannotBeABase = false → ∀ query ∈ url.query, ¬ SplitsQuery query) ∧
    (∀ text, (redactValue text).isSome ↔ ¬ Splits text) ∧
    ∀ text text' : String, 3 ≤ text.toList.length → 3 ≤ text'.toList.length →
      text.toList.head? = text'.toList.head? → text.toList.getLast? = text'.toList.getLast? →
        redactValue text = redactValue text' := by
  refine ⟨redactUri_isSome parser, fun text => redactValue_isSome, ?_⟩
  intro text text' h h' hhead hlast
  exact redactValue_congr (h.trans (length_le_utf8ByteSize text))
    (h'.trans (length_le_utf8ByteSize text')) hhead hlast

theorem redaction_returns_plain :
    (redactUri UrlParser.plain "https://idp.example.com/?q=foo").isSome ∧
      (redactValue "foo").isSome ∧ redactValue "foo" = redactValue "fruto" := by
  have hplain : ¬ Splits "foo" := by
    rintro ⟨-, c, hc | hc, hhigh⟩
    · cases hc
      exact absurd hhigh (by decide)
    · cases hc
      exact absurd hhigh (by decide)
  obtain ⟨huri, hvalue, hcongr⟩ := redaction_returns_iff UrlParser.plain
  refine ⟨(huri _).mpr fun url hurl _ query hquery => ?_, (hvalue "foo").mpr hplain,
    hcongr "foo" "fruto" (by decide) (by decide) (by decide) (by decide)⟩
  have hparse : (UrlParser.plain.parse "https://idp.example.com/?q=foo").bind (·.query) =
    some "q=foo" := by decide +kernel
  rw [hurl, Option.bind_some, Option.mem_def.mp hquery] at hparse
  cases hparse
  rintro ⟨p, hp, hsplits⟩
  rw [show Form.parse (Form.bytesOf "q=foo") = [("q", "foo")] by decide +kernel,
    List.mem_singleton] at hp
  subst hp
  exact hplain hsplits

/-- The value of the query is decoded to a letter of two bytes and one more. -/
theorem encoded_value_panics :
    UrlParser.plain.parse "https://idp.example.com/?q=%C3%A9a" =
        some { scheme := "https", host := some "idp.example.com", path := "/",
               query := some "q=%C3%A9a" } ∧
      Form.parse (Form.bytesOf "q=%C3%A9a") = [("q", "éa")] ∧
      redactUri UrlParser.plain "https://idp.example.com/?q=%C3%A9a" = none ∧
      redactValue "éa" = none := by
  decide +kernel

end GlobalProtect.Utils
