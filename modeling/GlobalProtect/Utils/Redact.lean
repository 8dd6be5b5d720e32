import GlobalProtect.Lib.Regex
import GlobalProtect.Lib.Substring

/-! # Redacting the log

The model of `Redaction` (`gpapi`, `utils/redact.rs`). Patterns are searched in the original text,
and every match is then replaced where its text first occurs in what has been redacted so far.

For registered values that is enough: replacing never makes an occurrence, and a value has as many
matches as occurrences that do not overlap, so none is left (`registered_values_hidden`). Addresses
are found only between word boundaries, and there the first occurrence of their text can be another
place (`addresses_redacted_iff`, `address_left`). -/

namespace GlobalProtect.Utils

open Lib Lib.Substring

/-- What matches are replaced with. -/
def marker : List Char := "[**********]".toList

theorem mem_marker {c : Char} (h : c ∈ marker) : c = '[' ∨ c = '*' ∨ c = ']' := by
  have hall : marker.all (fun c => c = '[' || c = '*' || c = ']') = true := by decide
  simpa [or_assoc] using List.all_eq_true.mp hall c h

theorem marker_eq : marker = '[' :: marker.tail := by decide

theorem open_mem_marker : '[' ∈ marker := by decide

/-- One number of an address, with the dot after it. -/
def octet (u : CharClasses) : Regex :=
  let digit := Regex.char u.isDigit
  let number := Regex.alt (.seq (.literal ['2', '5']) (.range '0' '5'))
    (.seq (.alt (.seq (.literal ['2']) (.range '0' '4')) (.alt (.seq (.literal ['1']) digit)
      (.alt (.range '1' '9') .empty))) digit)
  .seq number (.seq (.opt (.literal ['.'])) .wordBoundary)

/-- The pattern `(((25[0-5]|(2[0-4]|1\d|[1-9]|)\d)\.?\b){4})`. -/
def ipv4 (u : CharClasses) : Regex := (octet u).times 4

structure Redaction where
  patterns : List Regex

namespace Redaction

variable (u : CharClasses)

def new : Redaction where
  patterns := [ipv4 u]

/-- `compiles` says for which texts an expression can be built; if it cannot for one of them, none
is registered. -/
def addValues (compiles : String → Bool) (r : Redaction) (texts : List String) : Option Redaction :=
  if texts.all compiles then
    some { patterns := r.patterns ++ texts.map fun text => Regex.literal text.toList }
  else none

def addValue (compiles : String → Bool) (r : Redaction) (text : String) : Option Redaction :=
  r.addValues compiles [text]

/-- The matches are replaced one after the other. -/
def replaceAll (text : List Char) (found : List (List Char)) : List Char :=
  found.foldl (fun text matched => replaceFirst matched marker text) text

def redactStr (r : Redaction) (text : String) : String :=
  String.ofList <| r.patterns.foldl
    (fun acc pattern => replaceAll acc (findIter (pattern.find u.isWord) text.toList)) text.toList

/-! ### Registered values -/

variable {u : CharClasses} {value : List Char} {n : ℕ}

/-- Every match of a value is the value, and there are as many as occurrences that do not overlap. -/
theorem scan_literal {find : Option Char → List Char → Option ℕ} (hvalue : value ≠ [])
    (hfind : ∀ before text, find before text =
      if value <+: text then some value.length else none)
    (before : Option Char) (skip : ℕ) (ended : Bool) (text : List Char) :
    ∃ k, (scan find before skip ended text).filterMap Piece.part? = List.replicate k value ∧
      ∀ n, Packed value n (text.drop skip) → n ≤ k := by
  have hpos : 0 < value.length := List.length_pos_iff.mpr hvalue
  have hnothing : ∀ n, Packed value n [] → n ≤ 0 := fun n h => (h.eq_zero hvalue).le
  fun_induction scan find before skip ended text with
  | case1 => exact ⟨0, rfl, hnothing⟩
  | case2 before ended hfound =>
    rw [hfind, if_neg (by simpa using hvalue)] at hfound
    cases hfound
  | case3 => exact ⟨0, rfl, hnothing⟩
  | case4 before skip ended c text ih => exact ih
  | case5 before ended c text hnone ih =>
    -- no occurrence begins here
    have hnot : ¬ value <+: c :: text := by
      intro h
      rw [hfind, if_pos h] at hnone
      cases hnone
    obtain ⟨k, hk, hmax⟩ := ih
    exact ⟨k, hk, fun n h => hmax n (h.tail hnot)⟩
  | case6 before c text hzero ih | case7 before ended c text hzero h ih =>
    rw [hfind] at hzero
    split_ifs at hzero
    have := Option.some.inj hzero
    omega
  | case8 before ended c text n hsome ih =>
    rw [hfind] at hsome
    split_ifs at hsome with hhere
    have hlen : value.length = n + 1 := Option.some.inj hsome
    obtain ⟨k, hk, hmax⟩ := ih
    have hmatch : c :: text.take n = value := by
      rw [List.prefix_iff_eq_take.mp hhere, hlen, List.take_succ_cons]
    refine ⟨k + 1, ?_, fun m h => ?_⟩
    · rw [List.filterMap_cons_some (b := value) (by rw [hmatch]; rfl), hk]
      rfl
    · cases m with
      | zero => exact Nat.zero_le _
      | succ m =>
        have hrest : text.drop n = (c :: text).drop value.length := by rw [hlen]; rfl
        refine Nat.succ_le_succ (hmax m ?_)
        rw [hrest]
        exact h.drop

/-- Other replacements do not make occurrences of a value. -/
theorem packed_of_replaceAll (hvalue : value ≠ []) (hfree : ∀ c ∈ marker, c ∉ value)
    (found : List (List Char)) {text : List Char} (h : Packed value n (replaceAll text found)) :
    Packed value n text := by
  induction found generalizing text with
  | nil => exact h
  | cons matched found ih =>
    exact (ih h).of_replaceFirst hvalue (by decide) hfree

theorem packed_of_foldl (hvalue : value ≠ []) (hfree : ∀ c ∈ marker, c ∉ value)
    (patterns : List Regex) (original : List Char) {text : List Char}
    (h : Packed value n (patterns.foldl
      (fun acc pattern => replaceAll acc (findIter (pattern.find u.isWord) original)) text)) :
    Packed value n text := by
  induction patterns generalizing text with
  | nil => exact h
  | cons pattern patterns ih => exact packed_of_replaceAll hvalue hfree _ (ih h)

theorem packed_of_replicate (hvalue : value ≠ []) (hfree : ∀ c ∈ marker, c ∉ value) (k : ℕ)
    {text : List Char} (h : Packed value 1 (replaceAll text (List.replicate k value))) :
    Packed value (k + 1) text := by
  induction k generalizing text with
  | zero => exact h
  | succ k ih =>
    exact (ih h).succ_of_replaceFirst hvalue (by decide) hfree (Nat.succ_ne_zero k)

theorem not_infix_redactStr {r : Redaction} (hr : Regex.literal value ∈ r.patterns)
    (hvalue : value ≠ []) (hfree : ∀ c ∈ marker, c ∉ value) (text : String) :
    ¬ value <:+: (r.redactStr u text).toList := by
  intro hleft
  obtain ⟨ps, qs, hpatterns⟩ := List.append_of_mem hr
  rw [redactStr, String.toList_ofList, hpatterns, List.foldl_append, List.foldl_cons] at hleft
  have hafter := packed_of_foldl hvalue hfree qs text.toList (packed_one_iff.mpr hleft)
  have hfind : ∀ before text, (Regex.literal value).find u.isWord before text =
      if value <+: text then some value.length else none := Regex.find_literal value
  obtain ⟨k, hk, hmax⟩ := scan_literal hvalue hfind none 0 false text.toList
  rw [findIter, pieces, hk] at hafter
  have hbefore := packed_of_replicate hvalue hfree k hafter
  have hcount := hmax (k + 1) (packed_of_foldl hvalue hfree ps text.toList hbefore)
  omega

/-! ### Registrations -/

inductive Registration where
  | value (text : String)
  | values (texts : List String)

namespace Registration

def texts : Registration → List String
  | .value text => [text]
  | .values texts => texts

def run (compiles : String → Bool) (r : Redaction) : Registration → Option Redaction
  | .value text => r.addValue compiles text
  | .values texts => r.addValues compiles texts

theorem run_eq (compiles : String → Bool) (r : Redaction) (registration : Registration) :
    registration.run compiles r = r.addValues compiles registration.texts := by
  cases registration <;> rfl

end Registration

/-- The redaction after registrations; a refused one changes nothing. -/
def register (compiles : String → Bool) (r : Redaction) (registrations : List Registration) :
    Redaction :=
  registrations.foldl (fun r registration => (registration.run compiles r).getD r) r

variable {compiles : String → Bool} {registration : Registration}
  {registrations : List Registration}

theorem mem_register (registrations : List Registration) {r : Redaction} {pattern : Regex}
    (h : pattern ∈ r.patterns) : pattern ∈ (r.register compiles registrations).patterns := by
  induction registrations generalizing r with
  | nil => exact h
  | cons registration registrations ih =>
    refine ih ?_
    show pattern ∈ ((registration.run compiles r).getD r).patterns
    rw [Registration.run_eq, addValues]
    split_ifs
    · exact List.mem_append_left _ h
    · exact h

theorem literal_mem_register (hregistered : registration ∈ registrations)
    (haccepted : registration.texts.all compiles = true) {v : String}
    (hv : v ∈ registration.texts) (r : Redaction) :
    Regex.literal v.toList ∈ (r.register compiles registrations).patterns := by
  induction registrations generalizing r with
  | nil => cases hregistered
  | cons registration' registrations ih =>
    rcases List.mem_cons.mp hregistered with rfl | hregistered
    · refine mem_register registrations ?_
      show Regex.literal v.toList ∈ ((registration.run compiles r).getD r).patterns
      rw [Registration.run_eq, addValues, if_pos haccepted]
      exact List.mem_append_right _ (List.mem_map_of_mem hv)
    · exact ih hregistered _

/-- **Registered values never survive redaction**, in whatever order and with whatever overlaps they
were registered. -/
theorem registered_values_hidden (u : CharClasses) (compiles : String → Bool)
    (registrations : List Registration)
    (hvalues : ∀ registration ∈ registrations, ∀ v ∈ registration.texts,
      v ≠ "" ∧ '[' ∉ v.toList ∧ '*' ∉ v.toList ∧ ']' ∉ v.toList) (text : String) :
    ∀ registration ∈ registrations, registration.texts.all compiles = true →
      ∀ v ∈ registration.texts,
        ¬ v.toList <:+: (((new u).register compiles registrations).redactStr u text).toList := by
  intro registration hregistered haccepted v hv
  obtain ⟨hne, hopen, hstar, hclose⟩ := hvalues registration hregistered v hv
  refine not_infix_redactStr (literal_mem_register hregistered haccepted hv _) ?_ ?_ text
  · exact fun h => hne (String.toList_eq_nil_iff.mp h)
  · intro c hc
    rcases mem_marker hc with rfl | rfl | rfl
    · exact hopen
    · exact hstar
    · exact hclose

/-- Values that overlap in the text. -/
theorem registered_values_hidden_overlap :
    ¬ "foo".toList <:+: (((new CharClasses.ascii).register (fun _ => true)
      [.values ["foobar", "foo"], .value "obar"]).redactStr CharClasses.ascii
        "foobar foo obar").toList :=
  registered_values_hidden CharClasses.ascii (fun _ => true)
    [.values ["foobar", "foo"], .value "obar"]
    (by
      intro registration hregistered
      rcases List.mem_pair.mp hregistered with rfl | rfl
      · decide
      · decide)
    "foobar foo obar" (.values ["foobar", "foo"]) List.mem_cons_self rfl "foo" (by decide)

/-! ### Addresses -/

/-- The matches of the pattern for addresses, and what is between them. -/
def addresses (u : CharClasses) (text : String) : List Piece :=
  pieces ((ipv4 u).find u.isWord) text.toList

/-- After the pieces `front`, the text of no match begins earlier than the match, where earlier
matches are blanked out. -/
def Undisturbed (front ps : List Piece) : Prop :=
  ∀ mid part rest, ps = mid ++ .found part :: rest →
    FirstAt (part.map some) ((front ++ mid).map Piece.blank)
      ((part ++ rest.flatMap Piece.raw).map some)

/-- The text can be a match: it is not empty and has no character of the marker. -/
def Plain (part : List Char) : Prop := part ≠ [] ∧ ∀ c ∈ marker, c ∉ part

theorem over_char {q : Char → Bool} (hopen : q '[' = false) (hstar : q '*' = false)
    (hclose : q ']' = false) : (Regex.char q).Over (· ∉ marker) := by
  intro c hc hmem
  rcases mem_marker hmem with rfl | rfl | rfl
  · exact Bool.false_ne_true (hopen.symm.trans hc)
  · exact Bool.false_ne_true (hstar.symm.trans hc)
  · exact Bool.false_ne_true (hclose.symm.trans hc)

theorem over_ipv4 : (ipv4 u).Over (· ∉ marker) := by
  have hdigit : (Regex.char u.isDigit).Over (· ∉ marker) :=
    over_char (u.isDigit_ascii '[' (by decide)) (u.isDigit_ascii '*' (by decide))
      (u.isDigit_ascii ']' (by decide))
  have hlow : (Regex.range '0' '5').Over (· ∉ marker) := over_char rfl rfl rfl
  have hmid : (Regex.range '0' '4').Over (· ∉ marker) := over_char rfl rfl rfl
  have hhigh : (Regex.range '1' '9').Over (· ∉ marker) := over_char rfl rfl rfl
  have hsign : ∀ d ∈ ['1', '2', '5', '.'], (Regex.literal [d]).Over (· ∉ marker) := by
    intro d hd
    simp only [List.mem_cons, List.not_mem_nil, or_false] at hd
    rcases hd with rfl | rfl | rfl | rfl <;> exact ⟨over_char rfl rfl rfl, trivial⟩
  have hnumber : (octet u).Over (· ∉ marker) :=
    ⟨⟨⟨⟨(hsign '2' (by decide)).1, (hsign '5' (by decide)).1, trivial⟩, hlow⟩,
        ⟨⟨hsign '2' (by decide), hmid⟩, ⟨hsign '1' (by decide), hdigit⟩, hhigh, trivial⟩, hdigit⟩,
      ⟨hsign '.' (by decide), trivial⟩, trivial⟩
  exact ⟨hnumber, hnumber, hnumber, hnumber, trivial⟩

theorem plain_of_mem_addresses {text : String} {part : List Char}
    (h : .found part ∈ addresses u text) : Plain part := by
  refine found_scan (P := Plain) ?_ none 0 false text.toList part h
  intro before text n hn
  have hmem := List.mem_of_mem_head? hn
  have hlen : 4 ≤ (text.take n).length := Regex.minLength_le hmem
  refine ⟨?_, fun c hc hmatch => over_ipv4.take hmem c hmatch hc⟩
  intro hnil
  rw [hnil] at hlen
  exact absurd hlen (by decide)

theorem prefix_render_iff {part : List Char} (hfree : ∀ c ∈ marker, c ∉ part) (front : List Piece)
    (rest : List Char) :
    part <+: front.flatMap (Piece.render marker) ++ rest ↔
      part.map some <+: front.map Piece.blank ++ rest.map some := by
  induction front generalizing part with
  | nil => exact (List.prefix_map_iff_of_injective fun _ _ => Option.some.inj).symm
  | cons p front ih =>
    cases part with
    | nil => simp
    | cons d part =>
      cases p with
      | kept c =>
        have := ih fun c hc hmem => hfree c hc (List.mem_cons_of_mem _ hmem)
        simp [Piece.render, Piece.blank, List.cons_prefix_cons, this]
      | found matched =>
        have hd : d ≠ '[' := by
          rintro rfl
          exact hfree '[' open_mem_marker List.mem_cons_self
        simp only [List.flatMap_cons, Piece.render, List.map_cons, Piece.blank]
        rw [marker_eq]
        simp [List.cons_prefix_cons, hd]

/-- Where a match first occurs in the text redacted so far is seen in the original text. -/
theorem firstAt_render_iff {part : List Char} (hpart : Plain part) (front : List Piece)
    (rest : List Char) :
    FirstAt part (front.flatMap (Piece.render marker)) rest ↔
      FirstAt (part.map some) (front.map Piece.blank) (rest.map some) := by
  obtain ⟨hne, hfree⟩ := hpart
  induction front with
  | nil => exact iff_of_true firstAt_nil firstAt_nil
  | cons p front ih =>
    cases p with
    | kept c =>
      have hhere := prefix_render_iff hfree (.kept c :: front) rest
      simp only [List.flatMap_cons, Piece.render, List.map_cons, Piece.blank, List.cons_append,
        List.nil_append] at hhere ⊢
      rw [firstAt_cons, firstAt_cons, hhere, ih]
    | found matched =>
      have hblank : ∀ c ∈ [(none : Option Char)], c ∉ part.map some := by simp
      rw [List.flatMap_cons, Piece.render, firstAt_append hne hfree, ih]
      exact (firstAt_append (by simpa using hne) hblank).symm

/-- The text has a marker where something else is expected. -/
def Misplaced (expected text : List Char) : Prop :=
  ∃ x d e r, text = x ++ '[' :: r ∧ expected = x ++ d :: e ∧ d ≠ '['

theorem Misplaced.ne {expected text : List Char} (h : Misplaced expected text) :
    text ≠ expected := by
  obtain ⟨x, d, e, r, rfl, rfl, hd⟩ := h
  intro heq
  exact hd (List.cons.inj (List.append_cancel_left heq)).1.symm

/-- A misplaced marker stays, or one is put in front of it. -/
theorem Misplaced.replaceFirst {expected text part : List Char} (h : Misplaced expected text)
    (hpart : Plain part) : Misplaced expected (replaceFirst part marker text) := by
  obtain ⟨x, d, e, r, rfl, rfl, hd⟩ := h
  rcases replaceFirst_cases part marker (x ++ '[' :: r) with ⟨-, hsame⟩ | ⟨a, b, htext, hnew⟩
  · rw [hsame]
    exact ⟨x, d, e, r, rfl, rfl, hd⟩
  · rw [hnew]
    have hopen : ∀ c ∈ ['['], c ∉ part := by
      intro c hc
      rw [List.mem_singleton.mp hc]
      exact hpart.2 '[' open_mem_marker
    rcases infix_split hpart.1 (by decide) hopen
      (by simpa using htext : x ++ ['['] ++ r = a ++ part ++ b) with ⟨z, rfl, rfl⟩ | ⟨z, rfl, rfl⟩
    · obtain ⟨f, part, rfl⟩ := List.exists_cons_of_ne_nil hpart.1
      refine ⟨a, f, part ++ z ++ d :: e, marker.tail ++ (z ++ ['['] ++ r), ?_, by simp, ?_⟩
      · rw [List.append_assoc, ← List.cons_append, ← marker_eq]
      · rintro rfl
        exact hopen '[' List.mem_cons_self List.mem_cons_self
    · exact ⟨x, d, e, z ++ marker ++ b, by simp, rfl, hd⟩

theorem Misplaced.replaceAll {expected text : List Char} {found : List (List Char)}
    (h : Misplaced expected text) (hfound : ∀ part ∈ found, Plain part) :
    Misplaced expected (replaceAll text found) := by
  induction found generalizing text with
  | nil => exact h
  | cons part found ih =>
    refine ih (h.replaceFirst (hfound part List.mem_cons_self)) fun part' hpart' => ?_
    exact hfound part' (List.mem_cons_of_mem _ hpart')

theorem undisturbed_kept {front ps : List Piece} {c : Char} :
    Undisturbed front (.kept c :: ps) ↔ Undisturbed (front ++ [.kept c]) ps := by
  constructor
  · intro h mid part rest hps
    have := h (.kept c :: mid) part rest (by rw [hps, List.cons_append])
    rwa [List.append_cons] at this
  · intro h mid part rest hps
    cases mid with
    | nil => cases (List.cons.inj hps).1
    | cons p mid =>
      obtain ⟨rfl, hrest⟩ := List.cons.inj hps
      rw [List.append_cons]
      exact h mid part rest hrest

theorem undisturbed_found {front ps : List Piece} {matched : List Char} :
    Undisturbed front (.found matched :: ps) ↔
      FirstAt (matched.map some) (front.map Piece.blank)
          ((matched ++ ps.flatMap Piece.raw).map some) ∧
        Undisturbed (front ++ [.found matched]) ps := by
  constructor
  · intro h
    refine ⟨?_, fun mid part rest hps => ?_⟩
    · have := h [] matched ps rfl
      rwa [List.append_nil] at this
    · have := h (.found matched :: mid) part rest (by rw [hps, List.cons_append])
      rwa [List.append_cons] at this
  · rintro ⟨hhere, hlater⟩ mid part rest hps
    cases mid with
    | nil =>
      obtain ⟨hp, rfl⟩ := List.cons.inj hps
      obtain rfl := Piece.found.inj hp
      rwa [List.append_nil]
    | cons p mid =>
      obtain ⟨rfl, hrest⟩ := List.cons.inj hps
      rw [List.append_cons]
      exact hlater mid part rest hrest

/-- If a match begins earlier, a marker gets where something else is expected. -/
theorem misplaced_of_not_firstAt {front : List Char} {part rest : List Char} (hpart : Plain part)
    (h : ¬ FirstAt part front (part ++ rest)) (after : List Char) :
    Misplaced (front ++ after) (replaceFirst part marker (front ++ (part ++ rest))) := by
  obtain ⟨x, y, z, rfl, hy, hyz, hnew⟩ := exists_of_not_firstAt h marker
  obtain ⟨f, y, rfl⟩ := List.exists_cons_of_ne_nil hy
  obtain ⟨g, part, rfl⟩ := List.exists_cons_of_ne_nil hpart.1
  obtain ⟨rfl, -⟩ := List.cons.inj hyz
  refine ⟨x, f, y ++ after, marker.tail ++ z, ?_, by simp, ?_⟩
  · rw [hnew, List.append_assoc, ← List.cons_append, ← marker_eq]
  · rintro rfl
    exact hpart.2 '[' open_mem_marker List.mem_cons_self

theorem replaceAll_eq_iff (front ps : List Piece) (hps : ∀ part, .found part ∈ ps → Plain part) :
    replaceAll (front.flatMap (Piece.render marker) ++ ps.flatMap Piece.raw)
        (ps.filterMap Piece.part?) = (front ++ ps).flatMap (Piece.render marker) ↔
      Undisturbed front ps := by
  induction ps generalizing front with
  | nil => simp [replaceAll, Undisturbed]
  | cons p ps ih =>
    have hps' : ∀ part, .found part ∈ ps → Plain part :=
      fun part h => hps part (List.mem_cons_of_mem _ h)
    cases p with
    | kept c =>
      have hfound : (Piece.kept c :: ps).filterMap Piece.part? = ps.filterMap Piece.part? := rfl
      rw [undisturbed_kept, ← ih _ hps', hfound]
      simp [Piece.raw, Piece.render]
    | found part =>
      have hpart := hps part List.mem_cons_self
      have hfound : (Piece.found part :: ps).filterMap Piece.part? =
          part :: ps.filterMap Piece.part? := rfl
      rw [undisturbed_found, ← ih _ hps', ← firstAt_render_iff hpart, hfound, List.flatMap_cons,
        Piece.raw, List.append_cons]
      show replaceAll (replaceFirst part marker _) _ = _ ↔ _
      by_cases hfirst : FirstAt part (front.flatMap (Piece.render marker))
        (part ++ ps.flatMap Piece.raw)
      · rw [replaceFirst_of_firstAt hfirst, and_iff_right hfirst]
        simp [Piece.render]
      · -- from here on the text differs from the expected one
        refine iff_of_false ?_ fun h => hfirst h.1
        have hwrong := misplaced_of_not_firstAt hpart hfirst
          ((.found part :: ps).flatMap (Piece.render marker))
        rw [← List.flatMap_append, List.append_cons] at hwrong
        refine (hwrong.replaceAll fun part' hpart' => ?_).ne
        obtain ⟨p, hp, hpart'⟩ := List.mem_filterMap.mp hpart'
        cases p with
        | kept c => cases hpart'
        | found q =>
          obtain rfl := Option.some.inj hpart'
          exact hps' q hp

/-- **Addresses are redacted where they are found** exactly if the text of none begins earlier
outside of the earlier ones. -/
theorem addresses_redacted_iff (u : CharClasses) (text : String) :
    ((new u).redactStr u text).toList = (addresses u text).flatMap (Piece.render marker) ↔
      Undisturbed [] (addresses u text) := by
  rw [redactStr, String.toList_ofList]
  have h := replaceAll_eq_iff [] (addresses u text) fun part hpart => plain_of_mem_addresses hpart
  rw [addresses, raw_pieces] at h
  exact h

/-- The first address is followed by a letter: it is no match, but gets the marker of the second. -/
theorem address_left :
    addresses CharClasses.ascii "192.0.2.1x 192.0.2.1" =
        "192.0.2.1x ".toList.map Piece.kept ++ [.found "192.0.2.1".toList] ∧
      (addresses CharClasses.ascii "192.0.2.1x 192.0.2.1").flatMap (Piece.render marker) =
        "192.0.2.1x [**********]".toList ∧
      (new CharClasses.ascii).redactStr CharClasses.ascii "192.0.2.1x 192.0.2.1" =
        "[**********]x 192.0.2.1" := by
  decide +kernel

end Redaction

end GlobalProtect.Utils
