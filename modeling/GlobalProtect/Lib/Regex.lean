import Mathlib.Data.List.Infix

/-! # Searching with regular expressions

Expressions without loops, as a backtracking engine matches them: `lengths` lists how long a match
at one place can be, best first. `find` takes the best one.

A text is searched from left to right (`scan`); a match is followed by a search after it, and an
empty match next to the last one is passed over. The result is the text in pieces, with the matches
marked, so that nothing of the text is lost (`raw_pieces`). -/

namespace GlobalProtect.Lib

/-- The Unicode classes of characters that expressions name; only their ASCII part is fixed. -/
structure CharClasses where
  isDigit : Char → Bool
  isWord : Char → Bool
  isDigit_ascii : ∀ c, c.toNat < 128 → isDigit c = c.isDigit
  isWord_ascii : ∀ c, c.toNat < 128 → isWord c = (c.isAlphanum || c = '_')

def CharClasses.ascii : CharClasses where
  isDigit := Char.isDigit
  isWord c := c.isAlphanum || c = '_'
  isDigit_ascii _ _ := rfl
  isWord_ascii _ _ := rfl

inductive Regex where
  | empty
  | char (p : Char → Bool)
  | wordBoundary
  | seq (r s : Regex)
  | alt (r s : Regex)

namespace Regex

def opt (r : Regex) : Regex := .alt r .empty

def times (r : Regex) : ℕ → Regex
  | 0 => .empty
  | n + 1 => .seq r (times r n)

def range (low high : Char) : Regex := .char fun c => low ≤ c && c ≤ high

def literal : List Char → Regex
  | [] => .empty
  | c :: text => .seq (.char (· = c)) (literal text)

/-- How long a match can be, where `before` is the character before the text. -/
def lengths (isWord : Char → Bool) : Regex → Option Char → List Char → List ℕ
  | .empty, _, _ => [0]
  | .char p, _, text => if text.head?.any p then [1] else []
  | .wordBoundary, before, text => if before.any isWord != text.head?.any isWord then [0] else []
  | .seq r s, before, text =>
    (lengths isWord r before text).flatMap fun n =>
      (lengths isWord s ((text.take n).getLast?.or before) (text.drop n)).map (n + ·)
  | .alt r s, before, text => lengths isWord r before text ++ lengths isWord s before text

def find (isWord : Char → Bool) (r : Regex) (before : Option Char) (text : List Char) : Option ℕ :=
  (r.lengths isWord before text).head?

variable {isWord : Char → Bool}

theorem lengths_literal (value : List Char) (before : Option Char) (text : List Char) :
    (literal value).lengths isWord before text =
      if value <+: text then [value.length] else [] := by
  induction value generalizing before text with
  | nil => simp [literal, lengths]
  | cons c value ih =>
    cases text with
    | nil => simp [literal, lengths]
    | cons d text =>
      rw [literal, lengths, lengths]
      by_cases hd : d = c
      · subst hd
        by_cases hrest : value <+: text
        · simp [ih, List.cons_prefix_cons, hrest, Nat.add_comm]
        · simp [ih, List.cons_prefix_cons, hrest]
      · have hne : ¬ c = d := fun h => hd h.symm
        simp [hd, hne, List.cons_prefix_cons]

theorem find_literal (value : List Char) (before : Option Char) (text : List Char) :
    (literal value).find isWord before text =
      if value <+: text then some value.length else none := by
  rw [find, lengths_literal]
  split_ifs <;> rfl

/-- All characters that are matched satisfy the predicate. -/
def Over (p : Char → Prop) : Regex → Prop
  | .empty => True
  | .char q => ∀ c, q c = true → p c
  | .wordBoundary => True
  | .seq r s => Over p r ∧ Over p s
  | .alt r s => Over p r ∧ Over p s

def minLength : Regex → ℕ
  | .empty => 0
  | .char _ => 1
  | .wordBoundary => 0
  | .seq r s => minLength r + minLength s
  | .alt r s => min (minLength r) (minLength s)

theorem mem_lengths_char {p : Char → Bool} {before : Option Char} {text : List Char} {n : ℕ} :
    n ∈ (Regex.char p).lengths isWord before text ↔ text.head?.any p = true ∧ n = 1 := by
  unfold lengths
  split_ifs with h
  · simp [h]
  · simp [h]

theorem Over.take {p : Char → Prop} {r : Regex} (h : r.Over p) {before : Option Char}
    {text : List Char} {n : ℕ} (hn : n ∈ r.lengths isWord before text) :
    ∀ c ∈ text.take n, p c := by
  induction r generalizing before text n with
  | empty =>
    obtain rfl := List.mem_singleton.mp hn
    simp
  | char q =>
    obtain ⟨hq, rfl⟩ := mem_lengths_char.mp hn
    cases text with
    | nil => simp
    | cons d text => simpa using h d hq
  | wordBoundary =>
    unfold lengths at hn
    split_ifs at hn
    · obtain rfl := List.mem_singleton.mp hn
      simp
    · cases hn
  | seq r s ihr ihs =>
    obtain ⟨k, hk, hn⟩ := List.mem_flatMap.mp hn
    obtain ⟨m, hm, rfl⟩ := List.mem_map.mp hn
    intro c hc
    rw [List.take_add] at hc
    rcases List.mem_append.mp hc with hc | hc
    · exact ihr h.1 hk c hc
    · exact ihs h.2 hm c hc
  | alt r s ihr ihs =>
    rcases List.mem_append.mp hn with hn | hn
    · exact ihr h.1 hn
    · exact ihs h.2 hn

theorem minLength_le {r : Regex} {before : Option Char} {text : List Char} {n : ℕ}
    (hn : n ∈ r.lengths isWord before text) : r.minLength ≤ (text.take n).length := by
  induction r generalizing before text n with
  | empty => exact Nat.zero_le _
  | char q =>
    obtain ⟨hq, rfl⟩ := mem_lengths_char.mp hn
    cases text with
    | nil => cases hq
    | cons d text => exact Nat.le_refl 1
  | wordBoundary => exact Nat.zero_le _
  | seq r s ihr ihs =>
    obtain ⟨k, hk, hn⟩ := List.mem_flatMap.mp hn
    obtain ⟨m, hm, rfl⟩ := List.mem_map.mp hn
    rw [List.take_add, List.length_append]
    exact Nat.add_le_add (ihr hk) (ihs hm)
  | alt r s ihr ihs =>
    rcases List.mem_append.mp hn with hn | hn
    · exact (Nat.min_le_left _ _).trans (ihr hn)
    · exact (Nat.min_le_right _ _).trans (ihs hn)

end Regex

/-! ### Searching -/

/-- A piece of a searched text. -/
inductive Piece where
  | kept (c : Char)
  | found (part : List Char)
  deriving DecidableEq, Repr

namespace Piece

/-- The text of the piece. -/
def raw : Piece → List Char
  | .kept c => [c]
  | .found part => part

/-- The text with the matches replaced. -/
def render (marker : List Char) : Piece → List Char
  | .kept c => [c]
  | .found _ => marker

/-- The text with the matches blanked out. -/
def blank : Piece → Option Char
  | .kept c => some c
  | .found _ => none

def part? : Piece → Option (List Char)
  | .kept _ => none
  | .found part => some part

end Piece

/-- Searches after `skip` more characters; `ended` if a match ends here. -/
def scan (find : Option Char → List Char → Option ℕ) :
    Option Char → ℕ → Bool → List Char → List Piece
  | _, _ + 1, _, [] => []
  | before, 0, ended, [] => if (find before []).isSome && !ended then [.found []] else []
  | _, skip + 1, _, c :: text => scan find (some c) skip (skip = 0) text
  | before, 0, ended, c :: text =>
    match find before (c :: text) with
    | none => .kept c :: scan find (some c) 0 false text
    | some 0 =>
      if ended then .kept c :: scan find (some c) 0 false text
      else .found [] :: .kept c :: scan find (some c) 0 false text
    | some (n + 1) => .found (c :: text.take n) :: scan find (some c) n (n = 0) text

def pieces (find : Option Char → List Char → Option ℕ) (text : List Char) : List Piece :=
  scan find none 0 false text

def findIter (find : Option Char → List Char → Option ℕ) (text : List Char) : List (List Char) :=
  (pieces find text).filterMap Piece.part?

variable {find : Option Char → List Char → Option ℕ}

theorem raw_scan (before : Option Char) (skip : ℕ) (ended : Bool) (text : List Char) :
    (scan find before skip ended text).flatMap Piece.raw = text.drop skip := by
  fun_induction scan find before skip ended text with
  | case1 => simp
  | case2 => simp [Piece.raw]
  | case3 => rfl
  | case4 before skip ended c text ih => simpa using ih
  | case5 before ended c text hfind ih => simpa [Piece.raw] using ih
  | case6 before c text hfind ih => simpa [Piece.raw] using ih
  | case7 before ended c text hfind h ih => simpa [Piece.raw] using ih
  | case8 before ended c text n hfind ih => simp [Piece.raw, ih]

theorem found_scan {P : List Char → Prop}
    (hfind : ∀ before text n, find before text = some n → P (text.take n))
    (before : Option Char) (skip : ℕ) (ended : Bool) (text : List Char) :
    ∀ part, .found part ∈ scan find before skip ended text → P part := by
  fun_induction scan find before skip ended text with
  | case1 => simp
  | case2 before ended h =>
    intro part hpart
    obtain ⟨n, hn⟩ := Option.isSome_iff_exists.mp (Bool.and_eq_true_iff.mp h).1
    have hP := hfind _ _ n hn
    rw [List.take_nil] at hP
    simpa [Piece.found.inj (List.mem_singleton.mp hpart)] using hP
  | case3 => simp
  | case4 before skip ended c text ih => exact ih
  | case5 before ended c text hnone ih => simpa using ih
  | case6 before c text hzero ih => simpa using ih
  | case7 before ended c text hzero h ih =>
    intro part hpart
    rcases List.mem_cons.mp hpart with hpart | hpart
    · rw [Piece.found.inj hpart]
      exact hfind _ _ 0 hzero
    · exact ih part (by simpa using hpart)
  | case8 before ended c text n hsome ih =>
    intro part hpart
    rcases List.mem_cons.mp hpart with hpart | hpart
    · rw [Piece.found.inj hpart]
      exact hfind _ _ (n + 1) hsome
    · exact ih part hpart

theorem raw_pieces (text : List Char) : (pieces find text).flatMap Piece.raw = text :=
  raw_scan none 0 false text

end GlobalProtect.Lib
