import Mathlib.Data.List.Infix

/-! # Text

Searching in text, with a text as the list of its characters. -/

namespace GlobalProtect.Lib.Text

/-- The part occurs in the text. -/
def contains (text part : List Char) : Bool := decide (part <:+: text)

/-- What is before the first occurrence of a separator. -/
def beforeFirst (separator : List Char) : List Char → Option (List Char)
  | [] => if separator = [] then some [] else none
  | c :: text =>
    if separator <+: c :: text then some []
    else (beforeFirst separator text).map (c :: ·)

/-- The text with another text in place of every occurrence of a character. -/
def replaceChar (old : Char) (new text : List Char) : List Char :=
  text.flatMap fun c => if c = old then new else [c]

/-- The Unicode property `White_Space`. -/
def isWhitespace (c : Char) : Bool :=
  let n := c.toNat
  (9 ≤ n && n ≤ 13) || n = 0x20 || n = 0x85 || n = 0xA0 || n = 0x1680 ||
    (0x2000 ≤ n && n ≤ 0x200A) || n = 0x2028 || n = 0x2029 || n = 0x202F || n = 0x205F || n = 0x3000

/-- The Unicode category of control characters. -/
def isControl (c : Char) : Bool :=
  let n := c.toNat
  n ≤ 0x1F || (0x7F ≤ n && n ≤ 0x9F)

/-- The text without whitespace at either end. -/
def trim (text : List Char) : List Char :=
  ((text.dropWhile isWhitespace).reverse.dropWhile isWhitespace).reverse

theorem trim_eq_self {text : List Char} (h : ∀ c ∈ text, isWhitespace c = false) :
    trim text = text := by
  have hdrop : ∀ l : List Char, (∀ c ∈ l, isWhitespace c = false) →
      l.dropWhile isWhitespace = l := by
    intro l hl
    cases l with
    | nil => rfl
    | cons c l => rw [List.dropWhile_cons_of_neg (by simp [hl c List.mem_cons_self])]
  rw [trim, hdrop text h, hdrop _ (by simpa using h), List.reverse_reverse]

theorem head?_trim (text : List Char) :
    (trim text).head? = (text.dropWhile isWhitespace).head? := by
  unfold trim
  cases hdrop : text.dropWhile isWhitespace with
  | nil => rfl
  | cons c rest =>
    have hc : isWhitespace c = false := by
      have hne : text.dropWhile isWhitespace ≠ [] := hdrop ▸ List.cons_ne_nil _ _
      have hhead := List.head_dropWhile_not isWhitespace hne
      simpa [hdrop] using hhead
    rw [List.reverse_cons, List.dropWhile_append]
    split_ifs
    · simp [List.dropWhile, hc]
    · simp

end GlobalProtect.Lib.Text
