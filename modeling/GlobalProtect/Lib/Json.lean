import Mathlib.Data.Nat.Digits.Defs
import GlobalProtect.Lib.Utf8

/-! # JSON texts

The compact text of a JSON value, as encoders write it: no blanks, fields in the order given,
quotes, backslashes and control characters escaped. Numbers are natural.

Programs bound the size of such a text. `size_object` gives the size of an object from the sizes of
its fields, `size_string_le` and `size_number_le` bound the leaves: a text takes at most six bytes
for each of its own (`utf8Len_escaped_le`). A text is read back up to the quote that ends it
(`readString_escaped`). -/

namespace GlobalProtect.Lib

open String (utf8Len)

inductive Json where
  | null
  | bool (b : Bool)
  | number (n : ℕ)
  | string (s : String)
  | array (items : List Json)
  | object (fields : List (String × Json))

namespace Json

/-- The value or `null`. -/
def ofOption {α : Type*} (f : α → Json) : Option α → Json
  | none => null
  | some a => f a

/-! ### Writing -/

def escapeChar (c : Char) : List Char :=
  if c.toNat = 34 then "\\\"".toList
  else if c.toNat = 92 then "\\\\".toList
  else if c.toNat = 8 then "\\b".toList
  else if c.toNat = 9 then "\\t".toList
  else if c.toNat = 10 then "\\n".toList
  else if c.toNat = 12 then "\\f".toList
  else if c.toNat = 13 then "\\r".toList
  else if c.toNat < 32 then
    "\\u00".toList ++ [Nat.digitChar (c.toNat / 16), Nat.digitChar (c.toNat % 16)]
  else [c]

def escaped (text : List Char) : List Char := text.flatMap escapeChar

def writeString (s : String) : List Char := "\"".toList ++ escaped s.toList ++ "\"".toList

mutual

def write : Json → List Char
  | null => "null".toList
  | bool b => (toString b).toList
  | number n => Nat.toDigits 10 n
  | string s => writeString s
  | array [] => "[]".toList
  | array (item :: items) => "[".toList ++ write item ++ writeItems items ++ "]".toList
  | object [] => "\x7b\x7d".toList
  | object (field :: fields) =>
    "\x7b".toList ++ writeField field ++ writeFields fields ++ "\x7d".toList

def writeItems : List Json → List Char
  | [] => []
  | item :: items => ",".toList ++ write item ++ writeItems items

def writeField : String × Json → List Char
  | (key, value) => writeString key ++ ":".toList ++ write value

def writeFields : List (String × Json) → List Char
  | [] => []
  | field :: fields => ",".toList ++ writeField field ++ writeFields fields

end

/-- The bytes of the text. -/
def size (j : Json) : ℕ := utf8Len j.write

/-! ### Sizes -/

/-- The bytes of a text in quotes. -/
def quotedSize (s : String) : ℕ := utf8Len (writeString s)

theorem size_null : size null = 4 := rfl

theorem size_bool_le (b : Bool) : size (bool b) ≤ 5 := by
  cases b <;> decide

theorem size_string (s : String) : size (string s) = quotedSize s := rfl

theorem size_array_nil : size (array []) = 2 := rfl

/-- The bytes of a field of an object. -/
def fieldSize (field : String × Json) : ℕ := quotedSize field.1 + 1 + size field.2

theorem utf8Len_writeField (field : String × Json) :
    utf8Len (writeField field) = fieldSize field := by
  obtain ⟨key, value⟩ := field
  change utf8Len (writeString key ++ ":".toList ++ write value) = _
  rw [String.utf8Len_append, String.utf8Len_append]
  rfl

theorem utf8Len_writeFields (fields : List (String × Json)) :
    utf8Len (writeFields fields) = (fields.map fieldSize).sum + fields.length := by
  induction fields with
  | nil => rfl
  | cons field fields ih =>
    have hcomma : utf8Len ",".toList = 1 := rfl
    change utf8Len (",".toList ++ writeField field ++ writeFields fields) = _
    rw [String.utf8Len_append, String.utf8Len_append, ih, utf8Len_writeField, List.map_cons,
      List.sum_cons, List.length_cons]
    omega

theorem size_object (fields : List (String × Json)) :
    size (object fields) = (fields.map fieldSize).sum + (fields.length - 1) + 2 := by
  cases fields with
  | nil => rfl
  | cons field fields =>
    have hopen : utf8Len "\x7b".toList = 1 := rfl
    have hclose : utf8Len "\x7d".toList = 1 := rfl
    change utf8Len ("\x7b".toList ++ writeField field ++ writeFields fields ++ "\x7d".toList) = _
    rw [String.utf8Len_append, String.utf8Len_append, String.utf8Len_append, utf8Len_writeField,
      utf8Len_writeFields, List.map_cons, List.sum_cons, List.length_cons]
    omega

/-! ### Bounds -/

theorem utf8Size_digitChar : ∀ n < 16, (Nat.digitChar n).utf8Size = 1 := by decide

theorem utf8Len_escapeChar_le (c : Char) : utf8Len (escapeChar c) ≤ 6 * c.utf8Size := by
  have hpos := c.utf8Size_pos
  have hshort : ∀ text : List Char, utf8Len text ≤ 6 → utf8Len text ≤ 6 * c.utf8Size := by
    intro text htext
    omega
  unfold escapeChar
  split_ifs with _ _ _ _ _ _ _ hcontrol
  · exact hshort _ (by decide)
  · exact hshort _ (by decide)
  · exact hshort _ (by decide)
  · exact hshort _ (by decide)
  · exact hshort _ (by decide)
  · exact hshort _ (by decide)
  · exact hshort _ (by decide)
  · refine hshort _ ?_
    have hcode : utf8Len "\\u00".toList = 4 := rfl
    rw [String.utf8Len_append, hcode, String.utf8Len_cons, String.utf8Len_cons,
      utf8Size_digitChar _ (by omega), utf8Size_digitChar _ (by omega), String.utf8Len_nil]
  · rw [String.utf8Len_cons, String.utf8Len_nil]
    omega

theorem utf8Len_escaped_le (text : List Char) : utf8Len (escaped text) ≤ 6 * utf8Len text := by
  induction text with
  | nil => exact Nat.le_refl 0
  | cons c text ih =>
    have hc := utf8Len_escapeChar_le c
    rw [escaped, List.flatMap_cons, String.utf8Len_append, String.utf8Len_cons]
    rw [escaped] at ih
    omega

theorem size_string_le (s : String) : size (string s) ≤ 6 * s.utf8ByteSize + 2 := by
  have hescaped := utf8Len_escaped_le s.toList
  have hquote : utf8Len "\"".toList = 1 := rfl
  rw [String.utf8Len_toList] at hescaped
  rw [size_string, quotedSize, writeString, String.utf8Len_append, String.utf8Len_append]
  omega

theorem size_ofOption_le {α : Type*} {f : α → Json} {o : Option α} {k : ℕ} (hk : 4 ≤ k)
    (h : ∀ a, o = some a → size (f a) ≤ k) : size (ofOption f o) ≤ k := by
  cases o with
  | none =>
    rw [ofOption, size_null]
    exact hk
  | some a => exact h a rfl

theorem utf8Len_of_ascii {text : List Char} (h : ∀ c ∈ text, c.utf8Size = 1) :
    utf8Len text = text.length := by
  induction text with
  | nil => rfl
  | cons c text ih =>
    rw [String.utf8Len_cons, List.length_cons, ih fun d hd => h d (List.mem_cons_of_mem c hd),
      h c List.mem_cons_self]

theorem utf8Size_of_isDigit {c : Char} (h : c.isDigit = true) : c.utf8Size = 1 := by
  have hnine : c.val ≤ 57 := by
    have hrange := Bool.and_eq_true_iff.mp h
    exact of_decide_eq_true hrange.2
  exact Char.utf8Size_eq_one_iff.mpr (UInt32.le_trans hnine (by decide))

theorem size_number_le {n k : ℕ} (hk : 0 < k) (h : n < 10 ^ k) : size (number n) ≤ k := by
  have hascii : ∀ c ∈ Nat.toDigits 10 n, c.utf8Size = 1 := fun c hc =>
    utf8Size_of_isDigit (Nat.isDigit_of_mem_toDigits (by decide) (by decide) hc)
  change utf8Len (Nat.toDigits 10 n) ≤ k
  rw [utf8Len_of_ascii hascii]
  exact (Nat.length_toDigits_le_iff (by decide) hk).mpr h

/-! ### Reading texts -/

def hexValue (c : Char) : ℕ := if c.isDigit then c.toNat - 48 else c.toNat - 87

/-- The character after a backslash. -/
def unescape? : Char → Option Char
  | '"' => some '"'
  | '\\' => some '\\'
  | 'b' => some (Char.ofNat 8)
  | 't' => some '\t'
  | 'n' => some '\n'
  | 'f' => some (Char.ofNat 12)
  | 'r' => some '\r'
  | _ => none

/-- The text up to the quote that ends it, and what follows. -/
def readString : List Char → Option (List Char × List Char)
  | [] => none
  | '"' :: rest => some ([], rest)
  | '\\' :: 'u' :: '0' :: '0' :: x :: y :: rest =>
    (readString rest).map fun (text, rest) =>
      (Char.ofNat (16 * hexValue x + hexValue y) :: text, rest)
  | '\\' :: c :: rest =>
    (unescape? c).bind fun c => (readString rest).map fun (text, rest) => (c :: text, rest)
  | c :: rest => (readString rest).map fun (text, rest) => (c :: text, rest)

theorem hexValue_digitChar : ∀ n < 16, hexValue (Nat.digitChar n) = n := by decide

theorem eq_ofNat_of_toNat {c : Char} {n : ℕ} (h : c.toNat = n) : c = Char.ofNat n := by
  rw [← h, Char.ofNat_toNat]

theorem readString_escapeChar (c : Char) (rest : List Char) :
    readString (escapeChar c ++ rest) =
      (readString rest).map fun (text, rest) => (c :: text, rest) := by
  unfold escapeChar
  split_ifs with h34 h92 h8 h9 h10 h12 h13 h32
  · rw [eq_ofNat_of_toNat h34]
    rfl
  · rw [eq_ofNat_of_toNat h92]
    rfl
  · rw [eq_ofNat_of_toNat h8]
    rfl
  · rw [eq_ofNat_of_toNat h9]
    rfl
  · rw [eq_ofNat_of_toNat h10]
    rfl
  · rw [eq_ofNat_of_toNat h12]
    rfl
  · rw [eq_ofNat_of_toNat h13]
    rfl
  · -- the code point, from its two digits
    have hc : Char.ofNat (16 * hexValue (Nat.digitChar (c.toNat / 16)) +
        hexValue (Nat.digitChar (c.toNat % 16))) = c := by
      rw [hexValue_digitChar _ (by omega), hexValue_digitChar _ (by omega), Nat.div_add_mod,
        Char.ofNat_toNat]
    have hread : readString (("\\u00".toList ++
        [Nat.digitChar (c.toNat / 16), Nat.digitChar (c.toNat % 16)]) ++ rest) =
          (readString rest).map fun (text, rest) =>
            (Char.ofNat (16 * hexValue (Nat.digitChar (c.toNat / 16)) +
              hexValue (Nat.digitChar (c.toNat % 16))) :: text, rest) := rfl
    rw [hread, hc]
  · have hquote : c ≠ '"' := by
      rintro rfl
      exact h34 rfl
    have hbackslash : c ≠ '\\' := by
      rintro rfl
      exact h92 rfl
    rw [List.singleton_append]
    exact readString.eq_5 c rest hquote (fun _ _ _ h _ => hbackslash h) fun _ _ h _ => hbackslash h

/-- **A text is read back**, whatever follows it. -/
theorem readString_escaped (text rest : List Char) :
    readString (escaped text ++ '"' :: rest) = some (text, rest) := by
  induction text with
  | nil => rfl
  | cons c text ih =>
    rw [escaped, List.flatMap_cons, List.append_assoc, readString_escapeChar]
    rw [escaped] at ih
    rw [ih]
    rfl

end Json

end GlobalProtect.Lib
