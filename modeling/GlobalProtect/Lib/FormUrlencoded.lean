import GlobalProtect.Lib.Utf8Decode
import Mathlib.Data.List.TakeWhile

/-! # Forms in URLs

Percent-encoding and the format `application/x-www-form-urlencoded`, on bytes.

* `percentEncode keep`, `percentDecode`: decoding gives the bytes back (`percentDecode_percentEncode`).
* `serialize`, `parse`: the pairs of a form. In both a space is written as a plus sign.
* `encode`, `decode?`: the text in a URL, where a space is not special.
* `hasEscape`: the text has a percent sign with two hexadecimal digits. It is exactly then that
  decoding the text itself changes it (`decodeLossy_percentDecode_iff`): what is decoded has less
  characters.
* `Literal`: a form says the text although it is written as it is (`reading_eq_iff`). -/

namespace GlobalProtect.Lib.Form

open Lib.Utf8

theorem map_eq_self {α : Type} {f : α → α} {l : List α} (h : ∀ x ∈ l, f x = x) : l.map f = l :=
  (List.map_congr_left h).trans (List.map_id l)

/-! ### Percent-encoding -/

def hexValue (b : UInt8) : Option ℕ :=
  if 0x30 ≤ b ∧ b ≤ 0x39 then some (b.toNat - 0x30)
  else if 0x41 ≤ b ∧ b ≤ 0x46 then some (b.toNat - 0x37)
  else if 0x61 ≤ b ∧ b ≤ 0x66 then some (b.toNat - 0x57)
  else none

def hexDigit (n : ℕ) : UInt8 := UInt8.ofNat (if n < 10 then 0x30 + n else 0x37 + n)

/-- The byte that is written with three bytes. -/
def escape (b h l : UInt8) : Option UInt8 :=
  if b = 0x25 then
    match hexValue h, hexValue l with
    | some x, some y => some (UInt8.ofNat (16 * x + y))
    | _, _ => none
  else none

def percentDecode : Bytes → Bytes
  | b :: h :: l :: rest =>
    match escape b h l with
    | some x => x :: percentDecode rest
    | none => b :: percentDecode (h :: l :: rest)
  | bytes => bytes

def percentByte (b : UInt8) : Bytes := [0x25, hexDigit (b.toNat / 16), hexDigit (b.toNat % 16)]

def percentEncode (keep : UInt8 → Bool) (bytes : Bytes) : Bytes :=
  bytes.flatMap fun b => if keep b then [b] else percentByte b

theorem hexValue_hexDigit {n : ℕ} (h : n < 16) : hexValue (hexDigit n) = some n := by
  revert n
  decide

theorem escape_percentByte (b : UInt8) :
    escape 0x25 (hexDigit (b.toNat / 16)) (hexDigit (b.toNat % 16)) = some b := by
  have hb := b.toNat_lt
  rw [escape, if_pos rfl, hexValue_hexDigit (by omega), hexValue_hexDigit (by omega)]
  simp only [Nat.div_add_mod, UInt8.ofNat_toNat]

theorem percentDecode_cons {b : UInt8} (h : b ≠ 0x25) (rest : Bytes) :
    percentDecode (b :: rest) = b :: percentDecode rest := by
  match rest with
  | [] => rfl
  | [_] => rfl
  | x :: y :: rest => rw [percentDecode, escape, if_neg h]

theorem percentDecode_percentByte_append (b : UInt8) (rest : Bytes) :
    percentDecode (percentByte b ++ rest) = b :: percentDecode rest := by
  rw [percentByte, List.cons_append, List.cons_append, List.singleton_append, percentDecode,
    escape_percentByte]

theorem percentDecode_flatMap_append {f : UInt8 → Bytes} {g : UInt8 → UInt8}
    (h : ∀ b rest, percentDecode (f b ++ rest) = g b :: percentDecode rest) (bytes rest : Bytes) :
    percentDecode (bytes.flatMap f ++ rest) = bytes.map g ++ percentDecode rest := by
  induction bytes with
  | nil => rfl
  | cons b bytes ih =>
    rw [List.flatMap_cons, List.append_assoc, h, ih, List.map_cons, List.cons_append]

theorem percentDecode_flatMap {f : UInt8 → Bytes} {g : UInt8 → UInt8}
    (h : ∀ b rest, percentDecode (f b ++ rest) = g b :: percentDecode rest) (bytes : Bytes) :
    percentDecode (bytes.flatMap f) = bytes.map g := by
  have hbytes := percentDecode_flatMap_append h bytes []
  rw [List.append_nil] at hbytes
  exact hbytes.trans (List.append_nil _)

theorem percentEncode_append (keep : UInt8 → Bool) (first second : Bytes) :
    percentEncode keep (first ++ second) = percentEncode keep first ++ percentEncode keep second :=
  List.flatMap_append

theorem percentDecode_percentEncode {keep : UInt8 → Bool} (hkeep : keep 0x25 = false)
    (bytes : Bytes) : percentDecode (percentEncode keep bytes) = bytes := by
  have hbyte : ∀ b rest, percentDecode ((if keep b then [b] else percentByte b) ++ rest) =
      id b :: percentDecode rest := by
    intro b rest
    split_ifs with hb
    · refine percentDecode_cons ?_ rest
      rintro rfl
      rw [hkeep] at hb
      cases hb
    · exact percentDecode_percentByte_append b rest
  exact (percentDecode_flatMap hbyte bytes).trans (List.map_id bytes)

theorem mem_percentByte {b x : UInt8} (h : x ∈ percentByte b) :
    x = 0x25 ∨ hexValue x ≠ none := by
  have hb := b.toNat_lt
  rcases List.mem_cons.mp h with rfl | h
  · exact Or.inl rfl
  · right
    rcases List.mem_pair.mp h with rfl | rfl
    · rw [hexValue_hexDigit (by omega)]
      simp
    · rw [hexValue_hexDigit (by omega)]
      simp

/-! ### Texts -/

def bytesOf (s : String) : Bytes := Utf8.encode s.toList

def ofAscii (bytes : Bytes) : String := String.ofList (bytes.map fun b => Char.ofNat b.toNat)

theorem bytesOf_ofAscii {bytes : Bytes} (h : ∀ b ∈ bytes, b.toNat < 128) :
    bytesOf (ofAscii bytes) = bytes := by
  rw [bytesOf, ofAscii, String.toList_ofList]
  induction bytes with
  | nil => rfl
  | cons b bytes ih =>
    have hb := h b List.mem_cons_self
    have hchar : (Char.ofNat b.toNat).toNat = b.toNat := by
      have hvalid : b.toNat.isValidChar := Or.inl (by omega)
      rw [Char.ofNat, dif_pos hvalid]
      rfl
    rw [List.map_cons, encode_cons, utf8EncodeChar_ascii (by omega), hchar,
      ih fun c hc => h c (List.mem_cons_of_mem _ hc), UInt8.ofNat_toNat, List.singleton_append]

def isAlnum (b : UInt8) : Bool :=
  (0x30 ≤ b && b ≤ 0x39) || (0x41 ≤ b && b ≤ 0x5A) || (0x61 ≤ b && b ≤ 0x7A)

/-- Letters, digits and `- . _ ~`. -/
def isUnreserved (b : UInt8) : Bool :=
  isAlnum b || b = 0x2D || b = 0x2E || b = 0x5F || b = 0x7E

/-- The text in a URL. -/
def encode (s : String) : String := ofAscii (percentEncode isUnreserved (bytesOf s))

def decode? (s : String) : Option String :=
  (Utf8.decode? (percentDecode (bytesOf s))).map String.ofList

/-! ### Forms -/

/-- Letters, digits and `* - . _` are kept, a space is a plus sign. -/
def formByte (b : UInt8) : Bytes :=
  if isAlnum b || b = 0x2A || b = 0x2D || b = 0x2E || b = 0x5F then [b]
  else if b = 0x20 then [0x2B]
  else percentByte b

def formEncode (bytes : Bytes) : Bytes := bytes.flatMap formByte

def plusToSpace (b : UInt8) : UInt8 := if b = 0x2B then 0x20 else b

/-- What a name or a value in a form says. -/
def component (raw : Bytes) : String :=
  String.ofList (decodeLossy (percentDecode (raw.map plusToSpace)))

def field (piece : Bytes) : String × String :=
  (component (piece.takeWhile (· ≠ 0x3D)), component ((piece.dropWhile (· ≠ 0x3D)).drop 1))

def parse (input : Bytes) : List (String × String) :=
  ((input.splitOn 0x26).filter (· ≠ [])).map field

def serialize (pairs : List (String × String)) : String :=
  ofAscii ([0x26].intercalate
    (pairs.map fun p => formEncode (bytesOf p.1) ++ 0x3D :: formEncode (bytesOf p.2)))

/-! ### What is written can be read -/

theorem intercalate_cons_cons {α : Type} (x : α) (piece piece' : List α) (pieces : List (List α)) :
    [x].intercalate (piece :: piece' :: pieces) =
      piece ++ x :: [x].intercalate (piece' :: pieces) := by
  simp [List.intercalate, List.intersperse]

theorem mem_intercalate {α : Type} {x b : α} {pieces : List (List α)}
    (h : b ∈ [x].intercalate pieces) : b = x ∨ ∃ piece ∈ pieces, b ∈ piece := by
  induction pieces with
  | nil => cases h
  | cons piece pieces ih =>
    cases pieces with
    | nil => exact Or.inr ⟨piece, List.mem_cons_self, by simpa [List.intercalate] using h⟩
    | cons piece' pieces =>
      rw [intercalate_cons_cons] at h
      rcases List.mem_append.mp h with h | h
      · exact Or.inr ⟨piece, List.mem_cons_self, h⟩
      · rcases List.mem_cons.mp h with h | h
        · exact Or.inl h
        · rcases ih h with h | ⟨p, hp, hb⟩
          · exact Or.inl h
          · exact Or.inr ⟨p, List.mem_cons_of_mem _ hp, hb⟩

/-- The bytes of a form are separated by `&`, with a name before the first `=` of each piece. -/
theorem parse_intercalate (fields : List (Bytes × Bytes)) (hne : fields ≠ [])
    (hfields : ∀ f ∈ fields, 0x26 ∉ f.1 ∧ 0x26 ∉ f.2 ∧ 0x3D ∉ f.1) :
    parse ([0x26].intercalate (fields.map fun f => f.1 ++ 0x3D :: f.2)) =
      fields.map fun f => (component f.1, component f.2) := by
  have hsplit : ([0x26].intercalate (fields.map fun f => f.1 ++ 0x3D :: f.2)).splitOn 0x26 =
      fields.map fun f => f.1 ++ 0x3D :: f.2 := by
    refine List.splitOn_intercalate 0x26 ?_ (by simpa using hne)
    intro piece hpiece
    obtain ⟨f, hf, rfl⟩ := List.mem_map.mp hpiece
    obtain ⟨hname, hvalue, -⟩ := hfields f hf
    simp [hname, hvalue]
  rw [parse, hsplit, List.filter_eq_self.mpr, List.map_map]
  · refine List.map_congr_left fun f hf => ?_
    have hname : ∀ b ∈ f.1, decide (b ≠ 0x3D) = true := by
      intro b hb
      refine decide_eq_true ?_
      rintro rfl
      exact (hfields f hf).2.2 hb
    simp only [Function.comp, field]
    rw [List.takeWhile_append_of_pos hname, List.dropWhile_append_of_pos hname]
    simp
  · intro piece hpiece
    obtain ⟨f, -, rfl⟩ := List.mem_map.mp hpiece
    simp

theorem takeWhile_append_separator {α : Type} [DecidableEq α] {x : α} {piece : List α}
    (h : x ∉ piece) (rest : List α) : (piece ++ x :: rest).takeWhile (· ≠ x) = piece := by
  rw [List.takeWhile_append_of_pos fun b hb => decide_eq_true (ne_of_mem_of_not_mem hb h)]
  simp

theorem parse_append (first second : Bytes) :
    parse (first ++ 0x26 :: second) = parse first ++ parse second := by
  rw [parse, List.splitOn_append_cons_self, List.filter_append, List.map_append]
  rfl

theorem parse_field (name value : Bytes) (hname : 0x26 ∉ name ∧ 0x3D ∉ name) :
    ∃ more, parse (name ++ 0x3D :: value) =
        (component name, component (value.takeWhile (· ≠ 0x26))) :: more ∧
      (0x26 ∉ value → more = []) := by
  have hone : ∀ v : Bytes, 0x26 ∉ v →
      parse (name ++ 0x3D :: v) = [(component name, component v)] := by
    intro v hv
    have hfield := parse_intercalate [(name, v)] (List.cons_ne_nil _ _)
      (by simpa using ⟨hname.1, hv, hname.2⟩)
    simpa [List.intercalate] using hfield
  by_cases hmem : 0x26 ∈ value
  · obtain ⟨first, rest, rfl, hfirst⟩ := List.eq_append_cons_of_mem hmem
    refine ⟨parse rest, ?_, fun h => absurd hmem h⟩
    rw [takeWhile_append_separator hfirst, ← List.cons_append, ← List.append_assoc, parse_append,
      hone first hfirst, List.singleton_append]
  · refine ⟨[], ?_, fun _ => rfl⟩
    rw [List.takeWhile_eq_self_iff.mpr, hone value hmem]
    exact fun b hb => decide_eq_true (ne_of_mem_of_not_mem hb hmem)

theorem component_eq (s : String) {raw : Bytes}
    (h : percentDecode (raw.map plusToSpace) = bytesOf s) : component raw = s := by
  rw [component, h, bytesOf, decodeLossy_encode, String.ofList_toList]

theorem plusToSpace_of_hexValue {x : UInt8} (h : hexValue x ≠ none) : plusToSpace x = x := by
  rw [plusToSpace, if_neg]
  rintro rfl
  exact h (by decide)

theorem map_plusToSpace_percentByte (b : UInt8) :
    (percentByte b).map plusToSpace = percentByte b := by
  refine map_eq_self fun x hx => ?_
  rcases mem_percentByte hx with rfl | hx
  · decide
  · exact plusToSpace_of_hexValue hx

theorem formByte_cases (b : UInt8) :
    (formByte b = [b] ∧ b ∉ [0x20, 0x25, 0x26, 0x2B, 0x3D] ∧ b.toNat < 128) ∨
      (b = 0x20 ∧ formByte b = [0x2B]) ∨ b ≠ 0x20 ∧ formByte b = percentByte b := by
  unfold formByte
  split_ifs with hkept hspace
  · refine Or.inl ⟨rfl, fun hmem => ?_, ?_⟩
    · simp only [List.mem_cons, List.not_mem_nil, or_false] at hmem
      rcases hmem with rfl | rfl | rfl | rfl | rfl <;> exact absurd hkept (by decide)
    · simp only [isAlnum, Bool.or_eq_true, Bool.and_eq_true, decide_eq_true_eq,
        UInt8.le_iff_toNat_le, UInt8.reduceToNat, ← UInt8.toNat_inj] at hkept
      omega
  · exact Or.inr (Or.inl ⟨hspace, rfl⟩)
  · exact Or.inr (Or.inr ⟨hspace, rfl⟩)

def spaceToPlus (b : UInt8) : UInt8 := if b = 0x20 then 0x2B else b

theorem percentDecode_formByte_append (b : UInt8) (rest : Bytes) :
    percentDecode (formByte b ++ rest) = spaceToPlus b :: percentDecode rest := by
  rcases formByte_cases b with ⟨hform, hmem, -⟩ | ⟨rfl, hform⟩ | ⟨hspace, hform⟩
  · rw [hform, spaceToPlus, if_neg (by grind)]
    exact percentDecode_cons (by grind) rest
  · rw [hform]
    exact percentDecode_cons (by decide) rest
  · rw [hform, spaceToPlus, if_neg hspace]
    exact percentDecode_percentByte_append b rest

theorem component_formEncode (s : String) : component (formEncode (bytesOf s)) = s := by
  refine component_eq s ?_
  have hbyte : ∀ b rest, percentDecode ((formByte b).map plusToSpace ++ rest) =
      id b :: percentDecode rest := by
    intro b rest
    rcases formByte_cases b with ⟨hform, hmem, -⟩ | ⟨rfl, hform⟩ | ⟨-, hform⟩
    · rw [hform, List.map_singleton, plusToSpace, if_neg (by grind)]
      exact percentDecode_cons (by grind) rest
    · rw [hform]
      exact percentDecode_cons (by decide) rest
    · rw [hform, map_plusToSpace_percentByte]
      exact percentDecode_percentByte_append b rest
  rw [formEncode, List.map_flatMap]
  exact (percentDecode_flatMap hbyte _).trans (List.map_id _)

theorem mem_percentByte_plain {b x : UInt8} (h : x ∈ percentByte b) :
    x ∉ [0x00, 0x20, 0x26, 0x27, 0x2B, 0x3D] ∧ x.toNat < 128 := by
  rcases mem_percentByte h with rfl | hx
  · decide
  · constructor
    · intro hmem
      simp only [List.mem_cons, List.not_mem_nil, or_false] at hmem
      rcases hmem with rfl | rfl | rfl | rfl | rfl | rfl <;> exact hx (by decide)
    · unfold hexValue at hx
      simp only [UInt8.le_iff_toNat_le, UInt8.reduceToNat] at hx
      split_ifs at hx
      · omega
      · omega
      · omega
      · exact absurd rfl hx

theorem mem_formEncode {bytes : Bytes} {x : UInt8} (h : x ∈ formEncode bytes) :
    x ∉ [0x20, 0x26, 0x3D] ∧ x.toNat < 128 := by
  obtain ⟨b, -, hx⟩ := List.mem_flatMap.mp h
  rcases formByte_cases b with ⟨hform, hmem, hlt⟩ | ⟨-, hform⟩ | ⟨-, hform⟩
  · obtain rfl := List.mem_singleton.mp (hform ▸ hx)
    exact ⟨by grind, hlt⟩
  · obtain rfl := List.mem_singleton.mp (hform ▸ hx)
    decide
  · obtain ⟨hmem, hlt⟩ := mem_percentByte_plain (hform ▸ hx)
    exact ⟨by grind, hlt⟩

theorem isUnreserved_plain {b : UInt8} (h : isUnreserved b = true) :
    b ∉ [0x00, 0x20, 0x25, 0x26, 0x27, 0x2B, 0x3D] ∧ b.toNat < 128 := by
  constructor
  · intro hmem
    simp only [List.mem_cons, List.not_mem_nil, or_false] at hmem
    rcases hmem with rfl | rfl | rfl | rfl | rfl | rfl | rfl <;> exact absurd h (by decide)
  · simp only [isUnreserved, isAlnum, Bool.or_eq_true, Bool.and_eq_true, decide_eq_true_eq,
      UInt8.le_iff_toNat_le, UInt8.reduceToNat, ← UInt8.toNat_inj] at h
    omega

theorem mem_percentEncode {bytes : Bytes} {x : UInt8} (h : x ∈ percentEncode isUnreserved bytes) :
    x ∉ [0x00, 0x20, 0x26, 0x27, 0x2B, 0x3D] ∧ x.toNat < 128 := by
  obtain ⟨b, -, hx⟩ := List.mem_flatMap.mp h
  split_ifs at hx with hb
  · obtain rfl := List.mem_singleton.mp hx
    obtain ⟨hmem, hlt⟩ := isUnreserved_plain hb
    exact ⟨by grind, hlt⟩
  · exact mem_percentByte_plain hx

theorem bytesOf_encode (s : String) :
    bytesOf (encode s) = percentEncode isUnreserved (bytesOf s) :=
  bytesOf_ofAscii fun _ hb => (mem_percentEncode hb).2

theorem decode?_encode (s : String) : decode? (encode s) = some s := by
  rw [decode?, bytesOf_encode, percentDecode_percentEncode (by decide), bytesOf,
    Utf8.decode?_encode, Option.map_some, String.ofList_toList]

theorem component_encode (s : String) : component (bytesOf (encode s)) = s := by
  refine component_eq s ?_
  have hplus : (percentEncode isUnreserved (bytesOf s)).map plusToSpace =
      percentEncode isUnreserved (bytesOf s) := by
    refine map_eq_self fun x hx => ?_
    rw [plusToSpace, if_neg fun h => (mem_percentEncode hx).1 (by simp [h])]
  rw [bytesOf_encode, hplus, percentDecode_percentEncode (by decide)]

theorem bytesOf_serialize (pairs : List (String × String)) :
    bytesOf (serialize pairs) = [0x26].intercalate
      (pairs.map fun p => formEncode (bytesOf p.1) ++ 0x3D :: formEncode (bytesOf p.2)) := by
  refine bytesOf_ofAscii fun b hb => ?_
  rcases mem_intercalate hb with rfl | ⟨piece, hpiece, hb⟩
  · decide
  · obtain ⟨p, -, rfl⟩ := List.mem_map.mp hpiece
    rcases List.mem_append.mp hb with hb | hb
    · exact (mem_formEncode hb).2
    · rcases List.mem_cons.mp hb with rfl | hb
      · decide
      · exact (mem_formEncode hb).2

theorem parse_serialize {pairs : List (String × String)} (h : pairs ≠ []) :
    parse (bytesOf (serialize pairs)) = pairs := by
  have hfields := parse_intercalate
    (pairs.map fun p => (formEncode (bytesOf p.1), formEncode (bytesOf p.2))) (by simpa using h) ?_
  · rw [bytesOf_serialize]
    simpa [Function.comp_def, component_formEncode] using hfields
  · intro f hf
    obtain ⟨p, -, rfl⟩ := List.mem_map.mp hf
    exact ⟨fun hb => (mem_formEncode hb).1 (by simp), fun hb => (mem_formEncode hb).1 (by simp),
      fun hb => (mem_formEncode hb).1 (by simp)⟩

/-! ### Characters that are one byte -/

theorem notMem_encode {x : Char} (hx : x.toNat < 128)
    (h : UInt8.ofNat x.toNat ∈ [0x00, 0x20, 0x26, 0x27, 0x2B, 0x3D]) (s : String) :
    x ∉ (encode s).toList := by
  rw [← ofNat_mem_encode hx]
  intro hmem
  have hbytes : UInt8.ofNat x.toNat ∈ bytesOf (encode s) := hmem
  rw [bytesOf_encode] at hbytes
  exact (mem_percentEncode hbytes).1 h

theorem map_encode {x y : Char} (hx : x.toNat < 128) (hy : y.toNat < 128) (text : List Char) :
    (Utf8.encode text).map (fun b => if b = UInt8.ofNat x.toNat then UInt8.ofNat y.toNat else b) =
      Utf8.encode (text.map fun c => if c = x then y else c) := by
  induction text with
  | nil => rfl
  | cons c text ih =>
    rw [encode_cons, List.map_append, ih, List.map_cons, encode_cons]
    congr 1
    by_cases hc : c = x
    · subst hc
      rw [if_pos rfl, utf8EncodeChar_ascii hx, utf8EncodeChar_ascii hy]
      simp
    · rw [if_neg hc]
      refine map_eq_self fun b hb => if_neg ?_
      rintro rfl
      exact hc ((ofNat_mem_utf8EncodeChar hx).mp hb)

theorem takeWhile_encode {x : Char} (hx : x.toNat < 128) (text : List Char) :
    (Utf8.encode text).takeWhile (· ≠ UInt8.ofNat x.toNat) =
      Utf8.encode (text.takeWhile (· ≠ x)) := by
  induction text with
  | nil => rfl
  | cons c text ih =>
    rw [encode_cons]
    by_cases hc : c = x
    · subst hc
      rw [utf8EncodeChar_ascii hx, List.singleton_append]
      simp [Utf8.encode]
    · have hkept : ∀ b ∈ String.utf8EncodeChar c,
          decide (b ≠ UInt8.ofNat x.toNat) = true := by
        intro b hb
        refine decide_eq_true ?_
        rintro rfl
        exact hc ((ofNat_mem_utf8EncodeChar hx).mp hb)
      have hfirst : (c :: text).takeWhile (· ≠ x) = c :: text.takeWhile (· ≠ x) :=
        List.takeWhile_cons_of_pos (by simpa using hc)
      rw [List.takeWhile_append_of_pos hkept, ih, hfirst, encode_cons]

theorem encode_intercalate {x : Char} (hx : x.toNat < 128) (pieces : List (List Char)) :
    Utf8.encode ([x].intercalate pieces) =
      [UInt8.ofNat x.toNat].intercalate (pieces.map Utf8.encode) := by
  induction pieces with
  | nil => rfl
  | cons piece pieces ih =>
    cases pieces with
    | nil => simp [List.intercalate]
    | cons piece' pieces =>
      rw [intercalate_cons_cons, encode_append, encode_cons, ih, utf8EncodeChar_ascii hx,
        List.singleton_append]
      exact (intercalate_cons_cons _ _ _ _).symm

/-! ### Decoding a text that is not encoded -/

def isHex (c : Char) : Bool :=
  c.isDigit || ('A' ≤ c && c ≤ 'F') || ('a' ≤ c && c ≤ 'f')

/-- A percent sign is followed by two hexadecimal digits. -/
def hasEscape : List Char → Bool
  | c :: h :: l :: text => (c = '%' && isHex h && isHex l) || hasEscape (h :: l :: text)
  | _ => false

theorem hexValue_ofNat {c : Char} (hc : c.toNat < 128) :
    hexValue (UInt8.ofNat c.toNat) ≠ none ↔ isHex c = true := by
  have hbyte := toNat_ofNat (by omega : c.toNat < 256)
  have hle : ∀ d : Char, (d ≤ c ↔ d.toNat ≤ c.toNat) ∧ (c ≤ d ↔ c.toNat ≤ d.toNat) :=
    fun d => ⟨Iff.rfl, Iff.rfl⟩
  simp only [hexValue, isHex, Char.isDigit, UInt8.le_iff_toNat_le, UInt8.reduceToNat, hbyte, hle,
    Bool.or_eq_true, Bool.and_eq_true, decide_eq_true_eq, ge_iff_le, UInt32.le_iff_toNat_le]
  split_ifs <;> simp <;> omega

theorem hexValue_of_le {b : UInt8} (h : 128 ≤ b.toNat) : hexValue b = none := by
  simp only [hexValue, UInt8.le_iff_toNat_le, UInt8.reduceToNat]
  rw [if_neg (by omega), if_neg (by omega), if_neg (by omega)]

theorem isHex_ascii {c : Char} (h : isHex c = true) : c.toNat < 128 := by
  simp only [isHex, Char.isDigit, Bool.or_eq_true, Bool.and_eq_true, decide_eq_true_eq,
    ge_iff_le, Char.le_def, UInt32.le_iff_toNat_le, Char.toNat_val] at h
  have hbounds : '9'.toNat < 128 ∧ 'F'.toNat < 128 ∧ 'f'.toNat < 128 := by decide
  omega

theorem isHex_of_hexValue {c : Char} {text : List Char} {b : UInt8} {rest : Bytes}
    (h : Utf8.encode (c :: text) = b :: rest) (hb : hexValue b ≠ none) :
    isHex c = true ∧ rest = Utf8.encode text := by
  rw [encode_cons] at h
  by_cases hc : c.toNat < 128
  · rw [utf8EncodeChar_ascii hc] at h
    obtain ⟨rfl, rfl⟩ := List.cons.inj h
    exact ⟨(hexValue_ofNat hc).mp hb, rfl⟩
  · -- the byte is not ASCII
    have hhigh := le_of_mem_utf8EncodeChar (c := c) (by omega)
    cases hbytes : String.utf8EncodeChar c with
    | nil => exact absurd hbytes (String.utf8EncodeChar_ne_nil)
    | cons x xs =>
      rw [hbytes] at h hhigh
      obtain ⟨rfl, -⟩ := List.cons.inj h
      exact absurd (hexValue_of_le (hhigh x List.mem_cons_self)) hb

theorem encode_of_isHex {c : Char} (h : isHex c = true) (text : List Char) :
    Utf8.encode (c :: text) = UInt8.ofNat c.toNat :: Utf8.encode text := by
  rw [encode_cons, utf8EncodeChar_ascii (isHex_ascii h), List.singleton_append]

theorem percentDecode_append {bytes : Bytes} (h : 0x25 ∉ bytes) (rest : Bytes) :
    percentDecode (bytes ++ rest) = bytes ++ percentDecode rest := by
  induction bytes with
  | nil => rfl
  | cons b bytes ih =>
    obtain ⟨hb, hbytes⟩ := List.ne_and_not_mem_of_not_mem_cons h
    rw [List.cons_append, percentDecode_cons hb.symm, ih hbytes, List.cons_append]

theorem percentDecode_percent {bytes : Bytes}
    (h : ∀ x y rest, bytes = x :: y :: rest → hexValue x = none ∨ hexValue y = none) :
    percentDecode (0x25 :: bytes) = 0x25 :: percentDecode bytes := by
  match bytes, h with
  | [], _ => rfl
  | [_], _ => rfl
  | x :: y :: rest, h =>
    have hnone : escape 0x25 x y = none := by
      rw [escape, if_pos rfl]
      rcases h x y rest rfl with hx | hy
      · rw [hx]
      · rw [hy]
        split <;> simp_all
    rw [percentDecode, hnone]

theorem percent_notMem {c : Char} (h : c ≠ '%') : 0x25 ∉ String.utf8EncodeChar c :=
  fun hmem => h ((ofNat_mem_utf8EncodeChar (x := '%') (by decide)).mp hmem)

theorem percentDecode_encode_cons (c : Char) (text : List Char) :
    (∃ h l rest x, text = h :: l :: rest ∧ hasEscape (c :: text) = true ∧
      percentDecode (Utf8.encode (c :: text)) = x :: percentDecode (Utf8.encode rest)) ∨
    (hasEscape (c :: text) = hasEscape text ∧
      percentDecode (Utf8.encode (c :: text)) =
        String.utf8EncodeChar c ++ percentDecode (Utf8.encode text)) := by
  by_cases hc : c = '%'
  · subst hc
    by_cases hescape : ∃ h l rest, text = h :: l :: rest ∧ isHex h = true ∧ isHex l = true
    · obtain ⟨h, l, rest, rfl, hh, hl⟩ := hescape
      have hx := Option.ne_none_iff_exists'.mp ((hexValue_ofNat (isHex_ascii hh)).mpr hh)
      have hy := Option.ne_none_iff_exists'.mp ((hexValue_ofNat (isHex_ascii hl)).mpr hl)
      obtain ⟨x, hx⟩ := hx
      obtain ⟨y, hy⟩ := hy
      refine Or.inl ⟨h, l, rest, UInt8.ofNat (16 * x + y), rfl, by simp [hasEscape, hh, hl], ?_⟩
      rw [encode_cons, encode_of_isHex hh, encode_of_isHex hl]
      show percentDecode (0x25 :: _ :: _ :: _) = _
      rw [percentDecode, escape, if_pos rfl, hx, hy]
    · refine Or.inr ⟨?_, ?_⟩
      · match text, hescape with
        | [], _ => rfl
        | [_], _ => rfl
        | h :: l :: rest, hescape =>
          have hnot : (isHex h && isHex l) = false := by
            rw [Bool.and_eq_false_iff]
            by_contra hboth
            push Not at hboth
            exact hescape ⟨h, l, rest, rfl, by simpa using hboth.1, by simpa using hboth.2⟩
          rw [hasEscape, Bool.and_assoc, hnot, Bool.and_false, Bool.false_or]
      · refine percentDecode_percent fun x y bytes hbytes => ?_
        by_contra hboth
        push Not at hboth
        cases text with
        | nil => cases hbytes
        | cons h text =>
          obtain ⟨hh, hrest⟩ := isHex_of_hexValue hbytes hboth.1
          cases text with
          | nil => cases hrest
          | cons l rest =>
            obtain ⟨hl, -⟩ := isHex_of_hexValue hrest.symm hboth.2
            exact hescape ⟨h, l, rest, rfl, hh, hl⟩
  · refine Or.inr ⟨?_, ?_⟩
    · match text with
      | [] => rfl
      | [_] => rfl
      | h :: l :: rest => simp [hasEscape, hc]
    · rw [encode_cons, percentDecode_append (percent_notMem hc)]

theorem percentDecode_encode {text : List Char} (h : hasEscape text = false) :
    percentDecode (Utf8.encode text) = Utf8.encode text := by
  induction text with
  | nil => rfl
  | cons c text ih =>
    rcases percentDecode_encode_cons c text with ⟨_, _, _, _, -, hescape, -⟩ | ⟨hescape, hdecode⟩
    · rw [h] at hescape
      cases hescape
    · rw [hdecode, ih (hescape ▸ h), encode_cons]

/-- Decoding never makes a text longer, and an escape makes it shorter. -/
theorem length_units_percentDecode (text : List Char) :
    (units (percentDecode (Utf8.encode text))).length ≤ text.length ∧
      (hasEscape text = true →
        (units (percentDecode (Utf8.encode text))).length < text.length) := by
  -- an escape is three characters, so the induction is on the length
  induction hn : text.length using Nat.strong_induction_on generalizing text with
  | _ n ih =>
    cases text with
    | nil => exact ⟨Nat.zero_le _, fun h => by cases h⟩
    | cons c text =>
      subst hn
      rcases percentDecode_encode_cons c text with ⟨h, l, rest, x, rfl, -, hdecode⟩ |
        ⟨hescape, hdecode⟩
      · have hrest := (ih rest.length (by simp; omega) rest rfl).1
        have hle := length_units_cons_le x (percentDecode (Utf8.encode rest))
        rw [hdecode]
        simp only [List.length_cons]
        omega
      · obtain ⟨hle, hlt⟩ := ih text.length (by simp) text rfl
        rw [hdecode, units_encodeChar_append, hescape, List.length_cons, List.length_cons]
        exact ⟨by omega, fun h => by have := hlt h; omega⟩

/-- **Decoding keeps a text exactly if it has no escape.** -/
theorem decodeLossy_percentDecode_iff (text : List Char) :
    decodeLossy (percentDecode (Utf8.encode text)) = text ↔ hasEscape text = false := by
  constructor
  · intro heq
    rw [← Bool.not_eq_true]
    intro hescape
    have hlt := (length_units_percentDecode text).2 hescape
    have hlen := congrArg List.length heq
    rw [decodeLossy, List.length_map] at hlen
    omega
  · intro h
    rw [percentDecode_encode h, decodeLossy_encode]

theorem length_decodeLossy_percentDecode (text : List Char) :
    (decodeLossy (percentDecode (Utf8.encode text))).length ≤ text.length := by
  rw [decodeLossy, List.length_map]
  exact (length_units_percentDecode text).1

/-! ### Values that are not encoded -/

/-- A form says the text if the text is written in it as it is. -/
def Literal (text : List Char) : Prop := '&' ∉ text ∧ '+' ∉ text ∧ hasEscape text = false

instance (text : List Char) : Decidable (Literal text) := by
  delta Literal
  infer_instance

/-- What a form says with the text written as it is. -/
def reading (text : List Char) : List Char :=
  decodeLossy (percentDecode
    (Utf8.encode ((text.takeWhile (· ≠ '&')).map fun c => if c = '+' then ' ' else c)))

theorem reading_eq_iff (text : List Char) : reading text = text ↔ Literal text := by
  constructor
  · intro heq
    -- no step makes the text longer, so none makes it shorter
    have hbegins : text.takeWhile (· ≠ '&') <+: text := List.takeWhile_prefix _
    have hlength := length_decodeLossy_percentDecode
      ((text.takeWhile (· ≠ '&')).map fun c => if c = '+' then ' ' else c)
    rw [← reading, heq, List.length_map] at hlength
    have hall : text.takeWhile (· ≠ '&') = text := hbegins.eq_of_length_le hlength
    rw [reading, hall] at heq
    have hescape : hasEscape (text.map fun c => if c = '+' then ' ' else c) = false := by
      rw [← Bool.not_eq_true]
      intro hescape
      have hlt := (length_units_percentDecode _).2 hescape
      have hlen := congrArg List.length heq
      rw [decodeLossy, List.length_map] at hlen
      rw [List.length_map] at hlt
      omega
    have hmap : (text.map fun c => if c = '+' then ' ' else c) = text := by
      rw [(decodeLossy_percentDecode_iff _).mpr hescape] at heq
      exact heq
    refine ⟨fun hmem => ?_, fun hmem => ?_, hmap ▸ hescape⟩
    · have hne := List.takeWhile_eq_self_iff.mp hall _ hmem
      exact absurd hne (by decide)
    · rw [← hmap, List.mem_map] at hmem
      obtain ⟨c, -, hc⟩ := hmem
      split_ifs at hc with hplus
      · exact absurd hc (by decide)
      · exact hplus hc
  · rintro ⟨hamp, hplus, hescape⟩
    have hall : text.takeWhile (· ≠ '&') = text :=
      List.takeWhile_eq_self_iff.mpr fun c hc => decide_eq_true (ne_of_mem_of_not_mem hc hamp)
    have hmap : (text.map fun c => if c = '+' then ' ' else c) = text :=
      map_eq_self fun c hc => if_neg (ne_of_mem_of_not_mem hc hplus)
    rw [reading, hall, hmap, decodeLossy_percentDecode_iff]
    exact hescape

theorem comp_spaceToPlus {β : Type} {f : UInt8 → β} (h : f 0x2B = f 0x20) :
    f ∘ spaceToPlus = f := by
  funext b
  rw [Function.comp, spaceToPlus]
  split_ifs with hb
  · rw [hb, h]
  · rfl

/-- Decoding a form once too often leaves texts with plus signs for spaces. -/
theorem component_takeWhile_spaceToPlus (s : String) :
    component (((bytesOf s).map spaceToPlus).takeWhile (· ≠ 0x26)) =
      String.ofList (reading s.toList) := by
  have hamp : ((fun b : UInt8 => decide (b ≠ 0x26)) ∘ spaceToPlus) = fun b => decide (b ≠ 0x26) :=
    comp_spaceToPlus (by decide)
  have hspace : plusToSpace ∘ spaceToPlus = plusToSpace := comp_spaceToPlus (by decide)
  rw [component, List.takeWhile_map, hamp, List.map_map, hspace, reading, bytesOf]
  congr 3
  rw [← map_encode (by decide) (by decide), ← takeWhile_encode (by decide)]
  rfl

end GlobalProtect.Lib.Form
