import Mathlib.Data.String.Basic
import Mathlib.Data.List.TakeWhile
import Mathlib.Data.List.ReduceOption

/-! # Decoding UTF-8

Bytes are decoded one character at a time. A first byte says how many bytes follow it (`tails`) and
what the second one can be (`second`). Bytes that follow as they should belong to the first one
(`following`); where one is missing, the bytes so far are one invalid sequence, and decoding goes on
after them.

* `units`: the characters, `none` for an invalid sequence.
* `decodeLossy`: every invalid sequence is replaced by U+FFFD.
* `decode?`: the text, if all of it is valid.
* `units_encode_append`: the bytes of a text are decoded to it, whatever follows them. -/

namespace GlobalProtect.Lib.Utf8

abbrev Bytes := List UInt8

/-- The bytes of a text. -/
def encode (text : List Char) : Bytes := text.flatMap String.utf8EncodeChar

def isTail (b : UInt8) : Bool := 0x80 ≤ b && b ≤ 0xBF

/-- How many bytes follow the first byte. -/
def tails (b : UInt8) : ℕ :=
  if 0xC2 ≤ b ∧ b ≤ 0xDF then 1
  else if 0xE0 ≤ b ∧ b ≤ 0xEF then 2
  else if 0xF0 ≤ b ∧ b ≤ 0xF4 then 3
  else 0

/-- The second byte can follow the first one. -/
def second (b x : UInt8) : Bool :=
  if b = 0xE0 then 0xA0 ≤ x && x ≤ 0xBF
  else if b = 0xED then 0x80 ≤ x && x ≤ 0x9F
  else if b = 0xF0 then 0x90 ≤ x && x ≤ 0xBF
  else if b = 0xF4 then 0x80 ≤ x && x ≤ 0x8F
  else isTail x

/-- The bytes that belong to the first one. -/
def following (b : UInt8) : Bytes → Bytes
  | [] => []
  | x :: rest => (if second b x then x :: rest.takeWhile isTail else []).take (tails b)

/-- The code point of a sequence. -/
def scalar (b : UInt8) (xs : Bytes) : ℕ :=
  let start := match tails b with
    | 0 => b.toNat
    | 1 => b.toNat - 0xC0
    | 2 => b.toNat - 0xE0
    | _ => b.toNat - 0xF0
  xs.foldl (fun v x => v * 64 + (x.toNat - 0x80)) start

/-- The character that begins with the byte. -/
def first (b : UInt8) (rest : Bytes) : Option Char :=
  if (b < 0x80 ∨ 0 < tails b) ∧ (following b rest).length = tails b then
    some (Char.ofNat (scalar b (following b rest)))
  else none

/-- The characters after so many bytes. -/
def unitsAfter : ℕ → Bytes → List (Option Char)
  | _, [] => []
  | skip + 1, _ :: rest => unitsAfter skip rest
  | 0, b :: rest => first b rest :: unitsAfter (following b rest).length rest

def units (bytes : Bytes) : List (Option Char) := unitsAfter 0 bytes

def replacement : Char := '\uFFFD'

def decodeLossy (bytes : Bytes) : List Char := (units bytes).map (·.getD replacement)

def decode? (bytes : Bytes) : Option (List Char) :=
  if (units bytes).all Option.isSome then some (units bytes).reduceOption else none

/-- Where the first invalid sequence begins, its first byte and what comes after that byte. -/
def firstInvalid : ℕ → ℕ → Bytes → Option (ℕ × UInt8 × Bytes)
  | _, _, [] => none
  | skip + 1, index, _ :: rest => firstInvalid skip (index + 1) rest
  | 0, index, b :: rest =>
    if (first b rest).isSome then firstInvalid (following b rest).length (index + 1) rest
    else some (index, b, rest)

/-- What is wrong with bytes that are no text. -/
def errorText (bytes : Bytes) : String :=
  match firstInvalid 0 0 bytes with
  | none => ""
  | some (index, b, rest) =>
    if 0 < tails b ∧ following b rest = rest then
      "incomplete utf-8 byte sequence from index " ++ toString index
    else
      "invalid utf-8 sequence of " ++ toString ((following b rest).length + 1) ++
        " bytes from index " ++ toString index

/-! ### One character -/

variable {b : UInt8} {bytes rest : Bytes} {c : Char}

theorem unitsAfter_eq (n : ℕ) (bytes : Bytes) : unitsAfter n bytes = units (bytes.drop n) := by
  induction bytes generalizing n with
  | nil => simp [units, unitsAfter]
  | cons b rest ih =>
    cases n with
    | zero => rfl
    | succ n =>
      rw [unitsAfter, ih]
      rfl

theorem units_nil : units [] = [] := rfl

theorem units_cons (b : UInt8) (rest : Bytes) :
    units (b :: rest) = first b rest :: units (rest.drop (following b rest).length) := by
  rw [units, unitsAfter, unitsAfter_eq]

theorem tails_ascii (h : b.toNat < 0x80) : tails b = 0 := by
  simp only [tails, UInt8.le_iff_toNat_le, UInt8.reduceToNat]
  rw [if_neg (by omega), if_neg (by omega), if_neg (by omega)]

theorem tails_one (h : 0xC2 ≤ b.toNat) (h' : b.toNat ≤ 0xDF) : tails b = 1 := by
  simp only [tails, UInt8.le_iff_toNat_le, UInt8.reduceToNat]
  rw [if_pos ⟨h, h'⟩]

theorem tails_two (h : 0xE0 ≤ b.toNat) (h' : b.toNat ≤ 0xEF) : tails b = 2 := by
  simp only [tails, UInt8.le_iff_toNat_le, UInt8.reduceToNat]
  rw [if_neg (by omega), if_pos ⟨h, h'⟩]

theorem tails_three (h : 0xF0 ≤ b.toNat) (h' : b.toNat ≤ 0xF4) : tails b = 3 := by
  simp only [tails, UInt8.le_iff_toNat_le, UInt8.reduceToNat]
  rw [if_neg (by omega), if_neg (by omega), if_pos ⟨h, h'⟩]

theorem isTail_iff {x : UInt8} : isTail x = true ↔ 0x80 ≤ x.toNat ∧ x.toNat ≤ 0xBF := by
  simp [isTail, UInt8.le_iff_toNat_le]

theorem units_ascii (h : b.toNat < 0x80) (rest : Bytes) :
    units (b :: rest) = some (Char.ofNat b.toNat) :: units rest := by
  have hlt : b < 0x80 := UInt8.lt_iff_toNat_lt.mpr h
  have hnone : following b rest = [] := by
    cases rest with
    | nil => rfl
    | cons x rest => rw [following, tails_ascii h, List.take_zero]
  rw [units_cons, first, hnone, tails_ascii h, if_pos ⟨Or.inl hlt, rfl⟩, scalar, tails_ascii h]
  rfl

theorem toNat_ofNat {n : ℕ} (h : n < 256) : (UInt8.ofNat n).toNat = n := by
  simp [Nat.mod_eq_of_lt h]

theorem units_sequence {x : UInt8} (ys : Bytes) (hsecond : second b x = true)
    (hys : ∀ y ∈ ys, isTail y = true) (hlen : ys.length + 1 = tails b) (rest : Bytes) :
    units (b :: x :: (ys ++ rest)) = some (Char.ofNat (scalar b (x :: ys))) :: units rest := by
  have hfollow : following b (x :: (ys ++ rest)) = x :: ys := by
    rw [following, if_pos hsecond, List.takeWhile_append_of_pos hys, ← List.cons_append,
      List.take_append_of_le_length (by simp [← hlen]), ← hlen, ← List.length_cons,
      List.take_length]
  rw [units_cons, first, hfollow, if_pos ⟨Or.inr (by omega), by simpa using hlen⟩]
  simp

theorem second_of_isTail {x : UInt8} (h : isTail x = true)
    (hE0 : b.toNat = 0xE0 → 0xA0 ≤ x.toNat) (hED : b.toNat = 0xED → x.toNat ≤ 0x9F)
    (hF0 : b.toNat = 0xF0 → 0x90 ≤ x.toNat) (hF4 : b.toNat = 0xF4 → x.toNat ≤ 0x8F) :
    second b x = true := by
  obtain ⟨hlow, hhigh⟩ := isTail_iff.mp h
  unfold second
  split_ifs with h₁ h₂ h₃ h₄
  · simp [UInt8.le_iff_toNat_le, hE0 (congrArg UInt8.toNat h₁), hhigh]
  · simp [UInt8.le_iff_toNat_le, hED (congrArg UInt8.toNat h₂), hlow]
  · simp [UInt8.le_iff_toNat_le, hF0 (congrArg UInt8.toNat h₃), hhigh]
  · simp [UInt8.le_iff_toNat_le, hF4 (congrArg UInt8.toNat h₄), hlow]
  · exact h

theorem units_two {x : UInt8} {v : ℕ} (hb : b.toNat = v / 64 + 0xC0) (hx : x.toNat = v % 64 + 0x80)
    (hlow : 0x7F < v) (hhigh : v ≤ 0x7FF) (rest : Bytes) :
    units (b :: x :: rest) = some (Char.ofNat v) :: units rest := by
  have htails : tails b = 1 := tails_one (by omega) (by omega)
  have hsecond : second b x = true :=
    second_of_isTail (isTail_iff.mpr (by omega)) (by omega) (by omega) (by omega) (by omega)
  have hscalar : scalar b [x] = v := by
    simp only [scalar, htails, List.foldl_cons, List.foldl_nil, hb, hx, Nat.add_sub_cancel]
    exact Nat.div_add_mod' v 64
  have hunits := units_sequence [] hsecond (by simp) htails.symm rest
  rwa [hscalar] at hunits

theorem units_three {x y : UInt8} {v : ℕ} (hb : b.toNat = v / 4096 + 0xE0)
    (hx : x.toNat = v / 64 % 64 + 0x80) (hy : y.toNat = v % 64 + 0x80) (hlow : 0x7FF < v)
    (hhigh : v ≤ 0xFFFF) (hvalid : v < 0xD800 ∨ 0xDFFF < v) (rest : Bytes) :
    units (b :: x :: y :: rest) = some (Char.ofNat v) :: units rest := by
  have htails : tails b = 2 := tails_two (by omega) (by omega)
  have hsecond : second b x = true :=
    second_of_isTail (isTail_iff.mpr (by omega)) (by omega) (by omega) (by omega) (by omega)
  have htail : isTail y = true := isTail_iff.mpr (by omega)
  have hscalar : scalar b [x, y] = v := by
    simp only [scalar, htails, List.foldl_cons, List.foldl_nil, hb, hx, hy, Nat.add_sub_cancel]
    rw [show v / 4096 = v / 64 / 64 by omega, Nat.div_add_mod', Nat.div_add_mod']
  have hunits := units_sequence [y] hsecond (by simpa using htail) htails.symm rest
  rwa [hscalar] at hunits

theorem units_four {x y z : UInt8} {v : ℕ} (hb : b.toNat = v / 262144 + 0xF0)
    (hx : x.toNat = v / 4096 % 64 + 0x80) (hy : y.toNat = v / 64 % 64 + 0x80)
    (hz : z.toNat = v % 64 + 0x80) (hlow : 0xFFFF < v) (hhigh : v < 0x110000) (rest : Bytes) :
    units (b :: x :: y :: z :: rest) = some (Char.ofNat v) :: units rest := by
  have htails : tails b = 3 := tails_three (by omega) (by omega)
  have hsecond : second b x = true :=
    second_of_isTail (isTail_iff.mpr (by omega)) (by omega) (by omega) (by omega) (by omega)
  have htail : isTail y = true ∧ isTail z = true :=
    ⟨isTail_iff.mpr (by omega), isTail_iff.mpr (by omega)⟩
  have hscalar : scalar b [x, y, z] = v := by
    simp only [scalar, htails, List.foldl_cons, List.foldl_nil, hb, hx, hy, hz,
      Nat.add_sub_cancel]
    rw [show v / 262144 = v / 4096 / 64 by omega, Nat.div_add_mod',
      show v / 4096 = v / 64 / 64 by omega, Nat.div_add_mod', Nat.div_add_mod']
  have hunits := units_sequence [y, z] hsecond (by simpa using htail) htails.symm rest
  rwa [hscalar] at hunits

theorem units_encodeChar_append (c : Char) (rest : Bytes) :
    units (String.utf8EncodeChar c ++ rest) = some c :: units rest := by
  have hvalid : c.val.toNat < 0xD800 ∨ 0xDFFF < c.val.toNat ∧ c.val.toNat < 0x110000 := c.valid
  have hchar : Char.ofNat c.val.toNat = c := Char.ofNat_toNat c
  unfold String.utf8EncodeChar
  generalize c.val.toNat = v at hvalid hchar
  dsimp only
  rw [← hchar]
  -- a later byte carries six bits
  have htail : ∀ n, (UInt8.ofNat (n % 0x40 + 0x80)).toNat = n % 64 + 0x80 := fun n =>
    toNat_ofNat (by omega)
  split_ifs with h₁ h₂ h₃
  · have hb : (UInt8.ofNat v).toNat = v := toNat_ofNat (by omega)
    rw [List.singleton_append, units_ascii (by omega), hb]
  · have hb : (UInt8.ofNat (v / 64 % 0x20 + 0xc0)).toNat = v / 64 + 0xC0 := by
      rw [toNat_ofNat (by omega)]
      omega
    exact units_two hb (htail v) (by omega) h₂ rest
  · have hb : (UInt8.ofNat (v / 4096 % 0x10 + 0xe0)).toNat = v / 4096 + 0xE0 := by
      rw [toNat_ofNat (by omega)]
      omega
    exact units_three hb (htail _) (htail v) (by omega) h₃ (by omega) rest
  · have hb : (UInt8.ofNat (v / 262144 % 0x08 + 0xf0)).toNat = v / 262144 + 0xF0 := by
      rw [toNat_ofNat (by omega)]
      omega
    exact units_four hb (htail _) (htail _) (htail v) (by omega) (by omega) rest

theorem units_encode_append (text : List Char) (rest : Bytes) :
    units (encode text ++ rest) = text.map some ++ units rest := by
  induction text with
  | nil => rfl
  | cons c text ih =>
    rw [encode, List.flatMap_cons, List.append_assoc, units_encodeChar_append]
    exact congrArg (some c :: ·) ih

/-! ### Texts -/

theorem decodeLossy_encode (text : List Char) : decodeLossy (encode text) = text := by
  have hunits := units_encode_append text []
  rw [List.append_nil, units_nil, List.append_nil] at hunits
  rw [decodeLossy, hunits, List.map_map]
  exact List.map_id text

theorem decode?_encode (text : List Char) : decode? (encode text) = some text := by
  have hunits := units_encode_append text []
  rw [List.append_nil, units_nil, List.append_nil] at hunits
  simp [decode?, hunits, List.reduceOption]

/-! ### ASCII -/

theorem encode_append (text text' : List Char) : encode (text ++ text') = encode text ++ encode text' :=
  List.flatMap_append

theorem encode_cons (c : Char) (text : List Char) :
    encode (c :: text) = String.utf8EncodeChar c ++ encode text :=
  List.flatMap_cons

theorem utf8EncodeChar_ascii (h : c.toNat < 128) :
    String.utf8EncodeChar c = [UInt8.ofNat c.toNat] := by
  have hval : c.val.toNat < 128 := h
  unfold String.utf8EncodeChar
  dsimp only
  rw [if_pos (by omega)]
  rfl

theorem le_of_mem_utf8EncodeChar (h : 128 ≤ c.toNat) :
    ∀ b ∈ String.utf8EncodeChar c, 128 ≤ b.toNat := by
  have hvalid : c.val.toNat < 0xD800 ∨ 0xDFFF < c.val.toNat ∧ c.val.toNat < 0x110000 := c.valid
  have hval : 128 ≤ c.val.toNat := h
  unfold String.utf8EncodeChar
  generalize c.val.toNat = v at hvalid hval
  have hbyte : ∀ n k, 128 ≤ k → n + k < 256 → 128 ≤ (UInt8.ofNat (n + k)).toNat := by
    intro n k hk hlt
    rw [toNat_ofNat hlt]
    omega
  have htail : ∀ n, 128 ≤ (UInt8.ofNat (n % 0x40 + 0x80)).toNat := fun n =>
    hbyte _ _ (by decide) (by omega)
  dsimp only
  rw [if_neg (by omega)]
  split_ifs
  · simp only [List.forall_mem_cons]
    exact ⟨hbyte _ _ (by decide) (by omega), htail _, by simp⟩
  · simp only [List.forall_mem_cons]
    exact ⟨hbyte _ _ (by decide) (by omega), htail _, htail _, by simp⟩
  · simp only [List.forall_mem_cons]
    exact ⟨hbyte _ _ (by decide) (by omega), htail _, htail _, htail _, by simp⟩

theorem ofNat_mem_utf8EncodeChar {c x : Char} (hx : x.toNat < 128) :
    UInt8.ofNat x.toNat ∈ String.utf8EncodeChar c ↔ c = x := by
  constructor
  · intro hmem
    by_cases hc : c.toNat < 128
    · rw [utf8EncodeChar_ascii hc, List.mem_singleton] at hmem
      have htoNat := congrArg UInt8.toNat hmem
      rw [toNat_ofNat (by omega), toNat_ofNat (by omega)] at htoNat
      exact Char.toNat_inj.mp htoNat.symm
    · have hhigh := le_of_mem_utf8EncodeChar (c := c) (by omega) _ hmem
      rw [toNat_ofNat (by omega)] at hhigh
      omega
  · rintro rfl
    rw [utf8EncodeChar_ascii hx]
    exact List.mem_singleton_self _

theorem ofNat_mem_encode {text : List Char} {x : Char} (hx : x.toNat < 128) :
    UInt8.ofNat x.toNat ∈ encode text ↔ x ∈ text := by
  rw [encode, List.mem_flatMap]
  constructor
  · rintro ⟨c, hc, hmem⟩
    rwa [← (ofNat_mem_utf8EncodeChar hx).mp hmem]
  · exact fun h => ⟨x, h, (ofNat_mem_utf8EncodeChar hx).mpr rfl⟩

theorem length_encode (text : List Char) : (encode text).length = String.utf8Len text := by
  induction text with
  | nil => rfl
  | cons c text ih =>
    rw [encode_cons, List.length_append, ih, String.length_utf8EncodeChar, String.utf8Len_cons,
      Nat.add_comm]

theorem tails_of_isTail (h : isTail b = true) : tails b = 0 := by
  have := isTail_iff.mp h
  simp only [tails, UInt8.le_iff_toNat_le, UInt8.reduceToNat]
  rw [if_neg (by omega), if_neg (by omega), if_neg (by omega)]

/-- A byte that follows nothing is invalid on its own. -/
theorem units_tails_append (ys rest : Bytes) (hys : ∀ y ∈ ys, isTail y = true) :
    (units (ys ++ rest)).length = ys.length + (units rest).length := by
  induction ys with
  | nil => simp
  | cons y ys ih =>
    have htails := tails_of_isTail (hys y List.mem_cons_self)
    have hnone : following y (ys ++ rest) = [] := by
      cases ys ++ rest with
      | nil => rfl
      | cons x rest => rw [following, htails, List.take_zero]
    rw [List.cons_append, units_cons, hnone, List.length_cons, List.length_cons, List.length_nil,
      List.drop_zero, ih fun y hy => hys y (List.mem_cons_of_mem _ hy)]
    omega

theorem second_isTail {x : UInt8} (h : second b x = true) : isTail x = true := by
  rw [isTail_iff]
  unfold second at h
  split_ifs at h
  all_goals first
    | exact isTail_iff.mp h
    | simp only [Bool.and_eq_true, decide_eq_true_eq, UInt8.le_iff_toNat_le, UInt8.reduceToNat] at h
      omega

theorem following_prefix (b : UInt8) (rest : Bytes) : following b rest <+: rest := by
  cases rest with
  | nil => exact List.prefix_rfl
  | cons x rest =>
    rw [following]
    split_ifs
    · exact (List.take_prefix _ _).trans
        (List.cons_prefix_cons.mpr ⟨rfl, List.takeWhile_prefix _⟩)
    · rw [List.take_nil]
      exact List.nil_prefix

theorem isTail_of_mem_following {y : UInt8} (h : y ∈ following b rest) : isTail y = true := by
  cases rest with
  | nil => cases h
  | cons x rest =>
    have hmem := List.mem_of_mem_take h
    split_ifs at hmem with hsecond
    · rcases List.mem_cons.mp hmem with rfl | hmem
      · exact second_isTail hsecond
      · exact List.mem_takeWhile_imp hmem
    · cases hmem

theorem length_units_cons_le (b : UInt8) (rest : Bytes) :
    (units (b :: rest)).length ≤ (units rest).length + 1 := by
  obtain ⟨rest', hrest⟩ := following_prefix b rest
  have hlen := units_tails_append (following b rest) rest' fun y hy => isTail_of_mem_following hy
  have hdrop : rest.drop (following b rest).length = rest' := by
    generalize following b rest = ys at hrest
    rw [← hrest, List.drop_left]
  rw [hrest] at hlen
  rw [units_cons, hdrop, List.length_cons]
  omega

end GlobalProtect.Lib.Utf8
