import Mathlib.Data.String.Basic

/-! # Text in bytes

Programs measure and cut text in bytes, and may only cut it between two characters. A text is the
list of its characters here, and takes `String.utf8Len` bytes.

* `isCharBoundary`: the offset is between two characters (`isCharBoundary_iff`).
* `floorBoundary`: the last boundary up to an offset, by going back one byte at a time.
* `take` and `drop`: the longest beginning that fits in a number of bytes (`prefix_take`), and the
  rest. `floorBoundary_eq`: going back byte by byte finds the same place.
* `slice` and `truncate` are what programs call; `slice_append` and `toList_truncate` express them
  by `take`. -/

namespace GlobalProtect.Lib.Utf8

open String (utf8Len)

def isCharBoundary : List Char → ℕ → Bool
  | _, 0 => true
  | [], _ + 1 => false
  | c :: text, k + 1 => c.utf8Size ≤ k + 1 && isCharBoundary text (k + 1 - c.utf8Size)

def floorBoundary (text : List Char) : ℕ → ℕ
  | 0 => 0
  | k + 1 => if isCharBoundary text (k + 1) then k + 1 else floorBoundary text k

/-- The longest beginning of the text that has at most so many bytes. -/
def take : ℕ → List Char → List Char
  | _, [] => []
  | k, c :: text => if c.utf8Size ≤ k then c :: take (k - c.utf8Size) text else []

/-- What follows `take`. -/
def drop : ℕ → List Char → List Char
  | _, [] => []
  | k, c :: text => if c.utf8Size ≤ k then drop (k - c.utf8Size) text else c :: text

/-- The text from one boundary to another. -/
def slice (text : List Char) (start stop : ℕ) : List Char := take (stop - start) (drop start text)

/-- The same, where an offset that is not a boundary fails. -/
def slice? (text : List Char) (start stop : ℕ) : Option (List Char) :=
  if start ≤ stop ∧ isCharBoundary text start ∧ isCharBoundary text stop then
    some (slice text start stop)
  else none

/-- The text is cut at the last boundary up to an offset. -/
def truncate (s : String) (k : ℕ) : String :=
  String.ofList (take (floorBoundary s.toList k) s.toList)

/-! ### Boundaries -/

variable {text pre suf : List Char} {k : ℕ}

theorem isCharBoundary_iff :
    isCharBoundary text k = true ↔ ∃ pre suf, text = pre ++ suf ∧ utf8Len pre = k := by
  induction text generalizing k with
  | nil =>
    cases k with
    | zero => simp [isCharBoundary]
    | succ k => simp [isCharBoundary]
  | cons c text ih =>
    cases k with
    | zero =>
      have hzero : isCharBoundary (c :: text) 0 = true := by simp [isCharBoundary]
      exact ⟨fun _ => ⟨[], c :: text, rfl, rfl⟩, fun _ => hzero⟩
    | succ k =>
      have hpos := c.utf8Size_pos
      rw [isCharBoundary, Bool.and_eq_true_iff, decide_eq_true_iff, ih]
      constructor
      · rintro ⟨hle, pre, suf, rfl, hlen⟩
        refine ⟨c :: pre, suf, rfl, ?_⟩
        rw [String.utf8Len_cons]
        omega
      · rintro ⟨pre, suf, htext, hlen⟩
        cases pre with
        | nil => cases hlen
        | cons d pre =>
          obtain ⟨rfl, rfl⟩ := List.cons.inj htext
          rw [String.utf8Len_cons] at hlen
          exact ⟨by omega, pre, suf, rfl, by omega⟩

theorem floorBoundary_le (text : List Char) (k : ℕ) : floorBoundary text k ≤ k := by
  induction k with
  | zero => exact Nat.le_refl 0
  | succ k ih =>
    unfold floorBoundary
    split_ifs
    · exact Nat.le_refl _
    · omega

theorem isCharBoundary_floor (text : List Char) (k : ℕ) :
    isCharBoundary text (floorBoundary text k) = true := by
  induction k with
  | zero => cases text <;> rfl
  | succ k ih =>
    unfold floorBoundary
    split_ifs with h
    · exact h
    · exact ih

theorem le_floorBoundary {j : ℕ} (hj : isCharBoundary text j = true) (hle : j ≤ k) :
    j ≤ floorBoundary text k := by
  induction k with
  | zero => exact hle
  | succ k ih =>
    unfold floorBoundary
    split_ifs with h
    · exact hle
    · have hne : j ≠ k + 1 := fun heq => h (heq ▸ hj)
      exact ih (by omega)

/-! ### Cutting -/

theorem take_append_drop (k : ℕ) (text : List Char) : take k text ++ drop k text = text := by
  induction text generalizing k with
  | nil => rfl
  | cons c text ih =>
    unfold take drop
    split_ifs
    · rw [List.cons_append, ih]
    · rfl

theorem utf8Len_take_le (k : ℕ) (text : List Char) : utf8Len (take k text) ≤ k := by
  induction text generalizing k with
  | nil => exact Nat.zero_le k
  | cons c text ih =>
    unfold take
    split_ifs with h
    · have := ih (k - c.utf8Size)
      rw [String.utf8Len_cons]
      omega
    · exact Nat.zero_le k

theorem take_prefix_self (k : ℕ) (text : List Char) : take k text <+: text :=
  ⟨drop k text, take_append_drop k text⟩

/-- No beginning that fits is longer. -/
theorem prefix_take (h : pre <+: text) (hlen : utf8Len pre ≤ k) : pre <+: take k text := by
  induction pre generalizing text k with
  | nil => exact List.nil_prefix
  | cons c pre ih =>
    obtain ⟨suf, rfl⟩ := h
    rw [String.utf8Len_cons] at hlen
    rw [List.cons_append, take, if_pos (by omega)]
    exact List.cons_prefix_cons.mpr ⟨rfl, ih (List.prefix_append pre suf) (by omega)⟩

theorem take_of_utf8Len_le (h : utf8Len text ≤ k) : take k text = text :=
  ((take_prefix_self k text).eq_of_length_le (prefix_take (List.prefix_refl text) h).length_le)

theorem take_eq_self_iff : take k text = text ↔ utf8Len (take k text) = utf8Len text := by
  constructor
  · exact congrArg utf8Len
  · intro hlen
    have hsum := congrArg utf8Len (take_append_drop k text)
    rw [String.utf8Len_append] at hsum
    have hrest : drop k text = [] := String.utf8Len_eq_zero.mp (by omega)
    have hwhole := take_append_drop k text
    rwa [hrest, List.append_nil] at hwhole

theorem take_append (pre suf : List Char) (k : ℕ) :
    take (utf8Len pre + k) (pre ++ suf) = pre ++ take k suf := by
  induction pre with
  | nil => simp
  | cons c pre ih =>
    rw [List.cons_append, String.utf8Len_cons, take, if_pos (by omega)]
    rw [show utf8Len pre + c.utf8Size + k - c.utf8Size = utf8Len pre + k by omega, ih]
    rfl

theorem drop_append (pre suf : List Char) : drop (utf8Len pre) (pre ++ suf) = suf := by
  induction pre with
  | nil =>
    cases suf with
    | nil => rfl
    | cons c suf =>
      have hpos := c.utf8Size_pos
      show drop 0 (c :: suf) = c :: suf
      rw [drop, if_neg (by omega)]
  | cons c pre ih =>
    rw [List.cons_append, String.utf8Len_cons, drop, if_pos (by omega), Nat.add_sub_cancel, ih]

theorem take_ne_nil (h : text ≠ []) (hk : 4 ≤ k) : take k text ≠ [] := by
  cases text with
  | nil => exact absurd rfl h
  | cons c text =>
    have := c.utf8Size_le_four
    rw [take, if_pos (by omega)]
    exact List.cons_ne_nil _ _

/-- Going back byte by byte ends where the longest beginning ends. -/
theorem floorBoundary_eq (text : List Char) (k : ℕ) :
    floorBoundary text k = utf8Len (take k text) := by
  refine Nat.le_antisymm ?_ ?_
  · obtain ⟨pre, suf, htext, hlen⟩ := isCharBoundary_iff.mp (isCharBoundary_floor text k)
    have hfits : utf8Len pre ≤ k := by
      have := floorBoundary_le text k
      omega
    rw [← hlen]
    exact String.utf8Len_le_of_prefix (prefix_take ⟨suf, htext.symm⟩ hfits)
  · have hboundary : isCharBoundary text (utf8Len (take k text)) = true :=
      isCharBoundary_iff.mpr ⟨take k text, drop k text, (take_append_drop k text).symm, rfl⟩
    exact le_floorBoundary hboundary (utf8Len_take_le k text)

/-- Beyond the end of the text, the last boundary is its end. -/
theorem floorBoundary_min (text : List Char) (k : ℕ) :
    floorBoundary text (min k (utf8Len text)) = floorBoundary text k := by
  rcases Nat.le_total k (utf8Len text) with h | h
  · rw [Nat.min_eq_left h]
  · rw [Nat.min_eq_right h, floorBoundary_eq, floorBoundary_eq, take_of_utf8Len_le h,
      take_of_utf8Len_le (Nat.le_refl _)]

theorem take_zero (text : List Char) : take 0 text = [] := by
  have hlen : utf8Len (take 0 text) = 0 := Nat.le_zero.mp (utf8Len_take_le 0 text)
  exact String.utf8Len_eq_zero.mp hlen

theorem take_floorBoundary (k : ℕ) (text : List Char) :
    take (floorBoundary text k) text = take k text := by
  have hcut := take_append (take k text) (drop k text) 0
  rwa [take_append_drop, take_zero, List.append_nil, Nat.add_zero, ← floorBoundary_eq] at hcut

theorem slice_append (pre suf : List Char) (k : ℕ) :
    slice (pre ++ suf) (utf8Len pre) (floorBoundary (pre ++ suf) (utf8Len pre + k)) =
      take k suf := by
  have hstop : floorBoundary (pre ++ suf) (utf8Len pre + k) - utf8Len pre =
      floorBoundary suf k := by
    rw [floorBoundary_eq, floorBoundary_eq, take_append, String.utf8Len_append,
      Nat.add_sub_cancel_left]
  rw [slice, hstop, drop_append, take_floorBoundary]

/-! ### Slices that can fail -/

theorem slice_middle (a b c : List Char) :
    slice (a ++ b ++ c) (utf8Len a) (utf8Len a + utf8Len b) = b := by
  have htake := take_append b c 0
  rw [Nat.add_zero, take_zero, List.append_nil] at htake
  rw [slice, List.append_assoc, drop_append, Nat.add_sub_cancel_left, htake]

theorem slice?_middle (a b c : List Char) :
    slice? (a ++ b ++ c) (utf8Len a) (utf8Len a + utf8Len b) = some b := by
  have hstart : isCharBoundary (a ++ b ++ c) (utf8Len a) = true :=
    isCharBoundary_iff.mpr ⟨a, b ++ c, List.append_assoc a b c, rfl⟩
  have hstop : isCharBoundary (a ++ b ++ c) (utf8Len a + utf8Len b) = true :=
    isCharBoundary_iff.mpr ⟨a ++ b, c, rfl, String.utf8Len_append a b⟩
  rw [slice?, if_pos ⟨Nat.le_add_right _ _, hstart, hstop⟩, slice_middle]

theorem slice?_first (c : Char) (text : List Char) :
    slice? (c :: text) 0 1 = if c.utf8Size = 1 then some [c] else none := by
  have hpos := c.utf8Size_pos
  split_ifs with hc
  · have h := slice?_middle [] [c] text
    simpa [hc] using h
  · rw [slice?, if_neg]
    rintro ⟨-, -, hstop⟩
    rw [isCharBoundary, Bool.and_eq_true_iff, decide_eq_true_iff] at hstop
    omega

theorem slice?_last (text : List Char) (c : Char) :
    slice? (text ++ [c]) (utf8Len (text ++ [c]) - 1) (utf8Len (text ++ [c])) =
      if c.utf8Size = 1 then some [c] else none := by
  have hpos := c.utf8Size_pos
  have hlen : utf8Len (text ++ [c]) = utf8Len text + c.utf8Size := by simp
  split_ifs with hc
  · have h := slice?_middle text [c] []
    have hstart : utf8Len (text ++ [c]) - 1 = utf8Len text := by omega
    rw [hstart]
    simpa [hc] using h
  · rw [slice?, if_neg]
    rintro ⟨-, hstart, -⟩
    obtain ⟨pre, suf, htext, hpre⟩ := isCharBoundary_iff.mp hstart
    have hsuf : utf8Len suf = 1 := by
      have := congrArg utf8Len htext
      rw [String.utf8Len_append pre suf] at this
      omega
    -- the end of the text has the last character
    rcases List.eq_nil_or_concat suf with rfl | ⟨suf, d, rfl⟩
    · cases hsuf
    · rw [List.concat_eq_append, ← List.append_assoc] at htext
      obtain ⟨-, hd⟩ := List.append_inj' htext rfl
      obtain rfl := List.singleton_injective hd
      simp at hsuf
      omega

theorem utf8Size_eq_one {c : Char} : c.utf8Size = 1 ↔ c.toNat < 128 := by
  rw [Char.utf8Size_eq_one_iff, UInt32.le_iff_toNat_le]
  exact Nat.lt_succ_iff.symm

theorem utf8Len_of_ascii {text : List Char} (h : ∀ c ∈ text, c.toNat < 128) :
    utf8Len text = text.length := by
  induction text with
  | nil => rfl
  | cons c text ih =>
    have hc : c.utf8Size = 1 := utf8Size_eq_one.mpr (h c List.mem_cons_self)
    rw [String.utf8Len_cons, ih fun d hd => h d (List.mem_cons_of_mem _ hd), hc, List.length_cons]

theorem size_ofList_take_le (k : ℕ) (text : List Char) :
    (String.ofList (take k text)).utf8ByteSize ≤ k := by
  rw [String.utf8ByteSize_ofList]
  exact utf8Len_take_le k text

theorem size_truncate_le (s : String) (k : ℕ) : (truncate s k).utf8ByteSize ≤ k := by
  rw [truncate, take_floorBoundary]
  exact size_ofList_take_le k s.toList

theorem toList_truncate (s : String) (k : ℕ) : (truncate s k).toList = take k s.toList := by
  rw [truncate, String.toList_ofList, take_floorBoundary]

end GlobalProtect.Lib.Utf8
