import Mathlib.Data.List.Infix
import Mathlib.Data.List.Triplewise
import Mathlib.Data.Nat.Find

/-! # Replacing the first occurrence

A text is a list over any alphabet. `replaceFirst` replaces the first occurrence of a part.

* `Packed part n text`: the text has `n` occurrences of the part that do not overlap. Where a part
  of the text is replaced by symbols that the searched part does not have, there are no more of them
  than before (`Packed.of_replaceFirst`), and one less if it was the part itself
  (`Packed.succ_of_replaceFirst`).
* `FirstAt part before rest`: no occurrence begins in `before`. Then the first occurrence is at the
  beginning of `rest` (`replaceFirst_of_firstAt`), and otherwise it is in front
  (`exists_of_not_firstAt`). -/

namespace GlobalProtect.Lib.Substring

variable {α : Type*}

/-! ### Occurrences that do not overlap -/

def Packed (part : List α) : ℕ → List α → Prop
  | 0, _ => True
  | n + 1, text => ∃ x y, text = x ++ part ++ y ∧ Packed part n y

variable {part marker a b text : List α} {n : ℕ}

theorem packed_one_iff : Packed part 1 text ↔ part <:+: text := by
  constructor
  · rintro ⟨x, y, rfl, -⟩
    exact ⟨x, y, rfl⟩
  · rintro ⟨x, y, rfl⟩
    exact ⟨x, y, rfl, trivial⟩

theorem Packed.append_left (h : Packed part n text) (a : List α) : Packed part n (a ++ text) := by
  cases n with
  | zero => exact trivial
  | succ n =>
    obtain ⟨x, y, rfl, hy⟩ := h
    exact ⟨a ++ x, y, by simp, hy⟩

theorem Packed.append {m : ℕ} (ha : Packed part m a) (hb : Packed part n b) :
    Packed part (m + n) (a ++ b) := by
  induction m generalizing a with
  | zero =>
    rw [Nat.zero_add]
    exact hb.append_left a
  | succ m ih =>
    obtain ⟨x, y, rfl, hy⟩ := ha
    rw [Nat.succ_add]
    exact ⟨x, y ++ b, by simp, ih hy⟩

theorem Packed.eq_zero (hpart : part ≠ []) (h : Packed part n []) : n = 0 := by
  cases n with
  | zero => rfl
  | succ n =>
    obtain ⟨x, y, hxy, -⟩ := h
    have hnil := (List.append_eq_nil_iff.mp hxy.symm).1
    exact absurd (List.append_eq_nil_iff.mp hnil).2 hpart

theorem Packed.tail {c : α} (h : Packed part n (c :: text)) (hnot : ¬ part <+: c :: text) :
    Packed part n text := by
  cases n with
  | zero => exact trivial
  | succ n =>
    obtain ⟨x, y, hxy, hy⟩ := h
    cases x with
    | nil => exact absurd ⟨y, hxy.symm⟩ hnot
    | cons d x => exact ⟨x, y, (List.cons.inj hxy).2, hy⟩

/-- What follows an occurrence is in what follows the first one that is possible. -/
theorem Packed.drop (h : Packed part (n + 1) text) : Packed part n (text.drop part.length) := by
  obtain ⟨x, y, rfl, hy⟩ := h
  rw [List.drop_append_of_le_length (by simp)]
  exact hy.append_left _

theorem infix_split {x y : List α} (hpart : part ≠ []) (hmarker : marker ≠ [])
    (hfree : ∀ c ∈ marker, c ∉ part) (h : a ++ marker ++ b = x ++ part ++ y) :
    (∃ z, a = x ++ part ++ z ∧ y = z ++ marker ++ b) ∨
      ∃ z, b = z ++ part ++ y ∧ x = a ++ marker ++ z := by
  rw [List.append_assoc x] at h
  rcases List.append_eq_append_iff.mp h with ⟨z, hx, hb⟩ | ⟨z, ham, hpy⟩
  · exact Or.inr ⟨z, by rw [hb, List.append_assoc], hx⟩
  rcases List.append_eq_append_iff.mp ham with ⟨w, hx, hm⟩ | ⟨w, ha, hz⟩
  · -- the part would begin among the symbols
    cases z with
    | nil =>
      rw [List.append_nil] at hm
      rw [List.nil_append] at hpy
      exact Or.inr ⟨[], by simp [hpy], by simp [hx, hm]⟩
    | cons d z =>
      cases part with
      | nil => exact absurd rfl hpart
      | cons e part =>
        obtain ⟨rfl, -⟩ := List.cons.inj hpy
        exact absurd List.mem_cons_self (hfree e (by simp [hm]))
  · rw [hz, List.append_assoc] at hpy
    rcases List.append_eq_append_iff.mp hpy with ⟨v, hw, hy⟩ | ⟨v, hp, hmb⟩
    · exact Or.inl ⟨v, by rw [ha, hw, List.append_assoc], by rw [hy, List.append_assoc]⟩
    · -- the part would end among the symbols
      cases v with
      | nil =>
        rw [List.append_nil] at hp
        rw [List.nil_append] at hmb
        exact Or.inl ⟨[], by simp [ha, hp], by simp [hmb]⟩
      | cons d v =>
        cases marker with
        | nil => exact absurd rfl hmarker
        | cons e marker =>
          obtain ⟨rfl, -⟩ := List.cons.inj hmb
          exact absurd (by simp [hp]) (hfree e List.mem_cons_self)

theorem Packed.split (hpart : part ≠ []) (hmarker : marker ≠ []) (hfree : ∀ c ∈ marker, c ∉ part)
    (h : Packed part n (a ++ marker ++ b)) :
    ∃ i j, i + j = n ∧ Packed part i a ∧ Packed part j b := by
  induction n generalizing a with
  | zero => exact ⟨0, 0, rfl, trivial, trivial⟩
  | succ n ih =>
    obtain ⟨x, y, htext, hy⟩ := h
    rcases infix_split hpart hmarker hfree htext with ⟨z, rfl, rfl⟩ | ⟨z, rfl, rfl⟩
    · obtain ⟨i, j, rfl, hi, hj⟩ := ih hy
      exact ⟨i + 1, j, by omega, ⟨x, z, rfl, hi⟩, hj⟩
    · exact ⟨0, n + 1, by omega, trivial, ⟨z, y, rfl, hy⟩⟩

/-! ### Replacing -/

section

variable [DecidableEq α]

/-- The first occurrence of the part is replaced, if there is one. -/
def replaceFirst (part new text : List α) : List α :=
  match text.dropInfix? part with
  | some (a, b) => a ++ new ++ b
  | none => text

theorem dropInfix?_iff : text.dropInfix? part = some (a, b) ↔
    text = a ++ part ++ b ∧ ∀ a' b', text = a' ++ part ++ b' → a.length ≤ a'.length := by
  rw [List.dropInfix?_eq_some_iff]
  simp only [beq_iff_eq, ge_iff_le]
  constructor
  · rintro ⟨⟨part', htext, rfl⟩, hfirst⟩
    exact ⟨htext, fun a' b' h => hfirst a' _ b' h rfl⟩
  · rintro ⟨htext, hfirst⟩
    refine ⟨⟨part, htext, rfl⟩, ?_⟩
    rintro a' part' b' h rfl
    exact hfirst a' b' h

theorem dropInfix?_eq_none : text.dropInfix? part = none ↔ ¬ part <:+: text := by
  constructor
  · rintro hnone ⟨x, y, htext⟩
    -- among all occurrences there is a first one
    have hex : ∃ k, ∃ a b, text = a ++ part ++ b ∧ a.length = k := ⟨_, x, y, htext.symm, rfl⟩
    classical
    obtain ⟨a, b, hab, hlen⟩ := Nat.find_spec hex
    have hsome : text.dropInfix? part = some (a, b) := by
      refine dropInfix?_iff.mpr ⟨hab, fun a' b' h => ?_⟩
      rw [hlen]
      exact Nat.find_min' hex ⟨a', b', h, rfl⟩
    rw [hnone] at hsome
    cases hsome
  · intro hnot
    cases hd : text.dropInfix? part with
    | none => rfl
    | some ab =>
      obtain ⟨a, b⟩ := ab
      exact absurd ⟨a, b, (dropInfix?_iff.mp hd).1.symm⟩ hnot

theorem replaceFirst_cases (part new text : List α) :
    (¬ part <:+: text ∧ replaceFirst part new text = text) ∨
      ∃ a b, text = a ++ part ++ b ∧ replaceFirst part new text = a ++ new ++ b := by
  unfold replaceFirst
  cases hd : text.dropInfix? part with
  | none => exact Or.inl ⟨dropInfix?_eq_none.mp hd, rfl⟩
  | some ab => exact Or.inr ⟨ab.1, ab.2, (dropInfix?_iff.mp hd).1, rfl⟩

theorem Packed.of_replaceFirst {old : List α} (hpart : part ≠ []) (hmarker : marker ≠ [])
    (hfree : ∀ c ∈ marker, c ∉ part) (h : Packed part n (replaceFirst old marker text)) :
    Packed part n text := by
  rcases replaceFirst_cases old marker text with ⟨-, hsame⟩ | ⟨a, b, rfl, hnew⟩
  · rwa [hsame] at h
  · rw [hnew] at h
    obtain ⟨i, j, rfl, hi, hj⟩ := h.split hpart hmarker hfree
    rw [List.append_assoc]
    exact hi.append (hj.append_left old)

theorem Packed.succ_of_replaceFirst (hpart : part ≠ []) (hmarker : marker ≠ [])
    (hfree : ∀ c ∈ marker, c ∉ part) (hn : n ≠ 0)
    (h : Packed part n (replaceFirst part marker text)) : Packed part (n + 1) text := by
  rcases replaceFirst_cases part marker text with ⟨hnone, hsame⟩ | ⟨a, b, rfl, hnew⟩
  · rw [hsame] at h
    cases n with
    | zero => exact absurd rfl hn
    | succ n =>
      obtain ⟨x, y, rfl, -⟩ := h
      exact absurd ⟨x, y, rfl⟩ hnone
  · rw [hnew] at h
    obtain ⟨i, j, rfl, hi, hj⟩ := h.split hpart hmarker hfree
    rw [Nat.add_assoc, List.append_assoc]
    exact hi.append ⟨[], b, by simp, hj⟩

end

/-! ### Where the first occurrence is -/

def FirstAt (part before rest : List α) : Prop :=
  ∀ x y, before ++ rest = x ++ part ++ y → before.length ≤ x.length

variable {before rest : List α}

theorem firstAt_nil : FirstAt part [] rest := fun _ _ _ => Nat.zero_le _

theorem firstAt_cons {c : α} :
    FirstAt part (c :: before) rest ↔
      ¬ part <+: c :: (before ++ rest) ∧ FirstAt part before rest := by
  constructor
  · intro h
    refine ⟨?_, fun x y hxy => ?_⟩
    · rintro ⟨y, hy⟩
      have := h [] y hy.symm
      simp at this
    · have := h (c :: x) y (by simp [hxy])
      simpa using this
  · rintro ⟨hhere, hlater⟩ x y hxy
    cases x with
    | nil => exact absurd ⟨y, hxy.symm⟩ hhere
    | cons d x =>
      rw [List.cons_append, List.cons_append, List.cons_append] at hxy
      exact Nat.succ_le_succ (hlater x y (List.cons.inj hxy).2)

theorem firstAt_append (hpart : part ≠ []) (hfree : ∀ c ∈ marker, c ∉ part) :
    FirstAt part (marker ++ before) rest ↔ FirstAt part before rest := by
  induction marker with
  | nil => rfl
  | cons c marker ih =>
    rw [List.cons_append, firstAt_cons, ih fun d hd => hfree d (List.mem_cons_of_mem _ hd)]
    refine and_iff_right ?_
    rintro ⟨y, hy⟩
    cases part with
    | nil => exact hpart rfl
    | cons d part =>
      obtain ⟨rfl, -⟩ := List.cons.inj hy
      exact hfree d List.mem_cons_self List.mem_cons_self

variable [DecidableEq α]

theorem replaceFirst_of_firstAt (h : FirstAt part before (part ++ rest)) (new : List α) :
    replaceFirst part new (before ++ (part ++ rest)) = before ++ new ++ rest := by
  have hd : (before ++ (part ++ rest)).dropInfix? part = some (before, rest) :=
    dropInfix?_iff.mpr ⟨by simp, h⟩
  rw [replaceFirst, hd]

/-- If an occurrence begins earlier, then one there is replaced. -/
theorem exists_of_not_firstAt (h : ¬ FirstAt part before rest) (new : List α) :
    ∃ x y z, before = x ++ y ∧ y ≠ [] ∧ y ++ rest = part ++ z ∧
      replaceFirst part new (before ++ rest) = x ++ new ++ z := by
  unfold FirstAt at h
  push Not at h
  obtain ⟨x', y', hxy, hlt⟩ := h
  cases hd : (before ++ rest).dropInfix? part with
  | none => exact absurd ⟨x', y', hxy.symm⟩ (dropInfix?_eq_none.mp hd)
  | some xz =>
    obtain ⟨x, z⟩ := xz
    obtain ⟨htext, hfirst⟩ := dropInfix?_iff.mp hd
    have hshort : x.length < before.length := Nat.lt_of_le_of_lt (hfirst x' y' hxy) hlt
    rw [List.append_assoc] at htext
    rcases List.append_eq_append_iff.mp htext with ⟨w, hx, -⟩ | ⟨w, hb, hrest⟩
    · have := congrArg List.length hx
      rw [List.length_append] at this
      omega
    · refine ⟨x, w, z, hb, ?_, hrest.symm, by rw [replaceFirst, hd]⟩
      rintro rfl
      rw [hb, List.append_nil] at hshort
      exact Nat.lt_irrefl _ hshort

end GlobalProtect.Lib.Substring
