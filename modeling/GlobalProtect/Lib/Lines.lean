import Mathlib.Data.List.Basic

/-! # Lines

A text cut after every separator, with the separators kept (`str::split_inclusive`). What a cut
looks like is `Split`: every part but the last ends with the separator and has no other one. The
parts of a text are the only cut of it (`splitInclusive_flatten`), so what keeps the form of the
parts can be joined and cut again.

A stream of bytes is cut at the separators, without them: `complete` are the lines that are over,
`unfinished` is the one that is not, and one more byte changes them as `complete_snoc` and
`unfinished_snoc` say. A reader with a buffer for `n` bytes keeps `line.take n` and whether it dropped
any: `take_snoc_of_lt` and `take_snoc_of_not_lt` are its two cases for one more byte. -/

namespace GlobalProtect.Lib.Lines

variable {α : Type*}

inductive Split (c : α) : List (List α) → Prop where
  | nil : Split c []
  | last {l : List α} : l ≠ [] → c ∉ l → Split c [l]
  | cons {l : List α} {ls : List (List α)} : c ∉ l → Split c ls → Split c ((l ++ [c]) :: ls)

variable [DecidableEq α]

def splitInclusive (c : α) : List α → List (List α)
  | [] => []
  | x :: text =>
    if x = c then [x] :: splitInclusive c text
    else match splitInclusive c text with
      | [] => [[x]]
      | l :: ls => (x :: l) :: ls

variable {c : α}

theorem split_splitInclusive (c : α) (text : List α) : Split c (splitInclusive c text) := by
  induction text with
  | nil => exact .nil
  | cons x text ih =>
    unfold splitInclusive
    split_ifs with hx
    · rw [hx]
      exact .cons (l := []) List.not_mem_nil ih
    · generalize splitInclusive c text = ls at ih
      cases ih with
      | nil =>
        exact .last (List.cons_ne_nil _ _)
          (List.not_mem_cons_of_ne_of_not_mem (Ne.symm hx) List.not_mem_nil)
      | last hne hmem =>
        exact .last (List.cons_ne_nil _ _) (List.not_mem_cons_of_ne_of_not_mem (Ne.symm hx) hmem)
      | @cons l ls hmem hrest =>
        exact .cons (l := x :: l) (List.not_mem_cons_of_ne_of_not_mem (Ne.symm hx) hmem) hrest

theorem splitInclusive_append {l : List α} (h : c ∉ l) (text : List α) :
    splitInclusive c ((l ++ [c]) ++ text) = (l ++ [c]) :: splitInclusive c text := by
  induction l with
  | nil => simp [splitInclusive]
  | cons x l ih =>
    obtain ⟨hx, h⟩ := List.ne_and_not_mem_of_not_mem_cons h
    rw [List.cons_append, List.cons_append, splitInclusive, if_neg (Ne.symm hx), ih h]

theorem splitInclusive_of_notMem {l : List α} (hne : l ≠ []) (h : c ∉ l) :
    splitInclusive c l = [l] := by
  induction l with
  | nil => exact absurd rfl hne
  | cons x l ih =>
    obtain ⟨hx, h⟩ := List.ne_and_not_mem_of_not_mem_cons h
    rw [splitInclusive, if_neg (Ne.symm hx)]
    cases l with
    | nil => rfl
    | cons y l => rw [ih (List.cons_ne_nil _ _) h]

/-- **A cut is recovered from the joined text.** -/
theorem splitInclusive_flatten {ls : List (List α)} (h : Split c ls) :
    splitInclusive c ls.flatten = ls := by
  induction h with
  | nil => rfl
  | last hne hmem =>
    rw [List.flatten_singleton]
    exact splitInclusive_of_notMem hne hmem
  | cons hmem _ ih => rw [List.flatten_cons, splitInclusive_append hmem, ih]

/-! ### Streams -/

/-- The lines that a separator has ended. -/
def complete (c : α) (stream : List α) : List (List α) := (stream.splitOn c).dropLast

/-- What has come since the last separator. -/
def unfinished (c : α) (stream : List α) : List α := (stream.splitOn c).getLastD []

theorem splitOn_eq (c : α) (stream : List α) :
    stream.splitOn c = complete c stream ++ [unfinished c stream] := by
  have hne := List.splitOn_ne_nil c stream
  rw [complete, unfinished, List.getLastD_eq_getLast?, List.getLast?_eq_some_getLast hne,
    Option.getD_some, List.dropLast_append_getLast]

theorem complete_nil (c : α) : complete c [] = [] := by
  rw [complete, List.splitOn_nil]
  rfl

theorem unfinished_nil (c : α) : unfinished c [] = [] := by
  rw [unfinished, List.splitOn_nil]
  rfl

theorem splitOn_snoc_separator (c : α) (stream : List α) :
    (stream ++ [c]).splitOn c = stream.splitOn c ++ [[]] := by
  rw [List.splitOn_append_cons_self, List.splitOn_nil]

theorem complete_append (before after : List α) :
    complete c (before ++ c :: after) = before.splitOn c ++ complete c after := by
  rw [complete, List.splitOn_append_cons_self, splitOn_eq c after, ← List.append_assoc,
    List.dropLast_concat]

theorem unfinished_append (before after : List α) :
    unfinished c (before ++ c :: after) = unfinished c after := by
  rw [unfinished, List.splitOn_append_cons_self, splitOn_eq c after, ← List.append_assoc]
  simp

theorem splitOn_snoc {x : α} (hx : x ≠ c) (stream : List α) :
    (stream ++ [x]).splitOn c = complete c stream ++ [unfinished c stream ++ [x]] := by
  -- by the length: what comes after the first separator is shorter
  induction hn : stream.length using Nat.strongRecOn generalizing stream with
  | ind n ih =>
    by_cases hc : c ∈ stream
    · obtain ⟨before, after, rfl⟩ := List.append_of_mem hc
      have hafter := ih after.length (by rw [← hn]; simp; omega) after rfl
      rw [List.append_assoc, List.cons_append, List.splitOn_append_cons_self, hafter,
        complete_append, unfinished_append, List.append_assoc]
    · have hsplit := splitOn_eq c stream
      rw [List.splitOn_eq_singleton hc] at hsplit
      have hx' : c ∉ stream ++ [x] := by simp [hc, hx.symm]
      rw [List.splitOn_eq_singleton hx']
      obtain ⟨hcomplete, hunfinished⟩ := List.append_inj' ((List.nil_append _).trans hsplit) rfl
      rw [← hcomplete, ← (List.cons.inj hunfinished).1]
      rfl

theorem complete_snoc_separator (c : α) (stream : List α) :
    complete c (stream ++ [c]) = complete c stream ++ [unfinished c stream] := by
  rw [complete, splitOn_snoc_separator, List.dropLast_concat, splitOn_eq]

theorem unfinished_snoc_separator (c : α) (stream : List α) :
    unfinished c (stream ++ [c]) = [] := by
  rw [unfinished, splitOn_snoc_separator]
  simp

theorem complete_snoc {x : α} (hx : x ≠ c) (stream : List α) :
    complete c (stream ++ [x]) = complete c stream := by
  rw [complete, splitOn_snoc hx, List.dropLast_concat]

theorem unfinished_snoc {x : α} (hx : x ≠ c) (stream : List α) :
    unfinished c (stream ++ [x]) = unfinished c stream ++ [x] := by
  rw [unfinished, splitOn_snoc hx]
  simp

/-! ### Bounded buffers -/

variable {n : ℕ} {line : List α}

omit [DecidableEq α] in
theorem take_snoc_of_lt (h : (line.take n).length < n) (x : α) :
    (line ++ [x]).take n = line.take n ++ [x] ∧ (n < (line ++ [x]).length ↔ n < line.length) := by
  rw [List.length_take] at h
  have hline : line.length ≤ n := by omega
  have hlength : (line ++ [x]).length ≤ n := by
    rw [List.length_append, List.length_singleton]
    omega
  rw [List.take_of_length_le hlength, List.take_of_length_le hline]
  exact ⟨rfl, iff_of_false (by omega) (by omega)⟩

omit [DecidableEq α] in
theorem take_snoc_of_not_lt (h : ¬ (line.take n).length < n) (x : α) :
    (line ++ [x]).take n = line.take n ∧ n < (line ++ [x]).length := by
  have hle : n ≤ line.length := by
    rw [List.length_take] at h
    omega
  refine ⟨List.take_append_of_le_length hle, ?_⟩
  rw [List.length_append, List.length_singleton]
  omega

end GlobalProtect.Lib.Lines
