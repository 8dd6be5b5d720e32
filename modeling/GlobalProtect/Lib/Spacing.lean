import Mathlib.Data.List.Chain

/-! # Events with a distance

If each event is at least `d` after the one before it, an interval of length `n * d` has at most
`n + 1` of them. -/

namespace GlobalProtect.Lib

variable {α : Type*} {time : α → ℕ} {d : ℕ}

/-- Distances add up, so they hold between any two events. -/
theorem pairwise_of_isChain {l : List α} (h : l.IsChain fun a b => time a + d ≤ time b) :
    l.Pairwise fun a b => time a + d ≤ time b := by
  have : Trans (fun a b : α => time a + d ≤ time b) (fun a b => time a + d ≤ time b)
      (fun a b => time a + d ≤ time b) :=
    ⟨fun hab hbc => by omega⟩
  exact List.isChain_iff_pairwise.mp h

theorem length_le_of_pairwise (hd : 0 < d) {l : List α} (start n : ℕ)
    (h : l.Pairwise fun a b => time a + d ≤ time b)
    (hl : ∀ a ∈ l, start ≤ time a ∧ time a ≤ start + n * d) : l.length ≤ n + 1 := by
  induction l generalizing start n with
  | nil => exact Nat.zero_le _
  | cons a l ih =>
    obtain ⟨hafter, hrest⟩ := List.pairwise_cons.mp h
    have ha := hl a List.mem_cons_self
    cases n with
    | zero =>
      -- a second event would be outside
      cases l with
      | nil => exact Nat.le_refl 1
      | cons b l =>
        have hab := hafter b List.mem_cons_self
        have hb := hl b (List.mem_cons_of_mem _ List.mem_cons_self)
        omega
    | succ n =>
      refine Nat.succ_le_succ (ih (start + d) n hrest fun b hb => ?_)
      have hab := hafter b hb
      have hbl := hl b (List.mem_cons_of_mem _ hb)
      rw [Nat.succ_mul] at hbl
      omega

theorem length_filter_le (hd : 0 < d) {l : List α} (h : l.IsChain fun a b => time a + d ≤ time b)
    (start n : ℕ) :
    (l.filter fun a => start ≤ time a ∧ time a ≤ start + n * d).length ≤ n + 1 := by
  refine length_le_of_pairwise hd start n ((pairwise_of_isChain h).filter _) fun a ha => ?_
  simpa using (List.mem_filter.mp ha).2

end GlobalProtect.Lib
