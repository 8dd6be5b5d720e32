import Mathlib.Data.List.Basic

/-! # Histories

A component that records what it does is described by what may follow what: a history is sound when
every entry is allowed after the entries before it. `Sound.concat` is the step of every proof of
soundness, and a property of histories is read off by splitting one at the entry of interest. -/

namespace GlobalProtect.Lib.History

variable {α : Type*} {Allowed : List α → α → Prop} {h : List α} {e : α}

/-- An entry of a history that has grown is one of the old history, or one of what was added. -/
theorem split_append {d pre post : List α} {x : α} (heq : h ++ d = pre ++ x :: post) :
    (∃ rest, post = rest ++ d ∧ h = pre ++ x :: rest) ∨
      ∃ front, pre = h ++ front ∧ d = front ++ x :: post := by
  rcases List.append_eq_append_iff.mp heq with ⟨m, hp, hd⟩ | ⟨m, hh, hm⟩
  · exact Or.inr ⟨m, hp, hd⟩
  · cases m with
    | nil => exact Or.inr ⟨[], by simpa using hh.symm, by simpa using hm.symm⟩
    | cons y m =>
      obtain ⟨rfl, rfl⟩ := List.cons.inj hm
      exact Or.inl ⟨m, rfl, hh⟩

theorem split_concat {x : α} {pre post : List α} (heq : h ++ [e] = pre ++ x :: post) :
    (pre = h ∧ x = e) ∨ ∃ post', h = pre ++ x :: post' := by
  rcases split_append heq with ⟨rest, -, hold⟩ | ⟨front, hpre, hnew⟩
  · exact Or.inr ⟨rest, hold⟩
  · cases front with
    | nil =>
      rw [List.append_nil] at hpre
      exact Or.inl ⟨hpre, (List.cons.inj hnew).1.symm⟩
    | cons y front => simp at hnew

/-- Of two entries of a history, one comes before the other. -/
theorem split_split {pre pre' post post' : List α} {x y : α}
    (heq : pre ++ x :: post = pre' ++ y :: post') :
    (pre = pre' ∧ x = y ∧ post = post') ∨
      (∃ mid, pre' = pre ++ x :: mid ∧ post = mid ++ y :: post') ∨
      ∃ mid, pre = pre' ++ y :: mid ∧ post' = mid ++ x :: post := by
  rcases List.append_eq_append_iff.mp heq with ⟨m, rfl, hm⟩ | ⟨m, rfl, hm⟩
  · cases m with
    | nil => exact Or.inl ⟨(List.append_nil _).symm, List.cons.inj hm⟩
    | cons z m =>
      obtain ⟨rfl, rfl⟩ := List.cons.inj hm
      exact Or.inr (Or.inl ⟨m, rfl, rfl⟩)
  · cases m with
    | nil =>
      obtain ⟨rfl, rfl⟩ := List.cons.inj hm
      exact Or.inl ⟨List.append_nil _, rfl, rfl⟩
    | cons z m =>
      obtain ⟨rfl, rfl⟩ := List.cons.inj hm
      exact Or.inr (Or.inr ⟨m, rfl, rfl⟩)

/-- Every entry is allowed after what is before it. -/
def Sound (Allowed : List α → α → Prop) (h : List α) : Prop :=
  ∀ pre x post, h = pre ++ x :: post → Allowed pre x

theorem Sound.nil : Sound Allowed [] := by
  intro pre x post heq
  cases pre <;> cases heq

theorem Sound.concat (hs : Sound Allowed h) (he : Allowed h e) : Sound Allowed (h ++ [e]) := by
  intro pre x post heq
  rcases split_concat heq with ⟨rfl, rfl⟩ | ⟨post', hold⟩
  · exact he
  · exact hs pre x post' hold

theorem Sound.of_concat (hs : Sound Allowed (h ++ [e])) : Sound Allowed h ∧ Allowed h e := by
  constructor
  · intro pre x post heq
    exact hs pre x (post ++ [e]) (by rw [heq, List.append_assoc, List.cons_append])
  · exact hs h e [] rfl

end GlobalProtect.Lib.History
