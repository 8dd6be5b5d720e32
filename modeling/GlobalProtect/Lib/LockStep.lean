import GlobalProtect.Lib.Machine

/-! # Command links in lock step

One side of a link sends commands, the other side answers each of them. The link is in lock step if
no command is sent while an earlier one is unanswered and nothing is received but the answer to the
outstanding command. `LockStep.observer` accepts the traffic of such a link; `run_writes` and
`run_between` read from an accepted trace which commands were sent and what was received between
two of them, `run_outstanding` which command awaits its answer. -/

namespace GlobalProtect.Lib

/-- Traffic as the commanding side sees it. -/
inductive LinkEvent (μ : Type*) where
  | write (m : μ)
  | read (m : μ)
  deriving DecidableEq, Repr

/-- The commands that open a link, those that may follow, and the answer to each. -/
structure LockStep (μ : Type*) where
  opening : μ → Bool
  later : μ → Bool
  answer : μ → μ

inductive LinkPhase (μ : Type*) where
  | idle
  | outstanding (m : μ)
  | answered
  deriving DecidableEq, Repr

variable {μ : Type*}

/-- The commands in a trace. -/
def writes (tr : List (LinkEvent μ)) : List μ :=
  tr.filterMap fun e => match e with
    | .write m => some m
    | .read _ => none

namespace LockStep

variable (L : LockStep μ) [DecidableEq μ]

def follow : LinkPhase μ → LinkEvent μ → Option (LinkPhase μ)
  | .idle, .write m => if L.opening m then some (.outstanding m) else none
  | .answered, .write m => if L.later m then some (.outstanding m) else none
  | .outstanding m, .read r => if r = L.answer m then some .answered else none
  | _, _ => none

def observer : Machine (LinkPhase μ) (LinkEvent μ) where
  init := .idle
  step := L.follow

variable {L} {p q : LinkPhase μ} {tr : List (LinkEvent μ)}

theorem run_writes_later (h : L.observer.run p tr = some q) (hp : p ≠ .idle) :
    ∀ m ∈ writes tr, L.later m = true := by
  induction tr generalizing p with
  | nil => simp [writes]
  | cons e tr ih =>
    obtain ⟨p', he, h⟩ := Machine.run_cons.mp h
    cases p with
    | idle => exact absurd rfl hp
    | outstanding m =>
      cases e with
      | write m' => cases he
      | read r =>
        obtain ⟨-, rfl⟩ := Option.ite_some_none_eq_some.mp he
        exact ih h (by simp)
    | answered =>
      cases e with
      | read r => cases he
      | write m' =>
        obtain ⟨hm', rfl⟩ := Option.ite_some_none_eq_some.mp he
        intro x hx
        rcases List.mem_cons.mp hx with rfl | hx
        · exact hm'
        · exact ih h (by simp) x hx

/-- The commands of an accepted trace: an opening one, then later ones. -/
theorem run_writes (h : L.observer.run .idle tr = some q) :
    writes tr = [] ∨ ∃ m rest, writes tr = m :: rest ∧ L.opening m = true ∧
      ∀ x ∈ rest, L.later x = true := by
  cases tr with
  | nil => exact Or.inl rfl
  | cons e tr =>
    obtain ⟨p', he, h⟩ := Machine.run_cons.mp h
    cases e with
    | read r => cases he
    | write m =>
      obtain ⟨hm, rfl⟩ := Option.ite_some_none_eq_some.mp he
      exact Or.inr ⟨m, writes tr, rfl, hm, run_writes_later h (by simp)⟩

theorem run_outstanding {m : μ} (h : L.observer.run .idle tr = some (.outstanding m)) :
    ∃ tr₀, tr = tr₀ ++ [.write m] := by
  rcases List.eq_nil_or_concat tr with rfl | ⟨tr₀, e, rfl⟩
  · cases h
  · rw [List.concat_eq_append] at h ⊢
    obtain ⟨p, -, h⟩ := Machine.run_append.mp h
    have he : L.follow p e = some (.outstanding m) := Machine.run_single.mp h
    have : e = .write m := by
      cases p <;> cases e <;> simp_all [follow]
    exact ⟨tr₀, by rw [this]⟩

/-- Between two commands of an accepted trace the first one is answered. -/
theorem run_between {a b : List (LinkEvent μ)} {m m' : μ} (h : L.observer.run p tr = some q)
    (htr : a ++ .write m :: (b ++ [.write m']) <+: tr) : .read (L.answer m) ∈ b := by
  obtain ⟨c, rfl⟩ := htr
  obtain ⟨p₀, h, -⟩ := Machine.run_append.mp h
  obtain ⟨p₁, -, h⟩ := Machine.run_append.mp h
  obtain ⟨p₂, hm, h⟩ := Machine.run_cons.mp h
  have hout : p₂ = .outstanding m := by
    cases p₁ <;> simp_all [observer, follow]
  subst hout
  cases b with
  | nil =>
    obtain ⟨p₃, hm', -⟩ := Machine.run_cons.mp h
    cases hm'
  | cons e b =>
    obtain ⟨p₃, he, -⟩ := Machine.run_cons.mp h
    cases e with
    | write x => cases he
    | read r =>
      simp only [observer, follow, Option.ite_none_right_eq_some, Option.some.injEq] at he
      rw [he.1]
      exact List.mem_cons_self

end LockStep

end GlobalProtect.Lib
