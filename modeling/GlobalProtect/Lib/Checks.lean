import Mathlib.Logic.Basic

/-! # Checks

Code that checks one thing after another and stops at the first that fails. `bind_eq_ok` and
`ensure_eq_ok` say what a success of it means, `bind_ne_error` which errors it cannot have. -/

namespace GlobalProtect.Lib

variable {ε : Type*} {α γ : Type}

/-- Stops with the error unless the condition holds. -/
def ensure (condition : Bool) (error : ε) : Except ε Unit :=
  if condition then .ok () else .error error

theorem ensure_eq_ok {condition : Bool} {error : ε} {u : Unit} :
    ensure condition error = .ok u ↔ condition = true := by
  cases condition <;> simp [ensure]

theorem bind_eq_ok {x : Except ε α} {f : α → Except ε γ} {c : γ} :
    (x >>= f) = .ok c ↔ ∃ a, x = .ok a ∧ f a = .ok c := by
  cases x with
  | error e =>
    constructor
    · intro h; cases h
    · rintro ⟨a, ha, -⟩; cases ha
  | ok a =>
    constructor
    · intro h; exact ⟨a, rfl, h⟩
    · rintro ⟨b, hb, h⟩
      cases hb
      exact h

theorem ensure_bind_eq_ok {condition : Bool} {error : ε} {f : Unit → Except ε γ} {c : γ} :
    (ensure condition error >>= f) = .ok c ↔ condition = true ∧ f () = .ok c := by
  rw [bind_eq_ok]
  constructor
  · rintro ⟨u, hu, h⟩
    exact ⟨ensure_eq_ok.mp hu, h⟩
  · rintro ⟨hcondition, h⟩
    exact ⟨(), ensure_eq_ok.mpr hcondition, h⟩

theorem bind_ne_error {x : Except ε α} {f : α → Except ε γ} {e : ε} (hx : x ≠ .error e)
    (hf : ∀ a, f a ≠ .error e) : (x >>= f) ≠ .error e := by
  cases x with
  | error e' =>
    intro h
    exact hx (congrArg Except.error (Except.error.inj h))
  | ok a => exact hf a

theorem pure_eq_ok {a b : α} : (pure a : Except ε α) = .ok b ↔ a = b := by
  constructor
  · intro h; cases h; rfl
  · rintro rfl; rfl

theorem toOption_eq_some {x : Except ε α} {a : α} : x.toOption = some a ↔ x = .ok a := by
  cases x <;> simp [Except.toOption]

/-- An absent value is an error. -/
def context (x : Option α) (error : ε) : Except ε α :=
  match x with
  | some a => .ok a
  | none => .error error

theorem context_eq_ok {x : Option α} {error : ε} {a : α} :
    context x error = .ok a ↔ x = some a := by
  cases x <;> simp [context]

theorem context_bind_eq_ok {x : Option α} {error : ε} {f : α → Except ε γ} {c : γ} :
    (context x error >>= f) = .ok c ↔ ∃ a, x = some a ∧ f a = .ok c := by
  simp only [bind_eq_ok, context_eq_ok]

theorem foldlM_keeps {σ : Type} {f : σ → α → Except ε σ} {P : σ → Prop}
    (hstep : ∀ s a s', P s → f s a = .ok s' → P s') {l : List α} {s s' : σ} (hs : P s)
    (h : l.foldlM f s = .ok s') : P s' := by
  induction l generalizing s with
  | nil =>
    obtain rfl := pure_eq_ok.mp h
    exact hs
  | cons a l ih =>
    rw [List.foldlM_cons] at h
    obtain ⟨m, hm, h⟩ := bind_eq_ok.mp h
    exact ih (hstep s a m hs hm) h

end GlobalProtect.Lib
