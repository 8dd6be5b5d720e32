import Mathlib.Data.Nat.Notation

/-! # Shrinking a value until it fits

A loop that makes a value smaller step by step and stops as soon as it fits, or when there is
nothing left to take away. The steps do not depend on what the value has to fit in.

`Shrinker.run` is the loop, and `Shrinker.exhaust` what is left after all steps. `run_invariant` is
the rule for what the steps keep. A run that fails has taken all steps (`run_fails`). -/

namespace GlobalProtect.Lib

/-- What one step gives: a smaller value, or the last one. -/
inductive Shrunk (α : Type*) where
  | again (a : α)
  | done (a : α)
  deriving DecidableEq, Repr

def Shrunk.value {α : Type*} : Shrunk α → α
  | again a => a
  | done a => a

/-- The steps, with a weight that every step but the last one takes from. -/
structure Shrinker (α : Type*) where
  step : α → Shrunk α
  weight : α → ℕ
  lighter : ∀ {a b}, step a = .again b → weight b < weight a

namespace Shrinker

variable {α : Type*} (S : Shrinker α) (fits : α → Bool)

/-- The value that fits, or the last one, and whether it fits. -/
def run (a : α) : α × Bool :=
  if fits a then (a, true)
  else
    match _h : S.step a with
    | .again b => run b
    | .done b => (b, fits b)
termination_by S.weight a
decreasing_by exact S.lighter _h

/-- The value after all steps. -/
def exhaust (a : α) : α := (S.run (fun _ => false) a).1

variable {S fits} {a b : α}

theorem run_of_fits (h : fits a = true) : S.run fits a = (a, true) := by
  rw [run, if_pos h]

theorem run_again (h : fits a = false) (hs : S.step a = .again b) :
    S.run fits a = S.run fits b := by
  rw [run, if_neg (by simp [h])]
  split
  · next c hc => rw [hs] at hc; cases hc; rfl
  · next c hc => rw [hs] at hc; cases hc

theorem run_done (h : fits a = false) (hs : S.step a = .done b) :
    S.run fits a = (b, fits b) := by
  rw [run, if_neg (by simp [h])]
  split
  · next c hc => rw [hs] at hc; cases hc
  · next c hc => rw [hs] at hc; cases hc; rfl

theorem run_induction (S : Shrinker α) (fits : α → Bool) {P : α → Prop}
    (hfits : ∀ a, fits a = true → P a)
    (hagain : ∀ a b, fits a = false → S.step a = .again b → P b → P a)
    (hdone : ∀ a b, fits a = false → S.step a = .done b → P a) (a : α) : P a := by
  induction hn : S.weight a using Nat.strongRecOn generalizing a with
  | _ n ih =>
    cases hf : fits a with
    | true => exact hfits a hf
    | false =>
      cases hs : S.step a with
      | again b => exact hagain a b hf hs (ih _ (hn ▸ S.lighter hs) b rfl)
      | done b => exact hdone a b hf hs

theorem run_snd (S : Shrinker α) (fits : α → Bool) (a : α) :
    (S.run fits a).2 = fits (S.run fits a).1 := by
  induction a using run_induction S fits with
  | hfits a hf => rw [run_of_fits hf, hf]
  | hagain a b hf hs ih => rw [run_again hf hs, ih]
  | hdone a b hf hs => rw [run_done hf hs]

theorem run_invariant {P : α → Prop} (hstep : ∀ a, P a → P (S.step a).value) (h : P a) :
    P (S.run fits a).1 := by
  induction a using run_induction S fits with
  | hfits a hf => rwa [run_of_fits hf]
  | hagain a b hf hs ih =>
    rw [run_again hf hs]
    have hb := hstep a h
    rw [hs] at hb
    exact ih hb
  | hdone a b hf hs =>
    rw [run_done hf hs]
    have hb := hstep a h
    rwa [hs] at hb

theorem run_stepped {P : α → Prop} (hstep : ∀ a, P (S.step a).value) (hfits : fits a = false) :
    P (S.run fits a).1 := by
  have ha := hstep a
  cases hs : S.step a with
  | again b =>
    rw [hs] at ha
    rw [run_again hfits hs]
    exact run_invariant (fun x _ => hstep x) ha
  | done b =>
    rw [hs] at ha
    rw [run_done hfits hs]
    exact ha

theorem run_fails (h : (S.run fits a).2 = false) : (S.run fits a).1 = S.exhaust a := by
  unfold exhaust
  induction a using run_induction S fits with
  | hfits a hf => rw [run_of_fits hf] at h; cases h
  | hagain a b hf hs ih =>
    rw [run_again hf hs] at h ⊢
    rw [run_again rfl hs]
    exact ih h
  | hdone a b hf hs => rw [run_done hf hs, run_done rfl hs]

theorem exists_done (S : Shrinker α) (a : α) : ∃ x, S.step x = .done (S.exhaust a) := by
  unfold exhaust
  induction a using run_induction S (fun _ => false) with
  | hfits a hf => cases hf
  | hagain a b hf hs ih => rwa [run_again hf hs]
  | hdone a b hf hs => exact ⟨a, by rw [run_done hf hs, hs]⟩

end Shrinker

end GlobalProtect.Lib
