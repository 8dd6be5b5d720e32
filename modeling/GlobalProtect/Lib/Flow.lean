import Mathlib.Data.Option.Basic

/-! # Sequential flows

A flow is a program that runs to its end in one thread: it has a state, may fail with an error and
may run out of the steps it is allowed, in which case it has no result. The state survives an error,
so a caller can look at it and go on (`attempt`).

`wp f Q s` says that `Q` holds of the result and the final state whenever `f` returns from `s`. The
equations `wp_bind`, `wp_attempt`, … compute it along the program, and `wp_mono` uses what is known
about a part, so that the proof about a flow follows its text. -/

namespace GlobalProtect.Lib

/-- Programs with a state `σ` and errors `ε`. -/
abbrev Flow (σ ε : Type) := ExceptT ε (StateT σ Option)

namespace Flow

variable {σ ε ε' α β : Type}

/-- Runs a flow; `none` if it has no result. -/
def exec (f : Flow σ ε α) (s : σ) : Option (Except ε α × σ) := StateT.run (ExceptT.run f) s

/-- A flow without a result. -/
def diverge : Flow σ ε α := ExceptT.mk fun _ => none

/-- Runs a flow and changes its result. -/
def transform (u : Except ε α → Except ε' β) (f : Flow σ ε α) : Flow σ ε' β :=
  ExceptT.mk fun s => (f.exec s).map fun (r, s) => (u r, s)

/-- Runs a flow and hands its result, or its error, to the caller. -/
def attempt (f : Flow σ ε α) : Flow σ ε' (Except ε α) := f.transform .ok

/-- Changes the error of a flow. -/
def mapError (u : ε → ε') (f : Flow σ ε α) : Flow σ ε' α := f.transform (·.mapError u)

/-- Every result of `f` from `s` satisfies `Q`. -/
def wp (f : Flow σ ε α) (Q : Except ε α → σ → Prop) (s : σ) : Prop :=
  ∀ r s', f.exec s = some (r, s') → Q r s'

variable {f : Flow σ ε α} {g : α → Flow σ ε β} {s : σ}

theorem exec_bind : (f >>= g).exec s = (f.exec s).bind fun
    | (.ok a, s') => (g a).exec s'
    | (.error e, s') => some (.error e, s') := by
  change (f.exec s).bind _ = _
  congr 1
  funext x
  obtain ⟨r | r, s'⟩ := x <;> rfl

/-- A result with a decidable property, found by running the flow. -/
theorem exec_of_any {p : Except ε α × σ → Bool} (h : (f.exec s).any p = true) :
    ∃ r s', f.exec s = some (r, s') ∧ p (r, s') = true := by
  cases hf : f.exec s with
  | none => rw [hf] at h; cases h
  | some x => rw [hf] at h; exact ⟨x.1, x.2, rfl, h⟩

theorem wp_mono {Q R : Except ε α → σ → Prop} (h : wp f Q s)
    (hQ : ∀ r s', Q r s' → R r s') : wp f R s :=
  fun r s' hr => hQ r s' (h r s' hr)

theorem wp_bind {Q : Except ε β → σ → Prop} :
    wp (f >>= g) Q s ↔ wp f (fun r s' => match r with
      | .ok a => wp (g a) Q s'
      | .error e => Q (.error e) s') s := by
  unfold wp
  rw [exec_bind]
  constructor
  · intro h r s' hr
    rw [hr, Option.bind_some] at h
    cases r with
    | ok a => exact h
    | error e => exact h _ _ rfl
  · intro h r s' hr
    obtain ⟨⟨r₁, s₁⟩, h₁, hr⟩ := Option.bind_eq_some_iff.mp hr
    have := h r₁ s₁ h₁
    cases r₁ with
    | ok a => exact this r s' hr
    | error e => cases hr; exact this

theorem wp_pure {a : α} {Q : Except ε α → σ → Prop} :
    wp (pure a : Flow σ ε α) Q s ↔ Q (.ok a) s :=
  ⟨fun h => h _ _ rfl, fun h _ _ hr => by cases hr; exact h⟩

theorem wp_throw {e : ε} {Q : Except ε α → σ → Prop} :
    wp (throw e : Flow σ ε α) Q s ↔ Q (.error e) s :=
  ⟨fun h => h _ _ rfl, fun h _ _ hr => by cases hr; exact h⟩

theorem wp_get {Q : Except ε σ → σ → Prop} :
    wp (get : Flow σ ε σ) Q s ↔ Q (.ok s) s :=
  ⟨fun h => h _ _ rfl, fun h _ _ hr => by cases hr; exact h⟩

theorem wp_modify {u : σ → σ} {Q : Except ε PUnit → σ → Prop} :
    wp (modify u : Flow σ ε PUnit) Q s ↔ Q (.ok ⟨⟩) (u s) :=
  ⟨fun h => h _ _ rfl, fun h _ _ hr => by cases hr; exact h⟩

theorem wp_diverge {Q : Except ε α → σ → Prop} : wp (diverge : Flow σ ε α) Q s :=
  fun _ _ hr => by cases hr

theorem wp_ofExcept {r : Except ε α} {Q : Except ε α → σ → Prop} :
    wp (ofExcept r : Flow σ ε α) Q s ↔ Q r s := by
  cases r with
  | ok a => exact wp_pure
  | error e => exact wp_throw

theorem wp_transform {u : Except ε α → Except ε' β} {Q : Except ε' β → σ → Prop} :
    wp (f.transform u) Q s ↔ wp f (fun r s' => Q (u r) s') s := by
  constructor
  · intro h r s' hr
    refine h _ _ ?_
    change (f.exec s).map _ = _
    rw [hr, Option.map_some]
  · intro h r s' hr
    obtain ⟨⟨r₁, s₁⟩, h₁, hr⟩ := Option.map_eq_some_iff.mp (show (f.exec s).map _ = _ from hr)
    cases hr
    exact h r₁ _ h₁

theorem wp_attempt {Q : Except ε' (Except ε α) → σ → Prop} :
    wp (attempt f : Flow σ ε' (Except ε α)) Q s ↔ wp f (fun r s' => Q (.ok r) s') s :=
  wp_transform

theorem wp_mapError {u : ε → ε'} {Q : Except ε' α → σ → Prop} :
    wp (mapError u f) Q s ↔ wp f (fun r s' => Q (r.mapError u) s') s :=
  wp_transform

end Flow

end GlobalProtect.Lib
