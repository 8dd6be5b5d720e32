import Mathlib.Logic.Function.Basic
import GlobalProtect.Lib.Machine

/-! # Processes that share a state

Any number of processes, each with a state of its own, and one state that they share. An action is
of one process: it may depend on the shared state and changes it and the state of the process.

`Reachable.outline` proves what holds under every interleaving from three facts about one action:
what the process knows afterwards, how the shared state may have changed, and that no such change
disturbs what another process knows. `run_count_le` bounds the actions of a process in a run, whatever
the others do. -/

namespace GlobalProtect.Lib

/-- Processes `ι` with states `π`, sharing a state `σ`; an action has an outcome `ε`, which is
decided elsewhere. -/
structure Processes (ι σ π ε : Type*) where
  shared : σ
  own : ι → π
  act : ι → σ → π → ε → Option (σ × π)

namespace Processes

variable {ι σ π ε : Type*}

structure State (ι σ π : Type*) where
  shared : σ
  own : ι → π

variable [DecidableEq ι]

/-- One action after another, of any process. -/
def machine (P : Processes ι σ π ε) : Machine (State ι σ π) (ι × ε) where
  init := ⟨P.shared, P.own⟩
  step s l := (P.act l.1 s.shared (s.own l.1) l.2).map fun (shared, p) =>
    ⟨shared, Function.update s.own l.1 p⟩

variable {P : Processes ι σ π ε} {s s' : State ι σ π} {i : ι} {e : ε}

theorem step_eq_some : P.machine.step s (i, e) = some s' ↔
    ∃ shared p, P.act i s.shared (s.own i) e = some (shared, p) ∧
      s' = ⟨shared, Function.update s.own i p⟩ := by
  unfold machine
  dsimp only
  rw [Option.map_eq_some_iff]
  constructor
  · rintro ⟨⟨shared, p⟩, hact, rfl⟩
    exact ⟨shared, p, hact, rfl⟩
  · rintro ⟨shared, p, hact, rfl⟩
    exact ⟨(shared, p), hact, rfl⟩

/-- The shared state satisfies `I`, and each process the part that it knows. -/
def Outline (I : σ → Prop) (A : ι → σ → π → Prop) (s : State ι σ π) : Prop :=
  I s.shared ∧ ∀ i, A i s.shared (s.own i)

section Rules

variable {I : σ → Prop} {A : ι → σ → π → Prop} {R : ι → σ → σ → Prop}
  (hown : ∀ i s p e s' p', I s → A i s p → P.act i s p e = some (s', p') →
    I s' ∧ A i s' p' ∧ R i s s')
  (hstable : ∀ i k s s' p, k ≠ i → R i s s' → A k s p → A k s' p)

include hown hstable

theorem Outline.step {l : ι × ε} (hs : Outline I A s) (h : P.machine.step s l = some s') :
    Outline I A s' := by
  obtain ⟨i, e⟩ := l
  obtain ⟨shared, p, hact, rfl⟩ := step_eq_some.mp h
  obtain ⟨hI, hA, hR⟩ := hown i _ _ e shared p hs.1 (hs.2 i) hact
  refine ⟨hI, fun k => ?_⟩
  by_cases hk : k = i
  · subst hk
    simpa using hA
  · simpa [hk] using hstable i k _ _ _ hk hR (hs.2 k)

/-- **Outline rule**: what each process knows is established by its own actions, and kept by what the
others may change. -/
theorem Reachable.outline (hinit : Outline I A P.machine.init) (h : P.machine.Reachable s) :
    Outline I A s :=
  Machine.Reachable.invariant hinit (fun _ _ _ _ hs h => Outline.step hown hstable hs h) h

end Rules

theorem own_of_ne {k : ι} (hk : k ≠ i) (h : P.machine.step s (i, e) = some s') :
    s'.own k = s.own k := by
  obtain ⟨shared, p, -, rfl⟩ := step_eq_some.mp h
  exact Function.update_of_ne hk _ _

/-- A process whose actions each lower a rank, in states that satisfy `Q`, makes no more actions than
its rank. -/
theorem run_count_le {Q : State ι σ π → Prop} {rank : π → ℕ} (i : ι)
    (hkeep : ∀ s l s', Q s → P.machine.step s l = some s' → Q s')
    (hrank : ∀ s e s', Q s → P.machine.step s (i, e) = some s' →
      rank (s'.own i) < rank (s.own i)) {ls : List (ι × ε)} (hs : Q s)
    (h : P.machine.run s ls = some s') :
    ls.countP (fun l => l.1 = i) + rank (s'.own i) ≤ rank (s.own i) := by
  refine Machine.run_countP_le Q (fun s => rank (s.own i)) (fun l => l.1 = i) (fun _ => true)
    (fun s l s' hs _ hstep => hkeep s l s' hs hstep) ?_ ls s (fun _ _ => rfl) hs h
  rintro s ⟨k, e⟩ s' hs - hstep
  by_cases hk : k = i
  · subst hk
    rw [if_pos (by simp)]
    exact hrank s e s' hs hstep
  · rw [own_of_ne (Ne.symm hk) hstep]
    simp [hk]

end Processes

end GlobalProtect.Lib
