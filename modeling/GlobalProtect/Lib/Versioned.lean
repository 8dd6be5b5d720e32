import Mathlib.Data.List.Basic

/-! # Values published under a version

A component publishes its current value together with a version and changes the value only with a
larger version. `Versioned log v x` says so of what was published so far and of the current pair:
`bump` and `publish` are the two things such a component does, and from `ordered` it
follows that of two published entries the later has no smaller version, and the same value if the
versions agree. -/

namespace GlobalProtect.Lib

variable {α : Type*}

/-- The entry `a` was published before `b`. -/
def VersionLe (a b : ℕ × α) : Prop := a.1 ≤ b.1 ∧ (a.1 = b.1 → a.2 = b.2)

structure Versioned (log : List (ℕ × α)) (v : ℕ) (x : α) : Prop where
  current : ∀ e ∈ log, VersionLe e (v, x)
  ordered : log.Pairwise VersionLe

namespace Versioned

variable {log : List (ℕ × α)} {v v' : ℕ} {x x' : α}

theorem start : Versioned ([] : List (ℕ × α)) v x := ⟨by simp, .nil⟩

theorem bump (h : Versioned log v x) (hv : v < v') : Versioned log v' x' := by
  refine ⟨fun e he => ?_, h.ordered⟩
  have hle : e.1 ≤ v := (h.current e he).1
  exact ⟨by simp only; omega, fun heq => by simp only at heq; omega⟩

theorem publish (h : Versioned log v x) : Versioned (log ++ [(v, x)]) v x := by
  refine ⟨fun e he => ?_, ?_⟩
  · rcases List.mem_append.mp he with he | he
    · exact h.current e he
    · obtain rfl := List.mem_singleton.mp he
      exact ⟨Nat.le_refl _, fun _ => rfl⟩
  · refine List.pairwise_append.mpr ⟨h.ordered, List.pairwise_singleton _ _, fun a ha b hb => ?_⟩
    obtain rfl := List.mem_singleton.mp hb
    exact h.current a ha

end Versioned

end GlobalProtect.Lib
