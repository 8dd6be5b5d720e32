import GlobalProtect.Lib.Machine

/-! # Replication by deltas and checkpoints

A primary keeps a state and a revision. A subscriber gets the state once, with its revision
(`base`), then every change with the next revision (`delta`), and, when it asks, the state again
(`checkpoint`). What the two must agree on is an observation of the state; the rest of it may
differ.

`Feed.follow` is a subscriber that accepts a stream only if nothing was lost, repeated or reordered
and every checkpoint shows what the subscriber has computed. `Feed.Reaches` says that a stream is
accepted and brings the subscriber to a revision and a state of the primary; its rules say which
message may be appended (`Reaches.delta`, `Reaches.checkpoint`), and `run_deltas` reads the
numbering off an accepted stream. -/

namespace GlobalProtect.Lib

/-- How deltas change a state, and what is observed of it. -/
structure Feed (σ ε φ : Type*) where
  apply : ε → σ → σ
  obs : σ → φ
  obs_apply : ∀ e {x y}, obs x = obs y → obs (apply e x) = obs (apply e y)

inductive FeedMessage (σ ε : Type*) where
  | base (revision : ℕ) (state : σ)
  | delta (revision : ℕ) (change : ε)
  | checkpoint (revision : ℕ) (state : σ)
  deriving DecidableEq

/-- The copy of a subscriber. -/
structure Replica (σ : Type*) where
  revision : ℕ
  state : σ
  deriving DecidableEq

variable {σ ε φ : Type*}

/-- The revision of a delta. -/
def FeedMessage.delta? : FeedMessage σ ε → Option ℕ
  | .delta r _ => some r
  | _ => none

namespace Feed

variable (F : Feed σ ε φ) [DecidableEq φ]

/-- What a subscriber does with a message; `none` when it has to reject it. -/
def follow : Option (Replica σ) → FeedMessage σ ε → Option (Option (Replica σ))
  | none, .base r x => some (some ⟨r, x⟩)
  | some v, .delta r e => if r = v.revision + 1 then some (some ⟨r, F.apply e v.state⟩) else none
  | some v, .checkpoint r x =>
    if r = v.revision ∧ F.obs x = F.obs v.state then some (some v) else none
  | _, _ => none

def observer : Machine (Option (Replica σ)) (FeedMessage σ ε) where
  init := none
  step := F.follow

/-- The stream is accepted, and leaves the subscriber at revision `r` with what is observed
of `x`. -/
def Reaches (msgs : List (FeedMessage σ ε)) (r : ℕ) (x : σ) : Prop :=
  ∃ v, F.observer.run none msgs = some (some v) ∧ v.revision = r ∧ F.obs v.state = F.obs x

variable {F} {msgs : List (FeedMessage σ ε)} {r : ℕ} {x y : σ}

theorem Reaches.base (h : F.obs y = F.obs x) : F.Reaches [.base r y] r x :=
  ⟨⟨r, y⟩, rfl, rfl, h⟩

theorem Reaches.delta (h : F.Reaches msgs r x) (e : ε) :
    F.Reaches (msgs ++ [.delta (r + 1) e]) (r + 1) (F.apply e x) := by
  obtain ⟨v, hrun, rfl, hobs⟩ := h
  refine ⟨⟨v.revision + 1, F.apply e v.state⟩, ?_, rfl, F.obs_apply e hobs⟩
  exact Machine.run_append.mpr ⟨some v, hrun, Machine.run_single.mpr (if_pos rfl)⟩

theorem Reaches.checkpoint (h : F.Reaches msgs r x) (hy : F.obs y = F.obs x) :
    F.Reaches (msgs ++ [.checkpoint r y]) r x := by
  obtain ⟨v, hrun, rfl, hobs⟩ := h
  refine ⟨v, ?_, rfl, hobs⟩
  exact Machine.run_append.mpr
    ⟨some v, hrun, Machine.run_single.mpr (if_pos ⟨rfl, hy.trans hobs.symm⟩)⟩

/-- After the base the deltas of an accepted stream are numbered one by one. -/
theorem run_deltas {v v' : Replica σ} (h : F.observer.run (some v) msgs = some (some v')) :
    v.revision ≤ v'.revision ∧
      msgs.filterMap (·.delta?) = List.range' (v.revision + 1) (v'.revision - v.revision) := by
  induction msgs generalizing v with
  | nil =>
    obtain rfl : v = v' := by simpa using h
    simp
  | cons m msgs ih =>
    obtain ⟨w, hm, h⟩ := Machine.run_cons.mp h
    cases m with
    | base r x => cases hm
    | delta r e =>
      obtain ⟨rfl, rfl⟩ := Option.ite_some_none_eq_some.mp hm
      obtain ⟨hle, hnum⟩ := ih h
      simp only at hle hnum
      refine ⟨by omega, ?_⟩
      have hlen : v'.revision - v.revision = v'.revision - (v.revision + 1) + 1 := by omega
      rw [hlen, List.range'_succ, ← hnum]
      rfl
    | checkpoint r x =>
      obtain ⟨-, rfl⟩ := Option.ite_some_none_eq_some.mp hm
      exact ih h

theorem run_base {v : Replica σ} (h : F.observer.run none msgs = some (some v)) :
    ∃ r x rest, msgs = .base r x :: rest ∧ F.observer.run (some ⟨r, x⟩) rest = some (some v) := by
  cases msgs with
  | nil => cases h
  | cons m msgs =>
    obtain ⟨w, hm, h⟩ := Machine.run_cons.mp h
    cases m with
    | base r x => cases hm; exact ⟨r, x, msgs, rfl, h⟩
    | delta r e => cases hm
    | checkpoint r x => cases hm

end Feed

end GlobalProtect.Lib
