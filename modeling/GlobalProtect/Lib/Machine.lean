import Mathlib.Data.List.Basic
import Mathlib.Data.List.Induction
import Mathlib.Data.List.Nodup
import Mathlib.Data.Option.Basic

/-! # Labelled machines

A concurrent component is modelled as a machine with a partial deterministic step: everything that
is decided outside it (which thread runs next, what a peer answers, which clock value is read) is
in the label. A run is a list of labels, and what holds "under every interleaving" is what holds in
every reachable state. Four rules carry the developments that use this file:

* `Reachable.invariant`: what holds initially and is kept by every step of a reachable state holds
  in every reachable state.
* `run_induction`: the same for what relates the labels of a run to the state it has reached.
* `run_never_after`: what one label makes hold for good rules out another label from then on.
* `run_countP_le`: labels that each lower a rank, which no other raises, are no more than the rank. -/

namespace GlobalProtect.Lib

/-! ### Histories -/

/-- What a machine records is appended: a property of the record has to hold of the new entry. -/
theorem forall_mem_snoc {α : Type*} {l : List α} {a : α} {p : α → Prop} (h : ∀ x ∈ l, p x)
    (ha : p a) : ∀ x ∈ l ++ [a], p x := by
  intro x hx
  rcases List.mem_append.mp hx with hx | hx
  · exact h x hx
  · rw [List.mem_singleton.mp hx]
    exact ha

theorem nodup_snoc {α : Type*} {l : List α} {a : α} (h : l.Nodup) (ha : a ∉ l) :
    (l ++ [a]).Nodup := by
  refine List.nodup_append.mpr ⟨h, List.nodup_singleton a, fun x hx y hy => ?_⟩
  rw [List.mem_singleton.mp hy]
  exact ne_of_mem_of_not_mem hx ha

/-! ### Machines -/

/-- A machine with labels `ℓ`: `step s l = none` when `l` is not enabled in `s`. -/
structure Machine (σ ℓ : Type*) where
  init : σ
  step : σ → ℓ → Option σ

variable {σ ℓ : Type*}

namespace Machine

/-- Follows a list of labels, failing when one of them is not enabled. -/
def run (M : Machine σ ℓ) : σ → List ℓ → Option σ
  | s, [] => some s
  | s, l :: ls => (M.step s l).bind fun s' => M.run s' ls

/-- The states that some run from the initial state ends in. -/
def Reachable (M : Machine σ ℓ) (s : σ) : Prop := ∃ ls, M.run M.init ls = some s

variable {M : Machine σ ℓ} {s s' : σ}

@[simp] theorem run_nil : M.run s [] = some s := rfl

theorem run_cons {l : ℓ} {ls : List ℓ} :
    M.run s (l :: ls) = some s' ↔ ∃ m, M.step s l = some m ∧ M.run m ls = some s' :=
  Option.bind_eq_some_iff

theorem run_append {ls ls' : List ℓ} :
    M.run s (ls ++ ls') = some s' ↔ ∃ m, M.run s ls = some m ∧ M.run m ls' = some s' := by
  induction ls generalizing s with
  | nil => simp
  | cons l ls ih =>
    rw [List.cons_append, run_cons]
    constructor
    · rintro ⟨m, hm, h⟩
      obtain ⟨n, hn, h⟩ := ih.mp h
      exact ⟨n, run_cons.mpr ⟨m, hm, hn⟩, h⟩
    · rintro ⟨n, hn, h⟩
      obtain ⟨m, hm, hn⟩ := run_cons.mp hn
      exact ⟨m, hm, ih.mpr ⟨n, hn, h⟩⟩

theorem run_append_of_run {ls : List ℓ} (h : M.run s ls = some s') (ls' : List ℓ) :
    M.run s (ls ++ ls') = M.run s' ls' := by
  refine Option.ext fun t => ?_
  rw [run_append]
  constructor
  · rintro ⟨m, hm, ht⟩
    obtain rfl := Option.some.inj (h.symm.trans hm)
    exact ht
  · exact fun ht => ⟨s', h, ht⟩

theorem run_single {l : ℓ} : M.run s [l] = some s' ↔ M.step s l = some s' := by
  simp [run_cons]

theorem Reachable.start (M : Machine σ ℓ) : M.Reachable M.init := ⟨[], rfl⟩

theorem Reachable.next (h : M.Reachable s) {l : ℓ} (hs : M.step s l = some s') :
    M.Reachable s' := by
  obtain ⟨ls, hls⟩ := h
  exact ⟨ls ++ [l], run_append.mpr ⟨s, hls, run_single.mpr hs⟩⟩

theorem Reachable.run (h : M.Reachable s) {ls : List ℓ} (hs : M.run s ls = some s') :
    M.Reachable s' := by
  obtain ⟨ls₀, h₀⟩ := h
  exact ⟨ls₀ ++ ls, run_append.mpr ⟨s, h₀, hs⟩⟩

/-- A state with a decidable property, found by running the machine. -/
theorem Reachable.of_run (l : List ℓ) {p : σ → Bool} (h : (M.run M.init l).any p = true) :
    ∃ s, M.Reachable s ∧ p s = true := by
  cases hs : M.run M.init l with
  | none => rw [hs] at h; cases h
  | some s => rw [hs] at h; exact ⟨s, ⟨l, hs⟩, h⟩

theorem run_keeps {P : σ → Prop} (hstep : ∀ s l s', P s → M.step s l = some s' → P s') :
    ∀ (ls : List ℓ) (s : σ), P s → M.run s ls = some s' → P s'
  | [], s, hp, h => by cases h; exact hp
  | l :: ls, s, hp, h => by
    obtain ⟨m, hm, h⟩ := run_cons.mp h
    exact run_keeps hstep ls m (hstep s l m hp hm) h

/-- **Invariant rule**: initial, and kept by every step of a reachable state. -/
theorem Reachable.invariant {P : σ → Prop} (hinit : P M.init)
    (hstep : ∀ s l s', M.Reachable s → P s → M.step s l = some s' → P s')
    (h : M.Reachable s) : P s := by
  obtain ⟨ls, hls⟩ := h
  refine (run_keeps (P := fun s => M.Reachable s ∧ P s) ?_ ls M.init
    ⟨Reachable.start M, hinit⟩ hls).2
  rintro s l s' ⟨hr, hp⟩ hs
  exact ⟨hr.next hs, hstep s l s' hr hp hs⟩

/-- **Run rule**: what relates the labels of a run to the state it has reached. -/
theorem run_induction {P : List ℓ → σ → Prop} (hinit : P [] M.init)
    (hstep : ∀ ls s l s', P ls s → M.step s l = some s' → P (ls ++ [l]) s') {ls : List ℓ}
    (h : M.run M.init ls = some s) : P ls s := by
  induction ls using List.reverseRecOn generalizing s with
  | nil => cases h; exact hinit
  | append_singleton ls l ih =>
    obtain ⟨m, hm, hl⟩ := run_append.mp h
    exact hstep ls m l s (ih hm) (run_single.mp hl)

/-- The machine restricted to the steps that satisfy `ok` in the state they are taken in. -/
def guard (M : Machine σ ℓ) (ok : σ → ℓ → Bool) : Machine σ ℓ where
  init := M.init
  step s l := if ok s l then M.step s l else none

theorem guard_step {ok : σ → ℓ → Bool} {l : ℓ} :
    (M.guard ok).step s l = some s' ↔ ok s l = true ∧ M.step s l = some s' := by
  simp [guard]

theorem Reachable.of_guard {ok : σ → ℓ → Bool} (h : (M.guard ok).Reachable s) : M.Reachable s :=
  Reachable.invariant (M := M.guard ok) (P := M.Reachable) (Reachable.start M)
    (fun _ _ _ _ hr hs => hr.next (guard_step.mp hs).2) h

/-- **Never rule**: a label that is not enabled once `P` holds does not occur after a label that
makes `P` hold. -/
theorem run_never_after {P : σ → Prop} {e l : ℓ}
    (hset : ∀ m m', M.step m e = some m' → P m')
    (hkeep : ∀ m x m', P m → M.step m x = some m' → P m')
    (hbad : ∀ m, P m → M.step m l = none) {ls₁ ls₂ : List ℓ}
    (h : M.run s (ls₁ ++ e :: ls₂) = some s') : l ∉ ls₂ := by
  intro hl
  obtain ⟨m₁, -, h⟩ := run_append.mp h
  obtain ⟨m₂, he, h⟩ := run_cons.mp h
  obtain ⟨as, bs, rfl⟩ := List.append_of_mem hl
  obtain ⟨m₃, has, h⟩ := run_append.mp h
  obtain ⟨m₄, hl, -⟩ := run_cons.mp h
  rw [hbad m₃ (run_keeps hkeep as m₂ (hset m₁ m₂ he) has)] at hl
  cases hl

/-- **Rank rule**: in a run of labels that satisfy `q`, through states that satisfy `Q`, those with `p`
are no more than a rank that each of them lowers and none of the others raises. -/
theorem run_countP_le (Q : σ → Prop) (rank : σ → ℕ) (p q : ℓ → Bool)
    (hkeep : ∀ s l s', Q s → q l = true → M.step s l = some s' → Q s')
    (hrank : ∀ s l s', Q s → q l = true → M.step s l = some s' →
      rank s' + (if p l then 1 else 0) ≤ rank s) :
    ∀ (ls : List ℓ) (s : σ), (∀ l ∈ ls, q l = true) → Q s → M.run s ls = some s' →
      ls.countP p + rank s' ≤ rank s
  | [], s, _, _, h => by
    cases h
    simp
  | l :: ls, s, hq, hs, h => by
    obtain ⟨m, hm, h⟩ := run_cons.mp h
    have hl := hq l List.mem_cons_self
    have ih := run_countP_le Q rank p q hkeep hrank ls m
      (fun l' hl' => hq l' (List.mem_cons_of_mem l hl')) (hkeep s l m hs hl hm) h
    have hstep := hrank s l m hs hl hm
    rw [List.countP_cons]
    omega

end Machine

end GlobalProtect.Lib
