import Mathlib.Data.List.Perm.Basic
import Mathlib.Data.List.Nodup

/-! # Custody of keyed resources

An owner keeps resources in a list and gives them up one by one, looked up by a key, or all at once;
`released` remembers in which order and how. Nothing is lost or given up twice because what was ever
in custody stays the same up to order (`perm_releaseFirst`, `perm_releaseAll`): what is not held any
more was released (`mem_released`), and exactly once (`released_once`). Lookups by key find the
first match, so they are exact only while the keys are distinct (`mem_held_releaseFirst`). -/

namespace GlobalProtect.Lib

/-- The resources held, and how each of the others was released. -/
structure Custody (α ρ : Type*) where
  held : List α := []
  released : List (α × ρ) := []
  deriving DecidableEq, Repr

variable {α ρ κ ι : Type*}

theorem perm_cons_eraseP {p : α → Bool} {l : List α} {a : α} (h : l.find? p = some a) :
    l.Perm (a :: l.eraseP p) := by
  induction l with
  | nil => cases h
  | cons x l ih =>
    cases hx : p x with
    | true =>
      obtain rfl : x = a := by simpa [List.find?_cons, hx] using h
      simp [hx]
    | false =>
      have h' : l.find? p = some a := by simpa [List.find?_cons, hx] using h
      rw [List.eraseP_cons_of_neg (by simp [hx])]
      exact ((ih h').cons x).trans (List.Perm.swap _ _ _)

namespace Custody

variable (c : Custody α ρ)

def register (a : α) : Custody α ρ := { c with held := c.held ++ [a] }

/-- Gives up everything that is held. -/
def releaseAll (r : ρ) : Custody α ρ := ⟨[], c.released ++ c.held.map (·, r)⟩

/-- Takes back a custody that was lent with all that is held. -/
def rejoin (lent : Custody α ρ) : Custody α ρ := ⟨lent.held, c.released ++ lent.released⟩

/-- What was ever in custody. -/
def all : List α := c.held ++ c.released.map Prod.fst

variable [DecidableEq κ] (key : α → κ)

/-- Gives up the first resource with this key. -/
def releaseFirst (k : κ) (r : ρ) : Custody α ρ :=
  match c.held.find? fun a => key a = k with
  | none => c
  | some a => ⟨c.held.eraseP fun a => key a = k, c.released ++ [(a, r)]⟩

/-- Replaces the first resource that has the key of `a`. -/
def update (a : α) : Custody α ρ :=
  { c with held := c.held.replaceF fun b => if key b = key a then some a else none }

variable {c key} {k : κ} {r : ρ} {a b : α}

theorem perm_register : (c.register a).all.Perm (a :: c.all) := by
  simp only [all, register, List.append_assoc]
  exact List.perm_middle

theorem perm_releaseAll : (c.releaseAll r).all.Perm c.all := by
  have hmap : (c.held.map (·, r)).map Prod.fst = c.held := by simp [Function.comp_def]
  simp only [all, releaseAll, List.map_append, hmap, List.nil_append]
  exact List.perm_append_comm

theorem releaseFirst_cases (c : Custody α ρ) (key : α → κ) (k : κ) (r : ρ) :
    (c.releaseFirst key k r = c ∧ ∀ a ∈ c.held, key a ≠ k) ∨
      ∃ a, key a = k ∧ c.held.Perm (a :: (c.releaseFirst key k r).held) ∧
        (c.releaseFirst key k r).released = c.released ++ [(a, r)] := by
  unfold releaseFirst
  cases hf : c.held.find? fun a => key a = k with
  | none =>
    refine Or.inl ⟨rfl, fun a ha => ?_⟩
    simpa using List.find?_eq_none.mp hf a ha
  | some a =>
    refine Or.inr ⟨a, ?_, perm_cons_eraseP hf, rfl⟩
    simpa using List.find?_some hf

theorem perm_releaseFirst : (c.releaseFirst key k r).all.Perm c.all := by
  rcases releaseFirst_cases c key k r with ⟨h, -⟩ | ⟨a, -, hheld, hreleased⟩
  · rw [h]
  · have hall : (c.releaseFirst key k r).all =
        (c.releaseFirst key k r).held ++ (c.released.map Prod.fst ++ [a]) := by
      simp [all, hreleased]
    rw [hall, ← List.append_assoc]
    refine (List.perm_append_singleton _ _).trans ?_
    exact hheld.symm.append_right _

theorem mem_held_releaseFirst (hn : (c.held.map key).Nodup) :
    a ∈ (c.releaseFirst key k r).held ↔ a ∈ c.held ∧ key a ≠ k := by
  rcases releaseFirst_cases c key k r with ⟨h, hne⟩ | ⟨b, rfl, hheld, -⟩
  · rw [h]
    exact ⟨fun ha => ⟨ha, hne a ha⟩, And.left⟩
  · have hn' := (hheld.map key).nodup_iff.mp hn
    rw [List.map_cons, List.nodup_cons] at hn'
    constructor
    · intro ha
      refine ⟨hheld.mem_iff.mpr (List.mem_cons_of_mem _ ha), fun hk => hn'.1 ?_⟩
      exact List.mem_map.mpr ⟨a, ha, hk⟩
    · rintro ⟨ha, hk⟩
      rcases List.mem_cons.mp (hheld.mem_iff.mp ha) with rfl | ha
      · exact absurd rfl hk
      · exact ha

omit [DecidableEq κ] in
theorem mem_released (ha : a ∈ c.all) (hheld : a ∉ c.held) : ∃ r, (a, r) ∈ c.released := by
  obtain ⟨e, he, rfl⟩ := List.mem_map.mp ((List.mem_append.mp ha).resolve_left hheld)
  exact ⟨e.2, he⟩

omit [DecidableEq κ] in
/-- A custody that was lent as a whole comes back with what was released meanwhile. -/
theorem perm_rejoin {c' : Custody α ρ} (h : c'.all.Perm c.held) : (c.rejoin c').all.Perm c.all := by
  have hall : (c.rejoin c').all = c'.held ++ (c.released ++ c'.released).map Prod.fst := rfl
  rw [hall, List.map_append]
  refine (List.perm_append_comm.append_left c'.held).trans ?_
  rw [← List.append_assoc]
  exact h.append_right _

theorem update_register (hne : ∀ x ∈ c.held, key x ≠ key b)
    (hk : key a = key b) : (c.register a).update key b = c.register b := by
  have hl : ∀ l : List α, (∀ x ∈ l, key x ≠ key b) →
      (l ++ [a]).replaceF (fun x => if key x = key b then some b else none) = l ++ [b] := by
    intro l hl
    induction l with
    | nil => simp [List.replaceF, hk]
    | cons x l ih =>
      rw [List.cons_append, List.replaceF, if_neg (hl x (by simp)),
        ih fun y hy => hl y (List.mem_cons_of_mem _ hy)]
      rfl
  simp only [update, register, hl c.held hne]

omit [DecidableEq κ] in
/-- **Exactly once**: of resources that are told apart by `f`, one that was released has been
released in exactly one way. -/
theorem released_once [DecidableEq ι] {f : α → ι} (hn : (c.all.map f).Nodup)
    (ha : (a, r) ∈ c.released) : c.released.filter (fun e => f e.1 = f a) = [(a, r)] := by
  have hn : (c.released.map fun e => f e.1).Nodup := by
    rw [all, List.map_append, List.map_map] at hn
    exact hn.of_append_right
  generalize c.released = l at hn ha
  induction l with
  | nil => cases ha
  | cons e l ih =>
    rw [List.map_cons, List.nodup_cons] at hn
    rcases List.mem_cons.mp ha with rfl | ha
    · -- the others have another image
      have hrest : l.filter (fun e => f e.1 = f a) = [] :=
        List.filter_eq_nil_iff.mpr fun e he => by
          simpa using fun h => hn.1 (List.mem_map.mpr ⟨e, he, h⟩)
      rw [List.filter_cons, if_pos (by simp), hrest]
    · rw [List.filter_cons, if_neg, ih hn.2 ha]
      simpa using fun h => hn.1 (List.mem_map.mpr ⟨_, ha, h.symm⟩)

end Custody

end GlobalProtect.Lib
