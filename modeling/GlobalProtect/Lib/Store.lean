import Mathlib.Data.List.AList

/-! # Keyed stores

A hash map as programs use one: an association list without repeated keys, with the bulk operation
that Mathlib's `AList` lacks. Every store is read through `lookup`. -/

namespace GlobalProtect.Lib

/-- A map with keys `κ` and values `β`. -/
abbrev Store (κ β : Type*) := AList fun _ : κ => β

namespace Store

variable {κ β : Type*} [DecidableEq κ]

/-- Keeps the entries that satisfy `p`. -/
def retain (s : Store κ β) (p : κ → β → Bool) : Store κ β :=
  ⟨s.entries.filter fun e => p e.1 e.2, s.nodupKeys.sublist List.filter_sublist⟩

theorem lookup_retain (s : Store κ β) (p : κ → β → Bool) (k : κ) :
    (s.retain p).lookup k = (s.lookup k).filter (p k) := by
  refine Option.ext fun b => ?_
  rw [← Option.mem_def, ← Option.mem_def, AList.mem_lookup_iff, Option.mem_filter_iff,
    AList.mem_lookup_iff]
  simp [retain]

/-- Changes every value. -/
def mapValues (s : Store κ β) (f : κ → β → β) : Store κ β :=
  ⟨s.entries.map fun e => ⟨e.1, f e.1 e.2⟩, by
    have hkeys : (s.entries.map fun e => (⟨e.1, f e.1 e.2⟩ : Sigma fun _ : κ => β)).keys =
        s.entries.keys := by simp [List.keys]
    rw [List.NodupKeys, hkeys]
    exact s.nodupKeys⟩

theorem lookup_mapValues (s : Store κ β) (f : κ → β → β) (k : κ) :
    (s.mapValues f).lookup k = (s.lookup k).map (f k) := by
  refine Option.ext fun b => ?_
  rw [← Option.mem_def, AList.mem_lookup_iff, Option.map_eq_some_iff]
  simp only [← Option.mem_def, AList.mem_lookup_iff, mapValues, List.mem_map]
  constructor
  · rintro ⟨⟨k', a⟩, ha, heq⟩
    obtain ⟨rfl, hb⟩ := Sigma.mk.inj heq
    exact ⟨a, ha, eq_of_heq hb⟩
  · rintro ⟨a, ha, rfl⟩
    exact ⟨⟨k, a⟩, ha, rfl⟩

theorem lookup_insert_cases {s : Store κ β} {k k' : κ} {b x : β}
    (h : (s.insert k b).lookup k' = some x) :
    (k' = k ∧ x = b) ∨ (k' ≠ k ∧ s.lookup k' = some x) := by
  by_cases hk : k' = k
  · subst hk
    rw [AList.lookup_insert] at h
    exact Or.inl ⟨rfl, (Option.some.inj h).symm⟩
  · rw [AList.lookup_insert_ne hk] at h; exact Or.inr ⟨hk, h⟩

theorem forall_lookup_insert {s : Store κ β} {k : κ} {b : β} {p : κ → β → Prop}
    (h : ∀ k x, s.lookup k = some x → p k x) (hb : p k b) :
    ∀ k' x, (s.insert k b).lookup k' = some x → p k' x := by
  intro k' x hx
  rcases lookup_insert_cases hx with ⟨rfl, rfl⟩ | ⟨-, hx⟩
  · exact hb
  · exact h k' x hx

theorem lookup_erase_cases {s : Store κ β} {k k' : κ} {x : β}
    (h : (s.erase k).lookup k' = some x) : k' ≠ k ∧ s.lookup k' = some x := by
  by_cases hk : k' = k
  · subst hk; rw [AList.lookup_erase] at h; cases h
  · rw [AList.lookup_erase_ne hk] at h; exact ⟨hk, h⟩

end Store

end GlobalProtect.Lib
