import Mathlib.Algebra.Ring.Nat
import Mathlib.Data.List.Basic

/-! # Bounded channels and machine words

The bounded multi-producer queue of an asynchronous runtime, as far as its non-blocking send is
concerned, and the arithmetic on 64-bit words that programs use for counters and sizes. A receiver
that is dropped closes the channel: a later send fails with `closed`, also when the queue is full.
-/

namespace GlobalProtect.Lib

/-- Why a non-blocking send did not enqueue its message. -/
inductive TrySendError where
  | full
  | closed
  deriving DecidableEq, Repr

/-- A queue with a bound, and whether its receiver is gone. -/
structure Channel (α : Type*) where
  capacity : ℕ
  queue : List α := []
  closed : Bool := false
  deriving DecidableEq, Repr

variable {α : Type*}

namespace Channel

/-- Sends without waiting. -/
def trySend (c : Channel α) (a : α) : Except TrySendError (Channel α) :=
  if c.closed then .error .closed
  else if c.queue.length < c.capacity then .ok { c with queue := c.queue ++ [a] }
  else .error .full

/-- Sends without waiting and forgets whether that worked. -/
def offer (c : Channel α) (a : α) : Channel α :=
  match c.trySend a with
  | .ok c' => c'
  | .error _ => c

theorem trySend_ok {c c' : Channel α} {a : α} :
    c.trySend a = .ok c' ↔ c.closed = false ∧ c.queue.length < c.capacity ∧
      c' = { c with queue := c.queue ++ [a] } := by
  unfold trySend
  split_ifs with h₁ h₂
  · simp [h₁]
  · simp [h₁, h₂, eq_comm]
  · simp [h₁, h₂]

theorem offer_eq (c : Channel α) (a : α) :
    c.offer a = c ∨ c.offer a = { c with queue := c.queue ++ [a] } := by
  unfold offer
  split
  · next c' h => exact Or.inr (trySend_ok.mp h).2.2
  · exact Or.inl rfl

end Channel

/-- The number of values of a 64-bit word. -/
def wordSize : ℕ := 2 ^ 64

/-- Addition on 64-bit words as optimised builds perform it. -/
def wrappingAdd (a b : ℕ) : ℕ := (a + b) % wordSize

/-- Addition on 64-bit words that reports an overflow. -/
def checkedAdd (a b : ℕ) : Option ℕ := if a + b < wordSize then some (a + b) else none

/-- Subtraction that reports an underflow. -/
def checkedSub (a b : ℕ) : Option ℕ := if b ≤ a then some (a - b) else none

theorem checkedSub_eq_none {a b : ℕ} : checkedSub a b = none ↔ a < b := by
  unfold checkedSub
  split_ifs with h
  · exact iff_of_false (by simp) (Nat.not_lt.mpr h)
  · exact iff_of_true rfl (Nat.not_le.mp h)

theorem checkedSub_eq_some {a b n : ℕ} : checkedSub a b = some n ↔ a = n + b := by
  unfold checkedSub
  split_ifs with h
  · rw [Option.some.injEq]
    omega
  · exact iff_of_false (by simp) (by omega)

theorem checkedAdd_eq_some {a b c : ℕ} :
    checkedAdd a b = some c ↔ a + b < wordSize ∧ a + b = c := by
  unfold checkedAdd; split_ifs with h <;> simp [h]

end GlobalProtect.Lib
