import Mathlib.Data.List.Basic

/-! # Broadcast channels with a bound

A receiver of a channel that every receiver gets all messages of, as long as it keeps up: the
channel keeps the last `capacity` messages. A receiver that has fallen behind is told so once and
goes on with the oldest message that is kept.

A receiver is described by the messages since it subscribed and by how many of them it has passed.
`unread` is what it can still get. `unread_send`, `unread_message` and `unread_lagged` say what
becomes of that. -/

namespace GlobalProtect.Lib

structure Receiver (α : Type*) where
  log : List α := []
  next : ℕ := 0
  deriving DecidableEq, Repr

inductive Received (α : Type*) where
  | message (a : α)
  | lagged (missed : ℕ)
  deriving DecidableEq, Repr

namespace Receiver

variable {α : Type*} (capacity : ℕ)

def send (r : Receiver α) (a : α) : Receiver α := { r with log := r.log ++ [a] }

/-- The place of the oldest message that is kept. -/
def oldest (r : Receiver α) : ℕ := r.log.length - capacity

/-- The messages that can still be received. -/
def unread (r : Receiver α) : List α := r.log.drop (max r.next (r.oldest capacity))

def recv (r : Receiver α) : Option (Received α × Receiver α) :=
  if r.next < r.oldest capacity then
    some (.lagged (r.oldest capacity - r.next), { r with next := r.oldest capacity })
  else
    match r.log[r.next]? with
    | some a => some (.message a, { r with next := r.next + 1 })
    | none => none

variable {capacity} {r r' : Receiver α} {a : α}

theorem unread_send (capacity : ℕ) (r : Receiver α) (a : α) :
    ((r.send a).unread capacity).Sublist (r.unread capacity ++ [a]) := by
  have hle : max r.next (r.oldest capacity) ≤ max r.next ((r.send a).oldest capacity) := by
    have hlen : (r.send a).log.length = r.log.length + 1 := List.length_append
    unfold oldest
    omega
  have hmore : ((r.send a).unread capacity).Sublist
      ((r.log ++ [a]).drop (max r.next (r.oldest capacity))) :=
    List.drop_sublist_drop_left _ hle
  refine hmore.trans ?_
  rw [List.drop_append]
  exact (List.Sublist.refl _).append (List.drop_sublist _ _)

theorem unread_message (h : r.recv capacity = some (.message a, r')) :
    r.unread capacity = a :: r'.unread capacity := by
  unfold recv at h
  by_cases hlag : r.next < r.oldest capacity
  · rw [if_pos hlag] at h
    cases h
  · rw [if_neg hlag] at h
    cases hget : r.log[r.next]? with
    | none => rw [hget] at h; cases h
    | some b =>
      rw [hget] at h
      obtain ⟨hb, rfl⟩ := Prod.mk.inj (Option.some.inj h)
      obtain rfl := Received.message.inj hb
      obtain ⟨hlt, hb⟩ := List.getElem?_eq_some_iff.mp hget
      have hnow : max r.next (r.oldest capacity) = r.next := by omega
      have hthen : max (r.next + 1) (r.oldest capacity) = r.next + 1 := by omega
      show r.log.drop _ = b :: r.log.drop (max (r.next + 1) (r.oldest capacity))
      rw [hnow, hthen, List.drop_eq_getElem_cons hlt, hb]

theorem unread_lagged {missed : ℕ} (h : r.recv capacity = some (.lagged missed, r')) :
    r'.unread capacity = r.unread capacity := by
  unfold recv at h
  by_cases hlag : r.next < r.oldest capacity
  · rw [if_pos hlag] at h
    obtain ⟨-, rfl⟩ := Prod.mk.inj (Option.some.inj h)
    have hsame : max (r.oldest capacity) (r.oldest capacity) = max r.next (r.oldest capacity) := by
      omega
    exact congrArg (fun n => r.log.drop n) hsame
  · rw [if_neg hlag] at h
    cases hget : r.log[r.next]? with
    | none => rw [hget] at h; cases h
    | some b => rw [hget] at h; cases h

end Receiver

end GlobalProtect.Lib
