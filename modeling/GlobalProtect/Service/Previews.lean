import GlobalProtect.Api.Types
import GlobalProtect.Lib.Machine

/-! # The workers of HIP previews

The model of `HipPreviews` in `gpservice/src/hip_preview.rs`. `start` and `cancel_connection` hold the
lock of the table, and `cancel_connection` keeps it while it waits for the worker that it has taken
out. `shutdown`, which is called once, cancels all tokens, empties the table and then waits; a token
that is made afterwards is cancelled from the beginning, so it may as well come after a `start` that it
interrupts. What a worker does before it gives its slot back is left out. -/

namespace GlobalProtect.Service.Previews

open Lib Api

def maxActivePreviews : ℕ := 4

/-- A worker, and its token, is the index of its job. -/
structure PreviewTask where
  connectionId : Uuid
  worker : ℕ

structure State where
  tasks : Uuid → Option PreviewTask := fun _ => none
  slots : List ℕ := []
  unfinished : List ℕ := []
  cancelled : List ℕ := []
  shutdown : Bool := false
  /-- The worker that `cancel_connection` waits for. -/
  waiting : Option ℕ := none
  /-- The table whose workers `shutdown` waits for. -/
  joining : Option (Uuid → Option PreviewTask) := none
  /-- The session and the connection of every worker so far. -/
  jobs : List (Uuid × Uuid) := []

inductive Label where
  | start (sessionId connectionId : Uuid)
  | release (worker : ℕ)
  | finish (worker : ℕ)
  | cancelConnection (sessionId connectionId : Uuid)
  /-- `cancel_connection` returns. -/
  | joined
  | shutdown
  /-- `shutdown` empties the table. -/
  | take

namespace State

variable (s : State)

def remove (sessionId : Uuid) : State := { s with tasks := Function.update s.tasks sessionId none }

def isCancelled (worker : ℕ) : Prop := s.shutdown = true ∨ worker ∈ s.cancelled

def start (sessionId connectionId : Uuid) : State × Bool :=
  if s.shutdown || (s.tasks sessionId).any (s.unfinished.contains ·.worker) then (s, false)
  else
    let s := s.remove sessionId
    if maxActivePreviews ≤ s.slots.length then (s, false)
    else
      let worker := s.jobs.length
      ({ s with
          tasks := Function.update s.tasks sessionId (some ⟨connectionId, worker⟩)
          slots := worker :: s.slots
          unfinished := worker :: s.unfinished
          jobs := s.jobs ++ [(sessionId, connectionId)] }, true)

def cancelConnection (sessionId connectionId : Uuid) : State :=
  match s.tasks sessionId with
  | none => s
  | some task =>
    if task.connectionId ≠ connectionId then s
    else
      { s.remove sessionId with
        cancelled := task.worker :: s.cancelled
        waiting := some task.worker }

end State

def step (s : State) : Label → Option State
  | .start sessionId connectionId =>
    if s.waiting = none then some (s.start sessionId connectionId).1 else none
  | .release worker =>
    if worker ∈ s.slots then some { s with slots := s.slots.erase worker } else none
  | .finish worker =>
    if worker ∉ s.slots then some { s with unfinished := s.unfinished.filter (· ≠ worker) } else none
  | .cancelConnection sessionId connectionId =>
    if s.waiting = none then some (s.cancelConnection sessionId connectionId) else none
  | .joined =>
    if s.waiting.all (· ∉ s.unfinished) then some { s with waiting := none } else none
  | .shutdown => some { s with shutdown := true }
  | .take =>
    if s.shutdown = true ∧ s.waiting = none ∧ s.joining = none then
      some { s with tasks := fun _ => none, joining := some s.tasks }
    else none

def machine : Machine State Label := ⟨{}, step⟩

/-- The worker of a job is in the table, or was told to stop and is waited for. -/
def State.Owns (s : State) (id connectionId : Uuid) (w : ℕ) : Prop :=
  s.tasks id = some ⟨connectionId, w⟩ ∨ s.isCancelled w ∧
    (s.waiting = some w ∨ ∃ taken, s.joining = some taken ∧ taken id = some ⟨connectionId, w⟩)

structure Inv (s : State) : Prop where
  slots : s.slots.length ≤ maxActivePreviews
  owned : ∀ w ∈ s.unfinished, ∃ id c, s.jobs[w]? = some (id, c) ∧ s.Owns id c w
  stopped : s.joining.isSome = true → s.shutdown = true ∧ s.tasks = (fun _ => none) ∧
    s.waiting = none

variable {s s' : State}

theorem update_eq {tasks : Uuid → Option PreviewTask} {id id' : Uuid} {task : PreviewTask}
    (v : Option PreviewTask) (h : tasks id = some task) (hne : tasks id' ≠ some task) :
    Function.update tasks id' v id = some task := by
  rw [Function.update_of_ne, h]
  rintro rfl
  exact hne h

theorem Inv.start (h : Inv s) (id c : Uuid) : Inv (s.start id c).1 := by
  unfold State.start
  split
  · exact h
  next hidle =>
    simp only [Bool.or_eq_true, Option.any_eq_true, List.contains_iff_mem, not_or, not_exists,
      not_and] at hidle
    have howned : ∀ w ∈ s.unfinished, ∃ id' c', s.jobs[w]? = some (id', c') ∧
        (s.remove id).Owns id' c' w := fun w hw => by
      obtain ⟨id', c', hjob, howns⟩ := h.owned w hw
      exact ⟨id', c', hjob, howns.imp_left (update_eq none · fun htask => hidle.2 _ htask hw)⟩
    have hopen := fun hj => hidle.1 (h.stopped hj).1
    dsimp only
    split
    · exact ⟨h.slots, howned, fun hj => (hopen hj).elim⟩
    next hslots =>
      refine ⟨Nat.lt_of_not_le hslots, fun w hw => ?_, fun hj => (hopen hj).elim⟩
      obtain rfl | hw := List.mem_cons.1 hw
      · exact ⟨id, c, List.getElem?_concat_length, .inl (Function.update_self ..)⟩
      · obtain ⟨id', c', hjob, howns⟩ := howned w hw
        refine ⟨id', c', ?_, howns.imp_left (update_eq _ · (by simp [State.remove]))⟩
        exact (List.getElem?_append_left (List.getElem?_eq_some_iff.1 hjob).1).trans hjob

theorem cancelConnection_tasks (id c : Uuid) (w : ℕ) :
    (s.cancelConnection id c).tasks id ≠ some ⟨c, w⟩ := by
  unfold State.cancelConnection
  split
  next h => simp [h]
  next task h =>
    split
    next hne => exact fun htask => hne (Option.some.inj (h.symm.trans htask) ▸ rfl)
    · simp [State.remove]

theorem Inv.cancelConnection (h : Inv s) (hwait : s.waiting = none) (id c : Uuid) :
    Inv (s.cancelConnection id c) := by
  unfold State.cancelConnection
  split
  · exact h
  next task hfind =>
    split
    · exact h
    refine ⟨h.slots, fun w hw => ?_, fun hj => ?_⟩
    · obtain ⟨id', c', hjob, howns⟩ := h.owned w hw
      refine ⟨id', c', hjob, ?_⟩
      obtain htask | ⟨hc, hjoin⟩ := howns
      · by_cases heq : s.tasks id = some ⟨c', w⟩
        · obtain rfl := Option.some.inj (hfind.symm.trans heq)
          exact .inr ⟨.inr List.mem_cons_self, .inl rfl⟩
        · exact .inl (update_eq none htask heq)
      · exact .inr ⟨hc.imp_right (List.mem_cons_of_mem _),
          .inr (hjoin.resolve_left (by simp [hwait]))⟩
    · simp [(h.stopped hj).2.1] at hfind

theorem Inv.step {l : Label} (h : Inv s) (hs : step s l = some s') : Inv s' := by
  cases l <;> simp only [Previews.step, Option.ite_none_right_eq_some, Option.some.injEq] at hs
  case start => exact hs.2 ▸ h.start _ _
  case cancelConnection => exact hs.2 ▸ h.cancelConnection hs.1 _ _
  case release => exact hs.2 ▸ { h with slots := Nat.le_trans List.erase_sublist.length_le h.slots }
  case finish => exact hs.2 ▸ { h with owned := fun w hw => h.owned w (List.mem_of_mem_filter hw) }
  case joined =>
    obtain ⟨hdone, rfl⟩ := hs
    refine ⟨h.slots, fun w hw => ?_, fun hj => ⟨(h.stopped hj).1, (h.stopped hj).2.1, rfl⟩⟩
    obtain ⟨id, c, hjob, howns⟩ := h.owned w hw
    refine ⟨id, c, hjob, howns.imp_right (.imp_right fun hjoin => .inr (hjoin.resolve_left ?_))⟩
    rintro hwait
    simp [hwait, hw] at hdone
  case shutdown =>
    refine hs ▸ ⟨h.slots, fun w hw => ?_, fun hj => ⟨rfl, (h.stopped hj).2⟩⟩
    obtain ⟨id, c, hjob, howns⟩ := h.owned w hw
    exact ⟨id, c, hjob, howns.imp_right (.imp_left fun _ => .inl rfl)⟩
  case take =>
    obtain ⟨⟨hstop, hwait, hjoin⟩, rfl⟩ := hs
    refine ⟨h.slots, fun w hw => ?_, fun _ => ⟨hstop, rfl, hwait⟩⟩
    obtain ⟨id, c, hjob, howns⟩ := h.owned w hw
    have htask : s.tasks id = some ⟨c, w⟩ := by simpa [State.Owns, hwait, hjoin] using howns
    exact ⟨id, c, hjob, .inr ⟨.inl hstop, .inr ⟨_, rfl, htask⟩⟩⟩

theorem reachable_inv (h : machine.Reachable s) : Inv s :=
  h.invariant ⟨by decide, by simp [machine], by simp [machine]⟩ fun _ _ _ _ h hs => h.step hs

/-- **Every worker is accounted for.** At most four hold a slot. One that has not finished is in the
table under its own session, or was told to stop and is waited for. After `cancel_connection` the
workers of the connection were told to stop, and when `shutdown` has returned there are none. -/
theorem previews_accounted (h : machine.Reachable s) :
    s.slots.length ≤ maxActivePreviews ∧
      (∀ w ∈ s.unfinished, ∃ id c, s.jobs[w]? = some (id, c) ∧ s.Owns id c w) ∧
      (∀ id c s', step s (.cancelConnection id c) = some s' →
        ∀ w ∈ s'.unfinished, s'.jobs[w]? = some (id, c) → s'.isCancelled w) ∧
      ∀ taken, s.joining = some taken →
        (∀ id task, taken id = some task → task.worker ∉ s.unfinished) → s.unfinished = [] := by
  have hinv := reachable_inv h
  refine ⟨hinv.slots, hinv.owned, fun id c s' hs w hw hjob => ?_, fun taken hjoin hdone => ?_⟩
  · obtain ⟨id', c', hjob', howns⟩ := (hinv.step hs).owned w hw
    obtain ⟨rfl, rfl⟩ := Prod.mk.inj (Option.some.inj (hjob'.symm.trans hjob))
    simp only [step, Option.ite_none_right_eq_some, Option.some.injEq] at hs
    exact (howns.resolve_left (hs.2 ▸ cancelConnection_tasks id' c' w)).1
  · refine List.eq_nil_iff_forall_not_mem.2 fun w hw => ?_
    obtain ⟨-, htasks, hwait⟩ := hinv.stopped (hjoin ▸ rfl)
    obtain ⟨id, c, -, howns⟩ := hinv.owned w hw
    have htask : s.isCancelled w ∧ taken id = some ⟨c, w⟩ := by
      simpa [State.Owns, htasks, hwait, hjoin] using howns
    exact hdone id _ htask.2 hw

/-- One of two connections is cancelled; and a worker is left when `shutdown` has emptied the table,
and then finishes. -/
theorem previews_accounted_started :
    (∃ s s', machine.Reachable s ∧ step s (.cancelConnection 1 2) = some s' ∧
      s'.unfinished = [1, 0] ∧ s'.isCancelled 0) ∧
    (∃ s, machine.Reachable s ∧ s.unfinished = [0] ∧ s.tasks 1 = none ∧
      ∃ id c, s.jobs[0]? = some (id, c) ∧ s.Owns id c 0) ∧
    ∃ s, machine.Reachable s ∧ s.joining.isSome = true ∧ s.unfinished = [] := by
  have hstarted : machine.Reachable _ := ⟨[.start 1 2, .start 3 4], rfl⟩
  have htaken : machine.Reachable _ := ⟨[.start 1 2, .shutdown, .take], rfl⟩
  have hdone : machine.Reachable _ := ⟨[.start 1 2, .shutdown, .take, .release 0, .finish 0], rfl⟩
  obtain ⟨-, -, hcancel, -⟩ := previews_accounted hstarted
  obtain ⟨-, howned, -⟩ := previews_accounted htaken
  obtain ⟨-, -, -, hjoined⟩ := previews_accounted hdone
  exact ⟨⟨_, _, hstarted, rfl, rfl, hcancel 1 2 _ rfl 0 (by decide) rfl⟩,
    ⟨_, htaken, rfl, rfl, howned 0 (by decide)⟩,
    _, hdone, rfl, hjoined _ rfl fun _ _ _ => List.not_mem_nil⟩

end GlobalProtect.Service.Previews
