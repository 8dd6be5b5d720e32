import Mathlib.Data.Finset.Card
import Mathlib.Data.List.Nodup
import GlobalProtect.Service.Lifecycle.Effects

/-! # Single ownership of the attempt

Three facts about every reachable state. The numbers `reserve_connect` hands out count up modulo
the word size, so they are distinct exactly as long as the counter has not wrapped
(`handedOut_nodup_iff`). One place at most holds an attempt, and the admission is that attempt's.
A `Start` that reaches the head of the queue finds no active attempt, nothing being joined and no
worker; and the admission that the end of an attempt releases is the ended attempt's own. -/

namespace GlobalProtect.Service.Lifecycle

open Lib Api

/-! ### Attempt numbers -/

def Entry.number : Entry → Option ℕ
  | .handed attempt _ => some attempt
  | _ => none

/-- The attempt numbers handed out so far, in order. -/
def handedOut (log : List Entry) : List ℕ := log.filterMap Entry.number

/-- The numbers handed out are those of a counter that wraps. -/
structure Numbered (c : Core) : Prop where
  handed : handedOut c.log = (List.range (handedOut c.log).length).map (· % wordSize)
  next : c.admissions.nextAttempt = (handedOut c.log).length % wordSize

theorem handedOut_append (l l' : List Entry) : handedOut (l ++ l') = handedOut l ++ handedOut l' :=
  List.filterMap_append

theorem Numbered.of_log {c c' : Core} (h : Numbered c) {d : List Entry} (hl : c'.log = c.log ++ d)
    (hd : handedOut d = []) (hn : c'.admissions.nextAttempt = c.admissions.nextAttempt) :
    Numbered c' := by
  have hh : handedOut c'.log = handedOut c.log := by rw [hl, handedOut_append, hd, List.append_nil]
  exact ⟨by rw [hh]; exact h.handed, by rw [hh, hn]; exact h.next⟩

theorem Numbered.effect {c c' : Core} (h : Numbered c) (he : Effect c c') : Numbered c' := by
  cases he with
  | reserve restart =>
    have hh : handedOut (c.log ++ [.handed c.admissions.nextAttempt c.fresh]) =
        handedOut c.log ++ [c.admissions.nextAttempt] := handedOut_append _ _
    refine ⟨?_, ?_⟩
    · simp only [hh, List.length_append, List.length_singleton, List.range_succ, List.map_append,
        List.map_cons, List.map_nil, ← h.handed, ← h.next]
    · rw [hh, List.length_append, List.length_singleton, wrappingAdd, h.next]
      exact Nat.mod_add_mod _ _ _
  | pend | close | note | take => exact h.of_log (List.append_nil _).symm rfl rfl
  | release | disconnectIdle | forget | stop | stopAgain | cancel | startActive | startRefused
  | disconnecting | connecting | connected | join => exact h.of_log rfl rfl rfl

theorem reachable_numbered {inst : Uuid} {s : State} (h : (machine inst).Reachable s) :
    Numbered s.core :=
  reachable_core ⟨rfl, rfl⟩ (fun _ _ hp he => hp.effect he) h

theorem handedOut_nodup_iff {c : Core} (h : Numbered c) :
    (handedOut c.log).Nodup ↔ (handedOut c.log).length ≤ wordSize := by
  constructor
  · intro hn
    have hsub : (handedOut c.log).toFinset ⊆ Finset.range wordSize := by
      intro n hmem
      rw [List.mem_toFinset, h.handed] at hmem
      obtain ⟨i, -, rfl⟩ := List.mem_map.mp hmem
      exact Finset.mem_range.mpr (Nat.mod_lt _ (by unfold wordSize; omega))
    simpa [List.toFinset_card_of_nodup hn] using Finset.card_le_card hsub
  · intro hle
    have hid : (List.range (handedOut c.log).length).map (· % wordSize) =
        List.range (handedOut c.log).length := by
      refine (List.map_congr_left fun i hi => ?_).trans (List.map_id _)
      exact Nat.mod_eq_of_lt (lt_of_lt_of_le (List.mem_range.mp hi) hle)
    rw [h.handed, hid]
    exact List.nodup_range

/-! ### The counter wraps -/

theorem reserve_release {inst : Uuid} {s : State} (hr : (machine inst).Reachable s)
    (hh : s.Holds .idle) (hcl : s.admissions.closed = false) :
    ∃ s', (machine inst).Reachable s' ∧ s'.Holds .idle ∧ s'.admissions.closed = false ∧
      (handedOut s'.log).length = (handedOut s.log).length + 1 := by
  have hc : s.admissions.current = none :=
    Option.map_eq_none_iff.mp (congrArg View.current hh.view_eq)
  obtain ⟨s₁, r, h₁⟩ : ∃ s₁ r, s.reserveConnect none = .ok (s₁, r) := by
    simp [State.reserveConnect, hcl, hc]
  have hlog : s₁.log = s.log ++ [.handed s.admissions.nextAttempt s.fresh] ∧
      s₁.admissions.closed = false := by
    simp only [State.reserveConnect, hcl, hc, Option.isSome_none, Bool.false_eq_true, if_false,
      false_and, Except.ok.injEq, Prod.mk.injEq] at h₁
    obtain ⟨rfl, rfl⟩ := h₁
    exact ⟨rfl, rfl⟩
  have hh₁ := (holds_reserve hh h₁).2.1
  obtain ⟨q, hq⟩ : ∃ q, s₁.reservations = [q] := by
    obtain ⟨q, hq, -⟩ := List.map_eq_singleton_iff.mp (congrArg View.reserved hh₁.view_eq)
    exact ⟨q, hq⟩
  have hmem : q ∈ s₁.reservations := by rw [hq]; exact List.mem_singleton_self q
  have hr₁ : (machine inst).Reachable s₁ :=
    hr.next (l := .reserve none) (by simp [machine, step, h₁])
  refine ⟨s₁.dropReservation q, hr₁.next (l := .dropReservation q) (by simp [machine, step, hmem]),
    (holds_dropReservation hh₁ hmem).2.1, ?_, ?_⟩
  · unfold State.dropReservation State.clearAttempt
    simp only
    split
    · exact hlog.2
    · split_ifs <;> exact hlog.2
  · have hl : (s₁.dropReservation q).log = s₁.log ++ [.cancelled q.cancellation] := by
      unfold State.dropReservation State.clearAttempt
      simp only
      split
      · rfl
      · split_ifs <;> rfl
    simp [hl, hlog.1, handedOut, Entry.number]

theorem reserve_release_many (inst : Uuid) :
    ∀ n : ℕ, ∃ s, (machine inst).Reachable s ∧ s.Holds .idle ∧ s.admissions.closed = false ∧
      (handedOut s.log).length = n
  | 0 => ⟨{}, Machine.Reachable.start (machine inst), holds_idle rfl rfl rfl rfl rfl rfl, rfl, rfl⟩
  | n + 1 => by
    obtain ⟨s, hr, hh, hcl, hn⟩ := reserve_release_many inst n
    obtain ⟨s', hr', hh', hcl', hn'⟩ := reserve_release hr hh hcl
    exact ⟨s', hr', hh', hcl', by rw [hn', hn]⟩

/-- Once the counter has wrapped, a number is handed out again. -/
theorem attempt_numbers_repeat :
    ∃ s, (machine 0).Reachable s ∧ ¬ (handedOut s.log).Nodup := by
  obtain ⟨s, hr, -, -, hn⟩ := reserve_release_many 0 (wordSize + 1)
  refine ⟨s, hr, fun hnd => ?_⟩
  have hle := (handedOut_nodup_iff (reachable_numbered hr)).mp hnd
  change (handedOut s.log).length ≤ wordSize at hle
  omega

/-! ### One owner -/

theorem State.Holds.holders_eq {s : State} {slot : Slot} (h : s.Holds slot) :
    s.holders = s.admissions.current.toList.map (·.attempt) := by
  have hv := h.view_eq
  have hres : s.reservations.map (·.attempt) = s.view.reserved.map Prod.fst := by
    simp [State.view, Function.comp_def, ConnectReservation.key]
  have hact : s.active.toList.map (·.attempt) = s.view.active.toList.map Prod.fst := by
    cases ha : s.active <;> simp [State.view, ActiveAttempt.key, ha]
  have hjoin : s.joining.toList.map (·.attempt) = s.view.joining.toList.map Prod.fst := by
    cases hj : s.joining <;> simp [State.view, ActiveAttempt.key, hj]
  have hcur : s.admissions.current.toList.map (·.attempt) = s.view.current.toList.map Prod.fst := by
    cases hc : s.admissions.current <;> simp [State.view, Admission.key, hc]
  have hq : s.queuedStarts = s.view.queued := rfl
  rw [State.holders, hres, hact, hjoin, hcur, hq, hv]
  cases slot <;> rfl

/-- **Single ownership**: numbers are distinct until the counter wraps; at most one attempt is
reserved, queued, active or being joined, and it is the admitted one; a `Start` at the head of the
queue finds no attempt and no worker to overwrite; the end of an attempt releases that attempt's
admission and completes it. -/
theorem attempt_single_owner (inst : Uuid) (s : State) (h : (machine inst).Reachable s) :
    ((handedOut s.log).length ≤ wordSize → (handedOut s.log).Nodup) ∧
    s.holders.length ≤ 1 ∧
    (∀ n ∈ s.holders, ∃ a, s.admissions.current = some a ∧ a.attempt = n) ∧
    (∀ n c sid q, s.events.queue = .start n c sid :: q →
      s.active = none ∧ s.joining = none ∧ s.workers = []) ∧
    (∀ act, s.joining = some act → ∃ a, s.admissions.current = some a ∧
      a.attempt = act.attempt ∧ a.cancellation = act.cancellation ∧
      ∀ hasSession, (s.afterJoin act hasSession).admissions.current = none ∧
        (s.afterJoin act hasSession).completed = insert a.completion s.completed) := by
  obtain ⟨slot, hh⟩ := reachable_holds h
  refine ⟨(handedOut_nodup_iff (reachable_numbered h)).mpr, ?_, ?_, ?_, ?_⟩
  · rw [hh.holders_eq]
    cases s.admissions.current <;> simp
  · intro n hn
    rw [hh.holders_eq] at hn
    obtain ⟨a, ha, rfl⟩ := List.mem_map.mp hn
    exact ⟨a, Option.mem_toList.mp ha, rfl⟩
  · intro n c sid q hq
    obtain ⟨t, hv, rfl⟩ := hh.pop_start hq
    obtain ⟨-, -, -, ha, hj⟩ := View.mk.inj hv
    exact ⟨Option.map_eq_none_iff.mp ha, Option.map_eq_none_iff.mp hj,
      hh.workers_nil (by rintro w ⟨⟩)⟩
  · intro act hj
    obtain rfl := hh.of_joining hj
    obtain ⟨a, hc, hk⟩ := Option.map_eq_some_iff.mp (congrArg View.current hh.view_eq)
    obtain ⟨hn, ht, -⟩ : a.attempt = act.attempt ∧ a.cancellation = act.cancellation ∧
      a.completion = act.cancellation := by simpa [Admission.key] using hk
    refine ⟨a, hc, hn, ht, fun hasSession => ?_⟩
    obtain ⟨offer, state, -, heq⟩ := afterJoin_eq hc hn hasSession
    rw [heq]
    exact ⟨rfl, rfl⟩

/-- The first attempt is queued: it is the only holder, and its start overwrites nothing. -/
theorem attempt_single_owner_queued : ∃ s, (machine 0).Reachable s ∧ s.holders = [0] ∧
    (handedOut s.log).Nodup ∧ s.workers = [] := by
  have hr : (machine 0).Reachable _ :=
    ⟨[.reserve none, .commit ⟨0, 0, false⟩ sampleRequest none], rfl⟩
  have howner := attempt_single_owner 0 _ hr
  exact ⟨_, hr, rfl, howner.1 (by decide), (howner.2.2.2.1 0 sampleRequest none [] rfl).2.2⟩

end GlobalProtect.Service.Lifecycle
