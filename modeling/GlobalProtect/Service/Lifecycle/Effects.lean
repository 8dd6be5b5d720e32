import Mathlib.Logic.Relation
import GlobalProtect.Service.Lifecycle.Slot

/-! # What a step can do

The histories of the lifecycle depend on a part of the state only: the admissions, the raised
flags, the published state, the attempts the actor owns, and the log. `Effect` lists the changes of
that part, each with the guard under which the code makes it. `step_advances` says that every step of a
state that holds a slot moves it along the life of an attempt, or not at all, and is a sequence of
effects (at most two). Invariants about what was handed out, published or offered are proved against
this list and never against the code again. -/

namespace GlobalProtect.Service.Lifecycle

open Lib Api Relation

/-- The part of the state that histories are about. -/
structure Core where
  admissions : Admissions := {}
  cancelled : Finset ℕ := ∅
  completed : Finset ℕ := ∅
  vpnState : VpnState := .disconnected
  active : Option ActiveAttempt := none
  joining : Option ActiveAttempt := none
  fresh : ℕ := 0
  log : List Entry := []

def State.core (s : State) : Core :=
  { s with }

/-- The admission a reservation creates. -/
def Admissions.fresh (a : Admissions) (token : ℕ) : Admission :=
  { attempt := a.nextAttempt, phase := .preparing, stopRequested := false, cancellation := token,
    completion := token }

/-- The admission after an accepted stop. -/
def Admission.stop (a : Admission) : Admission := { a with stopRequested := true, phase := .stopping }

/-- The admission belongs to the attempt the actor owns. -/
def Admission.Owns (a : Admission) (act : ActiveAttempt) : Prop :=
  a.attempt = act.attempt ∧ a.cancellation = act.cancellation ∧ a.completion = act.cancellation

/-- The changes of the core that the lifecycle makes. -/
inductive Effect : Core → Core → Prop
  /-- `reserve_connect` admits a connection, and spends the offer it was given. -/
  | reserve (c : Core) (restart : Option (ℕ × Uuid)) (hclosed : c.admissions.closed = false)
      (hcur : c.admissions.current = none)
      (hres : restart = none ∨ c.admissions.restart = restart) (ha : c.active = none)
      (hj : c.joining = none) :
      Effect c { c with
        admissions := { c.admissions with
          restart := none
          nextAttempt := wrappingAdd c.admissions.nextAttempt 1
          current := some (c.admissions.fresh c.fresh) }
        fresh := c.fresh + 1
        log := c.log ++ [.handed c.admissions.nextAttempt c.fresh] }
  /-- `commit` queues the start of a reserved attempt. -/
  | pend (c : Core) (a : Admission) (hc : c.admissions.current = some a) :
      Effect c { c with
        admissions := { c.admissions with current := some { a with phase := .pending } } }
  | release (c : Core) (a : Admission) (hc : c.admissions.current = some a) (ha : c.active = none)
      (hj : c.joining = none) :
      Effect c { c with
        admissions := { c.admissions with current := none }
        cancelled := insert a.cancellation c.cancelled
        completed := insert a.completion c.completed
        log := c.log ++ [.cancelled a.cancellation] }
  /-- `request_disconnect` while nothing is admitted. -/
  | disconnectIdle (c : Core) (hc : c.admissions.current = none) :
      Effect c { c with
        admissions := { c.admissions with restart := none }
        vpnState := .disconnected
        log := c.log ++ [.disconnectRequested, .published none .disconnected] }
  /-- `request_disconnect` while an attempt is admitted, before it stops the attempt. -/
  | forget (c : Core) (a : Admission) (hc : c.admissions.current = some a) :
      Effect c { c with
        admissions := { c.admissions with restart := none }
        log := c.log ++ [.disconnectRequested] }
  | stop (c : Core) (a : Admission) (hc : c.admissions.current = some a) :
      Effect c { c with
        admissions := { c.admissions with current := some a.stop }
        cancelled := insert a.cancellation c.cancelled
        log := c.log ++ [.stopRequested a.cancellation, .cancelled a.cancellation] }
  | stopAgain (c : Core) (a : Admission) (hc : c.admissions.current = some a)
      (hs : a.stopRequested = true) :
      Effect c { c with log := c.log ++ [.stopRequested a.cancellation] }
  | close (c : Core) : Effect c { c with admissions := { c.admissions with closed := true } }
  | cancel (c : Core) (token : ℕ) :
      Effect c { c with
        cancelled := insert token c.cancelled, log := c.log ++ [.cancelled token] }
  /-- The actor starts an attempt that is still wanted. -/
  | startActive (c : Core) (a : Admission) (act : ActiveAttempt)
      (hc : c.admissions.current = some a) (ha : c.active = none) (hj : c.joining = none)
      (ho : a.Owns act) (hstop : a.stopRequested = false) (hcan : a.cancellation ∉ c.cancelled) :
      Effect c { c with
        admissions := { c.admissions with current := some { a with phase := .active } }
        active := some act
        vpnState := .connecting act.info
        log := c.log ++ [.published (some act.cancellation) (.connecting act.info)] }
  /-- The actor starts an attempt only to drain it. -/
  | startRefused (c : Core) (a : Admission) (act : ActiveAttempt)
      (hc : c.admissions.current = some a) (ha : c.active = none) (hj : c.joining = none)
      (ho : a.Owns act) :
      Effect c { c with
        cancelled := insert act.cancellation c.cancelled
        active := some act
        log := c.log ++ [.cancelled act.cancellation] }
  | disconnecting (c : Core) (a : Admission) (act : ActiveAttempt) (ha : c.active = some act)
      (hc : c.admissions.current = some a) (hs : a.stopRequested = true) :
      Effect c { c with
        vpnState := .disconnecting
        cancelled := insert act.cancellation c.cancelled
        log := c.log ++ [.published (some act.cancellation) .disconnecting,
          .cancelled act.cancellation] }
  | connecting (c : Core) (act : ActiveAttempt) (ha : c.active = some act)
      (hcan : act.cancellation ∉ c.cancelled) :
      Effect c { c with
        vpnState := .connecting act.info
        log := c.log ++ [.published (some act.cancellation) (.connecting act.info)] }
  | connected (c : Core) (a : Admission) (act : ActiveAttempt) (info : ConnectedInfo)
      (ha : c.active = some act) (hcan : act.cancellation ∉ c.cancelled)
      (hc : c.admissions.current = some a) (hs : a.stopRequested = false) :
      Effect c { c with
        vpnState := .connected info
        log := c.log ++ [.published (some act.cancellation) (.connected info)] }
  /-- The worker's failure or its wish to reconnect is noted. -/
  | note (c : Core) (act act' : ActiveAttempt) (ha : c.active = some act) (hk : act'.key = act.key) :
      Effect c { c with active := some act' }
  | take (c : Core) (act : ActiveAttempt) (ha : c.active = some act) :
      Effect c { c with active := none, joining := some act }
  | join (c : Core) (a : Admission) (act : ActiveAttempt) (offer : Option (ℕ × Uuid))
      (state : VpnState) (hc : c.admissions.current = some a) (ha : c.active = none)
      (hj : c.joining = some act) (ho : a.Owns act)
      (hout : (∃ owner, offer = some (act.attempt, owner) ∧
          state = .reconnectRequired ⟨act.attempt, owner, act.info⟩ ∧
          act.cancellation ∉ c.cancelled ∧ a.stopRequested = false) ∨
        (offer = none ∧ (state = .disconnected ∨ ∃ reason, state = .failed reason))) :
      Effect c { c with
        joining := none
        admissions := { c.admissions with
          current := none, restart := if offer = none then c.admissions.restart else offer }
        completed := insert a.completion c.completed
        vpnState := state
        log := c.log ++ [.published (some act.cancellation) state,
          .ended act.cancellation offer] }

/-- A sequence of effects. -/
abbrev Effects : Core → Core → Prop := ReflTransGen Effect

theorem Effect.cast {c d d' : Core} (h : Effect c d) (hd : d = d') : Effect c d' := hd ▸ h

variable {s s' : State} {slot : Slot}

/-- A part of a step that leaves the slot alone. -/
structure Quiet (s s' : State) : Prop where
  framed : Framed s s'
  effects : Effects s.core s'.core

theorem Quiet.refl (s : State) : Quiet s s := ⟨.refl s, .refl⟩

theorem Quiet.trans {s₁ s₂ s₃ : State} (h : Quiet s₁ s₂) (h' : Quiet s₂ s₃) : Quiet s₁ s₃ :=
  ⟨h.framed.trans h'.framed, h.effects.trans h'.effects⟩

/-- A step that moves the slot along the life of an attempt, or not at all. -/
def Advances (slot : Slot) (s s' : State) : Prop :=
  (∃ slot', (slot' = slot ∨ slot.Next slot') ∧ s'.Holds slot') ∧ Effects s.core s'.core

theorem Quiet.advances (h : s.Holds slot) (hq : Quiet s s') : Advances slot s s' :=
  ⟨⟨slot, .inl rfl, h.frame hq.framed⟩, hq.effects⟩

/-! ### The handle -/

theorem holds_reserve {restart : Option (ℕ × Uuid)} {r : ConnectReservation} (h : s.Holds slot)
    (hr : s.reserveConnect restart = .ok (s', r)) :
    slot = .idle ∧ s'.Holds (.reserved r.attempt r.cancellation) ∧ Effect s.core s'.core := by
  unfold State.reserveConnect at hr
  split_ifs at hr with h₁ h₂ h₃
  simp only [Except.ok.injEq, Prod.mk.injEq] at hr
  obtain ⟨rfl, rfl⟩ := hr
  have hc : s.admissions.current = none := by simpa using h₂
  obtain rfl := h.of_current_none hc
  obtain ⟨-, hv, hq, ha, hj⟩ := View.mk.inj h.view_eq
  refine ⟨rfl, ⟨?_, fun w hw => h.workers w hw, ?_⟩, .reserve s.core restart
    (eq_false_of_ne_true h₁) hc ?_ (Option.map_eq_none_iff.mp ha) (Option.map_eq_none_iff.mp hj)⟩
  · simp only [State.view, Slot.view, View.mk.injEq]
    exact ⟨rfl, by simp [List.map_eq_nil_iff.mp hv, ConnectReservation.key], hq, ha, hj⟩
  · rintro t ⟨rfl⟩
    exact Nat.lt_succ_self _
  · cases restart with
    | none => exact Or.inl rfl
    | some r =>
      have hrestart : s.admissions.restart = some r := by simpa using h₃
      exact Or.inr hrestart

theorem quiet_requestDisconnect (s : State) : Quiet s s.requestDisconnect.1 := by
  unfold State.requestDisconnect
  cases hc : s.admissions.current with
  | none =>
    simp only [hc]
    refine ⟨⟨?_, rfl, rfl⟩, .single ((Effect.disconnectIdle s.core hc).cast ?_)⟩
    · simp [State.view, State.sendState, State.queuedStarts, hc]
    · simp [State.core, State.sendState, hc]
  | some a =>
    have hf := ReflTransGen.single (Effect.forget s.core a hc)
    simp only [hc]
    split_ifs with hs
    · refine ⟨⟨?_, rfl, rfl⟩, hf.tail ((Effect.stopAgain _ a hc hs).cast ?_)⟩
      · simp [State.view, State.record, State.queuedStarts, hc]
      · simp [State.core, State.record, hc]
    · refine ⟨framed_admission hc rfl rfl (queuedStarts_offer rfl _) rfl rfl rfl rfl rfl,
        hf.tail ((Effect.stop _ a hc).cast ?_)⟩
      simp [State.core, State.record, State.cancel, Admission.stop]

theorem quiet_disconnectAndWait (s : State) : Quiet s s.disconnectAndWait.1 := by
  unfold State.disconnectAndWait
  cases hc : s.admissions.current with
  | none => exact .refl s
  | some a =>
    simp only
    split_ifs with hs
    · exact ⟨⟨rfl, rfl, rfl⟩, .single (.stopAgain s.core a hc hs)⟩
    · refine ⟨framed_admission hc rfl rfl (queuedStarts_offer rfl _) rfl rfl rfl rfl rfl,
        .single ((Effect.stop s.core a hc).cast ?_)⟩
      simp [State.core, State.record, State.cancel, Admission.stop]

theorem quiet_closeAdmission (s : State) : Quiet s s.closeAdmission := by
  have hclose := ReflTransGen.single (Effect.close s.core)
  unfold State.closeAdmission
  cases hc : s.admissions.current with
  | none =>
    simp only [hc]
    refine ⟨⟨?_, rfl, rfl⟩, .single ((Effect.close s.core).cast ?_)⟩
    · simp [State.view, State.queuedStarts, hc]
    · simp [State.core, hc]
  | some a =>
    simp only [hc]
    refine ⟨framed_admission hc rfl rfl rfl rfl rfl rfl rfl rfl,
      hclose.tail ((Effect.stop _ a hc).cast ?_)⟩
    simp [State.core, State.record, State.cancel, Admission.stop]

theorem holds_commit (h : s.Holds slot) {r : ConnectReservation} (hr : r ∈ s.reservations)
    (c : ConnectRequest) (sid : Option Uuid) : Advances slot s (s.commit r c sid).1 := by
  obtain ⟨rfl, hl⟩ := h.of_reservation hr
  have hv := h.view_eq
  have hw := h.workers_nil (by rintro w ⟨⟩)
  -- a reservation whose commit failed still holds the slot until it is dropped
  have hfail : Advances (.reserved r.attempt r.cancellation) s { s with
      reservations := s.reservations.replace r { r with consumed := true } } := by
    refine Quiet.advances h ⟨⟨?_, rfl, rfl⟩, .refl⟩
    simp only [State.view, View.mk.injEq]
    exact ⟨trivial, by simp [hl, ConnectReservation.key], rfl, trivial, trivial⟩
  unfold State.commit
  simp only
  split_ifs
  · exact hfail
  · split
    · exact hfail
    · next a hf =>
      obtain ⟨hc, hn⟩ := Option.filter_eq_some_iff.mp hf
      split_ifs
      · exact hfail
      · split
        · next ev he =>
          obtain ⟨-, -, rfl⟩ := Channel.trySend_ok.mp he
          refine ⟨⟨_, .inr (.commit _ _), ?_, by simp [hw], h.token_lt⟩, .single (.pend s.core a hc)⟩
          simp only [State.view, Slot.view, View.mk.injEq, hc, Option.map_some] at hv ⊢
          refine ⟨hv.1, by simp [hl], ?_, hv.2.2.2.1, hv.2.2.2.2⟩
          have hq := hv.2.2.1
          simp only [State.queuedStarts] at hq ⊢
          simp [hq, LifecycleEvent.startOf]
        · exact hfail
        · exact hfail

theorem holds_dropReservation (h : s.Holds slot) {r : ConnectReservation}
    (hr : r ∈ s.reservations) :
    slot = .reserved r.attempt r.cancellation ∧ (s.dropReservation r).Holds .idle ∧
      Effect s.core (s.dropReservation r).core := by
  obtain ⟨rfl, hl⟩ := h.of_reservation hr
  obtain ⟨hcur, -, hq, ha, hj⟩ := View.mk.inj h.view_eq
  obtain ⟨a, hc, hk⟩ := Option.map_eq_some_iff.mp hcur
  obtain ⟨hn, ht, -⟩ : a.attempt = r.attempt ∧ a.cancellation = r.cancellation ∧
    a.completion = r.cancellation := by simpa [Admission.key] using hk
  have ha := Option.map_eq_none_iff.mp ha
  have hj := Option.map_eq_none_iff.mp hj
  have hclear := clearAttempt_eq (s := s.cancel r.cancellation) hc
  unfold State.dropReservation
  rw [← hn, hclear]
  refine ⟨by rw [hn], ?_, (Effect.release s.core a hc ha hj).cast (by rw [ht]; rfl)⟩
  exact holds_idle rfl (by simp [State.cancel, hl]) (by rw [← hq]; exact queuedStarts_offer rfl _)
    ha hj (h.workers_nil (by rintro w ⟨⟩))

/-! ### The actor -/

theorem isCancelled_eq_false {t : ℕ} : s.isCancelled t = false ↔ t ∉ s.cancelled := by
  simp [State.isCancelled]

theorem holds_startAttempt {n t : ℕ} (hv : s.view = ⟨some (n, t, t), [], [], none, none⟩)
    (hw : s.workers = []) (ht : t < s.fresh) (inst : Uuid) (c : ConnectRequest)
    (sid : Option Uuid) :
    (s.startAttempt inst n c sid).Holds (.running n t s.spawned) ∧
      Effect s.core (s.startAttempt inst n c sid).core := by
  obtain ⟨hcur, hr, hq, ha, hj⟩ := View.mk.inj hv
  obtain ⟨a, hc, hk⟩ := Option.map_eq_some_iff.mp hcur
  obtain ⟨rfl, rfl, hcompl⟩ : a.attempt = n ∧ a.cancellation = t ∧ a.completion = t := by
    simpa [Admission.key] using hk
  have ha' : s.core.active = none := Option.map_eq_none_iff.mp ha
  have hj' : s.core.joining = none := Option.map_eq_none_iff.mp hj
  have ho : a.Owns (startedAttempt inst a c sid s.spawned) := ⟨rfl, rfl, hcompl⟩
  by_cases hp : s.Activatable a
  · rw [startAttempt_activated hc hp]
    refine ⟨⟨?_, by simp [State.sendState, hw, Slot.Runs], by rintro _ ⟨rfl⟩; exact ht⟩,
      .startActive s.core a _ hc ha' hj' ho hp.1 (isCancelled_eq_false.mp hp.2.1)⟩
    simp only [State.view, State.sendState, Slot.view, View.mk.injEq]
    exact ⟨by simp [Admission.key, hcompl], hr, hq, rfl, hj⟩
  · rw [startAttempt_refused hc hp]
    refine ⟨⟨?_, by simp [hw, Slot.Runs], by rintro _ ⟨rfl⟩; exact ht⟩,
      .startRefused s.core a _ hc ha' hj' ho⟩
    simp only [State.view, State.cancel, Slot.view, View.mk.injEq]
    exact ⟨hcur, hr, hq, rfl, hj⟩

theorem quiet_stopAttempt (s : State) (n : ℕ) : Quiet s (s.stopAttempt n) := by
  unfold State.stopAttempt
  split
  · exact .refl s
  · next act ha =>
    split_ifs with hs
    · exact .refl s
    · push Not at hs
      rcases hc : s.admissions.current with _ | a
      · simp [State.isStopRequested, hc] at hs
      · have hstop : a.attempt = n ∧ a.stopRequested = true := by
          simpa [State.isStopRequested, hc] using hs.2
        refine ⟨⟨rfl, rfl, rfl⟩,
          .single ((Effect.disconnecting s.core a act ha hc hstop.2).cast ?_)⟩
        simp [State.core, State.sendState, State.cancel]

theorem quiet_establishAttempt (s : State) (now n : ℕ) (v : VpnSessionInfo) :
    Quiet s (s.establishAttempt now n v) := by
  unfold State.establishAttempt State.publishConnected
  split
  · exact .refl s
  · next act ha =>
    split_ifs with h₁ h₂ h₃
    · exact .refl s
    · exact .refl s
    · rcases hc : s.admissions.current with _ | a
      · simp [hc] at h₃
      · simp only [hc, Option.any_some, Bool.and_eq_true, Bool.not_eq_true'] at h₃
        exact ⟨⟨rfl, rfl, rfl⟩, .single (.connected s.core a act _ ha
          (isCancelled_eq_false.mp (by simpa using h₂)) hc h₃.2)⟩
    · exact .refl s

theorem quiet_publishMembers (s : State) (now n : ℕ) (ms : List GatewaySessionSummary)
    (fs : List GatewayFailureSummary) : Quiet s (s.publishMembers now n ms fs) := by
  unfold State.publishMembers
  split
  · exact .refl s
  · next act ha =>
    split_ifs with h₁ h₂ h₃
    · exact .refl s
    · exact .refl s
    · push Not at h₁
      have hcan := isCancelled_eq_false.mp (by simpa using h₁.2)
      rcases hc : s.admissions.current with _ | a
      · simp [hc] at h₃
      · simp only [hc, Option.all_some, Bool.or_eq_true, not_or, Bool.not_eq_true] at h₃
        exact ⟨⟨rfl, rfl, rfl⟩, .single (.connected s.core a act _ ha hcan hc h₃.2)⟩
    · push Not at h₁
      have hcan := isCancelled_eq_false.mp (by simpa using h₁.2)
      split
      · exact ⟨⟨rfl, rfl, rfl⟩, .single (.connecting s.core act ha hcan)⟩
      · exact .refl s

theorem quiet_shutdown (s : State) : Quiet s s.shutdown := by
  have hflag : Quiet s { s with shuttingDown := true } := ⟨⟨rfl, rfl, rfl⟩, .refl⟩
  have hclose := hflag.trans (quiet_closeAdmission _)
  unfold State.shutdown
  simp only
  split
  · exact hclose
  · exact hclose.trans (quiet_stopAttempt _ _)

theorem holds_endAttempt (h : s.Holds slot) (n : ℕ) : Advances slot s (s.endAttempt n) := by
  unfold State.endAttempt
  split
  · exact Quiet.advances h (.refl s)
  · next a hf =>
    have ha := (activeFor_eq_some hf).1
    obtain rfl := h.of_active ha
    refine ⟨⟨_, .inr (.end _ _ _), ?_, h.workers, h.token_lt⟩, .single (.take s.core a ha)⟩
    obtain ⟨hcur, hr, hq, -, hj⟩ := View.mk.inj h.view_eq
    simp only [State.view, Slot.view, View.mk.injEq]
    exact ⟨hcur, hr, hq, rfl, rfl⟩

theorem holds_afterJoin (h : s.Holds slot) {act : ActiveAttempt} (hj : s.joining = some act)
    (hw : ∀ w ∈ s.workers, w.task ≠ act.task) (hasSession : Bool) :
    Advances slot s (s.afterJoin act hasSession) := by
  obtain rfl := h.of_joining hj
  obtain ⟨hcur, hr, hq, ha, -⟩ := View.mk.inj h.view_eq
  obtain ⟨a, hc, hk⟩ := Option.map_eq_some_iff.mp hcur
  obtain ⟨hn, ht, hcompl⟩ : a.attempt = act.attempt ∧ a.cancellation = act.cancellation ∧
    a.completion = act.cancellation := by simpa [Admission.key] using hk
  have ha := Option.map_eq_none_iff.mp ha
  obtain ⟨offer, state, hout, heq⟩ := afterJoin_eq hc hn hasSession
  rw [heq]
  refine ⟨⟨.idle, .inr (.join _ _ _), holds_idle rfl (List.map_eq_nil_iff.mp hr) hq ha rfl ?_⟩,
    .single (.join s.core a act offer state hc ha hj ⟨hn, ht, hcompl⟩ ?_)⟩
  · exact List.eq_nil_iff_forall_not_mem.mpr fun w hm => hw w hm (h.workers w hm).1
  · cases hout with
    | reconnect owner _ _ hact _ hstop =>
      exact Or.inl ⟨owner, rfl, rfl, isCancelled_eq_false.mp hact, hstop⟩
    | disconnected => exact Or.inr ⟨rfl, Or.inl rfl⟩
    | failed reason => exact Or.inr ⟨rfl, Or.inr ⟨reason, rfl⟩⟩

theorem quiet_handleEvent (inst : Uuid) (now : ℕ) {e : LifecycleEvent} (hs : e.startOf = none)
    (he : ∀ n, e ≠ .ended n) : Quiet s (s.handleEvent inst now e) := by
  cases e with
  | tunnelMonitor n m =>
    simp only [State.handleEvent]
    split <;> exact ⟨⟨rfl, rfl, rfl⟩, .refl⟩
  | start n c sid => cases hs
  | stop n => exact quiet_stopAttempt s n
  | scriptTunSuspended n =>
    simp only [State.handleEvent]
    split
    · exact .refl s
    · next act ha =>
      obtain ⟨ha, hcan⟩ := Option.filter_eq_some_iff.mp ha
      exact ⟨⟨rfl, rfl, rfl⟩, .single (.connecting s.core act (activeFor_eq_some ha).1
        (isCancelled_eq_false.mp (by simpa using hcan)))⟩
  | reconnectRequired n | failed n reason =>
    simp only [State.handleEvent]
    split
    · exact .refl s
    · next act ha =>
      have ha := (activeFor_eq_some ha).1
      exact ⟨framed_active ha rfl, .single (.note s.core act _ ha rfl)⟩
  | established n v => exact quiet_establishAttempt s now n v
  | membersChanged n ms fs => exact quiet_publishMembers s now n ms fs
  | ended n => exact absurd rfl (he n)
  | preparationReleased => exact .refl s

theorem holds_handleEvent (h : s.Holds slot) (inst : Uuid) (now : ℕ) {e : LifecycleEvent}
    {q : List LifecycleEvent} (hq : s.events.queue = e :: q) :
    Advances slot s ((s.pop q).handleEvent inst now e) := by
  cases hs : e.startOf with
  | some n =>
    obtain ⟨c, sid, rfl⟩ : ∃ c sid, e = .start n c sid := by
      cases e <;> simp_all [LifecycleEvent.startOf]
    obtain ⟨t, hv, rfl⟩ := h.pop_start hq
    obtain ⟨hh, he⟩ := holds_startAttempt (s := s.pop q) hv (h.workers_nil (by rintro w ⟨⟩))
      (h.token_lt t rfl) inst c sid
    exact ⟨⟨.running n t s.spawned, Or.inr (.start n t s.spawned), hh⟩, .single he⟩
  | none =>
    have hp := h.frame (framed_pop hq hs)
    by_cases he : ∀ n, e ≠ .ended n
    · have hadvances := Quiet.advances hp (quiet_handleEvent inst now hs he)
      exact hadvances
    · push Not at he
      obtain ⟨n, rfl⟩ := he
      exact holds_endAttempt hp n

/-- **What a step can do**: a step of a state that holds a slot moves it along the life of an
attempt, or not at all, and is a sequence of effects. -/
theorem step_advances {inst : Uuid} {l : Label} (h : s.Holds slot) (hs : step inst s l = some s') :
    Advances slot s s' := by
  cases l with
  | reserve restart =>
    simp only [step] at hs
    split at hs
    · next s'' r hr =>
      cases hs
      obtain ⟨rfl, hh, he⟩ := holds_reserve h hr
      exact ⟨⟨_, Or.inr (.reserve _ _), hh⟩, .single he⟩
    · cases hs
      exact Quiet.advances h (.refl s)
  | commit r c sid =>
    obtain ⟨⟨hr, -⟩, rfl⟩ := Option.ite_some_none_eq_some.mp hs
    exact holds_commit h hr c sid
  | dropReservation r =>
    obtain ⟨hr, rfl⟩ := Option.ite_some_none_eq_some.mp hs
    obtain ⟨rfl, hh, he⟩ := holds_dropReservation h hr
    exact ⟨⟨_, Or.inr (.release _ _), hh⟩, .single he⟩
  | requestDisconnect =>
    cases hs
    exact Quiet.advances h (quiet_requestDisconnect s)
  | disconnectAndWait =>
    cases hs
    exact Quiet.advances h (quiet_disconnectAndWait s)
  | cancel token =>
    obtain ⟨-, rfl⟩ := Option.ite_some_none_eq_some.mp hs
    exact Quiet.advances h ⟨⟨rfl, rfl, rfl⟩, .single (.cancel s.core token)⟩
  | shutdown =>
    obtain ⟨-, rfl⟩ := Option.ite_some_none_eq_some.mp hs
    exact Quiet.advances h (quiet_shutdown s)
  | handle now =>
    simp only [step] at hs
    split at hs
    · next e q _ hq =>
      cases hs
      exact holds_handleEvent h inst now hq
    · cases hs
  | join hasSession =>
    simp only [step] at hs
    split at hs
    · next act hj =>
      obtain ⟨hw, rfl⟩ := Option.ite_some_none_eq_some.mp hs
      exact holds_afterJoin h hj (by simpa using hw) hasSession
    · cases hs
  | exit =>
    obtain ⟨⟨-, -, -, hc⟩, rfl⟩ := Option.ite_some_none_eq_some.mp hs
    obtain rfl := h.of_current_none hc
    have hclose := quiet_closeAdmission s
    refine Quiet.advances h ⟨hclose.framed.trans ⟨?_, rfl, rfl⟩, hclose.effects⟩
    have hq := congrArg View.queued (h.frame hclose.framed).view_eq
    simp only [State.view, View.mk.injEq]
    exact ⟨trivial, trivial, hq.symm, trivial, trivial⟩
  | emit task event =>
    simp only [step] at hs
    split at hs
    · split at hs
      · next hsend =>
        cases hs
        exact Quiet.advances h ⟨framed_send (startOf_toEvent _ _) hsend, .refl⟩
      · cases hs
    · cases hs
  | finish task =>
    simp only [step] at hs
    split at hs
    · split at hs
      · next hsend =>
        cases hs
        have hf := framed_send (s := s) rfl hsend
        refine ⟨⟨slot, Or.inl rfl, hf.view.trans h.view_eq, ?_, h.token_lt⟩, .refl⟩
        intro w' hw'
        obtain ⟨v, hv, rfl⟩ := List.mem_map.mp hw'
        have hruns := h.workers v hv
        split_ifs
        · cases slot <;> exact hruns
        · exact hruns
      · cases hs
    · cases hs
  | workerReturn task =>
    obtain ⟨-, rfl⟩ := Option.ite_some_none_eq_some.mp hs
    exact ⟨⟨slot, Or.inl rfl, h.view_eq, fun w hw => h.workers w (List.mem_of_mem_filter hw),
      h.token_lt⟩, .refl⟩

theorem reachable_holds {inst : Uuid} (h : (machine inst).Reachable s) : ∃ slot, s.Holds slot := by
  refine h.invariant (P := fun s => ∃ slot, s.Holds slot)
    ⟨.idle, holds_idle rfl rfl rfl rfl rfl rfl⟩ ?_
  rintro s l s' - ⟨slot, hh⟩ hs
  obtain ⟨⟨slot', -, hh'⟩, -⟩ := step_advances hh hs
  exact ⟨slot', hh'⟩

theorem Effects.keep {P : Core → Prop} (heff : ∀ c c', P c → Effect c c' → P c') {c c' : Core}
    (h : Effects c c') (hp : P c) : P c' := by
  induction h with
  | refl => exact hp
  | tail _ he ih => exact heff _ _ ih he

/-- **Effect rule**: what holds initially and is kept by every effect holds of the core of every
reachable state. -/
theorem reachable_core {inst : Uuid} {P : Core → Prop} (hinit : P {})
    (heff : ∀ c c', P c → Effect c c' → P c') (h : (machine inst).Reachable s) : P s.core := by
  refine h.invariant (P := fun s => P s.core) hinit ?_
  intro s l s' hr hp hs
  obtain ⟨slot, hh⟩ := reachable_holds hr
  exact Effects.keep heff (step_advances hh hs).2 hp

/-! ### Ownership of the core -/

/-- The actor's attempt is the admitted one, and tokens are allocated. -/
structure Core.Owned (c : Core) : Prop where
  current_lt : ∀ a, c.admissions.current = some a → a.cancellation < c.fresh
  active : ∀ act, c.active = some act →
    c.joining = none ∧ ∃ a, c.admissions.current = some a ∧ a.Owns act
  joining : ∀ act, c.joining = some act → ∃ a, c.admissions.current = some a ∧ a.Owns act

theorem Admission.Owns.of_key {a a' : Admission} {act act' : ActiveAttempt} (h : a.Owns act)
    (ha : a'.key = a.key) (hact : act'.key = act.key) : a'.Owns act' := by
  obtain ⟨h₁, h₂, h₃⟩ := h
  simp only [Admission.key, ActiveAttempt.key, Prod.mk.injEq] at ha hact
  exact ⟨by rw [ha.1, hact.1, h₁], by rw [ha.2.1, hact.2.1, h₂], by rw [ha.2.2, hact.2.1, h₃]⟩

theorem Core.Owned.setCurrent {c c' : Core} (h : c.Owned) {a a' : Admission}
    (hc : c.admissions.current = some a) (hc' : c'.admissions.current = some a')
    (hk : a'.key = a.key) (hf : c'.fresh = c.fresh) (ha : c'.active = c.active)
    (hj : c'.joining = c.joining) : c'.Owned := by
  have hswap : ∀ act, (∃ b, c.admissions.current = some b ∧ b.Owns act) →
      ∃ b, c'.admissions.current = some b ∧ b.Owns act := by
    rintro act ⟨b, hb, ho⟩
    obtain rfl : a = b := Option.some.inj (hc.symm.trans hb)
    exact ⟨a', hc', ho.of_key hk rfl⟩
  refine ⟨?_, ?_, ?_⟩
  · intro b hb
    obtain rfl : a' = b := Option.some.inj (hc'.symm.trans hb)
    have hlt := h.current_lt a hc
    simp only [Admission.key, Prod.mk.injEq] at hk
    rw [hf, hk.2.1]; exact hlt
  · intro act hact
    rw [ha] at hact
    obtain ⟨hjn, hb⟩ := h.active act hact
    exact ⟨hj.trans hjn, hswap act hb⟩
  · intro act hact
    rw [hj] at hact
    exact hswap act (h.joining act hact)

theorem Core.Owned.effect {c c' : Core} (h : c.Owned) (he : Effect c c') : c'.Owned := by
  cases he with
  | reserve restart hclosed hcur hres ha hj =>
    refine ⟨?_, ?_, ?_⟩
    · rintro a ⟨rfl⟩; exact Nat.lt_succ_self _
    · intro act hact; rw [ha] at hact; cases hact
    · intro act hact; rw [hj] at hact; cases hact
  | pend a hc | stop a hc => exact h.setCurrent hc rfl rfl rfl rfl rfl
  | release a hc ha hj =>
    refine ⟨by rintro b ⟨⟩, ?_, ?_⟩
    · intro act hact; rw [ha] at hact; cases hact
    · intro act hact; rw [hj] at hact; cases hact
  | disconnectIdle | forget | stopAgain | close | cancel | disconnecting | connecting | connected =>
    exact ⟨h.current_lt, h.active, h.joining⟩
  | startActive a act hc ha hj ho =>
    refine ⟨?_, ?_, ?_⟩
    · rintro b ⟨rfl⟩; exact h.current_lt a hc
    · rintro act' ⟨rfl⟩; exact ⟨hj, _, rfl, ho.of_key rfl rfl⟩
    · intro act' hact; rw [hj] at hact; cases hact
  | startRefused a act hc ha hj ho =>
    refine ⟨h.current_lt, ?_, h.joining⟩
    rintro act' ⟨rfl⟩; exact ⟨hj, a, hc, ho⟩
  | note act act' ha hk =>
    refine ⟨h.current_lt, ?_, h.joining⟩
    rintro b ⟨rfl⟩
    obtain ⟨hj, a, hc, ho⟩ := h.active act ha
    exact ⟨hj, a, hc, ho.of_key rfl hk⟩
  | take act ha =>
    refine ⟨h.current_lt, by rintro b ⟨⟩, ?_⟩
    rintro b ⟨rfl⟩; exact (h.active act ha).2
  | join a act offer state hc ha hj =>
    refine ⟨by rintro b ⟨⟩, ?_, by rintro b ⟨⟩⟩
    intro b hb; rw [ha] at hb; cases hb

theorem Core.Owned.init : ({} : Core).Owned :=
  ⟨by rintro a ⟨⟩, by rintro a ⟨⟩, by rintro a ⟨⟩⟩

/-- **Effect rule** with ownership: as `reachable_core`, where an effect may use that the actor's
attempt is the admitted one. -/
theorem reachable_owned_core {inst : Uuid} {P : Core → Prop} (hinit : P {})
    (heff : ∀ c c', c.Owned → P c → Effect c c' → P c') (h : (machine inst).Reachable s) :
    s.core.Owned ∧ P s.core :=
  reachable_core (P := fun c => c.Owned ∧ P c) ⟨Core.Owned.init, hinit⟩
    (fun c c' hp he => ⟨hp.1.effect he, heff c c' hp.1 hp.2 he⟩) h

/-! ### Completion -/

/-- Tokens are only allocated, flags are only raised. -/
structure Core.Grows (c c' : Core) : Prop where
  fresh : c.fresh ≤ c'.fresh
  cancelled : c.cancelled ⊆ c'.cancelled
  completed : c.completed ⊆ c'.completed

theorem Effect.grows {c c' : Core} (h : Effect c c') : c.Grows c' := by
  cases h with
  | reserve => exact ⟨Nat.le_succ _, Finset.Subset.refl _, Finset.Subset.refl _⟩
  | release => exact ⟨le_rfl, Finset.subset_insert _ _, Finset.subset_insert _ _⟩
  | stop | cancel | startRefused | disconnecting =>
    exact ⟨le_rfl, Finset.subset_insert _ _, Finset.Subset.refl _⟩
  | join => exact ⟨le_rfl, Finset.Subset.refl _, Finset.subset_insert _ _⟩
  | pend | disconnectIdle | forget | stopAgain | close | startActive | connecting | connected
  | note | take => exact ⟨le_rfl, Finset.Subset.refl _, Finset.Subset.refl _⟩

theorem step_grows {inst : Uuid} {l : Label} (h : (machine inst).Reachable s)
    (hs : step inst s l = some s') : s.core.Grows s'.core := by
  obtain ⟨slot, hh⟩ := reachable_holds h
  refine Effects.keep (P := s.core.Grows) (fun c c' hg he => ?_) (step_advances hh hs).2
    ⟨le_rfl, Finset.Subset.refl _, Finset.Subset.refl _⟩
  exact ⟨hg.fresh.trans he.grows.fresh, hg.cancelled.trans he.grows.cancelled,
    hg.completed.trans he.grows.completed⟩

/-- Every attempt but the admitted one has completed. -/
def Core.Drained (c : Core) : Prop :=
  ∀ t < c.fresh, t ∈ c.completed ∨ ∃ a, c.admissions.current = some a ∧ a.completion = t

theorem Core.Drained.effect {c c' : Core} (h : c.Drained) (he : Effect c c') : c'.Drained := by
  -- the attempt that leaves the slot completes
  have hleave : ∀ a, c.admissions.current = some a → ∀ t < c.fresh,
      t ∈ insert a.completion c.completed := by
    intro a hc t ht
    rcases h t ht with ht | ⟨b, hb, rfl⟩
    · exact Finset.mem_insert_of_mem ht
    · obtain rfl : a = b := Option.some.inj (hc.symm.trans hb)
      exact Finset.mem_insert_self _ _
  -- the admission only changes its phase or its stop flag
  have hstay : ∀ a a' : Admission, c.admissions.current = some a → a'.completion = a.completion →
      ∀ t < c.fresh, t ∈ c.completed ∨ ∃ b, some a' = some b ∧ b.completion = t := by
    intro a a' hc hk t ht
    refine (h t ht).imp_right ?_
    rintro ⟨b, hb, rfl⟩
    obtain rfl : a = b := Option.some.inj (hc.symm.trans hb)
    exact ⟨a', rfl, hk⟩
  cases he with
  | reserve restart hclosed hcur =>
    intro t ht
    rcases Nat.lt_succ_iff_lt_or_eq.mp ht with ht | rfl
    · rcases h t ht with ht | ⟨a, ha, -⟩
      · exact Or.inl ht
      · rw [hcur] at ha; cases ha
    · exact Or.inr ⟨_, rfl, rfl⟩
  | pend a hc => exact hstay a _ hc rfl
  | stop a hc => exact hstay a _ hc rfl
  | startActive a act hc => exact hstay a _ hc rfl
  | release a hc | join a act offer state hc => exact fun t ht => Or.inl (hleave a hc t ht)
  | disconnectIdle | forget | stopAgain | close | cancel | startRefused | disconnecting
  | connecting | connected | note | take => exact h

theorem reachable_drained {inst : Uuid} (h : (machine inst).Reachable s) : s.core.Drained :=
  reachable_core (P := Core.Drained) (by rintro t ⟨⟩) (fun _ _ hd he => hd.effect he) h

end GlobalProtect.Service.Lifecycle
