import GlobalProtect.Service.Lifecycle.Actor

/-! # The attempt slot

The admission slot, the outstanding reservations, the queued `Start` events, the active attempt and
the worker being joined are five places that can hold an attempt. The abstract `Slot` says that one
of them does, or none: an attempt is reserved, then queued, then running, then joined. `Holds`
relates a state to a slot through its `view`, the part of the state that ownership is about. That
a step is one abstract move or none is proved with what else it does, in `Lifecycle.Effects`. -/

namespace GlobalProtect.Service.Lifecycle

open Lib Api

/-! ### The abstract slot -/

/-- Where the one admitted attempt is; `token` names it. -/
inductive Slot where
  | idle
  | reserved (attempt token : ℕ)
  | queued (attempt token : ℕ)
  | running (attempt token task : ℕ)
  | joining (attempt token task : ℕ)
  deriving DecidableEq

/-- The life of an attempt. -/
inductive Slot.Next : Slot → Slot → Prop
  | reserve (n t : ℕ) : Next .idle (.reserved n t)
  | release (n t : ℕ) : Next (.reserved n t) .idle
  | commit (n t : ℕ) : Next (.reserved n t) (.queued n t)
  | start (n t k : ℕ) : Next (.queued n t) (.running n t k)
  | «end» (n t k : ℕ) : Next (.running n t k) (.joining n t k)
  | join (n t k : ℕ) : Next (.joining n t k) .idle

/-- The part of a state that ownership is about. -/
@[ext] structure View where
  /-- Number, token and completion of the admission. -/
  current : Option (ℕ × ℕ × ℕ)
  reserved : List (ℕ × ℕ)
  queued : List ℕ
  /-- Number, token and task of the active attempt. -/
  active : Option (ℕ × ℕ × ℕ)
  joining : Option (ℕ × ℕ × ℕ)

def Slot.view : Slot → View
  | .idle => ⟨none, [], [], none, none⟩
  | .reserved n t => ⟨some (n, t, t), [(n, t)], [], none, none⟩
  | .queued n t => ⟨some (n, t, t), [], [n], none, none⟩
  | .running n t k => ⟨some (n, t, t), [], [], some (n, t, k), none⟩
  | .joining n t k => ⟨some (n, t, t), [], [], none, some (n, t, k)⟩

/-- The worker belongs to the attempt in the slot. -/
def Slot.Runs : Slot → Worker → Prop
  | .running n _ k, w | .joining n _ k, w => w.task = k ∧ w.attempt = n
  | _, _ => False

/-- The token of the attempt in the slot. -/
def Slot.token? : Slot → Option ℕ
  | .idle => none
  | .reserved _ t | .queued _ t | .running _ t _ | .joining _ t _ => some t

/-- The attempt number a queued event would start. -/
def LifecycleEvent.startOf : LifecycleEvent → Option ℕ
  | .start attempt _ _ => some attempt
  | _ => none

def Admission.key (a : Admission) : ℕ × ℕ × ℕ := (a.attempt, a.cancellation, a.completion)

def ActiveAttempt.key (a : ActiveAttempt) : ℕ × ℕ × ℕ := (a.attempt, a.cancellation, a.task)

def ConnectReservation.key (r : ConnectReservation) : ℕ × ℕ := (r.attempt, r.cancellation)

namespace State

variable (s : State)

def queuedStarts : List ℕ := s.events.queue.filterMap LifecycleEvent.startOf

def view : View where
  current := s.admissions.current.map Admission.key
  reserved := s.reservations.map ConnectReservation.key
  queued := s.queuedStarts
  active := s.active.map ActiveAttempt.key
  joining := s.joining.map ActiveAttempt.key

/-- Every attempt that is reserved, queued to start, active, or being joined. -/
def holders : List ℕ :=
  s.reservations.map (·.attempt) ++ s.queuedStarts ++ s.active.toList.map (·.attempt) ++
    s.joining.toList.map (·.attempt)

/-- The state holds what the slot says, and nothing else. -/
structure Holds (slot : Slot) : Prop where
  view_eq : s.view = slot.view
  workers : ∀ w ∈ s.workers, slot.Runs w
  token_lt : ∀ t ∈ slot.token?, t < s.fresh

end State

variable {s s' : State} {slot : Slot}

/-! ### What leaves the slot alone -/

/-- `s'` differs from `s` in nothing that ownership is about. -/
structure Framed (s s' : State) : Prop where
  view : s'.view = s.view
  workers : s'.workers = s.workers
  fresh : s'.fresh = s.fresh

theorem Framed.refl (s : State) : Framed s s := ⟨rfl, rfl, rfl⟩

theorem Framed.trans {s₁ s₂ s₃ : State} (h : Framed s₁ s₂) (h' : Framed s₂ s₃) : Framed s₁ s₃ :=
  ⟨h'.view.trans h.view, h'.workers.trans h.workers, h'.fresh.trans h.fresh⟩

theorem State.Holds.frame (h : s.Holds slot) (hf : Framed s s') : s'.Holds slot :=
  ⟨hf.view.trans h.view_eq, by rw [hf.workers]; exact h.workers, by rw [hf.fresh]; exact h.token_lt⟩

theorem framed_admission {a a' : Admission} (hc : s.admissions.current = some a)
    (hc' : s'.admissions.current = some a') (hk : a'.key = a.key)
    (hq : s'.queuedStarts = s.queuedStarts) (hr : s'.reservations = s.reservations)
    (ha : s'.active = s.active) (hj : s'.joining = s.joining) (hw : s'.workers = s.workers)
    (hf : s'.fresh = s.fresh) : Framed s s' :=
  ⟨by simp only [State.view, hc, hc', hq, hr, ha, hj, Option.map_some, hk], hw, hf⟩

theorem queuedStarts_offer {e : LifecycleEvent} (he : e.startOf = none) (c : Channel LifecycleEvent) :
    (c.offer e).queue.filterMap LifecycleEvent.startOf =
      c.queue.filterMap LifecycleEvent.startOf := by
  rcases c.offer_eq e with h | h <;> rw [h]
  simp [he]

/-! ### Reading the slot off one place -/

theorem State.Holds.of_current_none (h : s.Holds slot) (hc : s.admissions.current = none) :
    slot = .idle := by
  have hv := congrArg View.current h.view_eq
  cases slot <;> simp_all [State.view, Slot.view]

theorem State.Holds.of_reservation (h : s.Holds slot) {r : ConnectReservation}
    (hr : r ∈ s.reservations) :
    slot = .reserved r.attempt r.cancellation ∧ s.reservations = [r] := by
  have hv := congrArg View.reserved h.view_eq
  have hmem : r.key ∈ slot.view.reserved := by rw [← hv]; exact List.mem_map_of_mem hr
  cases slot <;> simp only [Slot.view, List.not_mem_nil, List.mem_singleton] at hmem hv
  obtain ⟨rfl, rfl⟩ := Prod.mk.inj hmem
  obtain ⟨x, hx, -⟩ := List.map_eq_singleton_iff.mp hv
  rw [hx] at hr ⊢
  obtain rfl := List.mem_singleton.mp hr
  exact ⟨rfl, rfl⟩

theorem State.Holds.of_start (h : s.Holds slot) {n : ℕ} (hq : n ∈ s.queuedStarts) :
    ∃ t, slot = .queued n t := by
  have hv := congrArg View.queued h.view_eq
  have hmem : n ∈ slot.view.queued := by rw [← hv]; exact hq
  cases slot <;> simp only [Slot.view, List.not_mem_nil, List.mem_singleton] at hmem
  exact ⟨_, by rw [hmem]⟩

theorem State.Holds.of_active (h : s.Holds slot) {a : ActiveAttempt} (ha : s.active = some a) :
    slot = .running a.attempt a.cancellation a.task := by
  have hv := congrArg View.active h.view_eq
  cases slot <;> simp_all [State.view, Slot.view, ActiveAttempt.key]

theorem State.Holds.of_joining (h : s.Holds slot) {a : ActiveAttempt} (ha : s.joining = some a) :
    slot = .joining a.attempt a.cancellation a.task := by
  have hv := congrArg View.joining h.view_eq
  cases slot <;> simp_all [State.view, Slot.view, ActiveAttempt.key]

theorem State.Holds.workers_nil (h : s.Holds slot) (hs : ∀ w, ¬ slot.Runs w) : s.workers = [] :=
  List.eq_nil_iff_forall_not_mem.mpr fun w hw => hs w (h.workers w hw)

/-! ### Admission, start and join -/

theorem clearAttempt_eq {a : Admission} (ha : s.admissions.current = some a) :
    s.clearAttempt a.attempt = { s with
      admissions := { s.admissions with current := none }
      completed := insert a.completion s.completed } := by
  simp [State.clearAttempt, ha]

theorem holds_idle (hc : s.admissions.current = none) (hr : s.reservations = [])
    (hq : s.queuedStarts = []) (ha : s.active = none) (hj : s.joining = none)
    (hw : s.workers = []) : s.Holds .idle :=
  ⟨by simp [State.view, Slot.view, hc, hr, hq, ha, hj], by simp [hw], by rintro t ⟨⟩⟩

/-- The attempt that `start_attempt` makes active. -/
def startedAttempt (inst : Uuid) (a : Admission) (c : ConnectRequest) (sid : Option Uuid)
    (task : ℕ) : ActiveAttempt :=
  { attempt := a.attempt, sessionId := sid, info := State.attemptInfo inst a.attempt c,
    allowExtendSession := c.allowExtendSession, cancellation := a.cancellation, task }

/-- The admission can still be activated. -/
def State.Activatable (s : State) (a : Admission) : Prop :=
  a.stopRequested = false ∧ s.isCancelled a.cancellation = false ∧ a.phase = .pending

theorem startAttempt_activated {a : Admission} (hc : s.admissions.current = some a)
    (hp : s.Activatable a) (inst : Uuid) (c : ConnectRequest) (sid : Option Uuid) :
    s.startAttempt inst a.attempt c sid = State.sendState { s with
      admissions := { s.admissions with current := some { a with phase := .active } }
      tunnel := { attempt := a.attempt, nonTunnel := c.allNonTunnel }
      spawned := s.spawned + 1
      workers := s.workers ++ [{ task := s.spawned, attempt := a.attempt }]
      active := some (startedAttempt inst a c sid s.spawned) }
      (some a.cancellation) (.connecting (State.attemptInfo inst a.attempt c)) := by
  obtain ⟨h₁, h₂, h₃⟩ := hp
  simp [State.startAttempt, State.activateAttempt, State.attemptCancellation, hc, h₁, h₂, h₃,
    Option.filter, startedAttempt]

theorem startAttempt_refused {a : Admission} (hc : s.admissions.current = some a)
    (hp : ¬ s.Activatable a) (inst : Uuid) (c : ConnectRequest) (sid : Option Uuid) :
    s.startAttempt inst a.attempt c sid = { s.cancel a.cancellation with
      tunnel := { attempt := a.attempt, nonTunnel := c.allNonTunnel }
      spawned := s.spawned + 1
      workers := s.workers ++ [{ task := s.spawned, attempt := a.attempt }]
      active := some (startedAttempt inst a c sid s.spawned) } := by
  have hact : s.activateAttempt a.attempt = (s, false) := by
    unfold State.activateAttempt
    simp only [hc]
    refine if_pos ?_
    unfold State.Activatable at hp
    by_contra hcon
    push Not at hcon
    exact hp ⟨by simpa using hcon.2.1, by simpa using hcon.2.2.1, hcon.2.2.2⟩
  simp [State.startAttempt, hact, State.attemptCancellation, hc, Option.filter, startedAttempt,
    State.cancel]

/-- What `end_attempt` offers for a restart and publishes after the join. -/
inductive JoinOutcome (s : State) (a : Admission) (act : ActiveAttempt) :
    Option (ℕ × Uuid) → VpnState → Prop
  | reconnect (owner : Uuid) (hreq : act.reconnectRequired = true) (hown : act.sessionId = some owner)
      (hact : s.isCancelled act.cancellation = false) (hcur : s.isCancelled a.cancellation = false)
      (hstop : a.stopRequested = false) :
      JoinOutcome s a act (some (act.attempt, owner))
        (.reconnectRequired ⟨act.attempt, owner, act.info⟩)
  | disconnected : JoinOutcome s a act none .disconnected
  | failed (reason : String) : JoinOutcome s a act none (.failed reason)

/-- The tunnel binding after the join. -/
def State.joinedTunnel (s : State) (act : ActiveAttempt) : TunnelBinding :=
  if s.tunnel.monitor.isNone then { attempt := act.attempt } else s.tunnel

theorem afterJoin_eq {a : Admission} {act : ActiveAttempt} (hc : s.admissions.current = some a)
    (hn : a.attempt = act.attempt) (hasSession : Bool) :
    ∃ offer state, JoinOutcome s a act offer state ∧ s.afterJoin act hasSession = { s with
      joining := none
      tunnel := s.joinedTunnel act
      admissions := { s.admissions with
        current := none, restart := if offer = none then s.admissions.restart else offer }
      completed := insert a.completion s.completed
      vpnState := state
      log := s.log ++ [.published (some act.cancellation) state, .ended act.cancellation offer] } := by
  set s₀ : State := { s with joining := none, tunnel := s.joinedTunnel act } with hs₀
  have hc₀ : s₀.admissions.current = some a := hc
  have htun : (if (({ s with joining := none } : State).tunnel.monitor.isNone) = true then
      { ({ s with joining := none } : State) with tunnel := { attempt := act.attempt } }
      else { s with joining := none }) = s₀ := by
    rw [hs₀]; unfold State.joinedTunnel; split_ifs <;> rfl
  unfold State.afterJoin
  simp only [htun]
  split
  · next owner ho =>
    split_ifs at ho with hcond
    simp only [Bool.and_eq_true, Bool.not_eq_true'] at hcond
    simp only [hc₀]
    split_ifs with hlive
    · simp only [Bool.and_eq_true, Bool.not_eq_true'] at hlive
      refine ⟨some (act.attempt, owner), _,
        .reconnect owner hcond.1.1 ho hcond.1.2 hlive.1 hlive.2, ?_⟩
      simp [hs₀, State.sendState, State.record]
    · refine ⟨none, _, .disconnected, ?_⟩
      simp [hs₀, State.sendState, State.record]
  · split
    · next reason hf =>
      refine ⟨none, _, .failed reason, ?_⟩
      have hcl := clearAttempt_eq (s := s₀.sendState (some act.cancellation) (.failed reason)) hc₀
      rw [← hn, hcl]
      simp [hs₀, State.sendState, State.record]
    · refine ⟨none, _, .disconnected, ?_⟩
      have hcl := clearAttempt_eq (s := s₀.sendState (some act.cancellation) .disconnected) hc₀
      unfold State.finishAttempt
      rw [← hn, hcl]
      simp [hs₀, State.sendState, State.record]

/-! ### The actor -/

theorem framed_active {a a' : ActiveAttempt} (ha : s.active = some a) (hk : a'.key = a.key) :
    Framed s { s with active := some a' } :=
  ⟨by simp [State.view, State.queuedStarts, ha, hk], rfl, rfl⟩

theorem activeFor_eq_some {n : ℕ} {a : ActiveAttempt} (h : s.activeFor n = some a) :
    s.active = some a ∧ a.attempt = n := by
  obtain ⟨ha, hn⟩ := Option.filter_eq_some_iff.mp h
  exact ⟨ha, by simpa using hn⟩

/-- The state in which the actor handles the event it has taken from its queue. -/
def State.pop (s : State) (queue : List LifecycleEvent) : State :=
  { s with events := { s.events with queue } }

theorem framed_pop {e : LifecycleEvent} {q : List LifecycleEvent} (hq : s.events.queue = e :: q)
    (he : e.startOf = none) : Framed s (s.pop q) :=
  ⟨by simp [State.view, State.pop, State.queuedStarts, hq, he], rfl, rfl⟩

theorem State.Holds.pop_start (h : s.Holds slot) {n : ℕ} {c : ConnectRequest} {sid : Option Uuid}
    {q : List LifecycleEvent} (hq : s.events.queue = .start n c sid :: q) :
    ∃ t, (s.pop q).view = ⟨some (n, t, t), [], [], none, none⟩ ∧ slot = .queued n t := by
  have hmem : n ∈ s.queuedStarts := by simp [State.queuedStarts, hq, LifecycleEvent.startOf]
  obtain ⟨t, rfl⟩ := h.of_start hmem
  obtain ⟨hcur, hr, hst, ha, hj⟩ := View.mk.inj h.view_eq
  have hrest : n :: q.filterMap LifecycleEvent.startOf = [n] := by
    rw [State.queuedStarts, hq] at hst; exact hst
  refine ⟨t, ?_, rfl⟩
  simp only [State.view, State.pop, View.mk.injEq]
  exact ⟨hcur, hr, (List.cons.inj hrest).2, ha, hj⟩

theorem startOf_toEvent (n : ℕ) (e : WorkerEvent) : (e.toEvent n).startOf = none := by
  cases e <;> rfl

theorem framed_send {c : Channel LifecycleEvent} {e : LifecycleEvent} (he : e.startOf = none)
    (hc : s.events.trySend e = .ok c) : Framed s { s with events := c } := by
  obtain ⟨-, -, rfl⟩ := Channel.trySend_ok.mp hc
  exact ⟨by simp [State.view, State.queuedStarts, he], rfl, rfl⟩

end GlobalProtect.Service.Lifecycle
