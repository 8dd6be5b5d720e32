import GlobalProtect.Widget.Stop

/-! # The flows of the daemon beside each other

The messages of a flow do not tell which flow sent them. While no last message of a flow is handled
under the token of another one (`undisturbed`), the daemon's token is that of the one uncancelled
flow that runs (`flows_isolated`): `start_connect_flow` starts none beside it, and a flow that is
let go is cancelled. What else a message changes is by design: `Failed` ends the login that is
shown, also for a cancelled flow.

Else a late message takes the token of a successor away (`flows_not_isolated`). -/

namespace GlobalProtect.Widget.Daemon

open Lib Api Widget.ConnectFlow

variable {γ : Type} {s s' s'' : State γ}

/-! ### What the invariant reads of a state -/

/-- Whether a flow has ended and whether it is cancelled. -/
def status (f : ConnectFlow.State) : Bool × Bool := (decide (f.phase = .ended), f.cancelled)

def State.shape (s : State γ) : List (Bool × Bool) := s.flows.map status

/-- The message is the last of its flow. -/
def final : FlowMsg → Bool
  | .otpPrompt _ _ => false
  | _ => true

/-- Nothing the invariant reads has changed. -/
structure Same (s s' : State γ) : Prop where
  shape : s'.shape = s.shape
  flowMsgs : s'.flowMsgs = s.flowMsgs
  connectCancel : s'.connectCancel = s.connectCancel

theorem Same.refl : Same s s := ⟨rfl, rfl, rfl⟩

theorem Same.trans (h : Same s s') (h' : Same s' s'') : Same s s'' :=
  ⟨h'.shape.trans h.shape, h'.flowMsgs.trans h.flowMsgs, h'.connectCancel.trans h.connectCancel⟩

/-- A flow is started; the daemon held no token, and holds that of the flow. -/
structure Started (s s' : State γ) : Prop where
  idle : s.connectCancel = none
  shape : s'.shape = s.shape ++ [(false, false)]
  flowMsgs : s'.flowMsgs = s.flowMsgs
  connectCancel : s'.connectCancel = some s.shape.length

theorem Started.after (h : Started s' s'') (hs : Same s s') : Started s s'' :=
  ⟨hs.connectCancel.symm.trans h.idle, by rw [h.shape, hs.shape], h.flowMsgs.trans hs.flowMsgs,
    by rw [h.connectCancel, hs.shape]⟩

theorem same_received (vpnState : VpnState) : Same s (s.received vpnState) := by
  unfold State.received
  split <;> exact ⟨rfl, rfl, rfl⟩

theorem same_restart (attempt : ℕ) : Same s (s.restartSubmittedConnect attempt) := by
  unfold State.restartSubmittedConnect
  repeat' split
  all_goals exact ⟨rfl, rfl, rfl⟩

theorem same_apply (vpnState : VpnState) : Same s (s.apply vpnState) := by
  unfold State.apply State.onSessionEstablished
  dsimp only
  repeat' split
  all_goals exact ⟨rfl, rfl, rfl⟩

theorem same_handleVpnState (vpnState : VpnState) : Same s (s.handleVpnState vpnState) := by
  have hactive : Same (s.received vpnState) (s.received vpnState).active := ⟨rfl, rfl, rfl⟩
  refine (same_received vpnState).trans ?_
  unfold State.handleVpnState
  dsimp only
  split
  · exact hactive.trans (same_apply _)
  · exact hactive.trans (same_apply _)
  · exact hactive.trans ((same_restart _).trans (same_apply _))
  all_goals try split
  all_goals exact ⟨rfl, rfl, rfl⟩

theorem start_cases (path : String) (loaded : Option Config) (portal gateway : Option String) :
    Same s (s.tryStart path loaded portal gateway) ∨
      Started s (s.tryStart path loaded portal gateway) := by
  obtain hs | ⟨hidle, -, config, p, hs⟩ := s.tryStart_cases path loaded portal gateway
  · rw [hs]
    exact .inl .refl
  · rw [hs]
    refine .inr ⟨hidle, ?_, rfl, ?_⟩
    · simp [State.shape, State.record, status]
    · simp [State.shape, State.record]

theorem notice_cases (path : String) (loaded : Option Config) (notice : WsNotice γ) :
    Same s (s.handleNotice path loaded notice) ∨ Started s (s.handleNotice path loaded notice) := by
  unfold State.handleNotice
  split
  · rename_i env
    unfold State.handleVpnEnv
    dsimp only
    have hs : Same s { s.received env.vpnState with
        model := { (s.received env.vpnState).model.applyVpnState env.vpnState with
          vpnEnv := some env } } := (same_received env.vpnState).trans ⟨rfl, rfl, rfl⟩
    split
    · exact (start_cases path loaded none none).imp hs.trans (·.after hs)
    · exact .inl hs
  · exact .inl (same_handleVpnState _)
  · unfold State.resumeConnection
    repeat' split
    all_goals first
      | exact start_cases _ _ _ _
      | exact .inl .refl
  all_goals exact .inl ⟨rfl, rfl, rfl⟩

/-! ### Steps of a flow and stops -/

variable {normalize : String → Except (List String) String} {path : String}

theorem loginFailed_status (f : ConnectFlow.State) (target : Target) (cookie : Bool) (e : Error) :
    status (f.loginFailed target cookie e) = (false, f.cancelled) := by
  unfold State.loginFailed
  split <;> rfl

theorem discovered_status (f : ConnectFlow.State) (config : Portal.PortalConfig) (region : String) :
    status (f.discovered config region) = (false, f.cancelled) := by
  unfold State.discovered
  dsimp only
  split
  · rfl
  · dsimp only [status]
    split <;> rfl

theorem authenticated_status (f : ConnectFlow.State) (target : Target)
    (a : GatewayAuthentication) :
    status (f.authenticated normalize target a) = (false, f.cancelled) := by
  unfold State.authenticated
  dsimp only
  repeat' split
  all_goals rfl

theorem flow_step_status {f f' : ConnectFlow.State} {a : ConnectFlow.Act} (ha : a ≠ .cancel)
    (h : ConnectFlow.step normalize f a = some f') :
    f.phase ≠ .ended ∧ status f' = (decide (a = .report), f.cancelled) := by
  refine ⟨fun hp => ?_, ?_⟩
  · cases a with
    | cancel => exact ha rfl
    | _ => simp [ConnectFlow.step, hp] at h
  · cases a with
    | cancel => exact absurd rfl ha
    | _ =>
      simp only [ConnectFlow.step] at h
      repeat' split at h
      all_goals cases h
      all_goals first
        | rfl
        | exact loginFailed_status _ _ _ _
        | exact discovered_status _ _ _
        | exact authenticated_status _ _ _
        | (rename_i hp _; simp [status, hp])

/-- The daemon lets go of the token it holds, if any, and cancels it. -/
structure LetGo (s s' : State γ) : Prop where
  flowMsgs : s'.flowMsgs = s.flowMsgs
  connectCancel : s'.connectCancel = none
  shape : ∀ j, s'.shape[j]? =
    (s.shape[j]?).map fun e => if s.connectCancel = some j then (e.1, true) else e

theorem letGo_cancelFlow {i : ℕ} (hc : s.connectCancel = some i) :
    LetGo s (State.cancelFlow { s with connectCancel := none } i) := by
  refine ⟨rfl, rfl, fun j => ?_⟩
  simp only [State.cancelFlow, State.shape, List.getElem?_map, List.getElem?_modify, hc,
    Option.some.injEq]
  by_cases hij : i = j
  · cases s.flows[j]? <;> simp [hij, status]
  · cases s.flows[j]? <;> simp [hij]

theorem letGo_idle (hc : s.connectCancel = none) (h : Same s s') : LetGo s s' := by
  refine ⟨h.flowMsgs, h.connectCancel.trans hc, fun j => ?_⟩
  rw [h.shape, hc]
  cases s.shape[j]? <;> simp

theorem LetGo.then (h : LetGo s s') (h' : Same s' s'') : LetGo s s'' :=
  ⟨h'.flowMsgs.trans h.flowMsgs, h'.connectCancel.trans h.connectCancel, fun j => by
    rw [h'.shape, h.shape]⟩

theorem letGo_disconnect : LetGo s (s.record .stop).disconnect := by
  unfold State.disconnect
  cases hc : s.connectCancel with
  | some i =>
    simp only [State.record, hc]
    exact (letGo_cancelFlow hc).then ⟨rfl, rfl, rfl⟩
  | none =>
    refine letGo_idle hc ?_
    simp only [State.record, hc]
    split <;> exact ⟨rfl, rfl, hc.symm⟩

theorem letGo_quit : LetGo s s.quit := by
  have hcancel : LetGo s (s.record .stop).quitCancel := by
    cases hc : s.connectCancel with
    | some i =>
      simp only [State.quitCancel, State.record, hc]
      exact (letGo_cancelFlow hc).then ⟨rfl, rfl, rfl⟩
    | none =>
      refine letGo_idle hc ?_
      simp only [State.quitCancel, State.record, hc]
      exact ⟨rfl, rfl, hc.symm⟩
  rw [quit_eq]
  refine hcancel.then ?_
  unfold State.quitSend
  dsimp only
  repeat' split
  all_goals exact ⟨rfl, rfl, rfl⟩

/-! ### The invariant -/

/-- The steps of the runs considered: the last message of a flow is not handled while the daemon
holds the token of another flow. -/
def undisturbed (s : State γ) : Act γ → Bool
  | .flowMsg =>
    match s.flowMsgs with
    | (i, msg) :: _ => !final msg || s.connectCancel.all (· = i)
    | [] => true
  | _ => true

/-- A flow has ended when its last message waits, the token that is held is not cancelled, and it is
held for the flow that runs uncancelled. -/
structure Iso (s : State γ) : Prop where
  done : ∀ m ∈ s.flowMsgs, final m.2 = true → ∃ c, s.shape[m.1]? = some (true, c)
  token : ∀ i, s.connectCancel = some i → ∀ e : Bool × Bool, s.shape[i]? = some e → e.2 = false
  running : ∀ i : ℕ, s.shape[i]? = some (false, false) → s.connectCancel = some i

theorem Iso.same (h : Iso s) (hs : Same s s') : Iso s' := by
  obtain ⟨h₁, h₂, h₃⟩ := h
  rw [← hs.shape] at h₁ h₂ h₃
  rw [← hs.flowMsgs] at h₁
  rw [← hs.connectCancel] at h₂ h₃
  exact ⟨h₁, h₂, h₃⟩

theorem Iso.started (h : Iso s) (hs : Started s s') : Iso s' := by
  have hget : ∀ (i : ℕ) (e : Bool × Bool), s'.shape[i]? = some e →
      s.shape[i]? = some e ∨ i = s.shape.length ∧ e = (false, false) := by
    intro i e he
    rw [hs.shape] at he
    by_cases hi : i < s.shape.length
    · rw [List.getElem?_append_left hi] at he
      exact .inl he
    · have hi' : i = s.shape.length := by
        have := (List.getElem?_eq_some_iff.mp he).1
        simp at this
        omega
      subst hi'
      exact .inr ⟨rfl, by simpa using he.symm⟩
  refine ⟨fun m hm hf => ?_, fun i hi e he => ?_, fun i hi => ?_⟩
  · obtain ⟨c, hc⟩ := h.done m (hs.flowMsgs ▸ hm) hf
    rw [hs.shape]
    exact ⟨c, by rw [List.getElem?_append_left (List.getElem?_eq_some_iff.mp hc).1, hc]⟩
  · obtain rfl := Option.some.inj (hs.connectCancel.symm.trans hi)
    rcases hget _ e he with he | ⟨-, rfl⟩
    · exact absurd (List.getElem?_eq_some_iff.mp he).1 (Nat.lt_irrefl _)
    · rfl
  · rcases hget i _ hi with he | ⟨rfl, -⟩
    · -- the daemon would have held the token of a flow that runs
      cases hs.idle.symm.trans (h.running i he)
    · exact hs.connectCancel

theorem Iso.letGo (h : Iso s) (hs : LetGo s s') : Iso s' := by
  refine ⟨fun m hm hf => ?_, by simp [hs.connectCancel], fun i hi => ?_⟩
  · obtain ⟨c, hc⟩ := h.done m (hs.flowMsgs ▸ hm) hf
    rw [hs.shape, hc, Option.map_some]
    split
    · exact ⟨true, rfl⟩
    · exact ⟨c, rfl⟩
  · -- a flow that runs uncancelled would have been the one whose token was held
    rw [hs.shape] at hi
    obtain ⟨e, he, hi⟩ := Option.map_eq_some_iff.mp hi
    split at hi
    · cases (Prod.mk.inj hi).2
    · next hne => exact absurd (h.running i (hi ▸ he)) hne

/-- A step of flow `i`, which has not ended before; `last` if it ends now. -/
structure Progress (s s' : State γ) (i : ℕ) (last : Bool) : Prop where
  shape : ∃ c, s.shape[i]? = some (false, c) ∧ s'.shape = s.shape.set i (last, c)
  flowMsgs : ∀ m ∈ s'.flowMsgs, m ∈ s.flowMsgs ∨ m.1 = i ∧ (final m.2 = true → last = true)
  connectCancel : s'.connectCancel = s.connectCancel

theorem progress_flow {i : ℕ} {f f' : ConnectFlow.State} {a : ConnectFlow.Act}
    (hi : s.flows[i]? = some f) (ha : a ≠ .cancel)
    (hs : ConnectFlow.step normalize f a = some f') :
    Progress s (State.deliver { s with flows := s.flows.set i f' } i f a) i
      (decide (a = .report)) := by
  obtain ⟨hp, hf'⟩ := flow_step_status ha hs
  have hshape : (State.deliver { s with flows := s.flows.set i f' } i f a).shape =
      s.shape.set i (status f') := by
    unfold State.deliver
    repeat' split
    all_goals simp [State.shape, State.record, List.map_set]
  refine ⟨⟨f.cancelled, ?_, by rw [hshape, hf']⟩, fun m hm => ?_, ?_⟩
  · simp [State.shape, hi, status, hp]
  · unfold State.deliver at hm
    repeat' split at hm
    · rcases List.mem_append.mp hm with hm | hm
      · exact .inl hm
      · obtain rfl := List.mem_singleton.mp hm
        exact .inr ⟨rfl, by simp [final]⟩
    · exact .inl hm
    · rcases List.mem_append.mp hm with hm | hm
      · exact .inl hm
      · obtain rfl := List.mem_singleton.mp hm
        exact .inr ⟨rfl, by simp⟩
    · exact .inl hm
    · exact .inl hm
  · unfold State.deliver
    repeat' split
    all_goals rfl

theorem Iso.progress {i : ℕ} {last : Bool} (h : Iso s) (hs : Progress s s' i last) : Iso s' := by
  obtain ⟨⟨c, hi, hshape⟩, hmsgs, hcc⟩ := hs
  have hself : s'.shape[i]? = some (last, c) := by
    rw [hshape, List.getElem?_set_self (List.getElem?_eq_some_iff.mp hi).1]
  have hother : ∀ j, j ≠ i → s'.shape[j]? = s.shape[j]? := fun j hj => by
    rw [hshape, List.getElem?_set_ne (Ne.symm hj)]
  refine ⟨fun m hm hf => ?_, fun j hj e he => ?_, fun j hj => ?_⟩
  · rcases hmsgs m hm with hm | ⟨hm, hl⟩
    · obtain ⟨c', hc'⟩ := h.done m hm hf
      have hne : m.1 ≠ i := by
        intro hmi
        rw [hmi, hi] at hc'
        cases hc'
      exact ⟨c', by rw [hother m.1 hne, hc']⟩
    · exact ⟨c, by rw [hm, hself, hl hf]⟩
  · rw [hcc] at hj
    by_cases hji : j = i
    · subst hji
      rw [hself] at he
      cases he
      exact h.token j hj (false, c) hi
    · exact h.token j hj e (hother j hji ▸ he)
  · rw [hcc]
    by_cases hji : j = i
    · subst hji
      rw [hself] at hj
      obtain ⟨-, rfl⟩ := Prod.mk.inj (Option.some.inj hj)
      exact h.running j hi
    · exact h.running j (hother j hji ▸ hj)

theorem undisturbed_token {i : ℕ} {msg : FlowMsg} {rest : List (ℕ × FlowMsg)}
    (hu : undisturbed s .flowMsg = true) (hm : s.flowMsgs = (i, msg) :: rest)
    (hf : final msg = true) : s.connectCancel = none ∨ s.connectCancel = some i := by
  cases hcc : s.connectCancel with
  | none => exact .inl rfl
  | some j => exact .inr (by simpa [undisturbed, hm, hf, hcc] using hu)

theorem Iso.handled {i : ℕ} {msg : FlowMsg} {rest : List (ℕ × FlowMsg)} (h : Iso s)
    (hu : undisturbed s .flowMsg = true)
    (hm : s.flowMsgs = (i, msg) :: rest) (hshape : s'.shape = s.shape)
    (hmsgs : s'.flowMsgs = rest)
    (hcc : s'.connectCancel = if final msg then none else s.connectCancel) : Iso s' := by
  have hsub : ∀ m ∈ s'.flowMsgs, m ∈ s.flowMsgs := fun m hr => by
    rw [hm]
    exact List.mem_cons_of_mem _ (hmsgs ▸ hr)
  refine ⟨fun m hr => by rw [hshape]; exact h.done m (hsub m hr), fun j hj => ?_, fun j hj => ?_⟩
  · rw [hshape]
    rw [hcc] at hj
    split at hj
    · cases hj
    · exact h.token j hj
  · rw [hshape] at hj
    rw [hcc]
    by_cases hf : final msg = true
    · -- the token could only be that of the sender, which has ended
      obtain ⟨c, hc⟩ := h.done (i, msg) (by simp [hm]) hf
      have htok := h.running j hj
      rcases undisturbed_token hu hm hf with hnone | hsome
      · cases hnone.symm.trans htok
      · obtain rfl := Option.some.inj (hsome.symm.trans htok)
        cases hc.symm.trans hj
    · rw [if_neg hf]
      exact h.running j hj

theorem handleFlowMsg_shape (i : ℕ) (msg : FlowMsg) :
    (s.handleFlowMsg i msg).shape = s.shape ∧ (s.handleFlowMsg i msg).flowMsgs = s.flowMsgs ∧
      (s.handleFlowMsg i msg).connectCancel = if final msg then none else s.connectCancel := by
  cases msg <;> exact ⟨rfl, rfl, rfl⟩

theorem same_submitOtp (otp : String) : Same s (s.submitOtp otp) := by
  unfold State.submitOtp
  split
  · exact .refl
  · refine ⟨?_, rfl, rfl⟩
    refine List.ext_getElem? fun j => ?_
    simp only [State.shape, List.getElem?_map, List.getElem?_modify]
    cases s.flows[j]? with
    | none => rfl
    | some f =>
      simp only [Option.map_some, Option.map_eq_map, Option.some.injEq]
      repeat' split
      all_goals rfl

theorem Iso.same_or_started (h : Iso s) (hs : Same s s' ∨ Started s s') : Iso s' :=
  hs.elim h.same h.started

theorem Iso.step {l : Act γ} (h : Iso s) (hu : undisturbed s l = true)
    (hstep : Daemon.step normalize path s l = some s') : Iso s' := by
  cases l with
  | notice n loaded =>
    obtain rfl := handle_some hstep
    exact h.same_or_started (notice_cases path loaded n)
  | noticesEnded =>
    simp only [Daemon.step] at hstep
    split at hstep
    · obtain rfl := handle_some hstep
      exact h.same ⟨rfl, rfl, rfl⟩
    · cases hstep
  | commandsEnded | signal => obtain rfl := handle_some hstep; exact h.same ⟨rfl, rfl, rfl⟩
  | close => cases hstep; exact h.same ⟨rfl, rfl, rfl⟩
  | command c loaded =>
    obtain rfl := handle_some hstep
    cases c with
    | getStatus => exact h
    | openPopup => exact h
    | connect portal gateway => exact h.same_or_started (start_cases _ _ _ _)
    | disconnect => exact h.letGo letGo_disconnect
    | submitOtp otp => exact h.same (same_submitOtp otp)
    | quit => exact h.letGo letGo_quit
    | toggle =>
      by_cases ht : s.toggleStops = true
      · simp only [State.handleCommand, if_pos ht]
        exact h.letGo letGo_disconnect
      · refine h.same_or_started ?_
        simp only [State.handleCommand, if_neg ht]
        exact start_cases _ _ _ _
  | flowMsg =>
    simp only [Daemon.step] at hstep
    split at hstep
    · cases hstep
    · rename_i i msg rest hm
      obtain rfl := handle_some hstep
      obtain ⟨h₁, h₂, h₃⟩ := handleFlowMsg_shape (s := { s with flowMsgs := rest }) i msg
      exact h.handled hu hm h₁ h₂ h₃
  | timer t =>
    simp only [Daemon.step] at hstep
    split at hstep
    · obtain rfl := handle_some hstep
      refine h.same ?_
      unfold State.handleTimer State.handleWatchdog
      repeat' split
      all_goals exact ⟨rfl, rfl, rfl⟩
    · cases hstep
  | flow i a =>
    simp only [Daemon.step] at hstep
    split at hstep
    · cases hstep
    · rename_i f hf
      split at hstep
      · rename_i hperm
        obtain ⟨f', hf', rfl⟩ := Option.map_eq_some_iff.mp hstep
        have ha : a ≠ .cancel := by
          rintro rfl
          cases hperm
        exact h.progress (progress_flow hf ha hf')
      · cases hstep
  | send request =>
    simp only [Daemon.step] at hstep
    split at hstep
    · cases hstep
      refine h.same ?_
      split <;> exact ⟨rfl, rfl, rfl⟩
    · cases hstep

/-- A flow that runs and is not cancelled. -/
def Live (f : ConnectFlow.State) : Prop := f.phase ≠ .ended ∧ f.cancelled = false

/-- What the message of a cancelled flow leaves as it is, besides the token. -/
def Leaves (s s' : State γ) : FlowMsg → Prop
  | .otpPrompt _ _ => s'.model.authenticating = s.model.authenticating ∧
      s'.submittedConnect = s.submittedConnect ∧ s'.watchdogGeneration = s.watchdogGeneration
  | .submitted _ => s'.model.authenticating = s.model.authenticating ∧ s'.pendingOtp = s.pendingOtp
  | .failed _ _ => s'.submittedConnect = s.submittedConnect ∧
      s'.watchdogGeneration = s.watchdogGeneration

/-- **Isolation**: in every run in which no last message of a flow is handled under the token of
another, at most one uncancelled flow runs, the daemon holds exactly its token, the token it holds
is not cancelled, and a message of a flow that is cancelled or whose token it does not hold leaves
the token alone. -/
theorem flows_isolated (config : Config)
    (h : ((machine (γ := γ) normalize path config).guard undisturbed).Reachable s) :
    (∀ (i j : ℕ) f g, s.flows[i]? = some f → s.flows[j]? = some g → Live f → Live g → i = j) ∧
    (∀ (i : ℕ) f, s.flows[i]? = some f → Live f → s.connectCancel = some i) ∧
    (∀ (i : ℕ) f, s.connectCancel = some i → s.flows[i]? = some f → f.cancelled = false) ∧
    ∀ (i : ℕ) msg rest f s', s.flowMsgs = (i, msg) :: rest → s.flows[i]? = some f →
      f.cancelled = true ∨ s.connectCancel ≠ some i → undisturbed s .flowMsg = true →
      step normalize path s .flowMsg = some s' →
      s'.connectCancel = s.connectCancel ∧ Leaves s s' msg := by
  have hiso : Iso s := by
    refine h.invariant ⟨?_, ?_, ?_⟩ fun s l s' _ hi hs => ?_
    all_goals try simp [Machine.guard, machine, State.shape]
    obtain ⟨hu, hs⟩ := Machine.guard_step.mp hs
    exact hi.step hu hs
  have hrun : ∀ (i : ℕ) f, s.flows[i]? = some f → Live f → s.connectCancel = some i :=
    fun i f hf hl => hiso.running i (by simp [State.shape, hf, status, hl.1, hl.2])
  have htoken : ∀ (i : ℕ) f, s.connectCancel = some i → s.flows[i]? = some f →
      f.cancelled = false :=
    fun i f hi hf => hiso.token i hi (status f) (by simp [State.shape, hf])
  refine ⟨fun i j f g hf hg hl hl' => ?_, hrun, htoken, ?_⟩
  · exact Option.some.inj ((hrun i f hf hl).symm.trans (hrun j g hg hl'))
  · intro i msg rest f s' hm hf hc hu hstep
    simp only [step, hm] at hstep
    obtain rfl := handle_some hstep
    have hne : s.connectCancel ≠ some i := by
      rcases hc with hc | hc
      · intro hi
        cases hc.symm.trans (htoken i f hi hf)
      · exact hc
    refine ⟨?_, ?_⟩
    · rw [(handleFlowMsg_shape i msg).2.2]
      split
      · next hfinal => exact ((undisturbed_token hu hm hfinal).resolve_right hne).symm
      · rfl
    · cases msg with
      | otpPrompt message round => exact ⟨rfl, rfl, rfl⟩
      | submitted request => exact ⟨rfl, rfl⟩
      | failed error cancelled => exact ⟨rfl, rfl⟩

/-- A flow is cancelled and reports it. -/
def cancelledRun : List (Act Unit) :=
  [.notice (.event (.vpnEnv idleEnv)) none, .command (.connect none none) none,
    .command .disconnect none, .flow 0 .seeCancelled, .flow 0 .report]

/-- A flow is started while a cancelled one still runs; and the message of a cancelled flow. -/
theorem flows_isolated_cancelled :
    (∃ s, (exampleMachine.guard undisturbed).Reachable s ∧
      s.shape = [(false, true), (false, false)] ∧
      (∀ (i j : ℕ) f g, s.flows[i]? = some f → s.flows[j]? = some g → Live f → Live g → i = j) ∧
      s.connectCancel = some 1) ∧
    ∃ s s', (exampleMachine.guard undisturbed).Reachable s ∧ s.flowMsgs.map (·.1) = [0] ∧
      s.shape = [(true, true)] ∧ exampleMachine.step s .flowMsg = some s' ∧
      s'.connectCancel = s.connectCancel := by
  have htwo : (exampleMachine.guard undisturbed).Reachable _ :=
    ⟨cancelledRun.take 3 ++ [.command (.connect none none) none], rfl⟩
  have hmsg : (exampleMachine.guard undisturbed).Reachable _ := ⟨cancelledRun, rfl⟩
  obtain ⟨hone, hheld, -⟩ := flows_isolated { portal := some "vpn" } htwo
  obtain ⟨-, -, -, hleft⟩ := flows_isolated { portal := some "vpn" } hmsg
  refine ⟨⟨_, htwo, rfl, hone, hheld 1 _ rfl ⟨by decide, rfl⟩⟩, _, _, hmsg, rfl, rfl, rfl, ?_⟩
  exact (hleft 0 _ [] _ _ rfl rfl (.inl rfl) rfl rfl).1

/-- The message of a cancelled flow ends the login that is shown; and if it comes late it takes the
token of the next flow away, so that a third can be started beside that one. -/
theorem flows_not_isolated :
    (∃ s s', exampleMachine.Reachable s ∧ s.flowMsgs.map (·.1) = [0] ∧
      s.flows.map (·.cancelled) = [true] ∧ s.model.authenticating = true ∧
      exampleMachine.step s .flowMsg = some s' ∧ s'.model.authenticating = false) ∧
    ∃ s, exampleMachine.Reachable s ∧ s.connectCancel = some 2 ∧
      s.flows.map status = [(true, true), (false, false), (false, false)] :=
  ⟨⟨_, _, ⟨cancelledRun, rfl⟩, rfl, rfl, rfl, rfl, rfl⟩,
    ⟨_, ⟨[.notice (.event (.vpnEnv idleEnv)) none, .command (.connect none none) none,
      .command .disconnect none, .command (.connect none none) none, .flow 0 .seeCancelled,
      .flow 0 .report, .flowMsg, .command (.connect none none) none], rfl⟩, rfl, rfl⟩⟩

end GlobalProtect.Widget.Daemon
