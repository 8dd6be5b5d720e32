import GlobalProtect.Lib.History
import GlobalProtect.Widget.Daemon

/-! # A stop of the user

`Disconnect`, a `Toggle` that takes the disconnect branch and `Quit` are stops. A stop either
cancels the flow whose token the daemon holds or sends `Disconnect`, and it decides by what the
daemon has been told so far. It comes too early or too late for a flow that has its login request
in flight or its `Connect` request on the way (`stop_lost`).

`timely` says when a stop meets none of these windows. In every run whose stops are timely, a stop
that no start follows leaves no `Connect` request of a flow behind (`stop_not_lost`). What a handler
does to the history is said once, by `Moves`, which composes along the handler's own steps. -/

namespace GlobalProtect.Widget.Daemon

open Lib Api Widget.ConnectFlow

variable {γ : Type} {s s' s'' : State γ}

/-! ### Flows that can no longer submit -/

/-- The phases from which a request can be submitted without another look at the token. -/
def inFlight : Phase → Bool
  | .loggingIn _ _ | .submitting _ => true
  | _ => false

def decided : Phase → Bool
  | .reporting _ | .ended => true
  | _ => false

/-- A flow that will not submit a request. -/
def Harmless (f : ConnectFlow.State) : Prop :=
  decided f.phase = true ∨ f.cancelled = true ∧ inFlight f.phase = false

theorem harmless_cancelled {f : ConnectFlow.State} (h : Harmless f) :
    Harmless { f with cancelled := true } := by
  rcases h with h | ⟨-, h⟩
  · exact .inl h
  · exact .inr ⟨rfl, h⟩

theorem harmless_fail (f : ConnectFlow.State) (e : Error) : Harmless (f.fail e) := .inl rfl

theorem harmless_loginFailed {f : ConnectFlow.State} (h : f.cancelled = true) (target : Target)
    (cookie : Bool) (e : Error) : Harmless (f.loginFailed target cookie e) := by
  unfold State.loginFailed
  split
  · exact .inr ⟨h, rfl⟩
  · exact harmless_fail f e

variable {normalize : String → Except (List String) String}

theorem Harmless.step {f f' : ConnectFlow.State} {a : ConnectFlow.Act} (h : Harmless f)
    (hs : ConnectFlow.step normalize f a = some f') : Harmless f' ∧ ∀ b, a ≠ .submit b := by
  rcases h with hd | ⟨hc, hp⟩
  · cases hp : f.phase with
    | reporting msg =>
      cases a with
      | cancel => cases hs; exact ⟨.inl hd, by simp⟩
      | report =>
        simp only [ConnectFlow.step, hp] at hs
        cases hs
        exact ⟨.inl rfl, by simp⟩
      | _ => simp [ConnectFlow.step, hp] at hs
    | ended =>
      cases a with
      | cancel => cases hs; exact ⟨.inl hd, by simp⟩
      | _ => simp [ConnectFlow.step, hp] at hs
    | _ => rw [hp] at hd; cases hd
  · cases a with
    | submit b =>
      simp only [ConnectFlow.step] at hs
      split at hs
      · rename_i hq
        rw [hq] at hp
        cases hp
      · cases hs
    | answer login =>
      simp only [ConnectFlow.step] at hs
      split at hs
      all_goals first
        | (rename_i hq; rw [hq] at hp; cases hp)
        | cases hs
    | login =>
      -- the token is looked at before the request is sent
      simp only [ConnectFlow.step, hc] at hs
      split at hs
      · simp only [if_true] at hs
        cases hs
        exact ⟨harmless_loginFailed hc _ _ _, by simp⟩
      · cases hs
    | cancel =>
      cases hs
      exact ⟨.inr ⟨rfl, hp⟩, by simp⟩
    | respond otp =>
      simp only [ConnectFlow.step] at hs
      split at hs <;> cases hs
      exact ⟨.inr ⟨hc, hp⟩, by simp⟩
    | discover answer =>
      simp only [ConnectFlow.step, hc, if_true] at hs
      split at hs <;> cases hs
      exact ⟨harmless_fail f _, by simp⟩
    | _ =>
      refine ⟨?_, by simp⟩
      simp only [ConnectFlow.step] at hs
      repeat' split at hs
      all_goals cases hs
      all_goals first
        | exact harmless_fail f _
        | exact harmless_loginFailed hc _ _ _
        | exact .inr ⟨hc, rfl⟩

/-! ### What a handler does to the history -/

def AllHarmless (s : State γ) : Prop := ∀ f ∈ s.flows, Harmless f

/-- The history grows by `d`, without a stop. Unless a connection is started, harmless flows stay
harmless and submit nothing, and a `Disconnect` that a task is to send stays so or is sent. -/
structure Kept (s s' : State γ) (d : List Entry) : Prop where
  harmless : AllHarmless s → AllHarmless s'
  quiet : AllHarmless s → ∀ i, Entry.connect i ∉ d
  pending : .disconnect ∈ s.senders → .disconnect ∈ s'.senders ∨ .request .disconnect ∈ d

def Moves (s s' : State γ) : Prop :=
  s'.closed = s.closed ∧ ∃ d, s'.log = s.log ++ d ∧ .stop ∉ d ∧ (.start ∉ d → Kept s s' d)

theorem Moves.trans (h : Moves s s') (h' : Moves s' s'') : Moves s s'' := by
  obtain ⟨hc, d, hd, hn, hk⟩ := h
  obtain ⟨hc', d', hd', hn', hk'⟩ := h'
  refine ⟨hc'.trans hc, d ++ d', by rw [hd', hd, List.append_assoc], by simp [hn, hn'], ?_⟩
  intro hstart
  obtain ⟨h₁, h₂⟩ := not_or.mp (fun h => hstart (List.mem_append.mpr h))
  obtain ⟨a, b, c⟩ := hk h₁
  obtain ⟨a', b', c'⟩ := hk' h₂
  refine ⟨fun h => a' (a h), fun h i hi => ?_, fun h => ?_⟩
  · rcases List.mem_append.mp hi with hi | hi
    · exact b h i hi
    · exact b' (a h) i hi
  · rcases c h with h | h
    · exact (c' h).imp_right fun h => List.mem_append.mpr (.inr h)
    · exact .inr (List.mem_append.mpr (.inl h))

theorem Moves.of_eq (hf : s'.flows = s.flows) (hl : s'.log = s.log)
    (hs : s'.senders = s.senders) (hc : s'.closed = s.closed) : Moves s s' :=
  ⟨hc, [], by simp [hl], by simp, fun _ =>
    ⟨fun h => by simpa [AllHarmless, hf] using h, by simp, fun h => .inl (hs ▸ h)⟩⟩

theorem Moves.refl : Moves s s := .of_eq rfl rfl rfl rfl

theorem Moves.after (h : Moves s' s'') (hf : s'.flows = s.flows) (hl : s'.log = s.log)
    (hs : s'.senders = s.senders) (hc : s'.closed = s.closed) : Moves s s'' :=
  (Moves.of_eq hf hl hs hc).trans h

theorem Moves.start (hl : s'.log = s.log ++ [.start]) (hc : s'.closed = s.closed) : Moves s s' :=
  ⟨hc, [.start], hl, by simp, fun h => absurd (List.mem_singleton.mpr rfl) h⟩

theorem moves_received (vpnState : VpnState) : Moves s (s.received vpnState) := by
  unfold State.received
  split
  case h_3 => exact .refl
  all_goals exact ⟨rfl, [.settled], rfl, by simp, fun _ => ⟨id, by simp, .inl⟩⟩

theorem moves_tryStart (path : String) (loaded : Option Config) (portal gateway : Option String) :
    Moves s (s.tryStart path loaded portal gateway) := by
  obtain hs | ⟨-, -, config, p, hs⟩ := s.tryStart_cases path loaded portal gateway
  · rw [hs]
    exact .refl
  · rw [hs]
    exact .start rfl rfl

theorem moves_restart (attempt : ℕ) : Moves s (s.restartSubmittedConnect attempt) := by
  unfold State.restartSubmittedConnect
  split
  · exact .refl
  · split
    · exact .of_eq rfl rfl rfl rfl
    · exact .start rfl rfl

theorem moves_active : Moves s s.active := .of_eq rfl rfl rfl rfl

theorem moves_established : Moves s s.onSessionEstablished := by
  unfold State.onSessionEstablished
  dsimp only
  repeat' split
  all_goals exact .of_eq rfl rfl rfl rfl

theorem moves_apply (vpnState : VpnState) : Moves s (s.apply vpnState) := by
  unfold State.apply
  dsimp only
  repeat' split
  all_goals first
    | exact .of_eq rfl rfl rfl rfl
    | exact moves_established.after rfl rfl rfl rfl

theorem moves_handleVpnState (vpnState : VpnState) : Moves s (s.handleVpnState vpnState) := by
  refine (moves_received vpnState).trans ?_
  unfold State.handleVpnState
  dsimp only
  split
  · exact moves_active.trans (moves_apply _)
  · exact moves_active.trans (moves_apply _)
  · exact moves_active.trans ((moves_restart _).trans (moves_apply _))
  · split
    · exact .of_eq rfl rfl rfl rfl
    · exact (moves_apply _).after rfl rfl rfl rfl
  · split
    · exact .of_eq rfl rfl rfl rfl
    · exact (moves_apply _).after rfl rfl rfl rfl
  · exact moves_apply _

theorem moves_handleVpnEnv (path : String) (env : VpnEnv γ) (loaded : Option Config) :
    Moves s (s.handleVpnEnv path env loaded) := by
  refine (moves_received env.vpnState).trans ?_
  unfold State.handleVpnEnv
  dsimp only
  split
  · exact (moves_tryStart _ _ _ _).after rfl rfl rfl rfl
  · exact .of_eq rfl rfl rfl rfl

theorem moves_handleNotice (path : String) (loaded : Option Config) (notice : WsNotice γ) :
    Moves s (s.handleNotice path loaded notice) := by
  unfold State.handleNotice
  split
  · exact moves_handleVpnEnv path _ loaded
  · exact moves_handleVpnState _
  · unfold State.resumeConnection
    split
    · split
      · exact moves_tryStart _ _ _ _
      · exact .refl
    · exact .refl
  all_goals exact .of_eq rfl rfl rfl rfl

theorem moves_handleFlowMsg (i : ℕ) (msg : FlowMsg) : Moves s (s.handleFlowMsg i msg) := by
  unfold State.handleFlowMsg
  split <;> exact .of_eq rfl rfl rfl rfl

theorem moves_handleTimer (timer : TimerMsg) : Moves s (s.handleTimer timer) := by
  unfold State.handleTimer State.handleWatchdog
  repeat' split
  all_goals exact .of_eq rfl rfl rfl rfl

theorem moves_submitOtp (otp : String) : Moves s (s.submitOtp otp) := by
  unfold State.submitOtp
  split
  · exact .refl
  · refine ⟨rfl, [], by simp, by simp, fun _ => ⟨fun h f hf => ?_, by simp, .inl⟩⟩
    obtain ⟨j, hj, rfl⟩ := List.mem_iff_getElem.mp hf
    rw [List.length_modify] at hj
    have hold := h s.flows[j] (List.getElem_mem hj)
    rw [List.getElem_modify]
    split
    · repeat' split
      all_goals exact hold
    · exact hold

theorem moves_flow {i : ℕ} {f f' : ConnectFlow.State} {a : ConnectFlow.Act}
    (hi : s.flows[i]? = some f) (hs : ConnectFlow.step normalize f a = some f') :
    Moves s (State.deliver { s with flows := s.flows.set i f' } i f a) := by
  have hmem : f ∈ s.flows := List.mem_of_getElem? hi
  have hkeep : AllHarmless s → ∀ g ∈ s.flows.set i f', Harmless g := by
    intro h g hg
    rcases List.mem_or_eq_of_mem_set hg with hg | rfl
    · exact h g hg
    · exact ((h f hmem).step hs).1
  unfold State.deliver
  split
  · exact ⟨rfl, [], by simp, by simp, fun _ => ⟨hkeep, by simp, .inl⟩⟩
  · refine ⟨rfl, [.connect i], rfl, by simp, fun _ => ⟨hkeep, fun h => ?_, .inl⟩⟩
    exact absurd rfl (((h f hmem).step hs).2 true)
  · split <;> exact ⟨rfl, [], by simp, by simp, fun _ => ⟨hkeep, by simp, .inl⟩⟩
  · exact ⟨rfl, [], by simp, by simp, fun _ => ⟨hkeep, by simp, .inl⟩⟩

theorem moves_send (request : WsRequest) :
    Moves s (State.record { s with senders := s.senders.erase request } (.request request)) := by
  refine ⟨rfl, [.request request], rfl, by simp, fun _ => ⟨id, by simp, fun h => ?_⟩⟩
  by_cases hr : request = .disconnect
  · exact .inr (by simp [hr])
  · exact .inl ((List.mem_erase_of_ne (Ne.symm hr)).mpr h)

/-! ### Stops -/

/-- The command is handled as a stop. -/
def State.stops (s : State γ) : Command → Bool
  | .disconnect | .quit => true
  | .toggle => s.toggleStops
  | _ => false

/-- A stop in this state sends `Disconnect`. -/
def State.disconnects (s : State γ) : Command → Bool
  | .quit =>
    match s.model.vpnState with
    | .connecting _ | .connected _ => true
    | _ => false
  | _ =>
    s.connectCancel.isNone && match s.model.vpnState with
      | .connecting _ | .connected _ | .reconnectRequired _ => true
      | _ => false

/-- A flow put a request on the queue, and since then no end of a connection was received and no
`Disconnect` followed. -/
def outstanding (log : List Entry) : Bool :=
  log.foldl (fun open_ e =>
    match e with
    | .connect _ => true
    | .settled | .request .disconnect => false
    | _ => open_) false

/-- Every flow has ended its run, or waits before its next look at the token and is cancelled or the
one whose token the daemon holds. -/
def State.stoppable (s : State γ) : Bool :=
  (List.range s.flows.length).all fun i =>
    match s.flows[i]? with
    | some f => decided f.phase ||
        (!inFlight f.phase && (f.cancelled || s.connectCancel == some i))
    | none => true

/-- The steps of the runs considered: the service task does not end, and a stop is handled only when
no flow is in flight and every outstanding request is one that the stop sends `Disconnect` for. -/
def timely (s : State γ) : Act γ → Bool
  | .close => false
  | .command c _ =>
    !s.stops c || (s.stoppable &&
      (!outstanding s.log || s.senders.contains .disconnect || s.disconnects c))
  | _ => true

variable {path : String}

/-- Every step but a stop and the end of the service task is a move. -/
theorem step_moves {l : Act γ} (hc : s.closed = false) (hl : l ≠ .close)
    (h : step normalize path s l = some s') :
    Moves s s' ∨ ∃ c loaded, l = .command c loaded ∧ s.stops c = true ∧
      s' = s.handleCommand path loaded c := by
  cases l with
  | notice n loaded => obtain rfl := handle_some h; exact .inl (moves_handleNotice path loaded n)
  | noticesEnded =>
    simp only [step, hc] at h
    cases h
  | commandsEnded | signal => obtain rfl := handle_some h; exact .inl (.of_eq rfl rfl rfl rfl)
  | close => exact absurd rfl hl
  | flowMsg =>
    simp only [step] at h
    split at h
    · cases h
    · obtain rfl := handle_some h
      exact .inl ((moves_handleFlowMsg _ _).after rfl rfl rfl rfl)
  | timer t =>
    simp only [step] at h
    split at h
    · obtain rfl := handle_some h
      exact .inl ((moves_handleTimer _).after rfl rfl rfl rfl)
    · cases h
  | flow i a =>
    simp only [step] at h
    split at h
    · cases h
    · rename_i f hf
      split at h
      · obtain ⟨f', hf', rfl⟩ := Option.map_eq_some_iff.mp h
        exact .inl (moves_flow hf hf')
      · cases h
  | send request =>
    simp only [step] at h
    split at h
    · cases h
      rw [if_neg (by simp [hc])]
      exact .inl (moves_send request)
    · cases h
  | command c loaded =>
    obtain rfl := handle_some h
    cases c with
    | getStatus => exact .inl .refl
    | openPopup => exact .inl .refl
    | connect portal gateway => exact .inl (moves_tryStart _ _ _ _)
    | submitOtp otp => exact .inl (moves_submitOtp otp)
    | disconnect => exact .inr ⟨_, loaded, rfl, rfl, rfl⟩
    | quit => exact .inr ⟨_, loaded, rfl, rfl, rfl⟩
    | toggle =>
      by_cases ht : s.toggleStops = true
      · exact .inr ⟨_, loaded, rfl, ht, rfl⟩
      · left
        simp only [State.handleCommand, if_neg ht]
        exact moves_tryStart _ _ _ _

/-- What a stop does: it is recorded, and a `Disconnect` that it sends is on the queue or left to a
task. -/
structure Stopped (s s' : State γ) (c : Command) : Prop where
  closed : s'.closed = s.closed
  log : s'.log = s.log ++ [.stop] ∨ s'.log = s.log ++ [.stop, .request .disconnect]
  harmless : AllHarmless s → AllHarmless s'
  stopped : s.stoppable = true → AllHarmless s'
  pending : .disconnect ∈ s.senders → .disconnect ∈ s'.senders
  sent : s.disconnects c = true →
    .disconnect ∈ s'.senders ∨ s'.log = s.log ++ [.stop, .request .disconnect]

theorem mem_cancelFlow {i : ℕ} {f : ConnectFlow.State} (hf : f ∈ (s.cancelFlow i).flows) :
    ∃ j, ∃ g, s.flows[j]? = some g ∧
      ((j = i ∧ f = { g with cancelled := true }) ∨ (j ≠ i ∧ f = g)) := by
  obtain ⟨j, hj, rfl⟩ := List.mem_iff_getElem.mp hf
  have hj' : j < s.flows.length := by simpa [State.cancelFlow] using hj
  refine ⟨j, s.flows[j], List.getElem?_eq_getElem hj', ?_⟩
  by_cases hij : i = j
  · left
    exact ⟨hij.symm, by simp [State.cancelFlow, hij]⟩
  · right
    exact ⟨Ne.symm hij, by simp [State.cancelFlow, hij]⟩

theorem stoppable_flow (h : s.stoppable = true) {i : ℕ} {f : ConnectFlow.State}
    (hi : s.flows[i]? = some f) :
    decided f.phase = true ∨
      inFlight f.phase = false ∧ (f.cancelled = true ∨ s.connectCancel = some i) := by
  have hlt : i < s.flows.length := (List.getElem?_eq_some_iff.mp hi).1
  have := List.all_eq_true.mp h i (List.mem_range.mpr hlt)
  simpa [hi] using this

theorem allHarmless_cancelFlow (h : AllHarmless s) (i : ℕ) : AllHarmless (s.cancelFlow i) := by
  intro f hf
  obtain ⟨j, g, hg, ⟨-, rfl⟩ | ⟨-, rfl⟩⟩ := mem_cancelFlow hf
  · exact harmless_cancelled (h g (List.mem_of_getElem? hg))
  · exact h _ (List.mem_of_getElem? hg)

theorem allHarmless_of_stoppable (h : s.stoppable = true) {i : ℕ} (hc : s.connectCancel = some i) :
    AllHarmless (s.cancelFlow i) := by
  intro f hf
  obtain ⟨j, g, hg, ⟨-, rfl⟩ | ⟨hne, rfl⟩⟩ := mem_cancelFlow hf
  · rcases stoppable_flow h hg with hd | ⟨hp, -⟩
    · exact .inl hd
    · exact .inr ⟨rfl, hp⟩
  · rcases stoppable_flow h hg with hd | ⟨hp, hcan | hcan⟩
    · exact .inl hd
    · exact .inr ⟨hcan, hp⟩
    · exact absurd (Option.some.inj (hcan.symm.trans hc)) hne

theorem allHarmless_of_idle (h : s.stoppable = true) (hc : s.connectCancel = none) :
    AllHarmless s := by
  intro f hf
  obtain ⟨j, hj⟩ := List.mem_iff_getElem?.mp hf
  rcases stoppable_flow h hj with hd | ⟨hp, hcan | hcan⟩
  · exact .inl hd
  · exact .inr ⟨hcan, hp⟩
  · rw [hc] at hcan
    cases hcan

theorem stopped_disconnect {c : Command} (hq : c ≠ .quit) :
    Stopped s (s.record .stop).disconnect c := by
  unfold State.disconnect
  cases hc : s.connectCancel with
  | some i =>
    simp only [State.record, hc]
    refine ⟨rfl, .inl rfl, fun h => allHarmless_cancelFlow h i,
      fun h => allHarmless_of_stoppable h hc, id, fun hd => ?_⟩
    cases c <;> simp [State.disconnects, hc] at hd hq
  | none =>
    have hidle : s.stoppable = true → AllHarmless s := fun h => allHarmless_of_idle h hc
    simp only [State.record, hc]
    split
    case h_4 hv₁ hv₂ hv₃ =>
      refine ⟨rfl, .inl rfl, id, hidle, id, fun hd => ?_⟩
      cases hv : s.model.vpnState <;> cases c <;>
        simp_all [State.disconnects]
    all_goals
      exact ⟨rfl, .inl rfl, id, hidle, fun h => List.mem_append.mpr (.inl h),
        fun _ => .inl (by simp)⟩

/-- The first part of `Quit`: the flow whose token the daemon holds is cancelled. -/
def State.quitCancel (s : State γ) : State γ :=
  match s.connectCancel with
  | some i => State.cancelFlow { s with connectCancel := none } i
  | none => s

/-- The second part: `Disconnect` is sent, or the daemon exits. -/
def State.quitSend (s : State γ) : State γ :=
  match s.model.vpnState with
  | .connecting _ | .connected _ =>
    let s := { s with
      quitting := true, disconnectRequested := true, timers := s.timers ++ [.quitTimeout] }
    if s.closed then s else s.record (.request .disconnect)
  | _ => s.exit 0

theorem quit_eq : s.quit = (s.record .stop).quitCancel.quitSend := rfl

theorem quitCancel_rest : s.quitCancel.log = s.log ∧ s.quitCancel.senders = s.senders ∧
    s.quitCancel.model = s.model ∧ s.quitCancel.closed = s.closed := by
  unfold State.quitCancel
  split <;> exact ⟨rfl, rfl, rfl, rfl⟩

theorem quitCancel_harmless (h : AllHarmless s) : AllHarmless s.quitCancel := by
  unfold State.quitCancel
  split
  · exact allHarmless_cancelFlow h _
  · exact h

theorem quitCancel_stopped (h : s.stoppable = true) : AllHarmless s.quitCancel := by
  cases hc : s.connectCancel with
  | some i =>
    simp only [State.quitCancel, hc]
    exact allHarmless_of_stoppable h hc
  | none =>
    have hidle : AllHarmless s := allHarmless_of_idle h hc
    simpa only [State.quitCancel, hc] using hidle

theorem quitSend_sent (hcl : s.closed = false) (hd : s.disconnects .quit = true) :
    s.quitSend.log = s.log ++ [.request .disconnect] ∧ s.quitSend.flows = s.flows ∧
      s.quitSend.senders = s.senders ∧ s.quitSend.closed = s.closed := by
  cases hv : s.model.vpnState <;>
    simp_all [State.quitSend, State.disconnects, State.record]

theorem quitSend_exit (hd : s.disconnects .quit = false) : s.quitSend = s.exit 0 := by
  cases hv : s.model.vpnState <;> simp_all [State.quitSend, State.disconnects]

theorem stopped_quit (hcl : s.closed = false) : Stopped s s.quit .quit := by
  obtain ⟨hlog, hsend, hmodel, hclosed⟩ := quitCancel_rest (s := s.record .stop)
  have hkeep : AllHarmless s → AllHarmless (s.record .stop).quitCancel :=
    fun h => quitCancel_harmless (s := s.record .stop) h
  have hstop : s.stoppable = true → AllHarmless (s.record .stop).quitCancel :=
    fun h => quitCancel_stopped (s := s.record .stop) h
  have hdis : (s.record .stop).quitCancel.disconnects .quit = s.disconnects .quit := by
    simp only [State.disconnects, hmodel]
    rfl
  rw [quit_eq]
  cases hd : s.disconnects .quit with
  | true =>
    obtain ⟨hl, hf, hs, hc⟩ := quitSend_sent (hclosed.trans hcl) (hdis.trans hd)
    have hl' : (s.record .stop).quitCancel.quitSend.log =
        s.log ++ [.stop, .request .disconnect] := by
      rw [hl, hlog]
      simp [State.record]
    refine ⟨hc.trans hclosed, .inr hl', fun h f hm => hkeep h f (hf ▸ hm),
      fun h f hm => hstop h f (hf ▸ hm),
      fun h => ?_, fun _ => .inr hl'⟩
    rw [hs, hsend]
    exact h
  | false =>
    rw [quitSend_exit (hdis.trans hd)]
    refine ⟨hclosed, .inl hlog, hkeep, hstop, fun h => ?_, fun h => ?_⟩
    · exact hsend.symm ▸ h
    · rw [hd] at h
      cases h

theorem stopped_handleCommand {c : Command} (hcl : s.closed = false) (hs : s.stops c = true)
    (loaded : Option Config) : Stopped s (s.handleCommand path loaded c) c := by
  cases c with
  | disconnect => exact stopped_disconnect (by simp)
  | quit => exact stopped_quit hcl
  | toggle =>
    have ht : s.toggleStops = true := hs
    simp only [State.handleCommand, if_pos ht]
    exact stopped_disconnect (by simp)
  | _ => cases hs

/-! ### Whole runs -/

theorem over_of_not_outstanding {log a b : List Entry} {i : ℕ} (h : outstanding log = false)
    (hl : log = a ++ .connect i :: b) : .settled ∈ b ∨ .request .disconnect ∈ b := by
  -- from the end: what the last entries of `b` leave of the request
  have hb : ∀ b : List Entry, .settled ∉ b → .request .disconnect ∉ b →
      b.foldl (fun open_ e => match e with
        | .connect _ => true
        | .settled | .request .disconnect => false
        | _ => open_) true = true := by
    intro b
    induction b with
    | nil => intros; rfl
    | cons e b ih =>
      intro h₁ h₂
      rw [List.foldl_cons]
      simp only [List.mem_cons, not_or] at h₁ h₂
      have := ih h₁.2 h₂.2
      cases e with
      | settled => exact absurd rfl h₁.1
      | request r =>
        cases r with
        | disconnect => exact absurd rfl h₂.1
        | connect r => exact this
      | _ => exact this
  by_cases h₁ : .settled ∈ b
  · exact .inl h₁
  · by_cases h₂ : .request .disconnect ∈ b
    · exact .inr h₂
    · rw [hl, outstanding, List.foldl_append, List.foldl_cons, hb b h₁ h₂] at h
      cases h

/-- What holds since a stop after which nothing was started: no flow can submit, none has, and each
earlier request was over at the stop or has its `Disconnect`. -/
structure SinceStop (s : State γ) (pre post : List Entry) : Prop where
  harmless : AllHarmless s
  quiet : ∀ i, Entry.connect i ∉ post
  covered : ∀ a b i, pre = a ++ .connect i :: b →
    .settled ∈ b ∨ .request .disconnect ∈ b ++ post ∨ .disconnect ∈ s.senders

/-- The service task runs, and every stop without a later start is in effect. -/
structure InEffect (s : State γ) : Prop where
  running : s.closed = false
  since : ∀ pre post, s.log = pre ++ .stop :: post → .start ∉ post → SinceStop s pre post

theorem SinceStop.move {pre rest d : List Entry} (h : SinceStop s pre rest) (hk : Kept s s' d) :
    SinceStop s' pre (rest ++ d) := by
  refine ⟨hk.harmless h.harmless, fun i hi => ?_, fun a b i hp => ?_⟩
  · rcases List.mem_append.mp hi with hi | hi
    · exact h.quiet i hi
    · exact hk.quiet h.harmless i hi
  · rcases h.covered a b i hp with h | h | h
    · exact .inl h
    · exact .inr (.inl (by rw [← List.append_assoc]; exact List.mem_append.mpr (.inl h)))
    · rcases hk.pending h with h | h
      · exact .inr (.inr h)
      · exact .inr (.inl (by simp [h]))

theorem Stopped.kept {c : Command} (h : Stopped s s' c) :
    ∃ e, s'.log = s.log ++ .stop :: e ∧ .stop ∉ e ∧ (∀ i, Entry.connect i ∉ e) ∧
      Kept s s' (.stop :: e) ∧
      (s.disconnects c = true → .disconnect ∈ s'.senders ∨ .request .disconnect ∈ e) := by
  have hkept : ∀ e : List Entry, (∀ i, Entry.connect i ∉ e) → Kept s s' (.stop :: e) :=
    fun e he => ⟨h.harmless, fun _ i hi => by simp [he i] at hi, fun hp => .inl (h.pending hp)⟩
  rcases h.log with hl | hl
  · refine ⟨[], hl, by simp, by simp, hkept [] (by simp), fun hd => ?_⟩
    rcases h.sent hd with hs | hs
    · exact .inl hs
    · rw [hl] at hs
      simp at hs
  · exact ⟨[.request .disconnect], hl, by simp, by simp, hkept _ (by simp), fun _ => .inr (by simp)⟩

theorem InEffect.step {l : Act γ} (hi : InEffect s) (ht : timely s l = true)
    (h : Daemon.step normalize path s l = some s') : InEffect s' := by
  have hl : l ≠ .close := by
    rintro rfl
    cases ht
  obtain ⟨hc, d, hd, hstop, hk⟩ | ⟨c, loaded, rfl, hs, rfl⟩ := step_moves hi.running hl h
  · refine ⟨hc.trans hi.running, fun pre post hlog hstart => ?_⟩
    rw [hd] at hlog
    obtain ⟨rest, rfl, hx⟩ | ⟨front, -, rfl⟩ := History.split_append hlog
    · have hn : .start ∉ rest ∧ .start ∉ d := by simpa using hstart
      exact (hi.since pre rest hx hn.1).move (hk hn.2)
    · exact absurd (by simp) hstop
  · have hst : Stopped s (s.handleCommand path loaded c) c :=
      stopped_handleCommand hi.running hs loaded
    refine ⟨hst.closed.trans hi.running, fun pre post hlog hstart => ?_⟩
    obtain ⟨e, hd, hstop, hquiet, hk, hsent⟩ := hst.kept
    rw [hd] at hlog
    obtain ⟨rest, rfl, hx⟩ | ⟨front, hpre, hfront⟩ := History.split_append hlog
    · have hn : .start ∉ rest := fun hm => hstart (List.mem_append.mpr (.inl hm))
      exact (hi.since pre rest hx hn).move hk
    · -- the stop is the one just handled
      obtain ⟨rfl, rfl⟩ : front = [] ∧ e = post := by
        cases front with
        | nil => exact ⟨rfl, (List.cons.inj hfront).2⟩
        | cons y front =>
          obtain ⟨-, rfl⟩ := List.cons.inj hfront
          exact absurd (by simp) hstop
      rw [List.append_nil] at hpre
      subst hpre
      have htim : s.stoppable = true ∧ (outstanding s.log = false ∨ .disconnect ∈ s.senders ∨
          s.disconnects c = true) := by
        simpa [timely, hs, or_assoc] using ht
      refine ⟨hst.stopped htim.1, hquiet, fun a b i hp => ?_⟩
      rcases htim.2 with ho | ho | ho
      · exact (over_of_not_outstanding ho hp).imp_right fun h => .inl (by simp [h])
      · exact .inr (.inr (hst.pending ho))
      · rcases hsent ho with h | h
        · exact .inr (.inr h)
        · exact .inr (.inl (by simp [h]))

/-- **No stop is lost**: in every run whose stops are timely, if no connection is started after a
stop, each request that a flow puts on the queue was over when the stop was handled, or is followed
by `Disconnect`, or a task is about to send it. -/
theorem stop_not_lost (config : Config)
    (h : ((machine (γ := γ) normalize path config).guard timely).Reachable s)
    {pre post : List Entry} (hlog : s.log = pre ++ .stop :: post) (hstart : .start ∉ post)
    {a b : List Entry} {i : ℕ} (hc : s.log = a ++ .connect i :: b) :
    (∃ c, pre = a ++ .connect i :: c ∧ .settled ∈ c) ∨ .request .disconnect ∈ b ∨
      .disconnect ∈ s.senders := by
  have hin : InEffect s := by
    refine h.invariant ⟨rfl, fun pre post hlog => ?_⟩ fun s l s' _ hi hs => ?_
    · exact absurd hlog.symm (by simp [Machine.guard, machine])
    · obtain ⟨ht, hs⟩ := Machine.guard_step.mp hs
      exact hi.step ht hs
  obtain ⟨-, hquiet, hcov⟩ := hin.since pre post hlog hstart
  obtain ⟨rest, rfl, hpre⟩ | ⟨front, -, hpost⟩ := History.split_append (hlog.symm.trans hc)
  · rcases hcov a rest i hpre with h | h | h
    · exact .inl ⟨rest, hpre, h⟩
    · refine .inr (.inl ?_)
      simpa using h
    · exact .inr (.inr h)
  · cases front with
    | nil => cases (List.cons.inj hpost).1
    | cons y front =>
      obtain ⟨-, rfl⟩ := List.cons.inj hpost
      exact absurd (by simp) (hquiet i)

/-- The environment a service without a connection reports. -/
def idleEnv : VpnEnv Unit where
  tunnelState := none
  vpnState := .disconnected
  vpncScript := none
  authExecutable := "gpauth"
  hostInfo := ⟨{ computer := "host", hostId := "id", serialNumber := "sn", macAddress := "mac" }⟩

/-- A flow is started and its login is answered, and then what `rest` says. -/
def connectRun (rest : List (Act Unit)) : List (Act Unit) :=
  [.notice (.event (.vpnEnv idleEnv)) none, .command (.connect none none) none] ++
    (loginRun (.authenticated ⟨"c", "tunnel"⟩)).map (.flow 0) ++ rest

/-- The service reports that it connects. -/
def connectingNotice : Act Unit :=
  .notice (.event (.vpnState (.connecting
    { portal := "vpn", gateway := exampleGateway, gateways := [exampleGateway] }))) none

def exampleMachine : Machine (State Unit) (Act Unit) :=
  machine .ok "config.toml" { portal := some "vpn" }

/-- A stop while the service is shown as connecting. -/
theorem stop_not_lost_connecting :
    ∃ s, (exampleMachine.guard timely).Reachable s ∧
      s.log = [.settled, .start, .connect 0, .stop, .request .disconnect] ∧
      ((∃ c, [.settled, .start, .connect 0] = [.settled, .start] ++ Entry.connect 0 :: c ∧
          .settled ∈ c) ∨
        .request .disconnect ∈ [Entry.stop, .request .disconnect] ∨ .disconnect ∈ s.senders) := by
  obtain ⟨s, hs, hp⟩ := Machine.Reachable.of_run (M := exampleMachine.guard timely)
    (connectRun [.flow 0 (.submit true), .flow 0 .report, .flowMsg, connectingNotice,
      .command .disconnect none, .send .disconnect])
    (p := fun s => decide (s.log = [.settled, .start, .connect 0, .stop, .request .disconnect]))
    (by decide +kernel)
  have hstop : s.log = [.settled, .start, .connect 0] ++ .stop :: [.request .disconnect] :=
    of_decide_eq_true hp
  have hconnect : s.log = [.settled, .start] ++ .connect 0 :: [.stop, .request .disconnect] := hstop
  exact ⟨s, hs, hstop, stop_not_lost { portal := some "vpn" } hs hstop (by simp) hconnect⟩

/-- A stop is lost between the request and the message about it, and while a login is in flight: the
flow has ended, nothing is left to handle or to send, and no `Disconnect` follows the request. -/
theorem stop_lost :
    (∃ s, exampleMachine.Reachable s ∧ s.log = [.settled, .start, .connect 0, .stop] ∧
      s.senders = [] ∧ s.flowMsgs = [] ∧ s.flows.map (·.phase) = [.ended]) ∧
    ∃ s, exampleMachine.Reachable s ∧ s.log = [.settled, .start, .stop, .connect 0] ∧
      s.senders = [] ∧ s.flowMsgs = [] ∧ s.flows.map (·.phase) = [.ended] :=
  ⟨⟨_, ⟨connectRun [.flow 0 (.submit true), .command .disconnect none, .flow 0 .report, .flowMsg],
      rfl⟩, rfl, rfl, rfl, rfl⟩,
    ⟨_, ⟨[.notice (.event (.vpnEnv idleEnv)) none, .command (.connect none none) none] ++
        ((loginRun (.authenticated ⟨"c", "tunnel"⟩)).take 5).map (.flow 0) ++
        [.command .disconnect none, .flow 0 (.answer (.authenticated ⟨"c", "tunnel"⟩)),
          .flow 0 (.submit true), .flow 0 .report, .flowMsg], rfl⟩, rfl, rfl, rfl, rfl⟩⟩

end GlobalProtect.Widget.Daemon
