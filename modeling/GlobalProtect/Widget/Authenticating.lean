import GlobalProtect.Widget.Isolation

/-! # When the widget shows a login

The daemon together with the widget state of its last snapshot. `Authenticating` is shown from the
start of a flow on. What ends it is the flow's own failure, a rejection, the watchdog of a submitted
request, or a service state that says that a connection is under way. A `Disconnected` or `Failed`
state does not end it, and neither does the snapshot of a new attach. So if the service is first
heard of in one of these ways, the widget shows a login that no one is working on
(`login_shown_for_ever`).

`expected` says that ends of connections are not heard of while a submitted request waits for its
first service state. In every run of such steps, a login is shown only while a flow is open or a
request waits with its watchdog (`login_accounted`). -/

namespace GlobalProtect.Widget.Daemon

open Lib Api Widget.ConnectFlow

variable {γ : Type} {s s' s'' : State γ}

/-! ### What is published -/

/-- The daemon and what its last snapshot shows. `silent` is a history: no news of the service has
come since a flow last submitted a request. -/
structure Watched (γ : Type) where
  daemon : State γ
  published : WidgetState
  silent : Bool := false

def isSubmitted : FlowMsg → Bool
  | .submitted _ => true
  | _ => false

/-- The handler publishes a snapshot, after its last change to the model. -/
def publishes (s s' : State γ) : Act γ → Bool
  | .notice (.event (.vpnEnv _)) _ | .notice (.rejected _) _ => true
  | .notice (.event (.vpnState _)) _ => s'.exitCode.isNone
  | .notice (.event .resumeConnection) _ | .command (.connect _ _) _ | .command .toggle _ =>
    -- a flow was started
    decide (s.flows.length < s'.flows.length)
  | .flowMsg => s.flowMsgs.head?.any fun m => final m.2 && !isSubmitted m.2
  | .timer (.connectWatchdog generation) =>
    decide (generation = s.watchdogGeneration ∧ s.model.vpnState = .disconnected ∧
      s.connectCancel = none)
  | _ => false

/-- An event of the service is news, and a snapshot that shows another state. -/
def Watched.silentAfter (w : Watched γ) : Act γ → Bool
  | .flow _ (.submit true) => true
  | .notice (.event (.vpnState _)) _ => false
  | .notice (.event (.vpnEnv env)) _ => w.silent && env.vpnState = w.daemon.model.vpnState
  | _ => w.silent

variable (normalize : String → Except (List String) String) (path : String)

def Watched.step (w : Watched γ) (l : Act γ) : Option (Watched γ) :=
  (Daemon.step normalize path w.daemon l).map fun s' =>
    { daemon := s'
      published := if publishes w.daemon s' l then s'.model.widgetState else w.published
      silent := w.silentAfter l }

/-- The first snapshot is that of the initial model. -/
def watched (config : Config) : Machine (Watched γ) (Act γ) where
  init :=
    let s := (machine (γ := γ) normalize path config).init
    { daemon := s, published := s.model.widgetState }
  step := Watched.step normalize path

variable {normalize path}

/-! ### Open flows -/

def hasSubmitted : Phase → Bool
  | .reporting msg => isSubmitted msg
  | _ => false

/-- Some flow has not ended or its last message is not handled, and it has (not) submitted its
request. -/
def State.hasOpen (s : State γ) (submitted : Bool) : Bool :=
  s.flows.any (fun f => f.phase ≠ .ended && hasSubmitted f.phase == submitted) ||
    s.flowMsgs.any fun m => final m.2 && isSubmitted m.2 == submitted

def State.phases (s : State γ) : List Phase := s.flows.map (·.phase)

/-- The same for flow `i`. -/
def Open (s : State γ) (i : ℕ) (submitted : Bool) : Prop :=
  (∃ p, s.phases[i]? = some p ∧ p ≠ .ended ∧ hasSubmitted p = submitted) ∨
    ∃ msg, (i, msg) ∈ s.flowMsgs ∧ final msg = true ∧ isSubmitted msg = submitted

theorem hasOpen_iff {b : Bool} : s.hasOpen b = true ↔ ∃ i, Open s i b := by
  simp only [State.hasOpen, Open, State.phases, Bool.or_eq_true, List.any_eq_true, Bool.and_eq_true,
    decide_eq_true_eq, beq_iff_eq, List.getElem?_map, Option.map_eq_some_iff]
  constructor
  · rintro (⟨f, hf, hended, hsub⟩ | ⟨⟨i, msg⟩, hmem, hfinal, hsub⟩)
    · obtain ⟨i, hi⟩ := List.mem_iff_getElem?.mp hf
      exact ⟨i, .inl ⟨_, ⟨f, hi, rfl⟩, hended, hsub⟩⟩
    · exact ⟨i, .inr ⟨msg, hmem, hfinal, hsub⟩⟩
  · rintro ⟨i, ⟨_, ⟨f, hi, rfl⟩, hended, hsub⟩ | ⟨msg, hmem, hfinal, hsub⟩⟩
    · exact .inl ⟨f, List.mem_of_getElem? hi, hended, hsub⟩
    · exact .inr ⟨(i, msg), hmem, hfinal, hsub⟩

/-! ### Steps of a flow -/

/-- A phase that ends with a last message. -/
def Ending : Phase → Prop
  | .reporting msg => final msg = true
  | _ => True

/-- The request is not submitted and the flow has not ended. -/
structure Going (p : Phase) : Prop where
  live : p ≠ .ended
  unsubmitted : hasSubmitted p = false
  ending : Ending p

theorem going_fail (f : ConnectFlow.State) (e : Error) : Going (f.fail e).phase :=
  ⟨by simp [State.fail], rfl, rfl⟩

theorem going_loginFailed (f : ConnectFlow.State) (target : Target) (cookie : Bool) (e : Error) :
    Going (f.loginFailed target cookie e).phase := by
  unfold State.loginFailed
  split
  · exact ⟨by simp, rfl, trivial⟩
  · exact going_fail f e

theorem going_discovered (f : ConnectFlow.State) (config : Portal.PortalConfig) (region : String) :
    Going (f.discovered config region).phase := by
  unfold State.discovered
  dsimp only
  split
  · exact going_fail f _
  · dsimp only
    split <;> exact ⟨by simp, rfl, trivial⟩

theorem going_authenticated (f : ConnectFlow.State) (target : Target) (a : GatewayAuthentication) :
    Going (f.authenticated normalize target a).phase := by
  unfold State.authenticated
  dsimp only
  repeat' split
  · exact going_fail _ _
  · exact going_fail _ _
  · exact ⟨by simp, rfl, trivial⟩

theorem going_step {f f' : ConnectFlow.State} {a : ConnectFlow.Act} (hcancel : a ≠ .cancel)
    (hreport : a ≠ .report) (hsubmit : a ≠ .submit true)
    (h : ConnectFlow.step normalize f a = some f') :
    hasSubmitted f.phase = false ∧ Going f'.phase := by
  have hlive : hasSubmitted f.phase = false := by
    cases hp : f.phase with
    | reporting msg => cases a <;> simp_all [ConnectFlow.step]
    | _ => rfl
  refine ⟨hlive, ?_⟩
  cases a with
  | cancel => exact absurd rfl hcancel
  | report => exact absurd rfl hreport
  | _ =>
    simp only [ConnectFlow.step] at h
    repeat' split at h
    all_goals cases h
    all_goals first
      | exact going_fail _ _
      | exact going_loginFailed _ _ _ _
      | exact going_discovered _ _ _
      | exact going_authenticated _ _ _
      | exact ⟨by simp, rfl, trivial⟩
      | (rename_i hp _; simp only [hp]; exact ⟨by simp, rfl, trivial⟩)
      | simp_all

theorem submit_step {f f' : ConnectFlow.State}
    (h : ConnectFlow.step normalize f (.submit true) = some f') :
    ∃ request, f.phase = .submitting request ∧ f'.phase = .reporting (.submitted request) := by
  simp only [ConnectFlow.step] at h
  split at h
  · rename_i request hp
    cases h
    exact ⟨request, hp, rfl⟩
  · cases h

theorem report_step {f f' : ConnectFlow.State}
    (h : ConnectFlow.step normalize f .report = some f') :
    ∃ msg, f.phase = .reporting msg ∧ f'.phase = .ended := by
  simp only [ConnectFlow.step] at h
  split at h
  · rename_i msg hp
    cases h
    exact ⟨msg, hp, rfl⟩
  · cases h

/-! ### Handlers -/

/-- The flows and their messages are as before, and no token was taken up. -/
structure Quiet (s s' : State γ) : Prop where
  phases : s'.phases = s.phases
  flowMsgs : s'.flowMsgs = s.flowMsgs
  token : ∀ i, s'.connectCancel = some i → s.connectCancel = some i

/-- The watchdog is as before. -/
structure Timed (s s' : State γ) : Prop where
  generation : s'.watchdogGeneration = s.watchdogGeneration
  timers : ∀ g, .connectWatchdog g ∈ s.timers → .connectWatchdog g ∈ s'.timers

/-- Nothing that is shown has changed. -/
structure Still (s s' : State γ) : Prop extends Quiet s s', Timed s s' where
  model : s'.model = s.model

theorem Quiet.trans (h : Quiet s s') (h' : Quiet s' s'') : Quiet s s'' :=
  ⟨h'.phases.trans h.phases, h'.flowMsgs.trans h.flowMsgs, fun i hi => h.token i (h'.token i hi)⟩

theorem Timed.trans (h : Timed s s') (h' : Timed s' s'') : Timed s s'' :=
  ⟨h'.generation.trans h.generation, fun g hg => h'.timers g (h.timers g hg)⟩

theorem Still.trans (h : Still s s') (h' : Still s' s'') : Still s s'' :=
  ⟨h.toQuiet.trans h'.toQuiet, h.toTimed.trans h'.toTimed, h'.model.trans h.model⟩

theorem Still.refl : Still s s := ⟨⟨rfl, rfl, fun _ h => h⟩, ⟨rfl, fun _ h => h⟩, rfl⟩

theorem Still.of_eq (hf : s'.flows = s.flows) (hm : s'.flowMsgs = s.flowMsgs)
    (hc : s'.connectCancel = s.connectCancel) (hg : s'.watchdogGeneration = s.watchdogGeneration)
    (ht : s'.timers = s.timers) (hmodel : s'.model = s.model) : Still s s' where
  phases := congrArg (List.map _) hf
  flowMsgs := hm
  token := fun _ h => hc ▸ h
  generation := hg
  timers := fun _ h => ht ▸ h
  model := hmodel

theorem Quiet.opened (h : Quiet s s') {i : ℕ} {b : Bool} (ho : Open s i b) : Open s' i b := by
  unfold Open at ho ⊢
  rw [h.phases, h.flowMsgs]
  exact ho

theorem still_record (e : Entry) : Still s (s.record e) := .of_eq rfl rfl rfl rfl rfl rfl

theorem still_received (v : VpnState) : Still s (s.received v) := by
  unfold State.received
  split
  case h_3 => exact .refl
  all_goals exact still_record _

theorem quiet_restart (attempt : ℕ) : Quiet s (s.restartSubmittedConnect attempt) ∧
    (s.restartSubmittedConnect attempt).model.authenticating = s.model.authenticating := by
  unfold State.restartSubmittedConnect
  repeat' split
  all_goals exact ⟨⟨rfl, rfl, fun _ h => h⟩, rfl⟩

theorem quiet_apply (v : VpnState) : Quiet s (s.apply v) ∧ Timed s (s.apply v) ∧
    (s.apply v).model = s.model.applyVpnState v ∧ (s.apply v).exitCode = s.exitCode := by
  unfold State.apply State.onSessionEstablished
  dsimp only
  repeat' split
  all_goals exact ⟨⟨rfl, rfl, fun _ h => h⟩, ⟨rfl, fun _ h => by simp [h]⟩, rfl, rfl⟩

theorem applyVpnState_authenticating (m : Model γ) (v : VpnState) :
    (m.applyVpnState v).authenticating = m.authenticating := by
  cases v <;> rfl

theorem applyVpnState_settled (m : Model γ) (v : VpnState) (reason : String) :
    (m.applyVpnState v).vpnState ≠ .failed reason := by
  cases v <;> simp [Model.applyVpnState]

/-- A flow is started. -/
structure Launched (s s' : State γ) : Prop where
  phases : s'.phases = s.phases ++ [.portalPrelogin]
  flowMsgs : s'.flowMsgs = s.flowMsgs
  token : s'.connectCancel = some s.phases.length
  idle : s'.model.vpnState = .disconnected

theorem launched_tryStart (path : String) (loaded : Option Config)
    (portal gateway : Option String) :
    s.tryStart path loaded portal gateway = s ∨
      Launched s (s.tryStart path loaded portal gateway) := by
  refine (s.tryStart_cases path loaded portal gateway).imp_right ?_
  rintro ⟨-, hidle, config, p, hs⟩
  rw [hs]
  refine ⟨?_, rfl, ?_, hidle⟩
  · simp [State.phases, State.record]
  · simp [State.phases, State.record]

theorem phases_modify {l : List ConnectFlow.State} (i : ℕ)
    {f : ConnectFlow.State → ConnectFlow.State} (hf : ∀ x, (f x).phase = x.phase) :
    (l.modify i f).map (·.phase) = l.map (·.phase) := by
  refine List.ext_getElem? fun j => ?_
  rw [List.getElem?_map, List.getElem?_map, List.getElem?_modify]
  cases l[j]? with
  | none => rfl
  | some x =>
    by_cases hij : i = j
    · simp [hij, hf]
    · simp [hij]

theorem still_submitOtp (otp : String) : Still s (s.submitOtp otp) := by
  unfold State.submitOtp
  split
  · exact .refl
  · refine { Still.refl with phases := phases_modify _ fun f => ?_ }
    repeat' split
    all_goals rfl

theorem still_cancelFlow (i : ℕ) :
    Still s (State.cancelFlow { s with connectCancel := none } i) where
  phases := phases_modify _ fun _ => rfl
  flowMsgs := rfl
  token := fun _ h => by cases h
  generation := rfl
  timers := fun _ h => h
  model := rfl

theorem still_disconnect : Still s s.disconnect := by
  unfold State.disconnect
  split
  · exact still_cancelFlow _
  · split <;> exact .of_eq rfl rfl rfl rfl rfl rfl

theorem still_quitSend : Still s s.quitSend := by
  unfold State.quitSend
  dsimp only
  repeat' split
  all_goals exact { Still.refl with timers := fun _ h => by simp [State.record, State.exit, h] }

theorem still_quit : Still s s.quit := by
  rw [quit_eq]
  refine (still_record .stop).trans (Still.trans ?_ still_quitSend)
  unfold State.quitCancel
  split
  · exact still_cancelFlow _
  · exact .refl

/-! ### The invariant -/

/-- A login that is shown is that of an open flow, or of a request whose first service state is
awaited. The daemon holds only tokens of open flows. -/
structure Accounted (s : State γ) (silent : Bool) : Prop where
  settled : ∀ reason, s.model.vpnState ≠ .failed reason
  endings : ∀ p ∈ s.phases, Ending p
  token : ∀ i, s.connectCancel = some i → ∃ b, Open s i b
  waiting : s.model.authenticating = true → s.model.vpnState = .disconnected →
    (∃ i, Open s i false) ∨ silent = true ∧
      ((∃ i, Open s i true) ∨ .connectWatchdog s.watchdogGeneration ∈ s.timers)

variable {silent silent' : Bool}

theorem Accounted.quiet (h : Accounted s silent) (hq : Quiet s s')
    (hsettled : ∀ reason, s'.model.vpnState ≠ .failed reason)
    (hwaiting : s'.model.authenticating = true → s'.model.vpnState = .disconnected →
      (∃ i, Open s i false) ∨ silent' = true ∧
        ((∃ i, Open s i true) ∨ .connectWatchdog s'.watchdogGeneration ∈ s'.timers)) :
    Accounted s' silent' where
  settled := hsettled
  endings := hq.phases ▸ h.endings
  token i hi := by
    obtain ⟨b, hb⟩ := h.token i (hq.token i hi)
    exact ⟨b, hq.opened hb⟩
  waiting hauth hstate := by
    rcases hwaiting hauth hstate with ⟨i, hi⟩ | ⟨hsilent, ⟨i, hi⟩ | htimer⟩
    · exact .inl ⟨i, hq.opened hi⟩
    · exact .inr ⟨hsilent, .inl ⟨i, hq.opened hi⟩⟩
    · exact .inr ⟨hsilent, .inr htimer⟩

theorem Accounted.still (h : Accounted s silent) (hs : Still s s') : Accounted s' silent := by
  refine h.quiet hs.toQuiet (by rw [hs.model]; exact h.settled) fun hauth hstate => ?_
  rw [hs.model] at hauth hstate
  rw [hs.generation]
  exact (h.waiting hauth hstate).imp_right fun ⟨hsilent, hrest⟩ =>
    ⟨hsilent, hrest.imp_right (hs.timers _)⟩

theorem Accounted.over (h : Accounted s silent) (hq : Quiet s s')
    (hsettled : ∀ reason, s'.model.vpnState ≠ .failed reason)
    (hauth : s'.model.authenticating = false) : Accounted s' silent' :=
  h.quiet hq hsettled fun hauth' => by rw [hauth] at hauth'; cases hauth'

theorem Accounted.launched (h : Accounted s silent) (hs : Launched s s') :
    Accounted s' silent' where
  settled reason := by rw [hs.idle]; simp
  endings := by
    rw [hs.phases]
    exact forall_mem_snoc h.endings trivial
  token i hi := by
    obtain rfl := Option.some.inj (hs.token.symm.trans hi)
    refine ⟨false, .inl ⟨.portalPrelogin, ?_, by simp, rfl⟩⟩
    rw [hs.phases, List.getElem?_concat_length]
  waiting _ _ := by
    refine .inl ⟨s.phases.length, .inl ⟨.portalPrelogin, ?_, by simp, rfl⟩⟩
    rw [hs.phases, List.getElem?_concat_length]

theorem Accounted.tryStart (h : Accounted s silent) (path : String) (loaded : Option Config)
    (portal gateway : Option String) :
    Accounted (s.tryStart path loaded portal gateway) silent := by
  rcases launched_tryStart (s := s) path loaded portal gateway with hs | hs
  · rw [hs]
    exact h
  · exact h.launched hs

/-! ### Steps -/

/-- A state that ends a connection is heard of only when no request waits for its first service
state: no login is shown, or a flow is open that has not submitted its request. A snapshot may
repeat that there is no connection. -/
def expected (w : Watched γ) : Act γ → Bool
  | .notice (.event (.vpnState .disconnected)) _
  | .notice (.event (.vpnState (.failed _))) _ =>
    !w.daemon.model.authenticating || w.daemon.hasOpen false
  | .notice (.event (.vpnEnv env)) _ =>
    match env.vpnState with
    | .disconnected =>
      !w.daemon.model.authenticating || w.daemon.hasOpen false ||
        w.daemon.model.vpnState = .disconnected
    | .failed _ => !w.daemon.model.authenticating || w.daemon.hasOpen false
    | _ => true
  | _ => true

theorem open_of_expected (h : (!s.model.authenticating || s.hasOpen false) = true)
    (hauth : s.model.authenticating = true) : ∃ i, Open s i false := by
  rw [hauth, Bool.not_true, Bool.false_or] at h
  exact hasOpen_iff.mp h

theorem Accounted.ended (h : Accounted s silent) {v : VpnState}
    (hexp : (!s.model.authenticating || s.hasOpen false) = true) :
    Accounted (State.apply { s.received v with disconnectRequested := false } v) silent' := by
  have hr := still_received (s := s) v
  obtain ⟨hq, -, hmodel, -⟩ := quiet_apply
    (s := { s.received v with disconnectRequested := false }) v
  have hquiet : Quiet (s.received v) { s.received v with disconnectRequested := false } :=
    ⟨rfl, rfl, fun _ hi => hi⟩
  refine h.quiet (hr.toQuiet.trans (hquiet.trans hq)) ?_ fun hauth _ => ?_
  · rw [hmodel]
    exact applyVpnState_settled _ v
  · rw [hmodel, applyVpnState_authenticating] at hauth
    exact .inl (open_of_expected hexp (hr.model ▸ hauth))

theorem Accounted.handleVpnState (h : Accounted s silent) {v : VpnState} {loaded : Option Config}
    {published : WidgetState}
    (hexp : expected ⟨s, published, silent⟩ (.notice (.event (.vpnState v)) loaded) = true)
    (hexit : (s.handleVpnState v).exitCode = none) : Accounted (s.handleVpnState v) silent' := by
  have hr := still_received (s := s) v
  have hactive : Quiet (s.received v) (s.received v).active := ⟨rfl, rfl, fun _ hi => hi⟩
  have hsettled : ∀ t : State γ, ∀ reason, (t.apply v).model.vpnState ≠ .failed reason := by
    intro t reason
    rw [(quiet_apply (s := t) v).2.2.1]
    exact applyVpnState_settled _ v reason
  have hover : ∀ t : State γ, Quiet s t → t.model.authenticating = false →
      Accounted (t.apply v) silent' := by
    intro t ht hauth
    obtain ⟨hq, -, hmodel, -⟩ := quiet_apply (s := t) v
    refine h.over (ht.trans hq) (hsettled t) ?_
    rw [hmodel, applyVpnState_authenticating, hauth]
  unfold State.handleVpnState at hexit ⊢
  dsimp only at hexit ⊢
  cases v with
  | connecting info | connected info => exact hover _ (hr.toQuiet.trans hactive) rfl
  | reconnectRequired request =>
    obtain ⟨hq, hauth⟩ := quiet_restart (s := (s.received (.reconnectRequired request)).active)
      request.attempt
    exact hover _ (hr.toQuiet.trans (hactive.trans hq)) hauth
  | disconnecting =>
    obtain ⟨hq, -, hmodel, -⟩ := quiet_apply (s := s.received .disconnecting) .disconnecting
    refine h.quiet (hr.toQuiet.trans hq) (hsettled _) fun _ hstate => ?_
    rw [hmodel] at hstate
    cases hstate
  | disconnected | failed reason =>
    dsimp only at hexit ⊢
    split_ifs at hexit ⊢ with hquit
    · cases hexit
    · exact h.ended hexp

/-- The snapshot of an attach, before a flow may be started. -/
def State.attached (s : State γ) (env : VpnEnv γ) : State γ :=
  let s := s.received env.vpnState
  { s with model := { s.model.applyVpnState env.vpnState with vpnEnv := some env } }

theorem handleVpnEnv_eq (env : VpnEnv γ) (loaded : Option Config) :
    s.handleVpnEnv path env loaded =
      if (s.attached env).model.config.autoConnect &&
          (s.attached env).model.vpnState = .disconnected then
        (s.attached env).tryStart path loaded none none
      else s.attached env := rfl

theorem quiet_attached (env : VpnEnv γ) : Quiet s (s.attached env) ∧ Timed s (s.attached env) :=
  ⟨(still_received env.vpnState).toQuiet.trans ⟨rfl, rfl, fun _ h => h⟩,
    (still_received env.vpnState).toTimed.trans ⟨rfl, fun _ h => h⟩⟩

theorem Accounted.attached (h : Accounted s silent) {env : VpnEnv γ} {loaded : Option Config}
    {published : WidgetState}
    (hexp : expected ⟨s, published, silent⟩ (.notice (.event (.vpnEnv env)) loaded) = true) :
    Accounted (s.attached env) (silent && env.vpnState = s.model.vpnState) := by
  obtain ⟨hq, ht⟩ := quiet_attached (s := s) env
  have hreceived : (s.received env.vpnState).model = s.model := (still_received _).model
  have hauth : (s.attached env).model.authenticating = s.model.authenticating := by
    show (Model.applyVpnState _ _).authenticating = _
    rw [applyVpnState_authenticating, hreceived]
  refine h.quiet hq (applyVpnState_settled _ env.vpnState) fun hshown hstate => ?_
  rw [hauth] at hshown
  have hstate : (Model.applyVpnState (s.received env.vpnState).model env.vpnState).vpnState =
      .disconnected := hstate
  simp only [expected] at hexp
  cases hv : env.vpnState with
  | disconnected =>
    rw [hv] at hexp
    rcases Bool.or_eq_true_iff.mp hexp with hexp | hidle
    · exact .inl (open_of_expected hexp hshown)
    · have hidle : s.model.vpnState = .disconnected := of_decide_eq_true hidle
      rw [ht.generation, hidle]
      simpa using (h.waiting hshown hidle).imp_right fun ⟨hsilent, hrest⟩ =>
        ⟨hsilent, hrest.imp_right (ht.timers _)⟩
  | failed reason =>
    rw [hv] at hexp
    exact .inl (open_of_expected hexp hshown)
  | _ => rw [hv] at hstate; cases hstate

theorem Accounted.handleVpnEnv (h : Accounted s silent) {env : VpnEnv γ} {loaded : Option Config}
    {published : WidgetState}
    (hexp : expected ⟨s, published, silent⟩ (.notice (.event (.vpnEnv env)) loaded) = true) :
    Accounted (s.handleVpnEnv path env loaded) (silent && env.vpnState = s.model.vpnState) := by
  have hattached := h.attached hexp
  rw [handleVpnEnv_eq]
  split
  · exact hattached.tryStart path loaded none none
  · exact hattached

theorem Accounted.handleFlowMsg (h : Accounted s silent) {i : ℕ} {msg : FlowMsg}
    {rest : List (ℕ × FlowMsg)} (hm : s.flowMsgs = (i, msg) :: rest) :
    Accounted (State.handleFlowMsg { s with flowMsgs := rest } i msg) silent := by
  have hopen : ∀ (t : State γ) (j : ℕ) (b : Bool), t.phases = s.phases → t.flowMsgs = rest →
      Open s j b → Open t j b ∨ final msg = true ∧ isSubmitted msg = b := by
    intro t j b hp hrest ho
    unfold Open at ho ⊢
    rw [hp, hrest]
    rcases ho with ho | ⟨m, hmem, hfinal, hsub⟩
    · exact .inl (.inl ho)
    · rw [hm] at hmem
      rcases List.mem_cons.mp hmem with heq | hmem
      · obtain ⟨-, rfl⟩ := Prod.mk.inj heq
        exact .inr ⟨hfinal, hsub⟩
      · exact .inl (.inr ⟨m, hmem, hfinal, hsub⟩)
  cases msg with
  | otpPrompt message round =>
    have hkeep : ∀ (j : ℕ) (b : Bool), Open s j b →
        Open { s with flowMsgs := rest, pendingOtp := some (i, round) } j b := by
      intro j b ho
      rcases hopen { s with flowMsgs := rest, pendingOtp := some (i, round) } j b rfl rfl ho with
        ho | ⟨hfinal, -⟩
      · exact ho
      · cases hfinal
    refine ⟨h.settled, h.endings, fun j hj => ?_, fun hauth hstate => ?_⟩
    · obtain ⟨b, hb⟩ := h.token j hj
      exact ⟨b, hkeep j b hb⟩
    · rcases h.waiting hauth hstate with ⟨j, hj⟩ | ⟨hsilent, ⟨j, hj⟩ | htimer⟩
      · exact .inl ⟨j, hkeep j _ hj⟩
      · exact .inr ⟨hsilent, .inl ⟨j, hkeep j _ hj⟩⟩
      · exact .inr ⟨hsilent, .inr htimer⟩
  | submitted request =>
    refine ⟨h.settled, h.endings, fun j hj => (by cases hj), fun hauth hstate => ?_⟩
    rcases h.waiting hauth hstate with ⟨j, hj⟩ | ⟨hsilent, -⟩
    · rcases hopen (State.handleFlowMsg { s with flowMsgs := rest } i (.submitted request)) j false
        rfl rfl hj with ho | ⟨-, hsub⟩
      · exact .inl ⟨j, ho⟩
      · cases hsub
    · -- the request has its watchdog now
      exact .inr ⟨hsilent, .inr (List.mem_append_right _ (List.mem_singleton_self _))⟩
  | failed error cancelled =>
    exact ⟨h.settled, h.endings, fun j hj => (by cases hj), fun hauth => by cases hauth⟩

theorem Accounted.handleTimer (h : Accounted s silent) {timer : TimerMsg}
    (hexit : (State.handleTimer { s with timers := s.timers.erase timer } timer).exitCode = none) :
    Accounted (State.handleTimer { s with timers := s.timers.erase timer } timer) silent := by
  have hq : Quiet s { s with timers := s.timers.erase timer } := ⟨rfl, rfl, fun _ hi => hi⟩
  -- another timer leaves the watchdog alone
  have hother : timer ≠ .connectWatchdog s.watchdogGeneration →
      Accounted { s with timers := s.timers.erase timer } silent := by
    intro hne
    refine h.quiet hq h.settled fun hauth hstate => ?_
    exact (h.waiting hauth hstate).imp_right fun ⟨hsilent, hrest⟩ =>
      ⟨hsilent, hrest.imp_right fun hmem => (List.mem_erase_of_ne hne.symm).mpr hmem⟩
  cases timer with
  | expiryWarning generation => exact hother (by simp)
  | quitTimeout =>
    simp only [State.handleTimer] at hexit ⊢
    split_ifs at hexit ⊢ with hquit
    · cases hexit
    · exact hother (by simp)
  | connectWatchdog generation =>
    simp only [State.handleTimer, State.handleWatchdog]
    split_ifs with hcond
    · exact h.over ⟨rfl, rfl, fun _ hi => hi⟩ h.settled rfl
    · by_cases hgen : generation = s.watchdogGeneration
      · -- the watchdog finds another state or a token, whose flow is open
        refine h.quiet hq h.settled fun hauth hstate => ?_
        have htoken : s.connectCancel ≠ none := fun hnone => hcond ⟨hgen, hstate, hnone⟩
        obtain ⟨i, hi⟩ := Option.ne_none_iff_exists'.mp htoken
        obtain ⟨b, hb⟩ := h.token i hi
        cases b with
        | false => exact .inl ⟨i, hb⟩
        | true =>
          exact (h.waiting hauth hstate).imp_right fun ⟨hsilent, _⟩ => ⟨hsilent, .inl ⟨i, hb⟩⟩
      · exact hother (by simpa using hgen)

section Flow

variable {i : ℕ} {f f' : ConnectFlow.State} {a : ConnectFlow.Act}

theorem deliver_rest : (s.deliver i f a).flows = s.flows ∧
    (s.deliver i f a).connectCancel = s.connectCancel ∧ (s.deliver i f a).model = s.model ∧
    (s.deliver i f a).watchdogGeneration = s.watchdogGeneration ∧
    (s.deliver i f a).timers = s.timers ∧ ∀ m ∈ s.flowMsgs, m ∈ (s.deliver i f a).flowMsgs := by
  unfold State.deliver
  repeat' split
  all_goals exact ⟨rfl, rfl, rfl, rfl, rfl, fun m hm => by simp [State.record, hm]⟩

theorem deliver_report {msg : FlowMsg} (hexit : s.exitCode = none) (hp : f.phase = .reporting msg) :
    (i, msg) ∈ (s.deliver i f .report).flowMsgs := by
  simp [State.deliver, hp, hexit]

theorem deliver_phases : (State.deliver { s with flows := s.flows.set i f' } i f a).phases =
    s.phases.set i f'.phase := by
  rw [State.phases, deliver_rest.1, List.map_set]
  rfl

theorem flow_open (hends : ∀ p ∈ s.phases, Ending p) (hexit : s.exitCode = none)
    (hi : s.flows[i]? = some f) (ha : a ≠ .cancel)
    (hs : ConnectFlow.step normalize f a = some f') {j : ℕ} {b : Bool} (ho : Open s j b) :
    Open (State.deliver { s with flows := s.flows.set i f' } i f a) j b ∨
      a = .submit true ∧ j = i := by
  obtain ⟨-, -, -, -, -, hmsgs⟩ :=
    deliver_rest (s := { s with flows := s.flows.set i f' }) (i := i) (f := f) (a := a)
  have hget : s.phases[i]? = some f.phase := by rw [State.phases, List.getElem?_map, hi]; rfl
  have hlt : i < s.phases.length := (List.getElem?_eq_some_iff.mp hget).1
  rcases ho with ⟨p, hp, hended, hsub⟩ | ⟨msg, hmem, hrest⟩
  · by_cases hji : j = i
    · subst hji
      obtain rfl := Option.some.inj (hget.symm.trans hp)
      have hnew : f'.phase ≠ .ended → hasSubmitted f'.phase = b →
          Open (State.deliver { s with flows := s.flows.set j f' } j f a) j b := fun h₁ h₂ =>
        .inl ⟨f'.phase, by rw [deliver_phases, List.getElem?_set_self hlt], h₁, h₂⟩
      by_cases hreport : a = .report
      · subst hreport
        obtain ⟨msg, hmsg, -⟩ := report_step hs
        have hfinal : Ending f.phase := hends _ (List.mem_of_getElem? hget)
        rw [hmsg] at hfinal hsub
        exact .inl (.inr ⟨msg, deliver_report hexit hmsg, hfinal, hsub⟩)
      · by_cases hsubmit : a = .submit true
        · exact .inr ⟨hsubmit, rfl⟩
        · obtain ⟨hbefore, hgoing⟩ := going_step ha hreport hsubmit hs
          exact .inl (hnew hgoing.live (hgoing.unsubmitted.trans (hbefore.symm.trans hsub)))
    · refine .inl (.inl ⟨p, ?_, hended, hsub⟩)
      rw [deliver_phases, List.getElem?_set_ne (Ne.symm hji)]
      exact hp
  · exact .inl (.inr ⟨msg, hmsgs _ hmem, hrest⟩)

theorem Accounted.flow (h : Accounted s silent) (hexit : s.exitCode = none)
    (hi : s.flows[i]? = some f) (ha : a ≠ .cancel)
    (hs : ConnectFlow.step normalize f a = some f') :
    Accounted (State.deliver { s with flows := s.flows.set i f' } i f a)
      (silent || a = .submit true) := by
  obtain ⟨-, hcancel, hmodel, hgen, htimers, -⟩ :=
    deliver_rest (s := { s with flows := s.flows.set i f' }) (i := i) (f := f) (a := a)
  have hlt : i < s.phases.length := by
    rw [State.phases, List.length_map]
    exact (List.getElem?_eq_some_iff.mp hi).1
  have hopen := fun {j b} => flow_open (j := j) (b := b) h.endings hexit hi ha hs
  have hsubmitted : a = .submit true →
      Open (State.deliver { s with flows := s.flows.set i f' } i f a) i true := by
    rintro rfl
    obtain ⟨request, -, hp⟩ := submit_step hs
    refine .inl ⟨f'.phase, by rw [deliver_phases, List.getElem?_set_self hlt], ?_, ?_⟩ <;> rw [hp]
    · simp
    · rfl
  constructor
  case settled => rw [hmodel]; exact h.settled
  case endings =>
    intro p hp
    rw [deliver_phases] at hp
    rcases List.mem_or_eq_of_mem_set hp with hp | rfl
    · exact h.endings p hp
    · by_cases hreport : a = .report
      · subst hreport
        obtain ⟨-, -, hended⟩ := report_step hs
        rw [hended]
        trivial
      · by_cases hsubmit : a = .submit true
        · subst hsubmit
          obtain ⟨_, -, hreporting⟩ := submit_step hs
          rw [hreporting]
          rfl
        · exact (going_step ha hreport hsubmit hs).2.ending
  case token =>
    intro j hj
    rw [hcancel] at hj
    obtain ⟨b, hb⟩ := h.token j hj
    rcases hopen hb with ho | ⟨hsubmit, rfl⟩
    · exact ⟨b, ho⟩
    · exact ⟨true, hsubmitted hsubmit⟩
  case waiting =>
    intro hauth hstate
    rw [hmodel] at hauth hstate
    rw [hgen, htimers]
    by_cases hsubmit : a = .submit true
    · exact .inr ⟨by simp [hsubmit], .inl ⟨i, hsubmitted hsubmit⟩⟩
    · have hkeep : ∀ {j b}, Open s j b →
          Open (State.deliver { s with flows := s.flows.set i f' } i f a) j b := fun ho =>
        (hopen ho).resolve_right fun hnew => hsubmit hnew.1
      rcases h.waiting hauth hstate with ⟨j, hj⟩ | ⟨hsilent, ⟨j, hj⟩ | htimer⟩
      · exact .inl ⟨j, hkeep hj⟩
      · exact .inr ⟨by simp [hsilent], .inl ⟨j, hkeep hj⟩⟩
      · exact .inr ⟨by simp [hsilent], .inr htimer⟩

end Flow

theorem running_before {l : Act γ} (hs : step normalize path s l = some s')
    (hexit : s'.exitCode = none) : s.exitCode = none := by
  have hhandle : ∀ t : State γ, handle s t = some s' → s.exitCode = none := by
    intro t ht
    unfold handle at ht
    split_ifs at ht with hrun
    exact Option.not_isSome_iff_eq_none.mp hrun
  cases l with
  | notice n loaded => exact hhandle _ hs
  | noticesEnded =>
    simp only [step] at hs
    split_ifs at hs
    exact hhandle _ hs
  | command c loaded => exact hhandle _ hs
  | commandsEnded => exact hhandle _ hs
  | flowMsg =>
    simp only [step] at hs
    split at hs
    · cases hs
    · exact hhandle _ hs
  | timer t =>
    simp only [step] at hs
    split_ifs at hs
    exact hhandle _ hs
  | signal => exact hhandle _ hs
  | flow i a =>
    simp only [step] at hs
    split at hs
    · cases hs
    · split_ifs at hs
      obtain ⟨f', -, rfl⟩ := Option.map_eq_some_iff.mp hs
      unfold State.deliver at hexit
      repeat' split at hexit
      all_goals exact hexit
  | send request =>
    simp only [step] at hs
    split_ifs at hs <;> cases hs <;> exact hexit
  | close => cases hs; exact hexit

/-- **One step keeps the login accounted for**, if the ends of connections are expected. -/
theorem Accounted.step {l : Act γ} {published : WidgetState} (h : Accounted s silent)
    (hexp : expected ⟨s, published, silent⟩ l = true)
    (hs : Daemon.step normalize path s l = some s') (hexit : s'.exitCode = none) :
    Accounted s' (Watched.silentAfter ⟨s, published, silent⟩ l) := by
  have hbefore : s.exitCode = none := running_before hs hexit
  cases l with
  | notice n loaded =>
    obtain rfl := handle_some hs
    cases n with
    | event e =>
      cases e with
      | vpnEnv env => exact h.handleVpnEnv hexp
      | vpnState v => exact h.handleVpnState hexp hexit
      | resumeConnection =>
        simp only [State.handleNotice, State.resumeConnection]
        repeat' split
        all_goals first
          | exact h.tryStart path loaded none _
          | exact h
      | activeGui => exact h
      | tunnelState t => exact h
    | lost => exact h
    | rejected message => exact h.over ⟨rfl, rfl, fun _ hi => hi⟩ h.settled rfl
    | gone => cases hexit
  | noticesEnded =>
    simp only [Daemon.step] at hs
    split_ifs at hs
    obtain rfl := handle_some hs
    cases hexit
  | commandsEnded | signal => obtain rfl := handle_some hs; cases hexit
  | close =>
    cases hs
    exact h.still (.of_eq rfl rfl rfl rfl rfl rfl)
  | command c loaded =>
    obtain rfl := handle_some hs
    have hstop : Still s (s.record .stop).disconnect := (still_record .stop).trans still_disconnect
    cases c with
    | getStatus => exact h
    | openPopup => exact h
    | connect portal gateway => exact h.tryStart path loaded portal gateway
    | disconnect => exact h.still hstop
    | submitOtp otp => exact h.still (still_submitOtp otp)
    | quit => exact h.still still_quit
    | toggle =>
      simp only [State.handleCommand]
      split
      · exact h.still hstop
      · exact h.tryStart path loaded none none
  | flowMsg =>
    simp only [Daemon.step] at hs
    split at hs
    · cases hs
    · next i msg rest hm =>
      obtain rfl := handle_some hs
      exact h.handleFlowMsg hm
  | timer t =>
    simp only [Daemon.step] at hs
    split_ifs at hs
    obtain rfl := handle_some hs
    exact h.handleTimer hexit
  | flow i a =>
    simp only [Daemon.step] at hs
    split at hs
    · cases hs
    · next f hf =>
      split_ifs at hs with hperm
      obtain ⟨f', hf', rfl⟩ := Option.map_eq_some_iff.mp hs
      have ha : a ≠ .cancel := by
        rintro rfl
        cases hperm
      have hflow := h.flow hbefore hf ha hf'
      have hsilent : Watched.silentAfter ⟨s, published, silent⟩ (.flow i a) =
          (silent || a = .submit true) := by
        cases a with
        | submit accepted => cases accepted <;> simp [Watched.silentAfter]
        | _ => simp [Watched.silentAfter]
      rw [hsilent]
      exact hflow
  | send request =>
    simp only [Daemon.step] at hs
    split_ifs at hs <;> cases hs
    · exact h.still (.of_eq rfl rfl rfl rfl rfl rfl)
    · exact h.still (.of_eq rfl rfl rfl rfl rfl rfl)

/-! ### What is published is what the model shows -/

theorem tryStart_shown {loaded : Option Config} {portal gateway : Option String}
    (h : ¬ s.flows.length < (s.tryStart path loaded portal gateway).flows.length) :
    s.tryStart path loaded portal gateway = s := by
  refine (launched_tryStart path loaded portal gateway).resolve_right fun hs => h ?_
  have hlen := congrArg List.length hs.phases
  rw [State.phases, State.phases, List.length_map, List.length_append, List.length_map,
    List.length_singleton] at hlen
  omega

/-- A handler that does not publish leaves the shown state alone, or exits. -/
theorem step_shown {l : Act γ} (hs : step normalize path s l = some s') (hexit : s'.exitCode = none)
    (hpub : publishes s s' l = false) : s'.model = s.model := by
  cases l with
  | notice n loaded =>
    obtain rfl := handle_some hs
    cases n with
    | event e =>
      cases e with
      | vpnEnv env => cases hpub
      | vpnState v =>
        simp only [publishes] at hpub
        rw [hexit] at hpub
        cases hpub
      | resumeConnection =>
        have hlen := of_decide_eq_false hpub
        revert hlen
        simp only [State.handleNotice, State.resumeConnection]
        repeat' split
        all_goals intro hlen
        · rw [tryStart_shown hlen]
        all_goals rfl
      | activeGui => rfl
      | tunnelState t => rfl
    | lost => rfl
    | rejected message => cases hpub
    | gone => cases hexit
  | noticesEnded =>
    simp only [step] at hs
    split_ifs at hs
    obtain rfl := handle_some hs
    rfl
  | commandsEnded | signal => obtain rfl := handle_some hs; rfl
  | close => cases hs; rfl
  | command c loaded =>
    obtain rfl := handle_some hs
    have hstop : (s.record .stop).disconnect.model = s.model := still_disconnect.model
    cases c with
    | getStatus => rfl
    | openPopup => rfl
    | connect portal gateway =>
      simp only [State.handleCommand]
      rw [tryStart_shown (of_decide_eq_false hpub)]
    | disconnect => exact hstop
    | submitOtp otp => exact (still_submitOtp otp).model
    | quit => exact still_quit.model
    | toggle =>
      have hlen := of_decide_eq_false hpub
      simp only [State.handleCommand] at hlen ⊢
      split_ifs at hlen ⊢
      · exact hstop
      · rw [tryStart_shown hlen]
  | flowMsg =>
    simp only [step] at hs
    split at hs
    · cases hs
    · next i msg rest hm =>
      obtain rfl := handle_some hs
      cases msg with
      | otpPrompt message round => rfl
      | submitted request => rfl
      | failed error cancelled => simp [publishes, hm, final, isSubmitted] at hpub
  | timer t =>
    simp only [step] at hs
    split_ifs at hs
    obtain rfl := handle_some hs
    cases t with
    | connectWatchdog generation =>
      have hcond := of_decide_eq_false hpub
      simp only [State.handleTimer, State.handleWatchdog]
      rw [if_neg hcond]
    | expiryWarning generation => rfl
    | quitTimeout =>
      simp only [State.handleTimer]
      split_ifs <;> rfl
  | flow i a =>
    simp only [step] at hs
    split at hs
    · cases hs
    · split_ifs at hs
      obtain ⟨f', -, rfl⟩ := Option.map_eq_some_iff.mp hs
      exact deliver_rest.2.2.1
  | send request =>
    simp only [step] at hs
    split_ifs at hs <;> cases hs <;> rfl

variable {w w' : Watched γ}

theorem watched_step {l : Act γ} (h : Watched.step normalize path w l = some w') :
    step normalize path w.daemon l = some w'.daemon ∧
      w'.published = (if publishes w.daemon w'.daemon l then w'.daemon.model.widgetState
        else w.published) ∧ w'.silent = w.silentAfter l := by
  obtain ⟨s', hs, rfl⟩ := Option.map_eq_some_iff.mp h
  exact ⟨hs, rfl, rfl⟩

theorem published_eq (config : Config) {ok : Watched γ → Act γ → Bool}
    (h : ((watched normalize path config).guard ok).Reachable w)
    (hexit : w.daemon.exitCode = none) : w.published = w.daemon.model.widgetState := by
  revert hexit
  refine Machine.Reachable.invariant (M := (watched normalize path config).guard ok)
    (P := fun w => w.daemon.exitCode = none → w.published = w.daemon.model.widgetState)
    (fun _ => rfl) (fun m l m' _ ih hs hexit => ?_) h
  obtain ⟨hstep, hpub, -⟩ := watched_step (Machine.guard_step.mp hs).2
  by_cases hp : publishes m.daemon m'.daemon l = true
  · rw [hpub, if_pos hp]
  · rw [hpub, if_neg hp, ih (running_before hstep hexit),
      step_shown hstep hexit (Bool.eq_false_iff.mpr hp)]

theorem reachable_accounted (config : Config)
    (h : ((watched normalize path config).guard expected).Reachable w)
    (hexit : w.daemon.exitCode = none) : Accounted w.daemon w.silent := by
  revert hexit
  refine Machine.Reachable.invariant (M := (watched normalize path config).guard expected)
    (P := fun w => w.daemon.exitCode = none → Accounted w.daemon w.silent)
    (fun _ => ⟨by simp [Machine.guard, watched, machine], by simp [Machine.guard, watched, machine,
      State.phases], by simp [Machine.guard, watched, machine], by simp [Machine.guard, watched,
      machine]⟩) (fun m l m' _ ih hs hexit => ?_) h
  obtain ⟨hexp, hs⟩ := Machine.guard_step.mp hs
  obtain ⟨hstep, -, hsilent⟩ := watched_step hs
  rw [hsilent]
  exact (ih (running_before hstep hexit)).step hexp hstep hexit

/-- **A login is shown for a reason**: in every run whose ends of connections are expected, the
snapshot shows a login only while a flow runs or its last message is unhandled, or while a submitted
request waits for news of the service and its watchdog is pending. -/
theorem login_accounted (config : Config)
    (h : ((watched normalize path config).guard expected).Reachable w)
    (hexit : w.daemon.exitCode = none) (hshown : w.published = .authenticating) :
    ((∃ f ∈ w.daemon.flows, f.phase ≠ .ended) ∨ ∃ m ∈ w.daemon.flowMsgs, final m.2 = true) ∨
      w.silent = true ∧ .connectWatchdog w.daemon.watchdogGeneration ∈ w.daemon.timers := by
  have hacc := reachable_accounted config h hexit
  rw [published_eq config h hexit] at hshown
  have hopen : ∀ i b, Open w.daemon i b →
      (∃ f ∈ w.daemon.flows, f.phase ≠ .ended) ∨ ∃ m ∈ w.daemon.flowMsgs, final m.2 = true := by
    rintro i b (⟨p, hp, hended, -⟩ | ⟨msg, hmem, hfinal, -⟩)
    · obtain ⟨f, hf, rfl⟩ := List.mem_map.mp (List.mem_of_getElem? hp)
      exact .inl ⟨f, hf, hended⟩
    · exact .inr ⟨_, hmem, hfinal⟩
  obtain ⟨hauth, hstate⟩ : w.daemon.model.authenticating = true ∧
      w.daemon.model.vpnState = .disconnected := by
    have hsettled := hacc.settled
    unfold Model.widgetState at hshown
    cases hv : w.daemon.model.vpnState with
    | disconnected =>
      rw [hv] at hshown
      by_contra hnot
      simp only [and_true] at hnot
      rw [if_neg hnot] at hshown
      split_ifs at hshown
    | failed reason => exact absurd hv (hsettled reason)
    | _ => rw [hv] at hshown; cases hshown
  rcases hacc.waiting hauth hstate with ⟨i, hi⟩ | ⟨hsilent, ⟨i, hi⟩ | htimer⟩
  · exact .inl (hopen i _ hi)
  · exact .inl (hopen i _ hi)
  · exact .inr ⟨hsilent, htimer⟩

def exampleWatched : Machine (Watched Unit) (Act Unit) :=
  watched .ok "config.toml" { portal := some "vpn" }

def exampleInfo : ConnectInfo where
  portal := "vpn"
  gateway := exampleGateway
  gateways := [exampleGateway]

/-- The request is submitted and the daemon knows, and then what `rest` says. -/
def submittedRun (rest : List (Act Unit)) : List (Act Unit) :=
  connectRun ([.flow 0 (.submit true), .flow 0 .report, .flowMsg] ++ rest)

/-- A login that is shown while the request waits for the service. -/
theorem login_accounted_waiting :
    ∃ w, (exampleWatched.guard expected).Reachable w ∧ w.published = .authenticating ∧
      w.daemon.flows.map (·.phase) = [.ended] ∧ w.daemon.flowMsgs = [] ∧
      (((∃ f ∈ w.daemon.flows, f.phase ≠ .ended) ∨ ∃ m ∈ w.daemon.flowMsgs, final m.2 = true) ∨
        w.silent = true ∧ .connectWatchdog w.daemon.watchdogGeneration ∈ w.daemon.timers) := by
  obtain ⟨w, hw, hp⟩ := Machine.Reachable.of_run (M := exampleWatched.guard expected)
    (submittedRun [])
    (p := fun w => decide (w.daemon.exitCode = none ∧ w.published = .authenticating ∧
      w.daemon.flows.map (·.phase) = [.ended] ∧ w.daemon.flowMsgs = [])) (by decide +kernel)
  obtain ⟨hexit, hshown, hflows, hmsgs⟩ := of_decide_eq_true hp
  exact ⟨w, hw, hshown, hflows, hmsgs, login_accounted { portal := some "vpn" } hw hexit hshown⟩

/-- The service is first heard of by a new attach that shows it connecting. The watchdog finds that
state, and when the connection ends a login is shown though nothing is under way. The same holds at
once if the first news is that the attempt has failed. -/
theorem login_shown_for_ever :
    (∃ w, exampleWatched.Reachable w ∧ w.daemon.exitCode = none ∧ w.published = .authenticating ∧
      w.daemon.flows.map (·.phase) = [.ended] ∧ w.daemon.flowMsgs = [] ∧
      w.daemon.timers = [] ∧ w.silent = false) ∧
    ∃ w, exampleWatched.Reachable w ∧ w.daemon.exitCode = none ∧ w.published = .authenticating ∧
      w.daemon.flows.map (·.phase) = [.ended] ∧ w.daemon.flowMsgs = [] ∧ w.silent = false := by
  constructor
  · obtain ⟨w, hw, hp⟩ := Machine.Reachable.of_run (M := exampleWatched)
      (submittedRun [.notice .lost none,
        .notice (.event (.vpnEnv { idleEnv with vpnState := .connecting exampleInfo })) none,
        .timer (.connectWatchdog 1), .notice (.event (.vpnState .disconnected)) none])
      (p := fun w => decide (w.daemon.exitCode = none ∧ w.published = .authenticating ∧
        w.daemon.flows.map (·.phase) = [.ended] ∧ w.daemon.flowMsgs = [] ∧
        w.daemon.timers = [] ∧ w.silent = false)) (by decide +kernel)
    exact ⟨w, hw, of_decide_eq_true hp⟩
  · obtain ⟨w, hw, hp⟩ := Machine.Reachable.of_run (M := exampleWatched)
      (submittedRun [.notice (.event (.vpnState (.failed "no route"))) none])
      (p := fun w => decide (w.daemon.exitCode = none ∧ w.published = .authenticating ∧
        w.daemon.flows.map (·.phase) = [.ended] ∧ w.daemon.flowMsgs = [] ∧ w.silent = false))
      (by decide +kernel)
    exact ⟨w, hw, of_decide_eq_true hp⟩

end GlobalProtect.Widget.Daemon
