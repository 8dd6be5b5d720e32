import GlobalProtect.Widget.ConnectFlow
import GlobalProtect.Widget.Pump

/-! # The widget daemon

The model of `Daemon` in `daemon/mod.rs` together with the connect flows it has started. The daemon
handles one notice, command, flow message or timer at a time; flows and the tasks that only send a
request run beside it. A flow is known by its position in `flows`, which also stands for its token,
and a prompt by its flow and round. What a reload of the configuration yields is in the label.

A send that waits for room in a queue is a step that comes later, so queues have no bound here.
`log` is a history: what was put on the service request queue, in order, together with the starts
and stops the daemon has handled and the ends of connections it was told of. -/

namespace GlobalProtect.Widget.Daemon

open Lib Api Widget.ConnectFlow

/-! ### The state -/

/-- The characters that `str::trim` takes away. -/
def isWhiteSpace (c : Char) : Bool :=
  let n := c.toNat
  (9 ≤ n && n ≤ 13) || (0x2000 ≤ n && n ≤ 0x200a) ||
    [0x20, 0x85, 0xa0, 0x1680, 0x2028, 0x2029, 0x202f, 0x205f, 0x3000].contains n

def trim (text : String) : String :=
  String.ofList ((text.toList.dropWhile isWhiteSpace).reverse.dropWhile isWhiteSpace).reverse

structure Config where
  portal : Option String
  gateway : Option String := none
  autoConnect : Bool := false
  autoResume : Bool := false
  deriving DecidableEq, Repr

inductive WidgetState where
  | connecting
  | connected
  | disconnecting
  | authenticating
  | error
  | needsSetup
  | disconnected
  deriving DecidableEq, Repr

structure Model (γ : Type) where
  config : Config
  vpnEnv : Option (VpnEnv γ) := none
  vpnState : VpnState := .disconnected
  authenticating : Bool := false
  lastError : Option String := none
  portal : Option String

namespace Model

variable {γ : Type} (m : Model γ)

def widgetState : WidgetState :=
  match m.vpnState with
  | .connecting _ | .reconnectRequired _ => .connecting
  | .connected _ => .connected
  | .disconnecting => .disconnecting
  | .disconnected | .failed _ =>
    if m.authenticating then .authenticating
    else if m.lastError.isSome then .error
    else if m.portal.isNone then .needsSetup
    else .disconnected

/-- `apply_vpn_state`: a failure is kept as its reason and `Disconnected`. -/
def applyVpnState : VpnState → Model γ
  | .failed reason => { m with lastError := some reason, vpnState := .disconnected }
  | .connecting info => { m with portal := some info.portal, vpnState := .connecting info }
  | .reconnectRequired request =>
    { m with portal := some request.info.portal, vpnState := .reconnectRequired request }
  | .connected connected =>
    { m with portal := some connected.info.portal, vpnState := .connected connected }
  | vpnState => { m with vpnState }

end Model

inductive TimerMsg where
  | connectWatchdog (generation : ℕ)
  | expiryWarning (generation : ℕ)
  | quitTimeout
  deriving DecidableEq, Repr

inductive WsRequest where
  | connect (request : ConnectRequest)
  | disconnect
  deriving DecidableEq, Repr

/-- The entries of the history. -/
inductive Entry where
  /-- A flow has put its request on the queue. -/
  | connect (flow : ℕ)
  /-- A task of the daemon has put its request on the queue. -/
  | request (request : WsRequest)
  /-- A `Disconnected` or `Failed` state was received. -/
  | settled
  | stop
  /-- A flow was started, or a restart was requested. -/
  | start
  deriving DecidableEq, Repr

structure State (γ : Type) where
  model : Model γ
  flows : List ConnectFlow.State := []
  flowMsgs : List (ℕ × FlowMsg) := []
  /-- Requests of spawned tasks that are not on the queue yet. -/
  senders : List WsRequest := []
  timers : List TimerMsg := []
  ticker : Bool := false
  connectCancel : Option ℕ := none
  pendingOtp : Option (ℕ × ℕ) := none
  resumeGateway : Option String := none
  submittedConnect : Option ConnectRequest := none
  disconnectRequested : Bool := false
  quitting : Bool := false
  watchdogGeneration : ℕ := 0
  expiryGeneration : ℕ := 0
  /-- The service task has ended, which closes the request queue. -/
  closed : Bool := false
  exitCode : Option ℕ := none
  log : List Entry := []

inductive Command where
  | getStatus
  | connect (portal gateway : Option String)
  | disconnect
  | toggle
  | submitOtp (otp : String)
  | openPopup
  | quit
  deriving DecidableEq, Repr

inductive Act (γ : Type) where
  | notice (notice : WsNotice γ) (loaded : Option Config)
  | noticesEnded
  | command (command : Command) (loaded : Option Config)
  | commandsEnded
  /-- The first flow message is handled. -/
  | flowMsg
  | timer (timer : TimerMsg)
  | signal
  | flow (i : ℕ) (act : ConnectFlow.Act)
  /-- A spawned task puts its request on the queue. -/
  | send (request : WsRequest)
  | close

namespace State

variable {γ : Type} (s : State γ)

def record (e : Entry) : State γ := { s with log := s.log ++ [e] }

def exit (code : ℕ) : State γ := { s with exitCode := some code }

/-- Cancels the token of a flow. -/
def cancelFlow (i : ℕ) : State γ :=
  { s with flows := s.flows.modify i fun f => { f with cancelled := true } }

/-- The configuration of the next attempt. -/
def nextConfig (loaded : Option Config) (portalOverride : Option String) : Config :=
  let config := loaded.getD s.model.config
  match portalOverride with
  | some p =>
    if trim p = "" then config else { config with portal := some (trim p) }
  | none => config

/-- `start_connect_flow`; `path` is where the configuration file is. -/
def startConnectFlow (path : String) (loaded : Option Config)
    (portalOverride gatewayOverride : Option String) : Except String (State γ) :=
  if s.connectCancel.isSome then .error "a connection attempt is already in progress"
  else if s.model.vpnState ≠ .disconnected then .error "already connected or connecting"
  else if s.model.vpnEnv.isNone then .error "the VPN service environment is not ready yet"
  else
    let config := s.nextConfig loaded portalOverride
    match config.portal with
    | none => .error ("no portal configured — set one in " ++ path)
    | some portal =>
      .ok <| record { s with
        model := { s.model with
          config, portal := some portal, authenticating := true, lastError := none }
        connectCancel := some s.flows.length
        flows := s.flows ++ [{ portal, gatewayOverride, gatewayPin := config.gateway }] } .start

/-- A start whose error is only shown or logged. -/
def tryStart (path : String) (loaded : Option Config)
    (portalOverride gatewayOverride : Option String) : State γ :=
  match s.startConnectFlow path loaded portalOverride gatewayOverride with
  | .ok s' => s'
  | .error _ => s

theorem tryStart_cases (path : String) (loaded : Option Config)
    (portalOverride gatewayOverride : Option String) :
    s.tryStart path loaded portalOverride gatewayOverride = s ∨
      s.connectCancel = none ∧ s.model.vpnState = .disconnected ∧
      ∃ (config : Config) (portal : String),
        s.tryStart path loaded portalOverride gatewayOverride = record { s with
          model := { s.model with
            config, portal := some portal, authenticating := true, lastError := none }
          connectCancel := some s.flows.length
          flows := s.flows ++ [{ portal, gatewayOverride, gatewayPin := config.gateway }] } .start := by
  unfold tryStart
  cases hs : s.startConnectFlow path loaded portalOverride gatewayOverride with
  | error e => exact .inl rfl
  | ok s' =>
    unfold startConnectFlow at hs
    split_ifs at hs with hcancel hstate henv
    dsimp only at hs
    split at hs
    · cases hs
    · next portal hportal =>
      obtain rfl := Except.ok.inj hs
      exact .inr ⟨Option.not_isSome_iff_eq_none.mp hcancel, not_not.mp hstate, _, portal, rfl⟩

def disconnect : State γ :=
  match s.connectCancel with
  | some i => cancelFlow { s with connectCancel := none } i
  | none =>
    match s.model.vpnState with
    | .connecting _ | .connected _ | .reconnectRequired _ =>
      { s with
        disconnectRequested := true
        submittedConnect := none
        senders := s.senders ++ [.disconnect] }
    | _ => s

def restartSubmittedConnect (attempt : ℕ) : State γ :=
  if s.quitting || s.disconnectRequested then s
  else
    match s.submittedConnect with
    | none =>
      { s with model := { s.model with
          lastError := some "The VPN service asked to reconnect, but the previous login is gone" } }
    | some request =>
      record { s with
        senders := s.senders ++ [.connect { request with restartOf := some attempt }] } .start

def resumeConnection (path : String) (loaded : Option Config) : State γ :=
  if s.model.config.autoResume && s.connectCancel.isNone && s.model.vpnState = .disconnected then
    match s.resumeGateway with
    | some gateway => s.tryStart path loaded none (some gateway)
    | none => s
  else s

def onSessionEstablished : State γ :=
  let s := { s with expiryGeneration := s.expiryGeneration + 1 }
  match s.model.vpnState with
  | .connected connected =>
    match connected.sessionInfo.bind (·.userExpires) with
    | some _ => { s with timers := s.timers ++ [.expiryWarning s.expiryGeneration] }
    | none => s
  | _ => s

/-- A service state that is not the end of a connection is shown. -/
def active : State γ :=
  { s with
    model := { s.model with authenticating := false, lastError := none }
    watchdogGeneration := s.watchdogGeneration + 1 }

/-- The new state is applied, and the ticker and the expiry warning follow it. -/
def apply (vpnState : VpnState) : State γ :=
  let wasConnected := s.model.vpnState matches .connected _
  let s := { s with model := s.model.applyVpnState vpnState }
  match s.model.vpnState with
  | .connecting _ | .reconnectRequired _ => { s with ticker := false }
  | .connected _ => if wasConnected then s else onSessionEstablished { s with ticker := true }
  | .disconnected => { s with ticker := false, expiryGeneration := s.expiryGeneration + 1 }
  | _ => s

/-- The entry of a received state. -/
def received (vpnState : VpnState) : State γ :=
  match vpnState with
  | .disconnected | .failed _ => s.record .settled
  | _ => s

/-- The `VpnState` event. -/
def handleVpnState (vpnState : VpnState) : State γ :=
  let s := s.received vpnState
  match vpnState with
  | .connecting _ | .connected _ => s.active.apply vpnState
  | .reconnectRequired request => (s.active.restartSubmittedConnect request.attempt).apply vpnState
  | .disconnected | .failed _ =>
    if s.quitting then s.exit 0
    else apply { s with disconnectRequested := false } vpnState
  | .disconnecting => s.apply vpnState

/-- The `VpnEnv` event: the first attach or a new one. -/
def handleVpnEnv (path : String) (env : VpnEnv γ) (loaded : Option Config) : State γ :=
  let s := s.received env.vpnState
  let s := { s with model := { s.model.applyVpnState env.vpnState with vpnEnv := some env } }
  if s.model.config.autoConnect && s.model.vpnState = .disconnected then
    s.tryStart path loaded none none
  else s

def handleNotice (path : String) (loaded : Option Config) : WsNotice γ → State γ
  | .event (.vpnEnv env) => s.handleVpnEnv path env loaded
  | .event (.vpnState vpnState) => s.handleVpnState vpnState
  | .event .resumeConnection => s.resumeConnection path loaded
  | .event .activeGui | .event (.tunnelState _) | .lost => s
  -- `handle_rejection`
  | .rejected message =>
    { s with
      model := { s.model with authenticating := false, lastError := some message }
      watchdogGeneration := s.watchdogGeneration + 1 }
  | .gone => s.exit 0

/-- The answer to a prompt arrives if its flow still waits for it. -/
def submitOtp (otp : String) : State γ :=
  match s.pendingOtp with
  | none => s
  | some (i, round) =>
    { s with
      pendingOtp := none
      flows := s.flows.modify i fun f =>
        match f.phase, f.otp with
        | .awaitingOtp _ _, none => if f.round = round then { f with otp := some otp } else f
        | _, _ => f }

/-- The `Quit` command: `send_ws` is awaited in the handler. -/
def quit : State γ :=
  let s := s.record .stop
  let s := match s.connectCancel with
    | some i => cancelFlow { s with connectCancel := none } i
    | none => s
  match s.model.vpnState with
  | .connecting _ | .connected _ =>
    let s := { s with
      quitting := true, disconnectRequested := true, timers := s.timers ++ [.quitTimeout] }
    if s.closed then s else s.record (.request .disconnect)
  | _ => s.exit 0

/-- `Toggle` takes the disconnect branch. -/
def toggleStops : Bool :=
  s.connectCancel.isSome || match s.model.vpnState with
    | .connecting _ | .connected _ => true
    | _ => false

def handleCommand (path : String) (loaded : Option Config) : Command → State γ
  | .getStatus | .openPopup => s
  | .connect portal gateway => s.tryStart path loaded portal gateway
  | .disconnect => (s.record .stop).disconnect
  | .toggle =>
    if s.toggleStops then (s.record .stop).disconnect else s.tryStart path loaded none none
  | .submitOtp otp => s.submitOtp otp
  | .quit => s.quit

/-- `handle_flow_msg` for a message of flow `i`, which the message itself does not tell. -/
def handleFlowMsg (i : ℕ) : FlowMsg → State γ
  | .otpPrompt _ round => { s with pendingOtp := some (i, round) }
  | .submitted request =>
    { s with
      connectCancel := none
      resumeGateway := some request.info.gateway.name
      submittedConnect := some request
      watchdogGeneration := s.watchdogGeneration + 1
      timers := s.timers ++ [.connectWatchdog (s.watchdogGeneration + 1)] }
  | .failed error cancelled =>
    { s with
      connectCancel := none
      pendingOtp := none
      model := { s.model with
        authenticating := false
        lastError := if cancelled then s.model.lastError else some error } }

def handleWatchdog (generation : ℕ) : State γ :=
  if generation = s.watchdogGeneration ∧ s.model.vpnState = .disconnected ∧
      s.connectCancel = none then
    { s with model := { s.model with
        authenticating := false
        lastError := some "The VPN service did not react to the connect request" } }
  else s

/-- A timer is handled; the expiry warning is only shown. -/
def handleTimer : TimerMsg → State γ
  | .connectWatchdog generation => s.handleWatchdog generation
  | .expiryWarning _ => s
  | .quitTimeout => if s.quitting then s.exit 0 else s

/-- No one can answer the prompt of flow `i` any more. -/
def dismissed (i round : ℕ) : Bool :=
  s.exitCode.isSome || (s.pendingOtp ≠ some (i, round) && s.flowMsgs.all fun m =>
    match m with
    | (j, .otpPrompt _ r) => !(j = i && r = round)
    | _ => true)

/-- What the surroundings of flow `i` let it do: the daemon alone cancels tokens and answers
prompts, and a send fails exactly if its receiver is gone. -/
def permits (i : ℕ) (f : ConnectFlow.State) : ConnectFlow.Act → Bool
  | .cancel | .respond _ => false
  | .prompt delivered => delivered = s.exitCode.isNone
  | .submit accepted => accepted = !s.closed
  | .otpDismissed => s.dismissed i f.round
  | _ => true

/-- What a step of flow `i` sends. -/
def deliver (i : ℕ) (f : ConnectFlow.State) (act : ConnectFlow.Act) : State γ :=
  match act, f.phase with
  | .prompt true, .prompting _ _ message =>
    { s with flowMsgs := s.flowMsgs ++ [(i, .otpPrompt message (f.round + 1))] }
  | .submit true, .submitting _ => s.record (.connect i)
  | .report, .reporting msg =>
    if s.exitCode.isNone then { s with flowMsgs := s.flowMsgs ++ [(i, msg)] } else s
  | _, _ => s

end State

variable {γ : Type} (normalize : String → Except (List String) String) (path : String)

/-- A step of the daemon itself, which it does not make after it has exited. -/
def handle (s : State γ) (s' : State γ) : Option (State γ) :=
  if s.exitCode.isSome then none else some s'

theorem handle_some {s s' t : State γ} (h : handle s t = some s') : s' = t := by
  unfold handle at h
  split at h
  · cases h
  · exact (Option.some.inj h).symm

def step (s : State γ) : Act γ → Option (State γ)
  | .notice notice loaded => handle s (s.handleNotice path loaded notice)
  | .noticesEnded => if s.closed then handle s (s.exit 1) else none
  | .command command loaded => handle s (s.handleCommand path loaded command)
  | .commandsEnded => handle s (s.exit 1)
  | .flowMsg =>
    match s.flowMsgs with
    | [] => none
    | (i, msg) :: rest => handle s (State.handleFlowMsg { s with flowMsgs := rest } i msg)
  | .timer timer =>
    if timer ∈ s.timers then
      handle s (State.handleTimer { s with timers := s.timers.erase timer } timer)
    else none
  | .signal => handle s (s.exit 0)
  | .flow i act =>
    match s.flows[i]? with
    | none => none
    | some f =>
      if s.permits i f act then
        (ConnectFlow.step normalize f act).map fun f' =>
          State.deliver { s with flows := s.flows.set i f' } i f act
      else none
  | .send request =>
    if request ∈ s.senders then
      let s' := { s with senders := s.senders.erase request }
      some (if s.closed then s' else s'.record (.request request))
    else none
  | .close => some { s with closed := true }

/-- The daemon with the configuration it was started with. -/
def machine (config : Config) : Machine (State γ) (Act γ) where
  init := { model := { config, portal := config.portal } }
  step := step normalize path

end GlobalProtect.Widget.Daemon
