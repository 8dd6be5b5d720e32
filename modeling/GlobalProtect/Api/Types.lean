import Mathlib.Data.List.Basic

/-! # Shared data of the client library

The records and enumerations of `gpapi` that cross the boundary between the service, the command
line client and the widget: gateways, connection plans, the published `VpnState` and the results a
service request can have. Field by field they follow `gateway/mod.rs`, `session.rs`,
`session/connection.rs`, `session/desktop/connection_plan.rs`, `script_tun.rs`,
`service/vpn_state.rs` and `service/transport/`. Universally unique identifiers are numbers. -/

namespace GlobalProtect.Api

abbrev Uuid := ℕ

/-! ### Gateways -/

inductive GatewayKind where
  | internal
  | external
  deriving DecidableEq, Repr

structure PriorityRule where
  name : String
  priority : ℕ
  deriving DecidableEq, Repr

structure Gateway where
  name : String
  address : String
  kind : GatewayKind := .external
  priority : ℕ := 0
  priorityRules : List PriorityRule := []
  deriving DecidableEq, Repr

def Gateway.server (g : Gateway) : String := g.address

/-- How a gateway is shown in messages. -/
def Gateway.display (g : Gateway) : String := g.name ++ " (" ++ g.address ++ ")"

inductive SessionMode where
  | tunnel
  | nonTunnel
  deriving DecidableEq, Repr

structure GatewayAuthentication where
  cookie : String
  connectionType : String
  deriving DecidableEq, Repr

/-- `GatewayAuthentication::mode`: everything but the literal `tunnel` is a non-tunnel session. -/
def GatewayAuthentication.mode (a : GatewayAuthentication) : SessionMode :=
  if a.connectionType = "tunnel" then .tunnel else .nonTunnel

inductive MaintenanceState where
  | authenticated
  | healthy
  | rejected
  deriving DecidableEq, Repr

structure GatewaySessionSummary where
  gateway : Gateway
  mode : SessionMode
  clientIp : Option String
  clientIpv6 : Option String
  maintenance : MaintenanceState
  deriving DecidableEq, Repr

inductive SessionEndReason where
  | invalidCookie
  | networkChanged
  | allMembersFailed
  | authorizationRevoked
  deriving DecidableEq, Repr

inductive GatewayFailure where
  | authenticationRejected
  | unreachable
  | tunnelFailed
  deriving DecidableEq, Repr

structure GatewayFailureSummary where
  gateway : Gateway
  failure : GatewayFailure
  deriving DecidableEq, Repr

/-! ### Packet delivery -/

/-- The identity a script-tun consumer is configured with. -/
structure Identity where
  serviceInstance : Uuid
  attempt : ℕ
  launchId : Uuid
  deriving DecidableEq, Repr

inductive PacketDeliveryKind where
  | system
  | scriptTun
  deriving DecidableEq, Repr

structure ScriptTunRequest where
  launchId : Uuid
  program : String
  args : List String
  bootstrap : String
  deriving DecidableEq, Repr

inductive PacketDelivery where
  | system
  | scriptTun (request : ScriptTunRequest)
  deriving DecidableEq, Repr

/-! ### Session times -/

structure SessionWarning where
  priorSecs : ℕ
  message : String
  deriving DecidableEq, Repr

/-- What OpenConnect reports about an established session. -/
structure VpnSessionInfo where
  lifetimeSecs : Option ℕ
  userExpires : Option ℕ
  lifetimeWarning : Option SessionWarning
  deriving DecidableEq, Repr

structure SessionInfo where
  lifetimeSecs : Option ℕ := none
  userExpires : Option ℕ := none
  expiresInHuman : Option String := none
  lifetimeWarning : Option SessionWarning := none
  inactivityWarning : Option SessionWarning := none
  adminLogoutMessage : Option String := none
  allowExtendSession : Bool := false
  deriving DecidableEq, Repr

/-- One unit of a formatted duration; a zero count is not shown. -/
def durationItem (count : ℕ) (unit : String) : List String :=
  if count = 0 then [] else [toString count ++ unit]

/-- A unit whose name has a plural. -/
def durationItemPlural (count : ℕ) (unit : String) : List String :=
  durationItem count (if count = 1 then unit else unit ++ "s")

/-- `format_duration_secs`: a year is 365.25 days and a month 30.44 days. -/
def formatDurationSecs (totalSecs : ℕ) : String :=
  if totalSecs = 0 then "0s"
  else
    let ydays := totalSecs % 31557600
    let mdays := ydays % 2630016
    let daySecs := mdays % 86400
    " ".intercalate (durationItemPlural (totalSecs / 31557600) "year" ++
      durationItemPlural (ydays / 2630016) "month" ++ durationItemPlural (mdays / 86400) "day" ++
      durationItem (daySecs / 3600) "h" ++ durationItem (daySecs % 3600 / 60) "m" ++
      durationItem (daySecs % 60) "s")

/-- `build_human_readable_expiry` at the clock value `now`. -/
def buildHumanReadableExpiry (now : ℕ) (userExpires lifetimeSecs : Option ℕ) : Option String :=
  match userExpires with
  | some expires => some (formatDurationSecs (expires - now))
  | none => lifetimeSecs.map formatDurationSecs

def SessionInfo.withComputedHumanTimes (i : SessionInfo) (now : ℕ) : SessionInfo :=
  { i with expiresInHuman := buildHumanReadableExpiry now i.userExpires i.lifetimeSecs }

def SessionInfo.fromVpnSessionFields (now : ℕ) (lifetimeSecs userExpires : Option ℕ)
    (lifetimeWarning : Option SessionWarning) (allowExtendSession : Bool) : SessionInfo :=
  SessionInfo.withComputedHumanTimes
    { lifetimeSecs, userExpires, lifetimeWarning, allowExtendSession } now

/-! ### The published state -/

structure ConnectInfo where
  packetDelivery : PacketDeliveryKind := .system
  scriptTunIdentity : Option Identity := none
  portal : String
  gateway : Gateway
  gateways : List Gateway
  deriving DecidableEq, Repr

structure ConnectedInfo where
  info : ConnectInfo
  sessionInfo : Option SessionInfo
  connectedAt : ℕ
  members : List GatewaySessionSummary := []
  failures : List GatewayFailureSummary := []
  deriving DecidableEq, Repr

/-- `ConnectedInfo::new` at the clock value `now`. -/
def ConnectedInfo.new (now : ℕ) (info : ConnectInfo) (sessionInfo : Option SessionInfo) :
    ConnectedInfo :=
  { info, sessionInfo, connectedAt := now }

def ConnectedInfo.withMembers (c : ConnectedInfo) (members : List GatewaySessionSummary)
    (failures : List GatewayFailureSummary) : ConnectedInfo :=
  { c with members, failures }

structure ReconnectRequest where
  attempt : ℕ
  owner : Uuid
  info : ConnectInfo
  deriving DecidableEq, Repr

inductive VpnState where
  | reconnectRequired (request : ReconnectRequest)
  | disconnected
  | failed (reason : String)
  | connecting (info : ConnectInfo)
  | connected (info : ConnectedInfo)
  | disconnecting
  deriving DecidableEq, Repr

/-! ### Connection requests -/

structure AuthenticatedGateway where
  gateway : Gateway
  authentication : GatewayAuthentication
  deriving DecidableEq, Repr

/-- A client's connect request: the members and failures of its plan and the arguments the
lifecycle reads. -/
structure ConnectRequest where
  info : ConnectInfo
  members : List AuthenticatedGateway
  failures : List GatewayFailureSummary := []
  packetDelivery : PacketDelivery := .system
  allowExtendSession : Bool := false
  restartOf : Option ℕ := none
  deriving DecidableEq, Repr

/-- Every member of the plan is a non-tunnel session. -/
def ConnectRequest.allNonTunnel (r : ConnectRequest) : Bool :=
  r.members.all fun member => member.authentication.mode = .nonTunnel

/-! ### Service results -/

inductive ServiceErrorCode where
  | invalidRequest
  | busy
  | checksumFailed
  | installFailed
  | internal
  deriving DecidableEq, Repr

inductive ServiceResult where
  | accepted
  | rejected (code : ServiceErrorCode) (message : String)
  deriving DecidableEq, Repr

end GlobalProtect.Api
