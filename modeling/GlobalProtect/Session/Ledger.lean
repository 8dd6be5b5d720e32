import GlobalProtect.Lib.Custody
import GlobalProtect.Api.Types

/-! # The ledger of issued gateway sessions

The model of `gateway_sessions.rs`. A ledger is the custody of the sessions that gateway logins
issued: a session leaves it by a logout request or by passing to another owner. `issue` numbers the
logins and stands for the identity of the shared session object; of the transport only the
authentication is kept, since the outcome of a request is decided by the gateway. The time limit and
the outcome of a logout request change nothing for the ledger. -/

namespace GlobalProtect.Session

open Lib Api

structure ClientAddresses where
  ipv4 : Option String := none
  ipv6 : Option String := none
  deriving DecidableEq, Repr

structure GatewaySession where
  issue : ℕ
  gateway : Gateway
  authentication : GatewayAuthentication
  addresses : ClientAddresses := {}
  deriving DecidableEq, Repr

def GatewaySession.server (s : GatewaySession) : String := s.gateway.server

/-- What the observers of a non-tunnel session are told. -/
def GatewaySession.summary (s : GatewaySession) (maintenance : MaintenanceState) :
    GatewaySessionSummary :=
  { gateway := s.gateway, mode := .nonTunnel, clientIp := s.addresses.ipv4,
    clientIpv6 := s.addresses.ipv6, maintenance }

inductive Release where
  | loggedOut
  | relinquished
  deriving DecidableEq, Repr

abbrev GatewaySessions := Custody GatewaySession Release

namespace GatewaySessions

def new (members : List GatewaySession) : GatewaySessions := { held := members }

variable (s : GatewaySessions)

def members : List GatewaySession := s.held

/-- `update`: a member is replaced by a new version of the same gateway's session. -/
def update (session : GatewaySession) : GatewaySessions :=
  Custody.update s GatewaySession.server session

/-- `relinquish`: another owner has taken over every session. -/
def relinquish : GatewaySessions := s.releaseAll .relinquished

def relinquishGateway (server : String) : GatewaySessions :=
  s.releaseFirst GatewaySession.server server .relinquished

/-- `logout_gateway`: the session leaves the ledger before its logout is awaited. -/
def logoutGateway (server : String) : GatewaySessions :=
  s.releaseFirst GatewaySession.server server .loggedOut

def logout : GatewaySessions := s.releaseAll .loggedOut

end GatewaySessions

end GlobalProtect.Session
