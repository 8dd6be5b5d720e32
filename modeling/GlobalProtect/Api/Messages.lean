import GlobalProtect.Lib.Feed
import GlobalProtect.Api.Types

/-! # What the service tells its clients

The messages that carry the state of the service over an attached connection. The configuration of a
tunnel is left open (`γ`): the service never looks into it, except that it may have to shorten it to
make a message fit.

The part of a snapshot that is never shortened is `VpnEnv.facts`; a client that applies the events
it receives to the snapshot it was attached with keeps a replica of it (`vpnFeed`). -/

namespace GlobalProtect.Api

open Lib

inductive TunnelPhase where
  | establishing
  | connected
  | reconnecting
  | ended
  deriving DecidableEq, Repr

inductive TunnelTransport where
  | negotiating
  | ipsecEsp
  | sslTls
  | unavailable
  deriving DecidableEq, Repr

structure TunnelState (γ : Type) where
  tunnelId : Uuid
  sequence : ℕ
  phase : TunnelPhase
  configurationRevision : ℕ
  configuration : Option γ
  transport : TunnelTransport
  elapsedMs : ℕ
  deriving DecidableEq, Repr

structure HostIdentity where
  computer : String
  hostId : String
  serialNumber : String
  macAddress : String
  deriving DecidableEq, Repr

structure HostInfo where
  hostIdentity : HostIdentity
  deriving DecidableEq, Repr

structure VpnEnv (γ : Type) where
  tunnelState : Option (TunnelState γ)
  vpnState : VpnState
  vpncScript : Option String
  authExecutable : String
  hostInfo : HostInfo
  deriving DecidableEq, Repr

inductive WsEvent (γ : Type) where
  | tunnelState (state : Option (TunnelState γ))
  | vpnEnv (env : VpnEnv γ)
  | vpnState (state : VpnState)
  | activeGui
  | resumeConnection
  deriving DecidableEq, Repr

/-- Messages to a client; statistics, which travel beside the queue, are left out. -/
inductive ServerMessage (γ : Type) where
  | attached (connectionId : Uuid) (currentRevision : ℕ) (snapshot : VpnEnv γ)
  | reply (id : Uuid) (result : ServiceResult)
  | event (revision : ℕ) (event : WsEvent γ)
  | snapshot (currentRevision : ℕ) (snapshot : VpnEnv γ)
  deriving DecidableEq, Repr

inductive CloseReason where
  | versionMismatch
  | unauthorized
  | sessionReplaced
  | handshakeFailed
  | malformedMessage
  | messageTooLarge
  | authenticationFailed
  | handshakeTimeout
  | reconnectSuperseded
  | internalError
  | serviceRestarted
  | heartbeatTimeout
  deriving DecidableEq, Repr

variable {γ : Type}

/-- What an event changes in a snapshot. -/
def WsEvent.apply : WsEvent γ → VpnEnv γ → VpnEnv γ
  | .vpnEnv env, _ => env
  | .vpnState state, snapshot => { snapshot with vpnState := state }
  | .tunnelState state, snapshot => { snapshot with tunnelState := state }
  | .activeGui, snapshot => snapshot
  | .resumeConnection, snapshot => snapshot

/-- The facts of a snapshot that are never shortened. -/
def VpnEnv.facts (env : VpnEnv γ) : VpnState × Option String × String × HostInfo :=
  (env.vpnState, env.vpncScript, env.authExecutable, env.hostInfo)

/-- Clients keep a replica of the facts. -/
def vpnFeed : Feed (VpnEnv γ) (WsEvent γ) (VpnState × Option String × String × HostInfo) where
  apply := WsEvent.apply
  obs := VpnEnv.facts
  obs_apply e x y h := by
    unfold VpnEnv.facts at h ⊢
    simp only [Prod.mk.injEq] at h
    cases e <;> simp [WsEvent.apply, h]

/-- The part of a message in the replication. -/
def ServerMessage.feed : ServerMessage γ → Option (FeedMessage (VpnEnv γ) (WsEvent γ))
  | .attached _ revision env => some (.base revision env)
  | .event revision change => some (.delta revision change)
  | .snapshot revision env => some (.checkpoint revision env)
  | .reply _ _ => none

end GlobalProtect.Api
