import Mathlib.Data.Finset.Insert
import GlobalProtect.Lib.Runtime
import GlobalProtect.Lib.Store
import GlobalProtect.Api.Types

/-! # The session registry

The model of `session_registry.rs`, as far as sessions, attachments and their non-tunnel work are
concerned: every operation takes the registry under its mutex and is one function here. Time is in
seconds. Where the code draws an identifier or a secret, it is an argument.

An operation that cancels the work of an attachment returns the token it cancels: the token itself
belongs to the lifecycle. Whether a connection is closed, and whether an attempt has completed, is
also read from outside and passed in. -/

namespace GlobalProtect.Service.Registry

open Lib Api

/-! ### Data -/

def activationTimeout : ℕ := 15

def maxPendingSessions : ℕ := 16

inductive SessionError where
  | serviceRestarted (serviceInstance : Uuid)
  | unauthorized
  | tooManyPending
  | reconnectSuperseded
  | unavailable
  | invalidHipUpload
  deriving DecidableEq, Repr

inductive SessionStatus where
  | pending (activationDeadline : ℕ) (handshakeToken : Option Uuid)
  | active (generation : ℕ) (connection : Option Uuid) (reconnectToken : Option Uuid)
  deriving DecidableEq, Repr

/-- What is needed to cancel an attempt and to see it complete. -/
structure AttemptDrain where
  cancellation : ℕ
  completion : ℕ
  deriving DecidableEq, Repr

structure AttachmentAttempt where
  generation : ℕ
  connectionId : Uuid
  drain : AttemptDrain
  deriving DecidableEq, Repr

structure SessionRecord where
  nonTunnel : Option AttachmentAttempt := none
  closedAttachment : Option Uuid := none
  secret : ℕ
  productVersion : String
  desktopUid : Option ℕ
  editedHipReport : Option (Uuid × String) := none
  editedHipUpload : Option (Uuid × String) := none
  hipPreview : Option (Uuid × String) := none
  lastSuccessfulHipReport : Option String := none
  status : SessionStatus
  deriving DecidableEq, Repr

structure HandshakePermit where
  sessionId : Uuid
  desktopUid : Option ℕ
  observedGeneration : ℕ
  secret : ℕ
  token : Uuid
  deriving DecidableEq, Repr

abbrev Sessions := Store Uuid SessionRecord

/-! ### Issuing and attaching -/

/-- A pending session whose deadline has passed. -/
def SessionRecord.expired (now : ℕ) (r : SessionRecord) : Bool :=
  match r.status with
  | .pending deadline _ => now > deadline
  | .active _ _ _ => false

def SessionRecord.isPending (r : SessionRecord) : Bool :=
  match r.status with
  | .pending _ _ => true
  | .active _ _ _ => false

/-- The generation of a session and who holds its next attachment: a pending session is at
generation 0. -/
def SessionRecord.reservation (r : SessionRecord) : ℕ × Option Uuid :=
  match r.status with
  | .pending _ handshakeToken => (0, handshakeToken)
  | .active generation _ reconnectToken => (generation, reconnectToken)

namespace Sessions

/-- `SessionRegistry::issue`, for a drawn session id and secret. `available` is whether the
credential could be generated and anchored to the device. Expired sessions are dropped whatever
the result. -/
def issue (s : Sessions) (now : ℕ) (productVersion : String) (desktopUid : Option ℕ)
    (sessionId : Uuid) (secret : ℕ) (available : Bool) : Sessions × Except SessionError Uuid :=
  let s : Sessions := Store.retain s fun _ r => !r.expired now
  if maxPendingSessions ≤ (s.entries.filter fun e => e.2.isPending).length then
    (s, .error .tooManyPending)
  else if available then
    let record : SessionRecord :=
      { secret, productVersion, desktopUid, status := .pending (now + activationTimeout) none }
    (s.insert sessionId record, .ok sessionId)
  else (s, .error .unavailable)

/-- `SessionRegistry::begin_handshake` on the service instance `inst`, for a drawn token. -/
def beginHandshake (s : Sessions) (inst : Uuid) (now : ℕ) (serviceInstance sessionId : Uuid)
    (productVersion : String) (token : Uuid) : Sessions × Except SessionError HandshakePermit :=
  if serviceInstance ≠ inst then (s, .error (.serviceRestarted inst))
  else
    match s.lookup sessionId with
    | none => (s, .error .unauthorized)
    | some record =>
      if record.productVersion ≠ productVersion then (s, .error .unauthorized)
      else
        let permit (observedGeneration : ℕ) : HandshakePermit :=
          { sessionId, desktopUid := record.desktopUid, observedGeneration,
            secret := record.secret, token }
        match record.status with
        | .pending deadline handshakeToken =>
          if now > deadline then (s.erase sessionId, .error .unauthorized)
          else if handshakeToken.isSome then (s, .error .reconnectSuperseded)
          else
            (s.insert sessionId { record with status := .pending deadline (some token) },
              .ok (permit 0))
        | .active generation connection reconnectToken =>
          if reconnectToken.isSome then (s, .error .reconnectSuperseded)
          else
            (s.insert sessionId
              { record with status := .active generation connection (some token) },
              .ok (permit generation))

/-- `SessionRegistry::prepare_attach`: the generation a commit would install. -/
def prepareAttach (s : Sessions) (p : HandshakePermit) : Except SessionError ℕ :=
  match s.lookup p.sessionId with
  | none => .error .unauthorized
  | some record =>
    match record.status with
    | .pending _ handshakeToken =>
      if p.observedGeneration = 0 ∧ handshakeToken = some p.token then .ok 1
      else .error .reconnectSuperseded
    | .active generation _ reconnectToken =>
      if generation = p.observedGeneration ∧ reconnectToken = some p.token then
        match checkedAdd generation 1 with
        | some next => .ok next
        | none => .error .unavailable
      else .error .reconnectSuperseded

/-- What `commit_attach` leaves: the sessions, the token of the work it cancelled, and its result,
the connection that was replaced. -/
structure Attached where
  sessions : Sessions
  cancelled : Option ℕ := none
  result : Except SessionError (Option Uuid)

/-- `SessionRegistry::commit_attach`. A generation that cannot be incremented is reported after the
work of the old attachment was cancelled. -/
def commitAttach (s : Sessions) (p : HandshakePermit) (connection : Uuid) : Attached :=
  match s.lookup p.sessionId with
  | none => { sessions := s, result := .error .unauthorized }
  | some record =>
    match record.status with
    | .pending _ handshakeToken =>
      if p.observedGeneration = 0 ∧ handshakeToken = some p.token then
        { sessions :=
            s.insert p.sessionId { record with status := .active 1 (some connection) none }
          result := .ok none }
      else { sessions := s, result := .error .reconnectSuperseded }
    | .active generation current reconnectToken =>
      if generation = p.observedGeneration ∧ reconnectToken = some p.token then
        let cancelled := record.nonTunnel.map (·.drain.cancellation)
        let record := { record with closedAttachment := none }
        match checkedAdd generation 1 with
        | none => { sessions := s.insert p.sessionId record, cancelled, result := .error .unavailable }
        | some next =>
          { sessions :=
              s.insert p.sessionId { record with status := .active next (some connection) none }
            cancelled
            result := .ok current }
      else { sessions := s, result := .error .reconnectSuperseded }

/-- `SessionRegistry::cancel_handshake`, which the destructor of a permit runs. -/
def cancelHandshake (s : Sessions) (sessionId : Uuid) (observedGeneration : ℕ) (token : Uuid) :
    Sessions :=
  match s.lookup sessionId with
  | none => s
  | some record =>
    match record.status with
    | .pending _ handshakeToken =>
      if observedGeneration = 0 ∧ handshakeToken = some token then s.erase sessionId else s
    | .active generation connection reconnectToken =>
      if generation = observedGeneration ∧ reconnectToken = some token then
        s.insert sessionId { record with status := .active generation connection none }
      else s

def hasSession (s : Sessions) (sessionId : Uuid) : Bool := (s.lookup sessionId).isSome

def isCurrent (s : Sessions) (sessionId : Uuid) (generation : ℕ) : Bool :=
  match s.lookup sessionId with
  | none => false
  | some record =>
    match record.status with
    | .active current _ _ => current = generation
    | .pending _ _ => false

/-- `SessionRegistry::disconnect_if_current`, with the token it cancels. -/
def disconnectIfCurrent (s : Sessions) (sessionId : Uuid) (generation : ℕ) : Sessions × Option ℕ :=
  match s.lookup sessionId with
  | none => (s, none)
  | some record =>
    let cancelled := (record.nonTunnel.filter (·.generation = generation)).map
      (·.drain.cancellation)
    match record.status with
    | .active current _ reconnectToken =>
      if current = generation then
        (s.insert sessionId { record with status := .active current none reconnectToken }, cancelled)
      else (s, cancelled)
    | .pending _ _ => (s, cancelled)

/-- `SessionRegistry::revoke`, with the token it cancels and the connection it closes. -/
def revoke (s : Sessions) (sessionId : Uuid) : Sessions × Option ℕ × Option Uuid :=
  match s.lookup sessionId with
  | none => (s, none, none)
  | some record =>
    let connection := match record.status with
      | .active _ connection _ => connection
      | .pending _ _ => none
    (s.erase sessionId, record.nonTunnel.map (·.drain.cancellation), connection)

end Sessions

/-! ### Work of an attachment -/

def unavailableConnection : ServiceResult :=
  .rejected .invalidRequest "Connection attachment is unavailable"

def closingAttachment : ServiceResult :=
  .rejected .invalidRequest "Non-tunnel attachment is closing"

/-- `current_connection`; `closed` are the connections that `is_closed`. -/
def SessionRecord.currentConnection (r : SessionRecord) (closed : Finset Uuid) (expected : ℕ) :
    Except ServiceResult Uuid :=
  match r.status with
  | .active generation (some connection) _ =>
    if generation = expected ∧ connection ∉ closed then .ok connection
    else .error unavailableConnection
  | _ => .error unavailableConnection

namespace Sessions

/-- `SessionRegistry::reserve_connection`. `reserve` is what the closure returns if it is run, and
`drain` reads the handle of a reservation; `completed` are the completions that have been
signalled. -/
def reserveConnection {ρ : Type*} (drain : ρ → AttemptDrain) (s : Sessions) (closed : Finset Uuid)
    (completed : Finset ℕ) (sessionId : Uuid) (generation : ℕ) (nonTunnel : Bool)
    (reserve : Except ServiceResult ρ) : Sessions × Except ServiceResult ρ :=
  match s.lookup sessionId with
  | none => (s, .error unavailableConnection)
  | some record =>
    match record.currentConnection closed generation with
    | .error e => (s, .error e)
    | .ok connectionId =>
      if nonTunnel = true ∧ record.closedAttachment = some connectionId then
        (s, .error closingAttachment)
      else
        let record := { record with
          nonTunnel := record.nonTunnel.filter (·.drain.completion ∉ completed) }
        match reserve with
        | .error e => (s.insert sessionId record, .error e)
        | .ok reservation =>
          let record := if nonTunnel then
            { record with nonTunnel := some ⟨generation, connectionId, drain reservation⟩ }
            else record
          (s.insert sessionId record, .ok reservation)

/-- `SessionRegistry::commit_connection`: `ok` when the `commit` closure is run, still under the
lock of the registry. -/
def commitConnection (s : Sessions) (closed : Finset Uuid) (sessionId : Uuid) (generation : ℕ)
    (nonTunnel : Bool) : Except ServiceResult Unit :=
  match s.lookup sessionId with
  | none => .error unavailableConnection
  | some record =>
    if nonTunnel then
      match record.currentConnection closed generation with
      | .error e => .error e
      | .ok connectionId =>
        if record.closedAttachment = some connectionId then .error closingAttachment else .ok ()
    else if record.isPending then .error unavailableConnection
    else .ok ()

/-- `SessionRegistry::stop_non_tunnel_attachment`; a handle that is returned was cancelled. -/
def stopNonTunnelAttachment (s : Sessions) (closed : Finset Uuid) (sessionId : Uuid)
    (generation : ℕ) (connectionId : Uuid) :
    Sessions × Except ServiceResult (Option AttemptDrain) :=
  match s.lookup sessionId with
  | none => (s, .error unavailableConnection)
  | some record =>
    match record.currentConnection closed generation with
    | .error e => (s, .error e)
    | .ok currentId =>
      let s := if currentId = connectionId then
        s.insert sessionId { record with closedAttachment := some connectionId } else s
      (s, .ok ((record.nonTunnel.filter (·.connectionId = connectionId)).map (·.drain)))

end Sessions

end GlobalProtect.Service.Registry
