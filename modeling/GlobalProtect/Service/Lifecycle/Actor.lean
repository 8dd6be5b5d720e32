import GlobalProtect.Service.Lifecycle.Model

/-! # The actor and its workers

`VpnTask`: what the actor does with each queued event, the shutdown branch of its loop, and the
machine that interleaves it with the handles, the reservations and the workers. A worker may send
any of its events while it lives, sends `Ended` once, and returns afterwards; a send that finds the
queue full waits, so it is not enabled. -/

namespace GlobalProtect.Service.Lifecycle

open Lib Api

namespace State

variable (s : State)

/-- The active attempt, when it has this number. -/
def activeFor (attempt : ℕ) : Option ActiveAttempt := s.active.filter (·.attempt = attempt)

/-! ### Handling one event -/

/-- The connection info of a started attempt: a script-tun consumer gets its identity. -/
def attemptInfo (inst : Uuid) (attempt : ℕ) (connection : ConnectRequest) : ConnectInfo :=
  match connection.packetDelivery with
  | .system => connection.info
  | .scriptTun request =>
    { connection.info with scriptTunIdentity := some ⟨inst, attempt, request.launchId⟩ }

/-- `VpnTask::start_attempt`, for the service instance `inst`. -/
def startAttempt (inst : Uuid) (attempt : ℕ) (connection : ConnectRequest)
    (sessionId : Option Uuid) : State :=
  let (s, activated) := s.activateAttempt attempt
  let s := { s with tunnel := { attempt, nonTunnel := connection.allNonTunnel } }
  let info := attemptInfo inst attempt connection
  let (s, cancellation) := s.attemptCancellation attempt
  let s := if activated then s else s.cancel cancellation
  let active : ActiveAttempt :=
    { attempt, sessionId, info, allowExtendSession := connection.allowExtendSession, cancellation,
      task := s.spawned }
  let s := { s with
    spawned := s.spawned + 1
    workers := s.workers ++ [{ task := s.spawned, attempt }]
    active := some active }
  if activated then s.sendState (some cancellation) (.connecting info) else s

def stopAttempt (attempt : ℕ) : State :=
  match s.active with
  | none => s
  | some active =>
    if active.attempt ≠ attempt ∨ ¬ s.isStopRequested attempt then s
    else (s.sendState (some active.cancellation) .disconnecting).cancel active.cancellation

def publishConnected (now token attempt : ℕ) (info : ConnectInfo) (sessionInfo : SessionInfo) :
    State :=
  if s.admissions.current.any fun admission =>
      admission.attempt = attempt && admission.phase = .active && !admission.stopRequested then
    s.sendState (some token) (.connected (.new now info (some sessionInfo)))
  else s

def establishAttempt (now attempt : ℕ) (session : VpnSessionInfo) : State :=
  match s.active with
  | none => s
  | some active =>
    if active.attempt ≠ attempt then s
    else if s.isCancelled active.cancellation then s
    else
      let sessionInfo := SessionInfo.fromVpnSessionFields now session.lifetimeSecs
        session.userExpires session.lifetimeWarning active.allowExtendSession
      s.publishConnected now active.cancellation attempt active.info sessionInfo

def publishMembers (now attempt : ℕ) (members : List GatewaySessionSummary)
    (failures : List GatewayFailureSummary) : State :=
  match s.active with
  | none => s
  | some active =>
    if active.attempt ≠ attempt ∨ s.isCancelled active.cancellation then s
    else if ¬ members.any (·.maintenance = .healthy) then
      match s.vpnState with
      | .connected _ => s.sendState (some active.cancellation) (.connecting active.info)
      | _ => s
    else if s.admissions.current.all fun admission =>
        admission.attempt ≠ attempt || admission.stopRequested then s
    else
      let info := match s.vpnState with
        | .connected connected => connected
        | _ => .new now active.info none
      s.sendState (some active.cancellation) (.connected (info.withMembers members failures))

def finishAttempt (token attempt : ℕ) : State :=
  (s.sendState (some token) .disconnected).clearAttempt attempt

/-- `VpnTask::end_attempt` up to the join: the actor takes the active attempt. -/
def endAttempt (attempt : ℕ) : State :=
  match s.activeFor attempt with
  | none => s
  | some active => { s with active := none, joining := some active }

/-- `VpnTask::end_attempt` after the join. `hasSession` is the registry's answer for the session
that owns the attempt. -/
def afterJoin (active : ActiveAttempt) (hasSession : Bool) : State :=
  let s := { s with joining := none }
  let s := if s.tunnel.monitor.isNone then
    { s with tunnel := { attempt := active.attempt } } else s
  let owner := if active.reconnectRequired && !s.isCancelled active.cancellation && hasSession then
    active.sessionId else none
  match owner with
  | some owner =>
    match s.admissions.current with
    | none => s.record (.ended active.cancellation none)
    | some admission =>
      let s := { s with admissions := { s.admissions with current := none } }
      let s :=
        if !s.isCancelled admission.cancellation && !admission.stopRequested then
          let s := { s with
            admissions := { s.admissions with restart := some (active.attempt, owner) } }
          (s.sendState (some active.cancellation)
            (.reconnectRequired ⟨active.attempt, owner, active.info⟩)).record
              (.ended active.cancellation (some (active.attempt, owner)))
        else
          (s.sendState (some active.cancellation) .disconnected).record
            (.ended active.cancellation none)
      { s with completed := insert admission.completion s.completed }
  | none =>
    match active.failure with
    | some reason =>
      ((s.sendState (some active.cancellation) (.failed reason)).clearAttempt
        active.attempt).record (.ended active.cancellation none)
    | none =>
      (s.finishAttempt active.cancellation active.attempt).record
        (.ended active.cancellation none)

def handleEvent (inst : Uuid) (now : ℕ) : LifecycleEvent → State
  | .tunnelMonitor attempt monitor =>
    match s.activeFor attempt with
    | none => s
    | some _ => { s with tunnel := { attempt, monitor := some monitor } }
  | .start attempt connection sessionId => s.startAttempt inst attempt connection sessionId
  | .stop attempt => s.stopAttempt attempt
  | .established attempt session => s.establishAttempt now attempt session
  | .membersChanged attempt members failures => s.publishMembers now attempt members failures
  | .ended attempt => s.endAttempt attempt
  | .failed attempt reason =>
    match s.activeFor attempt with
    | none => s
    | some active => { s with active := some { active with failure := some reason } }
  | .scriptTunSuspended attempt =>
    match (s.activeFor attempt).filter fun active => !s.isCancelled active.cancellation with
    | none => s
    | some active => s.sendState (some active.cancellation) (.connecting active.info)
  | .reconnectRequired attempt =>
    match s.activeFor attempt with
    | none => s
    | some active => { s with active := some { active with reconnectRequired := true } }
  | .preparationReleased => s

/-- The shutdown branch of `VpnTask::start`. -/
def shutdown : State :=
  let s := { s with shuttingDown := true }.closeAdmission
  match s.active with
  | none => s
  | some active => s.stopAttempt active.attempt

end State

/-! ### The machine -/

inductive Label where
  | reserve (restart : Option (ℕ × Uuid))
  | commit (r : ConnectReservation) (connection : ConnectRequest) (sessionId : Option Uuid)
  | dropReservation (r : ConnectReservation)
  | requestDisconnect
  | disconnectAndWait
  /-- `AttemptDrain::cancel`, or any other holder of a token. -/
  | cancel (token : ℕ)
  | shutdown
  /-- The actor takes the next event from its queue and handles it at the clock value `now`. -/
  | handle (now : ℕ)
  /-- The awaited worker has returned and the actor resumes `end_attempt`. -/
  | join (hasSession : Bool)
  /-- The actor's loop ends and its queue is dropped. -/
  | exit
  | emit (task : ℕ) (event : WorkerEvent)
  /-- A worker sends `Ended`. -/
  | finish (task : ℕ)
  /-- A worker that has sent `Ended` returns. -/
  | workerReturn (task : ℕ)
  deriving DecidableEq

/-- A live worker that has not sent `Ended`. -/
def State.busyWorker (s : State) (task : ℕ) : Option Worker :=
  s.workers.find? fun w => w.task = task && !w.ended

/-- One step of the service, for the service instance `inst`. -/
def step (inst : Uuid) (s : State) : Label → Option State
  | .reserve restart =>
    match s.reserveConnect restart with
    | .ok (s', _) => some s'
    | .error _ => some s
  | .commit r connection sessionId =>
    if r ∈ s.reservations ∧ r.consumed = false then some (s.commit r connection sessionId).1
    else none
  | .dropReservation r => if r ∈ s.reservations then some (s.dropReservation r) else none
  | .requestDisconnect => some s.requestDisconnect.1
  | .disconnectAndWait => some s.disconnectAndWait.1
  | .cancel token => if token < s.fresh then some (s.cancel token) else none
  | .shutdown =>
    if s.shuttingDown = false ∧ s.joining = none ∧ s.events.closed = false then some s.shutdown
    else none
  | .handle now =>
    match s.joining, s.events.queue with
    | none, event :: queue =>
      some ({ s with events := { s.events with queue } }.handleEvent inst now event)
    | _, _ => none
  | .join hasSession =>
    match s.joining with
    | some active =>
      if s.workers.all (·.task ≠ active.task) then some (s.afterJoin active hasSession) else none
    | none => none
  | .exit =>
    if s.shuttingDown = true ∧ s.active = none ∧ s.joining = none ∧ s.admissions.current = none then
      let s := s.closeAdmission
      some { s with events := { s.events with queue := [], closed := true } }
    else none
  | .emit task event =>
    match s.busyWorker task with
    | some w =>
      match s.events.trySend (event.toEvent w.attempt) with
      | .ok events => some { s with events }
      | .error _ => none
    | none => none
  | .finish task =>
    match s.busyWorker task with
    | some w =>
      match s.events.trySend (.ended w.attempt) with
      | .ok events =>
        some { s with
          events
          workers := s.workers.map fun w => if w.task = task then { w with ended := true } else w }
      | .error _ => none
    | none => none
  | .workerReturn task =>
    if s.workers.any fun w => w.task = task && w.ended then
      some { s with workers := s.workers.filter (·.task ≠ task) }
    else none

/-- The lifecycle of the service instance `inst`. -/
def machine (inst : Uuid) : Machine State Label where
  init := {}
  step := step inst

def sampleRequest : ConnectRequest where
  info := { portal := "portal.example.com", gateway := ⟨"vpn", "vpn.example.com", .external, 0, []⟩,
            gateways := [] }
  members := [⟨⟨"vpn", "vpn.example.com", .external, 0, []⟩,
    ⟨"authcookie=token&user=user", "tunnel"⟩⟩]

end GlobalProtect.Service.Lifecycle
