import Mathlib.Data.Finset.Insert
import GlobalProtect.Lib.Machine
import GlobalProtect.Lib.Runtime
import GlobalProtect.Api.Types

/-! # The VPN lifecycle of the service

The model of `vpn_task.rs`: the admission slot behind its mutex, the bounded event queue, the actor
`VpnTask` and the workers it spawns. Every critical section and every event the actor handles is
one step; `end_attempt` is two, since the actor is suspended while it awaits the worker it joins
(`joining`). What the scheduler, the clock, the session registry and the worker decide is in the
labels.

Cancellation tokens and completions are shared objects. They are named by the counter `fresh`, and
`cancelled` and `completed` are the sets of the names whose flag is raised. A token is allocated by
each admitted reservation, so it names an attempt even where attempt numbers repeat.

`log` is a history: nothing reads it. Data that only the worker reads (the desktop user, the edited
report, the prepared resources) is not part of the `start` event here. -/

namespace GlobalProtect.Service.Lifecycle

open Lib Api

/-! ### State -/

structure TunnelBinding where
  attempt : ℕ := 0
  monitor : Option ℕ := none
  nonTunnel : Bool := false
  deriving DecidableEq, Repr

inductive AdmissionPhase where
  | preparing
  | pending
  | active
  | stopping
  deriving DecidableEq, Repr

structure Admission where
  attempt : ℕ
  phase : AdmissionPhase
  stopRequested : Bool
  cancellation : ℕ
  completion : ℕ
  deriving DecidableEq, Repr

structure Admissions where
  closed : Bool := false
  nextAttempt : ℕ := 0
  current : Option Admission := none
  restart : Option (ℕ × Uuid) := none
  deriving DecidableEq, Repr

/-- A reservation that was not transferred to the queue; `consumed` once a failed `commit` owns
it and only its destructor is left to run. -/
structure ConnectReservation where
  attempt : ℕ
  cancellation : ℕ
  consumed : Bool := false
  deriving DecidableEq, Repr

inductive LifecycleEvent where
  | tunnelMonitor (attempt monitor : ℕ)
  | start (attempt : ℕ) (connection : ConnectRequest) (sessionId : Option Uuid)
  | stop (attempt : ℕ)
  | scriptTunSuspended (attempt : ℕ)
  | reconnectRequired (attempt : ℕ)
  | established (attempt : ℕ) (session : VpnSessionInfo)
  | membersChanged (attempt : ℕ) (members : List GatewaySessionSummary)
      (failures : List GatewayFailureSummary)
  | ended (attempt : ℕ)
  | failed (attempt : ℕ) (reason : String)
  | preparationReleased
  deriving DecidableEq, Repr

structure ActiveAttempt where
  attempt : ℕ
  sessionId : Option Uuid
  info : ConnectInfo
  allowExtendSession : Bool
  cancellation : ℕ
  task : ℕ
  failure : Option String := none
  reconnectRequired : Bool := false
  deriving DecidableEq, Repr

/-- A spawned worker that has not returned; `ended` once it has sent `Ended`. -/
structure Worker where
  task : ℕ
  attempt : ℕ
  ended : Bool := false
  deriving DecidableEq, Repr

/-- What a worker sends before its final `Ended`. -/
inductive WorkerEvent where
  | tunnelMonitor (monitor : ℕ)
  | scriptTunSuspended
  | reconnectRequired
  | established (session : VpnSessionInfo)
  | membersChanged (members : List GatewaySessionSummary) (failures : List GatewayFailureSummary)
  | failed (reason : String)
  deriving DecidableEq, Repr

def WorkerEvent.toEvent (attempt : ℕ) : WorkerEvent → LifecycleEvent
  | .tunnelMonitor monitor => .tunnelMonitor attempt monitor
  | .scriptTunSuspended => .scriptTunSuspended attempt
  | .reconnectRequired => .reconnectRequired attempt
  | .established session => .established attempt session
  | .membersChanged members failures => .membersChanged attempt members failures
  | .failed reason => .failed attempt reason

/-- History entries; attempts are named by their token. -/
inductive Entry where
  /-- `reserve_connect` handed out an attempt number. -/
  | handed (attempt token : ℕ)
  /-- `request_disconnect` ran. -/
  | disconnectRequested
  /-- A stop was accepted for the attempt that holds the admission. -/
  | stopRequested (token : ℕ)
  | cancelled (token : ℕ)
  /-- A state was published, on behalf of an attempt or by an idle `request_disconnect`. -/
  | published (owner : Option ℕ) (state : VpnState)
  /-- `end_attempt` returned; the offer is the one it stored for a restart. -/
  | ended (token : ℕ) (offer : Option (ℕ × Uuid))
  deriving DecidableEq, Repr

structure State where
  admissions : Admissions := {}
  events : Channel LifecycleEvent := { capacity := 4 }
  tunnel : TunnelBinding := {}
  vpnState : VpnState := .disconnected
  active : Option ActiveAttempt := none
  joining : Option ActiveAttempt := none
  shuttingDown : Bool := false
  fresh : ℕ := 0
  spawned : ℕ := 0
  cancelled : Finset ℕ := ∅
  completed : Finset ℕ := ∅
  reservations : List ConnectReservation := []
  workers : List Worker := []
  log : List Entry := []
  deriving DecidableEq

namespace State

variable (s : State)

def record (e : Entry) : State := { s with log := s.log ++ [e] }

def cancel (token : ℕ) : State :=
  { s with cancelled := insert token s.cancelled, log := s.log ++ [.cancelled token] }

def isCancelled (token : ℕ) : Bool := token ∈ s.cancelled

/-- `VpnTask::send_state`, and the `send_replace` of `request_disconnect`. -/
def sendState (owner : Option ℕ) (state : VpnState) : State :=
  { s with vpnState := state, log := s.log ++ [.published owner state] }

/-! ### The handle -/

def reserveConnect (restart : Option (ℕ × Uuid)) :
    Except ServiceResult (State × ConnectReservation) :=
  if s.admissions.closed then
    .error (.rejected .internal "VPN task is unavailable")
  else if s.admissions.current.isSome then
    .error (.rejected .busy "A VPN connection is already in progress")
  else if restart.isSome ∧ s.admissions.restart ≠ restart then
    .error (.rejected .invalidRequest "Reconnect request is no longer current")
  else
    let attempt := s.admissions.nextAttempt
    let admission : Admission :=
      { attempt, phase := .preparing, stopRequested := false, cancellation := s.fresh,
        completion := s.fresh }
    let reservation : ConnectReservation := { attempt, cancellation := s.fresh }
    .ok ({ s with
      admissions := { s.admissions with
        restart := none
        nextAttempt := wrappingAdd attempt 1
        current := some admission }
      fresh := s.fresh + 1
      reservations := s.reservations ++ [reservation]
      log := s.log ++ [.handed attempt s.fresh] }, reservation)

def requestDisconnect : State × ServiceResult :=
  let s : State := { s with
    admissions := { s.admissions with restart := none }, log := s.log ++ [.disconnectRequested] }
  match s.admissions.current with
  | none => (s.sendState none .disconnected, .accepted)
  | some admission =>
    let s := s.record (.stopRequested admission.cancellation)
    if admission.stopRequested then (s, .accepted)
    else
      let s := s.cancel admission.cancellation
      ({ s with
        admissions := { s.admissions with
          current := some { admission with stopRequested := true, phase := .stopping } }
        events := s.events.offer (.stop admission.attempt) }, .accepted)

/-- `LifecycleHandle::disconnect_and_wait` up to its wait: the completion it then waits for. -/
def disconnectAndWait : State × Option ℕ :=
  match s.admissions.current with
  | none => (s, none)
  | some admission =>
    let s := s.record (.stopRequested admission.cancellation)
    if admission.stopRequested then (s, some admission.completion)
    else
      let s := { s with events := s.events.offer (.stop admission.attempt) }
      let s := s.cancel admission.cancellation
      ({ s with
        admissions := { s.admissions with
          current := some { admission with stopRequested := true, phase := .stopping } } },
        some admission.completion)

def isStopRequested (attempt : ℕ) : Bool :=
  s.admissions.current.any fun admission =>
    admission.attempt = attempt && admission.stopRequested

def closeAdmission : State :=
  let s := { s with admissions := { s.admissions with closed := true } }
  match s.admissions.current with
  | none => s
  | some admission =>
    let s := (s.record (.stopRequested admission.cancellation)).cancel admission.cancellation
    { s with
      admissions := { s.admissions with
        current := some { admission with stopRequested := true, phase := .stopping } } }

/-- `LifecycleHandle::attempt_cancellation`: a queued owner whose admission is gone gets a token
that is already cancelled. -/
def attemptCancellation (attempt : ℕ) : State × ℕ :=
  match s.admissions.current.filter (·.attempt = attempt) with
  | some admission => (s, admission.cancellation)
  | none => ({ s with fresh := s.fresh + 1 }.cancel s.fresh, s.fresh)

def activateAttempt (attempt : ℕ) : State × Bool :=
  match s.admissions.current with
  | none => (s, false)
  | some admission =>
    if admission.attempt ≠ attempt ∨ admission.stopRequested ∨
        s.isCancelled admission.cancellation ∨ admission.phase ≠ .pending then (s, false)
    else
      ({ s with
        admissions := { s.admissions with current := some { admission with phase := .active } } },
        true)

def clearAttempt (attempt : ℕ) : State :=
  match s.admissions.current with
  | none => s
  | some admission =>
    if admission.attempt ≠ attempt then s
    else
      { s with
        admissions := { s.admissions with current := none }
        completed := insert admission.completion s.completed }

/-! ### Reservations -/

/-- `ConnectReservation::commit`. A reservation that is not transferred stays, `consumed`, until
its destructor runs: the mutex is released in between. -/
def commit (r : ConnectReservation) (connection : ConnectRequest) (sessionId : Option Uuid) :
    State × ServiceResult :=
  let failed :=
    { s with reservations := s.reservations.replace r { r with consumed := true } }
  if s.admissions.closed then
    (failed, .rejected .internal "VPN task is unavailable")
  else
    match s.admissions.current.filter (·.attempt = r.attempt) with
    | none => (failed, .rejected .invalidRequest "Connection preparation was superseded")
    | some admission =>
      if admission.stopRequested ∨ s.isCancelled r.cancellation then
        (failed, .rejected .invalidRequest "Connection preparation was cancelled")
      else
        match s.events.trySend (.start r.attempt connection sessionId) with
        | .ok events =>
          ({ s with
            events
            admissions := { s.admissions with current := some { admission with phase := .pending } }
            reservations := s.reservations.erase r }, .accepted)
        | .error .full => (failed, .rejected .busy "VPN lifecycle queue is full")
        | .error .closed => (failed, .rejected .internal "VPN task is unavailable")

/-- The destructor of a reservation that was not transferred. -/
def dropReservation (r : ConnectReservation) : State :=
  let s := (s.cancel r.cancellation).clearAttempt r.attempt
  { s with
    events := s.events.offer .preparationReleased
    reservations := s.reservations.erase r }

end State

end GlobalProtect.Service.Lifecycle
