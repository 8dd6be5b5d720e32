import GlobalProtect.Lib.Machine
import GlobalProtect.Session.Ledger

/-! # Maintenance of non-tunnel sessions

The model of `maintain_non_tunnel_sessions` and `maintain_member` in `non_tunnel.rs`: one worker per
member of the ledger, and the coordinator that waits for them, for the caller's cancellation and for
a change of the physical network. Workers run on other threads, so each of their steps, and each
branch that the coordinator's biased `select!` polls, is a step of its own; what the network, the
gateways, the collectors and the clock answer is in the labels.

The status gate is a mutex around a check of the token and the call of the observer. It is taken as
long as a worker is between the two (`Phase.holdsGate`); the coordinator takes it for one step, in
which it publishes `Rejected` for what is left in the ledger.

A worker may be told the answer of a request although the token is cancelled: the token was polled
before. A worker that panics at any point ends and gives the gate back. Waiting times are left out
with the clock: a `schedule` says whether the next check can be represented. `observed` and
`reports` are the calls of the observers, `invalidated` and `joined` are histories. -/

namespace GlobalProtect.Session.NonTunnel

open Lib Api

/-! ### Workers -/

inductive GatewayRequestError where
  | invalidCookie
  | transport (error : String)
  | http (status : ℕ)
  | rejected
  | malformedResponse
  | responseTooLarge
  | invalidReport
  deriving DecidableEq, Repr

inductive MemberError where
  | gateway (error : GatewayRequestError)
  | collection
  | network
  | authorization
  deriving DecidableEq, Repr

inductive MemberExit where
  | cancelled
  | rejected
  | terminal (reason : SessionEndReason)
  deriving DecidableEq, Repr

/-- The statuses a worker announces. Both rejections end it; `expired` is that of the cookie. -/
inductive Announcement where
  | authenticated
  | healthy
  | rejected
  | expired
  deriving DecidableEq, Repr

/-- What a worker is about to do. -/
inductive Phase where
  /-- To check the token, then to lock the gate. -/
  | announce (status : Announcement)
  | locking (status : Announcement)
  /-- With the gate: to check the token again. -/
  | locked (status : Announcement)
  /-- With the gate: to call the observer. -/
  | publishing (status : Announcement)
  | validating
  | checking
  | collecting
  /-- To validate the network again, before the report is submitted. -/
  | revalidating
  | submitting
  /-- To call the observer of submitted reports. -/
  | reporting
  | decided (result : Except MemberError Unit)
  | scheduling
  | sleeping
  /-- The exit; `none` after a panic. -/
  | ended (exit : Option MemberExit)
  deriving DecidableEq

def Announcement.state : Announcement → MaintenanceState
  | .authenticated => .authenticated
  | .healthy => .healthy
  | .rejected => .rejected
  | .expired => .rejected

/-- Where a worker goes on after an announcement. -/
def Announcement.next : Announcement → Phase
  | .authenticated => .validating
  | .healthy => .scheduling
  | .rejected => .ended (some .rejected)
  | .expired => .ended (some (.terminal .invalidCookie))

def Phase.holdsGate : Phase → Bool
  | .locked _ => true
  | .publishing _ => true
  | _ => false

inductive ReportOutcome where
  | produced
  | permissionDenied
  | failed
  deriving DecidableEq, Repr

/-- What happens to a worker. -/
inductive Act where
  | advance
  | network (valid : Bool)
  /-- A `select!` sees the cancellation. -/
  | cancelled
  | check (answer : Except GatewayRequestError Bool)
  | report (outcome : ReportOutcome)
  | submit (answer : Except GatewayRequestError Unit)
  | schedule (fits : Bool)
  | wake
  | panic
  deriving DecidableEq

/-- The end of a round of `maintain_member`. -/
def Phase.conclude (cancelled : Bool) : Except MemberError Unit → Phase
  | .ok () => if cancelled then .ended (some .cancelled) else .announce .healthy
  | .error (.gateway .invalidCookie) => .announce .expired
  | .error .network => .ended (some (.terminal .networkChanged))
  | .error .authorization => .ended (some (.terminal .authorizationRevoked))
  | .error _ => if cancelled then .ended (some .cancelled) else .announce .rejected

/-- One step of `maintain_member`, given whether the workers' token is cancelled. -/
def Phase.act (cancelled : Bool) : Phase → Act → Option Phase
  | .ended _, _ => none
  | _, .panic => some (.ended none)
  | .announce status, .advance => some (if cancelled then status.next else .locking status)
  | .locking status, .advance => some (.locked status)
  | .locked status, .advance => some (if cancelled then status.next else .publishing status)
  | .publishing status, .advance => some status.next
  | .validating, .network valid =>
    some (if valid then .checking else .ended (some (.terminal .networkChanged)))
  | .checking, .cancelled => if cancelled then some (.ended (some .cancelled)) else none
  | .checking, .check (.ok reportNeeded) =>
    some (if reportNeeded then .collecting else .decided (.ok ()))
  | .checking, .check (.error error) => some (.decided (.error (.gateway error)))
  | .collecting, .report .produced => some .revalidating
  | .collecting, .report .permissionDenied => some (.decided (.error .authorization))
  | .collecting, .report .failed => some (.decided (.error .collection))
  | .revalidating, .network valid =>
    some (if valid then .submitting else .decided (.error .network))
  | .submitting, .cancelled => if cancelled then some (.decided (.error .collection)) else none
  | .submitting, .submit (.ok ()) => some .reporting
  | .submitting, .submit (.error error) => some (.decided (.error (.gateway error)))
  | .reporting, .advance => some (.decided (.ok ()))
  | .decided result, .advance => some (Phase.conclude cancelled result)
  | .scheduling, .schedule fits =>
    some (if fits then .sleeping else .announce .rejected)
  | .sleeping, .cancelled => if cancelled then some (.ended (some .cancelled)) else none
  | .sleeping, .wake => some .validating
  | _, _ => none

/-- Where a worker was joined. -/
inductive Joined where
  | loop
  | drain
  deriving DecidableEq, Repr

structure Worker where
  session : GatewaySession
  phase : Phase := .announce .authenticated
  joined : Option Joined := none
  deriving DecidableEq

/-- The coordinator's loop has taken the rejection of this worker. -/
def Worker.taken (w : Worker) : Bool :=
  w.joined = some .loop && w.phase = .ended (some .rejected)

/-! ### The coordinator -/

inductive SessionExit where
  | disconnected
  | failed (reason : SessionEndReason)
  deriving DecidableEq, Repr

inductive MaintenanceError where
  | emptySet
  | tunnelMember
  | worker
  deriving DecidableEq, Repr

def MaintenanceError.message : MaintenanceError → String
  | .emptySet => "Non-tunnel session set is empty"
  | .tunnelMember => "Tunnel member supplied to non-tunnel runtime"
  | .worker => "task panicked"

inductive Coordinator where
  | entering
  /-- The branches of the `select!`, in the order in which they are polled. -/
  | pollToken
  | pollNetwork
  | pollWorkers
  /-- The logout of a rejected member is awaited. -/
  | loggingOut
  | stopping (outcome : SessionExit)
  | invalidating (outcome : SessionExit)
  | draining (outcome : SessionExit)
  | returned (result : Except MaintenanceError SessionExit)
  deriving DecidableEq

def Coordinator.isReturned : Coordinator → Bool
  | .returned _ => true
  | _ => false

structure Observation where
  /-- Whether the coordinator, and not a worker, called the observer. -/
  byCoordinator : Bool
  summary : GatewaySessionSummary
  deriving DecidableEq

structure State where
  ledger : GatewaySessions
  workers : List Worker := []
  coordinator : Coordinator := .entering
  cancelled : Bool := false
  /-- The coordinator has cancelled the workers' token. -/
  stopped : Bool := false
  workerFailure : Bool := false
  invalidated : Bool := false
  observed : List Observation := []
  reports : List GatewaySession := []
  deriving DecidableEq

namespace State

variable (s : State)

/-- The workers' token is a child of the caller's. -/
def workersCancelled : Bool := s.cancelled || s.stopped

def gateFree : Bool := s.workers.all fun w => !w.phase.holdsGate

/-- `JoinSet::is_empty`. -/
def allJoined : Bool := s.workers.all fun w => w.joined.isSome

/-- One step of the worker `i`. -/
def work (i : ℕ) (a : Act) : Option State :=
  match s.workers[i]? with
  | none => none
  | some w =>
    match w.phase.act s.workersCancelled a with
    | none => none
    | some phase =>
      let s' : State := { s with workers := s.workers.set i { w with phase } }
      match w.phase, a with
      | .locking _, .advance => if s.gateFree then some s' else none
      | .publishing status, .advance =>
        some { s' with observed := s.observed ++ [⟨false, w.session.summary status.state⟩] }
      | .reporting, .advance =>
        some (if s.workersCancelled then s' else { s' with reports := s.reports ++ [w.session] })
      | _, _ => some s'

/-- `join_next` returns the worker `i`, which has ended. -/
def join (i : ℕ) (joined : Joined) : Option (Worker × State) :=
  match s.workers[i]? with
  | none => none
  | some w =>
    match w.phase, w.joined with
    | .ended _, none =>
      some (w, { s with workers := s.workers.set i { w with joined := some joined } })
    | _, _ => none

/-- The loop takes the exit of a worker. -/
def take (w : Worker) : State :=
  match w.phase with
  | .ended (some (.terminal reason)) => { s with coordinator := .stopping (.failed reason) }
  | .ended (some .rejected) =>
    { s with ledger := s.ledger.logoutGateway w.session.server, coordinator := .loggingOut }
  | .ended none => { s with workerFailure := true, coordinator := .stopping .disconnected }
  | _ => { s with coordinator := .pollToken }

/-- The observers are told that the members left in the ledger are rejected. -/
def invalidate : State :=
  { s with
    invalidated := true
    observed := s.observed ++ s.ledger.members.map fun m => ⟨true, m.summary .rejected⟩ }

end State

inductive Label where
  | cancel
  | work (i : ℕ) (a : Act)
  | enter
  | pollToken
  | pollNetwork (change : Option SessionEndReason)
  /-- The set of workers has no ended one, or returns the worker `i`. -/
  | pollWorkers (i : Option ℕ)
  | loggedOut
  | stop
  | invalidate
  | join (i : ℕ)
  | finish
  deriving DecidableEq

/-- One step of `maintain_non_tunnel_sessions` or of a worker; nothing happens after the return. -/
def step (s : State) : Label → Option State
  | .cancel => if s.coordinator.isReturned then none else some { s with cancelled := true }
  | .work i a => s.work i a
  | .enter =>
    if s.coordinator = .entering then
      if s.ledger.members = [] then some { s with coordinator := .returned (.error .emptySet) }
      else if s.ledger.members.any fun m => m.authentication.mode ≠ .nonTunnel then
        some { s with coordinator := .returned (.error .tunnelMember) }
      else
        some { s with
          workers := s.ledger.members.map fun session => { session }
          coordinator := .pollToken }
    else none
  | .pollToken =>
    if s.coordinator = .pollToken then
      some { s with
        coordinator := if s.cancelled then .stopping .disconnected else .pollNetwork }
    else none
  | .pollNetwork change =>
    if s.coordinator = .pollNetwork then
      match change with
      | some reason => some { s with coordinator := .stopping (.failed reason) }
      | none => some { s with coordinator := .pollWorkers }
    else none
  | .pollWorkers i =>
    if s.coordinator = .pollWorkers then
      match i with
      | some i => (s.join i .loop).map fun (w, s) => s.take w
      | none =>
        -- a pending `select!` is polled again from its first branch
        some { s with
          coordinator :=
            if s.allJoined then .stopping (.failed .allMembersFailed) else .pollToken }
    else none
  | .loggedOut =>
    if s.coordinator = .loggingOut then
      some { s with
        coordinator :=
          if s.allJoined then .stopping (.failed .allMembersFailed) else .pollToken }
    else none
  | .stop =>
    match s.coordinator with
    | .stopping outcome =>
      some { s with
        stopped := true
        coordinator :=
          if outcome ≠ .disconnected ∨ s.workerFailure then .invalidating outcome
          else .draining outcome }
    | _ => none
  | .invalidate =>
    match s.coordinator with
    | .invalidating outcome =>
      if s.gateFree then some { s.invalidate with coordinator := .draining outcome } else none
    | _ => none
  | .join i =>
    match s.coordinator with
    | .draining _ =>
      (s.join i .drain).map fun (w, s) =>
        { s with workerFailure := s.workerFailure || w.phase = .ended none }
    | _ => none
  | .finish =>
    match s.coordinator with
    | .draining outcome =>
      if s.allJoined then
        some { s with
          coordinator := .returned
            (if s.workerFailure then .error .worker
            else if s.cancelled then .ok .disconnected else .ok outcome) }
      else none
    | _ => none

/-- The maintenance of a ledger with these members. -/
def machine (members : List GatewaySession) : Machine State Label where
  init := { ledger := .new members }
  step := step

end GlobalProtect.Session.NonTunnel
