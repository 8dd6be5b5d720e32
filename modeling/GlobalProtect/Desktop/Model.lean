import GlobalProtect.Service.Registry.Attach

/-! # The desktop supervisor and its service

The user's desktop process owns the GUI, and the privileged service behind it issues the GUI's
session. They talk over two pipes: the supervisor writes control bytes, the service answers with
credentials. This file has both programs, as far as the pipes, the sessions and the GUI processes
are concerned:

* `Supervisor`: `DesktopLauncher::launch` around `GuiLauncher::launch_with_switches`;
* `Serve`: `DesktopClient::serve`;
* `step`: their composition, with the other users of the session registry.

A program is at a point where it waits (`Supervisor.Pc`, `Serve.Pc`), and the label says how the
wait ends. Reads from the service may fail at any time. Whether a write of a control byte succeeds
is also in the label, and a write that fails has written nothing. -/

namespace GlobalProtect.Desktop

open Lib Api
open Service
  (Registry.State Registry.Label Registry.SessionError Registry.Sessions Registry.step)

/-! ### Control bytes -/

/-- A control byte; `other` is one that has no meaning. -/
inductive Control where
  | guiExited
  | renderingRetry
  | switchBegin
  | switchCommit
  | switchCancel
  | guiInstaller
  | other (byte : UInt8)
  deriving DecidableEq, Repr

/-- What the service writes: the credential of a session, or whether it has a GUI installer. -/
inductive Reply where
  | credential (sessionId : Uuid)
  | installer (available : Bool)
  deriving DecidableEq, Repr

/-! ### The supervisor -/

/-- How a launch attempt ended: `crash` is the `RenderingCrash` that a launch may recover from. -/
inductive Outcome where
  | exited
  | crash
  | error
  deriving DecidableEq, Repr

/-- The part of a switch command that decides what is done. -/
structure Selection where
  nsh : Bool
  allowDownload : Bool
  deriving DecidableEq, Repr

namespace Supervisor

/-- Where the supervisor waits. From `receive` to `replyError` it is in the replacement procedure of
one switch request; `found` is whether a compatible program was found, `child` the replacement. -/
inductive Pc where
  | awaitCredential
  | resolving
  | running
  | receive
  | find (selection : Selection)
  | installerWrite (selection : Selection)
  | installerRead (selection : Selection)
  | runtimeCheck (selection : Selection)
  | downloadReply
  | begin (found : Bool)
  | readCredential (found : Bool)
  | prepare (found : Bool)
  | resolveReplacement
  | starting (child : ℕ)
  | save (child : ℕ)
  | reply (child : ℕ)
  | commit (child : ℕ)
  | abort (child : ℕ)
  | failed
  | replyError
  | closing (outcome : Outcome) (children : List ℕ)
  | report (outcome : Outcome)
  | returned
  deriving DecidableEq, Repr

inductive Label where
  /-- The shutdown signal, or the end of the service process. -/
  | cancel
  | proceed
  | fail (crash : Bool)
  /-- The GUI that the supervisor waits for has exited and was joined. -/
  | exits (outcome : Outcome)
  | accept
  | select (selection : Selection)
  | found (found : Bool)
  /-- The byte that was read as the answer about the installer. -/
  | answer (available : Bool)
  deriving DecidableEq, Repr

end Supervisor

open Supervisor in
/-- The GUI processes are numbered in the order they are started. -/
structure Supervisor where
  pc : Pc := .awaitCredential
  /-- `pending` of the replacement procedure. -/
  pending : Bool := false
  cancelled : Bool := false
  /-- `first_failure.is_some()` of the recovery state. -/
  recovered : Bool := false
  current : Option ℕ := none
  retired : List ℕ := []
  started : ℕ := 0
  joined : List ℕ := []
  deriving DecidableEq, Repr

namespace Supervisor

variable (s : Supervisor)

def goto (pc : Pc) : Supervisor := { s with pc }

/-- A GUI process was joined. -/
def join (child : ℕ) : Supervisor := { s with joined := s.joined ++ [child] }

/-- `start_owned` for the replacement. -/
def startReplacement : Supervisor := { s with pc := .starting s.started, started := s.started + 1 }

/-- Leaves the loop of `launch_with_switches`: every GUI that is left is cancelled, and joined. -/
def close (outcome : Outcome) : Supervisor :=
  { s with
    pc := .closing outcome (s.retired ++ s.current.toList)
    current := none
    retired := [] }

/-- After the installer was asked: nothing to download, or the download was allowed. -/
def afterCheck (selection : Selection) (found : Bool) : Pc :=
  if !found && !selection.allowDownload then .downloadReply else .begin found

def afterFind (selection : Selection) (found : Bool) : Pc :=
  if !found && selection.nsh then .installerWrite selection else afterCheck selection found

/-- What a step leaves: the supervisor, the byte that it wrote and the replies that are left. -/
structure Next where
  supervisor : Supervisor
  wrote : Option Control := none
  replies : List Reply

/-- `DesktopLauncher::launch` outside `launch_with_switches`. -/
def launchStep (replies : List Reply) : Pc → Label → Option Next
  | .awaitCredential, .proceed =>
    if s.cancelled then some { supervisor := s.goto .returned, replies }
    else if replies = [] then none
    else some { supervisor := s.goto .resolving, replies := replies.tail }
  | .awaitCredential, .fail _ => some { supervisor := s.goto .returned, replies }
  | .resolving, .proceed =>
    some { supervisor := { s with
            pc := .running, current := some s.started, started := s.started + 1 }
           replies }
  | .resolving, .fail crash =>
    some { supervisor := s.goto (.report (if crash then .crash else .error)), replies }
  | .report outcome, .proceed =>
    if s.cancelled then some { supervisor := s.goto .returned, replies }
    else
      match outcome with
      | .exited =>
        some { supervisor := s.goto .awaitCredential, wrote := some .guiExited, replies }
      | .crash =>
        if s.recovered then some { supervisor := s.goto .returned, replies }
        else
          some { supervisor := { s with pc := .awaitCredential, recovered := true }
                 wrote := some .renderingRetry
                 replies }
      | .error => some { supervisor := s.goto .returned, replies }
  -- the byte that reports the outcome could not be written
  | .report _, .fail _ => some { supervisor := s.goto .returned, replies }
  | _, _ => none

/-- The loop of `launch_with_switches`, and what comes after it. -/
def loopStep (replies : List Reply) : Pc → Label → Option Next
  | .running, .exits outcome =>
    some { supervisor := { s with
            pc := .closing outcome s.retired
            current := none
            retired := []
            joined := s.joined ++ s.current.toList }
           replies }
  | .running, .accept => some { supervisor := { s with pc := .receive, pending := false }, replies }
  -- the listener failed, or the service closed its pipe or wrote out of turn
  | .running, .fail _ => some { supervisor := s.close .error, replies }
  | .closing outcome (child :: children), .exits _ =>
    some { supervisor := (s.join child).goto (.closing outcome children), replies }
  | .closing outcome [], .proceed => some { supervisor := s.goto (.report outcome), replies }
  | _, _ => none

/-- The replacement procedure up to the start of the replacement. -/
def prepareStep (replies : List Reply) : Pc → Label → Option Next
  | .receive, .select selection => some { supervisor := s.goto (.find selection), replies }
  | .find selection, .found found =>
    some { supervisor := s.goto (afterFind selection found), replies }
  | .installerWrite selection, .proceed =>
    some { supervisor := s.goto (.installerRead selection), wrote := some .guiInstaller, replies }
  | .installerRead selection, .answer available =>
    let next := some { supervisor := s.goto (if available then afterCheck selection false
                        else .runtimeCheck selection)
                       replies := replies.tail }
    match replies with
    | [] => none
    | .installer actual :: _ => if available = actual then next else none
    -- out of step with the service, the byte is one of a credential
    | .credential _ :: _ => next
  | .runtimeCheck selection, .proceed =>
    some { supervisor := s.goto (afterCheck selection false), replies }
  | .downloadReply, .proceed => some { supervisor := s.goto .running, replies }
  | .begin found, .proceed =>
    some { supervisor := { s with pc := .readCredential found, pending := true }
           wrote := some .switchBegin
           replies }
  | .readCredential found, .proceed =>
    if replies = [] then none
    else some { supervisor := s.goto (.prepare found), replies := replies.tail }
  -- the product version is as expected, and there is a listener for the replacement
  | .prepare true, .proceed => some { supervisor := s.startReplacement, replies }
  | .prepare false, .proceed => some { supervisor := s.goto .resolveReplacement, replies }
  | .resolveReplacement, .proceed => some { supervisor := s.startReplacement, replies }
  | .receive, .fail _ | .find _, .fail _ | .installerWrite _, .fail _ | .installerRead _, .fail _
  | .runtimeCheck _, .fail _ | .downloadReply, .fail _ | .begin _, .fail _
  | .readCredential _, .fail _ | .prepare _, .fail _ | .resolveReplacement, .fail _ =>
    some { supervisor := s.goto .failed, replies }
  | _, _ => none

/-- The replacement procedure from the start of the replacement on. -/
def replaceStep (replies : List Reply) : Pc → Label → Option Next
  | .starting child, .proceed => some { supervisor := s.goto (.save child), replies }
  | .starting child, .exits _ => some { supervisor := (s.join child).goto .failed, replies }
  | .save child, .proceed => some { supervisor := s.goto (.reply child), replies }
  | .reply child, .proceed => some { supervisor := s.goto (.commit child), replies }
  | .commit child, .proceed =>
    some { supervisor := { s with
            pc := .running
            pending := false
            retired := s.retired ++ s.current.toList
            current := some child }
           wrote := some .switchCommit
           replies }
  | .starting child, .fail _ | .save child, .fail _ | .reply child, .fail _
  | .commit child, .fail _ => some { supervisor := s.goto (.abort child), replies }
  | .abort child, .exits _ => some { supervisor := (s.join child).goto .failed, replies }
  | .failed, .proceed =>
    if s.pending then
      -- `pending` is not read again
      some { supervisor := { s with pc := .replyError, pending := false }
             wrote := some .switchCancel
             replies }
    else some { supervisor := s.goto .replyError, replies }
  | .failed, .fail _ => if s.pending then some { supervisor := s.close .error, replies } else none
  -- the result of the reply is ignored
  | .replyError, .proceed => some { supervisor := s.goto .running, replies }
  | _, _ => none

def step (replies : List Reply) (l : Label) : Option Next :=
  match l with
  | .cancel => some { supervisor := { s with cancelled := true }, replies }
  | l =>
    (s.launchStep replies s.pc l).orElse fun _ =>
      (s.loopStep replies s.pc l).orElse fun _ =>
        (s.prepareStep replies s.pc l).orElse fun _ => s.replaceStep replies s.pc l

end Supervisor

/-! ### The service -/

inductive ServeError where
  | session (e : Registry.SessionError)
  | pipe
  | alreadyPending
  | noSwitchPending
  | recoveryRequested
  | invalidControl
  deriving DecidableEq, Repr

namespace Serve

/-- Where a round of `serve` waits; at `issuePending` it has read `switchBegin` and goes on to issue
the session of the replacement. -/
inductive Point where
  | send
  | read
  | answer
  | issuePending
  | sendPending
  deriving DecidableEq, Repr

/-- Where `serve` is, with the sessions that are in scope there. -/
inductive Pc where
  | issue
  | serving (sessionId : Uuid) (pending : Option Uuid) (point : Point)
  | revoking (sessionId : Uuid) (pending : Option Uuid)
      (result : Except ServeError (Option Control))
  | revokingPending (pending : Option Uuid) (result : Except ServeError (Option Control))
  | deciding (result : Except ServeError (Option Control))
  | returned (result : Except ServeError Unit)

inductive Label where
  /-- The arguments and the draws of an `issue`. -/
  | issue (now : ℕ) (sessionId : Uuid) (secret : ℕ) (available : Bool)
  /-- A write to the supervisor ends. -/
  | sent (ok : Bool)
  | receive
  | eof
  | readError
  | cancelled
  /-- The part after the `select!`, one registry operation at a time. -/
  | settle
  deriving DecidableEq, Repr

end Serve

/-- `issued` and `revoked` are histories. -/
structure Serve where
  pc : Serve.Pc := .issue
  renderingRenewed : Bool := false
  issued : List Uuid := []
  revoked : List Uuid := []

namespace Serve

variable (s : Serve) (sessions : Registry.Sessions)

/-- A step of `serve` on its own state and on the sessions, with what it wrote. -/
structure Next where
  serve : Serve
  sessions : Registry.Sessions
  sent : List Reply := []

/-- A control byte is handled. -/
def receive (sessionId : Uuid) (pending : Option Uuid) : Control → Next
  | .guiInstaller => { serve := { s with pc := .serving sessionId pending .answer }, sessions }
  | .switchBegin =>
    if pending.isSome then
      { serve := { s with pc := .revoking sessionId pending (.error .alreadyPending) }, sessions }
    else { serve := { s with pc := .serving sessionId pending .issuePending }, sessions }
  | .switchCommit =>
    match pending with
    | none =>
      { serve := { s with pc := .revoking sessionId none (.error .noSwitchPending) }, sessions }
    | some replacement =>
      { serve := { s with
          pc := .serving replacement none .read
          revoked := s.revoked ++ [sessionId] }
        sessions := (sessions.revoke sessionId).1 }
  | .switchCancel =>
    match pending with
    | none =>
      { serve := { s with pc := .revoking sessionId none (.error .noSwitchPending) }, sessions }
    | some replacement =>
      { serve := { s with
          pc := .serving sessionId none .read
          revoked := s.revoked ++ [replacement] }
        sessions := (sessions.revoke replacement).1 }
  | message =>
    { serve := { s with pc := .revoking sessionId pending (.ok (some message)) }, sessions }

/-- The result of an `issue`: the first session of a round, or that of a replacement. -/
def issued? (result : Except Registry.SessionError Uuid) (sessions : Registry.Sessions) :
    Option Next :=
  match s.pc, result with
  | .issue, .ok id =>
    some { serve := { s with pc := .serving id none .send, issued := s.issued ++ [id] }, sessions }
  | .issue, .error e => some { serve := { s with pc := .returned (.error (.session e)) }, sessions }
  | .serving sessionId _ .issuePending, .ok id =>
    some { serve := { s with
            pc := .serving sessionId (some id) .sendPending
            issued := s.issued ++ [id] }
           sessions }
  | .serving sessionId pending .issuePending, .error e =>
    some { serve := { s with pc := .revoking sessionId pending (.error (.session e)) }, sessions }
  | _, _ => none

/-- A write to the supervisor ends; `installer` is whether the service has a GUI installer. -/
def sent (installer ok : Bool) : Option Next :=
  match s.pc with
  | .serving sessionId pending point =>
    if point = .read ∨ point = .issuePending then none
    else if ok = false then
      some { serve := { s with pc := .revoking sessionId pending (.error .pipe) }, sessions }
    else
      let reply := match point, pending with
        | .answer, _ => .installer installer
        | .sendPending, some replacement => .credential replacement
        | _, _ => .credential sessionId
      some { serve := { s with pc := .serving sessionId pending .read }
             sessions
             sent := [reply] }
  | _ => none

/-- A round that waits ends. -/
def interrupt (result : Except ServeError (Option Control)) (reading : Bool) : Option Next :=
  match s.pc with
  | .serving sessionId pending point =>
    if point = .issuePending ∨ (reading = true ∧ point ≠ .read) then none
    else some { serve := { s with pc := .revoking sessionId pending result }, sessions }
  | _ => none

/-- The end of a round: both sessions are revoked, then the result decides; `requested` is the flag
that a restart was requested. -/
def settle (requested : Bool) : Option Next :=
  match s.pc with
  | .revoking sessionId pending result =>
    some { serve := { s with
            pc := .revokingPending pending result, revoked := s.revoked ++ [sessionId] }
           sessions := (sessions.revoke sessionId).1 }
  | .revokingPending none result =>
    some { serve := { s with pc := .deciding result }, sessions }
  | .revokingPending (some replacement) result =>
    some { serve := { s with pc := .deciding result, revoked := s.revoked ++ [replacement] }
           sessions := (sessions.revoke replacement).1 }
  | .deciding (.error e) => some { serve := { s with pc := .returned (.error e) }, sessions }
  | .deciding (.ok none) => some { serve := { s with pc := .returned (.ok ()) }, sessions }
  | .deciding (.ok (some .guiExited)) =>
    some { serve := { s with pc := if requested then .issue else .returned (.ok ()) }, sessions }
  | .deciding (.ok (some .renderingRetry)) =>
    if s.renderingRenewed then
      some { serve := { s with pc := .returned (.error .recoveryRequested) }, sessions }
    else some { serve := { s with pc := .issue, renderingRenewed := true }, sessions }
  | .deciding (.ok (some _)) =>
    some { serve := { s with pc := .returned (.error .invalidControl) }, sessions }
  | _ => none

end Serve

/-! ### The composition -/

/-- What does not change: the service instance and its version, the user of the desktop, and whether
the service has a GUI installer. -/
structure Config where
  inst : Uuid
  productVersion : String
  uid : ℕ
  installer : Bool

/-- `wire` are the control bytes that were written and not read, `replies` the other pipe; `written`
and `read` are histories. -/
structure State where
  supervisor : Supervisor := {}
  serve : Serve := {}
  registry : Registry.State := {}
  restart : Bool := false
  wire : List Control := []
  replies : List Reply := []
  written : List Control := []
  read : List Control := []

inductive Label where
  | supervisor (l : Supervisor.Label)
  | serve (l : Serve.Label)
  /-- Someone else uses the registry. -/
  | registry (l : Registry.Label)
  | requestRestart

/-- Puts a step of the service back into the whole. -/
def State.served (s : State) (n : Serve.Next) : State :=
  { s with
    serve := n.serve
    registry := { s.registry with sessions := n.sessions }
    replies := s.replies ++ n.sent }

def serveStep (cfg : Config) (s : State) : Serve.Label → Option State
  | .issue now id secret available =>
    -- the registry draws an id that was not used
    (Registry.step cfg.inst s.registry
      (.issue now cfg.productVersion (some cfg.uid) id secret available)).bind fun registry =>
      (s.serve.issued?
        (s.registry.sessions.issue now cfg.productVersion (some cfg.uid) id secret available).2
        registry.sessions).map fun n => { s with registry }.served n
  | .sent ok => (s.serve.sent s.registry.sessions cfg.installer ok).map s.served
  | .receive =>
    match s.serve.pc, s.wire with
    | .serving sessionId pending .read, c :: wire =>
      some { s.served (s.serve.receive s.registry.sessions sessionId pending c) with
        wire, read := s.read ++ [c] }
    | _, _ => none
  | .eof =>
    if s.wire = [] ∧ s.supervisor.pc = .returned then
      (s.serve.interrupt s.registry.sessions (.ok none) true).map s.served
    else none
  | .readError => (s.serve.interrupt s.registry.sessions (.error .pipe) true).map s.served
  | .cancelled => (s.serve.interrupt s.registry.sessions (.ok none) false).map s.served
  | .settle =>
    (s.serve.settle s.registry.sessions s.restart).map fun n =>
      -- the flag is swapped when the result is decided
      { s.served n with restart := match s.serve.pc with
          | .deciding _ => false
          | _ => s.restart }

def step (cfg : Config) (s : State) : Label → Option State
  | .supervisor l =>
    (s.supervisor.step s.replies l).map fun n =>
      { s with
        supervisor := n.supervisor
        replies := n.replies
        wire := s.wire ++ n.wrote.toList
        written := s.written ++ n.wrote.toList }
  | .serve l => serveStep cfg s l
  | .registry l => (Registry.step cfg.inst s.registry l).map fun registry => { s with registry }
  | .requestRestart => some { s with restart := true }

def machine (cfg : Config) : Machine State Label where
  init := {}
  step := step cfg

end GlobalProtect.Desktop
