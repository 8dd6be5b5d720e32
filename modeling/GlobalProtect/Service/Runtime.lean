import GlobalProtect.Service.ScriptTun
import GlobalProtect.Session.HealthGate

/-! # The worker of an attempt

The model of `vpn_task/runtime.rs`, with `vpn_task/non_tunnel.rs` and the outer part of
`vpn_task/script_tun.rs`: what the service does with the gateway sessions of an accepted attempt.
The worker owns their ledger. It lends it to the maintenance of non-tunnel sessions, which is a
component here (`maintenance`, with the steps of `NonTunnel.machine`), passes it to the native
tunnel right before that is started, and logs out what is left.

What the setup threads, the network, OpenConnect and the receiver of events do is in the labels. A
setup thread that panics is reported like one that fails. The supervisor of a script-tun consumer
has a model of its own; here only its result and its events count. `started` is a history. -/

namespace GlobalProtect.Service.Runtime

open Lib Api Session
open Service.Lifecycle (WorkerEvent)

/-! ### Data -/

/-- `AttemptInput`, with the addresses the members are bound to. -/
structure Input where
  request : ConnectRequest
  sessionId : Option Uuid := none
  addresses : List ClientAddresses := []

/-- The ledger that `prepare_connection` builds from the plan. -/
def Input.sessions (input : Input) : List GatewaySession :=
  input.request.members.zipIdx.map fun (member, i) =>
    ⟨i, member.gateway, member.authentication, input.addresses.getD i {}⟩

/-- How a setup thread ends. -/
inductive Setup where
  | ready
  | failed (error : String)
  | panicked (error : String)
  deriving DecidableEq, Repr

inductive ScriptTunError where
  | supervisor (failure : ScriptTun.Failure)
  | workerEnded (result : String)
  deriving DecidableEq, Repr

def ScriptTunError.message : ScriptTunError → String
  | .supervisor failure => failure.message
  | .workerEnded result => "VPN worker ended: " ++ result

/-- What the user is told when a non-tunnel session ends. -/
def endMessage : SessionEndReason → String
  | .invalidCookie => "Internal gateway authentication expired; connect again"
  | .networkChanged => "Physical network changed or could not be verified; connect again"
  | .allMembersFailed => "All internal gateway sessions failed; connect again"
  | .authorizationRevoked => "HIP execution authorization was revoked"

inductive Phase where
  | starting
  /-- `prepare_execution` runs. -/
  | preparing
  | preparingNonTunnel
  | maintaining
  /-- The maintenance has returned and the network monitor is joined. -/
  | joiningMonitor (result : Except NonTunnel.MaintenanceError NonTunnel.SessionExit)
  /-- `prepare_tunnel` runs. -/
  | preparingTunnel
  | startingTunnel
  | attachingTunnel
  | tunnel
  | attachingScriptTun
  | scriptTun
  | cleanup
  | reporting
  | ending
  | done
  deriving DecidableEq

structure State where
  ledger : GatewaySessions
  phase : Phase := .starting
  cancelled : Bool := false
  maintenance : Option NonTunnel.State := none
  approvalRevoked : Bool := false
  failure : Option String := none
  started : Bool := false
  events : List WorkerEvent := []

/-- The observer of the service: the entry of the member is replaced. -/
def statusChanged (summary : GatewaySessionSummary) :
    List GatewaySessionSummary → List GatewaySessionSummary
  | [] => []
  | member :: members =>
    if member.gateway.server = summary.gateway.server then summary :: members
    else member :: statusChanged summary members

namespace State

variable (s : State)

/-- Sends an event if the lifecycle still listens. -/
def send (sent : Bool) (e : WorkerEvent) : State :=
  if sent then { s with events := s.events ++ [e] } else s

def fail (reason : String) : State := { s with failure := some reason, phase := .cleanup }

/-- The token is cancelled, for the maintenance too. -/
def cancel : State :=
  match s.phase, s.maintenance with
  | .maintaining, some m =>
    { s with cancelled := true, maintenance := some ((NonTunnel.step m .cancel).getD m) }
  | _, _ => { s with cancelled := true }

/-- `maintain_non_tunnel_sessions` is called with the ledger and the token. -/
def maintain : State :=
  let m := (NonTunnel.machine s.ledger.members).init
  { s with
    phase := .maintaining
    maintenance := some (if s.cancelled then (NonTunnel.step m .cancel).getD m else m) }

/-- The members as the last statuses describe them. -/
def members (sessions : List GatewaySession) : List GatewaySessionSummary :=
  (s.maintenance.elim [] (·.observed)).foldl (fun members o => statusChanged o.summary members)
    (sessions.map fun session => session.summary .authenticated)

/-- Publishes the members unless the attempt is cancelled. -/
def publish (input : Input) (sent : Bool) : State :=
  if s.cancelled then s
  else s.send sent (.membersChanged (s.members input.sessions) input.request.failures)

/-- The end of `non_tunnel::run`, and what `spawn` makes of its result. -/
def maintained (result : Except NonTunnel.MaintenanceError NonTunnel.SessionExit)
    (monitored sent : Bool) : State :=
  if monitored then
    let s := if s.approvalRevoked then s.send sent (.failed "HIP script approval was revoked") else s
    match if s.cancelled then .ok .disconnected else result with
    | .ok .disconnected => { s with phase := .cleanup }
    | .ok (.failed reason) => s.fail (endMessage reason)
    | .error _ => s.fail "Internal session maintenance failed"
  else s.fail "Internal session maintenance failed"

/-- The native worker is started, and with it the cleanup of the sessions passes to OpenConnect. -/
def startNative (phase : Phase) : State :=
  { s with ledger := s.ledger.relinquish, started := true, phase }

/-- What `spawn` makes of the result of `script_tun::run`. -/
def scriptTunEnded (result : Except ScriptTunError Unit) (sent : Bool) : State :=
  let s : State := { s with phase := .cleanup }
  match result with
  | .ok () => s
  | .error error =>
    if s.cancelled then s
    else if error = .supervisor .networkChanged then s.send sent .reconnectRequired
    else s.fail error.message

end State

/-! ### The machine -/

inductive Label where
  /-- The token is cancelled, by the lifecycle or because the approval was revoked. -/
  | cancel
  | start
  | prepared (setup : Setup)
  /-- `non_tunnel::run` finds the context of the physical network. -/
  | network (present : Bool)
  | maintain (l : NonTunnel.Label)
  | publish (sent : Bool)
  | revoke
  | maintained (sent : Bool)
  | monitorJoined (monitored sent : Bool)
  | tunnelPrepared (setup : Setup)
  | startTunnel
  | attach (monitor : ℕ) (sent : Bool)
  | emit (e : WorkerEvent)
  | tunnelExited
  | scriptTunExited (result : Except ScriptTunError Unit) (sent : Bool)
  | logout
  | report (sent : Bool)
  | ended

/-- `prepare_tunnel` succeeds only for one tunnel member, and for script-tun only with a session. -/
def Input.tunnelReady (input : Input) : Bool :=
  input.request.members.length = 1 &&
    input.request.members.all (fun member => member.authentication.mode = .tunnel) &&
    (input.request.packetDelivery = .system || input.sessionId.isSome)

def step (input : Input) (s : State) : Label → Option State
  | .cancel => some s.cancel
  | .start =>
    if s.phase = .starting then
      some { s with phase := if s.cancelled then .cleanup else .preparing }
    else none
  | .prepared setup =>
    if s.phase = .preparing then
      match setup with
      | .ready =>
        some { s with
          phase := if input.request.allNonTunnel then .preparingNonTunnel else .preparingTunnel }
      | .failed _ => some (s.fail "HIP execution could not be prepared")
      | .panicked _ => some (s.fail "HIP setup worker failed")
    else none
  | .network present =>
    if s.phase = .preparingNonTunnel then
      some (if present then s.maintain else s.fail "Internal session maintenance failed")
    else none
  | .maintain l =>
    match s.phase, s.maintenance with
    | .maintaining, some m =>
      if l = .cancel then none
      else (NonTunnel.step m l).map fun m => { s with maintenance := some m, ledger := m.ledger }
    | _, _ => none
  | .publish sent => if s.phase = .maintaining then some (s.publish input sent) else none
  | .revoke =>
    if s.phase = .maintaining then some { s.cancel with approvalRevoked := true }
    else if s.phase = .tunnel ∨ s.phase = .scriptTun then some s.cancel else none
  | .maintained sent =>
    match s.phase, s.maintenance with
    | .maintaining, some m =>
      match m.coordinator with
      | .returned result => some { s.publish input sent with phase := .joiningMonitor result }
      | _ => none
    | _, _ => none
  | .monitorJoined monitored sent =>
    match s.phase with
    | .joiningMonitor result => some (s.maintained result monitored sent)
    | _ => none
  | .tunnelPrepared setup =>
    if s.phase = .preparingTunnel then
      match setup with
      | .ready =>
        if input.tunnelReady then
          some { s with
            phase := match input.request.packetDelivery with
              | .system => .startingTunnel
              | .scriptTun _ => if input.sessionId.isSome then .attachingScriptTun else .cleanup }
        else none
      | .failed error => some (s.fail ("Failed to prepare tunnel: " ++ error))
      | .panicked error => some (s.fail ("Tunnel setup worker failed: " ++ error))
    else none
  | .startTunnel =>
    if s.phase = .startingTunnel then
      some { s with phase := if s.cancelled then .cleanup else .attachingTunnel }
    else none
  | .attach monitor sent =>
    if s.phase = .attachingTunnel ∨ s.phase = .attachingScriptTun then
      if sent then
        some ((s.send true (.tunnelMonitor monitor)).startNative
          (if s.phase = .attachingTunnel then .tunnel else .scriptTun))
      else some { s with phase := .cleanup }
    else none
  | .emit e =>
    match s.phase, e with
    | .tunnel, .established _ => some (s.send true e)
    | .scriptTun, .established _ => some (s.send true e)
    | .scriptTun, .scriptTunSuspended => some (s.send true e)
    | _, _ => none
  | .tunnelExited => if s.phase = .tunnel then some { s with phase := .cleanup } else none
  | .scriptTunExited result sent =>
    if s.phase = .scriptTun then some (s.scriptTunEnded result sent) else none
  | .logout =>
    if s.phase = .cleanup then
      some { s with ledger := s.ledger.logout, phase := .reporting }
    else none
  | .report sent =>
    if s.phase = .reporting then
      let s : State := { s with phase := .ending }
      match s.failure with
      | some reason => some (if s.cancelled then s else s.send sent (.failed reason))
      | none => some s
    else none
  | .ended => if s.phase = .ending then some { s with phase := .done } else none

/-- The worker that `spawn` starts for an attempt. -/
def machine (input : Input) : Machine State Label where
  init := { ledger := .new input.sessions }
  step := step input

/-! ### The invariant -/

/-- Phases in which the ledger is as it was accepted. -/
def Phase.untouched : Phase → Bool
  | .starting | .preparing | .preparingNonTunnel | .preparingTunnel | .startingTunnel
  | .attachingTunnel | .attachingScriptTun => true
  | _ => false

/-- Phases after the final logout. -/
def Phase.drained : Phase → Bool
  | .reporting | .ending | .done => true
  | _ => false

structure Owned (input : Input) (s : State) : Prop where
  conserved : s.ledger.all.Perm input.sessions
  untouched : s.phase.untouched = true →
    s.ledger = .new input.sessions ∧ s.started = false ∧ s.maintenance = none
  drained : s.phase.drained = true → s.ledger.held = []
  native : s.started = true → s.ledger.held = []
  released : ∀ e ∈ s.ledger.released, e.2 = .relinquished ↔ s.started = true
  component : ∀ m, s.maintenance = some m →
    (NonTunnel.machine input.sessions).Reachable m ∧ s.started = false
  borrowed : ∀ m, s.maintenance = some m → s.phase = .maintaining → s.ledger = m.ledger
  joined : ∀ m, s.maintenance = some m → s.phase ≠ .maintaining →
    ∀ w ∈ m.workers, w.joined.isSome = true

variable {input : Input} {s s' : State}

theorem Owned.goto (h : Owned input s) (hledger : s'.ledger = s.ledger)
    (hmaint : s'.maintenance = s.maintenance) (hstarted : s'.started = s.started)
    (huntouched : s'.phase.untouched = true → s.phase.untouched = true)
    (hdrained : s'.phase.drained = true → s.phase.drained = true)
    (hphase : s'.phase = .maintaining ↔ s.phase = .maintaining) : Owned input s' := by
  refine ⟨?_, ?_, ?_, ?_, ?_, ?_, ?_, ?_⟩
  · rw [hledger]; exact h.conserved
  · rw [hledger, hstarted, hmaint]; exact fun hu => h.untouched (huntouched hu)
  · rw [hledger]; exact fun hd => h.drained (hdrained hd)
  · rw [hledger, hstarted]; exact h.native
  · rw [hledger, hstarted]; exact h.released
  · rw [hmaint, hstarted]; exact h.component
  · rw [hmaint, hledger, hphase]; exact h.borrowed
  · rw [hmaint, Ne, hphase]; exact h.joined

section Send

variable (sent : Bool) (e : WorkerEvent)

@[simp] theorem send_ledger : (s.send sent e).ledger = s.ledger := by
  unfold State.send; split <;> rfl

@[simp] theorem send_phase : (s.send sent e).phase = s.phase := by
  unfold State.send; split <;> rfl

@[simp] theorem send_maintenance : (s.send sent e).maintenance = s.maintenance := by
  unfold State.send; split <;> rfl

@[simp] theorem send_started : (s.send sent e).started = s.started := by
  unfold State.send; split <;> rfl

theorem Owned.send (h : Owned input s) : Owned input (s.send sent e) :=
  h.goto (by simp) (by simp) (by simp) (by simp) (by simp) (by simp)

theorem Owned.publish (h : Owned input s) : Owned input (s.publish input sent) := by
  unfold State.publish
  split
  · exact h
  · exact h.send _ _

theorem publish_maintenance : (s.publish input sent).maintenance = s.maintenance := by
  unfold State.publish; split <;> simp

end Send

theorem Owned.fail (h : Owned input s) (hphase : s.phase ≠ .maintaining) (reason : String) :
    Owned input (s.fail reason) :=
  h.goto rfl rfl rfl (by simp [State.fail, Phase.untouched]) (by simp [State.fail, Phase.drained])
    (by simp [State.fail, hphase])

theorem Owned.cleanup (h : Owned input s) (hphase : s.phase ≠ .maintaining) :
    Owned input { s with phase := .cleanup } :=
  h.goto rfl rfl rfl (by simp [Phase.untouched]) (by simp [Phase.drained]) (by simp [hphase])

/-! ### The lent ledger -/

theorem cancel_reachable {members : List GatewaySession} {m : NonTunnel.State}
    (h : (NonTunnel.machine members).Reachable m) :
    (NonTunnel.machine members).Reachable ((NonTunnel.step m .cancel).getD m) := by
  cases hs : NonTunnel.step m .cancel with
  | none => exact h
  | some m' =>
    exact h.next (l := .cancel) hs

theorem cancel_ledger (m : NonTunnel.State) :
    ((NonTunnel.step m .cancel).getD m).ledger = m.ledger := by
  simp only [NonTunnel.step]
  split <;> rfl

theorem Owned.cancel (h : Owned input s) : Owned input s.cancel := by
  unfold State.cancel
  split
  · next m hphase hm =>
    refine ⟨h.conserved, ?_, h.drained, h.native, h.released, ?_, ?_, fun _ _ hne => absurd hphase hne⟩
    · simp [hphase, Phase.untouched]
    · rintro _ ⟨⟩
      exact ⟨cancel_reachable (h.component m hm).1, (h.component m hm).2⟩
    · rintro _ ⟨⟩ -
      rw [cancel_ledger]
      exact h.borrowed m hm hphase
  · exact h.goto rfl rfl rfl id id Iff.rfl

theorem Owned.maintain (h : Owned input s) (hphase : s.phase.untouched = true) :
    Owned input s.maintain := by
  obtain ⟨hledger, hstarted, -⟩ := h.untouched hphase
  have hmembers : s.ledger.members = input.sessions := by rw [hledger]; rfl
  refine ⟨h.conserved, by simp [State.maintain, Phase.untouched],
    by simp [State.maintain, Phase.drained], h.native, h.released, fun m hm => ⟨?_, hstarted⟩,
    fun m hm _ => ?_, fun _ _ hne => absurd rfl hne⟩
  · cases hm
    rw [hmembers]
    split
    · exact cancel_reachable (Machine.Reachable.start _)
    · exact Machine.Reachable.start _
  · cases hm
    rw [hmembers]
    refine hledger.trans ?_
    split
    · rw [cancel_ledger]; rfl
    · rfl

theorem sessions_servers (input : Input) : input.sessions.map GatewaySession.server =
    input.request.members.map fun member => member.gateway.server := by
  simp only [Input.sessions, List.map_map]
  conv_rhs => rw [← List.zipIdx_map_fst 0 input.request.members, List.map_map]
  rfl

/-! ### The ends of the ledger -/

theorem Owned.startNative (h : Owned input s) (hphase : s.phase.untouched = true) {p : Phase}
    (hp : p = .tunnel ∨ p = .scriptTun) : Owned input (s.startNative p) := by
  obtain ⟨hledger, -, hnone⟩ := h.untouched hphase
  have hun : p.untouched = false := by rcases hp with rfl | rfl <;> rfl
  have hmaint : ∀ m, (s.startNative p).maintenance ≠ some m := fun m hm => by
    have hm : s.maintenance = some m := hm
    rw [hnone] at hm; cases hm
  refine ⟨Custody.perm_releaseAll.trans h.conserved, by simp [State.startNative, hun],
    fun _ => rfl, fun _ => rfl, fun e he => ?_, fun m hm => absurd hm (hmaint m),
    fun m hm => absurd hm (hmaint m), fun m hm => absurd hm (hmaint m)⟩
  -- everything the ledger held passes to OpenConnect
  have he : e ∈ ([] : List (GatewaySession × Release)) ++
      input.sessions.map (·, Release.relinquished) := by
    simpa [State.startNative, hledger, GatewaySessions.relinquish, Custody.releaseAll,
      GatewaySessions.new] using he
  obtain ⟨x, -, rfl⟩ := List.mem_map.mp he
  simp [State.startNative]

theorem Owned.logout (h : Owned input s) (hphase : s.phase = .cleanup) :
    Owned input { s with ledger := s.ledger.logout, phase := .reporting } := by
  refine ⟨Custody.perm_releaseAll.trans h.conserved, by simp [Phase.untouched], fun _ => rfl,
    fun _ => rfl, fun e he => ?_, h.component, by simp, ?_⟩
  · rcases List.mem_append.mp he with he | he
    · exact h.released e he
    · obtain ⟨x, hx, rfl⟩ := List.mem_map.mp he
      -- after a native start nothing is left to be logged out
      have hstarted : s.started ≠ true := fun hst => by
        have := h.native hst
        rw [this] at hx; cases hx
      simpa using hstarted
  · exact fun m hm _ => h.joined m hm (by simp [hphase])

theorem Owned.maintained (h : Owned input s) (hphase : s.phase ≠ .maintaining)
    (result : Except NonTunnel.MaintenanceError NonTunnel.SessionExit) (monitored sent : Bool) :
    Owned input (s.maintained result monitored sent) := by
  unfold State.maintained
  split_ifs with _ hrevoked
  · have h' := h.send sent (.failed "HIP script approval was revoked")
    have hphase' : (s.send sent (.failed "HIP script approval was revoked")).phase ≠ .maintaining := by
      simpa using hphase
    simp only
    split
    · exact h'.cleanup hphase'
    · exact h'.fail hphase' _
    · exact h'.fail hphase' _
  · simp only
    split
    · exact h.cleanup hphase
    · exact h.fail hphase _
    · exact h.fail hphase _
  · exact h.fail hphase _

theorem Owned.scriptTunEnded (h : Owned input s) (hphase : s.phase ≠ .maintaining)
    (result : Except ScriptTunError Unit) (sent : Bool) :
    Owned input (s.scriptTunEnded result sent) := by
  have h' := h.cleanup hphase
  unfold State.scriptTunEnded
  cases result with
  | ok _ => exact h'
  | error error =>
    simp only
    split_ifs
    · exact h'
    · exact h'.send _ _
    · exact h'.fail (by simp) _

/-! ### Whole steps -/

section Distinct

variable (hn : (input.sessions.map GatewaySession.server).Nodup)
include hn

theorem Owned.maintainStep (h : Owned input s) {m m' : NonTunnel.State} {l : NonTunnel.Label}
    (hphase : s.phase = .maintaining) (hm : s.maintenance = some m)
    (hs : NonTunnel.step m l = some m') :
    Owned input { s with maintenance := some m', ledger := m'.ledger } := by
  have hreach : (NonTunnel.machine input.sessions).Reachable m' := (h.component m hm).1.next hs
  have hkept := (NonTunnel.reachable_maintained hn hreach).kept
  have hstarted := (h.component m hm).2
  refine ⟨hkept.conserved, by simp [hphase, Phase.untouched], by simp [hphase, Phase.drained],
    by simp [hstarted], fun e he => ?_, ?_, ?_, fun _ _ hne => absurd hphase hne⟩
  · simp [hstarted, (hkept.released e he).1]
  · rintro _ ⟨⟩
    exact ⟨hreach, hstarted⟩
  · rintro _ ⟨⟩ -
    rfl

theorem Owned.returned (h : Owned input s) {m : NonTunnel.State} (hm : s.maintenance = some m)
    {result : Except NonTunnel.MaintenanceError NonTunnel.SessionExit}
    (hret : m.coordinator = .returned result) :
    Owned input { s with phase := .joiningMonitor result } := by
  have hmaintained := NonTunnel.reachable_maintained hn (h.component m hm).1
  refine ⟨h.conserved, by simp [Phase.untouched], by simp [Phase.drained], h.native, h.released,
    h.component, by simp, fun m' hm' _ w hw => ?_⟩
  obtain rfl := Option.some.inj (hm.symm.trans hm')
  exact hmaintained.all_joined hret hw

theorem Owned.step (h : Owned input s) {l : Label} (hs : Runtime.step input s l = some s') :
    Owned input s' := by
  cases l with
  | cancel =>
    cases hs
    exact h.cancel
  | start | startTunnel =>
    obtain ⟨hphase, rfl⟩ := Option.ite_some_none_eq_some.mp hs
    split_ifs
    · exact h.cleanup (by simp [hphase])
    · exact h.goto rfl rfl rfl (by simp [hphase, Phase.untouched]) (by simp [Phase.drained])
        (by simp [hphase])
  | prepared setup =>
    obtain ⟨hphase, hs⟩ := Option.ite_none_right_eq_some.mp hs
    cases setup <;> cases hs
    · refine h.goto rfl rfl rfl (by simp [hphase, Phase.untouched]) ?_ ?_ <;> simp only <;> split_ifs <;>
        simp [hphase, Phase.drained]
    · exact h.fail (by simp [hphase]) _
    · exact h.fail (by simp [hphase]) _
  | network present =>
    obtain ⟨hphase, rfl⟩ := Option.ite_some_none_eq_some.mp hs
    split_ifs
    · exact h.maintain (by simp [hphase, Phase.untouched])
    · exact h.fail (by simp [hphase]) _
  | maintain l =>
    simp only [Runtime.step] at hs
    split at hs
    · next m hphase hm =>
      split_ifs at hs
      obtain ⟨m', hm', rfl⟩ := Option.map_eq_some_iff.mp hs
      exact h.maintainStep hn hphase hm hm'
    · cases hs
  | publish sent =>
    obtain ⟨-, rfl⟩ := Option.ite_some_none_eq_some.mp hs
    exact h.publish sent
  | revoke =>
    simp only [Runtime.step] at hs
    split_ifs at hs
    · cases hs
      exact h.cancel.goto rfl rfl rfl id id Iff.rfl
    · cases hs
      exact h.cancel
  | maintained sent =>
    simp only [Runtime.step] at hs
    split at hs
    · next m hphase hm =>
      split at hs
      · next result hret =>
        cases hs
        exact (h.publish sent).returned hn ((publish_maintenance sent).trans hm) hret
      · cases hs
    · cases hs
  | monitorJoined monitored sent =>
    simp only [Runtime.step] at hs
    split at hs
    · next result hphase =>
      cases hs
      exact h.maintained (by simp [hphase]) result monitored sent
    · cases hs
  | tunnelPrepared setup =>
    obtain ⟨hphase, hs⟩ := Option.ite_none_right_eq_some.mp hs
    cases setup with
    | ready =>
      obtain ⟨-, rfl⟩ := Option.ite_some_none_eq_some.mp hs
      refine h.goto rfl rfl rfl (by simp [hphase, Phase.untouched]) ?_ ?_ <;> simp only <;> split <;>
        (try split_ifs) <;> simp [hphase, Phase.drained]
    | failed error | panicked error =>
      cases hs
      exact h.fail (by simp [hphase]) _
  | attach monitor sent =>
    obtain ⟨hphase, hs⟩ := Option.ite_none_right_eq_some.mp hs
    have hun : s.phase.untouched = true := by
      rcases hphase with hphase | hphase <;> rw [hphase] <;> rfl
    split_ifs at hs <;> cases hs
    · exact (h.send _ _).startNative (by simpa using hun) (Or.inl rfl)
    · exact (h.send _ _).startNative (by simpa using hun) (Or.inr rfl)
    · exact h.cleanup (by rintro hp; rw [hp] at hun; cases hun)
  | emit e =>
    simp only [Runtime.step] at hs
    split at hs
    · cases hs
      exact h.send _ _
    · cases hs
      exact h.send _ _
    · cases hs
      exact h.send _ _
    · cases hs
  | tunnelExited =>
    obtain ⟨hphase, rfl⟩ := Option.ite_some_none_eq_some.mp hs
    exact h.cleanup (by simp [hphase])
  | scriptTunExited result sent =>
    obtain ⟨hphase, rfl⟩ := Option.ite_some_none_eq_some.mp hs
    exact h.scriptTunEnded (by simp [hphase]) result sent
  | logout =>
    obtain ⟨hphase, rfl⟩ := Option.ite_some_none_eq_some.mp hs
    exact h.logout hphase
  | report sent =>
    obtain ⟨hphase, hs⟩ := Option.ite_none_right_eq_some.mp hs
    have h' : Owned input { s with phase := .ending } :=
      h.goto rfl rfl rfl (by simp [Phase.untouched]) (by simp [hphase, Phase.drained])
        (by simp [hphase])
    split at hs <;> cases hs
    · split_ifs
      · exact h'
      · exact h'.send _ _
    · exact h'
  | ended =>
    obtain ⟨hphase, rfl⟩ := Option.ite_some_none_eq_some.mp hs
    exact h.goto rfl rfl rfl (by simp [Phase.untouched]) (by simp [hphase, Phase.drained])
      (by simp [hphase])

theorem reachable_owned (h : (machine input).Reachable s) : Owned input s := by
  refine h.invariant (P := Owned input) ?_ fun s l s' _ h hs => h.step hn hs
  refine ⟨by simp [machine, GatewaySessions.new, Custody.all], fun _ => ⟨rfl, rfl, rfl⟩, ?_, ?_, ?_,
    ?_, ?_, ?_⟩ <;> simp [machine, GatewaySessions.new, Phase.drained]

/-! ### Exactly once -/

theorem Owned.released_once (h : Owned input s) (hdone : s.phase.drained = true)
    {m : GatewaySession} (hm : m ∈ input.sessions) :
    ∃ how, s.ledger.released.filter (fun e => e.1 = m) = [(m, how)] ∧
      (how = .relinquished ↔ s.started = true) := by
  have hheld : m ∉ s.ledger.held := by rw [h.drained hdone]; exact List.not_mem_nil
  obtain ⟨how, hr⟩ := Custody.mem_released (h.conserved.mem_iff.mpr hm) hheld
  have hall : (s.ledger.all.map id).Nodup := by
    rw [List.map_id]
    exact h.conserved.nodup_iff.mpr (List.Nodup.of_map _ hn)
  exact ⟨how, Custody.released_once hall hr, h.released _ hr⟩

/-- A session is logged out after its worker is joined, whether by the maintenance or at the end. -/
theorem Owned.joined_of_logged_out (h : Owned input s) {m : NonTunnel.State}
    (hm : s.maintenance = some m) {w : NonTunnel.Worker} (hw : w ∈ m.workers)
    (hout : (w.session, Release.loggedOut) ∈ s.ledger.released) : w.joined.isSome = true := by
  by_cases hphase : s.phase = .maintaining
  · rw [h.borrowed m hm hphase] at hout
    have hkept := (NonTunnel.reachable_maintained hn (h.component m hm).1).kept
    obtain ⟨-, w', hw', heq, htaken⟩ := hkept.released _ hout
    obtain rfl : w' = w := by
      refine List.inj_on_of_nodup_map (hkept.nodup hn) hw' hw ?_
      exact congrArg GatewaySession.server heq
    simp only [NonTunnel.Worker.taken, Bool.and_eq_true, decide_eq_true_eq] at htaken
    simp [htaken.1]
  · exact h.joined m hm hphase w hw

end Distinct

/-- **Exactly one release**. When the worker of an attempt has reported its end, each session of the
plan was released in exactly one way: to the native tunnel if that was started, and else by one
logout. At no time was a maintained session logged out whose worker is not joined. -/
theorem sessions_released_once (input : Input)
    (hn : (input.request.members.map fun member => member.gateway.server).Nodup) (s : State)
    (h : (machine input).Reachable s) :
    (s.phase = .done → ∀ m ∈ input.sessions,
      ∃ how, s.ledger.released.filter (fun e => e.1 = m) = [(m, how)] ∧
        (how = .relinquished ↔ s.started = true)) ∧
    (∀ m, s.maintenance = some m → ∀ w ∈ m.workers,
      (w.session, Release.loggedOut) ∈ s.ledger.released → w.joined.isSome = true) := by
  rw [← sessions_servers] at hn
  have howned := reachable_owned hn h
  refine ⟨fun hdone m hm => ?_, fun m hm w hw hout => howned.joined_of_logged_out hn hm hw hout⟩
  exact howned.released_once hn (by rw [hdone]; rfl) hm

def internalMember (server : String) : AuthenticatedGateway :=
  ⟨{ name := server, address := server, kind := .internal }, ⟨"cookie", "nontunnel"⟩⟩

def internalInput : Input where
  request :=
    { info := { portal := "portal", gateway := (internalMember "a").gateway, gateways := [] }
      members := [internalMember "a", internalMember "b"] }

/-- An internal attempt whose first member is rejected, and that ends when the network changes. -/
def internalRun : List Label :=
  [.start, .prepared .ready, .network true] ++ NonTunnel.networkChangeRun.map .maintain ++
    [.maintained true, .monitorJoined true true, .logout, .report true, .ended]

/-- In that run the two sessions are logged out, one by the maintenance and one at the end. -/
theorem sessions_released_once_internal : ∃ s, (machine internalInput).Reachable s ∧
    s.failure = some "Physical network changed or could not be verified; connect again" ∧
    ∀ m ∈ internalInput.sessions,
      s.ledger.released.filter (fun e => e.1 = m) = [(m, .loggedOut)] := by
  obtain ⟨s, hr, hs⟩ := Machine.Reachable.of_run (M := machine internalInput) internalRun
    (p := fun s => decide (s.phase = .done ∧ s.started = false ∧
      s.failure = some "Physical network changed or could not be verified; connect again"))
    (by decide +kernel)
  obtain ⟨hdone, hstarted, hfailure⟩ := of_decide_eq_true hs
  refine ⟨s, hr, hfailure, fun m hm => ?_⟩
  obtain ⟨how, honce, hnative⟩ :=
    (sessions_released_once internalInput (by decide) s hr).1 hdone m hm
  cases how with
  | loggedOut => exact honce
  | relinquished => simp [hstarted] at hnative

end GlobalProtect.Service.Runtime
