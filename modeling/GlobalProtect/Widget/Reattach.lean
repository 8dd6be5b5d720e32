import GlobalProtect.Widget.Authenticating

/-! # A new attach of the widget

When the connection to the service is lost and comes back, the daemon is told the state of the
service by a snapshot, the `VpnEnv` event. A state that was reached in between has no `VpnState`
event any more, so what its handler would have done has to follow from the snapshot: `CaughtUp` says
what that is for each state.

The handler of the snapshot shows the state and may start a flow, and leaves the rest of the daemon
as it is (`attach_rest`). So a new attach catches up exactly if there was nothing to catch up with
(`attach_caughtUp_iff`); otherwise a transition is lost (`transition_lost`). -/

namespace GlobalProtect.Widget.Daemon

open Lib Api Widget.ConnectFlow

variable {γ : Type} {s t : State γ} {path : String}

/-- The session of a connection has a warning to come, unless it does not expire. -/
def State.Warned (s : State γ) (connected : ConnectedInfo) : Prop :=
  (connected.sessionInfo.bind (·.userExpires)).isSome = true →
    .expiryWarning s.expiryGeneration ∈ s.timers

/-- What the arrival of a service state brings about, from `s` to `t`: the stored request is sent
again unless a stop was requested; the ticker runs and the session has its warning; the daemon exits
if it is quitting, and otherwise nothing of the connection is left. -/
def CaughtUp (s : State γ) (v : VpnState) (t : State γ) : Prop :=
  match v with
  | .reconnectRequired required =>
    s.quitting = false → s.disconnectRequested = false →
      ∀ request ∈ s.submittedConnect,
        t.senders = s.senders ++ [.connect { request with restartOf := some required.attempt }]
  | .connected connected => t.ticker = true ∧ t.Warned connected
  | .disconnected | .failed _ =>
    if s.quitting then t.exitCode = some 0
    else t.disconnectRequested = false ∧ t.ticker = false
  | _ => True

instance (s : State γ) (connected : ConnectedInfo) : Decidable (s.Warned connected) :=
  inferInstanceAs (Decidable (_ → _))

instance (s t : State γ) (v : VpnState) : Decidable (CaughtUp s v t) :=
  match v with
  | .reconnectRequired _ => inferInstanceAs (Decidable (_ → _ → ∀ request ∈ s.submittedConnect, _))
  | .connected _ => inferInstanceAs (Decidable (_ ∧ _))
  | .disconnected | .failed _ => inferInstanceAs (Decidable (if s.quitting then _ else _ ∧ _))
  | .connecting _ | .disconnecting => inferInstanceAs (Decidable True)

/-- There is nothing to catch up with. -/
def Level (s : State γ) (v : VpnState) : Prop :=
  match v with
  | .reconnectRequired _ =>
    s.quitting = true ∨ s.disconnectRequested = true ∨ s.submittedConnect = none
  | .connected connected => s.ticker = true ∧ s.Warned connected
  | .disconnected | .failed _ =>
    s.quitting = false ∧ s.disconnectRequested = false ∧ s.ticker = false
  | _ => True

/-- The parts of the daemon that a new state is to change besides what is shown. -/
structure Unmoved (s t : State γ) : Prop where
  senders : t.senders = s.senders
  ticker : t.ticker = s.ticker
  timers : t.timers = s.timers
  expiryGeneration : t.expiryGeneration = s.expiryGeneration
  disconnectRequested : t.disconnectRequested = s.disconnectRequested
  exitCode : t.exitCode = s.exitCode

theorem unmoved_tryStart (path : String) (loaded : Option Config)
    (portal gateway : Option String) : Unmoved s (s.tryStart path loaded portal gateway) := by
  obtain hs | ⟨-, -, config, p, hs⟩ := s.tryStart_cases path loaded portal gateway
  all_goals
    rw [hs]
    exact ⟨rfl, rfl, rfl, rfl, rfl, rfl⟩

theorem attach_rest (env : VpnEnv γ) (loaded : Option Config) :
    Unmoved s (s.handleVpnEnv path env loaded) := by
  have hattached : Unmoved s (s.attached env) := by
    unfold State.attached State.received
    cases env.vpnState <;> exact ⟨rfl, rfl, rfl, rfl, rfl, rfl⟩
  rw [handleVpnEnv_eq]
  split
  · obtain ⟨h₁, h₂, h₃, h₄, h₅, h₆⟩ := unmoved_tryStart (s := s.attached env) path loaded none none
    exact ⟨h₁.trans hattached.senders, h₂.trans hattached.ticker, h₃.trans hattached.timers,
      h₄.trans hattached.expiryGeneration, h₅.trans hattached.disconnectRequested,
      h₆.trans hattached.exitCode⟩
  · exact hattached

theorem ended_iff (hexit : s.exitCode = none) (hrest : Unmoved s t) :
    (if s.quitting then t.exitCode = some 0
      else t.disconnectRequested = false ∧ t.ticker = false) ↔
      s.quitting = false ∧ s.disconnectRequested = false ∧ s.ticker = false := by
  rw [hrest.exitCode, hexit, hrest.disconnectRequested, hrest.ticker]
  cases s.quitting <;> simp

/-- **A new attach**: in whatever state a run has brought the daemon, after the snapshot of an
attach has been handled the daemon has caught up with the state of the service exactly if it had
nothing to catch up with. -/
theorem attach_caughtUp_iff (normalize : String → Except (List String) String) (path : String)
    {env : VpnEnv γ} {loaded : Option Config}
    (hs : step normalize path s (.notice (.event (.vpnEnv env)) loaded) = some t) :
    CaughtUp s env.vpnState t ↔ Level s env.vpnState := by
  obtain ⟨hrun, -⟩ := Option.ite_none_left_eq_some.mp hs
  have hexit : s.exitCode = none := Option.not_isSome_iff_eq_none.mp hrun
  obtain rfl := handle_some hs
  have hrest : Unmoved s (s.handleNotice path loaded (.event (.vpnEnv env))) :=
    attach_rest env loaded
  cases env.vpnState with
  | reconnectRequired required =>
    -- the queue of the senders would have to grow
    have hsame : ∀ request : WsRequest,
        (s.handleNotice path loaded (.event (.vpnEnv env))).senders ≠ s.senders ++ [request] := by
      intro request
      rw [hrest.senders]
      exact fun heq => List.cons_ne_nil _ _ (List.self_eq_append_right.mp heq)
    simp only [CaughtUp, Level]
    constructor
    · intro hsent
      by_contra hnot
      obtain ⟨hquit, hnot⟩ := not_or.mp hnot
      obtain ⟨hstop, hstored⟩ := not_or.mp hnot
      obtain ⟨request, hrequest⟩ := Option.ne_none_iff_exists'.mp hstored
      exact hsame _ (hsent (Bool.eq_false_iff.mpr hquit) (Bool.eq_false_iff.mpr hstop) request
        hrequest)
    · rintro (hquit | hstop | hstored) hquit' hstop' request hrequest
      · rw [hquit] at hquit'; cases hquit'
      · rw [hstop] at hstop'; cases hstop'
      · rw [hstored] at hrequest; cases hrequest
  | connected connected =>
    simp only [CaughtUp, Level, State.Warned]
    rw [hrest.ticker, hrest.timers, hrest.expiryGeneration]
  | disconnected => exact ended_iff hexit hrest
  | failed reason => exact ended_iff hexit hrest
  | connecting info => exact Iff.rfl
  | disconnecting => exact Iff.rfl

/-- The snapshot of an attach that shows `v`. -/
def attachNotice (v : VpnState) : Act Unit :=
  .notice (.event (.vpnEnv { idleEnv with vpnState := v })) none

def exampleConnected : ConnectedInfo where
  info := exampleInfo
  sessionInfo := some { userExpires := some 3600 }
  connectedAt := 0

/-- The service reports a connection, and then what `rest` says. -/
def connectedRun (rest : List (Act Unit)) : List (Act Unit) :=
  submittedRun ([connectingNotice,
    .notice (.event (.vpnState (.connected exampleConnected))) none] ++ rest)

/-- The connection is lost and found again while nothing has changed. -/
theorem attach_caughtUp_iff_connected :
    ∃ s t, exampleMachine.Reachable s ∧
      exampleMachine.step s (attachNotice (.connected exampleConnected)) = some t ∧
      Level s (.connected exampleConnected) ∧ CaughtUp s (.connected exampleConnected) t := by
  obtain ⟨s, hs, hp⟩ := Machine.Reachable.of_run (M := exampleMachine)
    (connectedRun [.notice .lost none])
    (p := fun s => decide (s.exitCode = none ∧ s.ticker = true ∧ s.Warned exampleConnected))
    (by decide +kernel)
  obtain ⟨hexit, hlevel⟩ := of_decide_eq_true hp
  have hstep : exampleMachine.step s (attachNotice (.connected exampleConnected)) =
      some (s.handleVpnEnv "config.toml"
        { idleEnv with vpnState := .connected exampleConnected } none) := by
    simp [exampleMachine, machine, attachNotice, step, handle, hexit, State.handleNotice]
  exact ⟨s, _, hs, hstep, hlevel,
    (attach_caughtUp_iff .ok "config.toml" hstep).mpr hlevel⟩

theorem lost_of_run (l : List (Act Unit)) {v : VpnState}
    (h : (exampleMachine.run exampleMachine.init l).any (fun s =>
      (exampleMachine.step s (attachNotice v)).any fun t => !decide (CaughtUp s v t)) = true) :
    ∃ s t, exampleMachine.Reachable s ∧ exampleMachine.step s (attachNotice v) = some t ∧
      ¬ CaughtUp s v t := by
  obtain ⟨s, hs, hp⟩ := Machine.Reachable.of_run l h
  cases ht : exampleMachine.step s (attachNotice v) with
  | none => rw [ht] at hp; cases hp
  | some t =>
    rw [ht, Option.any_some, Bool.not_eq_true'] at hp
    exact ⟨s, t, hs, ht, of_decide_eq_false hp⟩

/-- A restart that the service asked for while the connection was lost is not requested, a tunnel
that came up meanwhile has no ticker and no warning, and a daemon that is quitting does not hear
that the tunnel is down. -/
theorem transition_lost :
    (∃ s t, exampleMachine.Reachable s ∧
      exampleMachine.step s (attachNotice (.reconnectRequired ⟨3, 0, exampleInfo⟩)) = some t ∧
      ¬ CaughtUp s (.reconnectRequired ⟨3, 0, exampleInfo⟩) t) ∧
    (∃ s t, exampleMachine.Reachable s ∧
      exampleMachine.step s (attachNotice (.connected exampleConnected)) = some t ∧
      ¬ CaughtUp s (.connected exampleConnected) t) ∧
    ∃ s t, exampleMachine.Reachable s ∧
      exampleMachine.step s (attachNotice .disconnected) = some t ∧ ¬ CaughtUp s .disconnected t :=
  ⟨lost_of_run (connectedRun [.notice .lost none]) (by decide +kernel),
    lost_of_run (submittedRun [connectingNotice, .notice .lost none]) (by decide +kernel),
    lost_of_run (connectedRun [.command .quit none, .notice .lost none]) (by decide +kernel)⟩

end GlobalProtect.Widget.Daemon
