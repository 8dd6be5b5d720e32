import GlobalProtect.Lib.Machine
import GlobalProtect.Portal.Gateways
import Mathlib.Data.List.Infix

/-! # The connect flow of the widget

The model of one task of `connect_flow.rs`: `run` from the portal's prelogin to the `Connect`
request and the message that ends the task. Every await point is a phase. What the network, the
browser and the user answer is in the label, and the token may be cancelled between any two steps.
A `select!` without `biased` may take either branch that is ready, so a step that waits can see the
cancellation or an answer; a login looks at the token once before it sends its request.

`issued`, `accepted` and `loggedOut` are histories: the authentications that logins returned, the
request that the service queue accepted and the cookies that were passed to a gateway logout. Login
responses are numbered, so that the logout of one response's cookie is not taken for the logout of a
later session with the same cookie. -/

namespace GlobalProtect.Widget.ConnectFlow

open Lib Api Portal

/-! ### Errors and messages -/

/-- An error with its contexts, the outermost first; `marker` if the `Cancelled` marker is among
them. -/
structure Error where
  chain : List String
  marker : Bool := false
  deriving DecidableEq, Repr

/-- The marker error of a cancellation by the user. -/
def Error.cancelled : Error := { chain := ["cancelled"], marker := true }

def Error.context (e : Error) (message : String) : Error := { e with chain := message :: e.chain }

def Error.display (e : Error) : String := ": ".intercalate e.chain

def Error.isCancelled (e : Error) : Bool :=
  e.marker || decide ("Authentication cancelled".toList <:+: (e.chain.headD "").toList)

def Error.ofString (message : String) : Error := { chain := [message] }

/-- An error of code outside the flow, which never carries the marker. -/
def Error.foreign (chain : List String) : Error := { chain }

/-- The messages to the daemon; `round` tells the prompts of a flow apart. -/
inductive FlowMsg where
  | otpPrompt (message : String) (round : ℕ)
  | submitted (request : ConnectRequest)
  | failed (error : String) (cancelled : Bool)
  deriving DecidableEq, Repr

/-! ### The state of a flow -/

inductive Prelogin where
  | saml (region : String)
  | standard
  deriving DecidableEq, Repr

/-- How a login request is answered. -/
inductive LoginAnswer where
  | failed (chain : List String)
  /-- A cookie was issued but the session configuration is invalid: `parse_login_response` logs the
  cookie out and fails. -/
  | invalid (cookie : String)
  | mfa (message : String)
  | authenticated (authentication : GatewayAuthentication)
  deriving DecidableEq, Repr

/-- What the flow has decided before it logs in. -/
structure Target where
  gateway : Gateway
  config : PortalConfig
  deriving DecidableEq, Repr

/-- Where the task waits. `cookie` says whether the login uses the portal's cookie. -/
inductive Phase where
  | portalPrelogin
  | portalAuth (region : String)
  | discovering (region : String)
  | client (target : Target) (cookie : Bool)
  /-- To look at the token and send the login request. -/
  | login (target : Target) (cookie : Bool)
  | loggingIn (target : Target) (cookie : Bool)
  | prompting (target : Target) (cookie : Bool) (message : String)
  | awaitingOtp (target : Target) (cookie : Bool)
  | gatewayPrelogin (target : Target)
  | gatewayAuth (target : Target)
  | submitting (request : ConnectRequest)
  | reporting (msg : FlowMsg)
  | ended
  deriving DecidableEq

structure State where
  portal : String
  gatewayOverride : Option String := none
  gatewayPin : Option String := none
  phase : Phase := .portalPrelogin
  cancelled : Bool := false
  /-- The number of prompts so far, and the answer to the last. -/
  round : ℕ := 0
  otp : Option String := none
  responses : ℕ := 0
  issued : List (ℕ × GatewayAuthentication) := []
  accepted : Option ConnectRequest := none
  loggedOut : List (ℕ × String) := []
  deriving DecidableEq

inductive Act where
  | cancel
  /-- A `select!` sees the cancellation. -/
  | seeCancelled
  | prelogin (answer : Except (List String) Prelogin)
  | auth (answer : Except (List String) Unit)
  | discover (answer : Except (List String) PortalConfig)
  | client (answer : Except (List String) Unit)
  | login
  | answer (login : LoginAnswer)
  /-- The prompt is put on the daemon's queue, or the daemon is gone. -/
  | prompt (delivered : Bool)
  | respond (otp : String)
  | otp
  | otpTimeout
  | otpDismissed
  /-- The request is put on the service queue, or the queue is closed. -/
  | submit (accepted : Bool)
  | report
  deriving DecidableEq

namespace State

variable (s : State)

/-- `run` returns an error. -/
def fail (e : Error) : State := { s with phase := .reporting (.failed e.display e.isCancelled) }

/-- A login fails: with the portal's cookie the flow goes on with the gateway's own prelogin, unless
it was cancelled. -/
def loginFailed (target : Target) (cookie : Bool) (e : Error) : State :=
  if cookie && !e.isCancelled then { s with phase := .gatewayPrelogin target } else s.fail e

/-- The error of `login` as `login_gateway` reports it. -/
def loginError (chain : List String) : Error :=
  if s.cancelled then .cancelled else .foreign chain

/-- The gateway of the command, of the configuration file, or the preferred one. -/
def select (config : PortalConfig) (region : String) : Except Error Gateway :=
  match s.gatewayOverride <|> s.gatewayPin with
  | some pin =>
    match config.findGateway pin with
    | some gateway => .ok gateway
    | none => .error (.ofString ("Cannot find gateway: " ++ pin))
  | none => .ok (config.findPreferredGateway region)

/-- The configuration has arrived. -/
def discovered (config : PortalConfig) (region : String) : State :=
  let config := config.sortGateways region
  match s.select config region with
  | .error e => s.fail e
  | .ok gateway =>
    { s with
      phase :=
        if config.canAuthenticateGateway then .client ⟨gateway, config⟩ true
        else .gatewayPrelogin ⟨gateway, config⟩ }

/-- The request of an authenticated gateway. -/
def request (target : Target) (authentication : GatewayAuthentication) : ConnectRequest where
  info := { portal := s.portal, gateway := target.gateway, gateways := target.config.gateways }
  members := [⟨target.gateway, authentication⟩]
  allowExtendSession := target.config.allowExtendSession.getD false

/-- An issued cookie is logged out before the login fails. -/
def cleanedUp (cookie : String) : State :=
  { s with responses := s.responses + 1, loggedOut := s.loggedOut ++ [(s.responses, cookie)] }

/-- A login has succeeded: only a tunnel session makes a plan. -/
def authenticated (normalize : String → Except (List String) String) (target : Target)
    (authentication : GatewayAuthentication) : State :=
  let s := { s with
    responses := s.responses + 1, issued := s.issued ++ [(s.responses, authentication)] }
  if authentication.mode ≠ .tunnel then
    s.fail (.ofString ("Gateway " ++ target.gateway.display ++ " issued a non-tunnel session, " ++
      "which gpwidget does not support yet — use `gpclient connect` instead"))
  else
    -- `ConnectionPlan::new` for one member of tunnel mode
    match normalize target.gateway.server with
    | .error e => s.fail (.foreign e)
    | .ok _ => { s with phase := .submitting (s.request target authentication) }

end State

variable (normalize : String → Except (List String) String)

/-- The error of `parse_login_response` for an invalid session configuration. -/
def protocolError : List String := ["Gateway login returned invalid session configuration"]

/-- The error of a server that wants a password. -/
def passwordError : Error :=
  .ofString ("This server uses username/password authentication, which gpwidget does not " ++
    "support yet — use `gpclient connect` instead")

/-- One step of the task; `normalize` is `normalize_server`. -/
def step (s : State) : Act → Option State
  | .cancel => some { s with cancelled := true }
  | .seeCancelled =>
    if s.cancelled then
      match s.phase with
      | .portalPrelogin => some (s.fail (Error.cancelled.context "Portal prelogin failed"))
      | .portalAuth _ => some (s.fail (Error.cancelled.context "SAML authentication failed"))
      | .loggingIn target cookie => some (s.loginFailed target cookie .cancelled)
      | .awaitingOtp target cookie => some (s.loginFailed target cookie .cancelled)
      | .gatewayPrelogin _ => some (s.fail (Error.cancelled.context "Gateway prelogin failed"))
      | .gatewayAuth _ => some (s.fail (Error.cancelled.context "SAML authentication failed"))
      | _ => none
    else none
  | .prelogin answer =>
    match s.phase, answer with
    | .portalPrelogin, .error e =>
      some (s.fail ((Error.foreign e).context "Portal prelogin failed"))
    | .portalPrelogin, .ok .standard => some (s.fail passwordError)
    | .portalPrelogin, .ok (.saml region) => some { s with phase := .portalAuth region }
    | .gatewayPrelogin _, .error e =>
      some (s.fail ((Error.foreign e).context "Gateway prelogin failed"))
    | .gatewayPrelogin _, .ok .standard => some (s.fail passwordError)
    | .gatewayPrelogin target, .ok (.saml _) => some { s with phase := .gatewayAuth target }
    | _, _ => none
  | .auth answer =>
    match s.phase, answer with
    | .portalAuth _, .error e =>
      some (s.fail ((Error.foreign e).context "SAML authentication failed"))
    | .portalAuth region, .ok () => some { s with phase := .discovering region }
    | .gatewayAuth _, .error e =>
      some (s.fail ((Error.foreign e).context "SAML authentication failed"))
    | .gatewayAuth target, .ok () => some { s with phase := .client target false }
    | _, _ => none
  | .discover answer =>
    match s.phase with
    | .discovering region =>
      -- `discover` looks at the token last
      if s.cancelled then some (s.fail .cancelled)
      else
        match answer with
        | .error e =>
          some (s.fail ((Error.foreign e).context "Failed to retrieve the portal config"))
        | .ok config => some (s.discovered config region)
    | _ => none
  | .client answer =>
    match s.phase with
    | .client target cookie =>
      match normalize target.gateway.server, answer with
      | .error e, _ => some (s.loginFailed target cookie (.foreign e))
      | .ok _, .error e => some (s.loginFailed target cookie (.foreign e))
      | .ok _, .ok () => some { s with phase := .login target cookie }
    | _ => none
  | .login =>
    match s.phase with
    | .login target cookie =>
      if s.cancelled then some (s.loginFailed target cookie .cancelled)
      else some { s with phase := .loggingIn target cookie }
    | _ => none
  | .answer login =>
    match s.phase, login with
    | .loggingIn target cookie, .failed e => some (s.loginFailed target cookie (s.loginError e))
    | .loggingIn target cookie, .invalid issued =>
      some ((s.cleanedUp issued).loginFailed target cookie (s.loginError protocolError))
    | .loggingIn target cookie, .mfa message =>
      some { s with responses := s.responses + 1, phase := .prompting target cookie message }
    | .loggingIn target _, .authenticated authentication =>
      some (s.authenticated normalize target authentication)
    | _, _ => none
  | .prompt delivered =>
    match s.phase with
    | .prompting target cookie _ =>
      if delivered then
        some { s with phase := .awaitingOtp target cookie, round := s.round + 1, otp := none }
      else some (s.loginFailed target cookie .cancelled)
    | _ => none
  | .respond otp =>
    -- a oneshot channel takes one answer
    match s.phase, s.otp with
    | .awaitingOtp _ _, none => some { s with otp := some otp }
    | _, _ => none
  | .otp =>
    match s.phase, s.otp with
    | .awaitingOtp target cookie, some _ => some { s with phase := .login target cookie }
    | _, _ => none
  | .otpTimeout =>
    -- `timeout` polls the channel first, so an answer that is there is taken
    match s.phase, s.otp with
    | .awaitingOtp target cookie, none =>
      some (s.loginFailed target cookie ((Error.foreign ["deadline has elapsed"]).context
        "Timed out waiting for the one-time password"))
    | _, _ => none
  | .otpDismissed =>
    match s.phase, s.otp with
    | .awaitingOtp target cookie, none =>
      some (s.loginFailed target cookie ((Error.foreign ["channel closed"]).context
        "OTP prompt was dismissed"))
    | _, _ => none
  | .submit accepted =>
    match s.phase with
    | .submitting request =>
      if accepted then
        some { s with accepted := some request, phase := .reporting (.submitted request) }
      else
        some (s.fail ((Error.foreign ["channel closed"]).context
          "Failed to send the connect request to gpservice"))
    | _ => none
  | .report =>
    match s.phase with
    | .reporting _ => some { s with phase := .ended }
    | _ => none

/-- The flow with these settings. -/
def machine (portal : String) (gatewayOverride gatewayPin : Option String) : Machine State Act where
  init := { portal, gatewayOverride, gatewayPin }
  step := step normalize

/-! ### What becomes of the sessions -/

/-- The answers after which a session is not left behind: a login issues a tunnel session, and the
service queue takes the request. -/
def Act.Keeps : Act → Prop
  | .answer (.authenticated authentication) => authentication.mode = .tunnel
  | .submit accepted => accepted = true
  | _ => True

instance : DecidablePred Act.Keeps := fun l => by
  unfold Act.Keeps
  split <;> infer_instance

/-- Each session that a login returned is in the accepted request or was logged out. -/
def State.Accounted (s : State) : Prop :=
  ∀ e ∈ s.issued, (∃ r, s.accepted = some r ∧ e.2 ∈ r.members.map (·.authentication)) ∨
    (e.1, e.2.cookie) ∈ s.loggedOut

/-- The phases before a login has succeeded; the server of a login client is a valid one. -/
def Phase.Open : Phase → Prop
  | .login target _ | .loggingIn target _ | .prompting target _ _ | .awaitingOtp target _ =>
    ∃ server, normalize target.gateway.server = .ok server
  | .submitting _ | .reporting _ | .ended => False
  | _ => True

/-- The phases after the outcome is decided. -/
def Phase.Over : Phase → Prop
  | .reporting _ | .ended => True
  | _ => False

/-- A step on the way to a login: no session is issued and no request is accepted, and the logouts
it may add are of a new response. -/
structure OnTheWay (s : State) (l : Act) (s' : State) : Prop where
  keeps : l.Keeps
  issued : s'.issued = s.issued
  accepted : s'.accepted = s.accepted
  responses : s.responses ≤ s'.responses
  loggedOut : ∀ e ∈ s'.loggedOut, e ∈ s.loggedOut ∨ e.1 = s.responses ∧ e.1 < s'.responses
  phase : s'.phase.Open normalize ∨ s'.phase.Over

variable {normalize} {s s' : State} {l : Act}

namespace OnTheWay

theorem of_open (hl : l.Keeps) (hi : s'.issued = s.issued) (ha : s'.accepted = s.accepted)
    (hr : s.responses ≤ s'.responses) (hlo : s'.loggedOut = s.loggedOut)
    (hp : s'.phase.Open normalize) : OnTheWay normalize s l s' :=
  ⟨hl, hi, ha, hr, fun _ he => .inl (hlo ▸ he), .inl hp⟩

theorem next (hl : l.Keeps) {p : Phase} (hp : p.Open normalize) :
    OnTheWay normalize s l { s with phase := p } :=
  of_open hl rfl rfl (Nat.le_refl _) rfl hp

theorem fail (hl : l.Keeps) (e : Error) : OnTheWay normalize s l (s.fail e) :=
  ⟨hl, rfl, rfl, Nat.le_refl _, fun _ he => .inl he, .inr trivial⟩

theorem loginFailed (hl : l.Keeps) (target : Target) (cookie : Bool) (e : Error) :
    OnTheWay normalize s l (s.loginFailed target cookie e) := by
  unfold State.loginFailed
  split
  · exact next hl trivial
  · exact fail hl e

/-- A cookie is logged out before the login fails, under the number of this response. -/
theorem cleanedUp (hl : l.Keeps) (issued : String) (target : Target) (cookie : Bool) (e : Error) :
    OnTheWay normalize s l ((s.cleanedUp issued).loginFailed target cookie e) := by
  have hf : OnTheWay normalize (s.cleanedUp issued) l
      ((s.cleanedUp issued).loginFailed target cookie e) := loginFailed hl target cookie e
  have hr : ((s.cleanedUp issued).loginFailed target cookie e).responses = s.responses + 1 := by
    unfold State.loginFailed
    split <;> rfl
  have hsame : ((s.cleanedUp issued).loginFailed target cookie e).loggedOut =
      s.loggedOut ++ [(s.responses, issued)] := by
    unfold State.loginFailed
    split <;> rfl
  refine ⟨hl, hf.issued, hf.accepted, by omega, ?_, hf.phase⟩
  intro e he
  rw [hsame] at he
  rcases List.mem_append.mp he with he | he
  · exact .inl he
  · obtain rfl := List.mem_singleton.mp he
    exact .inr ⟨rfl, by omega⟩

theorem discovered (hl : l.Keeps) (config : PortalConfig) (region : String) :
    OnTheWay normalize s l (s.discovered config region) := by
  unfold State.discovered
  dsimp only
  split
  · exact fail hl _
  · refine next hl ?_
    split <;> trivial

end OnTheWay

theorem open_step (ho : s.phase.Open normalize) (h : step normalize s l = some s') :
    OnTheWay normalize s l s' ∨
      ∃ target a server, l = .answer (.authenticated a) ∧
        normalize target.gateway.server = .ok server ∧
        s' = s.authenticated normalize target a := by
  cases l with
  | cancel =>
    cases h
    exact .inl (.of_open trivial rfl rfl (Nat.le_refl _) rfl ho)
  | seeCancelled =>
    left
    have hk : Act.seeCancelled.Keeps := trivial
    simp only [step] at h
    split at h
    · split at h <;> cases h
      all_goals first | exact .fail hk _ | exact .loginFailed hk _ _ _
    · cases h
  | prelogin answer =>
    left
    have hk : (Act.prelogin answer).Keeps := trivial
    simp only [step] at h
    split at h <;> cases h
    all_goals first | exact .fail hk _ | exact .next hk trivial
  | auth answer =>
    left
    have hk : (Act.auth answer).Keeps := trivial
    simp only [step] at h
    split at h <;> cases h
    all_goals first | exact .fail hk _ | exact .next hk trivial
  | discover answer =>
    left
    have hk : (Act.discover answer).Keeps := trivial
    simp only [step] at h
    split at h
    · split at h
      · cases h; exact .fail hk _
      · split at h <;> cases h
        · exact .fail hk _
        · exact .discovered hk _ _
    · cases h
  | client answer =>
    left
    have hk : (Act.client answer).Keeps := trivial
    simp only [step] at h
    split at h
    · split at h <;> cases h
      · exact .loginFailed hk _ _ _
      · exact .loginFailed hk _ _ _
      · rename_i server hn
        exact .next hk ⟨server, hn⟩
    · cases h
  | login =>
    left
    have hk : Act.login.Keeps := trivial
    simp only [step] at h
    split at h
    · rename_i hp
      rw [hp] at ho
      split at h <;> cases h
      · exact .loginFailed hk _ _ _
      · exact .next hk ho
    · cases h
  | answer login =>
    simp only [step] at h
    split at h
    · rename_i e _
      have hk : (Act.answer (.failed e)).Keeps := trivial
      cases h
      exact .inl (.loginFailed hk _ _ _)
    · rename_i issued _
      have hk : (Act.answer (.invalid issued)).Keeps := trivial
      cases h
      exact .inl (.cleanedUp hk _ _ _ _)
    · rename_i hp
      rw [hp] at ho
      cases h
      exact .inl (.of_open trivial rfl rfl (Nat.le_succ _) rfl ho)
    · rename_i target _ a hp
      rw [hp] at ho
      obtain ⟨server, hn⟩ := ho
      exact .inr ⟨target, a, server, rfl, hn, (Option.some.inj h).symm⟩
    · cases h
  | prompt delivered =>
    left
    have hk : (Act.prompt delivered).Keeps := trivial
    simp only [step] at h
    split at h
    · rename_i hp
      rw [hp] at ho
      split at h <;> cases h
      · exact .of_open hk rfl rfl (Nat.le_refl _) rfl ho
      · exact .loginFailed hk _ _ _
    · cases h
  | respond otp =>
    left
    simp only [step] at h
    split at h <;> cases h
    exact .of_open trivial rfl rfl (Nat.le_refl _) rfl ho
  | otp =>
    left
    have hk : Act.otp.Keeps := trivial
    simp only [step] at h
    split at h
    · rename_i hp _
      rw [hp] at ho
      cases h
      exact .next hk ho
    · cases h
  | otpTimeout =>
    left
    have hk : Act.otpTimeout.Keeps := trivial
    simp only [step] at h
    split at h <;> cases h
    exact .loginFailed hk _ _ _
  | otpDismissed =>
    left
    have hk : Act.otpDismissed.Keeps := trivial
    simp only [step] at h
    split at h <;> cases h
    exact .loginFailed hk _ _ _
  | submit accepted | report =>
    simp only [step] at h
    split at h
    · rename_i hp
      rw [hp] at ho
      exact ho.elim
    · cases h

theorem submitting_step {r : ConnectRequest} (hp : s.phase = .submitting r)
    (h : step normalize s l = some s') :
    (l.Keeps ∧ s' = { s with cancelled := true }) ∨
      (l = .submit true ∧
        s' = { s with accepted := some r, phase := .reporting (.submitted r) }) ∨
      (l = .submit false ∧ ∃ e, s' = s.fail e) := by
  cases l with
  | cancel => exact .inl ⟨trivial, (Option.some.inj h).symm⟩
  | submit accepted =>
    simp only [step, hp] at h
    cases accepted with
    | true => exact .inr (.inl ⟨rfl, by simpa using h.symm⟩)
    | false => exact .inr (.inr ⟨rfl, _, by simpa using h.symm⟩)
  | _ => simp [step, hp] at h

theorem over_step (ho : s.phase.Over) (h : step normalize s l = some s') :
    l.Keeps ∧ s'.phase.Over ∧ s'.issued = s.issued ∧ s'.accepted = s.accepted ∧
      s'.loggedOut = s.loggedOut := by
  cases l with
  | cancel =>
    cases h
    exact ⟨trivial, ho, rfl, rfl, rfl⟩
  | report =>
    simp only [step] at h
    split at h <;> cases h
    exact ⟨trivial, trivial, rfl, rfl, rfl⟩
  | _ =>
    cases hp : s.phase with
    | reporting msg => simp [step, hp] at h
    | ended => simp [step, hp] at h
    | _ => rw [hp] at ho; exact ho.elim

variable (normalize) in
/-- The books of a flow along its run: nothing is issued until a login succeeds, the session then
waits with its request, and once the outcome is decided it is accounted for exactly if every label
was one that keeps it. -/
inductive Books (ls : List Act) (s : State) : Prop
  | before (phase : s.phase.Open normalize) (issued : s.issued = []) (accepted : s.accepted = none)
    (fresh : ∀ e ∈ s.loggedOut, e.1 < s.responses) (keeps : ∀ l ∈ ls, l.Keeps)
  | waiting (r : ConnectRequest) (e : ℕ × GatewayAuthentication) (phase : s.phase = .submitting r)
    (issued : s.issued = [e]) (member : e.2 ∈ r.members.map (·.authentication))
    (accepted : s.accepted = none) (kept : (e.1, e.2.cookie) ∉ s.loggedOut)
    (keeps : ∀ l ∈ ls, l.Keeps)
  | closed (phase : s.phase.Over) (books : s.Accounted ↔ ∀ l ∈ ls, l.Keeps)

theorem keeps_concat {ls : List Act} :
    (∀ x ∈ ls ++ [l], x.Keeps) ↔ (∀ x ∈ ls, x.Keeps) ∧ l.Keeps := by
  simp [or_imp, forall_and]

/-- A session that is in no accepted request and was not logged out is left behind. -/
theorem not_accounted {e : ℕ × GatewayAuthentication} (he : e ∈ s.issued)
    (ha : s.accepted = none) (hl : (e.1, e.2.cookie) ∉ s.loggedOut) : ¬ s.Accounted := by
  intro h
  rcases h e he with ⟨r, hr, -⟩ | h
  · rw [ha] at hr
    cases hr
  · exact hl h

/-- The state after a login has returned `a`. -/
def State.received (s : State) (a : GatewayAuthentication) : State :=
  { s with responses := s.responses + 1, issued := s.issued ++ [(s.responses, a)] }

theorem authenticated_tunnel {target : Target} {a : GatewayAuthentication} {server : String}
    (hn : normalize target.gateway.server = .ok server) (ha : a.mode = .tunnel) :
    s.authenticated normalize target a =
      { s.received a with phase := .submitting (s.request target a) } := by
  simp [State.authenticated, State.received, State.request, hn, ha]

theorem authenticated_nonTunnel (target : Target) {a : GatewayAuthentication}
    (ha : a.mode ≠ .tunnel) : ∃ e, s.authenticated normalize target a = (s.received a).fail e := by
  simp only [State.authenticated, if_pos ha]
  exact ⟨_, rfl⟩

theorem Books.step {ls : List Act} (hb : Books normalize ls s)
    (h : ConnectFlow.step normalize s l = some s') :
    Books normalize (ls ++ [l]) s' := by
  cases hb with
  | before ho hi ha hf hk =>
    obtain hw | ⟨target, a, server, rfl, hn, rfl⟩ := open_step ho h
    · have hi' : s'.issued = [] := hw.issued.trans hi
      have hk' := keeps_concat.mpr ⟨hk, hw.keeps⟩
      rcases hw.phase with hp | hp
      · refine .before hp hi' (hw.accepted.trans ha) ?_ hk'
        intro e he
        rcases hw.loggedOut e he with he | ⟨-, he⟩
        · exact Nat.lt_of_lt_of_le (hf e he) hw.responses
        · exact he
      · refine .closed hp ⟨fun _ => hk', fun _ e he => ?_⟩
        rw [hi'] at he
        cases he
    · -- the number of this response is new, so no earlier logout is the session's
      have hnew : (s.responses, a.cookie) ∉ s.loggedOut := fun he =>
        Nat.lt_irrefl _ (hf _ he)
      by_cases hm : a.mode = .tunnel
      · rw [authenticated_tunnel hn hm]
        refine .waiting (s.request target a) (s.responses, a) rfl ?_ ?_ ha hnew
          (keeps_concat.mpr ⟨hk, hm⟩)
        · simp [State.received, hi]
        · simp [State.request]
      · obtain ⟨e, he⟩ : ∃ e, s.authenticated normalize target a = (s.received a).fail e :=
          authenticated_nonTunnel target hm
        rw [he]
        refine .closed trivial (iff_of_false ?_ fun hall => hm (keeps_concat.mp hall).2)
        exact not_accounted (e := (s.responses, a)) (by simp [State.received, State.fail]) ha hnew
  | waiting r e hp hi hmem ha hkept hk =>
    obtain ⟨hl, rfl⟩ | ⟨rfl, rfl⟩ | ⟨rfl, e', rfl⟩ := submitting_step hp h
    · exact .waiting r e hp hi hmem ha hkept (keeps_concat.mpr ⟨hk, hl⟩)
    · refine .closed trivial (iff_of_true ?_ (keeps_concat.mpr ⟨hk, rfl⟩))
      intro x hx
      rw [show _ = [e] from hi] at hx
      obtain rfl := List.mem_singleton.mp hx
      exact .inl ⟨r, rfl, hmem⟩
    · refine .closed trivial (iff_of_false ?_ fun hall => ?_)
      · exact not_accounted (e := e) (by simp [State.fail, hi]) ha hkept
      · exact Bool.false_ne_true (keeps_concat.mp hall).2
  | closed ho hb =>
    obtain ⟨hl, ho', hi, ha, hlo⟩ := over_step ho h
    refine .closed ho' ?_
    rw [keeps_concat, ← hb]
    simp [State.Accounted, hi, ha, hlo, hl]

/-- **Sessions of a flow**: when a flow has ended, each session a login returned is in the accepted
request or was logged out exactly if no login returned a non-tunnel session and the service queue
did not refuse the request. -/
theorem sessions_accounted_iff (portal : String) (gatewayOverride gatewayPin : Option String)
    {ls : List Act}
    (h : (machine normalize portal gatewayOverride gatewayPin).run
      (machine normalize portal gatewayOverride gatewayPin).init ls = some s)
    (hend : s.phase = .ended) : s.Accounted ↔ ∀ l ∈ ls, l.Keeps := by
  have hb : Books normalize ls s := by
    refine Machine.run_induction ?_ (fun _ _ _ _ hb hs => hb.step hs) h
    exact .before trivial rfl rfl (by simp [machine]) (by simp)
  cases hb with
  | before ho => rw [hend] at ho; exact ho.elim
  | waiting _ _ hp => rw [hend] at hp; cases hp
  | closed _ hb => exact hb

def exampleGateway : Gateway := { name := "gw", address := "gw.example.com" }

/-- A run up to the answer of the cookie login. -/
def loginRun (answer : LoginAnswer) : List Act :=
  [.prelogin (.ok (.saml "US")), .auth (.ok ()),
    .discover (.ok { first := exampleGateway, others := [] }), .client (.ok ()), .login,
    .answer answer]

/-- A tunnel session that the queue accepts. -/
theorem sessions_accounted_iff_tunnel :
    ∃ s, (machine .ok "portal" none none).run (machine .ok "portal" none none).init
        (loginRun (.authenticated ⟨"c", "tunnel"⟩) ++ [.submit true, .report]) = some s ∧
      s.phase = .ended ∧ s.issued ≠ [] ∧ s.Accounted := by
  obtain ⟨s, hs⟩ : ∃ s, (machine .ok "portal" none none).run (machine .ok "portal" none none).init
      (loginRun (.authenticated ⟨"c", "tunnel"⟩) ++ [.submit true, .report]) = some s := ⟨_, rfl⟩
  have hend : s.phase = .ended := by cases hs; rfl
  have hissued : s.issued ≠ [] := by cases hs; exact List.cons_ne_nil _ _
  exact ⟨s, hs, hend, hissued,
    (sessions_accounted_iff "portal" none none hs hend).mpr (by decide +kernel)⟩

/-- A non-tunnel session is neither submitted nor logged out. -/
theorem nonTunnel_session_left :
    ∃ s, (machine .ok "portal" none none).run (machine .ok "portal" none none).init
        (loginRun (.authenticated ⟨"c", "non-tunnel"⟩) ++ [.report]) = some s ∧
      s.phase = .ended ∧ ¬ s.Accounted := by
  refine ⟨_, rfl, by decide +kernel, ?_⟩
  exact not_accounted (e := (0, ⟨"c", "non-tunnel"⟩)) (by decide +kernel) (by decide +kernel)
    (by decide +kernel)

end GlobalProtect.Widget.ConnectFlow
