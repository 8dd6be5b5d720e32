import GlobalProtect.Lib.Flow
import GlobalProtect.Session.NonTunnel

/-! # The connect flow of `gpclient`

The model of `ConnectHandler` in `gpclient/src/connect/`: `handle` with its passphrase loop, the
cached cookie, the portal login, the automatic gateway loop, the direct gateway login, internal
gateways and the tunnel. The handler is one thread of control, so each of its methods is a `Flow`
over the state of the handler; the coordinator of a non-tunnel session and its workers are the
machine of `Session.NonTunnel`, run on the handler's ledger.

What the network, the terminal, the native client and the user answer is an `Env`: one answer for
each reading of a clock that moves with every question, so every sequence of answers is some `Env`.
`signal` is the shutdown signal; the token stays cancelled once it has been seen. A loop that asks
again as long as the answer says so takes at most `fuel` rounds, and has no result otherwise.

The ledger sits in `Books` with what the handler does with issued sessions: `issued` counts the
logins that were registered, `tunnels` are the logins a tunnel worker was started with and `printed`
what the cookie-only mode wrote. Requests are reduced to their outcome, so portals, credentials,
profiles, the cookie cache's contents and progress messages are left out. -/

namespace GlobalProtect.Client

open Lib Api Session

/-! ### Errors -/

inductive RequestIdentityError where
  | noKey
  | noPassphrase (certType : String)
  | decryptError (certType : String)
  | unsupportedEncryption
  | unsupportedKeyFormat
  | invalidKey
  | invalidCertificate
  | incompletePkcs12
  | invalidPkcs12
  | ambiguousPkcs12
  deriving DecidableEq, Repr

/-- What the flow tells apart by a downcast; everything else is `other`. -/
inductive Error where
  /-- `AuthenticationCancelled`. -/
  | cancelled
  | recoveryFailed (first : String) (error : Error)
  | renderingCrash (status : String)
  | identity (error : RequestIdentityError)
  /-- An error whose root cause is a `PortalError`. -/
  | portal (message : String)
  /-- `GatewayLoginProtocolError`. -/
  | protocol
  | other (message : String)
  deriving DecidableEq, Repr

def RequestIdentityError.message : RequestIdentityError → String
  | .noKey => "Failed to find the private key"
  | .noPassphrase _ => "No passphrase provided"
  | .decryptError _ => "Failed to decrypt private key"
  | .unsupportedEncryption => "Unsupported private key encryption. Convert the key to modern " ++
      "PKCS#8 using PBES2 with AES before importing it"
  | .unsupportedKeyFormat => "Unsupported private key format. Convert the key to PKCS#8 before " ++
      "importing it"
  | .invalidKey => "Invalid private key"
  | .invalidCertificate => "Invalid certificate or certificate chain"
  | .incompletePkcs12 => "The PKCS#12 file must contain both a client certificate and its " ++
      "private key"
  | .invalidPkcs12 => "Could not open the PKCS#12 certificate. Check the password and " ++
      "certificate file"
  | .ambiguousPkcs12 => "The PKCS#12 file must contain one matching client identity"

def Error.message : Error → String
  | .cancelled => "Authentication cancelled"
  | .recoveryFailed first error => "Rendering recovery failed: First attempt: " ++ first ++ ": " ++
      error.message ++ ". Collect diagnostics for a bug report"
  | .renderingCrash status => "WebKit Wayland rendering process exited with " ++ status
  | .identity error => error.message
  | .portal message => message
  | .protocol => "Gateway login returned invalid session configuration"
  | .other message => message

inductive GatewayConnectFailureStage where
  | beforeEstablishment
  | afterEstablishment
  deriving DecidableEq, Repr

structure GatewayConnectError where
  stage : GatewayConnectFailureStage
  error : Error
  deriving DecidableEq, Repr

/-! ### The world of the handler -/

structure ConnectArgs where
  server : String
  gateway : Option String := none
  asGateway : Bool := false
  autoGateway : Bool := false
  cookieOnStdin : Bool := false
  cookieOnly : Bool := false
  cookieCache : Bool := false
  browser : Option String := none
  browserListen : Bool := false
  defaultBrowser : Bool := false
  dashboard : Bool := false
  background : Bool := false
  deriving DecidableEq, Repr

structure StoredCookie where
  lastGateway : String
  canAuthenticateGateway : Bool
  deriving DecidableEq, Repr

/-- What the flow reads of a portal's configuration, with its gateways in sorted order and whether
its cookie can authenticate a gateway. -/
structure PortalConfig where
  gateways : List Gateway
  canAuthenticateGateway : Bool
  deriving DecidableEq, Repr

def PortalConfig.findGateway (c : PortalConfig) (nameOrAddress : String) : Option Gateway :=
  c.gateways.find? fun g => g.name = nameOrAddress || g.address = nameOrAddress

inductive GatewayLogin where
  | authenticated (authentication : GatewayAuthentication)
  | mfa (message inputStr : String)
  deriving DecidableEq, Repr

/-- What happens between the start of a tunnel worker and its end. -/
structure TunnelRun where
  /-- The callback of the native client ran before a cancellation, and could write the PID file. -/
  established : Bool := false
  pidWritten : Bool := false
  /-- The handler saw the establishment before the worker's exit. -/
  observed : Bool := false
  /-- The worker still ran when the unused sessions had been logged out. -/
  ready : Bool := false
  dashboardError : Option String := none
  detachError : Option String := none
  finishError : Option String := none
  disconnectRequested : Bool := false
  /-- The exit status, or the failure of the worker's task. -/
  exit : Except String Int

/-- The outcome of what surrounds the maintenance of a non-tunnel session. -/
structure InternalRun where
  dashboardError : Option String := none
  finishError : Option String := none
  monitorFailed : Bool := false
  deriving DecidableEq, Repr

structure Env where
  signal : ℕ → Bool
  stdin : ℕ → Except String Unit
  storedCookie : ℕ → Option StoredCookie
  prelogin : ℕ → Except Error Unit
  /-- `obtain_credential`. -/
  credential : ℕ → Except Error Unit
  /-- `discover`. -/
  discover : ℕ → Except Error PortalConfig
  /-- The client identity and the login client. -/
  client : ℕ → Except Error Unit
  login : ℕ → Except Error GatewayLogin
  /-- A prompt for a one-time password or a passphrase. -/
  prompt : ℕ → Except String Unit
  select : ℕ → Except String ℕ
  /-- The network part of `bind_non_tunnel`. -/
  bind : ℕ → Except String ClientAddresses
  /-- A local step that can fail: identity files, the HIP source, the builder of the native client,
  the standard streams, the dashboard, the capture and validation of the physical network, the
  session policy. -/
  prepare : ℕ → Except String Unit
  tunnel : ℕ → TunnelRun
  maintenance : ℕ → List NonTunnel.Label
  internal : ℕ → InternalRun
  writePid : ℕ → Bool
  removePid : ℕ → Bool
  /-- `normalize_server`. -/
  normalize : String → Except String String
  fuel : ℕ

/-- A line of output: the cookie and host of a login. -/
structure Printed where
  issue : ℕ
  cookie : String
  host : String
  deriving DecidableEq, Repr

structure Books where
  sessions : GatewaySessions := {}
  issued : ℕ := 0
  tunnels : List ℕ := []
  printed : List Printed := []
  deriving DecidableEq, Repr

namespace Books

variable (b : Books)

/-- `register_login`, for the descriptor that has the server as its name and address. -/
def registerLogin (server : String) (authentication : GatewayAuthentication) : Books :=
  { b with
    sessions := b.sessions.register
      { issue := b.issued, gateway := { name := server, address := server }, authentication }
    issued := b.issued + 1 }

def logoutGateway (server : String) : Books :=
  { b with sessions := b.sessions.logoutGateway server }

/-- `relinquish_gateway` and the start of the tunnel worker. -/
def startTunnel (server : String) (issue : ℕ) : Books :=
  { b with sessions := b.sessions.relinquishGateway server, tunnels := b.tunnels ++ [issue] }

/-- The servers of the sessions that an established tunnel does not use. -/
def unused (server : String) : List String :=
  (b.sessions.members.filter fun m => m.server ≠ server).map GatewaySession.server

def print (p : Printed) : Books := { b with printed := b.printed ++ [p] }

end Books

structure Handler where
  books : Books := {}
  cancelled : Bool := false
  /-- `RecoveryState`: the first rendering crash. -/
  firstFailure : Option String := none
  cookieRead : Bool := false
  pidWritten : Bool := false
  lockFile : Bool := false
  clock : ℕ := 0
  deriving DecidableEq, Repr

namespace Handler

variable (h : Handler)

def terminal (error : Error) : Error :=
  match error with
  | .cancelled => .cancelled
  | .recoveryFailed first error => .recoveryFailed first error
  | error =>
    match h.firstFailure with
    | some first => .recoveryFailed first error
    | none => error

def dmabufDisabled : Bool := h.firstFailure.isSome

def tick (env : Env) : Handler :=
  { h with clock := h.clock + 1, cancelled := h.cancelled || env.signal h.clock }

/-- The effect of `write_pid_file` on the handler and on the lock file. -/
def writePidFile (written : Bool) : Handler :=
  { h with pidWritten := written, lockFile := h.lockFile || written }

end Handler

abbrev Connect := Flow Handler Error

open Flow

variable (env : Env) (args : ConnectArgs)

section Steps

variable {ε β : Type}

/-- Asks the environment; a signal may arrive meanwhile. -/
def ask (answer : ℕ → β) : Flow Handler ε β := do
  modify (Handler.tick · env)
  let h ← get
  return answer h.clock

/-- Whether the token is cancelled. -/
def isCancelled : Flow Handler ε Bool := do
  modify (Handler.tick · env)
  let h ← get
  return h.cancelled

def checkCancelled : Connect Unit := do
  let cancelled ← isCancelled env
  if cancelled then throw .cancelled else pure ()

/-- A request in a `select!` that polls the token first. -/
def unlessCancelled (answer : ℕ → Except Error β) : Connect β := do
  checkCancelled env
  let result ← ask env answer
  ofExcept result

/-- A step whose failure has no type the flow looks for. -/
def require (answer : ℕ → Except String β) : Connect β := do
  let result ← ask env answer
  ofExcept (result.mapError .other)

def requireIf (needed : Bool) (answer : ℕ → Except String Unit) : Connect Unit :=
  if needed then require env answer else pure ()

def ensure (condition : Bool) (message : String) : Connect Unit :=
  if condition then pure () else throw (.other message)

/-- Changes the books and nothing else. -/
def book (u : Books → Books) : Flow Handler ε PUnit :=
  modify fun h => { h with books := u h.books }

def logoutGateway (server : String) : Flow Handler ε PUnit := book (·.logoutGateway server)

/-- Errors of a step that comes before the establishment of a tunnel. -/
def before (f : Connect β) : Flow Handler GatewayConnectError β :=
  f.mapError fun error => ⟨.beforeEstablishment, error⟩

def after (f : Connect β) : Flow Handler GatewayConnectError β :=
  f.mapError fun error => ⟨.afterEstablishment, error⟩

end Steps

/-! ### Credentials -/

def prepareCookieFromStdin : Connect Unit := do
  let h ← get
  if !args.cookieOnStdin || h.cookieRead then pure ()
  else do
    require env env.stdin
    modify fun h => { h with cookieRead := true }

/-- The answer of `RecoveryState::recover`: only the first rendering crash is recovered from. -/
def Handler.recovers (h : Handler) : Error → Bool
  | .renderingCrash _ => h.firstFailure.isNone
  | _ => false

/-- The rounds of `obtain_credential_with_recovery`. -/
def obtainCredentialRounds : ℕ → Connect Unit
  | 0 => diverge
  | fuel + 1 => do
    checkCancelled env
    let result ← ask env env.credential
    checkCancelled env
    match result with
    | .ok () => pure ()
    | .error error => do
      let h ← get
      if h.recovers error then do
        modify fun h => { h with firstFailure := some error.message }
        let h ← get
        mapError h.terminal (unlessCancelled env env.prelogin)
        obtainCredentialRounds fuel
      else throw (h.terminal error)

def obtainCredentialWithRecovery : Connect Unit := obtainCredentialRounds env env.fuel

/-! ### One gateway -/

/-- A registered login: which one it is, and whether its extension authentication has a binding. -/
structure GatewayLoginSession where
  issue : ℕ
  authentication : GatewayAuthentication
  bound : Bool
  deriving DecidableEq, Repr

/-- `bind_non_tunnel`; `login_gateway` reports each of its errors as a protocol error. -/
def bindNonTunnel (server : String) : Connect Unit := do
  let h ← get
  match h.books.sessions.members.find? fun m => m.server = server with
  | none => throw .protocol
  | some member => do
    let result ← ask env env.bind
    match result with
    | .error _ => throw .protocol
    | .ok addresses =>
      book fun b => { b with
        sessions := b.sessions.update
          { member with gateway := { name := server, address := server }, addresses } }

/-- The rounds of `login_gateway`, for a login whose context names an internal gateway or not. -/
def loginGatewayRounds (internal : Bool) (server : String) : ℕ → Connect GatewayLoginSession
  | 0 => diverge
  | fuel + 1 => do
    checkCancelled env
    let result ← ask env env.login
    match result with
    | .error error => throw error
    | .ok (.mfa _ _) => do
      require env env.prompt
      loginGatewayRounds internal server fuel
    | .ok (.authenticated authentication) => do
      let h ← get
      book (·.registerLogin server authentication)
      checkCancelled env
      if internal && authentication.mode = .nonTunnel && !args.cookieOnly then do
        bindNonTunnel env server
        return ⟨h.books.issued, authentication, true⟩
      else return ⟨h.books.issued, authentication, false⟩

def loginGateway (internal : Bool) (server : String) : Connect GatewayLoginSession := do
  let client ← ask env env.client
  ofExcept client
  loginGatewayRounds env args internal server env.fuel

/-- The error of announcing an established tunnel; a failure to detach replaces the dashboard's. -/
def TunnelRun.readyError (run : TunnelRun) (pidWritten : Bool) : Option String :=
  let detach :=
    if args.background then
      if pidWritten then run.detachError
      else some "Cannot detach without a writable PID lock file"
    else none
  detach <|> if args.dashboard then run.dashboardError else none

def openconnectInterruptedExitCode : Int := -4

def classifyOpenconnectResult (exitCode : Int) (tunnelEstablished disconnectRequested : Bool) :
    Except GatewayConnectError Unit :=
  if exitCode = 0 then .ok ()
  else if disconnectRequested && exitCode = openconnectInterruptedExitCode then .ok ()
  else
    let error : Error := .other ("OpenConnect exited with status " ++ toString exitCode)
    if tunnelEstablished then .error ⟨.afterEstablishment, error⟩
    else .error ⟨.beforeEstablishment, error⟩

/-- The effect of an established tunnel: the PID file of the callback, and, if the handler sees the
establishment before the exit, the logout of the other sessions and the announcement, which cancels
the token when it fails. -/
def Handler.establish (h : Handler) (server : String) (run : TunnelRun) : Handler :=
  let h := if run.established then h.writePidFile run.pidWritten else h
  if run.established && run.observed then
    { h with
      books := (h.books.unused server).foldl Books.logoutGateway h.books
      cancelled := h.cancelled || run.ready && (run.readyError args h.pidWritten).isSome }
  else h

/-- `output_error` at the end of the tunnel. -/
def TunnelRun.outputError (run : TunnelRun) (pidWritten : Bool) : Option String :=
  (if args.dashboard then run.finishError else none) <|>
    if run.established && run.observed && run.ready then run.readyError args pidWritten else none

/-- `connect_gateway` from the point where the tunnel worker is started. -/
def runTunnel (server : String) (session : GatewayLoginSession) :
    Flow Handler GatewayConnectError Unit := do
  book (·.startTunnel server session.issue)
  let run ← ask env env.tunnel
  modify (Handler.establish args · server run)
  let h ← get
  match run.outputError args h.pidWritten, run.exit with
  | some error, _ => throw ⟨.afterEstablishment, .other error⟩
  | none, .error error => throw ⟨.afterEstablishment, .other error⟩
  | none, .ok exitCode =>
    ofExcept (classifyOpenconnectResult exitCode run.established
      (h.cancelled && run.disconnectRequested))

def connectGateway (server : String) (session : GatewayLoginSession) :
    Flow Handler GatewayConnectError Unit :=
  if args.cookieOnly then
    book (·.print ⟨session.issue, session.authentication.cookie, server⟩)
  else if session.authentication.mode ≠ .tunnel then
    throw ⟨.afterEstablishment,
      .other "Non-tunnel authentication requires fresh internal portal discovery"⟩
  else do
    after (checkCancelled env)
    -- the identity files, the HIP source and the builder
    before (require env env.prepare)
    before (require env env.prepare)
    before (require env env.prepare)
    before (requireIf env args.background env.prepare)
    before (requireIf env args.dashboard env.prepare)
    runTunnel env args server session

def connectGatewayWithPrelogin (server : String) : Connect Unit := do
  unlessCancelled env env.prelogin
  obtainCredentialWithRecovery env
  let session ← loginGateway env args false server
  mapError GatewayConnectError.error (connectGateway env args server session)

/-- The login of `authenticate_gateway` with the portal's cookie; `none` if the gateway's own
prelogin has to be used. -/
def loginWithPortalCookie (config : PortalConfig) (gateway : Gateway) :
    Connect (Option GatewayLoginSession) :=
  if config.canAuthenticateGateway then do
    let result ← attempt (loginGateway env args (gateway.kind = .internal) gateway.server)
    match result with
    | .ok session => pure (some session)
    | .error error => do
      checkCancelled env
      let h ← get
      match h.terminal error with
      | .recoveryFailed first error => throw (.recoveryFailed first error)
      | .protocol => throw .protocol
      | _ => pure none
  else pure none

def authenticateGateway (config : PortalConfig) (gateway : Gateway) :
    Connect GatewayLoginSession := do
  checkCancelled env
  unlessCancelled env env.prelogin
  checkCancelled env
  let result ← loginWithPortalCookie env args config gateway
  match result with
  | some session => pure session
  | none => do
    obtainCredentialWithRecovery env
    checkCancelled env
    loginGateway env args (gateway.kind = .internal) gateway.server

/-! ### Internal gateways -/

/-- The checks of the candidates of a non-tunnel session; `hosts` are the hosts seen so far. -/
def checkCandidates (normalize : String → Except String String) (hosts : List String) :
    List Gateway → Except Error Unit
  | [] => .ok ()
  | gateway :: gateways =>
    if gateway.kind ≠ .internal then .error (.other "Non-tunnel candidates must be internal")
    else
      match normalize gateway.server with
      | .error error => .error (.other error)
      | .ok host =>
        if host ∈ hosts then .error (.other "Duplicate internal gateway")
        else checkCandidates normalize (host :: hosts) gateways

/-- Authenticates the remaining candidates; one that fails is logged out and left out. -/
def authenticateRemaining (config : PortalConfig) :
    List Gateway → List (Gateway × GatewayLoginSession) →
      Connect (List (Gateway × GatewayLoginSession))
  | [], authenticated => pure authenticated
  | gateway :: gateways, authenticated => do
    checkCancelled env
    let result ← attempt (authenticateGateway env args config gateway)
    match result with
    | .ok session => authenticateRemaining config gateways (authenticated ++ [(gateway, session)])
    | .error error => do
      logoutGateway gateway.server
      checkCancelled env
      let h ← get
      if h.dmabufDisabled then throw (h.terminal error)
      else authenticateRemaining config gateways authenticated

def internalSessionMode : List SessionMode → Except Error SessionMode
  | [] => .error (.other "No internal gateway authenticated successfully")
  | mode :: modes =>
    if modes.all (· = mode) then .ok mode
    else .error (.other ("Mixed tunnel and non-tunnel internal gateways are unsupported; " ++
      "select a gateway explicitly"))

/-- The debug form of a reason. -/
def reasonText : SessionEndReason → String
  | .invalidCookie => "InvalidCookie"
  | .networkChanged => "NetworkChanged"
  | .allMembersFailed => "AllMembersFailed"
  | .authorizationRevoked => "AuthorizationRevoked"

/-- Lends the ledger to `maintain_non_tunnel_sessions` and takes it back. The coordinator shares the
handler's token. -/
def maintain : Connect (Except NonTunnel.MaintenanceError NonTunnel.SessionExit) := do
  let labels ← ask env env.maintenance
  let h ← get
  let labels := (if h.cancelled then [NonTunnel.Label.cancel] else []) ++ labels
  let machine := NonTunnel.machine h.books.sessions.members
  match machine.run machine.init labels with
  | none => diverge
  | some s =>
    match s.coordinator with
    | .returned result => do
      modify fun h => { h with
        books := { h.books with sessions := h.books.sessions.rejoin s.ledger }
        cancelled := h.cancelled || s.cancelled }
      pure result
    | _ => diverge

/-- Validates the binding of each member. -/
def validateBindings : List (Gateway × GatewayLoginSession) → Connect Unit
  | [] => pure ()
  | _ :: authenticated => do
    require env env.prepare
    validateBindings authenticated

def runInternalSession (authenticated : List (Gateway × GatewayLoginSession)) : Connect Unit := do
  require env env.prepare
  ensure (authenticated.all fun member => member.2.bound) "Non-tunnel binding is missing"
  validateBindings env authenticated
  -- the policy and the HIP source
  require env env.prepare
  require env env.prepare
  requireIf env args.dashboard env.prepare
  let written ← ask env env.writePid
  modify (Handler.writePidFile · written)
  let result ← maintain env
  let run ← ask env env.internal
  ensure (!run.monitorFailed) "Internal network monitor failed"
  match (if args.dashboard then run.finishError <|> run.dashboardError else none), result with
  | some error, _ => throw (.other error)
  | none, .error error => throw (.other error.message)
  | none, .ok .disconnected => pure ()
  | none, .ok (.failed reason) =>
    throw (.other ("Internal session ended: " ++ reasonText reason ++
      ". Connect again to authenticate."))

def connectInternalGateways (config : PortalConfig) (first : Gateway)
    (session : GatewayLoginSession) (remaining : List Gateway) : Connect Unit := do
  ensure (!args.background) ("--background requires a VPN tunnel; internal non-tunnel sessions " ++
    "must run in the foreground")
  ensure (remaining.length < 64) "Too many internal non-tunnel candidates"
  ofExcept (checkCandidates env.normalize [] (first :: remaining))
  let authenticated ← authenticateRemaining env args config remaining [(first, session)]
  checkCancelled env
  let mode ← ofExcept (internalSessionMode (authenticated.map fun m => m.2.authentication.mode))
  ensure (mode = .nonTunnel) "Expected non-tunnel authentication"
  runInternalSession env args authenticated

/-! ### The portal -/

def connectGatewayWithFallback (config : PortalConfig) (gateway : Gateway)
    (remaining : List Gateway) : Flow Handler GatewayConnectError Unit := do
  let session ← before (authenticateGateway env args config gateway)
  if !args.cookieOnly && session.authentication.mode = .nonTunnel then
    if gateway.kind ≠ .internal then
      throw ⟨.afterEstablishment,
        .other "Non-tunnel authentication requires freshly discovered internal gateways"⟩
    else after (connectInternalGateways env args config gateway session remaining)
  else connectGateway env args gateway.server session

/-- The cookie of the cache, if it can authenticate a gateway. Neither of its uses is made when the
cookie comes from the standard input. -/
def cachedCookie : Connect (Option StoredCookie) :=
  if args.cookieCache && !args.cookieOnStdin then do
    let stored ← ask env env.storedCookie
    return stored.filter fun s => s.canAuthenticateGateway
  else pure none

/-- `try_cached_cookie`: `none` lets the caller go on with the portal. -/
def tryCachedCookie : Connect (Option (Except Error Unit)) := do
  let stored ← cachedCookie env args
  match stored with
  | none => pure none
  | some stored => do
    let login ← attempt (loginGateway env args false stored.lastGateway)
    match login with
    | .error error => do
      let cancelled ← isCancelled env
      if cancelled || error = .protocol then return some (.error error) else pure none
    | .ok session =>
      if session.authentication.mode = .nonTunnel && !args.cookieOnly then do
        logoutGateway stored.lastGateway
        return none
      else do
        let result ← attempt (connectGateway env args stored.lastGateway session)
        match result with
        | .ok () => return some (.ok ())
        | .error error => do
          let cancelled ← isCancelled env
          if cancelled then return some (.error error.error)
          else do
            logoutGateway stored.lastGateway
            return none

/-- The configuration that the portal gives for the cached credential. -/
def cachedConfig : Connect (Option PortalConfig) := do
  let cached ← cachedCookie env args
  match cached with
  | none => pure none
  | some _ => do
    let config ← ask env env.discover
    match config with
    | .ok config => pure (some config)
    | .error _ => do
      checkCancelled env
      pure none

/-- The part of `connect_portal_with_prelogin` that obtains the portal's configuration. -/
def portalConfig : Connect PortalConfig := do
  unlessCancelled env env.prelogin
  let cached ← cachedConfig env args
  match cached with
  | some config => pure config
  | none => do
    obtainCredentialWithRecovery env
    checkCancelled env
    let config ← ask env env.discover
    ofExcept config

/-- The automatic gateway loop over the gateways that are left, of `count`. -/
def autoGateways (config : PortalConfig) (count : ℕ) :
    List Gateway → Option Error → Connect Unit
  | [], last => throw (.other ("Auto-gateway: all " ++ toString count ++
      " gateway(s) failed to connect; last error: " ++
      (last.map Error.message).getD "unknown error"))
  | gateway :: gateways, _ => do
    let result ← attempt (connectGatewayWithFallback env args config gateway gateways)
    match result with
    | .ok () => pure ()
    | .error error => do
      logoutGateway gateway.server
      let h ← get
      if h.dmabufDisabled || error.stage = .afterEstablishment then
        throw (h.terminal error.error)
      else autoGateways config count gateways (some error.error)

/-- The gateway that was named, the only one, or the one that is selected from the list. -/
def selectGateway (config : PortalConfig) : Connect Gateway :=
  match args.gateway with
  | some name =>
    match config.findGateway name with
    | some gateway => pure gateway
    | none => throw (.other ("Cannot find gateway specified: " ++ name))
  | none =>
    match config.gateways with
    | [] => throw (.other "No gateways available in portal configuration")
    | [gateway] => pure gateway
    | gateway :: gateways => do
      let index ← require env env.select
      return (gateway :: gateways).getD index gateway

def connectPortalWithPrelogin : Connect Unit := do
  let config ← portalConfig env args
  checkCancelled env
  if args.autoGateway then do
    ensure (!config.gateways.isEmpty)
      "No gateways available in portal config for auto-gateway selection"
    autoGateways env args config config.gateways.length config.gateways none
  else do
    let gateway ← selectGateway env args config
    mapError GatewayConnectError.error (connectGatewayWithFallback env args config gateway [])

/-! ### The command -/

def handleImpl : Connect Unit := do
  checkCancelled env
  prepareCookieFromStdin env args
  if args.asGateway then connectGatewayWithPrelogin env args args.server
  else do
    let cached ← tryCachedCookie env args
    match cached with
    | some result => ofExcept result
    | none => do
      checkCancelled env
      let result ← attempt (connectPortalWithPrelogin env args)
      match result with
      | .ok () => pure ()
      | .error error => do
        let h ← get
        match h.terminal error with
        | .portal _ => connectGatewayWithPrelogin env args args.server
        | error => throw error

/-- The rounds of `handle_attempt`: a missing or wrong passphrase is asked for and tried again. -/
def handleRounds : ℕ → Connect Unit
  | 0 => diverge
  | fuel + 1 => do
    checkCancelled env
    let result ← attempt (handleImpl env args)
    let h ← get
    match result.mapError h.terminal with
    | .ok () => pure ()
    | .error (.identity .noKey) => pure ()
    | .error (.identity (.noPassphrase _)) => do
      require env env.prompt
      handleRounds fuel
    | .error (.identity (.decryptError _)) => do
      require env env.prompt
      handleRounds fuel
    | .error error => throw error

/-- The browsers that can listen for the result of an authentication. -/
def ConnectArgs.manualBrowser : Bool :=
  match args.browser with
  | some browser => browser.toLower = "manual" || browser.toLower = "remote"
  | none => false

def handleAttempt : Connect Unit := do
  ensure (!args.browserListen || args.manualBrowser)
    "The '--browser-listen' option requires '--browser manual'"
  ensure (!(args.defaultBrowser && args.browser.isSome))
    "Cannot use `--default-browser` and `--browser` options at the same time"
  handleRounds env args env.fuel

def handle : Connect Unit := do
  modify fun h => { h with firstFailure := none }
  let result ← attempt (handleAttempt env args)
  book fun b => { b with
    sessions :=
      if args.cookieOnly && result.isOk then b.sessions.relinquish else b.sessions.logout }
  let removed ← ask env env.removePid
  modify fun h => { h with lockFile := h.lockFile && !(h.pidWritten && removed) }
  ofExcept result

end GlobalProtect.Client
