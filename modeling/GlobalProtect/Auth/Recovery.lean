import Mathlib.Data.Nat.Notation
import Mathlib.Tactic.SplitIfs
import Mathlib.Tactic.TypeStar

/-! # Recovering an embedded sign-in

The state of `recovery.rs` and the events of `auth_messenger.rs`, with the authentication data left
open. `Recovery.failure_cases`, `Recovery.retry_cases` and `Recovery.certificateAccepted_cases` say
what an operation that may plan a restart does. -/

namespace GlobalProtect.Auth

/-! ### TLS failures -/

inductive TlsFailureReason where
  | expired
  | notYetValid
  | untrusted
  | hostnameMismatch
  | invalidCertificate
  | handshake
  deriving DecidableEq, Repr

def TlsFailureReason.isCertificateError (r : TlsFailureReason) : Bool := r ≠ .handshake

structure TlsFailure where
  host : String
  reason : TlsFailureReason
  canContinue : Bool
  deriving DecidableEq, Repr

/-! ### The recovery state -/

inductive RecoveryStatus where
  | hidden
  | restarting
  | loading
  | failed
  | rejected
  | tls (reason : TlsFailureReason) (canContinue : Bool)
  | certificateBypassed
  deriving DecidableEq, Repr

namespace RecoveryStatus

def canContinue : RecoveryStatus → Bool
  | .tls reason canContinue => canContinue && reason.isCertificateError
  | _ => false

def blocksPage : RecoveryStatus → Bool
  | .hidden | .certificateBypassed => false
  | _ => true

def acceptsAuthData : RecoveryStatus → Bool
  | .hidden | .loading | .certificateBypassed => true
  | _ => false

def canRetry : RecoveryStatus → Bool
  | .failed | .rejected | .tls .handshake _ => true
  | _ => false

end RecoveryStatus

inductive RetrySource where
  | freshPrelogin
  | suppliedRequest
  deriving DecidableEq, Repr

inductive RetryTiming where
  | immediate
  | automaticDelay
  deriving DecidableEq, Repr

structure RetryPlan where
  source : RetrySource
  timing : RetryTiming
  deriving DecidableEq, Repr

structure Recovery where
  status : RecoveryStatus := .hidden
  automaticRetryUsed : Bool := false
  certificateBypassed : Bool := false
  deriving DecidableEq, Repr

namespace Recovery

variable (r : Recovery)

def loading : Recovery := { r with status := .loading }

def loadFailed : Recovery := { r with status := .failed }

def tlsFailed (reason : TlsFailureReason) (canContinue : Bool) : Recovery :=
  { r with status := .tls reason canContinue }

def certificateAccepted : Recovery × Option RetryPlan :=
  if r.status.canContinue then
    ({ r with certificateBypassed := true, status := .restarting },
      some ⟨.suppliedRequest, .immediate⟩)
  else (r, none)

/-- A failure is ignored while one is already being handled. -/
def failure (temporary : Bool) : Recovery × Option RetryPlan :=
  if r.status = .hidden ∨ r.status = .loading ∨ r.status = .certificateBypassed then
    if temporary && !r.automaticRetryUsed then
      ({ r with automaticRetryUsed := true, status := .restarting },
        some ⟨.freshPrelogin, .automaticDelay⟩)
    else ({ r with status := if temporary then .failed else .rejected }, none)
  else (r, none)

def retry : Recovery × Option RetryPlan :=
  if r.status.canRetry then
    let source := match r.status with
      | .tls _ _ => .suppliedRequest
      | _ => .freshPrelogin
    ({ r with status := .restarting }, some ⟨source, .immediate⟩)
  else (r, none)

def pageLoaded : Recovery :=
  if r.status = .loading then
    { r with status := if r.certificateBypassed then .certificateBypassed else .hidden }
  else r

end Recovery

variable {r : Recovery}

theorem RecoveryStatus.canContinue_iff {status : RecoveryStatus} :
    status.canContinue = true ↔
      ∃ reason, status = .tls reason true ∧ reason.isCertificateError = true := by
  cases status with
  | tls reason canContinue => cases canContinue <;> simp [canContinue]
  | _ => simp [canContinue]

theorem RecoveryStatus.acceptsAuthData_iff {status : RecoveryStatus} :
    status.acceptsAuthData = true ↔
      status = .hidden ∨ status = .loading ∨ status = .certificateBypassed := by
  cases status <;> simp [acceptsAuthData]

theorem Recovery.certificateAccepted_cases (r : Recovery) :
    r.certificateAccepted = (r, none) ∨ r.status.canContinue = true ∧
      r.certificateAccepted = ({ r with certificateBypassed := true, status := .restarting },
        some ⟨.suppliedRequest, .immediate⟩) := by
  unfold certificateAccepted
  split_ifs with hcan
  · exact Or.inr ⟨hcan, rfl⟩
  · exact Or.inl rfl

theorem Recovery.retry_cases (r : Recovery) :
    r.retry = (r, none) ∨ ∃ source, r.retry =
      ({ r with status := .restarting }, some ⟨source, .immediate⟩) := by
  unfold retry
  split_ifs
  · exact Or.inr ⟨_, rfl⟩
  · exact Or.inl rfl

theorem Recovery.failure_cases (r : Recovery) (temporary : Bool) :
    (r.status.acceptsAuthData = false ∧ r.failure temporary = (r, none)) ∨
    (r.status.acceptsAuthData = true ∧ ∃ status, (status = .failed ∨ status = .rejected) ∧
      r.failure temporary = ({ r with status }, none)) ∨
    (temporary = true ∧ r.automaticRetryUsed = false ∧ r.failure temporary =
      ({ r with automaticRetryUsed := true, status := .restarting },
        some ⟨.freshPrelogin, .automaticDelay⟩)) := by
  unfold failure
  by_cases haccepts : r.status.acceptsAuthData = true
  · rw [if_pos (RecoveryStatus.acceptsAuthData_iff.mp haccepts)]
    by_cases hauto : (temporary && !r.automaticRetryUsed) = true
    · rw [if_pos hauto]
      rw [Bool.and_eq_true, Bool.not_eq_true'] at hauto
      exact Or.inr (Or.inr ⟨hauto.1, hauto.2, rfl⟩)
    · rw [if_neg hauto]
      refine Or.inr (Or.inl ⟨haccepts, _, ?_, rfl⟩)
      cases temporary
      · exact Or.inr rfl
      · exact Or.inl rfl
  · rw [if_neg fun h => haccepts (RecoveryStatus.acceptsAuthData_iff.mpr h)]
    exact Or.inl ⟨Bool.eq_false_iff.mpr haccepts, rfl⟩

theorem Recovery.pageLoaded_cases (r : Recovery) :
    (r.status ≠ .loading ∧ r.pageLoaded = r) ∨
    (r.status = .loading ∧ ∃ status, (status = .hidden ∨ status = .certificateBypassed) ∧
      r.pageLoaded = { r with status }) := by
  unfold pageLoaded
  split_ifs with hload hbypassed
  · exact Or.inr ⟨hload, _, Or.inr rfl, rfl⟩
  · exact Or.inr ⟨hload, _, Or.inl rfl, rfl⟩
  · exact Or.inl ⟨hload, rfl⟩

/-! ### Events -/

inductive AuthDataLocation where
  | headers
  | body
  deriving DecidableEq, Repr

inductive AuthError where
  | tls (failure : TlsFailure)
  | temporarilyUnavailable
  | loadFailed (error : String)
  | invalid (error : String) (location : AuthDataLocation)
  deriving DecidableEq, Repr

/-- The events, with authentication data `δ`; those of a page carry the generation in which the page
was read. -/
inductive AuthEvent (δ : Type*) where
  | data (generation : ℕ) (data : δ) (location : AuthDataLocation)
  | error (generation : ℕ) (error : AuthError)
  | noAuthData (generation : ℕ) (location : AuthDataLocation)
  | pageLoaded (generation : ℕ)
  | retry
  | requestTlsException
  | tlsAccepted (generation : ℕ)
  | raiseWindow
  | close
  deriving DecidableEq, Repr

variable {δ : Type*}

def AuthEvent.generation : AuthEvent δ → Option ℕ
  | .data generation _ _ | .error generation _ | .noAuthData generation _
  | .pageLoaded generation | .tlsAccepted generation => some generation
  | .retry | .requestTlsException | .raiseWindow | .close => none

end GlobalProtect.Auth
