import GlobalProtect.Lib.History
import GlobalProtect.Lib.Machine
import GlobalProtect.Lib.Runtime
import GlobalProtect.Auth.Recovery

/-! # Waiting for the authentication data

The loop `wait_for_auth`. One step is one turn of its `select!`: an event, a restart that completes,
or the loading deadline. A call to the window that fails ends the loop; whether one fails in a turn
is in the label.

The log records the events that were handled, the load failures of the loop's own (the deadline, a
restart that failed), the restarts that were planned and the beginnings of attempts. `attempt` is the part of it since the current attempt began. `Inv.clean` and `Inv.tls` tie
the recovery status to the attempt, and `Allowed` says which restarts may be planned after what. The
generation is a 64-bit word, and nothing depends on it not wrapping. -/

namespace GlobalProtect.Auth

open Lib

variable {δ : Type*}

/-! ### The loop -/

inductive Entry (δ : Type*) where
  | handled (e : AuthEvent δ)
  /-- The deadline expired, or a restart failed. -/
  | loadFailed
  | planned (plan : RetryPlan)
  | began
  deriving DecidableEq, Repr

/-- How the loop ends: with data, or with an error. -/
inductive Ending (δ : Type*) where
  | data (data : δ)
  | cancelled
  | serverTls
  | window
  deriving DecidableEq, Repr

structure Loop (δ : Type*) where
  recovery : Recovery := {}
  restart : Option RetryPlan := none
  /-- Whether `loading_deadline` is set. -/
  loadingDeadline : Bool := false
  generation : ℕ := 0
  log : List (Entry δ) := []
  ending : Option (Ending δ) := none
  deriving DecidableEq, Repr

/-- How a restart completes: the server's certificate failure is told apart. -/
inductive Restarted where
  | ok
  | serverTls
  | error
  deriving DecidableEq, Repr

inductive Label (δ : Type*) where
  | event (e : AuthEvent δ) (window : Bool)
  | restarted (result : Restarted) (window : Bool)
  | deadline (window : Bool)
  deriving DecidableEq, Repr

namespace Loop

variable (s : Loop δ)

def record (x : Entry δ) : Loop δ := { s with log := s.log ++ [x] }

def beginAttempt : Loop δ :=
  { s with generation := (s.generation + 1) % wordSize, log := s.log ++ [.began] }

/-- `update_recovery`, and the other calls to the window in the turn. -/
def update (window : Bool) : Loop δ := if window then s else { s with ending := some .window }

/-- A restart is planned: the page that is shown is fenced off. -/
def plan (p : RetryPlan) : Loop δ :=
  { (s.record (.planned p)).beginAttempt with loadingDeadline := false, restart := some p }

/-- The end of a turn. -/
def conclude (p : Option RetryPlan) (window : Bool) : Loop δ :=
  let s := match p with
    | some p => s.plan p
    | none => s
  let s := if s.recovery.status ≠ .loading then { s with loadingDeadline := false } else s
  s.update window

def setRecovery (recovery : Recovery) : Loop δ := { s with recovery }

/-- An event that is not fenced off is handled. -/
def handle (window : Bool) : AuthEvent δ → Loop δ
  | .close => { s with ending := some .cancelled }
  | .raiseWindow | .requestTlsException | .noAuthData _ _ => s.conclude none window
  | .error _ (.tls failure) =>
    { s with
      restart := none
      loadingDeadline := false
      recovery := s.recovery.tlsFailed failure.reason failure.canContinue }.conclude none window
  | .tlsAccepted _ =>
    (s.setRecovery s.recovery.certificateAccepted.1).conclude s.recovery.certificateAccepted.2 window
  | .error _ (.invalid _ _) => (s.setRecovery (s.recovery.failure false).1).conclude none window
  | .error _ .temporarilyUnavailable =>
    (s.setRecovery (s.recovery.failure true).1).conclude (s.recovery.failure true).2 window
  | .error _ (.loadFailed _) =>
    let s := if s.recovery.status = .loading ∨ s.recovery.status = .hidden ∨
        s.recovery.status = .certificateBypassed then
      { s with recovery := s.recovery.loadFailed, loadingDeadline := false } else s
    s.conclude none window
  | .retry => (s.setRecovery s.recovery.retry.1).conclude s.recovery.retry.2 window
  | .pageLoaded _ =>
    let s := s.setRecovery s.recovery.pageLoaded
    let s := if s.recovery.status.blocksPage = false then { s with loadingDeadline := false } else s
    s.conclude none window
  | .data _ data _ =>
    if s.recovery.status.acceptsAuthData then { s with ending := some (.data data) } else s

/-- The restart that was pending has completed. -/
def restarted (window : Bool) : Restarted → Loop δ
  | .ok =>
    { s.beginAttempt with
      restart := none
      recovery := s.recovery.loading
      loadingDeadline := true }.update window
  | .serverTls => { s with restart := none, ending := some .serverTls }
  | .error =>
    { s.record .loadFailed with
      restart := none
      recovery := s.recovery.loadFailed }.update window

end Loop

def step (s : Loop δ) (l : Label δ) : Option (Loop δ) :=
  if s.ending.isSome then none
  else
    match l with
    | .event e window =>
      if e.generation.any (· ≠ s.generation) then some s
      else some ((s.record (.handled e)).handle window e)
    | .restarted result window => if s.restart.isSome then some (s.restarted window result) else none
    | .deadline window =>
      if s.loadingDeadline then
        some ({ s.record .loadFailed with
          loadingDeadline := false
          recovery := s.recovery.loadFailed }.update window)
      else none

def waitForAuth : Machine (Loop δ) (Label δ) where
  init := {}
  step := step

/-! ### The log -/

/-- The entries since the current attempt began. -/
def attempt (log : List (Entry δ)) : List (Entry δ) :=
  log.foldl (fun entries x =>
    match x with
    | .began => []
    | x => entries ++ [x]) []

/-- A failure of the page was processed. -/
def Entry.failure : Entry δ → Bool
  | .handled (.error _ _) | .loadFailed => true
  | _ => false

def Entry.tls : Entry δ → Option (TlsFailureReason × Bool)
  | .handled (.error _ (.tls failure)) => some (failure.reason, failure.canContinue)
  | _ => none

/-- The last TLS failure among the entries. -/
def lastTls (entries : List (Entry δ)) : Option (TlsFailureReason × Bool) :=
  (entries.filterMap Entry.tls).getLast?

/-- An automatic restart was planned. -/
def Entry.automatic : Entry δ → Bool
  | .planned plan => plan.timing = .automaticDelay
  | _ => false

/-- Which restarts may be planned: one automatic one after a temporary failure, and otherwise one
for each retry of the user and for each certificate that the user accepted, if its failure was the
last one of the attempt and an exception was offered for it. -/
def Allowed (log : List (Entry δ)) : Entry δ → Prop
  | .planned plan =>
    (plan.timing = .automaticDelay ∧ (∀ x ∈ log, x.automatic = false) ∧
      ∃ before g, log = before ++ [.handled (.error g .temporarilyUnavailable)]) ∨
    (plan.timing = .immediate ∧ ∃ before, log = before ++ [.handled .retry]) ∨
    (plan.timing = .immediate ∧ ∃ before g reason, log = before ++ [.handled (.tlsAccepted g)] ∧
      lastTls (attempt before) = some (reason, true) ∧ reason.isCertificateError = true)
  | _ => True

variable {log : List (Entry δ)} {x : Entry δ}

@[simp] theorem attempt_began : attempt (log ++ [.began]) = [] := by simp [attempt]

theorem attempt_concat (hx : x ≠ .began) : attempt (log ++ [x]) = attempt log ++ [x] := by
  cases x with
  | began => exact absurd rfl hx
  | handled e => simp [attempt]
  | loadFailed => simp [attempt]
  | planned plan => simp [attempt]

theorem lastTls_concat {entries : List (Entry δ)} :
    lastTls (entries ++ [x]) = x.tls.or (lastTls entries) := by
  unfold lastTls
  cases hx : x.tls <;> simp [List.filterMap_append, hx]

theorem attempt_record (s : Loop δ) (e : AuthEvent δ) :
    attempt (s.record (.handled e)).log = attempt s.log ++ [.handled e] :=
  attempt_concat (by simp)

theorem Entry.tls_eq_none (h : x.failure = false) : x.tls = none := by
  cases x with
  | handled e =>
    cases e with
    | error generation error => cases h
    | _ => rfl
  | loadFailed => cases h
  | planned plan => rfl
  | began => rfl

/-! ### The invariant -/

/-- What holds in the middle of a turn too. -/
structure Core (s : Loop δ) : Prop where
  restarting : s.ending = none → (s.restart.isSome = true ↔ s.recovery.status = .restarting)
  clean : s.recovery.status.acceptsAuthData = true → ∀ x ∈ attempt s.log, x.failure = false
  tls : ∀ reason canContinue, s.recovery.status = .tls reason canContinue →
    lastTls (attempt s.log) = some (reason, canContinue)
  used : s.recovery.automaticRetryUsed = false → ∀ x ∈ s.log, x.automatic = false
  sound : History.Sound Allowed s.log

structure Inv (s : Loop δ) : Prop extends Core s where
  deadline : s.loadingDeadline = true → s.recovery.status = .loading

variable {s : Loop δ} {e : AuthEvent δ} {window : Bool}

theorem Core.restart_eq_none (h : Core s) (hend : s.ending = none)
    (haccepts : s.recovery.status.acceptsAuthData = true) : s.restart = none := by
  cases hr : s.restart with
  | none => rfl
  | some p =>
    have hst := (h.restarting hend).mp (by rw [hr]; rfl)
    rw [hst] at haccepts
    cases haccepts

theorem sound_handled (h : History.Sound Allowed s.log) (e : AuthEvent δ) :
    History.Sound Allowed (s.log ++ [.handled e]) := h.concat trivial

theorem Core.record (h : Core s) (he : (Entry.handled e).failure = false) :
    Core (s.record (.handled e)) where
  restarting := h.restarting
  clean haccepts := by
    rw [attempt_record]
    exact forall_mem_snoc (h.clean haccepts) he
  tls reason canContinue hst := by
    rw [attempt_record, lastTls_concat, Entry.tls_eq_none he]
    exact h.tls reason canContinue hst
  used hused := forall_mem_snoc (h.used hused) rfl
  sound := sound_handled h.sound e

theorem Core.record_ignored (h : Core s) (hrefuses : s.recovery.status.acceptsAuthData = false)
    (he : (Entry.handled e).tls = none) : Core (s.record (.handled e)) where
  restarting := h.restarting
  clean haccepts := by
    have hst : s.recovery.status.acceptsAuthData = true := haccepts
    rw [hrefuses] at hst
    cases hst
  tls reason canContinue hst := by
    rw [attempt_record, lastTls_concat, he]
    exact h.tls reason canContinue hst
  used hused := forall_mem_snoc (h.used hused) rfl
  sound := sound_handled h.sound e

theorem Core.stopped {status : RecoveryStatus} (hst : s.recovery.status = status)
    (hstopped : status = .failed ∨ status = .rejected) (hrestart : s.restart = none)
    (hused : s.recovery.automaticRetryUsed = false → ∀ x ∈ s.log, x.automatic = false)
    (hsound : History.Sound Allowed s.log) : Core s := by
  refine ⟨fun _ => ?_, fun haccepts => ?_, fun reason canContinue htls => ?_, hused, hsound⟩
  · rw [hrestart, hst]
    rcases hstopped with rfl | rfl <;> simp
  · rw [hst] at haccepts
    rcases hstopped with rfl | rfl <;> cases haccepts
  · rw [hst] at htls
    rcases hstopped with rfl | rfl <;> cases htls

/-- A load failure of the loop's own. -/
theorem Core.loadFailed {s' : Loop δ} (h : Core s) (hlog : s'.log = s.log ++ [.loadFailed])
    (hrecovery : s'.recovery = s.recovery.loadFailed) (hrestart : s'.restart = none) :
    Core s' := by
  refine Core.stopped (by rw [hrecovery]; rfl) (Or.inl rfl) hrestart (fun hused => ?_) ?_
  · rw [hrecovery] at hused
    rw [hlog]
    exact forall_mem_snoc (h.used hused) rfl
  · rw [hlog]
    exact h.sound.concat trivial

theorem Core.plan {p : RetryPlan} (hst : s.recovery.status = .restarting)
    (hused : s.recovery.automaticRetryUsed = false →
      ∀ x ∈ s.log ++ [.planned p], x.automatic = false)
    (hsound : History.Sound Allowed s.log) (hallowed : Allowed s.log (.planned p)) :
    Core (s.plan p) where
  restarting _ := ⟨fun _ => hst, fun _ => rfl⟩
  clean haccepts := by
    have haccepts' : s.recovery.status.acceptsAuthData = true := haccepts
    rw [hst] at haccepts'
    cases haccepts'
  tls reason canContinue htls := by
    have htls' : s.recovery.status = .tls reason canContinue := htls
    rw [hst] at htls'
    cases htls'
  used hused' := forall_mem_snoc (hused hused') rfl
  sound := (hsound.concat hallowed).concat trivial

theorem Inv.update (h : Inv s) (window : Bool) : Inv (s.update window) := by
  unfold Loop.update
  split_ifs
  · exact h
  · exact ⟨⟨fun hend => (by cases hend), h.clean, h.tls, h.used, h.sound⟩, h.deadline⟩

theorem Core.conclude (h : Core s) (window : Bool) : Inv (s.conclude none window) := by
  unfold Loop.conclude
  dsimp only
  refine Inv.update ?_ window
  split_ifs with hst
  · exact ⟨⟨h.restarting, h.clean, h.tls, h.used, h.sound⟩, fun hd => by cases hd⟩
  · exact ⟨h, fun _ => not_not.mp hst⟩

theorem Core.conclude_plan {p : RetryPlan} (h : Core (s.plan p)) (window : Bool) :
    Inv (s.conclude (some p) window) := by
  have heq : s.conclude (some p) window = (s.plan p).conclude none window := rfl
  rw [heq]
  exact h.conclude window

/-! ### One turn -/

theorem Inv.error (h : Inv s) (hend : s.ending = none) (g : ℕ) (error : AuthError) :
    Inv ((s.record (.handled (.error g error))).handle window (.error g error)) := by
  have hused := fun hu => forall_mem_snoc (a := .handled (.error g error)) (h.used hu) rfl
  have hsound := sound_handled h.sound (.error g error)
  cases error with
  | tls failure =>
    -- the failure is the last one of the attempt
    refine Core.conclude ⟨fun _ => ?_, fun haccepts => ?_, ?_, hused, hsound⟩ window
    · simp [Recovery.tlsFailed]
    · cases haccepts
    · intro reason canContinue hst
      obtain ⟨rfl, rfl⟩ := RecoveryStatus.tls.inj hst
      exact (congrArg lastTls (attempt_record s _)).trans lastTls_concat
  | invalid error location =>
    rcases s.recovery.failure_cases false with
      ⟨hrefuses, heq⟩ | ⟨haccepts, status, hstopped, heq⟩ | ⟨htemp, -, -⟩
    · refine Core.conclude ?_ window
      rw [show (s.record _).recovery = s.recovery from rfl, heq]
      exact h.toCore.record_ignored hrefuses rfl
    · refine Core.conclude ?_ window
      rw [show (s.record _).recovery = s.recovery from rfl, heq]
      exact Core.stopped rfl hstopped (h.toCore.restart_eq_none hend haccepts) hused hsound
    · cases htemp
  | temporarilyUnavailable =>
    unfold Loop.handle
    rw [show (s.record (.handled (.error g .temporarilyUnavailable))).recovery = s.recovery from rfl]
    rcases s.recovery.failure_cases true with
      ⟨hrefuses, heq⟩ | ⟨haccepts, status, hstopped, heq⟩ | ⟨-, hunused, heq⟩ <;> rw [heq]
    · exact Core.conclude (h.toCore.record_ignored hrefuses rfl) window
    · refine Core.conclude ?_ window
      exact Core.stopped rfl hstopped (h.toCore.restart_eq_none hend haccepts) hused hsound
    · -- the one automatic restart
      refine Core.conclude_plan (Core.plan rfl (fun hu => by cases hu) hsound ?_) window
      exact Or.inl ⟨rfl, hused hunused, s.log, g, rfl⟩
  | loadFailed error =>
    unfold Loop.handle
    refine Core.conclude ?_ window
    rw [show (s.record (.handled (.error g (.loadFailed error)))).recovery = s.recovery from rfl]
    by_cases haccepts : s.recovery.status.acceptsAuthData = true
    · have hst : s.recovery.status = .loading ∨ s.recovery.status = .hidden ∨
          s.recovery.status = .certificateBypassed := by
        rcases RecoveryStatus.acceptsAuthData_iff.mp haccepts with h₁ | h₂ | h₃
        · exact Or.inr (Or.inl h₁)
        · exact Or.inl h₂
        · exact Or.inr (Or.inr h₃)
      rw [if_pos hst]
      exact Core.stopped rfl (Or.inl rfl) (h.toCore.restart_eq_none hend haccepts) hused hsound
    · have hst : ¬ (s.recovery.status = .loading ∨ s.recovery.status = .hidden ∨
          s.recovery.status = .certificateBypassed) := by
        rintro (h₁ | h₂ | h₃) <;> simp_all [RecoveryStatus.acceptsAuthData]
      rw [if_neg hst]
      exact h.toCore.record_ignored (Bool.eq_false_iff.mpr haccepts) rfl

theorem Inv.event (h : Inv s) (hend : s.ending = none) (e : AuthEvent δ) :
    Inv ((s.record (.handled e)).handle window e) := by
  cases e with
  | error g error => exact h.error hend g error
  | close =>
    have hcore := h.toCore.record (e := .close) rfl
    exact ⟨⟨fun hend => (by cases hend), hcore.clean, hcore.tls, hcore.used, hcore.sound⟩,
      h.deadline⟩
  | raiseWindow | requestTlsException | noAuthData g location =>
    exact (h.toCore.record rfl).conclude window
  | data g data location =>
    have hcore := h.toCore.record (e := .data g data location) rfl
    dsimp only [Loop.handle]
    split_ifs
    · exact ⟨⟨fun hend => (by cases hend), hcore.clean, hcore.tls, hcore.used, hcore.sound⟩,
        h.deadline⟩
    · exact ⟨hcore, h.deadline⟩
  | retry =>
    have hcore := h.toCore.record (e := .retry) rfl
    unfold Loop.handle
    rw [show (s.record (.handled .retry)).recovery = s.recovery from rfl]
    rcases s.recovery.retry_cases with heq | ⟨source, heq⟩ <;> rw [heq]
    · exact hcore.conclude window
    · refine Core.conclude_plan ?_ window
      refine Core.plan rfl (fun hu => ?_) hcore.sound ?_
      · exact forall_mem_snoc (hcore.used hu) rfl
      · exact Or.inr (Or.inl ⟨rfl, s.log, rfl⟩)
  | tlsAccepted g =>
    have hcore := h.toCore.record (e := .tlsAccepted g) rfl
    unfold Loop.handle
    rw [show (s.record (.handled (.tlsAccepted g))).recovery = s.recovery from rfl]
    rcases s.recovery.certificateAccepted_cases with heq | ⟨hcan, heq⟩ <;> rw [heq]
    · exact hcore.conclude window
    · -- the status still is the last failure, for which an exception was offered
      obtain ⟨reason, hst, hcert⟩ := RecoveryStatus.canContinue_iff.mp hcan
      refine Core.conclude_plan ?_ window
      refine Core.plan rfl (fun hu => ?_) hcore.sound ?_
      · exact forall_mem_snoc (hcore.used hu) rfl
      · exact Or.inr (Or.inr ⟨rfl, s.log, g, reason, rfl, h.tls reason true hst, hcert⟩)
  | pageLoaded g =>
    have hcore := h.toCore.record (e := .pageLoaded g) rfl
    unfold Loop.handle
    refine Core.conclude ?_ window
    rw [show (s.record (.handled (.pageLoaded g))).recovery = s.recovery from rfl]
    have hloaded : Core ((s.record (.handled (.pageLoaded g))).setRecovery
        s.recovery.pageLoaded) := by
      rcases s.recovery.pageLoaded_cases with ⟨-, heq⟩ | ⟨hst, status, hstatus, heq⟩ <;> rw [heq]
      · exact hcore
      · have haccepts : s.recovery.status.acceptsAuthData = true := by rw [hst]; rfl
        have hnone := h.toCore.restart_eq_none hend haccepts
        refine ⟨fun _ => ?_, fun _ => hcore.clean haccepts, fun reason canContinue htls => ?_,
          hcore.used, hcore.sound⟩
        · rw [show (Loop.setRecovery (s.record (.handled (.pageLoaded g))) _).restart = none
            from hnone]
          rcases hstatus with rfl | rfl <;> simp [Loop.setRecovery]
        · rcases hstatus with rfl | rfl <;> cases htls
    split_ifs
    · exact ⟨hloaded.restarting, hloaded.clean, hloaded.tls, hloaded.used, hloaded.sound⟩
    · exact hloaded

theorem Inv.restarted (h : Inv s) (hend : s.ending = none) (hpending : s.restart.isSome = true)
    (result : Restarted) : Inv (s.restarted window result) := by
  have hst := (h.restarting hend).mp hpending
  cases result with
  | ok =>
    have hallowed : Allowed s.log (.began : Entry δ) := trivial
    refine Inv.update ⟨⟨fun _ => ?_, fun _ x hx => ?_, fun reason canContinue htls => ?_,
      fun hu => ?_, h.sound.concat hallowed⟩, fun _ => rfl⟩ window
    · simp [Recovery.loading]
    · -- a new attempt has begun
      change x ∈ attempt (s.log ++ [.began]) at hx
      rw [attempt_began] at hx
      cases hx
    · cases htls
    · exact forall_mem_snoc (h.used hu) rfl
  | serverTls =>
    exact ⟨⟨fun hend => (by cases hend), h.clean, h.tls, h.used, h.sound⟩, h.deadline⟩
  | error =>
    refine Inv.update ⟨?_, fun hd => ?_⟩ window
    · exact h.toCore.loadFailed rfl rfl rfl
    have hload := h.deadline hd
    rw [hst] at hload
    cases hload

theorem Inv.step {s' : Loop δ} {l : Label δ} (h : Inv s) (hs : step s l = some s') : Inv s' := by
  obtain ⟨hend, hs⟩ := Option.ite_none_left_eq_some.mp hs
  rw [Option.not_isSome_iff_eq_none] at hend
  cases l with
  | event e window =>
    dsimp only at hs
    split_ifs at hs <;> cases hs
    · exact h
    · exact h.event hend e
  | restarted result window =>
    obtain ⟨hpending, rfl⟩ := Option.ite_some_none_eq_some.mp hs
    exact h.restarted hend hpending result
  | deadline window =>
    obtain ⟨harmed, rfl⟩ := Option.ite_some_none_eq_some.mp hs
    have haccepts : s.recovery.status.acceptsAuthData = true := by rw [h.deadline harmed]; rfl
    refine Inv.update ⟨?_, fun hd => by cases hd⟩ window
    exact h.toCore.loadFailed rfl rfl (h.toCore.restart_eq_none hend haccepts)

theorem reachable_inv (hs : (waitForAuth (δ := δ)).Reachable s) : Inv s := by
  refine hs.invariant (P := Inv) ?_ fun s l s' _ h hstep => h.step hstep
  refine ⟨⟨fun _ => ?_, fun _ x hx => ?_, fun _ _ htls => ?_, fun _ x hx => ?_,
    History.Sound.nil⟩, fun hd => ?_⟩
  · simp [waitForAuth]
  · cases hx
  · cases htls
  · cases hx
  · cases hd

/-! ### The guarantees -/

/-- What the user did: asked for a retry, or accepted a certificate. -/
def AuthEvent.userAction : AuthEvent δ → Bool
  | .retry | .tlsAccepted _ => true
  | _ => false

theorem conclude_ending (hend : s.ending = none) (p : Option RetryPlan) (window : Bool) (d : δ) :
    (s.conclude p window).ending ≠ some (.data d) := by
  have hplan : ∀ s : Loop δ, s.ending = none → (s.conclude none window).ending ≠ some (.data d) := by
    intro s hend
    dsimp only [Loop.conclude, Loop.update]
    split_ifs <;> simp [hend]
  cases p with
  | none => exact hplan s hend
  | some p => exact hplan (s.plan p) hend

/-- Only an event with data ends the loop with data, and only while data is accepted. -/
theorem handle_data {d : δ} (hend : s.ending = none)
    (hd : (s.handle window e).ending = some (.data d)) :
    s.recovery.status.acceptsAuthData = true ∧ ∃ g location, e = .data g d location := by
  cases e with
  | data g data location =>
    dsimp only [Loop.handle] at hd
    split_ifs at hd with haccepts
    · obtain rfl := Ending.data.inj (Option.some.inj hd)
      exact ⟨haccepts, g, location, rfl⟩
    · rw [hend] at hd; cases hd
  | close => cases hd
  | raiseWindow | requestTlsException | noAuthData g location | retry | tlsAccepted g =>
    exact absurd hd (conclude_ending (by exact hend) _ window d)
  | pageLoaded g =>
    refine absurd hd (conclude_ending ?_ _ window d)
    split_ifs <;> exact hend
  | error g error =>
    cases error with
    | loadFailed error =>
      refine absurd hd (conclude_ending ?_ _ window d)
      split_ifs <;> exact hend
    | tls failure | temporarilyUnavailable | invalid error location =>
      exact absurd hd (conclude_ending (by exact hend) _ window d)

theorem update_ending (hend : s.ending = none) (d : δ) :
    (s.update window).ending ≠ some (.data d) := by
  unfold Loop.update
  split_ifs <;> simp [hend]

/-- Data is returned from an event of the current generation, in an attempt without failures. -/
theorem Inv.data (h : Inv s) {l : Label δ} {s' : Loop δ} {d : δ} (hs : Auth.step s l = some s')
    (hd : s'.ending = some (.data d)) :
    ∃ location window, l = .event (.data s.generation d location) window ∧
      ∀ x ∈ attempt s.log, x.failure = false := by
  obtain ⟨hend, hs⟩ := Option.ite_none_left_eq_some.mp hs
  rw [Option.not_isSome_iff_eq_none] at hend
  cases l with
  | event e window =>
    dsimp only at hs
    split_ifs at hs with hfence <;> cases hs
    · rw [hend] at hd; cases hd
    · obtain ⟨haccepts, g, location, rfl⟩ := handle_data (by exact hend) hd
      have hg : g = s.generation := by simpa [AuthEvent.generation] using hfence
      exact ⟨location, window, by rw [hg], h.clean haccepts⟩
  | restarted result window =>
    obtain ⟨-, rfl⟩ := Option.ite_some_none_eq_some.mp hs
    cases result with
    | serverTls => cases hd
    | ok | error => exact absurd hd (update_ending (by exact hend) d)
  | deadline window =>
    obtain ⟨-, rfl⟩ := Option.ite_some_none_eq_some.mp hs
    exact absurd hd (update_ending (by exact hend) d)

theorem countP_automatic_le (h : History.Sound Allowed log) : log.countP Entry.automatic ≤ 1 := by
  induction log using List.reverseRecOn with
  | nil => exact Nat.zero_le 1
  | append_singleton log x ih =>
    obtain ⟨hlog, hx⟩ := h.of_concat
    rw [List.countP_append, List.countP_singleton]
    by_cases hauto : x.automatic = true
    · have hnone : log.countP Entry.automatic = 0 := by
        rw [List.countP_eq_zero]
        intro y hy
        cases x with
        | planned plan =>
          have htiming : plan.timing = .automaticDelay := of_decide_eq_true hauto
          rcases hx with ⟨-, hfirst, -⟩ | ⟨himm, -⟩ | ⟨himm, -⟩
          · rw [hfirst y hy]
            exact Bool.false_ne_true
          · rw [htiming] at himm; cases himm
          · rw [htiming] at himm; cases himm
        | handled e => cases hauto
        | loadFailed => cases hauto
        | began => cases hauto
      rw [hnone, if_pos hauto]
    · rw [if_neg hauto]
      exact ih hlog

/-- **The sign-in is fenced**: a restart is pending exactly while the status says so, and the
deadline is armed only while loading; data is returned only from the current generation and from an
attempt without failures; an accepted certificate leads to a restart only if its failure was the
last one of the attempt, a certificate error with an exception on offer; one restart at most is
automatic, and every other one follows an action of the user of its own. -/
theorem sign_in_fenced {s : Loop δ} (hs : waitForAuth.Reachable s) :
    (s.ending = none → (s.restart.isSome = true ↔ s.recovery.status = .restarting)) ∧
    (s.loadingDeadline = true → s.recovery.status = .loading) ∧
    (∀ l s' d, step s l = some s' → s'.ending = some (.data d) →
      ∃ location window, l = .event (.data s.generation d location) window ∧
        ∀ x ∈ attempt s.log, x.failure = false) ∧
    (∀ before g plan after,
      s.log = before ++ .handled (.tlsAccepted g) :: .planned plan :: after →
      ∃ reason, lastTls (attempt before) = some (reason, true) ∧
        reason.isCertificateError = true) ∧
    s.log.countP Entry.automatic ≤ 1 ∧
    ∀ before plan after, s.log = before ++ .planned plan :: after →
      plan.timing = .automaticDelay ∨
        ∃ earlier e, before = earlier ++ [.handled e] ∧ e.userAction = true := by
  have h := reachable_inv hs
  refine ⟨h.restarting, h.deadline, fun l s' d hstep hd => h.data hstep hd, ?_,
    countP_automatic_le h.sound, ?_⟩
  · intro before g plan after hlog
    rw [List.append_cons] at hlog
    rcases h.sound _ _ _ hlog with ⟨-, -, before', g', heq⟩ | ⟨-, before', heq⟩ |
      ⟨-, before', g', reason, heq, htls, hcert⟩
    · cases (List.append_inj' heq rfl).2
    · cases (List.append_inj' heq rfl).2
    · obtain rfl := (List.append_inj' heq rfl).1
      exact ⟨reason, htls, hcert⟩
  · intro before plan after hlog
    rcases h.sound _ _ _ hlog with ⟨htiming, -⟩ | ⟨-, earlier, heq⟩ | ⟨-, earlier, g, reason, heq, -⟩
    · exact Or.inl htiming
    · exact Or.inr ⟨earlier, .retry, heq, rfl⟩
    · exact Or.inr ⟨earlier, .tlsAccepted g, heq, rfl⟩

/-- A temporary failure, the automatic restart, and a late event of the first page; then data, unless
the deadline expires first. -/
theorem sign_in_fenced_restarted :
    ∃ s : Loop ℕ, waitForAuth.Reachable s ∧ s.generation = 2 ∧
      step s (.event (.data 0 7 .body) true) = some s ∧
      (∃ s', step s (.event (.data 2 7 .body) true) = some s' ∧ s'.ending = some (.data 7) ∧
        ∀ x ∈ attempt s.log, x.failure = false) ∧
      (∃ s', step s (.deadline true) = some s' ∧ attempt s'.log = [.loadFailed] ∧
        (step s' (.event (.data 2 7 .body) true)).bind Loop.ending = none) ∧
      s.log.countP Entry.automatic ≤ 1 := by
  have hr : (waitForAuth (δ := ℕ)).Reachable _ :=
    ⟨[.event (.error 0 .temporarilyUnavailable) true, .restarted .ok true], rfl⟩
  obtain ⟨-, -, hdata, -, hauto, -⟩ := sign_in_fenced hr
  obtain ⟨_, _, -, hclean⟩ := hdata (.event (.data 2 7 .body) true) _ 7 rfl rfl
  exact ⟨_, hr, rfl, rfl, ⟨_, rfl, rfl, hclean⟩, ⟨_, rfl, rfl, rfl⟩, hauto⟩

end GlobalProtect.Auth
