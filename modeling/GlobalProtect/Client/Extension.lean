import GlobalProtect.Api.Types
import GlobalProtect.Lib.Machine
import GlobalProtect.Lib.Spacing
import Mathlib.Algebra.Ring.Nat

/-! # Extending the session

`run_session_runtime` (`gpclient`, `session.rs`): a wait until the warning is due, a request to
extend the session, and a new expiry that is the time of the answer plus the lifetime. The machine
has one step for each reading of the clock. A clock does not go backwards, and a sleep takes at
least as long as asked.

The wait is what is left of the lifetime before the warning. A gateway chooses both, and if the
warning is to come before the session has begun, nothing is left: then the requests follow each
other at once (`spinning`). They have a distance of a second in the runs where something is left
(`requests_spaced`). -/

namespace GlobalProtect.Client.Extension

open Api Lib

/-- A time is a number of nanoseconds since the epoch. -/
def second : ℕ := 10 ^ 9

def unixTimestamp (time : ℕ) : ℕ := time / second % 2 ^ 32

def saturatingAdd (a b : ℕ) : ℕ := min (a + b) (2 ^ 32 - 1)

/-- `SessionInfo::rescheduled_after_extension`, which reads the clock twice. -/
def rescheduledAfterExtension (info : SessionInfo) (read shown : ℕ) : Option SessionInfo := do
  let lifetime ← info.lifetimeSecs
  let info := { info with userExpires := some (saturatingAdd (unixTimestamp read) lifetime) }
  return info.withComputedHumanTimes (unixTimestamp shown)

structure SessionWarningSchedule where
  /-- In seconds. -/
  delay : ℕ
  message : String
  shouldAutoExtend : Bool
  deriving DecidableEq, Repr

def buildSessionWarningSchedule (info : SessionInfo) (now : ℕ) : Option SessionWarningSchedule := do
  let warning ← info.lifetimeWarning
  let warningSecs ← match info.userExpires, info.lifetimeSecs with
    | some expires, _ => some (expires - warning.priorSecs - unixTimestamp now)
    | none, some lifetime => some (lifetime - warning.priorSecs)
    | none, none => none
  return { delay := warningSecs, message := warning.message,
           shouldAutoExtend := info.allowExtendSession }

inductive Level where
  | info
  | warn
  deriving DecidableEq, Repr

/-- Where the loop is; `after` is the time when the extension before has been answered. -/
inductive Phase where
  | scheduling (info : SessionInfo) (after : Option ℕ)
  | sleeping (info : SessionInfo) (after : Option ℕ) (since : ℕ) (schedule : SessionWarningSchedule)
  | extending (info : SessionInfo)
  | stopped
  deriving DecidableEq, Repr

/-- A call of `extend_session`, with the wait before it. -/
structure Request where
  after : Option ℕ
  scheduledAt : ℕ
  delay : ℕ
  requestedAt : ℕ
  deriving DecidableEq, Repr

structure State where
  now : ℕ
  phase : Phase
  requests : List Request := []
  reports : List (Level × String) := []
  deriving DecidableEq, Repr

inductive Label where
  | schedule (now : ℕ)
  | wake (now : ℕ)
  | answer (read shown : ℕ) (result : Except String Unit)

namespace State

def schedule (s : State) (info : SessionInfo) (after : Option ℕ) (now : ℕ) : State :=
  match buildSessionWarningSchedule info now with
  | none => { s with now, phase := .stopped }
  | some schedule => { s with now, phase := .sleeping info after now schedule }

def wake (s : State) (info : SessionInfo) (after : Option ℕ) (since : ℕ)
    (schedule : SessionWarningSchedule) (now : ℕ) : State :=
  let s : State := { s with now, reports := s.reports ++ [(.warn, "\nWARNING: " ++ schedule.message)] }
  if schedule.shouldAutoExtend then
    { s with
      phase := .extending info
      requests := s.requests ++ [⟨after, since, schedule.delay, now⟩] }
  else { s with phase := .stopped }

def answer (s : State) (info : SessionInfo) (read shown : ℕ) : Except String Unit → State
  | .ok () =>
    match rescheduledAfterExtension info read shown with
    | none => { s with now := shown, phase := .stopped }
    | some next =>
      { s with
        now := shown
        phase := .scheduling next (some read)
        reports := s.reports ++ [(.info, "Session extended.")] }
  | .error err =>
    { s with
      now := shown
      phase := .stopped
      reports := s.reports ++ [(.warn, "WARNING: Failed to extend session: " ++ err)] }

def step (s : State) : Label → Option State
  | .schedule now =>
    match s.phase with
    | .scheduling info after => if s.now ≤ now then some (s.schedule info after now) else none
    | _ => none
  | .wake now =>
    match s.phase with
    | .sleeping info after since schedule =>
      if s.now ≤ now ∧ since + schedule.delay * second ≤ now then
        some (s.wake info after since schedule now)
      else none
    | _ => none
  | .answer read shown result =>
    match s.phase with
    | .extending info =>
      if s.now ≤ read ∧ read ≤ shown then some (s.answer info read shown result) else none
    | _ => none

end State

def runtime (info : SessionInfo) (start : ℕ) : Machine State Label where
  init := { now := start, phase := .scheduling info none }
  step := State.step

/-! ### What is known in each phase -/

variable {info : SessionInfo} {start : ℕ} {s s' : State}

theorem step_cases {l : Label} (h : s.step l = some s') :
    (∃ i after now, l = .schedule now ∧ s.phase = .scheduling i after ∧ s.now ≤ now ∧
      s' = s.schedule i after now) ∨
    (∃ i after since schedule now, l = .wake now ∧ s.phase = .sleeping i after since schedule ∧
      s.now ≤ now ∧ since + schedule.delay * second ≤ now ∧
      s' = s.wake i after since schedule now) ∨
    (∃ i read shown result, l = .answer read shown result ∧ s.phase = .extending i ∧
      s.now ≤ read ∧ read ≤ shown ∧ s' = s.answer i read shown result) := by
  cases l with
  | schedule now =>
    simp only [State.step] at h
    split at h
    · next i after hphase =>
      split_ifs at h with hnow
      exact Or.inl ⟨i, after, now, rfl, hphase, hnow, (Option.some.inj h).symm⟩
    · cases h
  | wake now =>
    simp only [State.step] at h
    split at h
    · next i after since schedule hphase =>
      split_ifs at h with hnow
      exact Or.inr (Or.inl ⟨i, after, since, schedule, now, rfl, hphase, hnow.1, hnow.2,
        (Option.some.inj h).symm⟩)
    · cases h
  | answer read shown result =>
    simp only [State.step] at h
    split at h
    · next i hphase =>
      split_ifs at h with hnow
      exact Or.inr (Or.inr ⟨i, read, shown, result, rfl, hphase, hnow.1, hnow.2,
        (Option.some.inj h).symm⟩)
    · cases h

/-- The last request was not later than the time. -/
def LastBefore (requests : List Request) (time : ℕ) : Prop :=
  ∀ r ∈ requests.getLast?, r.requestedAt ≤ time

/-- The wait is the first, or follows the answer at the time `read`. -/
def Begun (requests : List Request) (now : ℕ) : Option ℕ → Prop
  | none => requests = []
  | some read => LastBefore requests read ∧ read ≤ now

/-- After an extension the expiry is a lifetime later. -/
def Rescheduled (info i : SessionInfo) (after : Option ℕ) : Prop :=
  (i.lifetimeSecs = info.lifetimeSecs ∧ i.lifetimeWarning = info.lifetimeWarning) ∧
    ∀ read, after = some read → ∃ lifetime, info.lifetimeSecs = some lifetime ∧
      i.userExpires = some (saturatingAdd (unixTimestamp read) lifetime)

def Known (info : SessionInfo) (s : State) : Prop :=
  match s.phase with
  | .scheduling i after => Rescheduled info i after ∧ Begun s.requests s.now after
  | .sleeping i after since _ => Rescheduled info i after ∧ Begun s.requests since after
  | .extending i => Rescheduled info i none ∧ LastBefore s.requests s.now
  | .stopped => True

theorem Begun.mono {requests : List Request} {now now' : ℕ} {after : Option ℕ}
    (h : Begun requests now after) (hle : now ≤ now') : Begun requests now' after := by
  cases after with
  | none => exact h
  | some read => exact ⟨h.1, h.2.trans hle⟩

theorem Rescheduled.next {i next : SessionInfo} {read shown : ℕ} (h : Rescheduled info i none)
    (hnext : rescheduledAfterExtension i read shown = some next) :
    Rescheduled info next (some read) := by
  obtain ⟨lifetime, hlifetime, heq⟩ := Option.bind_eq_some_iff.mp hnext
  cases heq
  refine ⟨h.1, fun read' hread => ?_⟩
  cases hread
  exact ⟨lifetime, h.1.1 ▸ hlifetime, rfl⟩

theorem known_step {l : Label} (h : Known info s) (hs : s.step l = some s') : Known info s' := by
  rcases step_cases hs with ⟨i, after, now, -, hphase, hnow, rfl⟩ |
    ⟨i, after, since, schedule, now, -, hphase, hnow, hslept, rfl⟩ |
    ⟨i, read, shown, result, -, hphase, hread, hshown, rfl⟩
  · rw [Known, hphase] at h
    unfold State.schedule
    split
    · trivial
    · exact ⟨h.1, h.2.mono hnow⟩
  · rw [Known, hphase] at h
    unfold State.wake
    split_ifs
    · refine ⟨⟨h.1.1, fun read hread => by cases hread⟩, ?_⟩
      simp [LastBefore]
    · trivial
  · rw [Known, hphase] at h
    cases result with
    | error err => trivial
    | ok u =>
      unfold State.answer
      simp only
      split
      · trivial
      · next next hnext =>
        exact ⟨h.1.next hnext, fun r hr => (h.2 r hr).trans hread, hshown⟩

theorem known_reachable (h : (runtime info start).Reachable s) : Known info s := by
  have hinit : Known info (runtime info start).init :=
    ⟨⟨⟨rfl, rfl⟩, fun read hread => by cases hread⟩, rfl⟩
  exact h.invariant hinit fun s l s' _ hs hstep => known_step hs hstep

/-! ### Requests at a distance -/

/-- When a wait after an extension is scheduled, the warning is not yet due. -/
def timely (info : SessionInfo) (s : State) : Label → Bool
  | .schedule now =>
    match s.phase, info.lifetimeSecs, info.lifetimeWarning with
    | .scheduling _ (some read), some lifetime, some warning =>
      warning.priorSecs + unixTimestamp now < min (unixTimestamp read + lifetime) (2 ^ 32 - 1)
    | _, _, _ => true
  | _ => true

/-- A request after a wait of a second or more after the one before. -/
def Follows (r r' : Request) : Prop :=
  ∃ read, r'.after = some read ∧ r.requestedAt ≤ read ∧ read ≤ r'.scheduledAt ∧ 1 ≤ r'.delay ∧
    r'.scheduledAt + r'.delay * second ≤ r'.requestedAt

theorem delay_iff {i : SessionInfo} {read now : ℕ} {schedule : SessionWarningSchedule}
    (h : Known info s) (hphase : s.phase = .scheduling i (some read))
    (hschedule : buildSessionWarningSchedule i now = some schedule) :
    1 ≤ schedule.delay ↔ timely info s (.schedule now) = true := by
  rw [Known, hphase] at h
  obtain ⟨⟨⟨-, hwarning⟩, hread⟩, -⟩ := h
  obtain ⟨lifetime, hlifetime, hexpires⟩ := hread read rfl
  obtain ⟨warning, hw, hrest⟩ := Option.bind_eq_some_iff.mp hschedule
  rw [hexpires] at hrest
  cases hrest
  rw [hwarning] at hw
  simp only [timely, hphase, hlifetime, hw, decide_eq_true_eq, saturatingAdd]
  omega

def Spaced (s : State) : Prop :=
  s.requests.IsChain Follows ∧
    ∀ i read since schedule, s.phase = .sleeping i (some read) since schedule → 1 ≤ schedule.delay

theorem spaced_step {l : Label} (hknown : Known info s) (h : Spaced s)
    (htimely : timely info s l = true) (hs : s.step l = some s') : Spaced s' := by
  rcases step_cases hs with ⟨i, after, now, rfl, hphase, hnow, rfl⟩ |
    ⟨i, after, since, schedule, now, -, hphase, hnow, hslept, rfl⟩ |
    ⟨i, read, shown, result, -, hphase, hread, hshown, rfl⟩
  · unfold State.schedule
    split
    · exact ⟨h.1, fun _ _ _ _ hp => by cases hp⟩
    · next schedule hschedule =>
      refine ⟨h.1, fun i' read since' schedule' hp => ?_⟩
      obtain ⟨rfl, rfl, rfl, rfl⟩ := Phase.sleeping.inj hp
      exact (delay_iff hknown hphase hschedule).mpr htimely
  · rw [Known, hphase] at hknown
    unfold State.wake
    split_ifs
    · refine ⟨List.isChain_append.mpr ⟨h.1, List.isChain_singleton _, ?_⟩,
        fun _ _ _ _ hp => by cases hp⟩
      intro r hr r' hr'
      cases hr'
      -- there is a request before, so an extension has been answered
      cases after with
      | none =>
        rw [hknown.2] at hr
        cases hr
      | some read =>
        exact ⟨read, rfl, hknown.2.1 r hr, hknown.2.2, h.2 i read since schedule hphase, hslept⟩
    · exact ⟨h.1, fun _ _ _ _ hp => by cases hp⟩
  · cases result with
    | error err => exact ⟨h.1, fun _ _ _ _ hp => by cases hp⟩
    | ok u =>
      unfold State.answer
      simp only
      split
      · exact ⟨h.1, fun _ _ _ _ hp => by cases hp⟩
      · exact ⟨h.1, fun _ _ _ _ hp => by cases hp⟩

theorem spaced_reachable (h : ((runtime info start).guard (timely info)).Reachable s) :
    Spaced s := by
  refine h.invariant ⟨List.isChain_nil, fun _ _ _ _ hp => by cases hp⟩ ?_
  intro s l s' hr hspaced hs
  obtain ⟨htimely, hs⟩ := Machine.guard_step.mp hs
  exact spaced_step (known_reachable hr.of_guard) hspaced htimely hs

/-- **Extension requests have a distance of a second** in runs where, whenever a wait after an
extension is scheduled, the warning is not yet due. This is exactly when the wait has a length. -/
theorem requests_spaced (info : SessionInfo) (start : ℕ) :
    (∀ s, ((runtime info start).guard (timely info)).Reachable s →
      s.requests.IsChain Follows ∧
      ∀ time n, (s.requests.filter fun r =>
        time ≤ r.requestedAt ∧ r.requestedAt ≤ time + n * second).length ≤ n + 1) ∧
    ∀ s i read now schedule, (runtime info start).Reachable s →
      s.phase = .scheduling i (some read) → buildSessionWarningSchedule i now = some schedule →
        (1 ≤ schedule.delay ↔ timely info s (.schedule now) = true) := by
  refine ⟨fun s hs => ?_, fun s i read now schedule hs hphase hschedule => ?_⟩
  · have hchain := (spaced_reachable hs).1
    refine ⟨hchain, fun time n => length_filter_le (by decide) (hchain.imp ?_) time n⟩
    rintro r r' ⟨read, -, hr, hread, hdelay, hslept⟩
    have : second ≤ r'.delay * second := Nat.le_mul_of_pos_left _ hdelay
    omega
  · exact delay_iff (known_reachable hs) hphase hschedule

/-- A session of an hour, with a warning half an hour before its end. -/
def hour : SessionInfo :=
  { lifetimeSecs := some 3600
    lifetimeWarning := some { priorSecs := 1800, message := "Session expires soon" }
    allowExtendSession := true }

/-- Two extensions, half an hour apart. -/
def twice : List Label :=
  [.schedule 0, .wake (1800 * second), .answer (1800 * second) (1800 * second) (.ok ()),
    .schedule (1800 * second), .wake (3600 * second)]

theorem requests_spaced_hour :
    (∃ s, ((runtime hour 0).guard (timely hour)).Reachable s ∧ s.requests.length = 2 ∧
      s.requests.IsChain Follows ∧
      ∀ time n, (s.requests.filter fun r =>
        time ≤ r.requestedAt ∧ r.requestedAt ≤ time + n * second).length ≤ n + 1) ∧
    ∃ s, (runtime hour 0).Reachable s ∧ ∃ i schedule,
      s.phase = .scheduling i (some (1800 * second)) ∧
      buildSessionWarningSchedule i (1800 * second) = some schedule ∧
      (1 ≤ schedule.delay ↔ timely hour s (.schedule (1800 * second)) = true) := by
  constructor
  · obtain ⟨s, hs, hlength⟩ := Machine.Reachable.of_run (M := (runtime hour 0).guard (timely hour))
      twice (p := fun s => s.requests.length = 2) (by decide +kernel)
    exact ⟨s, hs, of_decide_eq_true hlength, (requests_spaced hour 0).1 s hs⟩
  · let i := { hour with userExpires := some 5400, expiresInHuman := some "1h" }
    obtain ⟨s, hs, hphase⟩ := Machine.Reachable.of_run (M := runtime hour 0) (twice.take 3)
      (p := fun s => s.phase = .scheduling i (some (1800 * second))) (by decide +kernel)
    have hphase := of_decide_eq_true hphase
    have hschedule : buildSessionWarningSchedule i (1800 * second) =
        some ⟨1800, "Session expires soon", true⟩ := by decide +kernel
    exact ⟨s, hs, i, _, hphase, hschedule,
      (requests_spaced hour 0).2 s i (1800 * second) (1800 * second) _ hs hphase hschedule⟩

/-- The same warning for a session that lasts only half an hour. -/
def halfHour : SessionInfo := { hour with lifetimeSecs := some 1800 }

/-- Nothing is left of the lifetime: three requests at the same time. -/
theorem spinning :
    ∃ s, (runtime halfHour 0).Reachable s ∧
      s.requests.map (fun r => (r.delay, r.requestedAt)) = [(0, 0), (0, 0), (0, 0)] ∧
      ¬ (s.requests.filter fun r => 0 ≤ r.requestedAt ∧ r.requestedAt ≤ 0 + 1 * second).length ≤
        1 + 1 := by
  obtain ⟨s, hs, hrequests⟩ := Machine.Reachable.of_run (M := runtime halfHour 0)
    [.schedule 0, .wake 0, .answer 0 0 (.ok ()), .schedule 0, .wake 0, .answer 0 0 (.ok ()),
      .schedule 0, .wake 0]
    (p := fun s => s.requests.map (fun r => (r.delay, r.requestedAt)) =
        [(0, 0), (0, 0), (0, 0)] ∧
      ¬ (s.requests.filter fun r => 0 ≤ r.requestedAt ∧ r.requestedAt ≤ 0 + 1 * second).length ≤
        1 + 1)
    (by decide +kernel)
  exact ⟨s, hs, of_decide_eq_true hrequests⟩

end GlobalProtect.Client.Extension
