import GlobalProtect.Lib.Machine
import GlobalProtect.Lib.Versioned
import GlobalProtect.Api.Messages
import Mathlib.Algebra.Ring.Nat

/-! # The observation of a tunnel

The model of `Observation` and of the methods of `TunnelMonitor` that change it (`gptunnel`,
`monitor.rs`). Every method holds the lock, so it is one step; the label says how much time passes
before it reads the clock and before it publishes. Instants are nanoseconds. Sequences are natural
numbers: the source stops rather than let one wrap.

`updates` is the history of what was published, and `origin` the request that the retained sample
answered. `observation_invariants` collects what holds in every state and of every two updates. -/

namespace GlobalProtect.Native

open Lib Api

/-! ### The model -/

inductive TunnelStatisticsState where
  | disabled
  | waiting
  | fresh
  | stale
  | ended
  deriving DecidableEq, Repr

structure Statistics where
  receivedBytes : ℕ := 0
  sentBytes : ℕ := 0
  receivedPackets : ℕ := 0
  sentPackets : ℕ := 0
  deriving DecidableEq, Repr

structure TunnelStatistics where
  tunnelId : Uuid
  sequence : ℕ
  stateSequence : ℕ
  configurationRevision : ℕ
  elapsedMs : ℕ
  counters : Statistics
  deriving DecidableEq, Repr

structure TunnelStatisticsView where
  sequence : ℕ
  tunnelId : Uuid
  stateSequence : ℕ
  phase : TunnelPhase
  transport : TunnelTransport
  state : TunnelStatisticsState
  elapsedMs : ℕ
  sampleAgeMs : Option ℕ
  sample : Option TunnelStatistics
  deriving DecidableEq, Repr

structure TunnelUpdate (γ : Type) where
  state : TunnelState γ
  statistics : TunnelStatisticsView
  deriving DecidableEq, Repr

structure RequestStamp where
  generation : ℕ
  stateSequence : ℕ
  issued : ℕ
  deriving DecidableEq, Repr

structure RetainedSample where
  value : TunnelStatistics
  acquired : ℕ
  deriving DecidableEq, Repr

def isActive : TunnelTransport → Bool
  | .ipsecEsp | .sslTls => true
  | _ => false

def millis (nanos : ℕ) : ℕ := min (nanos / 1000000) (2 ^ 64 - 1)

def sampleTimeout : ℕ := 4000000000

structure Observation (γ : Type) where
  state : TunnelState γ
  sequence : ℕ := 1
  statisticsSequence : ℕ := 1
  started : Option ℕ := none
  endedElapsed : Option ℕ := none
  configurationObserved : Bool := false
  enabled : Bool := false
  generation : ℕ := 0
  pending : Option RequestStamp := none
  sample : Option RetainedSample := none
  statisticsState : TunnelStatisticsState := .disabled
  finished : Bool := false
  requestFailed : Bool := false
  /-- The stamp of the request that `sample` answers. -/
  origin : Option RequestStamp := none
  deriving DecidableEq, Repr

inductive Event (ν : Type) where
  | configuration (configuration : Option ν)
  | established
  | reconnecting
  | reconnected
  | transport (transport : TunnelTransport)
  | statistics (statistics : Statistics)
  | ended
  deriving DecidableEq, Repr

namespace Observation

variable {γ ν : Type}

def new (tunnelId : Uuid) : Observation γ where
  state :=
    { tunnelId, sequence := 1, phase := .establishing, configurationRevision := 0,
      configuration := none, transport := .negotiating, elapsedMs := 0 }

variable (o : Observation γ)

def elapsedMs (now : ℕ) : ℕ :=
  match o.endedElapsed with
  | some elapsed => elapsed
  | none =>
    match o.started with
    | some started => millis (now - started)
    | none => 0

def active : Bool := !o.finished && o.state.phase = .connected && isActive o.state.transport

def project (now : ℕ) : TunnelUpdate γ where
  state := { o.state with elapsedMs := o.elapsedMs now }
  statistics :=
    { sequence := o.statisticsSequence
      tunnelId := o.state.tunnelId
      stateSequence := o.state.sequence
      phase := o.state.phase
      transport := o.state.transport
      state := o.statisticsState
      elapsedMs := o.elapsedMs now
      sampleAgeMs := o.sample.map fun sample => millis (now - sample.acquired)
      sample := o.sample.map (·.value) }

/-- A new statistics state under the next sequence. -/
def restate (statisticsState : TunnelStatisticsState) : Observation γ :=
  { o with
    statisticsState, sequence := o.sequence + 1, statisticsSequence := o.sequence + 1 }

def invalidateStatistics : Observation γ :=
  o.restate <|
    if o.finished then .ended
    else if !o.enabled then .disabled
    else if o.sample.isSome || !o.active then .stale
    else .waiting

def stateChanged : Observation γ :=
  invalidateStatistics { o with
    sequence := o.sequence + 1, state := { o.state with sequence := o.sequence + 1 } }

/-- `enable`, which tells whether anything has changed. -/
def enable (enabled : Bool) : Bool × Observation γ :=
  if o.finished || o.enabled = enabled then (false, o)
  else
    (true, restate { o with enabled, generation := o.generation + 1 }
      (if enabled then .waiting else .disabled))

def finish (now : ℕ) : Observation γ :=
  if o.finished then o
  else
    stateChanged { o with
      endedElapsed := some (o.elapsedMs now)
      finished := true
      enabled := false
      pending := none
      state := { o.state with phase := .ended, transport := .unavailable } }

/-- A change of the phase, if it is one. -/
def toPhase (phase : TunnelPhase) : Observation γ :=
  if o.state.phase = phase then o else stateChanged { o with state := { o.state with phase } }

def receiveStatistics (statistics : Statistics) (now : ℕ) : Observation γ :=
  match o.pending with
  | none => o
  | some stamp =>
    let o := { o with pending := none }
    if !o.enabled || !o.active || stamp.generation ≠ o.generation ||
        stamp.stateSequence ≠ o.state.sequence then o
    else
      restate { o with
        origin := some stamp
        sample := some
          { value :=
              { tunnelId := o.state.tunnelId, sequence := o.sequence + 1
                stateSequence := o.state.sequence
                configurationRevision := o.state.configurationRevision
                elapsedMs := o.elapsedMs now, counters := statistics }
            acquired := now } } .fresh

variable [DecidableEq γ] (normalize : ν → γ)

def apply (event : Event ν) (now : ℕ) : Observation γ :=
  if o.finished then o
  else
    match event with
    | .configuration configuration =>
      if o.configurationObserved ∧ o.state.configuration = configuration.map normalize then o
      else
        stateChanged { o with
          configurationObserved := true
          state := { o.state with
            configuration := configuration.map normalize
            configurationRevision := o.state.configurationRevision + 1 } }
    | .established => toPhase { o with started := some (o.started.getD now) } .connected
    | .reconnected => if o.started.isSome then o.toPhase .connected else o
    | .reconnecting => o.toPhase (if o.started.isSome then .reconnecting else .establishing)
    | .transport transport =>
      if o.state.transport = transport then o
      else stateChanged { o with state := { o.state with transport } }
    | .statistics statistics => o.receiveStatistics statistics now
    | .ended => o.finish now

/-- `request_sample`: whether it publishes, and the new observation. `result` is what the native
request returns. -/
def requestSample (result : Except Unit Bool) (now : ℕ) : Bool × Observation γ :=
  if o.finished || !o.enabled || !o.active then (false, o)
  else
    match o.pending with
    | some pending =>
      if now - pending.issued ≥ sampleTimeout ∧ o.statisticsState ≠ .stale then
        (true, o.restate .stale)
      else (false, o)
    | none =>
      match result with
      | .ok true =>
        (false, { o with
          pending := some
            { generation := o.generation, stateSequence := o.state.sequence, issued := now }
          requestFailed := false })
      | .ok false => (false, o)
      | .error () => (true, restate { o with requestFailed := true } .stale)

end Observation

/-- The monitor: the observation, the clock and what was published. -/
structure Monitor (γ : Type) where
  observation : Observation γ
  clock : ℕ
  updates : List (TunnelUpdate γ)

inductive Op (ν : Type) where
  | enable (enabled : Bool)
  | observe (event : Event ν)
  | finish
  | requestSample (result : Except Unit Bool)

/-- An operation, the time before it reads the clock and the time from there to the publication. -/
structure Act (ν : Type) where
  op : Op ν
  before : ℕ := 0
  until_ : ℕ := 0

namespace Monitor

variable {γ ν : Type} [DecidableEq γ] (normalize : ν → γ)

/-- The operation at `now`: whether it publishes, and the new observation. -/
def operate (o : Observation γ) (now : ℕ) : Op ν → Bool × Observation γ
  | .enable enabled => o.enable enabled
  | .observe event => (true, o.apply normalize event now)
  | .finish => (true, o.finish now)
  | .requestSample result => o.requestSample result now

def step (m : Monitor γ) (l : Act ν) : Monitor γ :=
  let now := m.clock + l.before
  let (publishes, observation) := operate normalize m.observation now l.op
  let clock := now + l.until_
  { observation, clock
    updates := if publishes then m.updates ++ [observation.project clock] else m.updates }

/-- `attach` publishes the initial observation. -/
def machine (tunnelId : Uuid) (clock : ℕ) : Machine (Monitor γ) (Act ν) where
  init :=
    { observation := .new tunnelId, clock, updates := [(Observation.new tunnelId).project clock] }
  step m l := some (m.step normalize l)

end Monitor

/-! ### What an operation does -/

namespace Observation

variable {γ ν : Type} {o o' : Observation γ}

/-- A fresh sample is of the tunnel as it is now, and its request was made since. -/
structure Fresh (o : Observation γ) : Prop where
  enabled : o.enabled = true
  active : o.active = true
  sample : ∃ sample stamp, o.sample = some sample ∧ o.origin = some stamp ∧
    sample.value.stateSequence = o.state.sequence ∧
    sample.value.configurationRevision = o.state.configurationRevision ∧
    stamp.generation = o.generation ∧ stamp.stateSequence = o.state.sequence

/-- Nothing that is published changes, except for the time. -/
structure Quiet (o o' : Observation γ) : Prop where
  state : o'.state = o.state
  sequence : o'.sequence = o.sequence
  statisticsSequence : o'.statisticsSequence = o.statisticsSequence
  sample : o'.sample = o.sample
  statisticsState : o'.statisticsState = o.statisticsState
  fresh : Fresh o → Fresh o'

/-- The statistics change under the next sequence. -/
structure Restated (o o' : Observation γ) : Prop where
  state : o'.state = o.state
  sequence : o'.sequence = o.sequence + 1
  statisticsSequence : o'.statisticsSequence = o.sequence + 1
  fresh : o'.statisticsState = .fresh → Fresh o'

/-- The state changes, and the statistics are no longer fresh. -/
structure Changed (o o' : Observation γ) : Prop where
  stateSequence : o'.state.sequence = o.sequence + 1
  sequence : o'.sequence = o.sequence + 2
  statisticsSequence : o'.statisticsSequence = o.sequence + 2
  fresh : o'.statisticsState ≠ .fresh

def Evolves (o o' : Observation γ) : Prop := Quiet o o' ∨ Restated o o' ∨ Changed o o'

theorem Evolves.refl : Evolves o o := .inl ⟨rfl, rfl, rfl, rfl, rfl, id⟩

theorem changed_stateChanged (h : o'.sequence = o.sequence) : Changed o o'.stateChanged := by
  refine ⟨by simp [stateChanged, invalidateStatistics, restate, h],
    by simp [stateChanged, invalidateStatistics, restate, h],
    by simp [stateChanged, invalidateStatistics, restate, h], ?_⟩
  simp only [stateChanged, invalidateStatistics, restate]
  repeat' split
  all_goals simp

theorem evolves_toPhase (phase : TunnelPhase) : Evolves o (o.toPhase phase) := by
  unfold toPhase
  split
  · exact .refl
  · exact .inr (.inr (changed_stateChanged rfl))

theorem evolves_enable (enabled : Bool) : Evolves o (o.enable enabled).2 := by
  unfold enable
  split
  · exact .refl
  · refine .inr (.inl ⟨rfl, rfl, rfl, fun h => ?_⟩)
    cases enabled <;> cases h

theorem evolves_finish (now : ℕ) : Evolves o (o.finish now) := by
  unfold finish
  split
  · exact .refl
  · exact .inr (.inr (changed_stateChanged rfl))

theorem evolves_receiveStatistics (statistics : Statistics) (now : ℕ) :
    Evolves o (o.receiveStatistics statistics now) := by
  unfold receiveStatistics
  split
  · exact .refl
  · rename_i stamp _
    dsimp only
    split
    · exact .inl ⟨rfl, rfl, rfl, rfl, rfl, fun h => ⟨h.enabled, h.active, h.sample⟩⟩
    · rename_i hc
      simp only [Bool.or_eq_true, Bool.not_eq_true', decide_eq_true_eq, not_or,
        Bool.not_eq_false, ne_eq, Decidable.not_not] at hc
      obtain ⟨⟨⟨he, ha⟩, hg⟩, hs⟩ := hc
      exact .inr (.inl ⟨rfl, rfl, rfl, fun _ => ⟨he, ha, _, stamp, rfl, rfl, rfl, rfl, hg, hs⟩⟩)

theorem evolves_requestSample (result : Except Unit Bool) (now : ℕ) :
    Evolves o (o.requestSample result now).2 := by
  unfold requestSample
  split
  · exact .refl
  · split
    · split
      · exact .inr (.inl ⟨rfl, rfl, rfl, nofun⟩)
      · exact .refl
    · split
      · exact .inl ⟨rfl, rfl, rfl, rfl, rfl, fun h => ⟨h.enabled, h.active, h.sample⟩⟩
      · exact .refl
      · exact .inr (.inl ⟨rfl, rfl, rfl, nofun⟩)

variable [DecidableEq γ] (normalize : ν → γ)

theorem evolves_apply (event : Event ν) (now : ℕ) : Evolves o (o.apply normalize event now) := by
  unfold apply
  split
  · exact .refl
  · cases event with
    | configuration configuration | transport transport =>
      dsimp only
      split
      · exact .refl
      · exact .inr (.inr (changed_stateChanged rfl))
    | established =>
      rcases evolves_toPhase (o := { o with started := some (o.started.getD now) }) .connected with
        h | h | h
      · exact .inl ⟨h.state, h.sequence, h.statisticsSequence, h.sample, h.statisticsState,
          fun hf => h.fresh ⟨hf.enabled, hf.active, hf.sample⟩⟩
      · exact .inr (.inl ⟨h.state, h.sequence, h.statisticsSequence, h.fresh⟩)
      · exact .inr (.inr ⟨h.stateSequence, h.sequence, h.statisticsSequence, h.fresh⟩)
    | reconnected =>
      dsimp only
      split
      · exact evolves_toPhase _
      · exact .refl
    | reconnecting => exact evolves_toPhase _
    | statistics statistics => exact evolves_receiveStatistics statistics now
    | ended => exact evolves_finish now

theorem evolves_operate (now : ℕ) (op : Op ν) :
    Evolves o (Monitor.operate normalize o now op).2 := by
  cases op with
  | enable enabled => exact evolves_enable enabled
  | observe event => exact evolves_apply normalize event now
  | finish => exact evolves_finish now
  | requestSample result => exact evolves_requestSample result now

/-! ### Time and the configuration -/

omit [DecidableEq γ] in
theorem millis_mono {a b : ℕ} (h : a ≤ b) : millis a ≤ millis b := by
  have := Nat.div_le_div_right (c := 1000000) h
  unfold millis
  omega

omit [DecidableEq γ] in
theorem elapsedMs_mono {now later : ℕ} (h : now ≤ later) : o.elapsedMs now ≤ o.elapsedMs later := by
  unfold elapsedMs
  split
  · exact Nat.le_refl _
  · split
    · exact millis_mono (by omega)
    · exact Nat.le_refl _

omit [DecidableEq γ] in
theorem elapsedMs_congr (hs : o'.started = o.started) (he : o'.endedElapsed = o.endedElapsed)
    (now : ℕ) : o'.elapsedMs now = o.elapsedMs now := by
  simp only [elapsedMs, hs, he]

omit [DecidableEq γ] in
theorem elapsedMs_finish (now : ℕ) : (o.finish now).elapsedMs now = o.elapsedMs now := by
  unfold finish
  split
  · rfl
  · rfl

theorem elapsedMs_operate (now : ℕ) (op : Op ν) :
    o.elapsedMs now ≤ (Monitor.operate normalize o now op).2.elapsedMs now := by
  have hsame : ∀ o' : Observation γ, o'.started = o.started → o'.endedElapsed = o.endedElapsed →
      o.elapsedMs now ≤ o'.elapsedMs now := fun o' h₁ h₂ =>
    Nat.le_of_eq (elapsedMs_congr h₁ h₂ now).symm
  cases op with
  | enable enabled =>
    simp only [Monitor.operate, enable]
    split <;> exact hsame _ rfl rfl
  | finish => exact Nat.le_of_eq (elapsedMs_finish now).symm
  | requestSample result =>
    simp only [Monitor.operate, requestSample]
    repeat' split
    all_goals exact hsame _ rfl rfl
  | observe event =>
    simp only [Monitor.operate, apply]
    split
    · exact Nat.le_refl _
    · cases event with
      | ended => exact Nat.le_of_eq (elapsedMs_finish now).symm
      | statistics statistics =>
        simp only [receiveStatistics]
        repeat' split
        all_goals exact hsame _ rfl rfl
      | established =>
        have hstart : o.elapsedMs now ≤
            Observation.elapsedMs { o with started := some (o.started.getD now) } now := by
          unfold elapsedMs
          cases o.endedElapsed <;> cases o.started <;> simp
        refine Nat.le_trans hstart (Nat.le_of_eq ?_)
        simp only [toPhase]
        split <;> rfl
      | _ =>
        simp only [toPhase]
        repeat' split
        all_goals exact hsame _ rfl rfl

/-- The operation observes a configuration for the first time or a different one. -/
def newConfiguration (o : Observation γ) : Op ν → Bool
  | .observe (.configuration configuration) =>
    !o.finished && (o.state.configurationRevision = 0 ||
      o.state.configuration ≠ configuration.map normalize)
  | _ => false

/-- The flag of the source is what the revision tells. -/
def Counted (o : Observation γ) : Prop :=
  o.configurationObserved = decide (o.state.configurationRevision ≠ 0)

theorem revision_operate (hc : Counted o) (now : ℕ) (op : Op ν) :
    (Monitor.operate normalize o now op).2.state.configurationRevision =
        o.state.configurationRevision + (newConfiguration normalize o op).toNat ∧
      Counted (Monitor.operate normalize o now op).2 := by
  have hsame : ∀ o' : Observation γ, o'.configurationObserved = o.configurationObserved →
      o'.state.configurationRevision = o.state.configurationRevision →
      o'.state.configurationRevision = o.state.configurationRevision + 0 ∧ Counted o' := by
    intro o' h₁ h₂
    exact ⟨h₂, by rw [Counted, h₁, h₂]; exact hc⟩
  cases op with
  | enable enabled =>
    simp only [Monitor.operate, enable]
    split <;> exact hsame _ rfl rfl
  | finish =>
    simp only [Monitor.operate, finish]
    split <;> exact hsame _ rfl rfl
  | requestSample result =>
    simp only [Monitor.operate, requestSample]
    repeat' split
    all_goals exact hsame _ rfl rfl
  | observe event =>
    simp only [Monitor.operate, apply]
    by_cases hf : o.finished = true
    · rw [if_pos hf]
      cases event with
      | configuration c => simpa [newConfiguration, hf] using hc
      | _ => exact hsame _ rfl rfl
    · rw [if_neg hf]
      cases event with
      | configuration c =>
        dsimp only
        split
        · rename_i h
          have hne : o.state.configurationRevision ≠ 0 := by
            have hobserved := h.1
            rw [hc] at hobserved
            exact of_decide_eq_true hobserved
          have hold : newConfiguration normalize o (.observe (.configuration c)) = false := by
            simp [newConfiguration, hne, h.2]
          rw [hold]
          exact hsame o rfl rfl
        · rename_i h
          have hnew : newConfiguration normalize o (.observe (.configuration c)) = true := by
            rw [hc] at h
            simp only [newConfiguration, hf]
            by_cases hz : o.state.configurationRevision = 0
            · simp [hz]
            · simpa [hz] using h
          rw [hnew]
          exact ⟨rfl, by simp [Counted, stateChanged, invalidateStatistics, restate]⟩
      | ended =>
        simp only [finish]
        split <;> exact hsame _ rfl rfl
      | statistics statistics =>
        simp only [receiveStatistics]
        repeat' split
        all_goals exact hsame _ rfl rfl
      | _ =>
        simp only [toPhase]
        repeat' split
        all_goals exact hsame _ rfl rfl

end Observation

/-! ### Whole runs -/

namespace Monitor

variable {γ ν : Type} {normalize : ν → γ} {m : Monitor γ}

/-- An update without its times. -/
def timeless (u : TunnelUpdate γ) : TunnelUpdate γ where
  state := { u.state with elapsedMs := 0 }
  statistics := { u.statistics with elapsedMs := 0, sampleAgeMs := none }

/-- What a published update itself shows of a fresh sample. -/
def ShowsFresh (u : TunnelUpdate γ) : Prop :=
  u.statistics.state = .fresh → u.state.phase = .connected ∧ isActive u.state.transport = true ∧
    ∃ sample, u.statistics.sample = some sample ∧ sample.stateSequence = u.state.sequence ∧
      sample.configurationRevision = u.state.configurationRevision

/-- The entries of the updates under their two sequences. -/
def statisticsEntry (u : TunnelUpdate γ) : ℕ × TunnelUpdate γ := (u.statistics.sequence, timeless u)

def stateEntry (u : TunnelUpdate γ) : ℕ × TunnelState γ := (u.state.sequence, (timeless u).state)

structure Inv (m : Monitor γ) : Prop where
  sequence : m.observation.statisticsSequence = m.observation.sequence
  stateSequence : m.observation.state.sequence ≤ m.observation.sequence
  statistics : Versioned (m.updates.map statisticsEntry) m.observation.statisticsSequence
    (timeless (m.observation.project 0))
  states : Versioned (m.updates.map stateEntry) m.observation.state.sequence
    (timeless (m.observation.project 0)).state
  fresh : m.observation.statisticsState = .fresh → m.observation.Fresh
  updates : ∀ u ∈ m.updates, u.state.sequence ≤ u.statistics.sequence ∧ ShowsFresh u ∧
    u.state.elapsedMs ≤ m.observation.elapsedMs m.clock
  elapsed : m.updates.Pairwise fun u v => u.state.elapsedMs ≤ v.state.elapsedMs
  counted : m.observation.Counted

/-- What the invariant says of the observation alone is kept by an operation, before it publishes.
-/
theorem Inv.evolve (h : Inv m) {o' : Observation γ} (he : m.observation.Evolves o') {clock : ℕ}
    (ht : m.observation.elapsedMs m.clock ≤ o'.elapsedMs clock) (hc : o'.Counted) :
    Inv { m with observation := o', clock } := by
  have hupdates : ∀ u ∈ m.updates, u.state.sequence ≤ u.statistics.sequence ∧ ShowsFresh u ∧
      u.state.elapsedMs ≤ o'.elapsedMs clock := fun u hu =>
    have := h.updates u hu
    ⟨this.1, this.2.1, Nat.le_trans this.2.2 ht⟩
  have hseq := h.sequence
  have hle := h.stateSequence
  rcases he with hq | hr | hch
  · have hsame : timeless (o'.project 0) = timeless (m.observation.project 0) := by
      simp [timeless, Observation.project, hq.state, hq.statisticsSequence, hq.sample,
        hq.statisticsState]
    refine ⟨?_, ?_, ?_, ?_, fun hf => ?_, hupdates, h.elapsed, hc⟩
    · rw [hq.statisticsSequence, hq.sequence, hseq]
    · rw [hq.state, hq.sequence]
      exact hle
    · rw [hq.statisticsSequence, hsame]
      exact h.statistics
    · rw [hq.state, hsame]
      exact h.states
    · exact hq.fresh (h.fresh (hq.statisticsState ▸ hf))
  · have hsame : (timeless (o'.project 0)).state = (timeless (m.observation.project 0)).state := by
      simp [timeless, Observation.project, hr.state]
    refine ⟨?_, ?_, ?_, ?_, hr.fresh, hupdates, h.elapsed, hc⟩
    · rw [hr.statisticsSequence, hr.sequence]
    · rw [hr.state, hr.sequence]
      exact Nat.le_succ_of_le hle
    · exact h.statistics.bump (by simp only [hr.statisticsSequence]; omega)
    · rw [hr.state, hsame]
      exact h.states
  · refine ⟨?_, ?_, ?_, ?_, fun hf => absurd hf hch.fresh, hupdates, h.elapsed, hc⟩
    · rw [hch.statisticsSequence, hch.sequence]
    · simp only [hch.stateSequence, hch.sequence]
      omega
    · exact h.statistics.bump (by simp only [hch.statisticsSequence]; omega)
    · exact h.states.bump (by simp only [hch.stateSequence]; omega)

theorem Inv.publish (h : Inv m) :
    Inv { m with updates := m.updates ++ [m.observation.project m.clock] } := by
  have hlast : ∀ u ∈ m.updates ++ [m.observation.project m.clock],
      u ∈ m.updates ∨ u = m.observation.project m.clock := by simp
  refine ⟨h.sequence, h.stateSequence, ?_, ?_, h.fresh, fun u hu => ?_, ?_, h.counted⟩
  · rw [List.map_append]
    exact h.statistics.publish
  · rw [List.map_append]
    exact h.states.publish
  · rcases hlast u hu with hu | rfl
    · exact h.updates u hu
    · refine ⟨?_, fun hf => ?_, Nat.le_refl _⟩
      · change m.observation.state.sequence ≤ m.observation.statisticsSequence
        rw [h.sequence]
        exact h.stateSequence
      · obtain ⟨-, ha, sample, stamp, hs, -, h₁, h₂, -⟩ := h.fresh hf
        have ha' : (m.observation.finished = false ∧ m.observation.state.phase = .connected) ∧
            isActive m.observation.state.transport = true := by
          simpa [Observation.active] using ha
        exact ⟨ha'.1.2, ha'.2, sample.value, by simp [Observation.project, hs], h₁, h₂⟩
  · refine List.pairwise_append.mpr ⟨h.elapsed, List.pairwise_singleton _ _, fun u hu v hv => ?_⟩
    obtain rfl := List.mem_singleton.mp hv
    exact (h.updates u hu).2.2

variable [DecidableEq γ]

theorem Inv.step (h : Inv m) (l : Act ν) : Inv (m.step normalize l) := by
  have hev := Observation.evolves_operate normalize (o := m.observation) (m.clock + l.before) l.op
  have hc := (Observation.revision_operate normalize h.counted (m.clock + l.before) l.op).2
  have ht : m.observation.elapsedMs m.clock ≤
      (operate normalize m.observation (m.clock + l.before) l.op).2.elapsedMs
        (m.clock + l.before + l.until_) :=
    calc m.observation.elapsedMs m.clock
        ≤ m.observation.elapsedMs (m.clock + l.before) :=
          Observation.elapsedMs_mono (Nat.le_add_right _ _)
      _ ≤ (operate normalize m.observation (m.clock + l.before) l.op).2.elapsedMs
            (m.clock + l.before) := Observation.elapsedMs_operate normalize _ _
      _ ≤ _ := Observation.elapsedMs_mono (Nat.le_add_right _ _)
  have hnew := h.evolve hev ht hc
  simp only [Monitor.step]
  split
  · exact hnew.publish
  · exact hnew

theorem inv_reachable {tunnelId : Uuid} {clock : ℕ}
    (h : (machine normalize tunnelId clock).Reachable m) : Inv m := by
  refine h.invariant ?_ fun m l m' _ hi hs => ?_
  · have h₀ : Inv ({ observation := .new tunnelId, clock, updates := [] } : Monitor γ) :=
      ⟨rfl, Nat.le_refl _, .start, .start, nofun, by simp, .nil, rfl⟩
    exact h₀.publish
  · cases hs
    exact hi.step l

/-- **Observation invariants**: in every reachable state the statistics sequence is the internal one
and bounds the state's; later updates have no smaller sequences and no smaller elapsed time; updates
of one statistics sequence differ in their times only, and updates of one state sequence have one
state; a fresh sample is of the current tunnel, and its request was made in the current generation
and state; the revision grows by one exactly with a new configuration. -/
theorem observation_invariants {tunnelId : Uuid} {clock : ℕ}
    (h : (machine normalize tunnelId clock).Reachable m) :
    m.observation.statisticsSequence = m.observation.sequence ∧
    (∀ u ∈ m.updates, u.state.sequence ≤ u.statistics.sequence ∧ ShowsFresh u) ∧
    (m.updates.Pairwise fun u v =>
      u.statistics.sequence ≤ v.statistics.sequence ∧ u.state.sequence ≤ v.state.sequence ∧
      (u.statistics.sequence = v.statistics.sequence → timeless u = timeless v) ∧
      (u.state.sequence = v.state.sequence → (timeless u).state = (timeless v).state) ∧
      u.state.elapsedMs ≤ v.state.elapsedMs) ∧
    (m.observation.statisticsState = .fresh → m.observation.Fresh) ∧
    ∀ l : Act ν, (m.step normalize l).observation.state.configurationRevision =
      m.observation.state.configurationRevision +
        (Observation.newConfiguration normalize m.observation l.op).toNat := by
  have hi := inv_reachable h
  refine ⟨hi.sequence, fun u hu => ⟨(hi.updates u hu).1, (hi.updates u hu).2.1⟩, ?_, hi.fresh,
    fun l => (Observation.revision_operate normalize hi.counted _ l.op).1⟩
  have hstat := List.pairwise_map.mp hi.statistics.ordered
  have hstate := List.pairwise_map.mp hi.states.ordered
  refine (hstat.and (hstate.and hi.elapsed)).imp ?_
  rintro u v ⟨h₁, h₂, h₃⟩
  exact ⟨h₁.1, h₂.1, h₁.2, h₂.2, h₃⟩

/-- A run with a fresh sample. -/
theorem observation_invariants_fresh :
    ∃ m : Monitor Unit, (machine (fun _ : Unit => ()) 7 0).Reachable m ∧
      m.observation.statisticsState = .fresh ∧ m.observation.Fresh := by
  obtain ⟨m, hm, hp⟩ := Machine.Reachable.of_run
    (M := (machine (fun _ : Unit => ()) 7 0 : Machine (Monitor Unit) (Act Unit)))
    [⟨.observe .established, 1, 0⟩, ⟨.observe (.transport .ipsecEsp), 1, 0⟩, ⟨.enable true, 1, 0⟩,
      ⟨.requestSample (.ok true), 1, 0⟩, ⟨.observe (.statistics {}), 1, 0⟩]
    (p := fun m => decide (m.observation.statisticsState = .fresh)) (by decide +kernel)
  have hf := of_decide_eq_true hp
  exact ⟨m, hm, hf, (observation_invariants hm).2.2.2.1 hf⟩

end Monitor

end GlobalProtect.Native
