import GlobalProtect.Lib.LockStep
import GlobalProtect.Service.Lifecycle.Model

/-! # The script-tun supervisor

The model of `script_tun.rs`: the loop that drives an external consumer of packets through one
control link while the native VPN comes and goes. A step is one turn of the loop: it takes the
cancellation, an expired deadline, a message of the consumer or a native event, in this order of
preference, and then activates a consumer that is ready. What can happen during a turn (the token is
cancelled, a write fails, the lifecycle does not listen any more) is in the label.

The link is in lock step (`Running.linked`): the state of the worker says which command is
outstanding. `supervise_protocol` states what follows for whole runs. `trace` and `events` are
histories; a write that fails is not in the trace. Addresses are left open (`α`), with their parser.
Fields of the native configuration that the supervisor does not read are left out. -/

namespace GlobalProtect.Service.ScriptTun

open Lib Api
open Service.Lifecycle (WorkerEvent)

variable {α : Type} [DecidableEq α]

/-! ### Data -/

structure NegotiatedNetwork (α : Type) where
  addresses : List α
  dns : List α
  search : List String
  mtu : ℕ
  deriving DecidableEq, Repr

inductive Message (α : Type) where
  | configure (identity : Identity) (network : NegotiatedNetwork α) (bootstrap : String)
  | ready
  | activate
  | activated
  | suspend
  | suspended
  | stop
  | error (message : String)
  deriving DecidableEq, Repr

structure NativeList where
  items : List String := []
  truncated : Bool := false
  deriving DecidableEq, Repr

structure Configuration where
  ipv4 : Option String := none
  ipv6 : Option String := none
  netmask6 : Option String := none
  dns : NativeList := {}
  searchDomains : NativeList := {}
  mtu : Option ℕ := none
  truncated : Bool := false
  deriving DecidableEq, Repr

/-- Native observations; `other` are the ones the supervisor ignores. -/
inductive Event where
  | configuration (config : Option Configuration)
  | reconnecting
  | reconnected
  | other
  deriving DecidableEq, Repr

inductive Native where
  | event (event : Event)
  | established (session : VpnSessionInfo)
  deriving DecidableEq, Repr

inductive WorkerState where
  | preparing
  | ready
  | activating
  | active
  | suspending
  deriving DecidableEq, Repr

inductive ConfigurationError where
  | absent
  | truncated
  | address (text : String)
  | mtuAbsent
  deriving DecidableEq, Repr

/-- Why the supervisor ends. -/
inductive Failure where
  | timedOut
  | readerStopped
  | reader (error : String)
  | offline
  | cancelled
  | sessionMissing
  | worker (message : String)
  | unexpected
  | nativeEnded
  | networkChanged
  | configuration (error : ConfigurationError)
  | configurationChanged
  | interrupted
  | eventsClosed
  | write (error : String)
  deriving DecidableEq, Repr

def ConfigurationError.message : ConfigurationError → String
  | .absent => "VPN configuration is absent"
  | .truncated => "VPN configuration is truncated"
  | .address _ => "invalid IP address syntax"
  | .mtuAbsent => "VPN MTU is absent"

/-- The text of the error; those of the runtime are as they were reported. -/
def Failure.message : Failure → String
  | .timedOut => "Script-tun worker activation timed out"
  | .readerStopped => "Script-tun control reader stopped"
  | .reader error => error
  | .offline => "Script-tun activation completed while VPN was offline"
  | .cancelled => "Script-tun startup cancelled"
  | .sessionMissing => "Native session is missing"
  | .worker message => "Script-tun worker: " ++ message
  | .unexpected => "Unexpected script-tun consumer message"
  | .nativeEnded => "Native event stream ended"
  | .networkChanged => "VPN network configuration changed"
  | .configuration error => error.message
  | .configurationChanged => "VPN configuration changed during startup"
  | .interrupted =>
    "VPN connection interrupted during script-tun activation; reconnect the VPN"
  | .eventsClosed => "channel closed"
  | .write error => error

/-- An address up to its prefix length. -/
def parseAddress (parse : String → Option α) (text : String) : Except ConfigurationError α :=
  match parse text with
  | some address => .ok address
  | none => .error (.address text)

def observedNetwork (parse : String → Option α) (config : Configuration) :
    Except ConfigurationError (NegotiatedNetwork α) := do
  if config.truncated || config.dns.truncated || config.searchDomains.truncated then
    throw .truncated
  let addresses ← ([config.ipv4, config.ipv6.or config.netmask6].filterMap id).mapM fun text =>
    parseAddress parse (String.ofList (text.toList.takeWhile (· ≠ '/')))
  let dns ← config.dns.items.mapM (parseAddress parse)
  let mtu ← match config.mtu with
    | some mtu => pure mtu
    | none => throw .mtuAbsent
  pure { addresses, dns, search := config.searchDomains.items, mtu }

/-! ### The loop -/

structure State (α : Type) where
  network : Option (NegotiatedNetwork α) := none
  session : Option VpnSessionInfo := none
  worker : WorkerState := .preparing
  online : Bool := false
  wasConnected : Bool := false
  deadline : Option ℕ := none
  bootstrap : String
  cancelled : Bool := false
  result : Option (Except Failure Unit) := none
  /-- `Stop` was sent, or given up. -/
  stopped : Bool := false
  trace : List (LinkEvent (Message α)) := []
  events : List WorkerEvent := []
  deriving DecidableEq

/-- What happens during a turn: the clock, whether the token is cancelled meanwhile, whether the
lifecycle takes events, and how a write ends. -/
structure Turn where
  now : ℕ
  cancelled : Bool := false
  eventsOpen : Bool := true
  written : Except String Unit := .ok ()
  deriving DecidableEq

/-- The deadlines of the supervisor, in seconds. -/
def answerTimeout : ℕ := 10

namespace State

variable (s : State α) (t : Turn)

/-- The supervisor has read a message. -/
def read (m : Message α) : State α := { s with trace := s.trace ++ [.read m] }

def bail (e : Failure) : State α := { s with result := some (.error e) }

/-- Sends a message to the consumer, and goes on with `k` if that worked. -/
def write (m : Message α) (k : State α → State α) : State α :=
  match t.written with
  | .ok () => k { s with trace := s.trace ++ [.write m] }
  | .error e => s.bail (.write e)

/-- Sends an event to the lifecycle, and goes on with `k` if that worked. -/
def notify (e : WorkerEvent) (k : State α → State α) : State α :=
  if t.eventsOpen then k { s with events := s.events ++ [e] } else s.bail .eventsClosed

/-- A message of the consumer. -/
def onMessage : Message α → State α
  | .ready =>
    if s.worker = .preparing ∧ s.network.isSome then { s with worker := .ready }
    else s.bail .unexpected
  | .activated =>
    if s.worker ≠ .activating then s.bail .unexpected
    else if s.online = false then s.bail .offline
    else if t.cancelled then s.bail .cancelled
    else
      match s.session with
      | none => s.bail .sessionMissing
      | some session =>
        s.notify t (.established session) fun s =>
          { s with worker := .active, wasConnected := true, deadline := none }
  | .suspended =>
    if s.worker = .suspending then { s with worker := .ready, deadline := none }
    else s.bail .unexpected
  | .error message => s.bail (.worker message)
  | _ => s.bail .unexpected

/-- A new native configuration. -/
def onConfiguration (identity : Identity) (observed : Except ConfigurationError (NegotiatedNetwork α)) :
    State α :=
  let changed := match observed with
    | .error _ => true
    | .ok new => s.network.any (· ≠ new)
  if s.wasConnected && changed then s.bail .networkChanged
  else
    match observed with
    | .error e => s.bail (.configuration e)
    | .ok observed =>
      match s.network with
      | some old => if old = observed then s else s.bail .configurationChanged
      | none =>
        s.write t (.configure identity observed s.bootstrap) fun s =>
          { s with
            bootstrap := "", network := some observed, deadline := some (t.now + answerTimeout) }

/-- A native event. -/
def onNative (identity : Identity) (parse : String → Option α) : Native → State α
  | .established session =>
    { s with
      session := some session
      online := true
      deadline := s.deadline.or (some (t.now + answerTimeout)) }
  | .event (.configuration none) => s.onConfiguration t identity (.error .absent)
  | .event (.configuration (some config)) =>
    s.onConfiguration t identity (observedNetwork parse config)
  | .event .reconnecting =>
    if s.worker = .activating then s.bail .interrupted
    else
      let s : State α := { s with online := false }
      s.notify t .scriptTunSuspended fun s =>
        if s.worker = .ready ∨ s.worker = .active then
          s.write t .suspend fun s =>
            { s with worker := .suspending, deadline := some (t.now + answerTimeout) }
        else s
  | .event .reconnected => { s with online := true }
  | .event .other => s

/-- The end of a turn: a consumer that is ready is activated. -/
def activate : State α :=
  if s.result = none ∧ s.online = true ∧ s.session.isSome ∧ s.worker = .ready ∧ t.cancelled = false
  then
    s.write t .activate fun s =>
      { s with worker := .activating, deadline := some (t.now + answerTimeout) }
  else s

/-- The loop runs, and at this time neither the cancellation nor the deadline is due. -/
def polls (now : ℕ) : Bool :=
  s.result = none && !s.cancelled && s.deadline.all (now < ·)

/-- A whole turn, from what it took. -/
def turn (s : State α) : State α :=
  let s := s.activate t
  { s with cancelled := s.cancelled || t.cancelled }

end State

inductive Label (α : Type) where
  | cancel
  | cancelled
  | expired (now : ℕ)
  /-- A message of the consumer, an error of the reader, or the end of the reader. -/
  | message (m : Option (Except String (Message α))) (t : Turn)
  | native (e : Option Native) (t : Turn)
  /-- The loop has ended: `Stop` is written, or given up. -/
  | finish (written : Bool)
  deriving DecidableEq

/-- One turn of `supervise`. The native VPN is established at most once. -/
def step (identity : Identity) (parse : String → Option α) (s : State α) : Label α → Option (State α)
  | .cancel => some { s with cancelled := true }
  | .cancelled =>
    if s.result = none ∧ s.cancelled = true then some { s with result := some (.ok ()) } else none
  | .expired now =>
    if s.result = none ∧ s.cancelled = false ∧ s.deadline.any (· ≤ now) then some (s.bail .timedOut)
    else none
  | .message m t =>
    if s.polls t.now then
      match m with
      | none => some ((s.bail .readerStopped).turn t)
      | some (.error e) => some ((s.bail (.reader e)).turn t)
      | some (.ok m) => some (((s.read m).onMessage t m).turn t)
    else none
  | .native e t =>
    if s.polls t.now then
      match e with
      | none => some ((s.bail .nativeEnded).turn t)
      | some (.established session) =>
        if s.session = none then some ((s.onNative t identity parse (.established session)).turn t)
        else none
      | some (.event e) => some ((s.onNative t identity parse (.event e)).turn t)
    else none
  | .finish written =>
    if s.result.isSome ∧ s.stopped = false then
      some { s with
        stopped := true
        trace := if written then s.trace ++ [.write .stop] else s.trace }
    else none

/-- The supervisor of one attempt. -/
def machine (identity : Identity) (parse : String → Option α) (bootstrap : String) :
    Machine (State α) (Label α) where
  init := { bootstrap }
  step := step identity parse

/-! ### The invariant -/

/-- The commands to the consumer and their answers. -/
def link : LockStep (Message α) where
  opening
    | .configure _ _ _ => true
    | _ => false
  later
    | .activate => true
    | .suspend => true
    | _ => false
  answer
    | .configure _ _ _ => .ready
    | .activate => .activated
    | .suspend => .suspended
    | m => m

/-- The phase of the link that a worker state stands for. -/
def State.phase (s : State α) (identity : Identity) (bootstrap : String) : LinkPhase (Message α) :=
  match s.worker, s.network with
  | .preparing, none => .idle
  | .preparing, some network => .outstanding (.configure identity network bootstrap)
  | .ready, _ => .answered
  | .activating, _ => .outstanding .activate
  | .active, _ => .answered
  | .suspending, _ => .outstanding .suspend

/-- What holds between the turns of the loop. -/
structure Running (identity : Identity) (bootstrap : String) (s : State α) : Prop where
  linked : link.observer.run .idle s.trace = some (s.phase identity bootstrap)
  bootstrap_eq : s.network = none → s.bootstrap = bootstrap
  network : s.worker ≠ .preparing → s.network.isSome
  activating : s.worker = .activating → s.online = true ∧ s.session.isSome ∧ s.deadline.isSome
  active : s.worker = .active → s.online = true ∧ s.wasConnected = true ∧ s.deadline = none ∧
    s.session.isSome
  suspending : s.worker = .suspending → s.deadline.isSome
  stopped : s.stopped = false

/-- The traffic of the link: lock step, then possibly a message that ended the run, and `Stop`. -/
def Accepted (s : State α) : Prop :=
  ∃ good rest stop p, s.trace = good ++ (rest ++ stop) ∧ link.observer.run .idle good = some p ∧
    (rest = [] ∨ ∃ m, rest = [.read m]) ∧ (stop = [] ∨ stop = [.write .stop]) ∧
    (s.stopped = false → stop = [])

structure Supervised (identity : Identity) (bootstrap : String) (s : State α) : Prop where
  running : s.result = none → Running identity bootstrap s
  accepted : Accepted s
  online : s.result ≠ some (.error .offline)
  session : s.result ≠ some (.error .sessionMissing)

variable {identity : Identity} {bootstrap : String} {s s' : State α} {t : Turn}

theorem Accepted.bail (h : Accepted s) {e : Failure} (he : e ≠ .offline) (he' : e ≠ .sessionMissing) :
    Supervised identity bootstrap (s.bail e) :=
  ⟨by rintro ⟨⟩, h, by simpa [State.bail] using he, by simpa [State.bail] using he'⟩

theorem run_snoc {tr : List (LinkEvent (Message α))} {p q : LinkPhase (Message α)}
    {e : LinkEvent (Message α)} (h : link.observer.run .idle tr = some p)
    (he : link.follow p e = some q) : link.observer.run .idle (tr ++ [e]) = some q :=
  Machine.run_append.mpr ⟨p, h, Machine.run_single.mpr he⟩

section

variable (h : Running identity bootstrap s)
include h

theorem Running.accepted : Accepted s :=
  ⟨s.trace, [], [], _, by simp, h.linked, Or.inl rfl, Or.inl rfl, fun _ => rfl⟩

theorem Running.supervised (hres : s.result = none) : Supervised identity bootstrap s :=
  ⟨fun _ => h, h.accepted, by rw [hres]; simp, by rw [hres]; simp⟩

theorem Running.write {m : Message α} {k : State α → State α}
    (hk : Supervised identity bootstrap (k { s with trace := s.trace ++ [.write m] })) :
    Supervised identity bootstrap (s.write t m k) := by
  unfold State.write
  split
  · exact hk
  · exact h.accepted.bail (by simp) (by simp)

/-! ### One turn -/

theorem Running.onMessage (hres : s.result = none) (m : Message α) :
    Supervised identity bootstrap ((s.read m).onMessage t m) := by
  -- a message that is not the answer is the last thing read
  have hacc : Accepted (s.read m) :=
    ⟨s.trace, [.read m], [], _, by simp [State.read], h.linked, Or.inr ⟨m, rfl⟩, Or.inl rfl, fun _ => rfl⟩
  have hbad : ∀ {e : Failure}, e ≠ .offline → e ≠ .sessionMissing →
      Supervised identity bootstrap ((s.read m).bail e) := fun he he' => hacc.bail he he'
  cases m with
  | ready =>
    simp only [State.onMessage]
    split_ifs with hw
    · have hw : s.worker = .preparing ∧ s.network.isSome := hw
      obtain ⟨n, hn⟩ := Option.isSome_iff_exists.mp hw.2
      have hph : s.phase identity bootstrap = .outstanding (.configure identity n bootstrap) := by
        simp [State.phase, hw.1, hn]
      refine Running.supervised ⟨run_snoc h.linked (by rw [hph]; rfl), h.bootstrap_eq,
        fun _ => hw.2, ?_, ?_, ?_, h.stopped⟩ hres <;> simp
    · exact hbad (by simp) (by simp)
  | activated =>
    simp only [State.onMessage]
    split_ifs with hw hon hcan
    · exact hbad (by simp) (by simp)
    · have hw : s.worker = .activating := not_not.mp hw
      have hon : s.online = false := hon
      rw [(h.activating hw).1] at hon; cases hon
    · exact hbad (by simp) (by simp)
    · have hw : s.worker = .activating := not_not.mp hw
      obtain ⟨honline, hsession, -⟩ := h.activating hw
      obtain ⟨session, hs⟩ := Option.isSome_iff_exists.mp hsession
      have hph : s.phase identity bootstrap = .outstanding .activate := by simp [State.phase, hw]
      have hs' : (s.read .activated).session = some session := hs
      simp only [hs', State.notify]
      split_ifs
      · exact Running.supervised ⟨run_snoc h.linked (by rw [hph]; rfl), h.bootstrap_eq,
          fun _ => h.network (by simp [hw]), by simp, fun _ => ⟨honline, rfl, rfl, rfl⟩, by simp,
          h.stopped⟩ hres
      · exact hbad (by simp) (by simp)
  | suspended =>
    simp only [State.onMessage]
    split_ifs with hw
    · have hw : s.worker = .suspending := hw
      have hph : s.phase identity bootstrap = .outstanding .suspend := by simp [State.phase, hw]
      refine Running.supervised ⟨run_snoc h.linked (by rw [hph]; rfl), h.bootstrap_eq,
        fun _ => h.network (by simp [hw]), ?_, ?_, ?_, h.stopped⟩ hres <;> simp
    · exact hbad (by simp) (by simp)
  | error message => exact hbad (by simp) (by simp)
  | configure | activate | suspend | stop => exact hbad (by simp) (by simp)

theorem Running.onConfiguration (hres : s.result = none)
    (observed : Except ConfigurationError (NegotiatedNetwork α)) :
    Supervised identity bootstrap (s.onConfiguration t identity observed) := by
  have hbad : ∀ {e : Failure}, e ≠ .offline → e ≠ .sessionMissing →
      Supervised identity bootstrap (s.bail e) := fun he he' => h.accepted.bail he he'
  unfold State.onConfiguration
  simp only
  split_ifs
  · exact hbad (by simp) (by simp)
  · cases observed with
    | error e => exact hbad (by simp) (by simp)
    | ok network =>
      cases hn : s.network with
      | some old =>
        simp only
        split_ifs
        · exact h.supervised hres
        · exact hbad (by simp) (by simp)
      | none =>
        have hw : s.worker = .preparing := by
          by_contra hw
          have := h.network hw
          rw [hn] at this; cases this
        have hph : s.phase identity bootstrap = .idle := by simp [State.phase, hw, hn]
        have hb := h.bootstrap_eq hn
        refine h.write (Running.supervised ⟨?_, by simp, by simp, ?_, ?_, ?_, h.stopped⟩ hres)
        · rw [hb]
          refine run_snoc h.linked ?_
          rw [hph]
          simp [State.phase, hw, LockStep.follow, link]
        · simp [hw]
        · simp [hw]
        · simp

theorem Running.onNative (hres : s.result = none)
    (parse : String → Option α) {e : Native} (hone : ∀ v, e = .established v → s.session = none) :
    Supervised identity bootstrap (s.onNative t identity parse e) := by
  cases e with
  | established v =>
    have hnone := hone v rfl
    refine Running.supervised ⟨h.linked, h.bootstrap_eq, h.network, fun hw => ?_, fun hw => ?_,
      fun hw => ?_, h.stopped⟩ hres
    · exact ⟨rfl, rfl, by simp [State.onNative]⟩
    · have := (h.active hw).2.2.2
      rw [hnone] at this; cases this
    · simp [State.onNative]
  | event e =>
    cases e with
    | configuration config =>
      cases config with
      | none | some config => simp only [State.onNative]; exact h.onConfiguration hres _
    | reconnecting =>
      simp only [State.onNative]
      split_ifs with hact
      · exact h.accepted.bail (by simp) (by simp)
      · -- an active or ready consumer is suspended, the others are left alone
        unfold State.notify
        split_ifs
        · simp only
          split_ifs with hw
          · have hph : s.phase identity bootstrap = .answered := by
              rcases hw with hw | hw <;> simp [State.phase, hw]
            have hne : s.worker ≠ .preparing := by rcases hw with hw | hw <;> simp [hw]
            unfold State.write
            split
            · refine Running.supervised ⟨run_snoc h.linked ?_, h.bootstrap_eq,
                fun _ => h.network hne, by simp, by simp, by simp, h.stopped⟩ hres
              rw [hph]; rfl
            · refine Accepted.bail ?_ (by simp) (by simp)
              exact h.accepted
          · push Not at hw
            exact Running.supervised ⟨h.linked, h.bootstrap_eq, h.network,
              fun hw' => absurd hw' hact, fun hw' => absurd hw' hw.2, h.suspending, h.stopped⟩ hres
        · refine Accepted.bail ?_ (by simp) (by simp)
          exact h.accepted
    | reconnected =>
      exact Running.supervised ⟨h.linked, h.bootstrap_eq, h.network,
        fun hw => ⟨rfl, (h.activating hw).2⟩, fun hw => ⟨rfl, (h.active hw).2⟩, h.suspending,
        h.stopped⟩ hres
    | other => exact h.supervised hres

end

theorem Supervised.activate (h : Supervised identity bootstrap s) :
    Supervised identity bootstrap (s.activate t) := by
  unfold State.activate
  split_ifs with hc
  · obtain ⟨hres, honline, hsession, hw, -⟩ := hc
    have hr := h.running hres
    have hph : s.phase identity bootstrap = .answered := by simp [State.phase, hw]
    refine hr.write (Running.supervised ⟨run_snoc hr.linked ?_, hr.bootstrap_eq,
      fun _ => hr.network (by simp [hw]), fun _ => ⟨honline, hsession, rfl⟩, by simp, by simp,
      hr.stopped⟩ hres)
    rw [hph]; rfl
  · exact h

theorem Supervised.setCancelled (h : Supervised identity bootstrap s) (c : Bool) :
    Supervised identity bootstrap { s with cancelled := c } :=
  ⟨fun hres =>
    have hr := h.running hres
    ⟨hr.linked, hr.bootstrap_eq, hr.network, hr.activating, hr.active, hr.suspending, hr.stopped⟩,
    h.accepted, h.online, h.session⟩

theorem Supervised.turn (h : Supervised identity bootstrap s) :
    Supervised identity bootstrap (s.turn t) := h.activate.setCancelled _

omit [DecidableEq α] in
theorem onMessage_answers (s : State α) (t : Turn) (identity : Identity) (bootstrap : String)
    (r : Message α) :
    (∃ m, s.phase identity bootstrap = .outstanding m ∧ r = link.answer m) ∨
      ∃ e, (s.read r).onMessage t r = (s.read r).bail e := by
  cases r with
  | ready =>
    by_cases hw : s.worker = .preparing ∧ s.network.isSome
    · obtain ⟨n, hn⟩ := Option.isSome_iff_exists.mp hw.2
      exact Or.inl ⟨.configure identity n bootstrap, by simp [State.phase, hw.1, hn], rfl⟩
    · exact Or.inr ⟨.unexpected, if_neg hw⟩
  | activated =>
    by_cases hw : s.worker = .activating
    · exact Or.inl ⟨.activate, by simp [State.phase, hw], rfl⟩
    · exact Or.inr ⟨.unexpected, if_pos hw⟩
  | suspended =>
    by_cases hw : s.worker = .suspending
    · exact Or.inl ⟨.suspend, by simp [State.phase, hw], rfl⟩
    · exact Or.inr ⟨.unexpected, if_neg hw⟩
  | error message => exact Or.inr ⟨.worker message, rfl⟩
  | configure | activate | suspend | stop => exact Or.inr ⟨.unexpected, rfl⟩

omit [DecidableEq α] in
theorem turn_bail (s : State α) (t : Turn) (e : Failure) :
    ((s.bail e).turn t).result = some (.error e) := by
  simp [State.turn, State.activate, State.bail]

/-! ### Whole runs -/

variable {parse : String → Option α}

omit [DecidableEq α] in
theorem polls_result {now : ℕ} (h : s.polls now = true) : s.result = none := by
  simp only [State.polls, Bool.and_eq_true, decide_eq_true_eq] at h
  exact h.1.1

theorem Supervised.finish (h : Supervised identity bootstrap s) (hres : s.result.isSome)
    (hstop : s.stopped = false) (written : Bool) :
    Supervised identity bootstrap { s with
      stopped := true
      trace := if written then s.trace ++ [.write .stop] else s.trace } := by
  have hne : s.result ≠ none := by rw [← Option.isSome_iff_ne_none]; exact hres
  obtain ⟨good, rest, stop, p, htr, hgood, hrest, -, hnil⟩ := h.accepted
  obtain rfl := hnil hstop
  refine ⟨fun h' => absurd h' hne, ⟨good, rest, if written then [.write .stop] else [], p, ?_, hgood,
    hrest, ?_, by simp⟩, h.online, h.session⟩
  · cases written <;> simp [htr]
  · cases written <;> simp

theorem Supervised.step (h : Supervised identity bootstrap s) {l : Label α}
    (hs : ScriptTun.step identity parse s l = some s') : Supervised identity bootstrap s' := by
  cases l with
  | cancel =>
    cases hs
    exact h.setCancelled true
  | cancelled =>
    obtain ⟨-, rfl⟩ := Option.ite_some_none_eq_some.mp hs
    exact ⟨by rintro ⟨⟩, h.accepted, by simp, by simp⟩
  | expired now =>
    obtain ⟨-, rfl⟩ := Option.ite_some_none_eq_some.mp hs
    exact h.accepted.bail (by simp) (by simp)
  | message m t =>
    obtain ⟨hp, hs⟩ := Option.ite_none_right_eq_some.mp hs
    have hres := polls_result hp
    rcases m with - | e | m <;> cases hs
    · exact (h.accepted.bail (by simp) (by simp)).turn
    · exact (h.accepted.bail (by simp) (by simp)).turn
    · exact ((h.running hres).onMessage hres m).turn
  | native e t =>
    obtain ⟨hp, hs⟩ := Option.ite_none_right_eq_some.mp hs
    have hres := polls_result hp
    rcases e with - | e | session
    · cases hs
      exact (h.accepted.bail (by simp) (by simp)).turn
    · cases hs
      exact ((h.running hres).onNative hres parse (by simp)).turn
    · obtain ⟨hnone, rfl⟩ := Option.ite_some_none_eq_some.mp hs
      exact ((h.running hres).onNative hres parse fun _ _ => hnone).turn
  | finish written =>
    obtain ⟨⟨hres, hstop⟩, rfl⟩ := Option.ite_some_none_eq_some.mp hs
    exact h.finish hres hstop written

theorem reachable_supervised (h : (machine identity parse bootstrap).Reachable s) :
    Supervised identity bootstrap s := by
  refine h.invariant (P := Supervised identity bootstrap) ?_ fun s l s' _ h hs => h.step hs
  exact Running.supervised ⟨rfl, fun _ => rfl, by simp [machine], by simp [machine],
    by simp [machine], by simp [machine], rfl⟩ rfl

theorem commands_eq {tr : List (LinkEvent (Message α))} {p : LinkPhase (Message α)}
    (h : link.observer.run .idle tr = some p) :
    writes tr = [] ∨ ∃ i n b rest, writes tr = .configure i n b :: rest ∧
      ∀ m ∈ rest, m = .activate ∨ m = .suspend := by
  rcases LockStep.run_writes h with hnil | ⟨m, rest, hw, hm, hrest⟩
  · exact Or.inl hnil
  · cases m with
    | configure i n b =>
      refine Or.inr ⟨i, n, b, rest, hw, fun m hm => ?_⟩
      have := hrest m hm
      cases m <;> simp_all [link]
    | _ => cases hm

/-- **Supervisor protocol**. The traffic of every run is `body` and possibly a final `Stop`. The
commands in `body` are one `Configure` and then `Activate` and `Suspend`, the earlier of two
commands is answered between them, and a message that is not the answer to a command just sent ends
the loop with an error. While the loop runs an activating consumer has a session, a network and a
deadline and the VPN is online; the two checks of the source for that are never hit. -/
theorem supervise_protocol (identity : Identity) (parse : String → Option α) (bootstrap : String)
    (s : State α) (h : (machine identity parse bootstrap).Reachable s) :
    (∃ body stop, s.trace = body ++ stop ∧
      (stop = [] ∨ stop = [.write .stop] ∧ s.result ≠ none) ∧
      (writes body = [] ∨ ∃ i n b rest, writes body = .configure i n b :: rest ∧
        ∀ m ∈ rest, m = .activate ∨ m = .suspend) ∧
      ∀ a b m m', a ++ .write m :: (b ++ [.write m']) <+: body → .read (link.answer m) ∈ b) ∧
    (∀ r t s', step identity parse s (.message (some (.ok r)) t) = some s' →
      (∃ tr m, s.trace = tr ++ [.write m] ∧ r = link.answer m) ∨
        ∃ e, s'.result = some (.error e)) ∧
    (s.result = none →
      (s.worker = .activating →
        s.online = true ∧ s.session.isSome ∧ s.network.isSome ∧ s.deadline.isSome) ∧
      (s.worker = .active → s.online = true ∧ s.wasConnected = true ∧ s.deadline = none) ∧
      (s.worker = .suspending → s.deadline.isSome)) ∧
    s.result ≠ some (.error .offline) ∧ s.result ≠ some (.error .sessionMissing) := by
  have hsup := reachable_supervised h
  refine ⟨?_, fun r t s' hs => ?_, fun hres => ?_, hsup.online, hsup.session⟩
  · obtain ⟨good, rest, stop, p, htr, hgood, hrest, hstop, hnil⟩ := hsup.accepted
    refine ⟨good ++ rest, stop, by simp [htr], ?_, ?_, fun a b m m' hpre => ?_⟩
    · refine hstop.imp_right fun hstop => ⟨hstop, fun hres => ?_⟩
      have := hnil (hsup.running hres).stopped
      rw [hstop] at this; cases this
    · have hw : writes (good ++ rest) = writes good := by
        rcases hrest with rfl | ⟨r, rfl⟩ <;> simp [writes]
      rw [hw]
      exact commands_eq hgood
    · suffices hpre : a ++ .write m :: (b ++ [.write m']) <+: good from
        LockStep.run_between hgood hpre
      rcases hrest with rfl | ⟨r, rfl⟩
      · simpa using hpre
      · -- the message that ended the loop is not a command
        rcases List.prefix_concat_iff.mp hpre with heq | hpre
        · rw [← List.cons_append, ← List.append_assoc] at heq
          cases (List.append_inj' heq rfl).2
        · exact hpre
  · obtain ⟨hp, rfl⟩ := Option.ite_some_none_eq_some.mp hs
    have hrun := hsup.running (polls_result hp)
    rcases onMessage_answers s t identity bootstrap r with ⟨m, hph, hr⟩ | ⟨e, he⟩
    · obtain ⟨tr, htr⟩ := LockStep.run_outstanding (hph ▸ hrun.linked)
      exact Or.inl ⟨tr, m, htr, hr⟩
    · exact Or.inr ⟨e, by rw [he]; exact turn_bail _ t e⟩
  · have hrun := hsup.running hres
    refine ⟨fun hw => ?_, fun hw => ?_, hrun.suspending⟩
    · obtain ⟨honline, hsession, hdeadline⟩ := hrun.activating hw
      exact ⟨honline, hsession, hrun.network (by simp [hw]), hdeadline⟩
    · obtain ⟨honline, hconnected, hdeadline, -⟩ := hrun.active hw
      exact ⟨honline, hconnected, hdeadline⟩

/-- A consumer is configured and activated, and is suspended when the VPN reconnects. -/
def suspendingRun : List (Label ℕ) :=
  [.native (some (.event (.configuration (some { ipv4 := some "1/32", mtu := some 1400 })))) { now := 0 },
    .native (some (.established ⟨none, none, none⟩)) { now := 1 },
    .message (some (.ok .ready)) { now := 2 }, .message (some (.ok .activated)) { now := 3 },
    .native (some (.event .reconnecting)) { now := 20 }]

/-- In that run the suspension is outstanding, and nothing but its answer is accepted. -/
theorem supervise_protocol_suspending : ∃ s : State ℕ,
    (machine ⟨1, 2, 3⟩ (fun _ => some 1) "token").Reachable s ∧ s.worker = .suspending ∧
    writes s.trace = [.configure ⟨1, 2, 3⟩ ⟨[1], [], [], 1400⟩ "token", .activate, .suspend] ∧
    s.deadline.isSome ∧
    ∀ t s', step ⟨1, 2, 3⟩ (fun _ => some 1) s (.message (some (.ok .activated)) t) = some s' →
      ∃ e, s'.result = some (.error e) := by
  obtain ⟨s, hr, hs⟩ := Machine.Reachable.of_run (M := machine ⟨1, 2, 3⟩ (fun _ => some 1) "token")
    suspendingRun (p := fun s => decide (s.result = none ∧ s.worker = .suspending ∧
      s.trace = [.write (.configure ⟨1, 2, 3⟩ ⟨[1], [], [], 1400⟩ "token"), .read .ready,
        .write .activate, .read .activated] ++ [.write .suspend])) (by decide +kernel)
  obtain ⟨hres, hw, htr⟩ := of_decide_eq_true hs
  obtain ⟨-, hanswer, hstates, -⟩ := supervise_protocol _ _ _ s hr
  refine ⟨s, hr, hw, by rw [htr]; rfl, (hstates hres).2.2 hw, fun t s' hs' => ?_⟩
  rcases hanswer _ t s' hs' with ⟨tr, m, htr', hm⟩ | herr
  · cases (List.append_inj' (htr.symm.trans htr') rfl).2
    cases hm
  · exact herr

end GlobalProtect.Service.ScriptTun
