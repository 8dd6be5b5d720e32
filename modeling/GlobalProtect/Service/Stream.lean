import GlobalProtect.Lib.Store
import GlobalProtect.Service.Registry.Model
import GlobalProtect.Widget.Pump

/-! # The event stream

The model of `WsServerContext`: the state of the service under its mutex, the connections that are
registered for events, and the bounded queue of each connection. A connection is registered by
`prepare_connection`, before it is committed, and leaves the registration when it is abandoned,
replaced, removed or when its queue is full. Its handle lives on, and so does the queue: the task of
the connection can still ask for a snapshot.

A registered connection is in step with the service (`InStep.synced`): what was enqueued for it is
accepted by a replica and brings it to the current revision and facts. Once it is not registered any
more only replies and snapshots of the current state can follow (`Left.move`). Both are derived from
the shapes of a step (`Move`).

What the registry answers, what the tunnel monitor reports, and what the connection task takes from
its queue is in the labels. Statistics are left out. The size of encoded messages is given by a
`Codec`. -/

namespace GlobalProtect.Service.Stream

open Lib Api
open Service.Registry (SessionError)

variable {γ : Type}

/-! ### Fitting a snapshot -/

def maxPlaintext : ℕ := 60 * 1024

/-- The encoder of the transport, as far as sizes go; `none` where encoding fails. -/
structure Codec (γ : Type) where
  messageSize : ServerMessage γ → Option ℕ
  configurationSize : γ → Option ℕ
  /-- `TunnelConfiguration::limit_encoded_size`, and whether it succeeded. -/
  limitEncodedSize : γ → ℕ → γ × Bool

/-- Shortens the configuration in a snapshot by `excess` bytes. -/
def Codec.shorten (c : Codec γ) (excess : ℕ) (env : VpnEnv γ) : Option (VpnEnv γ) := do
  let tunnel ← env.tunnelState
  let configuration ← tunnel.configuration
  let size ← c.configurationSize configuration
  let remaining ← checkedSub size excess
  let (configuration, fits) := c.limitEncodedSize configuration remaining
  if fits then
    some { env with tunnelState := some { tunnel with configuration := some configuration } }
  else none

/-- Shortens the configuration in a message that carries a snapshot. -/
def Codec.shortenMessage (c : Codec γ) (excess : ℕ) : ServerMessage γ → Option (ServerMessage γ)
  | .attached id revision env => (c.shorten excess env).map (.attached id revision)
  | .snapshot revision env => (c.shorten excess env).map (.snapshot revision)
  | _ => none

/-- `fit_snapshot_message`; `none` is its error. -/
def Codec.fitSnapshotMessage (c : Codec γ) (message : ServerMessage γ) :
    Option (ServerMessage γ) := do
  let size ← c.messageSize message
  match checkedSub size maxPlaintext with
  | none => some message
  | some 0 => some message
  | some excess =>
    let message ← c.shortenMessage excess message
    let size ← c.messageSize message
    if size > maxPlaintext then none else some message

/-! ### Connections -/

inductive ConnectionCommand (γ : Type) where
  | send (message : ServerMessage γ)
  | reply (id : Uuid) (result : ServiceResult)
  deriving DecidableEq

/-- The message that the task of the connection writes for a command. -/
def ConnectionCommand.message : ConnectionCommand γ → ServerMessage γ
  | .send message => message
  | .reply id result => .reply id result

/-- The shared state behind a `ConnectionControl`. `sent` is a history: the messages of the commands
that were enqueued. -/
structure ConnectionControl (γ : Type) where
  channel : Channel (ConnectionCommand γ)
  closeReason : Option CloseReason := none
  committed : Bool := false
  sent : List (ServerMessage γ) := []
  deriving DecidableEq

namespace ConnectionControl

variable (c : ConnectionControl γ)

def send (command : ConnectionCommand γ) : Option (ConnectionControl γ) :=
  match c.channel.trySend command with
  | .ok channel => some { c with channel, sent := c.sent ++ [command.message] }
  | .error _ => none

def isClosed : Bool := c.channel.closed || c.closeReason.isSome

def close (reason : CloseReason) : ConnectionControl γ := { c with closeReason := some reason }

theorem send_eq_some {c c' : ConnectionControl γ} {command : ConnectionCommand γ}
    (h : c.send command = some c') : c'.sent = c.sent ++ [command.message] := by
  unfold send at h
  split at h
  · cases h; rfl
  · cases h

end ConnectionControl

/-! ### The service -/

structure State (γ : Type) where
  revision : ℕ := 0
  snapshot : VpnEnv γ
  connections : List Uuid := []
  controls : Store Uuid (ConnectionControl γ) := ∅

namespace State

variable (s : State γ)

/-- `ServiceState::snapshot`; `monitor` is what the bound tunnel monitor reports. -/
def current (monitor : Option (TunnelState γ)) : VpnEnv γ :=
  match monitor with
  | some state => { s.snapshot with tunnelState := some state }
  | none => s.snapshot

/-- `state.connections.remove`. -/
def unregister (id : Uuid) : State γ :=
  { s with connections := s.connections.filter (· ≠ id) }

/-- `WsServerContext::prepare_connection`, for a new connection with a queue of its own;
`prepared` is what `prepare_attach` returns. -/
def prepareConnection (codec : Codec γ) (id : Uuid) (capacity : ℕ)
    (prepared : Except SessionError ℕ) (monitor : Option (TunnelState γ)) : State γ :=
  match prepared with
  | .error _ => s
  | .ok _ =>
    match codec.fitSnapshotMessage (.attached id s.revision (s.current monitor)) with
    | none => s
    | some attached =>
      match ({ channel := { capacity } } : ConnectionControl γ).send (.send attached) with
      | none => s
      | some control =>
        { s with
          controls := s.controls.insert id control
          connections := s.connections ++ [id] }

/-- `WsServerContext::commit_connection`; `result` is what `commit_attach` returns. -/
def commitConnection (id : Uuid) (control : ConnectionControl γ)
    (result : Except SessionError (Option Uuid)) : State γ :=
  if id ∉ s.connections ∨ control.isClosed then s
  else
    match result with
    | .ok replaced =>
      let s := { s with controls := s.controls.insert id { control with committed := true } }
      match replaced with
      | some replaced => s.unregister replaced
      | none => s
    | .error _ => s.unregister id

def removeClosedConnections : State γ :=
  { s with
    connections := s.connections.filter fun id =>
      (s.controls.lookup id).any fun control => !control.isClosed }

def sendSnapshot (codec : Codec γ) (id : Uuid) (control : ConnectionControl γ)
    (monitor : Option (TunnelState γ)) : State γ :=
  match codec.fitSnapshotMessage (.snapshot s.revision (s.current monitor)) with
  | none => s
  | some message =>
    match control.send (.send message) with
    | none => s
    | some control => { s with controls := s.controls.insert id control }

/-- Applies `f` to the registered connections. -/
def onRegistered (f : ConnectionControl γ → ConnectionControl γ) :
    Store Uuid (ConnectionControl γ) :=
  s.controls.mapValues fun id control => if id ∈ s.connections then f control else control

def sendEvent (event : WsEvent γ) : State γ :=
  let s := { s with snapshot := event.apply s.snapshot }
  match checkedAdd s.revision 1 with
  | none => { s with controls := s.onRegistered (·.close .internalError), connections := [] }
  | some revision =>
    let command := .send (.event revision event)
    { s with
      revision
      controls := s.onRegistered fun control =>
        (control.send command).getD (control.close .internalError)
      connections := s.connections.filter fun id =>
        (s.controls.lookup id).any fun control => (control.send command).isSome }

end State

inductive Label (γ : Type) where
  | prepareConnection (id : Uuid) (capacity : ℕ) (prepared : Except SessionError ℕ)
      (monitor : Option (TunnelState γ))
  | commitConnection (id : Uuid) (result : Except SessionError (Option Uuid))
  | abandonConnection (id : Uuid)
  | removeConnection (id : Uuid)
  | removeClosedConnections
  | sendSnapshot (id : Uuid) (monitor : Option (TunnelState γ))
  | sendEvent (event : WsEvent γ)
  | reply (id request : Uuid) (result : ServiceResult)
  /-- The task of a connection takes a command. -/
  | receive (id : Uuid)
  | hangUp (id : Uuid)
  | close (id : Uuid) (reason : CloseReason)

/-- One step of the service; a connection has an id of its own. -/
def step (codec : Codec γ) (s : State γ) : Label γ → Option (State γ)
  | .prepareConnection id capacity prepared monitor =>
    if (s.controls.lookup id).isSome then none
    else some (s.prepareConnection codec id capacity prepared monitor)
  | .commitConnection id result =>
    (s.controls.lookup id).map fun control => s.commitConnection id control result
  | .abandonConnection id => some (s.unregister id)
  | .removeConnection id => some (s.unregister id)
  | .removeClosedConnections => some s.removeClosedConnections
  | .sendSnapshot id monitor =>
    (s.controls.lookup id).map fun control => s.sendSnapshot codec id control monitor
  | .sendEvent event => some (s.sendEvent event)
  | .reply id request result =>
    (s.controls.lookup id).bind fun control =>
      (control.send (.reply request result)).map fun control =>
        { s with controls := s.controls.insert id control }
  | .receive id =>
    (s.controls.lookup id).map fun control =>
      { s with
        controls := s.controls.insert id
          { control with channel := { control.channel with queue := control.channel.queue.tail } } }
  | .hangUp id =>
    (s.controls.lookup id).map fun control =>
      { s with
        controls := s.controls.insert id
          { control with channel := { control.channel with closed := true } } }
  | .close id reason =>
    (s.controls.lookup id).map fun control =>
      { s with controls := s.controls.insert id (control.close reason) }

/-- The service, started with a snapshot. -/
def machine (codec : Codec γ) (snapshot : VpnEnv γ) : Machine (State γ) (Label γ) where
  init := { snapshot }
  step := step codec

/-! ### What is enqueued -/

theorem Codec.shorten_facts {codec : Codec γ} {excess : ℕ} {env env' : VpnEnv γ}
    (h : codec.shorten excess env = some env') : env'.facts = env.facts := by
  simp only [Codec.shorten, Option.bind_eq_bind, Option.bind_eq_some_iff,
    Option.ite_none_right_eq_some, Option.some.injEq] at h
  obtain ⟨tunnel, -, configuration, -, size, -, remaining, -, -, rfl⟩ := h
  rfl

theorem Codec.fit_eq_some {codec : Codec γ} {m m' : ServerMessage γ}
    (h : codec.fitSnapshotMessage m = some m') :
    m' = m ∨ (∃ id r env env', m = .attached id r env ∧ m' = .attached id r env' ∧
      env'.facts = env.facts) ∨ ∃ r env env', m = .snapshot r env ∧ m' = .snapshot r env' ∧
      env'.facts = env.facts := by
  simp only [Codec.fitSnapshotMessage, Option.bind_eq_bind, Option.bind_eq_some_iff] at h
  obtain ⟨size, -, h⟩ := h
  split at h
  · exact Or.inl (Option.some.inj h).symm
  · exact Or.inl (Option.some.inj h).symm
  · obtain ⟨x, hx, h⟩ := Option.bind_eq_some_iff.mp h
    obtain ⟨size', -, h⟩ := Option.bind_eq_some_iff.mp h
    obtain ⟨-, h⟩ := Option.ite_none_left_eq_some.mp h
    cases h
    unfold Codec.shortenMessage at hx
    split at hx
    · obtain ⟨env', henv, rfl⟩ := Option.map_eq_some_iff.mp hx
      exact Or.inr (Or.inl ⟨_, _, _, env', rfl, rfl, codec.shorten_facts henv⟩)
    · obtain ⟨env', henv, rfl⟩ := Option.map_eq_some_iff.mp hx
      exact Or.inr (Or.inr ⟨_, _, env', rfl, rfl, codec.shorten_facts henv⟩)
    · cases hx

theorem Codec.fit_attached {codec : Codec γ} {id : Uuid} {r : ℕ} {env : VpnEnv γ}
    {m : ServerMessage γ} (h : codec.fitSnapshotMessage (.attached id r env) = some m) :
    ∃ env', m = .attached id r env' ∧ env'.facts = env.facts := by
  rcases codec.fit_eq_some h with rfl | ⟨_, _, _, env', ⟨⟩, rfl, hf⟩ | ⟨_, _, _, ⟨⟩, -⟩
  · exact ⟨env, rfl, rfl⟩
  · exact ⟨env', rfl, hf⟩

theorem Codec.fit_snapshot {codec : Codec γ} {r : ℕ} {env : VpnEnv γ} {m : ServerMessage γ}
    (h : codec.fitSnapshotMessage (.snapshot r env) = some m) :
    ∃ env', m = .snapshot r env' ∧ env'.facts = env.facts := by
  rcases codec.fit_eq_some h with rfl | ⟨_, _, _, _, ⟨⟩, -⟩ | ⟨_, _, env', ⟨⟩, rfl, hf⟩
  · exact ⟨env, rfl, rfl⟩
  · exact ⟨env', rfl, hf⟩

theorem State.current_facts (s : State γ) (monitor : Option (TunnelState γ)) :
    (s.current monitor).facts = s.snapshot.facts := by
  cases monitor <;> rfl

/-! ### What a step does -/

/-- What a step other than an event may enqueue for a connection: nothing, a reply, or a snapshot of
the service as it is now. -/
def Adds (s : State γ) (sent sent' : List (ServerMessage γ)) : Prop :=
  sent' = sent ∨ (∃ request result, sent' = sent ++ [.reply request result]) ∨
    ∃ env, sent' = sent ++ [.snapshot s.revision env] ∧ env.facts = s.snapshot.facts

variable {s s' : State γ}

/-- The shapes of a step. -/
inductive Move (s : State γ) : State γ → Prop
  | shrink {connections : List Uuid} (hsub : connections ⊆ s.connections) :
      Move s { s with connections }
  | enqueue {id : Uuid} {d d' : ConnectionControl γ} {connections : List Uuid}
      (hd : s.controls.lookup id = some d) (hadds : Adds s d.sent d'.sent)
      (hsub : connections ⊆ s.connections) :
      Move s { s with controls := s.controls.insert id d', connections }
  | attach {id : Uuid} {d : ConnectionControl γ} {env : VpnEnv γ}
      (hnew : s.controls.lookup id = none) (hsent : d.sent = [.attached id s.revision env])
      (hfacts : env.facts = s.snapshot.facts) :
      Move s { s with
        controls := s.controls.insert id d
        connections := s.connections ++ [id] }
  | event (event : WsEvent γ) : Move s (s.sendEvent event)

theorem Move.nothing : Move s s := .shrink (List.Subset.refl _)

theorem Move.prepareConnection (codec : Codec γ) {id : Uuid} (hnew : s.controls.lookup id = none)
    (capacity : ℕ) (prepared : Except SessionError ℕ) (monitor : Option (TunnelState γ)) :
    Move s (s.prepareConnection codec id capacity prepared monitor) := by
  unfold State.prepareConnection
  split
  · exact .nothing
  split
  · exact .nothing
  next attached hfit =>
  split
  · exact .nothing
  next control hsend =>
  obtain ⟨env, rfl, hfacts⟩ := codec.fit_attached hfit
  exact .attach hnew (ConnectionControl.send_eq_some hsend) (hfacts.trans (s.current_facts monitor))

theorem Move.commitConnection {id : Uuid} {c : ConnectionControl γ}
    (hc : s.controls.lookup id = some c) (result : Except SessionError (Option Uuid)) :
    Move s (s.commitConnection id c result) := by
  unfold State.commitConnection
  split_ifs
  · exact .nothing
  · cases result with
    | error e => exact .shrink (List.filter_subset_self _)
    | ok replaced =>
      cases replaced with
      | none => exact .enqueue hc (Or.inl rfl) (List.Subset.refl _)
      | some replaced => exact .enqueue hc (Or.inl rfl) (List.filter_subset_self _)

theorem Move.sendSnapshot (codec : Codec γ) {id : Uuid} {c : ConnectionControl γ}
    (hc : s.controls.lookup id = some c) (monitor : Option (TunnelState γ)) :
    Move s (s.sendSnapshot codec id c monitor) := by
  unfold State.sendSnapshot
  split
  · exact .nothing
  next message hfit =>
  split
  · exact .nothing
  next c' hsend =>
  obtain ⟨env, rfl, hfacts⟩ := codec.fit_snapshot hfit
  refine .enqueue hc (Or.inr (Or.inr ⟨env, ?_, hfacts.trans (s.current_facts monitor)⟩))
    (List.Subset.refl _)
  exact ConnectionControl.send_eq_some hsend

theorem Move.of_step {codec : Codec γ} {l : Label γ} (hs : step codec s l = some s') :
    Move s s' := by
  cases l with
  | prepareConnection id capacity prepared monitor =>
    obtain ⟨hnew, hs⟩ := Option.ite_none_left_eq_some.mp hs
    cases hs
    exact .prepareConnection codec (Option.not_isSome_iff_eq_none.mp hnew) _ _ _
  | commitConnection id result =>
    obtain ⟨c, hc, rfl⟩ := Option.map_eq_some_iff.mp hs
    exact .commitConnection hc result
  | abandonConnection id | removeConnection id | removeClosedConnections =>
    cases hs
    exact .shrink (List.filter_subset_self _)
  | sendSnapshot id monitor =>
    obtain ⟨c, hc, rfl⟩ := Option.map_eq_some_iff.mp hs
    exact .sendSnapshot codec hc monitor
  | sendEvent event =>
    cases hs
    exact .event event
  | reply id request result =>
    obtain ⟨c, hc, hs⟩ := Option.bind_eq_some_iff.mp hs
    obtain ⟨c', hsend, rfl⟩ := Option.map_eq_some_iff.mp hs
    exact .enqueue hc (Or.inr (Or.inl ⟨_, _, ConnectionControl.send_eq_some hsend⟩))
      (List.Subset.refl _)
  | receive id | hangUp id | close id reason =>
    obtain ⟨c, hc, rfl⟩ := Option.map_eq_some_iff.mp hs
    exact .enqueue hc (Or.inl rfl) (List.Subset.refl _)

/-! ### The invariant -/

/-- The part of the messages in the replication. -/
def feedOf (ms : List (ServerMessage γ)) : List (FeedMessage (VpnEnv γ) (WsEvent γ)) :=
  ms.filterMap (·.feed)

theorem feedOf_append (ms ms' : List (ServerMessage γ)) :
    feedOf (ms ++ ms') = feedOf ms ++ feedOf ms' := List.filterMap_append

/-- A message that may be enqueued for a connection that is not registered any more. -/
def IsLate (m : ServerMessage γ) : Prop :=
  (∃ r x, m = .snapshot r x) ∨ ∃ id result, m = .reply id result

/-- What holds of the messages of every connection: a stream that a replica accepts, and late
messages. -/
structure Ordered (id : Uuid) (sent : List (ServerMessage γ)) : Prop where
  attached : ∃ r x rest, sent = .attached id r x :: rest
  settled : ∃ agreed late, sent = agreed ++ late ∧
    (∃ v, vpnFeed.observer.run none (feedOf agreed) = some (some v)) ∧ ∀ m ∈ late, IsLate m
  bounded : ∀ r e, ServerMessage.event r e ∈ sent → r < wordSize

theorem Ordered.late {id : Uuid} {sent : List (ServerMessage γ)} (h : Ordered id sent)
    {m : ServerMessage γ} (hm : IsLate m) : Ordered id (sent ++ [m]) := by
  obtain ⟨r, x, rest, hs⟩ := h.attached
  obtain ⟨agreed, late, heq, hv, hlate⟩ := h.settled
  refine ⟨⟨r, x, rest ++ [m], by rw [hs]; rfl⟩,
    ⟨agreed, late ++ [m], by rw [heq]; simp, hv, forall_mem_snoc hlate hm⟩, fun r e he => ?_⟩
  rcases List.mem_append.mp he with he | he
  · exact h.bounded r e he
  · rw [← List.mem_singleton.mp he] at hm
    rcases hm with ⟨_, _, ⟨⟩⟩ | ⟨_, _, ⟨⟩⟩

theorem Ordered.event {id : Uuid} {sent : List (ServerMessage γ)} (h : Ordered id sent) {r : ℕ}
    {e : WsEvent γ} {x : VpnEnv γ} (hlt : r < wordSize)
    (hr : vpnFeed.Reaches (feedOf (sent ++ [.event r e])) r x) :
    Ordered id (sent ++ [.event r e]) := by
  obtain ⟨r₀, x₀, rest, hs⟩ := h.attached
  obtain ⟨v, hv, -⟩ := hr
  refine ⟨⟨r₀, x₀, rest ++ [.event r e], by rw [hs]; rfl⟩,
    ⟨_, [], (List.append_nil _).symm, ⟨v, hv⟩, by simp⟩, ?_⟩
  intro r' e' he'
  rcases List.mem_append.mp he' with he' | he'
  · exact h.bounded r' e' he'
  · obtain ⟨rfl, rfl⟩ := ServerMessage.event.inj (List.mem_singleton.mp he')
    exact hlt

structure InStep (s : State γ) : Prop where
  revision_lt : s.revision < wordSize
  ordered : ∀ id c, s.controls.lookup id = some c → Ordered id c.sent
  /-- A registered connection is in step with the service. -/
  synced : ∀ id c, s.controls.lookup id = some c → id ∈ s.connections →
    vpnFeed.Reaches (feedOf c.sent) s.revision s.snapshot

theorem Adds.reaches {sent sent' : List (ServerMessage γ)} (h : Adds s sent sent')
    (hr : vpnFeed.Reaches (feedOf sent) s.revision s.snapshot) :
    vpnFeed.Reaches (feedOf sent') s.revision s.snapshot := by
  rcases h with rfl | ⟨request, result, rfl⟩ | ⟨env, rfl, hfacts⟩
  · exact hr
  · rw [feedOf_append]
    exact (List.append_nil (feedOf sent)).symm ▸ hr
  · rw [feedOf_append]
    exact hr.checkpoint hfacts

theorem Ordered.adds {id : Uuid} {sent sent' : List (ServerMessage γ)} (h : Ordered id sent)
    (hadds : Adds s sent sent') : Ordered id sent' := by
  rcases hadds with rfl | ⟨request, result, rfl⟩ | ⟨env, rfl, -⟩
  · exact h
  · exact h.late (Or.inr ⟨_, _, rfl⟩)
  · exact h.late (Or.inl ⟨_, _, rfl⟩)

section

variable (h : InStep s)
include h

theorem InStep.enqueue {id : Uuid} {d d' : ConnectionControl γ} {connections : List Uuid}
    (hd : s.controls.lookup id = some d) (hadds : Adds s d.sent d'.sent)
    (hsub : connections ⊆ s.connections) :
    InStep { s with controls := s.controls.insert id d', connections } := by
  refine ⟨h.revision_lt, fun id' x hx => ?_, fun id' x hx hid => ?_⟩
  · rcases Store.lookup_insert_cases hx with ⟨rfl, rfl⟩ | ⟨-, hx⟩
    · exact (h.ordered _ d hd).adds hadds
    · exact h.ordered id' x hx
  · rcases Store.lookup_insert_cases hx with ⟨rfl, rfl⟩ | ⟨-, hx⟩
    · exact hadds.reaches (h.synced _ d hd (hsub hid))
    · exact h.synced id' x hx (hsub hid)

theorem InStep.attach {id : Uuid} {d : ConnectionControl γ} {env : VpnEnv γ}
    (hsent : d.sent = [.attached id s.revision env]) (hfacts : env.facts = s.snapshot.facts) :
    InStep { s with
      controls := s.controls.insert id d
      connections := s.connections ++ [id] } := by
  have hreach : vpnFeed.Reaches (feedOf d.sent) s.revision s.snapshot := by
    rw [hsent]; exact .base hfacts
  refine ⟨h.revision_lt, fun id' c hc => ?_, fun id' c hc hid => ?_⟩
  · rcases Store.lookup_insert_cases hc with ⟨rfl, rfl⟩ | ⟨-, hc⟩
    · obtain ⟨v, hv, -⟩ := hreach
      refine ⟨⟨_, env, [], hsent⟩, ⟨_, [], (List.append_nil _).symm, ⟨v, hv⟩, by simp⟩, ?_⟩
      rw [hsent]
      intro r e he
      cases List.mem_singleton.mp he
    · exact h.ordered id' c hc
  · rcases Store.lookup_insert_cases hc with ⟨rfl, rfl⟩ | ⟨hne, hc⟩
    · exact hreach
    · refine h.synced id' c hc ((List.mem_append.mp hid).resolve_right fun hid => hne ?_)
      exact List.mem_singleton.mp hid

theorem InStep.sendEvent (event : WsEvent γ) : InStep (s.sendEvent event) := by
  unfold State.sendEvent State.onRegistered
  simp only
  split
  · -- the revision is exhausted: nobody is registered any more
    refine ⟨h.revision_lt, fun id c hc => ?_, fun id c hc hid => ?_⟩
    · rw [Store.lookup_mapValues] at hc
      obtain ⟨c₀, hc₀, rfl⟩ := Option.map_eq_some_iff.mp hc
      split_ifs <;> exact h.ordered id c₀ hc₀
    · cases hid
  · next revision hadd =>
    obtain ⟨hlt, rfl⟩ := checkedAdd_eq_some.mp hadd
    refine ⟨hlt, fun id c hc => ?_, fun id c hc hid => ?_⟩
    · rw [Store.lookup_mapValues] at hc
      obtain ⟨c₀, hc₀, rfl⟩ := Option.map_eq_some_iff.mp hc
      have hord := h.ordered id c₀ hc₀
      split_ifs with hid
      · cases hsend : c₀.send (.send (.event (s.revision + 1) event)) with
        | none => exact hord
        | some c' =>
          rw [Option.getD_some, ConnectionControl.send_eq_some hsend]
          refine hord.event hlt (x := event.apply s.snapshot) ?_
          rw [feedOf_append]
          exact (h.synced id c₀ hc₀ hid).delta event
      · exact hord
    · rw [Store.lookup_mapValues] at hc
      obtain ⟨c₀, hc₀, rfl⟩ := Option.map_eq_some_iff.mp hc
      obtain ⟨hid, hok⟩ := List.mem_filter.mp hid
      rw [hc₀, Option.any_some, Option.isSome_iff_exists] at hok
      obtain ⟨c', hsend⟩ := hok
      rw [if_pos hid, hsend, Option.getD_some, ConnectionControl.send_eq_some hsend, feedOf_append]
      exact (h.synced id c₀ hc₀ hid).delta event

theorem InStep.move (hs : Move s s') : InStep s' := by
  cases hs with
  | shrink hsub => exact ⟨h.revision_lt, h.ordered, fun id c hc hid => h.synced id c hc (hsub hid)⟩
  | enqueue hd hadds hsub => exact h.enqueue hd hadds hsub
  | attach hnew hsent hfacts => exact h.attach hsent hfacts
  | event event => exact h.sendEvent event

end

theorem reachable_inStep {codec : Codec γ} {env : VpnEnv γ}
    (h : (machine codec env).Reachable s) : InStep s := by
  refine h.invariant (P := InStep) ⟨Nat.two_pow_pos 64, ?_, ?_⟩
    fun s l s' _ hi hs => hi.move (.of_step hs)
  · rintro id c ⟨⟩
  · rintro id c ⟨⟩

/-! ### A connection that is not registered any more -/

/-- The connection stays unregistered. -/
def Left (s : State γ) (id : Uuid) (c : ConnectionControl γ) (s' : State γ) : Prop :=
  id ∉ s'.connections ∧ ∃ c', s'.controls.lookup id = some c' ∧ Adds s c.sent c'.sent

theorem Left.enqueue {id id' : Uuid} {c d d' : ConnectionControl γ}
    (hc : s.controls.lookup id = some c) (hid : id ∉ s'.connections)
    (hd : s.controls.lookup id' = some d) (hadds : Adds s d.sent d'.sent)
    (hcontrols : s'.controls = s.controls.insert id' d') : Left s id c s' := by
  refine ⟨hid, ?_⟩
  rw [hcontrols]
  by_cases heq : id = id'
  · subst heq
    obtain rfl := Option.some.inj (hc.symm.trans hd)
    exact ⟨d', AList.lookup_insert _, hadds⟩
  · exact ⟨c, by rw [AList.lookup_insert_ne heq, hc], Or.inl rfl⟩

theorem Left.sendEvent {id : Uuid} {c : ConnectionControl γ} (hc : s.controls.lookup id = some c)
    (hid : id ∉ s.connections) (event : WsEvent γ) : Left s id c (s.sendEvent event) := by
  have hlookup : ∀ f, (State.onRegistered { s with snapshot := event.apply s.snapshot } f).lookup id =
      some c := by
    intro f
    rw [State.onRegistered, Store.lookup_mapValues, hc, Option.map_some, if_neg hid]
  unfold State.sendEvent
  dsimp only
  split
  · exact ⟨List.not_mem_nil, c, hlookup _, Or.inl rfl⟩
  · exact ⟨fun h => hid (List.mem_filter.mp h).1, c, hlookup _, Or.inl rfl⟩

theorem Left.move {id : Uuid} {c : ConnectionControl γ} (hc : s.controls.lookup id = some c)
    (hid : id ∉ s.connections) (hs : Move s s') : Left s id c s' := by
  cases hs with
  | shrink hsub => exact ⟨fun h => hid (hsub h), c, hc, Or.inl rfl⟩
  | enqueue hd hadds hsub => exact .enqueue hc (fun h => hid (hsub h)) hd hadds rfl
  | @attach id' d env hnew hsent hfacts =>
    have hne : id ≠ id' := by
      rintro rfl
      cases hc.symm.trans hnew
    exact ⟨by simp [hid, hne], c, by rw [AList.lookup_insert_ne hne, hc], Or.inl rfl⟩
  | event event => exact .sendEvent hc hid event

/-! ### Agreement -/

/-- The revision of an event. -/
def eventRevision : ServerMessage γ → Option ℕ
  | .event r _ => some r
  | _ => none

theorem filterMap_eventRevision (ms : List (ServerMessage γ)) :
    ms.filterMap eventRevision = (feedOf ms).filterMap (·.delta?) := by
  rw [feedOf, List.filterMap_filterMap]
  congr 1
  funext m
  cases m <;> rfl

theorem filterMap_eventRevision_late {late : List (ServerMessage γ)} (h : ∀ m ∈ late, IsLate m) :
    late.filterMap eventRevision = [] := by
  refine List.filterMap_eq_nil_iff.mpr fun m hm => ?_
  rcases h m hm with ⟨r, x, rfl⟩ | ⟨id, result, rfl⟩ <;> rfl

/-- After it was attached, a client sees the events numbered one by one, and its pump never asks for
a snapshot. -/
theorem Ordered.received {id : Uuid} {sent : List (ServerMessage γ)} (h : Ordered id sent) :
    ∃ r x rest n p, sent = .attached id r x :: rest ∧
      rest.filterMap eventRevision = List.range' (r + 1) n ∧
      (Widget.Pump.start r x).receiveAll rest = .ok p ∧ p.resyncs = [] := by
  obtain ⟨r, x, rest, rfl⟩ := h.attached
  obtain ⟨agreed, late, heq, ⟨v, hv⟩, hlate⟩ := h.settled
  -- the accepted part is not empty, so it starts with the same message
  obtain ⟨r', x', rest', hbase, hrun⟩ := Feed.run_base hv
  cases agreed with
  | nil => cases hbase
  | cons m agreed =>
    obtain ⟨rfl, rfl⟩ := List.cons.inj heq
    obtain ⟨hm, rfl⟩ := List.cons.inj hbase
    obtain ⟨rfl, rfl⟩ := FeedMessage.base.inj hm
    obtain ⟨-, hnum⟩ := Feed.run_deltas hrun
    obtain ⟨p, hp, hres⟩ := Widget.receiveAll_accepted (p := Widget.Pump.start r x) hrun rfl
      fun r' e he => h.bounded r' e (by simp [he])
    obtain ⟨p', hp', hres'⟩ := Widget.receiveAll_late p hlate
    refine ⟨r, x, agreed ++ late, v.revision - r, p', rfl, ?_, ?_, ?_⟩
    · rw [List.filterMap_append, filterMap_eventRevision_late hlate, List.append_nil,
        filterMap_eventRevision]
      exact hnum
    · rw [Widget.receiveAll_append, hp]
      exact hp'
    · rw [hres', hres]
      rfl

/-- **Event stream agreement**: what is enqueued for a connection while it is registered is accepted
by a replica and brings it to the revision and the facts of the service; once it is not registered
it stays so, and what a step enqueues for it is a reply or a snapshot of the service's current
state. So its events are numbered one by one after its `Attached`, and a client never misses one. -/
theorem event_stream_agreement (codec : Codec γ) (env : VpnEnv γ) (s : State γ)
    (h : (machine codec env).Reachable s) (id : Uuid) (c : ConnectionControl γ)
    (hc : s.controls.lookup id = some c) :
    (id ∈ s.connections → vpnFeed.Reaches (feedOf c.sent) s.revision s.snapshot) ∧
    (id ∉ s.connections → ∀ l s', step codec s l = some s' → Left s id c s') ∧
    (∃ agreed late, c.sent = agreed ++ late ∧
      (∃ v, vpnFeed.observer.run none (feedOf agreed) = some (some v)) ∧ ∀ m ∈ late, IsLate m) ∧
    ∃ r x rest n p, c.sent = .attached id r x :: rest ∧
      rest.filterMap eventRevision = List.range' (r + 1) n ∧
      (Widget.Pump.start r x).receiveAll rest = .ok p ∧ p.resyncs = [] := by
  have hi := reachable_inStep h
  have ho := hi.ordered id c hc
  exact ⟨hi.synced id c hc, fun hid l s' hs => .move hc hid (.of_step hs), ho.settled, ho.received⟩

/-- An encoder for which every message fits. -/
def smallCodec : Codec Unit := ⟨fun _ => some 0, fun _ => some 0, fun c _ => (c, true)⟩

def sampleEnv : VpnEnv Unit :=
  ⟨none, .disconnected, none, "/usr/bin/gpauth", ⟨⟨"host", "id", "", ""⟩⟩⟩

/-- Connection 1 is attached and replaced by connection 2; an event follows. -/
def takeoverRun : List (Label Unit) :=
  [.prepareConnection 1 4 (.ok 1) none, .commitConnection 1 (.ok none),
    .prepareConnection 2 4 (.ok 2) none, .commitConnection 2 (.ok (some 1)),
    .sendEvent (.vpnState .disconnecting)]

/-- After the takeover the new connection is in step, and the old one is left behind. -/
theorem event_stream_agreement_takeover : ∃ s c old, (machine smallCodec sampleEnv).Reachable s ∧
    s.controls.lookup 2 = some c ∧ s.controls.lookup 1 = some old ∧
    vpnFeed.Reaches (feedOf c.sent) 1 { sampleEnv with vpnState := .disconnecting } ∧
    ∀ s', step smallCodec s (.sendSnapshot 1 none) = some s' → Left s 1 old s' := by
  have hr : (machine smallCodec sampleEnv).Reachable _ := ⟨takeoverRun, rfl⟩
  exact ⟨_, _, _, hr, rfl, rfl,
    (event_stream_agreement smallCodec sampleEnv _ hr 2 _ rfl).1 (by decide),
    (event_stream_agreement smallCodec sampleEnv _ hr 1 _ rfl).2.1 (by decide) _⟩

/-- The replaced connection can still ask for a snapshot, and gets one that is ahead of the last
message it was sent. -/
theorem late_snapshot_ahead : ∃ s c, (machine smallCodec sampleEnv).Reachable s ∧
    s.controls.lookup 1 = some c ∧
    c.sent = [.attached 1 0 sampleEnv, .snapshot 1 { sampleEnv with vpnState := .disconnecting }] ∧
    vpnFeed.observer.run none (feedOf c.sent) = none :=
  ⟨_, _, ⟨takeoverRun ++ [.sendSnapshot 1 none], rfl⟩, rfl, rfl, rfl⟩

end GlobalProtect.Service.Stream
