import GlobalProtect.Service.Lifecycle.Effects
import GlobalProtect.Service.Registry.Attach

/-! # Non-tunnel work and its attachment

The registry and the lifecycle together, as the request dispatcher connects them. Non-tunnel work is
reserved by a session on the connection it is attached with (`reserve_connection` runs
`reserve_connect` under the lock of the registry), it is queued by `commit_connection`, and it is
cancelled when that attachment ends. The two modules keep the tie in different places: the registry
retains one handle per session, and overwrites it; what makes this safe is that the lifecycle admits
one attempt at a time and completes it before it admits the next (`reachable_drained`).

An attempt has completed once it has given up its admission: `clear_attempt` signals the completion
right after it has released the slot, when nothing of the attempt is left to run.

The dispatcher is the only caller of `reserve_connect` and of `commit`, a preparation is committed
with the session and the generation it was reserved for, and a connection, with an id of its own, is
attached after `prepare_attach` has succeeded for its permit. -/

namespace GlobalProtect.Service.Attachment

open Lib Api
open Service.Lifecycle (ConnectReservation)
open Service.Registry (AttemptDrain Attach Sessions SessionRecord Work)

/-! ### The machine -/

/-- `ConnectionPreparation`, with the request that is being prepared. -/
structure Preparation where
  sessionId : Uuid
  generation : ℕ
  nonTunnel : Bool
  request : ConnectRequest
  reservation : ConnectReservation
  deriving DecidableEq

structure State where
  lifecycle : Lifecycle.State := {}
  registry : Registry.State := {}
  closed : Finset Uuid := ∅
  preparations : List Preparation := []
  work : List Work := []
  stopped : Finset Uuid := ∅

inductive Label where
  | lifecycle (l : Lifecycle.Label)
  | registry (l : Registry.Label)
  | reserveConnection (sessionId : Uuid) (generation : ℕ) (request : ConnectRequest)
  | commitConnection (p : Preparation)
  | stopNonTunnelAttachment (sessionId : Uuid) (generation : ℕ) (connectionId : Uuid)
  | close (connection : Uuid)
  deriving DecidableEq

/-- `ConnectReservation::drain`; a reservation retains its admission. -/
def drain (s : Lifecycle.State) (r : ConnectReservation) : AttemptDrain where
  cancellation := r.cancellation
  completion := ((s.admissions.current.filter (·.attempt = r.attempt)).map (·.completion)).getD
    r.cancellation

/-- The token that an operation of the registry cancels. -/
def cancels (s : Registry.State) : Registry.Label → Option ℕ
  | .commitAttach p connection => (s.sessions.commitAttach p connection).cancelled
  | .disconnectIfCurrent sid generation => (s.sessions.disconnectIfCurrent sid generation).2
  | .revoke sid => (s.sessions.revoke sid).2.1
  | _ => none

def cancelIf (s : Lifecycle.State) : Option ℕ → Lifecycle.State
  | some token => s.cancel token
  | none => s

/-- Whether the service calls the operation: a new connection is attached after `prepare_attach`. -/
def State.calls (s : State) : Registry.Label → Bool
  | .commitAttach p connection =>
    s.registry.prepared.any (·.1 = p.token) &&
      s.registry.commits.all (·.connection ≠ connection)
  | _ => true

/-- The work that the record of a session retains. -/
def workOf (ss : Sessions) (sid : Uuid) : Option Work :=
  ((ss.lookup sid).bind (·.nonTunnel)).map fun a =>
    ⟨sid, a.generation, a.connectionId, a.drain.cancellation⟩

/-- One step of the service instance `inst`. -/
def step (inst : Uuid) (s : State) : Label → Option State
  | .lifecycle (.reserve _) => none
  | .lifecycle (.commit _ _ _) => none
  | .lifecycle l =>
    (Lifecycle.step inst s.lifecycle l).map fun lifecycle =>
      { s with
        lifecycle
        preparations := s.preparations.filter (·.reservation ∈ lifecycle.reservations) }
  | .registry l =>
    if s.calls l then
      (Registry.step inst s.registry l).map fun registry =>
        { s with registry, lifecycle := cancelIf s.lifecycle (cancels s.registry l) }
    else none
  | .reserveConnection sid generation request =>
    let nonTunnel := request.allNonTunnel
    let (sessions, result) := s.registry.sessions.reserveConnection (fun x => drain x.1 x.2)
      s.closed s.lifecycle.completed sid generation nonTunnel
      (s.lifecycle.reserveConnect (request.restartOf.map (·, sid)))
    let s := { s with registry := { s.registry with sessions } }
    match result with
    | .error _ => some s
    | .ok (lifecycle, reservation) =>
      some { s with
        lifecycle
        preparations := s.preparations ++ [⟨sid, generation, nonTunnel, request, reservation⟩]
        work := if nonTunnel then s.work ++ (workOf sessions sid).toList else s.work }
  | .commitConnection p =>
    if p ∈ s.preparations then
      let s := { s with preparations := s.preparations.erase p }
      match s.registry.sessions.commitConnection s.closed p.sessionId p.generation p.nonTunnel with
      | .ok () =>
        (Lifecycle.step inst s.lifecycle
          (.commit p.reservation p.request (some p.sessionId))).map fun lifecycle =>
            { s with lifecycle }
      | .error _ => some s
    else none
  | .stopNonTunnelAttachment sid generation connectionId =>
    let (sessions, result) :=
      s.registry.sessions.stopNonTunnelAttachment s.closed sid generation connectionId
    let current := ((s.registry.sessions.lookup sid).bind (·.attachment)).map Prod.snd
    match result with
    | .error _ => some s
    | .ok drain =>
      some { s with
        registry := { s.registry with sessions }
        lifecycle := cancelIf s.lifecycle (drain.map (·.cancellation))
        stopped := if current = some connectionId then insert connectionId s.stopped
          else s.stopped }
  | .close connection => some { s with closed := insert connection s.closed }

def machine (inst : Uuid) : Machine State Label where
  init := {}
  step := step inst

/-! ### The invariant -/

/-- The attachment with this generation and connection was committed. -/
def WasAttached (s : Registry.State) (sid : Uuid) (g : ℕ) (c : Uuid) : Prop :=
  ∃ k ∈ s.commits, k.session = sid ∧ k.generation = g ∧ k.connection = c

structure Tied (inst : Uuid) (s : State) : Prop where
  lifecycle : (Lifecycle.machine inst).Reachable s.lifecycle
  attach : Attach s.registry
  prepared_lt : ∀ e ∈ s.registry.prepared, e.2 < wordSize
  connections : (s.registry.commits.map (·.connection)).Nodup
  /-- Attachments, work and stops are about connections that were attached. -/
  attached : ∀ sid r g c, s.registry.sessions.lookup sid = some r → r.attachment = some (g, c) →
    WasAttached s.registry sid g c
  worked : ∀ w ∈ s.work, WasAttached s.registry w.session w.generation w.connection
  stopped : ∀ c ∈ s.stopped, ∃ k ∈ s.registry.commits, k.connection = c
  /-- A session remembers that its attachment was stopped. -/
  closing : ∀ sid r g c, s.registry.sessions.lookup sid = some r → r.attachment = some (g, c) →
    c ∈ s.stopped → r.closedAttachment = some c
  token_lt : ∀ w ∈ s.work, w.token < s.lifecycle.fresh
  tokens : (s.work.map (·.token)).Nodup
  /-- The handle that a session retains is that of work it reserved. -/
  recorded : ∀ sid w, workOf s.registry.sessions sid = some w → w ∈ s.work
  /-- **The tie**: work that has not completed is carried by its attachment or cancelled. -/
  live : ∀ w ∈ s.work, w.token ∈ s.lifecycle.completed ∨ w.token ∈ s.lifecycle.cancelled ∨
    s.registry.sessions.Carries w
  prepared : ∀ p ∈ s.preparations, p.nonTunnel = true → ∃ w ∈ s.work,
    w.session = p.sessionId ∧ w.generation = p.generation ∧ w.token = p.reservation.cancellation

variable {inst : Uuid} {s s' : State}

theorem workOf_eq_some {ss : Sessions} {sid : Uuid} {w : Work} :
    workOf ss sid = some w ↔ ∃ r a, ss.lookup sid = some r ∧ r.nonTunnel = some a ∧
      w = ⟨sid, a.generation, a.connectionId, a.drain.cancellation⟩ := by
  unfold workOf
  simp only [Option.map_eq_some_iff, Option.bind_eq_some_iff]
  constructor
  · rintro ⟨a, ⟨r, hr, ha⟩, rfl⟩; exact ⟨r, a, hr, ha, rfl⟩
  · rintro ⟨r, a, hr, ha, rfl⟩; exact ⟨a, ⟨r, hr, ha⟩, rfl⟩

section

variable (h : Tied inst s)
include h

theorem Tied.work_of {sid : Uuid} {r : SessionRecord}
    {a : Registry.AttachmentAttempt} (hr : s.registry.sessions.lookup sid = some r)
    (ha : r.nonTunnel = some a) :
    (⟨sid, a.generation, a.connectionId, a.drain.cancellation⟩ : Work) ∈ s.work :=
  h.recorded sid _ (workOf_eq_some.mpr ⟨r, a, hr, ha, rfl⟩)

theorem Tied.work_eq {w : Work} (hw : w ∈ s.work) {sid : Uuid}
    {r : SessionRecord} {a : Registry.AttachmentAttempt}
    (hr : s.registry.sessions.lookup sid = some r) (ha : r.nonTunnel = some a)
    (ht : a.drain.cancellation = w.token) :
    w = ⟨sid, a.generation, a.connectionId, a.drain.cancellation⟩ :=
  List.inj_on_of_nodup_map h.tokens hw (h.work_of hr ha) ht.symm

theorem Tied.recorded_insert {sid : Uuid} {r : SessionRecord} (hr : ∀ a, r.nonTunnel = some a →
      (⟨sid, a.generation, a.connectionId, a.drain.cancellation⟩ : Work) ∈ s.work) :
    ∀ k w, workOf (s.registry.sessions.insert sid r) k = some w → w ∈ s.work := by
  intro k w hw
  obtain ⟨x, a, hx, ha, rfl⟩ := workOf_eq_some.mp hw
  rcases Store.lookup_insert_cases hx with ⟨rfl, rfl⟩ | ⟨-, hx⟩
  · exact hr a ha
  · exact h.work_of hx ha

theorem Tied.attached_insert {sid : Uuid} {r r' : SessionRecord}
    (hr : s.registry.sessions.lookup sid = some r) (ha : r'.attachment = r.attachment) :
    ∀ k x g c, (s.registry.sessions.insert sid r').lookup k = some x →
      x.attachment = some (g, c) → WasAttached s.registry k g c := by
  intro k x g c hx hxa
  rcases Store.lookup_insert_cases hx with ⟨rfl, rfl⟩ | ⟨-, hx⟩
  · exact h.attached k r g c hr (ha ▸ hxa)
  · exact h.attached k x g c hx hxa

theorem Tied.closing_insert {sid : Uuid} {r r' : SessionRecord}
    (hr : s.registry.sessions.lookup sid = some r) (ha : r'.attachment = r.attachment)
    (hc : r'.closedAttachment = r.closedAttachment) :
    ∀ k x g c, (s.registry.sessions.insert sid r').lookup k = some x →
      x.attachment = some (g, c) → c ∈ s.stopped → x.closedAttachment = some c := by
  intro k x g c hx hxa hstopped
  rcases Store.lookup_insert_cases hx with ⟨rfl, rfl⟩ | ⟨-, hx⟩
  · exact hc.trans (h.closing k r g c hr (ha ▸ hxa) hstopped)
  · exact h.closing k x g c hx hxa hstopped

/-! ### Steps of the lifecycle -/

theorem Tied.setLifecycle {l : Lifecycle.State}
    (hl : (Lifecycle.machine inst).Reachable l) (hg : s.lifecycle.core.Grows l.core) :
    Tied inst { s with lifecycle := l } := by
  refine ⟨hl, h.attach, h.prepared_lt, h.connections, h.attached, h.worked, h.stopped, h.closing,
    fun w hw => (h.token_lt w hw).trans_le hg.fresh, h.tokens, h.recorded, fun w hw => ?_,
    h.prepared⟩
  rcases h.live w hw with hc | hc | hc
  · exact Or.inl (hg.completed hc)
  · exact Or.inr (Or.inl (hg.cancelled hc))
  · exact Or.inr (Or.inr hc)

theorem Tied.stepLifecycle {l : Lifecycle.Label} {ls : Lifecycle.State}
    (hs : Lifecycle.step inst s.lifecycle l = some ls) : Tied inst { s with lifecycle := ls } :=
  h.setLifecycle (h.lifecycle.next hs) (Lifecycle.step_grows h.lifecycle hs)

theorem Tied.forget {ps : List Preparation} (hps : ps.Sublist s.preparations) :
    Tied inst { s with preparations := ps } :=
  ⟨h.lifecycle, h.attach, h.prepared_lt, h.connections, h.attached, h.worked, h.stopped, h.closing,
    h.token_lt, h.tokens, h.recorded, h.live, fun p hp => h.prepared p (hps.subset hp)⟩

theorem Tied.cancel {t : ℕ} (ht : t < s.lifecycle.fresh) :
    Tied inst { s with lifecycle := s.lifecycle.cancel t } := by
  refine h.stepLifecycle (l := .cancel t) ?_
  simp [Lifecycle.step, ht]

end

/-! ### Steps of the registry -/

theorem cancelIf_core (l : Lifecycle.State) (c : Option ℕ) :
    (cancelIf l c).fresh = l.fresh ∧ (cancelIf l c).completed = l.completed ∧
      ∀ t, t ∈ (cancelIf l c).cancelled ↔ t ∈ l.cancelled ∨ c = some t := by
  cases c with
  | none => exact ⟨rfl, rfl, fun t => by simp [cancelIf]⟩
  | some x =>
    refine ⟨rfl, rfl, fun t => ?_⟩
    show t ∈ insert x l.cancelled ↔ _
    rw [Finset.mem_insert, or_comm, Option.some.injEq, eq_comm]

section

variable (h : Tied inst s)
include h

theorem Tied.cancelIf_reachable {c : Option ℕ}
    (hc : ∀ t, c = some t → ∃ sid r a, s.registry.sessions.lookup sid = some r ∧
      r.nonTunnel = some a ∧ a.drain.cancellation = t) :
    (Lifecycle.machine inst).Reachable (cancelIf s.lifecycle c) := by
  cases c with
  | none => exact h.lifecycle
  | some t =>
    obtain ⟨sid, r, a, hr, ha, rfl⟩ := hc t rfl
    exact (h.cancel (h.token_lt _ (h.work_of hr ha))).lifecycle

/-- Work stays tied when what is not carried on is cancelled. -/
theorem Tied.live_cancelIf {ss : Sessions} {c : Option ℕ}
    (hk : ∀ w, s.registry.sessions.Carries w → ss.Carries w ∨ c = some w.token) :
    ∀ w ∈ s.work, w.token ∈ (cancelIf s.lifecycle c).completed ∨
      w.token ∈ (cancelIf s.lifecycle c).cancelled ∨ ss.Carries w := by
  intro w hw
  obtain ⟨-, hcompl, hcan⟩ := cancelIf_core s.lifecycle c
  rw [hcompl, hcan]
  rcases h.live w hw with hl | hl | hl
  · exact Or.inl hl
  · exact Or.inr (Or.inl (Or.inl hl))
  · exact Or.inr ((hk w hl).symm.imp_left Or.inr)

theorem Tied.move {rs : Registry.State} {c : Option ℕ}
    (hm : s.registry.sessions.Moves rs.sessions c) (hattach : Attach rs)
    (hcommits : rs.commits = s.registry.commits) (hprep : ∀ e ∈ rs.prepared, e.2 < wordSize)
    (hc : ∀ t, c = some t → ∃ sid r a, s.registry.sessions.lookup sid = some r ∧
      r.nonTunnel = some a ∧ a.drain.cancellation = t) :
    Tied inst { s with registry := rs, lifecycle := cancelIf s.lifecycle c } := by
  obtain ⟨hfresh, -, -⟩ := cancelIf_core s.lifecycle c
  have hwas : ∀ sid g x, WasAttached s.registry sid g x → WasAttached rs sid g x := by
    rintro sid g x ⟨k, hk, hk'⟩; exact ⟨k, hcommits ▸ hk, hk'⟩
  refine ⟨h.cancelIf_reachable hc, hattach, hprep, by rw [hcommits]; exact h.connections, ?_,
    fun w hw => hwas _ _ _ (h.worked w hw), ?_, ?_, ?_, h.tokens, ?_, h.live_cancelIf hm.keeps,
    h.prepared⟩
  · intro sid r g x hr ha
    rcases hm.origin sid r hr with ⟨-, hn⟩ | ⟨q, hq, hf⟩
    · rw [hn] at ha; cases ha
    · rcases hf.attachment with heq | hn
      · exact hwas sid g x (h.attached sid q g x hq (heq ▸ ha))
      · rw [hn] at ha; cases ha
  · intro x hx; rw [hcommits]; exact h.stopped x hx
  · intro sid r g x hr ha hx
    rcases hm.origin sid r hr with ⟨-, hn⟩ | ⟨q, hq, hf⟩
    · rw [hn] at ha; cases ha
    · rcases hf.attachment with heq | hn
      · rw [hf.closing]; exact h.closing sid q g x hq (heq ▸ ha) hx
      · rw [hn] at ha; cases ha
  · intro w hw; rw [hfresh]; exact h.token_lt w hw
  · intro sid w hw
    obtain ⟨r, a, hr, ha, rfl⟩ := workOf_eq_some.mp hw
    rcases hm.origin sid r hr with ⟨hn, -⟩ | ⟨q, hq, hf⟩
    · rw [hn] at ha; cases ha
    · exact h.work_of hq (hf.nonTunnel ▸ ha)

theorem Tied.wasAttached_eq {sid sid' : Uuid} {g g' : ℕ} {c : Uuid}
    (h₁ : WasAttached s.registry sid g c) (h₂ : WasAttached s.registry sid' g' c) :
    sid = sid' ∧ g = g' := by
  obtain ⟨k, hk, rfl, rfl, hc⟩ := h₁
  obtain ⟨k', hk', rfl, rfl, hc'⟩ := h₂
  obtain rfl := List.inj_on_of_nodup_map h.connections hk hk' (hc.trans hc'.symm)
  exact ⟨rfl, rfl⟩

theorem Tied.commitAttach {p : Registry.HandshakePermit} {c : Uuid}
    {prev : Option Uuid} (hres : (s.registry.sessions.commitAttach p c).result = .ok prev)
    (hnew : ∀ k ∈ s.registry.commits, k.connection ≠ c)
    (hattach : Attach { s.registry with
      sessions := (s.registry.sessions.commitAttach p c).sessions
      commits := s.registry.commits ++ [p.commit (s.registry.sessions.commitAttach p c).sessions c] }) :
    Tied inst { s with
      registry := { s.registry with
        sessions := (s.registry.sessions.commitAttach p c).sessions
        commits := s.registry.commits ++
          [p.commit (s.registry.sessions.commitAttach p c).sessions c] }
      lifecycle := cancelIf s.lifecycle (s.registry.sessions.commitAttach p c).cancelled } := by
  have hreach : (Lifecycle.machine inst).Reachable
      (cancelIf s.lifecycle (s.registry.sessions.commitAttach p c).cancelled) := by
    refine h.cancelIf_reachable fun t ht => ?_
    obtain ⟨r, a, hr, ha, hat, -⟩ := Registry.commitAttach_cancelled ht
    exact ⟨_, r, a, hr, ha, hat⟩
  obtain ⟨hfresh, -, -⟩ :=
    cancelIf_core s.lifecycle (s.registry.sessions.commitAttach p c).cancelled
  obtain ⟨r, closing, hr, hold, hss, -⟩ := Registry.commitAttach_ok hres
  have hk := p.commit_insert s.registry.sessions (r := { r with
    closedAttachment := closing, status := .active (p.observedGeneration + 1) (some c) none }) rfl c
  rw [← hss] at hk
  have hmem : ∀ {k}, k ∈ s.registry.commits → k ∈ s.registry.commits ++
      [p.commit (s.registry.sessions.commitAttach p c).sessions c] := List.mem_append_left _
  refine ⟨hreach, hattach, h.prepared_lt, ?_, ?_, ?_, ?_, ?_, ?_, h.tokens, ?_,
    h.live_cancelIf fun w => Registry.commitAttach_keeps hres, h.prepared⟩
  · rw [List.map_append, List.map_singleton, hk]
    refine nodup_snoc h.connections fun hx => ?_
    obtain ⟨k, hk, heq⟩ := List.mem_map.mp hx
    exact hnew k hk heq
  · intro sid x g y hx ha
    rw [hss] at hx
    rcases Store.lookup_insert_cases hx with ⟨rfl, rfl⟩ | ⟨-, hx⟩
    · obtain ⟨rfl, rfl⟩ := Prod.mk.inj (Option.some.inj ha)
      exact ⟨_, List.mem_append_right _ (List.mem_singleton_self _), by rw [hk], by rw [hk],
        by rw [hk]⟩
    · obtain ⟨k, hk, hk'⟩ := h.attached sid x g y hx ha
      exact ⟨k, hmem hk, hk'⟩
  · intro w hw
    obtain ⟨k, hk, hk'⟩ := h.worked w hw
    exact ⟨k, hmem hk, hk'⟩
  · intro x hx
    obtain ⟨k, hk, hk'⟩ := h.stopped x hx
    exact ⟨k, hmem hk, hk'⟩
  · intro sid x g y hx ha hy
    rw [hss] at hx
    rcases Store.lookup_insert_cases hx with ⟨rfl, rfl⟩ | ⟨-, hx⟩
    · -- a connection that is attached now was not stopped before
      obtain ⟨-, rfl⟩ := Prod.mk.inj (Option.some.inj ha)
      obtain ⟨k, hk, hkc⟩ := h.stopped _ hy
      exact absurd hkc (hnew k hk)
    · exact h.closing sid x g y hx ha hy
  · intro w hw; rw [hfresh]; exact h.token_lt w hw
  · rw [hss]
    exact h.recorded_insert fun a ha => h.work_of hr ha

theorem Tied.stepRegistry {l : Registry.Label} (hcalls : s.calls l = true)
    {rs : Registry.State} (hs : Registry.step inst s.registry l = some rs) :
    Tied inst { s with registry := rs, lifecycle := cancelIf s.lifecycle (cancels s.registry l) } := by
  have hattach := h.attach.step hs
  have hnone : ∀ t, (none : Option ℕ) = some t → ∃ sid r a,
      s.registry.sessions.lookup sid = some r ∧ r.nonTunnel = some a ∧
      a.drain.cancellation = t := by rintro t ⟨⟩
  cases l with
  | issue now v u sid secret b =>
    simp only [Registry.step, Option.ite_none_left_eq_some, Option.some.injEq] at hs
    obtain ⟨hnew, rfl⟩ := hs
    have hlookup : s.registry.sessions.lookup sid = none := by
      cases hr : s.registry.sessions.lookup sid with
      | none => rfl
      | some r => exact absurd (h.attach.session_used sid r hr) hnew
    exact h.move (Registry.issue_moves now v u secret b hlookup) hattach rfl h.prepared_lt hnone
  | beginHandshake now si sid v token =>
    simp only [Registry.step, Option.ite_none_left_eq_some, Option.some.injEq] at hs
    obtain ⟨-, rfl⟩ := hs
    exact h.move (Registry.beginHandshake_moves inst now si sid v token) hattach rfl h.prepared_lt
      hnone
  | prepareAttach p =>
    simp only [Registry.step, Option.ite_none_right_eq_some] at hs
    obtain ⟨-, hs⟩ := hs
    split at hs <;> cases hs
    · next g hg =>
      exact h.move (.refl _) hattach rfl
        (forall_mem_snoc h.prepared_lt (Registry.prepareAttach_lt hg)) hnone
    · exact h
  | commitAttach p c =>
    simp only [Registry.step, Option.ite_none_right_eq_some] at hs
    obtain ⟨hp, hs⟩ := hs
    simp only [State.calls, Bool.and_eq_true, List.any_eq_true, List.all_eq_true,
      decide_eq_true_eq] at hcalls
    obtain ⟨⟨e, he, htok⟩, hnew⟩ := hcalls
    split at hs <;> cases hs
    · next prev hres => exact h.commitAttach hres hnew hattach
    · next e' hres =>
      have hlt : p.observedGeneration + 1 < wordSize := by
        rw [← h.attach.prepared_permit e he p hp htok.symm]; exact h.prepared_lt e he
      obtain ⟨hss, hcan⟩ := Registry.commitAttach_refused hres hlt
      simp only [cancels, hss, hcan]
      exact h
  | dropPermit p =>
    obtain ⟨-, rfl⟩ := Option.ite_some_none_eq_some.mp hs
    exact h.move (Registry.cancelHandshake_moves p) hattach rfl h.prepared_lt hnone
  | disconnectIfCurrent sid g =>
    cases hs
    refine h.move (Registry.disconnectIfCurrent_moves sid g) hattach rfl h.prepared_lt fun t ht => ?_
    obtain ⟨r, a, hr, ha, hat, -⟩ := Registry.disconnectIfCurrent_cancelled ht
    exact ⟨sid, r, a, hr, ha, hat⟩
  | revoke sid =>
    cases hs
    refine h.move (Registry.revoke_moves sid) hattach rfl h.prepared_lt fun t ht => ?_
    obtain ⟨r, a, hr, ha, hat⟩ := Registry.revoke_cancelled ht
    exact ⟨sid, r, a, hr, ha, hat⟩

/-! ### Stopping an attachment -/

theorem Tied.stop {sid : Uuid} {r : SessionRecord} {g : ℕ} {current c : Uuid}
    (hr : s.registry.sessions.lookup sid = some r) (ha : r.attachment = some (g, current)) :
    Tied inst { s with
      registry := { s.registry with
        sessions := if current = c then
          s.registry.sessions.insert sid { r with closedAttachment := some c }
          else s.registry.sessions }
      lifecycle := cancelIf s.lifecycle
        ((r.nonTunnel.filter (·.connectionId = c)).map (·.drain.cancellation))
      stopped := if current = c then insert c s.stopped else s.stopped } := by
  have hcancel : ∀ t, (r.nonTunnel.filter (·.connectionId = c)).map (·.drain.cancellation) = some t →
      ∃ sid r a, s.registry.sessions.lookup sid = some r ∧ r.nonTunnel = some a ∧
        a.drain.cancellation = t := by
    intro t ht
    obtain ⟨a, ha, rfl⟩ := Option.map_eq_some_iff.mp ht
    exact ⟨sid, r, a, hr, (Option.filter_eq_some_iff.mp ha).1, rfl⟩
  by_cases hc : current = c
  · subst hc
    simp only [if_true]
    obtain ⟨hfresh, -, -⟩ := cancelIf_core s.lifecycle
      ((r.nonTunnel.filter (·.connectionId = current)).map (·.drain.cancellation))
    have hwas := h.attached sid r g current hr ha
    have hrecord : ∀ a, r.nonTunnel = some a → _ := fun a => h.work_of hr
    refine ⟨h.cancelIf_reachable hcancel, ?_, h.prepared_lt, h.connections,
      h.attached_insert hr rfl, h.worked, ?_, ?_, ?_, h.tokens, h.recorded_insert hrecord,
      h.live_cancelIf fun w => ?_, h.prepared⟩
    · exact h.attach.below (Registry.below_insert hr rfl rfl) rfl rfl rfl subset_rfl
        subset_rfl
    · intro x hx
      rcases Finset.mem_insert.mp hx with rfl | hx
      · obtain ⟨k, hk, -, -, hkc⟩ := hwas
        exact ⟨k, hk, hkc⟩
      · exact h.stopped x hx
    · intro sid' x g' y hx hxa hy
      rcases Store.lookup_insert_cases hx with ⟨rfl, rfl⟩ | ⟨hne, hx₀⟩
      · obtain ⟨-, rfl⟩ := Prod.mk.inj (Option.some.inj (ha.symm.trans hxa))
        rfl
      · rcases Finset.mem_insert.mp hy with rfl | hy
        · exact absurd (h.wasAttached_eq (h.attached sid' x g' y hx₀ hxa) hwas).1 hne
        · exact h.closing sid' x g' y hx₀ hxa hy
    · intro w hw; rw [hfresh]; exact h.token_lt w hw
    · refine Registry.carries_insert hr fun hl => Or.inr ?_
      -- the work of the attachment that is stopped
      obtain ⟨-, hwc⟩ := Prod.mk.inj (Option.some.inj (hl.attached.symm.trans ha))
      rw [hl.work, Option.filter_some, if_pos (by simp [hwc])]
      rfl
  · simp only [if_neg hc]
    exact h.move ⟨(Sessions.Moves.refl _).origin, fun w hw => Or.inl hw⟩ h.attach rfl h.prepared_lt
      hcancel

/-! ### Reserving -/

theorem Tied.forgetWork {sid : Uuid} {r : SessionRecord}
    (hr : s.registry.sessions.lookup sid = some r) :
    Tied inst { s with registry := { s.registry with
      sessions := s.registry.sessions.insert sid (r.forget s.lifecycle.completed) } } := by
  refine ⟨h.lifecycle, ?_, h.prepared_lt, h.connections, h.attached_insert hr rfl, h.worked,
    h.stopped, h.closing_insert hr rfl rfl, h.token_lt, h.tokens, h.recorded_insert fun a ha => ?_,
    fun w hw => ?_, h.prepared⟩
  · exact h.attach.below (Registry.below_insert hr rfl rfl) rfl rfl rfl subset_rfl
      subset_rfl
  · exact h.work_of hr (Option.filter_eq_some_iff.mp ha).1
  · rcases h.live w hw with hl | hl | hl
    · exact Or.inl hl
    · exact Or.inr (Or.inl hl)
    · refine (Registry.carries_insert hr (fun hl => ?_) hl).elim (fun h => Or.inr (Or.inr h)) Or.inl
      by_cases hdone : w.token ∈ s.lifecycle.completed
      · exact Or.inr hdone
      · refine Or.inl ⟨hl.attached, hl.notClosing, ?_⟩
        unfold SessionRecord.forget
        rw [hl.work, Option.filter_some, if_pos (by simp [hdone])]

end

theorem reserveConnect_ok {l l' : Lifecycle.State} {restart : Option (ℕ × Uuid)}
    {x : ConnectReservation} (h : l.reserveConnect restart = .ok (l', x)) (inst : Uuid) :
    Lifecycle.step inst l (.reserve restart) = some l' ∧ l.admissions.current = none ∧
      l'.fresh = l.fresh + 1 ∧ x.cancellation = l.fresh ∧ drain l' x = ⟨l.fresh, l.fresh⟩ := by
  have hstep : Lifecycle.step inst l (.reserve restart) = some l' := by simp [Lifecycle.step, h]
  unfold Lifecycle.State.reserveConnect at h
  split_ifs at h with h₁ h₂ h₃
  obtain ⟨rfl, rfl⟩ := Prod.mk.inj (Except.ok.inj h)
  exact ⟨hstep, by simpa using h₂, rfl, rfl, by simp [drain, Option.filter_some]⟩

theorem Tied.reserveWork (h : Tied inst s) {sid : Uuid} {r : SessionRecord} {g : ℕ} {c : Uuid}
    (hr : s.registry.sessions.lookup sid = some r) (ha : r.attachment = some (g, c))
    (hclosing : r.closedAttachment ≠ some c) {restart : Option (ℕ × Uuid)} {l : Lifecycle.State}
    {x : ConnectReservation} (hres : s.lifecycle.reserveConnect restart = .ok (l, x)) :
    Tied inst { s with
      registry := { s.registry with
        sessions := s.registry.sessions.insert sid
          { r with nonTunnel := some ⟨g, c, drain l x⟩ } }
      lifecycle := l
      work := s.work ++ [⟨sid, g, c, x.cancellation⟩] } := by
  obtain ⟨hstep, hcur, hfresh, htok, hdrain⟩ := reserveConnect_ok hres inst
  have hreach : (Lifecycle.machine inst).Reachable l := (h.stepLifecycle hstep).lifecycle
  have hg := Lifecycle.step_grows h.lifecycle hstep
  -- the slot was free, so all earlier work has completed
  have hdone : ∀ w ∈ s.work, w.token ∈ s.lifecycle.completed := by
    intro w hw
    rcases Lifecycle.reachable_drained h.lifecycle w.token (h.token_lt w hw) with hd | ⟨a, ha, -⟩
    · exact hd
    · have : s.lifecycle.admissions.current = some a := ha
      rw [hcur] at this; cases this
  rw [hdrain, htok]
  refine ⟨hreach, ?_, h.prepared_lt, h.connections, h.attached_insert hr rfl,
    forall_mem_snoc h.worked (h.attached sid r g c hr ha), h.stopped, h.closing_insert hr rfl rfl,
    ?_, ?_, ?_, forall_mem_snoc (fun w hw => Or.inl (hg.completed (hdone w hw)))
      (Or.inr (Or.inr ⟨_, AList.lookup_insert _, ha, hclosing, rfl⟩)), ?_⟩
  · exact h.attach.below (Registry.below_insert hr rfl rfl) rfl rfl rfl subset_rfl
      subset_rfl
  · show ∀ w : Work, w ∈ _ → w.token < l.fresh
    rw [hfresh]
    exact forall_mem_snoc (fun w hw => (h.token_lt w hw).trans (Nat.lt_succ_self _))
      (Nat.lt_succ_self _)
  · rw [List.map_append, List.map_singleton]
    refine nodup_snoc h.tokens fun ht => ?_
    obtain ⟨w, hw, heq⟩ := List.mem_map.mp ht
    exact (h.token_lt w hw).ne heq
  · intro sid' w hw
    obtain ⟨y, a, hy, hya, rfl⟩ := workOf_eq_some.mp hw
    rcases Store.lookup_insert_cases hy with ⟨rfl, rfl⟩ | ⟨-, hy⟩
    · cases hya
      exact List.mem_append_right _ (List.mem_singleton_self _)
    · exact List.mem_append_left _ (h.work_of hy hya)
  · intro p hp hn
    obtain ⟨w, hw, hw'⟩ := h.prepared p hp hn
    exact ⟨w, List.mem_append_left _ hw, hw'⟩

theorem Tied.prepare (h : Tied inst s) {p : Preparation}
    (hp : p.nonTunnel = true → ∃ w ∈ s.work, w.session = p.sessionId ∧
      w.generation = p.generation ∧ w.token = p.reservation.cancellation) :
    Tied inst { s with preparations := s.preparations ++ [p] } := by
  exact ⟨h.lifecycle, h.attach, h.prepared_lt, h.connections, h.attached, h.worked, h.stopped,
    h.closing, h.token_lt, h.tokens, h.recorded, h.live, forall_mem_snoc h.prepared hp⟩

/-! ### Every step -/

theorem Tied.step (h : Tied inst s) {l : Label} (hs : step inst s l = some s') : Tied inst s' := by
  cases l with
  | lifecycle l =>
    cases l with
    | reserve restart => cases hs
    | commit r c sid => cases hs
    | _ =>
      simp only [Attachment.step, Option.map_eq_some_iff] at hs
      obtain ⟨ls, hls, rfl⟩ := hs
      exact (h.stepLifecycle hls).forget List.filter_sublist
  | registry l =>
    simp only [Attachment.step, Option.ite_none_right_eq_some, Option.map_eq_some_iff] at hs
    obtain ⟨hcalls, rs, hrs, rfl⟩ := hs
    exact h.stepRegistry hcalls hrs
  | reserveConnection sid g request =>
    rcases Registry.reserveConnection_cases s.registry.sessions (fun x => drain x.1 x.2)
      s.closed s.lifecycle.completed sid g request.allNonTunnel
      (s.lifecycle.reserveConnect (request.restartOf.map (·, sid))) with
      ⟨e, heq⟩ | ⟨r, c, hr, ha, -, hclosing, ⟨e, heq⟩ | ⟨⟨l, x⟩, hres, heq⟩⟩ <;>
      simp only [Attachment.step, heq] at hs <;> cases hs
    · exact h
    · exact h.forgetWork hr
    · by_cases hn : request.allNonTunnel = true
      · have hwork : workOf (s.registry.sessions.insert sid
            { r with nonTunnel := some ⟨g, c, drain l x⟩ }) sid = some ⟨sid, g, c, x.cancellation⟩ :=
          workOf_eq_some.mpr ⟨_, _, AList.lookup_insert _, rfl, rfl⟩
        simp only [hn, if_true, SessionRecord.forget, hwork, Option.toList_some]
        exact (h.reserveWork hr ha (hclosing hn) hres).prepare fun _ =>
          ⟨_, List.mem_append_right _ (List.mem_singleton_self _), rfl, rfl, rfl⟩
      · simp only [hn]
        exact ((h.forgetWork hr).stepLifecycle (reserveConnect_ok hres inst).1).prepare
          fun hn' => absurd hn' (by simp)
  | commitConnection p =>
    simp only [Attachment.step, Option.ite_none_right_eq_some] at hs
    obtain ⟨-, hs⟩ := hs
    split at hs
    · obtain ⟨ls, hls, rfl⟩ := Option.map_eq_some_iff.mp hs
      exact (h.stepLifecycle hls).forget List.erase_sublist
    · cases hs
      exact h.forget List.erase_sublist
  | stopNonTunnelAttachment sid g c =>
    rcases Registry.stopNonTunnelAttachment_cases s.registry.sessions s.closed sid g c with
      ⟨e, heq⟩ | ⟨r, current, hr, ha, heq⟩ <;>
      simp only [Attachment.step, heq] at hs <;> cases hs
    · exact h
    · simp only [hr, Option.bind_some, ha, Option.map_some, Option.some.injEq, Option.map_map,
        Function.comp_def]
      exact h.stop hr ha
  | close c =>
    cases hs
    exact ⟨h.lifecycle, h.attach, h.prepared_lt, h.connections, h.attached, h.worked, h.stopped,
      h.closing, h.token_lt, h.tokens, h.recorded, h.live, h.prepared⟩

theorem reachable_tied (h : (machine inst).Reachable s) : Tied inst s := by
  refine h.invariant (P := Tied inst) ?_ fun s l s' _ ht hs => ht.step hs
  refine ⟨.start _, Registry.reachable_attach (.start (Registry.machine inst)), ?_, List.nodup_nil,
    ?_, ?_, ?_, ?_, ?_, List.nodup_nil, ?_, ?_, ?_⟩ <;> intro _ <;> intros <;>
    simp_all [machine, workOf]

/-! ### Non-tunnel work and its attachment -/

/-- Work that has not completed and is not cancelled is on the current attachment of its session,
which was not stopped. -/
theorem Tied.live_attached (h : Tied inst s) {w : Work} (hw : w ∈ s.work)
    (hcompl : w.token ∉ s.lifecycle.completed) (hcan : w.token ∉ s.lifecycle.cancelled) :
    ∃ r, s.registry.sessions.lookup w.session = some r ∧
      r.attachment = some (w.generation, w.connection) ∧ w.connection ∉ s.stopped := by
  obtain ⟨r, hr, hc⟩ := ((h.live w hw).resolve_left hcompl).resolve_left hcan
  exact ⟨r, hr, hc.attached, fun hs => hc.notClosing (h.closing _ r _ _ hr hc.attached hs)⟩

theorem Tied.commit_attached (h : Tied inst s) {p : Preparation} (hp : p ∈ s.preparations)
    (hn : p.nonTunnel = true)
    (hok : s.registry.sessions.commitConnection s.closed p.sessionId p.generation true = .ok ()) :
    ∃ w ∈ s.work, w.token = p.reservation.cancellation ∧
      (∃ r, s.registry.sessions.lookup p.sessionId = some r ∧
        r.attachment = some (p.generation, w.connection)) ∧
      w.connection ∉ s.closed ∧ w.connection ∉ s.stopped := by
  obtain ⟨w, hw, hsid, hgen, htok⟩ := h.prepared p hp hn
  obtain ⟨r, c, hr, ha, hopen, hclosing⟩ := Registry.commitConnection_ok hok
  -- the session has had one attachment at this generation
  have hsame : c = w.connection := by
    obtain ⟨k, hk, hks, hkg, hkc⟩ := h.worked w hw
    obtain ⟨k', hk', hks', hkg', rfl⟩ := h.attached p.sessionId r p.generation c hr ha
    rw [h.attach.commit_unique hk' hk (by rw [hks, hks', hsid]) (by rw [hkg, hkg', hgen]), hkc]
  subst hsame
  exact ⟨w, hw, htok, ⟨r, hr, ha⟩, hopen, fun hs => hclosing (h.closing _ r _ _ hr ha hs)⟩

/-- **Non-tunnel work never outlives its attachment**: work that has not completed is cancelled
unless its connection is the current attachment of its session, not stopped; the closure of a
`commit_connection` for such work is run only while that holds and the connection is open; and a
stop, a disconnect or a replacement of an older attachment cancels nothing of a newer one. -/
theorem nonTunnel_work_tied (inst : Uuid) (s : State) (h : (machine inst).Reachable s) :
    (∀ w ∈ s.work, w.token ∉ s.lifecycle.completed → w.token ∉ s.lifecycle.cancelled →
      ∃ r, s.registry.sessions.lookup w.session = some r ∧
        r.attachment = some (w.generation, w.connection) ∧ w.connection ∉ s.stopped) ∧
    (∀ p ∈ s.preparations, p.nonTunnel = true →
      s.registry.sessions.commitConnection s.closed p.sessionId p.generation true = .ok () →
      ∃ w ∈ s.work, w.token = p.reservation.cancellation ∧
        (∃ r, s.registry.sessions.lookup p.sessionId = some r ∧
          r.attachment = some (p.generation, w.connection)) ∧
        w.connection ∉ s.closed ∧ w.connection ∉ s.stopped) ∧
    (∀ k ∈ s.registry.commits, ∀ w ∈ s.work, k.session = w.session → k.generation < w.generation →
      (∀ sid g d, (s.registry.sessions.stopNonTunnelAttachment s.closed sid g k.connection).2 =
        .ok (some d) → d.cancellation ≠ w.token) ∧
      (s.registry.sessions.disconnectIfCurrent k.session k.generation).2 ≠ some w.token ∧
      ∀ p c, p.sessionId = k.session → p.observedGeneration = k.generation →
        (s.registry.sessions.commitAttach p c).cancelled ≠ some w.token) := by
  have ht := reachable_tied h
  refine ⟨fun w hw => ht.live_attached hw, fun p hp => ht.commit_attached hp, ?_⟩
  intro k hk w hw hsid hlt
  refine ⟨fun sid g d hd htok => ?_, fun hd => ?_, fun p c hp hobs hd => ?_⟩
  · obtain ⟨r, a, hr, ha, rfl, hc⟩ := Registry.stopNonTunnelAttachment_cancelled hd
    obtain rfl := ht.work_eq hw hr ha htok
    have heq := (ht.wasAttached_eq (ht.worked _ hw) ⟨k, hk, rfl, rfl, hc.symm⟩).2
    omega
  · obtain ⟨r, a, hr, ha, htok, hg⟩ := Registry.disconnectIfCurrent_cancelled hd
    obtain rfl := ht.work_eq hw hr ha htok
    exact absurd hg hlt.ne'
  · obtain ⟨r, a, hr, ha, htok, hg⟩ := Registry.commitAttach_cancelled hd
    obtain rfl := ht.work_eq hw hr ha htok
    obtain ⟨k', hk', hks, hkg, -⟩ := ht.worked _ hw
    have hle := ht.attach.commit_le hk' (by rw [hks]; exact hr)
    rw [hkg, hg, hobs] at hle
    exact absurd hle (Nat.not_le.mpr hlt)

/-- A connect request with one non-tunnel gateway. -/
def nonTunnelRequest : ConnectRequest :=
  { Lifecycle.sampleRequest with
    members := [⟨⟨"internal", "internal.example.com", .internal, 0, []⟩,
      ⟨"authcookie=token&user=user", "notunnel"⟩⟩] }

/-- Session 1 attaches connection 30, starts non-tunnel work on it, and begins to reconnect. -/
def reconnectingRun : List Label :=
  [.registry (.issue 0 "2.6.5" none 1 9 true), .registry (.beginHandshake 0 0 1 "2.6.5" 20),
    .registry (.prepareAttach (Registry.samplePermit 0 20)),
    .registry (.commitAttach (Registry.samplePermit 0 20) 30),
    .reserveConnection 1 1 nonTunnelRequest,
    .commitConnection ⟨1, 1, true, nonTunnelRequest, ⟨0, 0, false⟩⟩, .lifecycle (.handle 0),
    .registry (.beginHandshake 1 0 1 "2.6.5" 21),
    .registry (.prepareAttach (Registry.samplePermit 1 21))]

/-- While the reconnect is under way the work is on the attachment of connection 30. -/
theorem nonTunnel_work_tied_running : ∃ s, (machine 0).Reachable s ∧ s.work = [⟨1, 1, 30, 0⟩] ∧
    0 ∉ s.lifecycle.completed ∧ 0 ∉ s.lifecycle.cancelled ∧
    ∃ r, s.registry.sessions.lookup 1 = some r ∧ r.attachment = some (1, 30) ∧ 30 ∉ s.stopped := by
  obtain ⟨s, hr, hp⟩ := Machine.Reachable.of_run (M := machine 0) reconnectingRun (p := fun s =>
    decide (s.work = [⟨1, 1, 30, 0⟩] ∧ 0 ∉ s.lifecycle.completed ∧ 0 ∉ s.lifecycle.cancelled))
    (by decide +kernel)
  obtain ⟨hwork, hcompl, hcan⟩ := of_decide_eq_true hp
  exact ⟨s, hr, hwork, hcompl, hcan,
    (nonTunnel_work_tied 0 s hr).1 ⟨1, 1, 30, 0⟩ (by simp [hwork]) hcompl hcan⟩

end GlobalProtect.Service.Attachment
