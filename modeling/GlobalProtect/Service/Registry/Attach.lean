import Mathlib.Data.Finset.Insert
import GlobalProtect.Lib.Machine
import GlobalProtect.Service.Registry.Operations

/-! # Attachment is a compare-and-swap

The machine that interleaves the registry's operations on any number of sessions and permits, and
the invariant behind its compare-and-swap: a live permit that was not committed still holds the
reservation of its session, at the generation it observed (`Attach.held`); the generation of a
session counts its commits (`Attach.counted`).

Identifiers are drawn fresh, so the machine keeps the ones that were used. `commits` and `prepared`
are histories. -/

namespace GlobalProtect.Service.Registry

open Lib Api

/-! ### The machine -/

/-- A successful `commit_attach`. -/
structure Commit where
  session : Uuid
  token : Uuid
  observed : ℕ
  generation : ℕ
  connection : Uuid
  deriving DecidableEq, Repr

structure State where
  sessions : Sessions := ∅
  permits : List HandshakePermit := []
  usedSessions : Finset Uuid := ∅
  usedTokens : Finset Uuid := ∅
  commits : List Commit := []
  /-- The token of a permit and the generation `prepare_attach` returned for it. -/
  prepared : List (Uuid × ℕ) := []

inductive Label where
  | issue (now : ℕ) (productVersion : String) (desktopUid : Option ℕ) (sessionId : Uuid)
      (secret : ℕ) (available : Bool)
  | beginHandshake (now : ℕ) (serviceInstance sessionId : Uuid) (productVersion : String)
      (token : Uuid)
  | prepareAttach (p : HandshakePermit)
  | commitAttach (p : HandshakePermit) (connection : Uuid)
  | dropPermit (p : HandshakePermit)
  | disconnectIfCurrent (sessionId : Uuid) (generation : ℕ)
  | revoke (sessionId : Uuid)
  deriving DecidableEq, Repr

/-- The commit that a successful `commit_attach` with the permit was: it installed the generation
that the session is at now. -/
def HandshakePermit.commit (p : HandshakePermit) (sessions : Sessions) (connection : Uuid) :
    Commit :=
  { session := p.sessionId, token := p.token, observed := p.observedGeneration,
    generation := ((sessions.lookup p.sessionId).map (·.reservation.1)).getD 0, connection }

/-- One operation on the registry of the service instance `inst`. -/
def step (inst : Uuid) (s : State) : Label → Option State
  | .issue now version uid sid secret available =>
    if sid ∈ s.usedSessions then none
    else some { s with
      sessions := (s.sessions.issue now version uid sid secret available).1
      usedSessions := insert sid s.usedSessions }
  | .beginHandshake now si sid version token =>
    if token ∈ s.usedTokens then none
    else
      let (sessions, result) := s.sessions.beginHandshake inst now si sid version token
      let permits := match result with
        | .ok p => s.permits ++ [p]
        | .error _ => s.permits
      some { s with sessions, permits, usedTokens := insert token s.usedTokens }
  | .prepareAttach p =>
    if p ∈ s.permits then
      match s.sessions.prepareAttach p with
      | .ok generation => some { s with prepared := s.prepared ++ [(p.token, generation)] }
      | .error _ => some s
    else none
  | .commitAttach p connection =>
    if p ∈ s.permits then
      let attached := s.sessions.commitAttach p connection
      match attached.result with
      | .ok _ =>
        some { s with
          sessions := attached.sessions
          commits := s.commits ++ [p.commit attached.sessions connection] }
      | .error _ => some { s with sessions := attached.sessions }
    else none
  | .dropPermit p =>
    if p ∈ s.permits then
      some { s with
        sessions := s.sessions.cancelHandshake p.sessionId p.observedGeneration p.token
        permits := s.permits.erase p }
    else none
  | .disconnectIfCurrent sid generation =>
    some { s with sessions := (s.sessions.disconnectIfCurrent sid generation).1 }
  | .revoke sid => some { s with sessions := (s.sessions.revoke sid).1 }

def machine (inst : Uuid) : Machine State Label where
  init := {}
  step := step inst

variable {ss ss' : Sessions} {p : HandshakePermit}

/-! ### The invariant -/

/-- The commits of one session, in order. -/
def State.commitsOf (s : State) (sid : Uuid) : List Commit := s.commits.filter (·.session = sid)

/-- The permit was committed. -/
def State.Committed (s : State) (p : HandshakePermit) : Prop := ∃ c ∈ s.commits, c.token = p.token

structure Attach (s : State) : Prop where
  session_used : ∀ sid r, s.sessions.lookup sid = some r → sid ∈ s.usedSessions
  permit_used : ∀ p ∈ s.permits, p.token ∈ s.usedTokens ∧ p.sessionId ∈ s.usedSessions
  commit_used : ∀ c ∈ s.commits, c.token ∈ s.usedTokens ∧ c.session ∈ s.usedSessions
  /-- The generation of a session counts its commits. -/
  counted : ∀ sid r, s.sessions.lookup sid = some r → r.reservation.1 = (s.commitsOf sid).length
  /-- A session that was attached has a commit. -/
  started : ∀ sid r, s.sessions.lookup sid = some r → r.isPending = false → 0 < r.reservation.1
  /-- The commits of a session are numbered from 1, each one more than it observed. -/
  numbered : ∀ sid, (s.commitsOf sid).map (fun c => (c.observed, c.generation)) =
    (List.range (s.commitsOf sid).length).map fun i => (i, i + 1)
  /-- A live permit that was not committed holds the reservation of its session. -/
  held : ∀ p ∈ s.permits, ¬ s.Committed p → ∀ r, s.sessions.lookup p.sessionId = some r → p.Holds r
  /-- A reservation is not that of a committed permit. -/
  spent : ∀ sid r t, s.sessions.lookup sid = some r → r.reservation.2 = some t →
    t ∈ s.usedTokens ∧ ∀ c ∈ s.commits, c.token ≠ t
  separate : ∀ sid sid' r r' t, s.sessions.lookup sid = some r → s.sessions.lookup sid' = some r' →
    r.reservation.2 = some t → r'.reservation.2 = some t → sid = sid'
  distinct : (s.permits.map (·.token)).Nodup
  /-- What `prepare_attach` returned is what a commit of the permit installs. -/
  prepared_used : ∀ e ∈ s.prepared, e.1 ∈ s.usedTokens
  prepared_permit : ∀ e ∈ s.prepared, ∀ p ∈ s.permits, p.token = e.1 →
    e.2 = p.observedGeneration + 1
  prepared_commit : ∀ e ∈ s.prepared, ∀ c ∈ s.commits, c.token = e.1 → e.2 = c.generation

variable {s s' : State}

theorem HandshakePermit.commit_insert (p : HandshakePermit) (ss : Sessions) {r : SessionRecord}
    (hr : r.reservation = (p.observedGeneration + 1, none)) (connection : Uuid) :
    p.commit (ss.insert p.sessionId r) connection =
      ⟨p.sessionId, p.token, p.observedGeneration, p.observedGeneration + 1, connection⟩ := by
  simp [HandshakePermit.commit, AList.lookup_insert, hr]

section

variable (h : Attach s)
include h

theorem Attach.below (hb : s'.sessions.Below s.sessions)
    (hp : s'.permits = s.permits) (hc : s'.commits = s.commits) (hq : s'.prepared = s.prepared)
    (hu : s.usedSessions ⊆ s'.usedSessions) (ht : s.usedTokens ⊆ s'.usedTokens) : Attach s' := by
  have hof : ∀ sid, s'.commitsOf sid = s.commitsOf sid := fun sid => by
    unfold State.commitsOf; rw [hc]
  refine ⟨?_, ?_, ?_, ?_, ?_, ?_, ?_, ?_, ?_, ?_, ?_, ?_, ?_⟩
  · intro sid r hr
    obtain ⟨r₀, hr₀, -⟩ := hb sid r hr
    exact hu (h.session_used sid r₀ hr₀)
  · intro p hpm
    rw [hp] at hpm
    exact ⟨ht (h.permit_used p hpm).1, hu (h.permit_used p hpm).2⟩
  · intro c hcm
    rw [hc] at hcm
    exact ⟨ht (h.commit_used c hcm).1, hu (h.commit_used c hcm).2⟩
  · intro sid r hr
    obtain ⟨r₀, hr₀, hres, -⟩ := hb sid r hr
    rw [hres, hof]; exact h.counted sid r₀ hr₀
  · intro sid r hr hact
    obtain ⟨r₀, hr₀, hres, hpend⟩ := hb sid r hr
    rw [hres]; exact h.started sid r₀ hr₀ (hpend ▸ hact)
  · intro sid; rw [hof]; exact h.numbered sid
  · intro p hpm hnc r hr
    rw [hp] at hpm
    obtain ⟨r₀, hr₀, hres, -⟩ := hb p.sessionId r hr
    have := h.held p hpm (by simpa [State.Committed, hc] using hnc) r₀ hr₀
    exact hres.trans this
  · intro sid r t hr hrt
    obtain ⟨r₀, hr₀, hres, -⟩ := hb sid r hr
    obtain ⟨h₁, h₂⟩ := h.spent sid r₀ t hr₀ (by rw [← hres]; exact hrt)
    exact ⟨ht h₁, by rw [hc]; exact h₂⟩
  · intro sid sid' r r' t hr hr' hrt hrt'
    obtain ⟨q, hq, hres, -⟩ := hb sid r hr
    obtain ⟨q', hq', hres', -⟩ := hb sid' r' hr'
    exact h.separate sid sid' q q' t hq hq' (hres ▸ hrt) (hres' ▸ hrt')
  · rw [hp]; exact h.distinct
  · intro e he; rw [hq] at he; exact ht (h.prepared_used e he)
  · rw [hq, hp]; exact h.prepared_permit
  · rw [hq, hc]; exact h.prepared_commit

/-! ### Every step -/

theorem Attach.commitsOf_unused {sid : Uuid} (hs : sid ∉ s.usedSessions) :
    s.commitsOf sid = [] := by
  refine List.filter_eq_nil_iff.mpr fun c hc hsid => hs ?_
  rw [← of_decide_eq_true hsid]
  exact (h.commit_used c hc).2

theorem Attach.issued {sid : Uuid} (hs : sid ∉ s.usedSessions) {r : SessionRecord}
    (hr : r.reservation = (0, none)) (hpend : r.isPending = true) :
    Attach { s with
      sessions := s.sessions.insert sid r, usedSessions := insert sid s.usedSessions } := by
  refine ⟨?_, ?_, ?_, ?_, ?_, h.numbered, ?_, ?_, ?_, h.distinct, h.prepared_used,
    h.prepared_permit, h.prepared_commit⟩
  · exact Store.forall_lookup_insert
      (fun sid' q hq => Finset.mem_insert_of_mem (h.session_used sid' q hq))
      (Finset.mem_insert_self _ _)
  · intro p hp
    exact ⟨(h.permit_used p hp).1, Finset.mem_insert_of_mem (h.permit_used p hp).2⟩
  · intro c hc
    exact ⟨(h.commit_used c hc).1, Finset.mem_insert_of_mem (h.commit_used c hc).2⟩
  · refine Store.forall_lookup_insert h.counted ?_
    rw [hr]
    exact (congrArg List.length (h.commitsOf_unused hs)).symm
  · refine Store.forall_lookup_insert h.started fun hact => ?_
    rw [hpend] at hact; cases hact
  · intro p hp hnc q hq
    rcases Store.lookup_insert_cases hq with ⟨heq, -⟩ | ⟨-, hq⟩
    · exact absurd (heq ▸ (h.permit_used p hp).2) hs
    · exact h.held p hp hnc q hq
  · intro sid' q t hq ht
    rcases Store.lookup_insert_cases hq with ⟨-, rfl⟩ | ⟨-, hq⟩
    · rw [hr] at ht; cases ht
    · exact h.spent sid' q t hq ht
  · intro sid₁ sid₂ q q' t hq hq' ht ht'
    rcases Store.lookup_insert_cases hq with ⟨-, rfl⟩ | ⟨-, hq⟩
    · rw [hr] at ht; cases ht
    · rcases Store.lookup_insert_cases hq' with ⟨-, rfl⟩ | ⟨-, hq'⟩
      · rw [hr] at ht'; cases ht'
      · exact h.separate sid₁ sid₂ q q' t hq hq' ht ht'

theorem Attach.begun {sid token : Uuid} (ht : token ∉ s.usedTokens)
    {r r' : SessionRecord} {q : HandshakePermit} (hr : s.sessions.lookup sid = some r)
    (hfree : r.reservation.2 = none) (hr' : r'.reservation = (r.reservation.1, some token))
    (hpend : r'.isPending = r.isPending) (hsid : q.sessionId = sid) (htok : q.token = token)
    (hobs : q.observedGeneration = r.reservation.1) :
    Attach { s with
      sessions := s.sessions.insert sid r'
      permits := s.permits ++ [q]
      usedTokens := insert token s.usedTokens } := by
  have hfresh : ∀ p ∈ s.permits, p.token ≠ token := fun p hp heq =>
    ht (heq ▸ (h.permit_used p hp).1)
  have hnew : ∀ {sid' x}, s.sessions.lookup sid' = some x → x.reservation.2 ≠ some token :=
    fun hx hxt => ht (h.spent _ _ token hx hxt).1
  refine ⟨?_, ?_, ?_, ?_, ?_, h.numbered, ?_, ?_, ?_, ?_, ?_, ?_, h.prepared_commit⟩
  · exact Store.forall_lookup_insert h.session_used (h.session_used sid r hr)
  · exact forall_mem_snoc
      (fun p hp => ⟨Finset.mem_insert_of_mem (h.permit_used p hp).1, (h.permit_used p hp).2⟩)
      ⟨by simp [htok], by rw [hsid]; exact h.session_used sid r hr⟩
  · intro c hc
    exact ⟨Finset.mem_insert_of_mem (h.commit_used c hc).1, (h.commit_used c hc).2⟩
  · exact Store.forall_lookup_insert h.counted (by rw [hr']; exact h.counted sid r hr)
  · refine Store.forall_lookup_insert h.started fun hact => ?_
    rw [hr']; exact h.started sid r hr (hpend ▸ hact)
  · intro p hp hnc x hx
    rcases List.mem_append.mp hp with hp | hp
    · rcases Store.lookup_insert_cases hx with ⟨heq, -⟩ | ⟨-, hx⟩
      · -- an older permit would hold the reservation that was free
        have hold := h.held p hp hnc r (by rw [heq]; exact hr)
        rw [HandshakePermit.Holds] at hold
        rw [hold] at hfree; cases hfree
      · exact h.held p hp hnc x hx
    · obtain rfl := List.mem_singleton.mp hp
      rcases Store.lookup_insert_cases hx with ⟨-, rfl⟩ | ⟨hne, -⟩
      · rw [HandshakePermit.Holds, hr', htok, hobs]
      · exact absurd hsid hne
  · intro sid' x t hx hxt
    rcases Store.lookup_insert_cases hx with ⟨-, rfl⟩ | ⟨-, hx⟩
    · rw [hr'] at hxt
      cases hxt
      exact ⟨Finset.mem_insert_self _ _, fun c hc heq => ht (heq ▸ (h.commit_used c hc).1)⟩
    · obtain ⟨h₁, h₂⟩ := h.spent sid' x t hx hxt
      exact ⟨Finset.mem_insert_of_mem h₁, h₂⟩
  · intro sid₁ sid₂ x y t hx hy hxt hyt
    rcases Store.lookup_insert_cases hx with ⟨h₁, rfl⟩ | ⟨-, hx₀⟩ <;>
      rcases Store.lookup_insert_cases hy with ⟨h₂, rfl⟩ | ⟨-, hy₀⟩
    · exact h₁.trans h₂.symm
    · rw [hr'] at hxt
      cases hxt
      exact absurd hyt (hnew hy₀)
    · rw [hr'] at hyt
      cases hyt
      exact absurd hxt (hnew hx₀)
    · exact h.separate sid₁ sid₂ x y t hx₀ hy₀ hxt hyt
  · rw [List.map_append, List.map_singleton, htok]
    refine nodup_snoc h.distinct fun hx => ?_
    obtain ⟨p, hp, heq⟩ := List.mem_map.mp hx
    exact hfresh p hp heq
  · exact fun e he => Finset.mem_insert_of_mem (h.prepared_used e he)
  · exact fun e he => forall_mem_snoc (h.prepared_permit e he) fun hpe =>
      absurd (h.prepared_used e he) (by rw [← hpe, htok]; exact ht)

theorem Attach.prepared {p : HandshakePermit} (hp : p ∈ s.permits) {g : ℕ}
    (hg : s.sessions.prepareAttach p = .ok g) :
    Attach { s with prepared := s.prepared ++ [(p.token, g)] } := by
  obtain ⟨r, hr, hold, rfl⟩ := prepareAttach_ok hg
  refine ⟨h.session_used, h.permit_used, h.commit_used, h.counted, h.started, h.numbered, h.held,
    h.spent, h.separate, h.distinct, forall_mem_snoc h.prepared_used (h.permit_used p hp).1,
    forall_mem_snoc h.prepared_permit fun q hq htok => ?_,
    forall_mem_snoc h.prepared_commit fun c hc htok => ?_⟩
  · rw [List.inj_on_of_nodup_map h.distinct hq hp htok]
  · exact absurd htok ((h.spent p.sessionId r p.token hr (by rw [hold])).2 c hc)

theorem Attach.committed {p : HandshakePermit} (hp : p ∈ s.permits)
    {r r' : SessionRecord} (hr : s.sessions.lookup p.sessionId = some r) (hold : p.Holds r)
    (hr' : r'.reservation = (p.observedGeneration + 1, none)) (connection : Uuid) :
    Attach { s with
      sessions := s.sessions.insert p.sessionId r'
      commits := s.commits ++ [p.commit (s.sessions.insert p.sessionId r') connection] } := by
  have hcommit := p.commit_insert s.sessions hr' connection
  have hlen : p.observedGeneration = (s.commitsOf p.sessionId).length := by
    rw [← h.counted p.sessionId r hr, hold]
  rw [hcommit]
  set c : Commit :=
    ⟨p.sessionId, p.token, p.observedGeneration, p.observedGeneration + 1, connection⟩ with hc
  have hself : (s.commits ++ [c]).filter (·.session = p.sessionId) =
      s.commitsOf p.sessionId ++ [c] := by simp [State.commitsOf, hc]
  have hother : ∀ {sid}, sid ≠ p.sessionId →
      (s.commits ++ [c]).filter (·.session = sid) = s.commitsOf sid := by
    intro sid hne; simp [State.commitsOf, hc, Ne.symm hne]
  refine ⟨?_, h.permit_used, ?_, ?_, ?_, ?_, ?_, ?_, ?_, h.distinct, h.prepared_used,
    h.prepared_permit, ?_⟩
  · exact Store.forall_lookup_insert h.session_used (h.session_used _ r hr)
  · exact forall_mem_snoc h.commit_used (h.permit_used p hp)
  · intro sid x hx
    rcases Store.lookup_insert_cases hx with ⟨rfl, rfl⟩ | ⟨hne, hx⟩
    · rw [hr', State.commitsOf, hself, List.length_append, ← hlen, List.length_singleton]
    · rw [State.commitsOf, hother hne]; exact h.counted sid x hx
  · exact Store.forall_lookup_insert h.started fun _ => by rw [hr']; exact Nat.succ_pos _
  · intro sid
    unfold State.commitsOf
    by_cases hs : sid = p.sessionId
    · subst hs
      rw [hself, List.length_append, List.length_singleton, List.range_succ, List.map_append,
        List.map_append, h.numbered p.sessionId, ← hlen]
      rfl
    · simp only [hother hs]; exact h.numbered sid
  · intro q hq hnc x hx
    have hnc' : ¬ s.Committed q := fun ⟨y, hy, hyt⟩ => hnc ⟨y, List.mem_append_left _ hy, hyt⟩
    rcases Store.lookup_insert_cases hx with ⟨heq, -⟩ | ⟨-, hx⟩
    · -- two permits cannot hold the reservation of one session
      have hq' := h.held q hq hnc' r (by rw [heq]; exact hr)
      rw [HandshakePermit.Holds, hold] at hq'
      refine absurd ⟨c, by simp, ?_⟩ hnc
      exact Option.some.inj (Prod.mk.inj hq').2
    · exact h.held q hq hnc' x hx
  · intro sid x t hx hxt
    rcases Store.lookup_insert_cases hx with ⟨-, rfl⟩ | ⟨hne, hx⟩
    · rw [hr'] at hxt; cases hxt
    · obtain ⟨h₁, h₂⟩ := h.spent sid x t hx hxt
      refine ⟨h₁, forall_mem_snoc h₂ ?_⟩
      rintro rfl
      exact hne (h.separate sid p.sessionId x r p.token hx hr hxt (by rw [hold]))
  · intro sid₁ sid₂ x y t hx hy hxt hyt
    rcases Store.lookup_insert_cases hx with ⟨-, rfl⟩ | ⟨-, hx⟩
    · rw [hr'] at hxt; cases hxt
    · rcases Store.lookup_insert_cases hy with ⟨-, rfl⟩ | ⟨-, hy⟩
      · rw [hr'] at hyt; cases hyt
      · exact h.separate sid₁ sid₂ x y t hx hy hxt hyt
  · exact fun e he => forall_mem_snoc (h.prepared_commit e he) (h.prepared_permit e he p hp)

theorem Attach.released {p : HandshakePermit} (hp : p ∈ s.permits)
    {r : SessionRecord} (hr : s.sessions.lookup p.sessionId = some r) (hold : p.Holds r)
    {ss : Sessions} (hss : ∀ sid x, ss.lookup sid = some x →
      (sid = p.sessionId ∧ x.reservation = (r.reservation.1, none) ∧ x.isPending = r.isPending) ∨
      (sid ≠ p.sessionId ∧ s.sessions.lookup sid = some x)) :
    Attach { s with sessions := ss, permits := s.permits.erase p } := by
  have hmem : ∀ {q}, q ∈ s.permits.erase p → q ∈ s.permits := List.mem_of_mem_erase
  refine ⟨?_, fun q hq => h.permit_used q (hmem hq), h.commit_used, ?_, ?_, h.numbered, ?_, ?_, ?_,
    h.distinct.sublist (List.erase_sublist.map _), h.prepared_used,
    fun e he q hq => h.prepared_permit e he q (hmem hq), h.prepared_commit⟩
  · intro sid x hx
    rcases hss sid x hx with ⟨rfl, -⟩ | ⟨-, hx⟩
    · exact h.session_used _ r hr
    · exact h.session_used sid x hx
  · intro sid x hx
    rcases hss sid x hx with ⟨rfl, hres, -⟩ | ⟨-, hx⟩
    · rw [hres]; exact h.counted _ r hr
    · exact h.counted sid x hx
  · intro sid x hx hact
    rcases hss sid x hx with ⟨rfl, hres, hpend⟩ | ⟨-, hx⟩
    · rw [hres]; exact h.started _ r hr (hpend ▸ hact)
    · exact h.started sid x hx hact
  · intro q hq hnc x hx
    rcases hss q.sessionId x hx with ⟨heq, -⟩ | ⟨-, hx⟩
    · -- the other permit would have to hold the same token
      have hq' := h.held q (hmem hq) hnc r (by rw [heq]; exact hr)
      rw [HandshakePermit.Holds, hold] at hq'
      obtain rfl := List.inj_on_of_nodup_map h.distinct (hmem hq) hp
        (Option.some.inj (Prod.mk.inj hq').2).symm
      exact absurd hq (List.Nodup.not_mem_erase (List.Nodup.of_map _ h.distinct))
    · exact h.held q (hmem hq) hnc x hx
  · intro sid x t hx hxt
    rcases hss sid x hx with ⟨-, hres, -⟩ | ⟨-, hx⟩
    · rw [hres] at hxt; cases hxt
    · exact h.spent sid x t hx hxt
  · intro sid₁ sid₂ x y t hx hy hxt hyt
    rcases hss sid₁ x hx with ⟨-, hres, -⟩ | ⟨-, hx⟩
    · rw [hres] at hxt; cases hxt
    · rcases hss sid₂ y hy with ⟨-, hres, -⟩ | ⟨-, hy⟩
      · rw [hres] at hyt; cases hyt
      · exact h.separate sid₁ sid₂ x y t hx hy hxt hyt

theorem Attach.forget (p : HandshakePermit) : Attach { s with permits := s.permits.erase p } := by
  have hmem : ∀ {q}, q ∈ s.permits.erase p → q ∈ s.permits := List.mem_of_mem_erase
  exact ⟨h.session_used, fun q hq => h.permit_used q (hmem hq), h.commit_used, h.counted,
    h.started, h.numbered, fun q hq => h.held q (hmem hq), h.spent, h.separate,
    h.distinct.sublist (List.erase_sublist.map _), h.prepared_used,
    fun e he q hq => h.prepared_permit e he q (hmem hq), h.prepared_commit⟩

theorem Attach.dropped {p : HandshakePermit} (hp : p ∈ s.permits) : Attach { s with
      sessions := s.sessions.cancelHandshake p.sessionId p.observedGeneration p.token
      permits := s.permits.erase p } := by
  rcases cancelHandshake_cases s.sessions p with
    ⟨heq, -⟩ | ⟨r, hr, hold, ⟨-, heq⟩ | ⟨g, c, t, hst, heq⟩⟩ <;> rw [heq]
  · exact h.forget p
  · exact h.released hp hr hold fun sid x hx => Or.inr (Store.lookup_erase_cases hx)
  · refine h.released hp hr hold fun sid x hx => ?_
    rcases Store.lookup_insert_cases hx with ⟨rfl, rfl⟩ | hx
    · exact Or.inl ⟨rfl, by simp [SessionRecord.reservation, hst],
        by simp [SessionRecord.isPending, hst]⟩
    · exact Or.inr hx

theorem Attach.step {inst : Uuid} {l : Label} (hs : step inst s l = some s') : Attach s' := by
  cases l with
  | issue now v u sid secret b =>
    simp only [Registry.step, Option.ite_none_left_eq_some, Option.some.injEq] at hs
    obtain ⟨hnew, rfl⟩ := hs
    obtain ⟨kept, hb, heq | ⟨r, hr, hpend, heq⟩⟩ := issue_cases s.sessions now v u sid secret b <;>
      rw [heq]
    · exact h.below hb rfl rfl rfl (Finset.subset_insert _ _) subset_rfl
    · have hk : Attach { s with sessions := kept } :=
        h.below hb rfl rfl rfl subset_rfl subset_rfl
      exact hk.issued hnew hr hpend
  | beginHandshake now si sid v token =>
    simp only [Registry.step, Option.ite_none_left_eq_some] at hs
    obtain ⟨hnew, hs⟩ := hs
    rcases beginHandshake_cases s.sessions inst now si sid v token with
      ⟨r, r', q, hr, hfree, hr', hpend, hsid, htok, hobs, heq⟩ | ⟨ss', e, hb, heq⟩ <;> rw [heq] at hs <;>
      cases hs
    · exact h.begun hnew hr hfree hr' hpend hsid htok hobs
    · exact h.below hb rfl rfl rfl subset_rfl (Finset.subset_insert _ _)
  | prepareAttach p =>
    simp only [Registry.step, Option.ite_none_right_eq_some] at hs
    obtain ⟨hp, hs⟩ := hs
    split at hs <;> cases hs
    · next g hg => exact h.prepared hp hg
    · exact h
  | commitAttach p c =>
    simp only [Registry.step, Option.ite_none_right_eq_some] at hs
    obtain ⟨hp, hs⟩ := hs
    split at hs <;> cases hs
    · next prev hres =>
      obtain ⟨r, closing, hr, hold, heq, -⟩ := commitAttach_ok hres
      rw [heq]
      exact h.committed hp hr hold rfl c
    · next e hres =>
      exact h.below (commitAttach_error hres) rfl rfl rfl subset_rfl
        subset_rfl
  | dropPermit p =>
    obtain ⟨hp, rfl⟩ := Option.ite_some_none_eq_some.mp hs
    exact h.dropped hp
  | disconnectIfCurrent sid g =>
    cases hs
    exact h.below (disconnectIfCurrent_below sid g) rfl rfl rfl subset_rfl
      subset_rfl
  | revoke sid =>
    cases hs
    exact h.below (revoke_below sid) rfl rfl rfl subset_rfl subset_rfl

end

theorem reachable_attach {inst : Uuid} (h : (machine inst).Reachable s) : Attach s := by
  refine h.invariant (P := Attach) ?_ fun s l s' _ ha hs => ha.step hs
  refine ⟨?_, ?_, ?_, ?_, ?_, fun _ => rfl, ?_, ?_, ?_, List.nodup_nil, ?_, ?_, ?_⟩ <;>
    intro _ <;> intros <;> simp_all [machine]

/-! ### Sessions that are gone -/

/-- The session that the operation may issue. -/
def Label.issued : Label → Option Uuid
  | .issue _ _ _ sid _ _ => some sid
  | _ => none

theorem step_keepsHip {inst : Uuid} {s s' : State} {l : Label} (h : step inst s l = some s') :
    s'.sessions.KeepsHip s.sessions l.issued := by
  cases l with
  | issue now version uid sid secret available =>
    simp only [step] at h
    split_ifs at h
    cases h
    exact issue_keepsHip _ _ _ _ _ _ _
  | beginHandshake now si sid version token =>
    simp only [step] at h
    split_ifs at h
    cases h
    exact beginHandshake_keepsHip _ _ _ _ _ _ _
  | prepareAttach p =>
    simp only [step] at h
    split_ifs at h
    split at h <;> cases h <;> exact .refl _
  | commitAttach p connection =>
    simp only [step] at h
    split_ifs at h
    split at h <;> cases h <;> exact commitAttach_keepsHip _ _ _
  | dropPermit p =>
    simp only [step] at h
    split_ifs at h
    cases h
    exact cancelHandshake_keepsHip _ _ _ _
  | disconnectIfCurrent sid generation =>
    cases h
    exact disconnectIfCurrent_keepsHip _ _ _
  | revoke sid =>
    cases h
    exact revoke_keepsHip _ _

theorem step_used {inst : Uuid} {l : Label} (h : step inst s l = some s') :
    s.usedSessions ⊆ s'.usedSessions ∧ ∀ sid, l.issued = some sid → sid ∉ s.usedSessions := by
  cases l with
  | issue now version uid sid secret available =>
    simp only [step, Option.ite_none_left_eq_some, Option.some.injEq] at h
    obtain ⟨hnew, rfl⟩ := h
    exact ⟨Finset.subset_insert _ _, fun _ hsid => Option.some.inj hsid ▸ hnew⟩
  | beginHandshake now si sid version token =>
    simp only [step, Option.ite_none_left_eq_some, Option.some.injEq] at h
    obtain ⟨-, rfl⟩ := h
    exact ⟨Finset.Subset.refl _, fun _ hsid => by cases hsid⟩
  | prepareAttach p | commitAttach p connection =>
    simp only [step, Option.ite_none_right_eq_some] at h
    obtain ⟨-, h⟩ := h
    split at h <;> cases h <;>
      exact ⟨Finset.Subset.refl _, fun _ hsid => by cases hsid⟩
  | dropPermit p =>
    obtain ⟨-, rfl⟩ := Option.ite_some_none_eq_some.mp h
    exact ⟨Finset.Subset.refl _, fun _ hsid => by cases hsid⟩
  | disconnectIfCurrent sid generation | revoke sid =>
    cases h
    exact ⟨Finset.Subset.refl _, fun _ hsid => by cases hsid⟩

theorem step_gone {inst : Uuid} {l : Label} {sid : Uuid} (h : step inst s l = some s')
    (hused : sid ∈ s.usedSessions) (hgone : s.sessions.lookup sid = none) :
    s'.sessions.lookup sid = none := by
  cases hr : s'.sessions.lookup sid with
  | none => rfl
  | some r =>
    rcases step_keepsHip h sid r hr with ⟨r₀, hr₀, -⟩ | ⟨hnew, -⟩
    · rw [hgone] at hr₀; cases hr₀
    · exact absurd hused ((step_used h).2 sid hnew)

/-! ### Compare and swap -/

theorem Attach.observed_nodup (h : Attach s) (sid : Uuid) :
    ((s.commitsOf sid).map (·.observed)).Nodup := by
  have hobs : (s.commitsOf sid).map (·.observed) = List.range (s.commitsOf sid).length := by
    simpa [Function.comp_def] using congrArg (List.map Prod.fst) (h.numbered sid)
  rw [hobs]
  exact List.nodup_range

theorem Attach.generations (h : Attach s) (sid : Uuid) :
    (s.commitsOf sid).map (·.generation) = (List.range (s.commitsOf sid).length).map (· + 1) := by
  simpa [Function.comp_def] using congrArg (List.map Prod.snd) (h.numbered sid)

theorem Attach.commit_le (h : Attach s) {c : Commit} (hc : c ∈ s.commits) {r : SessionRecord}
    (hr : s.sessions.lookup c.session = some r) : c.generation ≤ r.reservation.1 := by
  have hmem : c.generation ∈ (s.commitsOf c.session).map (·.generation) :=
    List.mem_map_of_mem (List.mem_filter.mpr ⟨hc, by simp⟩)
  rw [h.generations, List.mem_map] at hmem
  obtain ⟨i, hi, hgen⟩ := hmem
  have hlt := List.mem_range.mp hi
  rw [h.counted _ r hr]
  omega

theorem Attach.commit_unique (h : Attach s) {c c' : Commit} (hc : c ∈ s.commits)
    (hc' : c' ∈ s.commits) (hs : c.session = c'.session) (hg : c.generation = c'.generation) :
    c = c' := by
  have hnodup : ((s.commitsOf c'.session).map (·.generation)).Nodup := by
    rw [h.generations]
    exact List.nodup_range.map (Nat.succ_injective)
  exact List.inj_on_of_nodup_map hnodup (List.mem_filter.mpr ⟨hc, by simp [hs]⟩)
    (List.mem_filter.mpr ⟨hc', by simp⟩) hg

/-- The generation that the latest commit of a session installed. -/
def State.latest (s : State) (sid : Uuid) : Option ℕ :=
  (s.commitsOf sid).getLast?.map (·.generation)

theorem Attach.latest_eq (h : Attach s) (sid : Uuid) :
    s.latest sid = if (s.commitsOf sid).length = 0 then none
      else some (s.commitsOf sid).length := by
  rw [State.latest, ← List.getLast?_map, h.generations, List.getLast?_map, List.getLast?_range]
  split_ifs with h₀
  · rfl
  · exact congrArg some (Nat.succ_pred_eq_of_ne_zero h₀)

theorem Attach.isCurrent_iff (h : Attach s) (sid : Uuid) (g : ℕ) :
    s.sessions.isCurrent sid g = true ↔ s.sessions.hasSession sid = true ∧ s.latest sid = some g := by
  rw [h.latest_eq, Sessions.isCurrent, Sessions.hasSession]
  cases hr : s.sessions.lookup sid with
  | none => simp
  | some r =>
    have hcount := h.counted sid r hr
    have hpos := h.started sid r hr
    unfold SessionRecord.isPending SessionRecord.reservation at hpos
    unfold SessionRecord.reservation at hcount
    rw [← hcount]
    cases hst : r.status with
    | pending deadline token => simp [hst]
    | active generation connection token =>
      have hne : generation ≠ 0 := by
        rw [hst] at hpos
        exact Nat.pos_iff_ne_zero.mp (hpos rfl)
      simp [hst, hne]

theorem Attach.drop_noop (h : Attach s) {p : HandshakePermit}
    (hdone : s.Committed p ∨ s.sessions.prepareAttach p = .error .reconnectSuperseded ∨
      s.sessions.prepareAttach p = .error .unauthorized) :
    s.sessions.cancelHandshake p.sessionId p.observedGeneration p.token = s.sessions := by
  rcases cancelHandshake_cases s.sessions p with ⟨heq, -⟩ | ⟨r, hr, hold, -⟩
  · exact heq
  · exfalso
    rcases hdone with ⟨c, hc, htok⟩ | herr
    · exact (h.spent p.sessionId r p.token hr (by rw [hold])).2 c hc htok
    · unfold HandshakePermit.Holds SessionRecord.reservation at hold
      unfold Sessions.prepareAttach at herr
      rw [hr] at herr
      cases hst : r.status <;> simp only [hst, Prod.mk.injEq] at hold herr
      · simp [hold.1.symm, hold.2] at herr
      · rw [if_pos hold] at herr
        cases hadd : checkedAdd _ 1 <;> rw [hadd] at herr <;> simp at herr

/-- A live permit that was not committed removes a pending session, and releases an active one. -/
theorem Attach.drop_uncommitted (h : Attach s) {p : HandshakePermit} (hp : p ∈ s.permits)
    (hnc : ¬ s.Committed p) {r : SessionRecord} (hr : s.sessions.lookup p.sessionId = some r) :
    s.sessions.cancelHandshake p.sessionId p.observedGeneration p.token =
      match r.status with
      | .pending _ _ => s.sessions.erase p.sessionId
      | .active g c _ => s.sessions.insert p.sessionId { r with status := .active g c none } := by
  have hold := h.held p hp hnc r hr
  unfold HandshakePermit.Holds SessionRecord.reservation at hold
  unfold Sessions.cancelHandshake
  rw [hr]
  cases hst : r.status <;> simp only [hst, Prod.mk.injEq] at hold ⊢
  · rw [if_pos ⟨hold.1.symm, hold.2⟩]
  · rw [if_pos hold]

/-- **Compare and swap**: a session has at most one commit for each generation observed, its `i`-th
commit installs generation `i`, which is what `prepare_attach` returned; dropping a permit that was
committed or superseded changes nothing, and dropping another one removes a pending session or
releases an active one; the current generation is that of the latest commit while the session is
registered. -/
theorem attach_compare_and_swap (inst : Uuid) (s : State) (h : (machine inst).Reachable s) :
    (∀ sid, ((s.commitsOf sid).map (·.observed)).Nodup) ∧
    (∀ sid, (s.commitsOf sid).map (·.generation) =
      (List.range (s.commitsOf sid).length).map (· + 1)) ∧
    (∀ c ∈ s.commits, ∀ e ∈ s.prepared, c.token = e.1 → e.2 = c.generation) ∧
    (∀ p ∈ s.permits, s.Committed p ∨ s.sessions.prepareAttach p = .error .reconnectSuperseded ∨
        s.sessions.prepareAttach p = .error .unauthorized →
      s.sessions.cancelHandshake p.sessionId p.observedGeneration p.token = s.sessions) ∧
    (∀ p ∈ s.permits, ¬ s.Committed p → ∀ r, s.sessions.lookup p.sessionId = some r →
      s.sessions.cancelHandshake p.sessionId p.observedGeneration p.token =
        match r.status with
        | .pending _ _ => s.sessions.erase p.sessionId
        | .active g c _ =>
          s.sessions.insert p.sessionId { r with status := .active g c none }) ∧
    (∀ sid g, s.sessions.isCurrent sid g = true ↔
      s.sessions.hasSession sid = true ∧ s.latest sid = some g) := by
  have ha := reachable_attach h
  exact ⟨ha.observed_nodup, ha.generations,
    fun c hc e he htok => ha.prepared_commit e he c hc htok,
    fun p _ hdone => ha.drop_noop hdone, fun p hp hnc r hr => ha.drop_uncommitted hp hnc hr,
    ha.isCurrent_iff⟩

/-- The permit that session 1 gets for its first attachment, and for its second one. -/
def samplePermit (observed token : ℕ) : HandshakePermit := ⟨1, none, observed, 9, token⟩

/-- A session that attaches and then has a reconnect under way. -/
def reconnectRun : List Label :=
  [.issue 0 "2.6.5" none 1 9 true, .beginHandshake 0 0 1 "2.6.5" 20,
    .prepareAttach (samplePermit 0 20), .commitAttach (samplePermit 0 20) 30,
    .beginHandshake 1 0 1 "2.6.5" 21, .prepareAttach (samplePermit 1 21)]

/-- During the reconnect the first attachment is current and its permit can be dropped; dropping
the permit of the reconnect leaves the attachment as it is. -/
theorem attach_compare_and_swap_reconnecting : ∃ s, (machine 0).Reachable s ∧
    s.sessions.isCurrent 1 1 = true ∧
    s.sessions.cancelHandshake 1 0 20 = s.sessions ∧
    s.sessions.cancelHandshake 1 1 21 = s.sessions.insert 1
      { secret := 9, productVersion := "2.6.5", desktopUid := none,
        status := .active 1 (some 30) none } := by
  have hr : (machine 0).Reachable _ := ⟨reconnectRun, rfl⟩
  obtain ⟨-, -, -, hdone, hlive, hcur⟩ := attach_compare_and_swap 0 _ hr
  refine ⟨_, hr, (hcur 1 1).mpr ⟨by decide, by decide⟩, ?_, ?_⟩
  · exact hdone (samplePermit 0 20) (by decide) (Or.inl ⟨⟨1, 20, 0, 1, 30⟩, by decide, rfl⟩)
  · refine hlive (samplePermit 1 21) (by decide) ?_ _ rfl
    rintro ⟨c, hc, htok⟩
    obtain rfl := List.mem_singleton.mp hc
    cases htok

/-- Once a session is revoked no generation is current, not even that of its latest commit. -/
theorem not_isCurrent_after_revoke : ∃ s, (machine 0).Reachable s ∧ s.latest 1 = some 1 ∧
    s.sessions.isCurrent 1 1 = false :=
  ⟨_, ⟨reconnectRun ++ [.revoke 1], rfl⟩, by decide, by decide⟩

end GlobalProtect.Service.Registry
