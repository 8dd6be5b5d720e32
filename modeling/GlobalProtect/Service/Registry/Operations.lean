import GlobalProtect.Service.Registry.Model

/-! # What the operations of the registry do

Three relations between the sessions before and after an operation. `Sessions.Below` is about
attaching: sessions may go, and those that stay keep their generation and the permit that holds it.
`Sessions.Moves` is about the work of the attachments: a record keeps its work and its attachment or
loses the attachment, and work that an open attachment carried is carried on or cancelled.
`Sessions.KeepsHip` is about the HIP data, and says which session may be new. Each
operation has a lemma for the relations it satisfies; `commit_attach`, `reserve_connection` and
`stop_non_tunnel_attachment`, which change the work or the attachment, have their own. -/

namespace GlobalProtect.Service.Registry

open Lib Api

/-! ### Attaching -/

/-- The permit still holds the reservation of the record. -/
def HandshakePermit.Holds (p : HandshakePermit) (r : SessionRecord) : Prop :=
  r.reservation = (p.observedGeneration, some p.token)

variable {ss ss' : Sessions} {p : HandshakePermit}

theorem prepareAttach_ok {g : ℕ} (h : ss.prepareAttach p = .ok g) :
    ∃ r, ss.lookup p.sessionId = some r ∧ p.Holds r ∧ g = p.observedGeneration + 1 := by
  unfold Sessions.prepareAttach at h
  split at h
  · cases h
  · next r hr =>
    refine ⟨r, hr, ?_⟩
    unfold HandshakePermit.Holds SessionRecord.reservation
    split at h
    · split_ifs at h with hg
      rw [hg.1, hg.2, ← Except.ok.inj h]
      exact ⟨rfl, rfl⟩
    · split_ifs at h with hg
      split at h
      · next hadd =>
        rw [← hg.1, hg.2, ← Except.ok.inj h]
        exact ⟨rfl, (checkedAdd_eq_some.mp hadd).2.symm⟩
      · cases h

theorem prepareAttach_lt {g : ℕ} (h : ss.prepareAttach p = .ok g) : g < wordSize := by
  unfold Sessions.prepareAttach at h
  split at h
  · cases h
  · split at h
    · split_ifs at h
      obtain rfl := Except.ok.inj h
      decide
    · split_ifs at h
      split at h
      · next hadd =>
        obtain rfl := Except.ok.inj h
        obtain ⟨hlt, rfl⟩ := checkedAdd_eq_some.mp hadd
        exact hlt
      · cases h

theorem commitAttach_ok {c : Uuid} {prev : Option Uuid}
    (h : (ss.commitAttach p c).result = .ok prev) :
    ∃ r closing, ss.lookup p.sessionId = some r ∧ p.Holds r ∧
      (ss.commitAttach p c).sessions = ss.insert p.sessionId
        { r with
          closedAttachment := closing
          status := .active (p.observedGeneration + 1) (some c) none } ∧
      (ss.commitAttach p c).cancelled =
        if r.isPending then none else r.nonTunnel.map (·.drain.cancellation) := by
  unfold Sessions.commitAttach at h ⊢
  unfold HandshakePermit.Holds SessionRecord.isPending
  cases hr : ss.lookup p.sessionId with
  | none => rw [hr] at h; cases h
  | some r =>
    rw [hr] at h
    cases hst : r.status with
    | pending deadline token =>
      simp only [hst] at h ⊢
      split_ifs at h ⊢ with hg
      refine ⟨r, r.closedAttachment, rfl, ?_, ?_, by simp [hst]⟩
      · simp [SessionRecord.reservation, hst, hg.1, hg.2]
      · rw [hg.1]
    | active generation current token =>
      simp only [hst] at h ⊢
      split_ifs at h ⊢ with hg
      cases hadd : checkedAdd generation 1 with
      | none => rw [hadd] at h; cases h
      | some next =>
        have hnext := (checkedAdd_eq_some.mp hadd).2
        refine ⟨r, none, rfl, ?_, ?_, by simp [hst]⟩
        · simp [SessionRecord.reservation, hst, ← hg.1, hg.2]
        · rw [← hg.1, hnext]

/-- Every session of `ss'` is one of `ss`, with the same generation and reservation. -/
def Sessions.Below (ss' ss : Sessions) : Prop :=
  ∀ sid r', ss'.lookup sid = some r' → ∃ r, ss.lookup sid = some r ∧
    r'.reservation = r.reservation ∧ r'.isPending = r.isPending

theorem Sessions.Below.refl (ss : Sessions) : ss.Below ss := fun _ r hr => ⟨r, hr, rfl, rfl⟩

theorem below_erase (sid : Uuid) : Sessions.Below (ss.erase sid) ss :=
  fun _ r' h => ⟨r', (Store.lookup_erase_cases h).2, rfl, rfl⟩

theorem below_insert {sid : Uuid} {r r' : SessionRecord} (hr : ss.lookup sid = some r)
    (hres : r'.reservation = r.reservation) (hpend : r'.isPending = r.isPending) :
    Sessions.Below (ss.insert sid r') ss :=
  Store.forall_lookup_insert (Sessions.Below.refl ss) ⟨r, hr, hres, hpend⟩

theorem below_retain (f : Uuid → SessionRecord → Bool) :
    Sessions.Below (Store.retain ss f) ss := by
  intro sid r h
  rw [Store.lookup_retain] at h
  exact ⟨r, (Option.filter_eq_some_iff.mp h).1, rfl, rfl⟩

theorem commitAttach_error {c : Uuid} {e : SessionError}
    (h : (ss.commitAttach p c).result = .error e) :
    (ss.commitAttach p c).sessions.Below ss := by
  unfold Sessions.commitAttach at h ⊢
  cases hr : ss.lookup p.sessionId with
  | none => exact Sessions.Below.refl ss
  | some r =>
    rw [hr] at h
    cases hst : r.status with
    | pending deadline token =>
      simp only [hst] at h ⊢
      split_ifs at h ⊢
      exact Sessions.Below.refl ss
    | active generation current token =>
      simp only [hst] at h ⊢
      split_ifs at h ⊢
      · cases hadd : checkedAdd generation 1 with
        | none =>
          exact below_insert hr (by simp [SessionRecord.reservation, hst])
            (by simp [SessionRecord.isPending, hst])
        | some next => rw [hadd] at h; cases h
      · exact Sessions.Below.refl ss

theorem disconnectIfCurrent_below (sid : Uuid) (g : ℕ) :
    (ss.disconnectIfCurrent sid g).1.Below ss := by
  unfold Sessions.disconnectIfCurrent
  split
  · exact Sessions.Below.refl ss
  · next r hr =>
    simp only
    split
    · next hst =>
      split_ifs
      · exact below_insert hr (by simp [SessionRecord.reservation, hst])
          (by simp [SessionRecord.isPending, hst])
      · exact Sessions.Below.refl ss
    · exact Sessions.Below.refl ss

theorem revoke_below (sid : Uuid) : (ss.revoke sid).1.Below ss := by
  unfold Sessions.revoke
  split
  · exact Sessions.Below.refl ss
  · exact below_erase sid

theorem issue_cases (ss : Sessions) (now : ℕ) (v : String) (u : Option ℕ) (sid : Uuid)
    (secret : ℕ) (b : Bool) :
    ∃ kept : Sessions, kept.Below ss ∧ ((ss.issue now v u sid secret b).1 = kept ∨
      ∃ r, r.reservation = (0, none) ∧ r.isPending = true ∧
        (ss.issue now v u sid secret b).1 = kept.insert sid r) := by
  refine ⟨_, below_retain fun _ r => !r.expired now, ?_⟩
  unfold Sessions.issue
  simp only
  split_ifs
  · exact Or.inl rfl
  · exact Or.inr ⟨_, rfl, rfl, rfl⟩
  · exact Or.inl rfl

theorem beginHandshake_cases (ss : Sessions) (inst : Uuid) (now : ℕ) (si sid : Uuid) (v : String)
    (token : Uuid) :
    (∃ r r' q, ss.lookup sid = some r ∧ r.reservation.2 = none ∧
      r'.reservation = (r.reservation.1, some token) ∧ r'.isPending = r.isPending ∧
      q.sessionId = sid ∧ q.token = token ∧
      q.observedGeneration = r.reservation.1 ∧
      ss.beginHandshake inst now si sid v token = (ss.insert sid r', .ok q)) ∨
    ∃ ss' e, ss'.Below ss ∧ ss.beginHandshake inst now si sid v token = (ss', .error e) := by
  unfold Sessions.beginHandshake
  split_ifs
  · exact Or.inr ⟨ss, _, .refl ss, rfl⟩
  · cases hr : ss.lookup sid with
    | none => exact Or.inr ⟨ss, _, .refl ss, rfl⟩
    | some r =>
      simp only
      split_ifs
      · exact Or.inr ⟨ss, _, .refl ss, rfl⟩
      · cases hst : r.status with
        | pending deadline held =>
          simp only
          split_ifs with h₁ h₂
          · exact Or.inr ⟨_, _, below_erase sid, rfl⟩
          · exact Or.inr ⟨ss, _, .refl ss, rfl⟩
          · exact Or.inl ⟨r, _, _, rfl, by simpa [SessionRecord.reservation, hst] using h₂,
              by simp [SessionRecord.reservation, hst], by simp [SessionRecord.isPending, hst],
              rfl, rfl,
              by simp [SessionRecord.reservation, hst], rfl⟩
        | active generation connection held =>
          simp only
          split_ifs with h₁
          · exact Or.inr ⟨ss, _, .refl ss, rfl⟩
          · exact Or.inl ⟨r, _, _, rfl, by simpa [SessionRecord.reservation, hst] using h₁,
              by simp [SessionRecord.reservation, hst], by simp [SessionRecord.isPending, hst],
              rfl, rfl,
              by simp [SessionRecord.reservation, hst], rfl⟩

/-- A permit that does not hold the reservation is dropped without effect; one that does removes a
pending session, or clears the reservation of an active one. -/
theorem cancelHandshake_cases (ss : Sessions) (p : HandshakePermit) :
    (ss.cancelHandshake p.sessionId p.observedGeneration p.token = ss ∧
      ∀ r, ss.lookup p.sessionId = some r → ¬ p.Holds r) ∨
    ∃ r, ss.lookup p.sessionId = some r ∧ p.Holds r ∧
      ((r.isPending = true ∧
        ss.cancelHandshake p.sessionId p.observedGeneration p.token = ss.erase p.sessionId) ∨
      ∃ g c t, r.status = .active g c t ∧
        ss.cancelHandshake p.sessionId p.observedGeneration p.token =
          ss.insert p.sessionId { r with status := .active g c none }) := by
  unfold Sessions.cancelHandshake HandshakePermit.Holds
  cases hr : ss.lookup p.sessionId with
  | none => exact Or.inl ⟨rfl, by rintro r ⟨⟩⟩
  | some r =>
    cases hst : r.status with
    | pending deadline held =>
      simp only [SessionRecord.reservation, SessionRecord.isPending, hst]
      split_ifs with hg
      · exact Or.inr ⟨r, rfl, by simp [hst, hg.1, hg.2], Or.inl ⟨by simp [hst], rfl⟩⟩
      · refine Or.inl ⟨rfl, ?_⟩
        rintro _ ⟨rfl⟩ heq
        rw [hst] at heq
        exact hg ⟨(Prod.mk.inj heq).1.symm, (Prod.mk.inj heq).2⟩
    | active generation connection held =>
      simp only [SessionRecord.reservation, hst]
      split_ifs with hg
      · exact Or.inr ⟨r, rfl, by simp [hst, hg.1, hg.2], Or.inr ⟨_, _, _, hst, rfl⟩⟩
      · refine Or.inl ⟨rfl, ?_⟩
        rintro _ ⟨rfl⟩ heq
        rw [hst] at heq
        exact hg ⟨(Prod.mk.inj heq).1, (Prod.mk.inj heq).2⟩

/-! ### Work -/

/-- Non-tunnel work that a session reserved on one of its attachments, named by its token. -/
structure Work where
  session : Uuid
  generation : ℕ
  connection : Uuid
  token : ℕ
  deriving DecidableEq, Repr

/-- The generation and the connection a session is attached with. -/
def SessionRecord.attachment (r : SessionRecord) : Option (ℕ × Uuid) :=
  match r.status with
  | .active generation (some connection) _ => some (generation, connection)
  | _ => none

/-- The work is that of the attachment of the session, which is not closing. -/
structure SessionRecord.Carries (r : SessionRecord) (w : Work) : Prop where
  attached : r.attachment = some (w.generation, w.connection)
  notClosing : r.closedAttachment ≠ some w.connection
  work : r.nonTunnel = some ⟨w.generation, w.connection, ⟨w.token, w.token⟩⟩

def Sessions.Carries (ss : Sessions) (w : Work) : Prop :=
  ∃ r, ss.lookup w.session = some r ∧ r.Carries w

/-- A record after an operation that leaves work alone, and at most takes the attachment. -/
structure SessionRecord.From (r' r : SessionRecord) : Prop where
  nonTunnel : r'.nonTunnel = r.nonTunnel
  closing : r'.closedAttachment = r.closedAttachment
  attachment : r'.attachment = r.attachment ∨ r'.attachment = none

/-- From `ss` to `ss'` no work and no attachment appears, and carried work is carried on unless its
token is the one that was cancelled. -/
structure Sessions.Moves (ss ss' : Sessions) (cancelled : Option ℕ) : Prop where
  origin : ∀ sid r', ss'.lookup sid = some r' →
    (r'.nonTunnel = none ∧ r'.attachment = none) ∨ ∃ r, ss.lookup sid = some r ∧ r'.From r
  keeps : ∀ w, ss.Carries w → ss'.Carries w ∨ cancelled = some w.token

variable {r r' : SessionRecord} {w : Work} {sid : Uuid} {cancelled : Option ℕ}

theorem SessionRecord.From.carries (h : r'.From r) (ha : r'.attachment = r.attachment)
    (hw : r.Carries w) : r'.Carries w :=
  ⟨ha.trans hw.attached, by rw [h.closing]; exact hw.notClosing, h.nonTunnel.trans hw.work⟩

theorem not_carries_of_pending (hp : r.isPending = true) : ¬ r.Carries w := by
  intro hw
  have ha := hw.attached
  unfold SessionRecord.attachment at ha
  unfold SessionRecord.isPending at hp
  split at ha <;> simp_all

theorem Sessions.Moves.refl (ss : Sessions) : ss.Moves ss none :=
  ⟨fun _ r hr => Or.inr ⟨r, hr, rfl, rfl, Or.inl rfl⟩, fun _ hw => Or.inl hw⟩

theorem Sessions.Moves.erase (hr : ss.lookup sid = some r)
    (hw : ∀ w, r.Carries w → cancelled = some w.token) : ss.Moves (ss.erase sid) cancelled := by
  refine ⟨fun sid' q hq => ?_, ?_⟩
  · exact Or.inr ⟨q, (Store.lookup_erase_cases hq).2, rfl, rfl, Or.inl rfl⟩
  · rintro w ⟨q, hq, hc⟩
    by_cases hs : w.session = sid
    · rw [hs, hr] at hq
      cases hq
      exact Or.inr (hw w hc)
    · exact Or.inl ⟨q, (AList.lookup_erase_ne hs).trans hq, hc⟩

theorem carries_insert {q : Prop} (hr : ss.lookup sid = some r)
    (hw : r.Carries w → r'.Carries w ∨ q) (h : ss.Carries w) :
    Sessions.Carries (ss.insert sid r') w ∨ q := by
  obtain ⟨x, hx, hc⟩ := h
  by_cases hs : w.session = sid
  · rw [hs, hr] at hx
    cases hx
    exact (hw hc).imp_left fun h => ⟨r', by rw [hs, AList.lookup_insert], h⟩
  · exact Or.inl ⟨x, (AList.lookup_insert_ne hs).trans hx, hc⟩

theorem Sessions.Moves.insert (hr : ss.lookup sid = some r) (hfrom : r'.From r)
    (hw : ∀ w, r.Carries w → r'.Carries w ∨ cancelled = some w.token) :
    ss.Moves (ss.insert sid r') cancelled :=
  ⟨Store.forall_lookup_insert (Sessions.Moves.refl ss).origin (Or.inr ⟨r, hr, hfrom⟩),
    fun w => carries_insert hr (hw w)⟩

theorem Sessions.Moves.setStatus (hr : ss.lookup sid = some r) {st : SessionStatus}
    (ha : { r with status := st }.attachment = r.attachment) :
    ss.Moves (ss.insert sid { r with status := st }) none :=
  have hfrom : { r with status := st }.From r := ⟨rfl, rfl, Or.inl ha⟩
  .insert hr hfrom fun _ hw => Or.inl (hfrom.carries ha hw)

theorem issue_moves (now : ℕ) (v : String) (u : Option ℕ) (secret : ℕ) (b : Bool)
    (hnew : ss.lookup sid = none) : ss.Moves (ss.issue now v u sid secret b).1 none := by
  set kept : Sessions := Store.retain ss fun _ r => !r.expired now with hkept
  have hkeep : ss.Moves kept none := by
    refine ⟨fun sid' q hq => ?_, ?_⟩
    · rw [hkept, Store.lookup_retain] at hq
      exact Or.inr ⟨q, (Option.filter_eq_some_iff.mp hq).1, rfl, rfl, Or.inl rfl⟩
    · rintro w ⟨q, hq, hc⟩
      refine Or.inl ⟨q, ?_, hc⟩
      rw [hkept, Store.lookup_retain, hq, Option.filter_some, if_pos]
      have hact : q.isPending = false := by
        cases hp : q.isPending
        · rfl
        · exact absurd hc (not_carries_of_pending hp)
      unfold SessionRecord.expired
      unfold SessionRecord.isPending at hact
      split at hact <;> simp_all
  unfold Sessions.issue
  simp only [← hkept]
  split_ifs
  · exact hkeep
  · refine ⟨Store.forall_lookup_insert hkeep.origin (Or.inl ⟨rfl, rfl⟩), fun w hw => ?_⟩
    · obtain ⟨q, hq, hc⟩ := hw
      have hs : w.session ≠ sid := by
        rintro rfl; rw [hnew] at hq; cases hq
      refine (hkeep.keeps w ⟨q, hq, hc⟩).imp_left ?_
      rintro ⟨q', hq', hc'⟩
      exact ⟨q', (AList.lookup_insert_ne hs).trans hq', hc'⟩
  · exact hkeep

theorem beginHandshake_moves (inst : Uuid) (now : ℕ) (si sid : Uuid) (v : String) (token : Uuid) :
    ss.Moves (ss.beginHandshake inst now si sid v token).1 none := by
  unfold Sessions.beginHandshake
  split_ifs
  · exact .refl ss
  · cases hr : ss.lookup sid with
    | none => exact .refl ss
    | some r =>
      simp only
      split_ifs
      · exact .refl ss
      · cases hst : r.status with
        | pending deadline held =>
          simp only
          split_ifs
          · exact .erase hr fun w hw =>
              absurd hw (not_carries_of_pending (by simp [SessionRecord.isPending, hst]))
          · exact .refl ss
          · exact .setStatus hr (by simp [SessionRecord.attachment, hst])
        | active generation connection held =>
          simp only
          split_ifs
          · exact .refl ss
          · exact .setStatus hr (by cases connection <;> simp [SessionRecord.attachment, hst])

theorem cancelHandshake_moves (p : HandshakePermit) :
    ss.Moves (ss.cancelHandshake p.sessionId p.observedGeneration p.token) none := by
  rcases cancelHandshake_cases ss p with
    ⟨heq, -⟩ | ⟨r, hr, -, ⟨hpend, heq⟩ | ⟨g, c, t, hst, heq⟩⟩ <;> rw [heq]
  · exact .refl ss
  · exact .erase hr fun w hw => absurd hw (not_carries_of_pending hpend)
  · exact .setStatus hr (by cases c <;> simp [SessionRecord.attachment, hst])

theorem disconnectIfCurrent_moves (sid : Uuid) (g : ℕ) :
    ss.Moves (ss.disconnectIfCurrent sid g).1 (ss.disconnectIfCurrent sid g).2 := by
  unfold Sessions.disconnectIfCurrent
  cases hr : ss.lookup sid with
  | none => exact .refl ss
  | some r =>
    simp only
    have hkeep : ∀ c, ss.Moves ss c :=
      fun c => ⟨(Sessions.Moves.refl ss).origin, fun w hw => Or.inl hw⟩
    split
    · next current connection token hst =>
      split_ifs with hg
      · refine .insert hr ⟨rfl, rfl, Or.inr rfl⟩ fun w hw => Or.inr ?_
        have hgen : w.generation = g := by
          have ha := hw.attached
          simp only [SessionRecord.attachment, hst] at ha
          split at ha <;> simp_all
        rw [hw.work, Option.filter_some, if_pos (by simp [hgen])]
        rfl
      · exact hkeep _
    · exact hkeep _

theorem revoke_moves (sid : Uuid) : ss.Moves (ss.revoke sid).1 (ss.revoke sid).2.1 := by
  unfold Sessions.revoke
  cases hr : ss.lookup sid with
  | none => exact .refl ss
  | some r => exact .erase hr fun w hw => by simp [hw.work]

/-- A commit cancels the work of the attachment it replaces. -/
theorem commitAttach_keeps {c : Uuid} {prev : Option Uuid}
    (h : (ss.commitAttach p c).result = .ok prev) (hw : ss.Carries w) :
    (ss.commitAttach p c).sessions.Carries w ∨ (ss.commitAttach p c).cancelled = some w.token := by
  obtain ⟨r, closing, hr, -, hss, hcan⟩ := commitAttach_ok h
  rw [hss, hcan]
  refine carries_insert hr (fun hc => ?_) hw
  cases hp : r.isPending
  · exact Or.inr (by simp [hc.work])
  · exact absurd hc (not_carries_of_pending hp)

theorem commitAttach_refused {c : Uuid} {e : SessionError}
    (h : (ss.commitAttach p c).result = .error e) (hlt : p.observedGeneration + 1 < wordSize) :
    (ss.commitAttach p c).sessions = ss ∧ (ss.commitAttach p c).cancelled = none := by
  unfold Sessions.commitAttach at h ⊢
  cases hr : ss.lookup p.sessionId with
  | none => exact ⟨rfl, rfl⟩
  | some r =>
    rw [hr] at h
    cases hst : r.status with
    | pending deadline token =>
      simp only [hst] at h ⊢
      split_ifs at h ⊢
      exact ⟨rfl, rfl⟩
    | active generation current token =>
      simp only [hst] at h ⊢
      split_ifs at h ⊢ with hg
      · rw [checkedAdd, hg.1, if_pos hlt] at h; cases h
      · exact ⟨rfl, rfl⟩

theorem currentConnection_eq_ok {closed : Finset Uuid} {g : ℕ} {c : Uuid} :
    r.currentConnection closed g = .ok c ↔ r.attachment = some (g, c) ∧ c ∉ closed := by
  unfold SessionRecord.currentConnection SessionRecord.attachment
  rcases r.status with ⟨deadline, token⟩ | ⟨generation, _ | connection, token⟩
  · simp
  · simp
  · simp only
    by_cases hg : generation = g ∧ connection ∉ closed
    · rw [if_pos hg, hg.1]
      constructor
      · rintro ⟨rfl⟩; exact ⟨rfl, hg.2⟩
      · rintro ⟨⟨rfl⟩, -⟩; rfl
    · rw [if_neg hg]
      constructor
      · rintro ⟨⟩
      · rintro ⟨⟨rfl⟩, hc⟩; exact absurd ⟨rfl, hc⟩ hg

/-- The record whose work is forgotten once it has completed. -/
def SessionRecord.forget (r : SessionRecord) (completed : Finset ℕ) : SessionRecord :=
  { r with nonTunnel := r.nonTunnel.filter (·.drain.completion ∉ completed) }

theorem reserveConnection_cases {ρ : Type*} (ss : Sessions) (drain : ρ → AttemptDrain)
    (closed : Finset Uuid) (completed : Finset ℕ) (sid : Uuid) (g : ℕ) (nonTunnel : Bool)
    (reserve : Except ServiceResult ρ) :
    (∃ e, ss.reserveConnection drain closed completed sid g nonTunnel reserve = (ss, .error e)) ∨
    ∃ r c, ss.lookup sid = some r ∧ r.attachment = some (g, c) ∧ c ∉ closed ∧
      (nonTunnel = true → r.closedAttachment ≠ some c) ∧
      ((∃ e, ss.reserveConnection drain closed completed sid g nonTunnel reserve =
          (ss.insert sid (r.forget completed), .error e)) ∨
        ∃ x, reserve = .ok x ∧
          ss.reserveConnection drain closed completed sid g nonTunnel reserve =
            (ss.insert sid (if nonTunnel then
              { r.forget completed with nonTunnel := some ⟨g, c, drain x⟩ }
              else r.forget completed), .ok x)) := by
  unfold Sessions.reserveConnection
  cases hr : ss.lookup sid with
  | none => exact Or.inl ⟨_, rfl⟩
  | some r =>
    simp only
    cases hcur : r.currentConnection closed g with
    | error e => exact Or.inl ⟨e, rfl⟩
    | ok c =>
      obtain ⟨ha, hopen⟩ := currentConnection_eq_ok.mp hcur
      by_cases hclosing : nonTunnel = true ∧ r.closedAttachment = some c
      · simp only [if_pos hclosing]
        exact Or.inl ⟨_, rfl⟩
      · simp only [if_neg hclosing]
        refine Or.inr ⟨r, c, rfl, ha, hopen, fun hn hc => hclosing ⟨hn, hc⟩, ?_⟩
        cases reserve with
        | error e => exact Or.inl ⟨e, rfl⟩
        | ok x => exact Or.inr ⟨x, rfl, rfl⟩

theorem commitConnection_ok {closed : Finset Uuid} {g : ℕ}
    (h : ss.commitConnection closed sid g true = .ok ()) :
    ∃ r c, ss.lookup sid = some r ∧ r.attachment = some (g, c) ∧ c ∉ closed ∧
      r.closedAttachment ≠ some c := by
  unfold Sessions.commitConnection at h
  cases hr : ss.lookup sid with
  | none => rw [hr] at h; cases h
  | some r =>
    simp only [hr] at h
    cases hcur : r.currentConnection closed g with
    | error e => rw [hcur] at h; cases h
    | ok c =>
      obtain ⟨ha, hopen⟩ := currentConnection_eq_ok.mp hcur
      have hclosing : r.closedAttachment ≠ some c := by
        intro hc; simp [hcur, hc] at h
      exact ⟨r, c, rfl, ha, hopen, hclosing⟩

theorem stopNonTunnelAttachment_cases (ss : Sessions) (closed : Finset Uuid) (sid : Uuid) (g : ℕ)
    (c : Uuid) :
    (∃ e, ss.stopNonTunnelAttachment closed sid g c = (ss, .error e)) ∨
    ∃ r current, ss.lookup sid = some r ∧ r.attachment = some (g, current) ∧
      ss.stopNonTunnelAttachment closed sid g c =
        (if current = c then ss.insert sid { r with closedAttachment := some c } else ss,
          .ok ((r.nonTunnel.filter (·.connectionId = c)).map (·.drain))) := by
  unfold Sessions.stopNonTunnelAttachment
  cases hr : ss.lookup sid with
  | none => exact Or.inl ⟨_, rfl⟩
  | some r =>
    simp only
    cases hcur : r.currentConnection closed g with
    | error e => exact Or.inl ⟨e, rfl⟩
    | ok current =>
      exact Or.inr ⟨r, current, rfl, (currentConnection_eq_ok.mp hcur).1, rfl⟩

/-! ### What is cancelled -/

theorem commitAttach_cancelled {c : Uuid} {t : ℕ} (h : (ss.commitAttach p c).cancelled = some t) :
    ∃ r a, ss.lookup p.sessionId = some r ∧ r.nonTunnel = some a ∧ a.drain.cancellation = t ∧
      r.reservation.1 = p.observedGeneration := by
  unfold Sessions.commitAttach at h
  cases hr : ss.lookup p.sessionId with
  | none => rw [hr] at h; cases h
  | some r =>
    simp only [hr] at h
    cases hst : r.status with
    | pending deadline token => simp only [hst] at h; split_ifs at h
    | active generation current token =>
      simp only [hst] at h
      split_ifs at h with hg
      have hcan : r.nonTunnel.map (·.drain.cancellation) = some t := by
        split at h <;> exact h
      obtain ⟨a, ha, rfl⟩ := Option.map_eq_some_iff.mp hcan
      exact ⟨r, a, rfl, ha, rfl, by simp [SessionRecord.reservation, hst, hg.1]⟩

theorem disconnectIfCurrent_cancelled {g t : ℕ} (h : (ss.disconnectIfCurrent sid g).2 = some t) :
    ∃ r a, ss.lookup sid = some r ∧ r.nonTunnel = some a ∧ a.drain.cancellation = t ∧
      a.generation = g := by
  unfold Sessions.disconnectIfCurrent at h
  cases hr : ss.lookup sid with
  | none => rw [hr] at h; cases h
  | some r =>
    simp only [hr] at h
    have hcan : (r.nonTunnel.filter (·.generation = g)).map (·.drain.cancellation) = some t := by
      split at h
      · split_ifs at h <;> exact h
      · exact h
    obtain ⟨a, ha, rfl⟩ := Option.map_eq_some_iff.mp hcan
    obtain ⟨ha, hg⟩ := Option.filter_eq_some_iff.mp ha
    exact ⟨r, a, rfl, ha, rfl, of_decide_eq_true hg⟩

theorem revoke_cancelled {t : ℕ} (h : (ss.revoke sid).2.1 = some t) :
    ∃ r a, ss.lookup sid = some r ∧ r.nonTunnel = some a ∧ a.drain.cancellation = t := by
  unfold Sessions.revoke at h
  cases hr : ss.lookup sid with
  | none => rw [hr] at h; cases h
  | some r =>
    simp only [hr] at h
    obtain ⟨a, ha, rfl⟩ := Option.map_eq_some_iff.mp h
    exact ⟨r, a, rfl, ha, rfl⟩

theorem stopNonTunnelAttachment_cancelled {closed : Finset Uuid} {g : ℕ} {c : Uuid}
    {d : AttemptDrain} (h : (ss.stopNonTunnelAttachment closed sid g c).2 = .ok (some d)) :
    ∃ r a, ss.lookup sid = some r ∧ r.nonTunnel = some a ∧ a.drain = d ∧ a.connectionId = c := by
  rcases stopNonTunnelAttachment_cases ss closed sid g c with
    ⟨e, heq⟩ | ⟨r, current, hr, -, heq⟩ <;> rw [heq] at h
  · cases h
  · obtain ⟨a, ha, hd⟩ := Option.map_eq_some_iff.mp (Except.ok.inj h)
    obtain ⟨ha, hc⟩ := Option.filter_eq_some_iff.mp ha
    exact ⟨r, a, hr, ha, hd, of_decide_eq_true hc⟩

/-! ### HIP data -/

/-- The HIP data of a record: the upload, the report and the preview. -/
def SessionRecord.hip (r : SessionRecord) :
    Option (Uuid × String) × Option (Uuid × String) × Option (Uuid × String) :=
  (r.editedHipUpload, r.editedHipReport, r.hipPreview)

/-- Sessions may go; those that stay keep their HIP data, and only `new` may come, with none. -/
def Sessions.KeepsHip (ss' ss : Sessions) (new : Option Uuid) : Prop :=
  ∀ sid r', ss'.lookup sid = some r' →
    (∃ r, ss.lookup sid = some r ∧ r'.hip = r.hip) ∨ new = some sid ∧ r'.hip = (none, none, none)

variable {new : Option Uuid}

theorem Sessions.KeepsHip.refl (ss : Sessions) : ss.KeepsHip ss new :=
  fun _ r hr => Or.inl ⟨r, hr, rfl⟩

theorem Sessions.KeepsHip.erase (ss : Sessions) (sid : Uuid) :
    Sessions.KeepsHip (ss.erase sid) ss new :=
  fun _ r hr => Or.inl ⟨r, (Store.lookup_erase_cases hr).2, rfl⟩

theorem Sessions.KeepsHip.insert (hr : ss.lookup sid = some r) (hh : r'.hip = r.hip) :
    Sessions.KeepsHip (ss.insert sid r') ss new :=
  Store.forall_lookup_insert (Sessions.KeepsHip.refl ss) (Or.inl ⟨r, hr, hh⟩)

theorem issue_keepsHip (ss : Sessions) (now : ℕ) (version : String) (uid : Option ℕ) (sid : Uuid)
    (secret : ℕ) (available : Bool) :
    (ss.issue now version uid sid secret available).1.KeepsHip ss (some sid) := by
  have hretain : Sessions.KeepsHip (Store.retain ss fun _ r => !r.expired now) ss (some sid) := by
    intro k q hq
    rw [Store.lookup_retain, Option.filter_eq_some_iff] at hq
    exact Or.inl ⟨q, hq.1, rfl⟩
  unfold Sessions.issue
  dsimp only
  split_ifs
  · exact hretain
  · exact Store.forall_lookup_insert hretain (Or.inr ⟨rfl, rfl⟩)
  · exact hretain

theorem beginHandshake_keepsHip (ss : Sessions) (inst : Uuid) (now : ℕ) (si sid : Uuid)
    (version : String) (token : Uuid) :
    (ss.beginHandshake inst now si sid version token).1.KeepsHip ss new := by
  unfold Sessions.beginHandshake
  split_ifs
  · exact .refl ss
  split
  · exact .refl ss
  · next hr =>
    split_ifs
    · exact .refl ss
    split <;> split_ifs
    · exact .erase ss sid
    · exact .refl ss
    · exact .insert hr rfl
    · exact .refl ss
    · exact .insert hr rfl

theorem commitAttach_keepsHip (ss : Sessions) (p : HandshakePermit) (connection : Uuid) :
    (ss.commitAttach p connection).sessions.KeepsHip ss new := by
  unfold Sessions.commitAttach
  split
  · exact .refl ss
  · next hr =>
    split <;> split_ifs
    · exact .insert hr rfl
    · exact .refl ss
    · split
      · exact .insert hr rfl
      · exact .insert hr rfl
    · exact .refl ss

theorem cancelHandshake_keepsHip (ss : Sessions) (sid : Uuid) (observed : ℕ) (token : Uuid) :
    (ss.cancelHandshake sid observed token).KeepsHip ss new := by
  unfold Sessions.cancelHandshake
  split
  · exact .refl ss
  · next hr =>
    split <;> split_ifs
    · exact .erase ss sid
    · exact .refl ss
    · exact .insert hr rfl
    · exact .refl ss

theorem disconnectIfCurrent_keepsHip (ss : Sessions) (sid : Uuid) (generation : ℕ) :
    (ss.disconnectIfCurrent sid generation).1.KeepsHip ss new := by
  unfold Sessions.disconnectIfCurrent
  split
  · exact .refl ss
  · next hr =>
    split
    · split_ifs
      · exact .insert hr rfl
      · exact .refl ss
    · exact .refl ss

theorem lookup_revoke (ss : Sessions) (sid k : Uuid) :
    (ss.revoke sid).1.lookup k = if k = sid then none else ss.lookup k := by
  unfold Sessions.revoke
  by_cases hk : k = sid
  · subst hk
    rw [if_pos rfl]
    split
    · assumption
    · exact AList.lookup_erase k ss
  · rw [if_neg hk]
    split
    · rfl
    · exact AList.lookup_erase_ne hk

theorem revoke_keepsHip (ss : Sessions) (sid : Uuid) : (ss.revoke sid).1.KeepsHip ss new := by
  unfold Sessions.revoke
  split
  · exact .refl ss
  · exact .erase ss sid

end GlobalProtect.Service.Registry
