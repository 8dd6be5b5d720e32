import GlobalProtect.Session.NonTunnel

/-! # The health gate of non-tunnel sessions

What holds for every schedule of the workers, the coordinator and the caller. `Phase.act` can reach
the two phases that matter in few ways: the observer is called only with the gate and after a check
of the token under it (`act_publishing`), and a worker that ends as rejected has called it unless
its token was cancelled (`act_rejected`). From this come the two invariants: `Member`, for each
worker, and `Stage`, for the point the coordinator has reached. -/

namespace GlobalProtect.Session.NonTunnel

open Lib Api

/-! ### What one step of a worker can do -/

section Act

variable {b : Bool} {p p' : Phase} {a : Act}

@[simp] theorem next_ne_publishing (st st' : Announcement) : st.next ≠ .publishing st' := by
  cases st <;> simp [Announcement.next]

@[simp] theorem next_ne_cancelled (st : Announcement) : st.next ≠ .ended (some .cancelled) := by
  cases st <;> simp [Announcement.next]

@[simp] theorem next_eq_rejected (st : Announcement) :
    st.next = .ended (some .rejected) ↔ st = .rejected := by
  cases st <;> simp [Announcement.next]

/-- A round ends with an announcement, or with the exit it then has. -/
theorem conclude_cases (b : Bool) (r : Except MemberError Unit) :
    (∃ st, Phase.conclude b r = .announce st) ∨
      (∃ reason, Phase.conclude b r = .ended (some (.terminal reason))) ∨
      (b = true ∧ Phase.conclude b r = .ended (some .cancelled)) := by
  unfold Phase.conclude
  split <;> (try split_ifs) <;> simp_all

theorem act_not_ended (h : p.act b a = some p') (e : Option MemberExit) : p ≠ .ended e := by
  rintro rfl
  cases h

/-- Where the phases come from that matter to the gate: the one in which a worker publishes, and the
two exits that a cancellation or a rejection gives. -/
theorem act_sources (h : p.act b a = some p') :
    (∀ st, p' = .publishing st → b = false ∧ p = .locked st) ∧
      (p' = .ended (some .rejected) → b = true ∨ p = .publishing .rejected) ∧
      (p' = .ended (some .cancelled) → b = true) := by
  unfold Phase.act at h
  split at h <;> (try split_ifs at h) <;> (try cases h) <;> simp_all
  next r =>
    rcases conclude_cases b r with ⟨_, h'⟩ | ⟨_, h'⟩ | ⟨hb, h'⟩
    · simp [h']
    · simp [h']
    · rw [h']
      simp [hb]

theorem act_publishing {st : Announcement} (h : p.act b a = some (.publishing st)) :
    b = false ∧ p = .locked st :=
  (act_sources h).1 st rfl

theorem act_rejected (h : p.act b a = some (.ended (some .rejected))) :
    b = true ∨ p = .publishing .rejected :=
  (act_sources h).2.1 rfl

theorem act_cancelled (h : p.act b a = some (.ended (some .cancelled))) : b = true :=
  (act_sources h).2.2 rfl

end Act

variable {s s' : State} {w w' : Worker} {i j : ℕ}

theorem work_cases {a : Act} (h : s.work i a = some s') :
    ∃ w p obs reports, s.workers[i]? = some w ∧ w.phase.act s.workersCancelled a = some p ∧
      s' = { s with
        workers := s.workers.set i { w with phase := p }
        observed := s.observed ++ obs
        reports } ∧
      (obs = [] ∧ (∀ st, w.phase = .publishing st → p = .ended none) ∨
        ∃ st, w.phase = .publishing st ∧ p = st.next ∧
          obs = [⟨false, w.session.summary st.state⟩]) := by
  unfold State.work at h
  split at h
  · cases h
  next w hw =>
  split at h
  · cases h
  next p hp =>
  simp only at h
  split at h
  · next st hph =>
    obtain ⟨-, rfl⟩ := Option.ite_some_none_eq_some.mp h
    exact ⟨w, p, [], s.reports, hw, hp, by simp, Or.inl ⟨rfl, by simp [hph]⟩⟩
  · next st hph =>
    cases h
    have hnext : p = st.next := by rw [hph] at hp; exact (Option.some.inj hp).symm
    exact ⟨w, p, _, s.reports, hw, hp, rfl, Or.inr ⟨st, hph, hnext, rfl⟩⟩
  · next hph =>
    cases h
    refine ⟨w, p, [], if s.workersCancelled then s.reports else s.reports ++ [w.session], hw, hp, ?_,
      Or.inl ⟨rfl, by simp [hph]⟩⟩
    split_ifs <;> simp
  · next hpub _ =>
    cases h
    refine ⟨w, p, [], s.reports, hw, hp, by simp, Or.inl ⟨rfl, fun st hph => ?_⟩⟩
    -- without the gate's step only a panic leaves this phase
    have hadv := hpub st hph
    rw [hph] at hp
    unfold Phase.act at hp
    split at hp <;> simp_all

theorem join_cases {jo : Joined} {r : Worker × State} (h : s.join i jo = some r) :
    ∃ w e, s.workers[i]? = some w ∧ w.phase = .ended e ∧ w.joined = none ∧
      r = (w, { s with workers := s.workers.set i { w with joined := some jo } }) := by
  unfold State.join at h
  split at h
  · cases h
  next w hw =>
  split at h
  · next e hph hjo => exact ⟨w, e, hw, hph, hjo, (Option.some.inj h).symm⟩
  · cases h

/-! ### Workers by index -/

theorem map_set_of_eq {α β : Type*} {l : List α} {f : α → β} {a b : α} (h : l[i]? = some a)
    (hf : f b = f a) : (l.set i b).map f = l.map f := by
  refine List.ext_getElem? fun j => ?_
  rw [List.getElem?_map, List.getElem?_map, List.getElem?_set]
  split_ifs with hij hlt
  · subst hij; simp [h, hf]
  · subst hij; simp [List.getElem?_eq_none (Nat.le_of_not_lt hlt)]
  · rfl

theorem mem_set_of_ne {α : Type*} {l : List α} {a b v : α} (ha : a ∈ l) (h : l[i]? = some b)
    (hne : a ≠ b) : a ∈ l.set i v := by
  obtain ⟨j, hj⟩ := List.mem_iff_getElem?.mp ha
  have hij : i ≠ j := by rintro rfl; exact hne (Option.some.inj (hj.symm.trans h))
  exact List.mem_iff_getElem?.mpr ⟨j, by rw [List.getElem?_set_ne hij]; exact hj⟩

theorem getElem?_set_cases {α : Type*} {l : List α} {a v : α} (h : (l.set i v)[j]? = some a) :
    i = j ∧ a = v ∨ i ≠ j ∧ l[j]? = some a := by
  rw [List.getElem?_set] at h
  split_ifs at h with hij
  · exact Or.inl ⟨hij, (Option.some.inj h).symm⟩
  · exact Or.inr ⟨hij, h⟩

theorem server_ne (hn : (s.workers.map (·.session.server)).Nodup) (hw : s.workers[i]? = some w)
    (hw' : s.workers[j]? = some w') (hij : i ≠ j) : w.session.server ≠ w'.session.server := by
  intro heq
  have hlt : i < (s.workers.map (·.session.server)).length := by
    rw [List.length_map]; exact (List.getElem?_eq_some_iff.mp hw).1
  exact hij ((List.getElem?_inj hlt hn).mp (by simp [hw, hw', heq]))

/-! ### The last status -/

/-- The last status observed for a server. -/
def lastStatus (observed : List Observation) (server : String) : Option MaintenanceState :=
  (observed.filter fun o => o.summary.gateway.server = server).getLast?.map
    (·.summary.maintenance)

theorem lastStatus_append_of_ne {obs new : List Observation} {server : String}
    (h : ∀ o ∈ new, o.summary.gateway.server ≠ server) :
    lastStatus (obs ++ new) server = lastStatus obs server := by
  have hnil : new.filter (fun o => o.summary.gateway.server = server) = [] :=
    List.filter_eq_nil_iff.mpr fun o ho => by simpa using h o ho
  simp [lastStatus, List.filter_append, hnil]

theorem lastStatus_append {obs new : List Observation} {server : String} {m : MaintenanceState}
    (h : ∀ o ∈ new, o.summary.maintenance = m)
    (hm : (∃ o ∈ new, o.summary.gateway.server = server) ∨ lastStatus obs server = some m) :
    lastStatus (obs ++ new) server = some m := by
  by_cases hnew : ∃ o ∈ new, o.summary.gateway.server = server
  · have hne : new.filter (fun o => o.summary.gateway.server = server) ≠ [] := by
      obtain ⟨o, ho, hs⟩ := hnew
      exact List.ne_nil_of_mem (List.mem_filter.mpr ⟨ho, by simpa using hs⟩)
    rw [lastStatus, List.filter_append, List.getLast?_append_of_ne_nil _ hne,
      List.getLast?_eq_some_getLast hne, Option.map_some]
    exact congrArg some (h _ (List.mem_filter.mp (List.getLast_mem hne)).1)
  · rw [lastStatus_append_of_ne fun o ho hs => hnew ⟨o, ho, hs⟩]
    exact hm.resolve_left hnew

/-! ### The invariants -/

/-- What holds for a worker and its session. -/
structure Member (s : State) (w : Worker) : Prop where
  ended : w.joined.isSome → ∃ e, w.phase = .ended e
  cancelled : w.phase = .ended (some .cancelled) → s.workersCancelled = true
  rejected : w.phase = .ended (some .rejected) →
    s.workersCancelled = true ∨ lastStatus s.observed w.session.server = some .rejected
  taken : w.taken = true → w.session ∉ s.ledger.held ∧
    (s.cancelled = true ∨ lastStatus s.observed w.session.server = some .rejected)
  invalidated : s.invalidated = true → w.session ∈ s.ledger.held →
    lastStatus s.observed w.session.server = some .rejected

/-- The ledger, the workers and what was observed. -/
structure Kept (members : List GatewaySession) (s : State) : Prop where
  conserved : s.ledger.all.Perm members
  spawned : s.workers = [] ∨ (s.workers.map (·.session)).Perm members
  released : ∀ e ∈ s.ledger.released,
    e.2 = .loggedOut ∧ ∃ w ∈ s.workers, w.session = e.1 ∧ w.taken = true
  member : ∀ (i : ℕ) (w : Worker), s.workers[i]? = some w → Member s w
  failure : s.workerFailure = true → ∃ w ∈ s.workers, w.phase = .ended none
  silent : s.invalidated = false → ∀ o ∈ s.observed, o.byCoordinator = false
  quiet : s.invalidated = true →
    s.stopped = true ∧ ∀ w ∈ s.workers, ∀ st, w.phase ≠ .publishing st

/-- The workers run, and the loop has not ended. -/
structure Live (s : State) : Prop where
  workers : s.workers ≠ []
  stopped : s.stopped = false
  invalidated : s.invalidated = false

theorem Live.congr (h : Live s) (hw : s'.workers = s.workers) (hs : s'.stopped = s.stopped)
    (hi : s'.invalidated = s.invalidated) : Live s' :=
  ⟨hw ▸ h.workers, hs.trans h.stopped, hi.trans h.invalidated⟩

/-- Nothing but rejections was taken. -/
def AllTaken (s : State) : Prop := ∀ w ∈ s.workers, w.joined.isSome = true → w.taken = true

/-- What the point reached by the coordinator says. -/
def Stage (s : State) : Prop :=
  match s.coordinator with
  | .entering => s.workers = [] ∧ s.stopped = false ∧ s.invalidated = false
  | .pollToken => Live s ∧ s.workerFailure = false ∧ (AllTaken s ∨ s.cancelled = true)
  | .pollNetwork | .pollWorkers | .loggingOut => Live s ∧ s.workerFailure = false ∧ AllTaken s
  | .stopping _ => Live s
  | .invalidating _ => s.workers ≠ [] ∧ s.stopped = true ∧ s.invalidated = false
  | .draining o => s.workers ≠ [] ∧ s.stopped = true ∧ (o ≠ .disconnected → s.invalidated = true)
  | .returned (.ok o) => s.workers ≠ [] ∧ s.allJoined = true ∧
    (o ≠ .disconnected → s.invalidated = true ∧ s.cancelled = false)
  | .returned (.error .worker) => s.allJoined = true ∧ s.workerFailure = true
  | .returned (.error _) => s.workers = []

theorem Member.mono (h : Member s w) (hcan : s.cancelled = true → s'.cancelled = true)
    (hstop : s.stopped = true → s'.stopped = true)
    (hheld : ∀ x ∈ s'.ledger.held, x ∈ s.ledger.held)
    (hlast : lastStatus s.observed w.session.server = some .rejected →
      lastStatus s'.observed w.session.server = some .rejected)
    (hinv : s'.invalidated = true → w.session ∈ s'.ledger.held →
      s.invalidated = true ∨ lastStatus s'.observed w.session.server = some .rejected) :
    Member s' w := by
  have hwc : s.workersCancelled = true → s'.workersCancelled = true := by
    simp only [State.workersCancelled, Bool.or_eq_true]
    exact Or.imp hcan hstop
  refine ⟨h.ended, fun hp => hwc (h.cancelled hp), fun hp => (h.rejected hp).imp hwc hlast,
    fun ht => ⟨fun hx => (h.taken ht).1 (hheld _ hx), (h.taken ht).2.imp hcan hlast⟩, fun hi hx => ?_⟩
  rcases hinv hi hx with hi | hl
  · exact hlast (h.invalidated hi (hheld _ hx))
  · exact hl

variable {members : List GatewaySession}

section

variable (h : Kept members s)
include h

theorem Kept.nodup (hn : (members.map GatewaySession.server).Nodup) :
    (s.workers.map (·.session.server)).Nodup := by
  rcases h.spawned with hw | hw
  · simp [hw]
  · have := (hw.map GatewaySession.server).nodup_iff.mpr hn
    rwa [List.map_map] at this

theorem Kept.mem_members (hw : w ∈ s.workers) : w.session ∈ members := by
  rcases h.spawned with he | he
  · rw [he] at hw; cases hw
  · exact he.mem_iff.mp (List.mem_map.mpr ⟨w, hw, rfl⟩)

/-! ### Steps that do not touch the workers -/

theorem Kept.setCoordinator (c : Coordinator) : Kept members { s with coordinator := c } :=
  ⟨h.conserved, h.spawned, h.released,
    fun i w hw => (h.member i w hw).mono id id (fun _ => id) id fun hi _ => Or.inl hi,
    h.failure, h.silent, h.quiet⟩

theorem Kept.cancel : Kept members { s with cancelled := true } :=
  ⟨h.conserved, h.spawned, h.released,
    fun i w hw => (h.member i w hw).mono (fun _ => rfl) id (fun _ => id) id fun hi _ => Or.inl hi,
    h.failure, h.silent, h.quiet⟩

theorem Kept.stop : Kept members { s with stopped := true } :=
  ⟨h.conserved, h.spawned, h.released,
    fun i w hw => (h.member i w hw).mono id (fun _ => rfl) (fun _ => id) id fun hi _ => Or.inl hi,
    h.failure, h.silent, fun hi => ⟨rfl, (h.quiet hi).2⟩⟩

theorem Kept.invalidate (hstop : s.stopped = true) (hgate : s.gateFree = true) :
    Kept members s.invalidate := by
  refine ⟨h.conserved, h.spawned, h.released, fun i w hw => ?_, h.failure, by rintro ⟨⟩,
    fun _ => ⟨hstop, fun w hw st hp => ?_⟩⟩
  · refine (h.member i w hw).mono id id (fun _ => id) (fun hl => ?_) fun _ hx => Or.inr ?_
    · exact lastStatus_append (by simp [GatewaySession.summary]) (Or.inr hl)
    · refine lastStatus_append (by simp [GatewaySession.summary]) (Or.inl ?_)
      exact ⟨_, List.mem_map.mpr ⟨_, hx, rfl⟩, rfl⟩
  · have := List.all_eq_true.mp hgate w hw
    simp [hp, Phase.holdsGate] at this

/-! ### Steps of workers -/

theorem Kept.running {a : Act} {p : Phase} (hw : s.workers[i]? = some w)
    (hp : w.phase.act s.workersCancelled a = some p) : w.joined = none := by
  cases hj : w.joined with
  | none => rfl
  | some jo =>
    obtain ⟨e, he⟩ := (h.member i w hw).ended (by simp [hj])
    exact absurd he (act_not_ended hp e)

theorem Kept.work (hn : (members.map GatewaySession.server).Nodup) {a : Act}
    (hs : s.work i a = some s') : Kept members s' := by
  obtain ⟨w, p, obs, reports, hw, hp, rfl, hobs⟩ := work_cases hs
  have hm := h.member i w hw
  have hlive := h.running hw hp
  have hshown : ∀ o ∈ obs, o.byCoordinator = false ∧ o.summary.gateway.server = w.session.server := by
    rcases hobs with ⟨rfl, -⟩ | ⟨st, -, -, rfl⟩
    · simp
    · simp [GatewaySession.summary, GatewaySession.server]
  -- a worker that has ended is another one
  have hkeep : ∀ w' ∈ s.workers, ∀ e, w'.phase = .ended e →
      w' ∈ s.workers.set i { w with phase := p } := fun w' hw' e he =>
    mem_set_of_ne hw' hw (by rintro rfl; exact act_not_ended hp e he)
  refine ⟨h.conserved, ?_, fun e he => ?_, fun j w' hw' => ?_, fun hf => ?_, fun hi o ho => ?_,
    fun hi => ⟨(h.quiet hi).1, fun w' hw' st hst => ?_⟩⟩
  · refine h.spawned.imp (fun he => by rw [he] at hw; cases hw) fun he => ?_
    refine List.Perm.trans (.of_eq ?_) he
    exact map_set_of_eq hw rfl
  · obtain ⟨hr, w', hw', heq, ht⟩ := h.released e he
    refine ⟨hr, w', hkeep w' hw' (some .rejected) ?_, heq, ht⟩
    simp only [Worker.taken, Bool.and_eq_true, decide_eq_true_eq] at ht
    exact ht.2
  · rcases getElem?_set_cases hw' with ⟨-, rfl⟩ | ⟨hij, hw'⟩
    · refine ⟨by simp [hlive], fun hc => ?_, fun hr => ?_, by simp [Worker.taken, hlive],
        fun hi hx => ?_⟩
      · subst hc; exact act_cancelled hp
      · subst hr
        refine (act_rejected hp).imp_right fun hpub => ?_
        rcases hobs with ⟨-, hne⟩ | ⟨st, hst, -, rfl⟩
        · cases hne _ hpub
        · obtain rfl := Phase.publishing.inj (hpub.symm.trans hst)
          exact lastStatus_append (by simp [GatewaySession.summary, Announcement.state])
            (Or.inl ⟨_, List.mem_singleton_self _, rfl⟩)
      · rcases hobs with ⟨rfl, -⟩ | ⟨st, hst, -, -⟩
        · simpa using hm.invalidated hi hx
        · exact absurd hst ((h.quiet hi).2 w (List.mem_of_getElem? hw) st)
    · have hne := server_ne (h.nodup hn) hw hw' hij
      refine (h.member j w' hw').mono id id (fun _ => id) (fun hl => ?_) fun hi _ => Or.inl hi
      refine (lastStatus_append_of_ne fun o ho => ?_).trans hl
      rw [(hshown o ho).2]; exact hne
  · obtain ⟨w', hw', he⟩ := h.failure hf
    exact ⟨w', hkeep w' hw' none he, he⟩
  · rcases List.mem_append.mp ho with ho | ho
    · exact h.silent hi o ho
    · exact (hshown o ho).1
  · -- under a cancelled token nobody starts to publish
    rcases List.mem_or_eq_of_mem_set hw' with hw' | rfl
    · exact (h.quiet hi).2 w' hw' st hst
    · obtain rfl : p = .publishing st := hst
      have := (act_publishing hp).1
      simp [State.workersCancelled, (h.quiet hi).1] at this

theorem Kept.join {jo : Joined} {e : Option MemberExit}
    (hw : s.workers[i]? = some w) (he : w.phase = .ended e) (hjo : w.joined = none)
    (hne : jo = .loop → e ≠ some .rejected) :
    Kept members { s with workers := s.workers.set i { w with joined := some jo } } := by
  have hm := h.member i w hw
  have hnt : w.taken = false := by simp [Worker.taken, hjo]
  have hnt' : ¬ ({ w with joined := some jo } : Worker).taken = true := by
    simp only [Worker.taken, he, Bool.and_eq_true, decide_eq_true_eq, Option.some.injEq,
      Phase.ended.injEq]
    exact fun ⟨hl, hr⟩ => hne hl hr
  refine ⟨h.conserved, ?_, fun x hx => ?_, fun j w' hw' => ?_, fun hf => ?_, h.silent,
    fun hi => ⟨(h.quiet hi).1, fun w' hw' st hst => ?_⟩⟩
  · refine h.spawned.imp (fun hnil => by rw [hnil] at hw; cases hw) fun heq => ?_
    refine List.Perm.trans (.of_eq ?_) heq
    exact map_set_of_eq hw rfl
  · obtain ⟨hr, w', hw', heq, ht⟩ := h.released x hx
    exact ⟨hr, w', mem_set_of_ne hw' hw (by rintro rfl; simp [hnt] at ht), heq, ht⟩
  · rcases getElem?_set_cases hw' with ⟨-, rfl⟩ | ⟨-, hw'⟩
    · exact ⟨fun _ => ⟨e, he⟩, hm.cancelled, hm.rejected, fun ht => absurd ht hnt', hm.invalidated⟩
    · exact (h.member j w' hw').mono id id (fun _ => id) id fun hi _ => Or.inl hi
  · obtain ⟨w', hw', hp⟩ := h.failure hf
    by_cases heq : w' = w
    · subst heq
      exact ⟨_, List.mem_set (List.getElem?_eq_some_iff.mp hw).1 _, hp⟩
    · exact ⟨w', mem_set_of_ne hw' hw heq, hp⟩
  · rcases List.mem_or_eq_of_mem_set hw' with hw' | rfl
    · exact (h.quiet hi).2 w' hw' st hst
    · rw [show w.phase = .publishing st from hst] at he; cases he

theorem Kept.reject (hn : (members.map GatewaySession.server).Nodup)
    (hlive : Live s) (hw : s.workers[i]? = some w) (he : w.phase = .ended (some .rejected))
    (hjo : w.joined = none) :
    Kept members { s with
      workers := s.workers.set i { w with joined := some .loop }
      ledger := s.ledger.logoutGateway w.session.server } := by
  have hm := h.member i w hw
  have hmem : w ∈ s.workers := List.mem_of_getElem? hw
  have hnt : w.taken = false := by simp [Worker.taken, hjo]
  have hnodup : (s.ledger.held.map GatewaySession.server).Nodup := by
    have hall := (h.conserved.map GatewaySession.server).nodup_iff.mpr hn
    rw [Custody.all, List.map_append] at hall
    exact hall.of_append_left
  have hheld : ∀ x, x ∈ (s.ledger.logoutGateway w.session.server).held ↔
      x ∈ s.ledger.held ∧ x.server ≠ w.session.server := fun x =>
    Custody.mem_held_releaseFirst hnodup
  have hold : ∀ w' ∈ s.workers, w'.taken = true →
      w' ∈ s.workers.set i { w with joined := some .loop } := fun w' hw' ht =>
    mem_set_of_ne hw' hw (by rintro rfl; simp [hnt] at ht)
  have hreleased : ∀ e ∈ (s.ledger.logoutGateway w.session.server).released,
      e ∈ s.ledger.released ∨ e = (w.session, .loggedOut) := by
    intro e hmem'
    rcases Custody.releaseFirst_cases s.ledger GatewaySession.server w.session.server .loggedOut with
      ⟨heq, -⟩ | ⟨a, ha, hperm, heq⟩
    · exact Or.inl (by rwa [GatewaySessions.logoutGateway, heq] at hmem')
    · rw [GatewaySessions.logoutGateway, heq] at hmem'
      refine (List.mem_append.mp hmem').imp_right fun hlast => ?_
      -- servers tell the members apart
      have ham : a ∈ members := h.conserved.mem_iff.mp
        (List.mem_append_left _ (hperm.mem_iff.mpr List.mem_cons_self))
      obtain rfl := List.inj_on_of_nodup_map hn ham (h.mem_members hmem) ha
      exact List.mem_singleton.mp hlast
  refine ⟨Custody.perm_releaseFirst.trans h.conserved, ?_, fun e hmem' => ?_, fun j w' hw' => ?_,
    fun hf => ?_, h.silent, fun hi => ?_⟩
  · refine h.spawned.imp (fun hnil => by rw [hnil] at hw; cases hw) fun heq => ?_
    refine List.Perm.trans (.of_eq ?_) heq
    exact map_set_of_eq hw rfl
  · rcases hreleased e hmem' with hmem' | rfl
    · obtain ⟨hr, w', hw', heq, ht⟩ := h.released e hmem'
      exact ⟨hr, w', hold w' hw' ht, heq, ht⟩
    · exact ⟨rfl, _, List.mem_set (List.getElem?_eq_some_iff.mp hw).1 _, rfl, by simp [Worker.taken, he]⟩
  · rcases getElem?_set_cases hw' with ⟨-, rfl⟩ | ⟨-, hw'⟩
    · refine ⟨fun _ => ⟨_, he⟩, hm.cancelled, hm.rejected, fun _ => ⟨?_, ?_⟩, fun hi => ?_⟩
      · exact fun hx => ((hheld _).mp hx).2 rfl
      · simpa [State.workersCancelled, hlive.stopped] using hm.rejected he
      · simp [hlive.invalidated] at hi
    · refine (h.member j w' hw').mono id id (fun x hx => ((hheld x).mp hx).1) id ?_
      exact fun hi _ => Or.inl hi
  · obtain ⟨w', hw', hp⟩ := h.failure hf
    exact ⟨w', mem_set_of_ne hw' hw (by rintro rfl; rw [he] at hp; cases hp), hp⟩
  · simp [hlive.invalidated] at hi

end

/-! ### Steps of the coordinator -/

structure Maintained (members : List GatewaySession) (s : State) : Prop where
  kept : Kept members s
  stage : Stage s

theorem set_ne_nil {w : Worker} (hw : s.workers[i]? = some w) (v : Worker) :
    s.workers.set i v ≠ [] := by
  intro hnil
  rw [List.set_eq_nil_iff] at hnil
  rw [hnil] at hw; cases hw

theorem Maintained.work (h : Maintained members s) (hn : (members.map GatewaySession.server).Nodup)
    {a : Act} (hs : s.work i a = some s') : Maintained members s' := by
  refine ⟨h.kept.work hn hs, ?_⟩
  have hst := h.stage
  obtain ⟨w, p, obs, reports, hw, hp, rfl, -⟩ := work_cases hs
  have hlive := h.kept.running hw hp
  have hne := set_ne_nil hw { w with phase := p }
  have hnil : s.workers ≠ [] := List.ne_nil_of_mem (List.mem_of_getElem? hw)
  have hnj : s.allJoined ≠ true := fun hall => by
    have := List.all_eq_true.mp hall w (List.mem_of_getElem? hw)
    simp [hlive] at this
  have htaken : AllTaken s →
      ∀ w' ∈ s.workers.set i { w with phase := p }, w'.joined.isSome = true → w'.taken = true := by
    intro hall w' hw' hj
    rcases List.mem_or_eq_of_mem_set hw' with hw' | rfl
    · exact hall w' hw' hj
    · simp [hlive] at hj
  unfold Stage at hst ⊢
  cases hco : s.coordinator with
  | entering => rw [hco] at hst; exact absurd hst.1 hnil
  | pollToken =>
    rw [hco] at hst
    exact ⟨⟨hne, hst.1.stopped, hst.1.invalidated⟩, hst.2.1, hst.2.2.imp_left htaken⟩
  | pollNetwork | pollWorkers | loggingOut =>
    rw [hco] at hst
    exact ⟨⟨hne, hst.1.stopped, hst.1.invalidated⟩, hst.2.1, htaken hst.2.2⟩
  | stopping o => rw [hco] at hst; exact ⟨hne, hst.stopped, hst.invalidated⟩
  | invalidating o | draining o => rw [hco] at hst; exact ⟨hne, hst.2⟩
  | returned r =>
    rw [hco] at hst
    rcases r with e | o
    · cases e with
      | worker => exact absurd hst.1 hnj
      | emptySet | tunnelMember => exact absurd hst hnil
    · exact absurd hst.2.1 hnj

theorem take_panicked (he : w.phase = .ended none) :
    s.take w = { s with workerFailure := true, coordinator := .stopping .disconnected } := by
  simp [State.take, he]

theorem take_terminal {reason : SessionEndReason} (he : w.phase = .ended (some (.terminal reason))) :
    s.take w = { s with coordinator := .stopping (.failed reason) } := by
  simp [State.take, he]

theorem take_cancelled (he : w.phase = .ended (some .cancelled)) :
    s.take w = { s with coordinator := .pollToken } := by
  simp [State.take, he]

theorem take_rejected (he : w.phase = .ended (some .rejected)) :
    s.take w = { s with
      ledger := s.ledger.logoutGateway w.session.server, coordinator := .loggingOut } := by
  simp [State.take, he]

section

variable (h : Maintained members s)
include h

theorem Maintained.take (hn : (members.map GatewaySession.server).Nodup)
    (hco : s.coordinator = .pollWorkers) {e : Option MemberExit} (hw : s.workers[i]? = some w)
    (he : w.phase = .ended e) (hjo : w.joined = none) :
    Maintained members
      (State.take { s with workers := s.workers.set i { w with joined := some .loop } } w) := by
  have hst := h.stage
  unfold Stage at hst
  rw [hco] at hst
  obtain ⟨hlive, hfail, htaken⟩ := hst
  have hne := set_ne_nil hw { w with joined := some .loop }
  have hlive' : Live { s with workers := s.workers.set i { w with joined := some .loop } } :=
    ⟨hne, hlive.stopped, hlive.invalidated⟩
  rcases e with - | e
  · have hk : Kept members { s with workers := s.workers.set i { w with joined := some .loop } } :=
      h.kept.join hw he hjo (by simp)
    rw [take_panicked he]
    refine ⟨⟨hk.conserved, hk.spawned, hk.released, fun j w' hw' => ?_, fun _ => ?_, hk.silent,
      hk.quiet⟩, hlive'.1, hlive'.2, hlive'.3⟩
    · exact (hk.member j w' hw').mono id id (fun _ => id) id fun hi _ => Or.inl hi
    · exact ⟨_, List.mem_set (List.getElem?_eq_some_iff.mp hw).1 _, he⟩
  · cases e with
    | terminal reason =>
      rw [take_terminal he]
      exact ⟨(h.kept.join hw he hjo (by simp)).setCoordinator _, hlive'.1, hlive'.2, hlive'.3⟩
    | cancelled =>
      rw [take_cancelled he]
      refine ⟨(h.kept.join hw he hjo (by simp)).setCoordinator _,
        ⟨hlive'.1, hlive'.2, hlive'.3⟩, hfail, Or.inr ?_⟩
      simpa [State.workersCancelled, hlive.stopped] using (h.kept.member i w hw).cancelled he
    | rejected =>
      rw [take_rejected he]
      refine ⟨(h.kept.reject hn hlive hw he hjo).setCoordinator _,
        ⟨hlive'.1, hlive'.2, hlive'.3⟩, hfail, fun w' hw' hj => ?_⟩
      rcases List.mem_or_eq_of_mem_set hw' with hw' | rfl
      · exact htaken w' hw' hj
      · simp [Worker.taken, he]

theorem Maintained.cancel (hr : s.coordinator.isReturned = false) :
    Maintained members { s with cancelled := true } := by
  refine ⟨h.kept.cancel, ?_⟩
  have hst := h.stage
  unfold Stage at hst ⊢
  cases hco : s.coordinator with
  | entering => rw [hco] at hst; exact hst
  | pollToken =>
    rw [hco] at hst
    exact ⟨hst.1.congr rfl rfl rfl, hst.2.1, Or.inr rfl⟩
  | pollNetwork | pollWorkers | loggingOut =>
    rw [hco] at hst
    exact ⟨hst.1.congr rfl rfl rfl, hst.2⟩
  | stopping o => rw [hco] at hst; exact hst.congr rfl rfl rfl
  | invalidating o | draining o => rw [hco] at hst; exact hst
  | returned r => rw [hco] at hr; cases hr

theorem Maintained.enter (hs : step s .enter = some s') : Maintained members s' := by
  obtain ⟨hco, hs⟩ := Option.ite_none_right_eq_some.mp hs
  have hst := h.stage
  unfold Stage at hst
  rw [hco] at hst
  obtain ⟨hnil, hstop, hinv⟩ := hst
  have hk := h.kept
  split_ifs at hs with hempty
  · cases hs
    exact ⟨hk.setCoordinator _, hnil⟩
  · cases hs
    exact ⟨hk.setCoordinator _, hnil⟩
  · cases hs
    -- nothing was released yet, so the ledger holds the members
    have hrel : s.ledger.released = [] := by
      refine List.eq_nil_iff_forall_not_mem.mpr fun e he => ?_
      obtain ⟨-, w, hw, -⟩ := hk.released e he
      rw [hnil] at hw; cases hw
    have hperm : s.ledger.held.Perm members := by simpa [Custody.all, hrel] using hk.conserved
    have hfresh : ∀ w ∈ s.ledger.members.map fun session => ({ session } : Worker),
        w.phase = .announce .authenticated ∧ w.joined = none := by
      simp
    refine ⟨⟨hk.conserved, Or.inr ?_, by simp [hrel], fun i w hw => ?_, fun hf => ?_, hk.silent,
      fun hi => ?_⟩, ⟨by simpa using hempty, hstop, hinv⟩, ?_, Or.inl fun w hw hj => ?_⟩
    · simpa [Function.comp_def, GatewaySessions.members] using hperm
    · obtain ⟨hp, hj⟩ := hfresh w (List.mem_of_getElem? hw)
      refine ⟨by simp [hj], by simp [hp], by simp [hp], by simp [Worker.taken, hj], fun hi => ?_⟩
      simp [hinv] at hi
    · obtain ⟨w, hw, -⟩ := hk.failure hf
      rw [hnil] at hw; cases hw
    · simp [hinv] at hi
    · by_contra hf
      obtain ⟨w, hw, -⟩ := hk.failure (by simpa using hf)
      rw [hnil] at hw; cases hw
    · simp [(hfresh w hw).2] at hj

theorem Maintained.drain {o : SessionExit} {e : Option MemberExit}
    (hco : s.coordinator = .draining o) (hw : s.workers[i]? = some w) (he : w.phase = .ended e)
    (hjo : w.joined = none) :
    Maintained members { s with
      workers := s.workers.set i { w with joined := some .drain }
      workerFailure := s.workerFailure || w.phase = .ended none } := by
  have hk : Kept members { s with workers := s.workers.set i { w with joined := some .drain } } :=
    h.kept.join hw he hjo (by simp)
  have hst := h.stage
  unfold Stage at hst
  rw [hco] at hst
  refine ⟨⟨hk.conserved, hk.spawned, hk.released, fun j w' hw' => ?_, fun hf => ?_, hk.silent,
    hk.quiet⟩, ?_⟩
  · exact (hk.member j w' hw').mono id id (fun _ => id) id fun hi _ => Or.inl hi
  · rcases (Bool.or_eq_true _ _).mp hf with hf | hf
    · exact hk.failure hf
    · exact ⟨_, List.mem_set (List.getElem?_eq_some_iff.mp hw).1 _, of_decide_eq_true hf⟩
  · unfold Stage
    simp only [hco]
    exact ⟨set_ne_nil hw _, hst.2⟩

theorem Maintained.finish {o : SessionExit}
    (hco : s.coordinator = .draining o) (hall : s.allJoined = true) :
    Maintained members { s with
      coordinator := .returned (if s.workerFailure then .error .worker
        else if s.cancelled then .ok .disconnected else .ok o) } := by
  refine ⟨h.kept.setCoordinator _, ?_⟩
  have hst := h.stage
  unfold Stage at hst ⊢
  rw [hco] at hst
  obtain ⟨hne, -, hinv⟩ := hst
  cases hf : s.workerFailure with
  | true => exact ⟨hall, rfl⟩
  | false =>
    cases hc : s.cancelled with
    | true => exact ⟨hne, hall, fun hd => absurd rfl hd⟩
    | false => exact ⟨hne, hall, fun hd => ⟨hinv hd, rfl⟩⟩

theorem Maintained.step (hn : (members.map GatewaySession.server).Nodup)
    {l : Label} (hs : NonTunnel.step s l = some s') : Maintained members s' := by
  have hst := h.stage
  unfold Stage at hst
  cases l with
  | cancel =>
    simp only [NonTunnel.step] at hs
    split_ifs at hs with hr
    cases hs
    exact h.cancel (by simpa using hr)
  | work i a => exact h.work hn hs
  | enter => exact h.enter hs
  | pollToken =>
    obtain ⟨hco, rfl⟩ := Option.ite_some_none_eq_some.mp hs
    rw [hco] at hst
    obtain ⟨hlive, hfail, htaken⟩ := hst
    refine ⟨h.kept.setCoordinator _, ?_⟩
    cases hc : s.cancelled with
    | true => exact hlive.congr rfl rfl rfl
    | false =>
      refine ⟨hlive.congr rfl rfl rfl, hfail, ?_⟩
      exact htaken.resolve_right (by simp [hc])
  | pollNetwork change =>
    obtain ⟨hco, hs⟩ := Option.ite_none_right_eq_some.mp hs
    rw [hco] at hst
    obtain ⟨hlive, hfail, htaken⟩ := hst
    cases change <;> cases hs
    · exact ⟨h.kept.setCoordinator _, hlive.congr rfl rfl rfl, hfail, htaken⟩
    · exact ⟨h.kept.setCoordinator _, hlive.congr rfl rfl rfl⟩
  | pollWorkers i =>
    obtain ⟨hco, hs⟩ := Option.ite_none_right_eq_some.mp hs
    cases i with
    | some i =>
      obtain ⟨r, hr, rfl⟩ := Option.map_eq_some_iff.mp hs
      obtain ⟨w, e, hw, he, hjo, rfl⟩ := join_cases hr
      exact h.take hn hco hw he hjo
    | none =>
      cases hs
      rw [hco] at hst
      obtain ⟨hlive, hfail, htaken⟩ := hst
      refine ⟨h.kept.setCoordinator _, ?_⟩
      cases hall : s.allJoined with
      | true => exact hlive.congr rfl rfl rfl
      | false =>
        exact ⟨hlive.congr rfl rfl rfl, hfail, Or.inl htaken⟩
  | loggedOut =>
    obtain ⟨hco, rfl⟩ := Option.ite_some_none_eq_some.mp hs
    rw [hco] at hst
    obtain ⟨hlive, hfail, htaken⟩ := hst
    refine ⟨h.kept.setCoordinator _, ?_⟩
    cases hall : s.allJoined with
    | true => exact hlive.congr rfl rfl rfl
    | false => exact ⟨hlive.congr rfl rfl rfl, hfail, Or.inl htaken⟩
  | stop =>
    simp only [NonTunnel.step] at hs
    split at hs
    · next o hco =>
      cases hs
      rw [hco] at hst
      refine ⟨h.kept.stop.setCoordinator _, ?_⟩
      unfold Stage
      split_ifs with ho
      · exact ⟨hst.workers, rfl, hst.invalidated⟩
      · exact ⟨hst.workers, rfl, fun hd => absurd (Or.inl hd) ho⟩
    · cases hs
  | invalidate =>
    simp only [NonTunnel.step] at hs
    split at hs
    · next o hco =>
      obtain ⟨hgate, rfl⟩ := Option.ite_some_none_eq_some.mp hs
      rw [hco] at hst
      exact ⟨(h.kept.invalidate hst.2.1 hgate).setCoordinator _, hst.1, hst.2.1, fun _ => rfl⟩
    · cases hs
  | join i =>
    simp only [NonTunnel.step] at hs
    split at hs
    · next o hco =>
      obtain ⟨r, hr, rfl⟩ := Option.map_eq_some_iff.mp hs
      obtain ⟨w, e, hw, he, hjo, rfl⟩ := join_cases hr
      exact h.drain hco hw he hjo
    · cases hs
  | finish =>
    simp only [NonTunnel.step] at hs
    split at hs
    · next o hco =>
      obtain ⟨hall, rfl⟩ := Option.ite_some_none_eq_some.mp hs
      exact h.finish hco hall
    · cases hs

end

theorem reachable_maintained (hn : (members.map GatewaySession.server).Nodup)
    (h : (machine members).Reachable s) : Maintained members s := by
  refine h.invariant (P := Maintained members) ?_ fun s l s' _ h hs => h.step hn hs
  refine ⟨⟨by simp [machine, GatewaySessions.new, Custody.all], Or.inl rfl, ?_, ?_, by rintro ⟨⟩, ?_,
    by rintro ⟨⟩⟩, rfl, rfl, rfl⟩
  · simp [machine, GatewaySessions.new]
  · simp [machine]
  · simp [machine]

/-! ### Whole runs -/

theorem Maintained.late (h : Maintained members s) (hinv : s.invalidated = true) :
    (∃ o, s.coordinator = .draining o) ∨ ∃ r, s.coordinator = .returned r := by
  have hst := h.stage
  unfold Stage at hst
  cases hco : s.coordinator with
  | draining o => exact Or.inl ⟨o, rfl⟩
  | returned r => exact Or.inr ⟨r, rfl⟩
  | stopping o => rw [hco] at hst; simp [hst.invalidated] at hinv
  | entering | invalidating o => rw [hco] at hst; simp [hst.2.2] at hinv
  | pollToken | pollNetwork | pollWorkers | loggingOut =>
    rw [hco] at hst; simp [hst.1.invalidated] at hinv

theorem Maintained.step_quiet (h : Maintained members s) (hinv : s.invalidated = true) {l : Label}
    (hs : NonTunnel.step s l = some s') : s'.invalidated = true ∧ s'.observed = s.observed := by
  have hlate := h.late hinv
  cases l with
  | cancel =>
    simp only [NonTunnel.step] at hs
    split_ifs at hs
    cases hs
    exact ⟨hinv, rfl⟩
  | work i a =>
    obtain ⟨w, p, obs, reports, hw, -, rfl, ⟨rfl, -⟩ | ⟨st, hst, -⟩⟩ := work_cases hs
    · exact ⟨hinv, by simp⟩
    · exact absurd hst ((h.kept.quiet hinv).2 w (List.mem_of_getElem? hw) st)
  | join i =>
    simp only [NonTunnel.step] at hs
    split at hs
    · obtain ⟨r, hr, rfl⟩ := Option.map_eq_some_iff.mp hs
      obtain ⟨w, e, -, -, -, rfl⟩ := join_cases hr
      exact ⟨hinv, rfl⟩
    · cases hs
  | finish =>
    simp only [NonTunnel.step] at hs
    split at hs
    · obtain ⟨-, rfl⟩ := Option.ite_some_none_eq_some.mp hs
      exact ⟨hinv, rfl⟩
    · cases hs
  | enter | pollToken | pollNetwork | pollWorkers | loggedOut | stop | invalidate =>
    rcases hlate with ⟨o, hco⟩ | ⟨r, hco⟩ <;> simp [NonTunnel.step, hco] at hs

theorem run_quiet (hn : (members.map GatewaySession.server).Nodup)
    (h : (machine members).Reachable s) (hinv : s.invalidated = true) {ls : List Label}
    (hr : (machine members).run s ls = some s') : s'.observed = s.observed := by
  refine (Machine.run_keeps (P := fun s' => (machine members).Reachable s' ∧
    s'.invalidated = true ∧ s'.observed = s.observed) ?_ ls s ⟨h, hinv, rfl⟩ hr).2.2
  rintro m l m' ⟨hm, hi, ho⟩ hs
  obtain ⟨hi', ho'⟩ := (reachable_maintained hn hm).step_quiet hi hs
  exact ⟨hm.next hs, hi', ho'.trans ho⟩

/-- The caller's cancellation decides the outcome: the loop polls it next, or nothing is left to be
published. -/
def Deliberate (s : State) : Prop :=
  s.cancelled = true ∧ (∀ o ∈ s.observed, o.byCoordinator = false) ∧
    match s.coordinator with
    | .pollToken | .loggingOut | .draining _ => True
    | .stopping o => s.ledger.held = [] ∨ o = .disconnected ∧ s.workerFailure = false
    | .invalidating _ => s.ledger.held = []
    | .returned r => r = .ok .disconnected ∨ r = .error .worker
    | .entering | .pollNetwork | .pollWorkers => False

/-- When only rejections were taken and no worker is left, the ledger is empty. -/
theorem Maintained.held_eq_nil (h : Maintained members s) (hlive : Live s) (htaken : AllTaken s)
    (hall : s.allJoined = true) : s.ledger.held = [] := by
  refine List.eq_nil_iff_forall_not_mem.mpr fun x hx => ?_
  have hmem : x ∈ s.workers.map (·.session) :=
    (h.kept.spawned.resolve_left hlive.workers).mem_iff.mpr
      (h.kept.conserved.mem_iff.mp (List.mem_append_left _ hx))
  obtain ⟨w, hw, rfl⟩ := List.mem_map.mp hmem
  obtain ⟨i, hi⟩ := List.mem_iff_getElem?.mp hw
  exact ((h.kept.member i w hi).taken (htaken w hw (List.all_eq_true.mp hall w hw))).1 hx

theorem Deliberate.step (hd : Deliberate s) (h : Maintained members s) {l : Label}
    (hs : NonTunnel.step s l = some s') : Deliberate s' := by
  have hst := h.stage
  unfold Stage at hst
  obtain ⟨hc, hobs, hco⟩ := hd
  cases l with
  | cancel =>
    simp only [NonTunnel.step] at hs
    split_ifs at hs
    cases hs
    exact ⟨rfl, hobs, hco⟩
  | work i a =>
    obtain ⟨w, p, obs, reports, -, -, rfl, hnew⟩ := work_cases hs
    refine ⟨hc, fun o ho => ?_, hco⟩
    rcases List.mem_append.mp ho with ho | ho
    · exact hobs o ho
    · rcases hnew with ⟨rfl, -⟩ | ⟨st, -, -, rfl⟩
      · cases ho
      · rw [List.mem_singleton.mp ho]
  | pollToken =>
    obtain ⟨hp, rfl⟩ := Option.ite_some_none_eq_some.mp hs
    rw [hp] at hst
    refine ⟨hc, hobs, ?_⟩
    simp only [hc, if_true]
    exact Or.inr ⟨trivial, hst.2.1⟩
  | loggedOut =>
    obtain ⟨hp, rfl⟩ := Option.ite_some_none_eq_some.mp hs
    rw [hp] at hst
    refine ⟨hc, hobs, ?_⟩
    cases hall : s.allJoined with
    | true => exact Or.inl (h.held_eq_nil hst.1 hst.2.2 hall)
    | false => trivial
  | stop =>
    simp only [NonTunnel.step] at hs
    split at hs
    · next o hp =>
      cases hs
      rw [hp] at hco
      refine ⟨hc, hobs, ?_⟩
      simp only
      split_ifs with ho
      · rcases hco with hnil | ⟨rfl, hf⟩
        · exact hnil
        · simp [hf] at ho
      · trivial
    · cases hs
  | invalidate =>
    simp only [NonTunnel.step] at hs
    split at hs
    · next o hp =>
      obtain ⟨-, rfl⟩ := Option.ite_some_none_eq_some.mp hs
      rw [hp] at hco
      refine ⟨hc, ?_, trivial⟩
      have hnil : s.ledger.held = [] := hco
      simpa [State.invalidate, GatewaySessions.members, hnil] using hobs
    · cases hs
  | join i =>
    simp only [NonTunnel.step] at hs
    split at hs
    · next o hp =>
      obtain ⟨r, hr, rfl⟩ := Option.map_eq_some_iff.mp hs
      obtain ⟨w, e, -, -, -, rfl⟩ := join_cases hr
      refine ⟨hc, hobs, ?_⟩
      simp only [hp]
    · cases hs
  | finish =>
    simp only [NonTunnel.step] at hs
    split at hs
    · next o hp =>
      obtain ⟨-, rfl⟩ := Option.ite_some_none_eq_some.mp hs
      refine ⟨hc, hobs, ?_⟩
      simp only [hc, if_true]
      split_ifs
      · exact Or.inr rfl
      · exact Or.inl rfl
    · cases hs
  | enter | pollNetwork | pollWorkers =>
    simp only [NonTunnel.step, Option.ite_none_right_eq_some] at hs
    rw [hs.1] at hco
    exact hco.elim

theorem run_deliberate (hn : (members.map GatewaySession.server).Nodup)
    (h : (machine members).Reachable s) (hc : s.cancelled = true)
    (hco : s.coordinator = .pollToken ∨ s.coordinator = .loggingOut) {ls : List Label}
    (hr : (machine members).run s ls = some s') :
    (machine members).Reachable s' ∧ Deliberate s' := by
  have hm := reachable_maintained hn h
  have hlive : Live s := by
    have hst := hm.stage
    unfold Stage at hst
    rcases hco with hco | hco <;> rw [hco] at hst <;> exact hst.1
  have hd : Deliberate s := by
    refine ⟨hc, hm.kept.silent hlive.invalidated, ?_⟩
    rcases hco with hco | hco <;> rw [hco] <;> trivial
  refine Machine.run_keeps (P := fun s => (machine members).Reachable s ∧ Deliberate s) ?_ ls s
    ⟨h, hd⟩ hr
  rintro m l m' ⟨hm, hd⟩ hs
  exact ⟨hm.next hs, hd.step (reachable_maintained hn hm) hs⟩

theorem Maintained.taken_of_not_held (h : Maintained members s) {m : GatewaySession}
    (hm : m ∈ members) (hheld : m ∉ s.ledger.held) :
    ∃ w ∈ s.workers, w.session = m ∧ w.taken = true := by
  obtain ⟨r, hr⟩ := Custody.mem_released (h.kept.conserved.mem_iff.mpr hm) hheld
  exact (h.kept.released _ hr).2

theorem Maintained.logged_out_once (h : Maintained members s)
    (hn : (members.map GatewaySession.server).Nodup) (hw : w ∈ s.workers) (ht : w.taken = true) :
    s.ledger.released.filter (fun e => e.1 = w.session) = [(w.session, .loggedOut)] ∧
      w.session ∉ s.ledger.held := by
  obtain ⟨i, hi⟩ := List.mem_iff_getElem?.mp hw
  have hheld := ((h.kept.member i w hi).taken ht).1
  have hmem := h.kept.conserved.mem_iff.mpr (h.kept.mem_members hw)
  obtain ⟨r, hr⟩ := Custody.mem_released hmem hheld
  obtain rfl : r = .loggedOut := (h.kept.released _ hr).1
  have hall : (s.ledger.all.map id).Nodup := by
    rw [List.map_id]
    exact h.kept.conserved.nodup_iff.mpr (List.Nodup.of_map _ hn)
  exact ⟨Custody.released_once hall hr, hheld⟩

theorem Maintained.last_rejected (h : Maintained members s) {r : SessionEndReason}
    (hco : s.coordinator = .returned (.ok (.failed r))) {m : GatewaySession} (hm : m ∈ members) :
    lastStatus s.observed m.server = some .rejected := by
  have hst := h.stage
  unfold Stage at hst
  rw [hco] at hst
  obtain ⟨hne, -, hfailed⟩ := hst
  obtain ⟨hinv, hc⟩ := hfailed (by simp)
  by_cases hheld : m ∈ s.ledger.held
  · -- published by the coordinator
    obtain ⟨w, hw, rfl⟩ := List.mem_map.mp ((h.kept.spawned.resolve_left hne).mem_iff.mpr hm)
    obtain ⟨i, hi⟩ := List.mem_iff_getElem?.mp hw
    exact (h.kept.member i w hi).invalidated hinv hheld
  · -- published by its worker, whose token was not cancelled
    obtain ⟨w, hw, rfl, ht⟩ := h.taken_of_not_held hm hheld
    obtain ⟨i, hi⟩ := List.mem_iff_getElem?.mp hw
    exact (((h.kept.member i w hi).taken ht).2).resolve_left (by simp [hc])

theorem Maintained.all_joined (h : Maintained members s)
    {r : Except MaintenanceError SessionExit} (hco : s.coordinator = .returned r)
    (hw : w ∈ s.workers) : w.joined.isSome = true := by
  have hst := h.stage
  unfold Stage at hst
  rw [hco] at hst
  have hall : s.allJoined = true := by
    rcases r with e | o
    · cases e with
      | worker => exact hst.1
      | emptySet | tunnelMember =>
        have hnil : s.workers = [] := hst
        rw [hnil] at hw; cases hw
    · exact hst.2.1
  exact List.all_eq_true.mp hall w hw

/-- **Health gate**, for members with distinct servers and under every schedule. After the remaining
members are published as rejected nothing is observed; a failure leaves `Rejected` as the last
status of every member; exactly the members whose rejection the loop took were logged out, each
once, and have left the ledger; a cancellation that the loop has still to poll makes the result
`Disconnected`, unless a worker panicked, without a rejection by the coordinator; a later one still
excludes a failure; every worker is joined at the return. -/
theorem health_gate (members : List GatewaySession)
    (hn : (members.map GatewaySession.server).Nodup) (s : State)
    (h : (machine members).Reachable s) :
    (s.invalidated = true →
      ∀ ls s', (machine members).run s ls = some s' → s'.observed = s.observed) ∧
    (∀ r, s.coordinator = .returned (.ok (.failed r)) →
      ∀ m ∈ members, lastStatus s.observed m.server = some .rejected) ∧
    (∀ w ∈ s.workers, w.taken = true →
      s.ledger.released.filter (fun e => e.1 = w.session) = [(w.session, .loggedOut)] ∧
        w.session ∉ s.ledger.held) ∧
    (∀ e ∈ s.ledger.released, ∃ w ∈ s.workers, w.session = e.1 ∧ w.taken = true) ∧
    (∀ m ∈ members, (∀ w ∈ s.workers, w.session = m → w.taken = false) → m ∈ s.ledger.held) ∧
    (s.cancelled = true → s.coordinator = .pollToken ∨ s.coordinator = .loggingOut →
      ∀ ls s', (machine members).run s ls = some s' →
        (∀ o ∈ s'.observed, o.byCoordinator = false) ∧
        ∀ r, s'.coordinator = .returned r →
          r = .ok .disconnected ∨ r = .error .worker ∧ ∃ w ∈ s'.workers, w.phase = .ended none) ∧
    (∀ r, s.coordinator = .returned (.ok (.failed r)) → s.cancelled = false) ∧
    (∀ r, s.coordinator = .returned r → ∀ w ∈ s.workers, w.joined.isSome = true) := by
  have hm := reachable_maintained hn h
  refine ⟨fun hinv ls s' hr => run_quiet hn h hinv hr, fun r hco m => hm.last_rejected hco,
    fun w hw ht => hm.logged_out_once hn hw ht, fun e he => (hm.kept.released e he).2,
    fun m hmem hnt => ?_, fun hc hco ls s' hr => ?_, fun r hco => ?_,
    fun r hco w hw => hm.all_joined hco hw⟩
  · by_contra hheld
    obtain ⟨w, hw, heq, ht⟩ := hm.taken_of_not_held hmem hheld
    rw [hnt w hw heq] at ht; cases ht
  · obtain ⟨hreach, -, hobs, hend⟩ := run_deliberate hn h hc hco hr
    have hm' := reachable_maintained hn hreach
    refine ⟨hobs, fun r hret => ?_⟩
    rw [hret] at hend
    refine hend.imp_right fun hr => ⟨hr, hm'.kept.failure ?_⟩
    have hst := hm'.stage
    unfold Stage at hst
    rw [hret, hr] at hst
    exact hst.2
  · have hst := hm.stage
    unfold Stage at hst
    rw [hco] at hst
    exact (hst.2.2 (by simp)).2

def sampleSession (server : String) : GatewaySession :=
  ⟨0, { name := server, address := server, kind := .internal }, ⟨"cookie", "nontunnel"⟩, {}⟩

/-- A worker announces what it has to announce. -/
def announceRun (i : ℕ) : List Label := List.replicate 4 (.work i .advance)

/-- One member is rejected and logged out, then the network changes. -/
def networkChangeRun : List Label :=
  [.enter] ++ announceRun 0 ++ announceRun 1 ++
    [.work 0 (.network true), .work 0 (.check (.error .rejected)), .work 0 .advance] ++ announceRun 0 ++
    [.pollToken, .pollNetwork none, .pollWorkers (some 0), .loggedOut, .pollToken,
      .pollNetwork (some .networkChanged), .stop, .invalidate, .work 1 (.network false), .join 1, .finish]

/-- In that run both members end as rejected, the second one still in the ledger. -/
theorem health_gate_network_change : ∃ s, (machine [sampleSession "a", sampleSession "b"]).Reachable s ∧
    s.coordinator = .returned (.ok (.failed .networkChanged)) ∧
    lastStatus s.observed "a" = some .rejected ∧ lastStatus s.observed "b" = some .rejected ∧
    s.ledger.held = [sampleSession "b"] := by
  obtain ⟨s, hr, hs⟩ := Machine.Reachable.of_run (M := machine [sampleSession "a", sampleSession "b"])
    networkChangeRun (p := fun s => decide (
      s.coordinator = .returned (.ok (.failed .networkChanged)) ∧
        s.ledger.held = [sampleSession "b"])) (by decide +kernel)
  obtain ⟨hco, hheld⟩ := of_decide_eq_true hs
  obtain ⟨-, hlast, -⟩ := health_gate _ (by decide) s hr
  exact ⟨s, hr, hco, hlast _ hco (sampleSession "a") (by simp),
    hlast _ hco (sampleSession "b") (by simp), hheld⟩

/-- A healthy member: the token is polled, and cancelled before the network is polled. -/
def lateCancelRun : List Label :=
  [.enter] ++ announceRun 0 ++
    [.work 0 (.network true), .work 0 (.check (.ok false)), .work 0 .advance] ++ announceRun 0 ++
    [.work 0 (.schedule true), .pollToken, .cancel]

/-- When the change of the network is then taken, the coordinator rejects the healthy member
although the caller has cancelled; the result is `Disconnected`. -/
theorem rejected_after_late_cancel : ∃ s s', (machine [sampleSession "a"]).Reachable s ∧
    s.cancelled = true ∧ s.coordinator = .pollNetwork ∧
    lastStatus s.observed "a" = some .healthy ∧
    (machine [sampleSession "a"]).run s [.pollNetwork (some .networkChanged), .stop, .invalidate,
      .work 0 .cancelled, .join 0, .finish] = some s' ∧
    s'.coordinator = .returned (.ok .disconnected) ∧
    s'.observed = s.observed ++ [⟨true, (sampleSession "a").summary .rejected⟩] :=
  ⟨_, _, ⟨lateCancelRun, rfl⟩, rfl, rfl, by decide, rfl, rfl, rfl⟩

end GlobalProtect.Session.NonTunnel
