import GlobalProtect.Service.Lifecycle.Effects

/-! # Reconnect offers

An attempt that ends because its network changed leaves an offer in `admissions.restart` and
publishes it as `ReconnectRequired`. The two are updated by different operations. What ties them
together is that a reservation spends the offer without publishing anything: the offer is live as
long as the published state still shows it and nothing was reserved since (`RestartInv.live`), and
whatever `restart` holds was published by the last `end_attempt` and not spent
(`RestartInv.offered`). -/

namespace GlobalProtect.Service.Lifecycle

open Lib Api

/-! ### Offers in the history -/

/-- The entries after which an earlier offer is no longer current. -/
def Entry.spends : Entry → Bool
  | .handed _ _ | .disconnectRequested | .ended _ _ => true
  | _ => false

/-- The most recent `end_attempt` published and stored the offer `r`, and neither a reservation nor
a `request_disconnect` has happened since. -/
def Offered (r : ℕ × Uuid) (log : List Entry) : Prop :=
  ∃ l t info l', log = l ++ .published (some t) (.reconnectRequired ⟨r.1, r.2, info⟩) ::
    .ended t (some r) :: l' ∧ ∀ e ∈ l', e.spends = false

/-- A connection was reserved since the last state was published. -/
def reservedSince (log : List Entry) : Bool :=
  log.foldl (fun b e => match e with
    | .published _ _ => false
    | .handed _ _ => true
    | _ => b) false

theorem Offered.append {r : ℕ × Uuid} {log d : List Entry} (h : Offered r log)
    (hd : ∀ e ∈ d, e.spends = false) : Offered r (log ++ d) := by
  obtain ⟨l, t, info, l', rfl, hl⟩ := h
  refine ⟨l, t, info, l' ++ d, by simp, fun e he => ?_⟩
  rcases List.mem_append.mp he with he | he
  · exact hl e he
  · exact hd e he

theorem not_offered_handed {r : ℕ × Uuid} {log : List Entry} {n t : ℕ} :
    ¬ Offered r (log ++ [.handed n t]) := by
  rintro ⟨l, u, info, l', hl, hspend⟩
  have hrev := congrArg List.reverse hl
  rcases List.eq_nil_or_concat l' with rfl | ⟨l'', e, rfl⟩
  · simp at hrev
  · have he := hspend e (by simp)
    simp only [List.reverse_append, List.reverse_cons, List.reverse_nil, List.nil_append,
      List.concat_eq_append, List.append_assoc, List.cons_append, List.cons.injEq] at hrev
    rw [← hrev.1] at he
    cases he

theorem reservedSince_append (l d : List Entry) :
    reservedSince (l ++ d) = d.foldl (fun b e => match e with
      | .published _ _ => false
      | .handed _ _ => true
      | _ => b) (reservedSince l) := List.foldl_append

/-! ### The invariant -/

structure RestartInv (c : Core) : Prop where
  /-- While an attempt is admitted there is no offer. -/
  busy : c.admissions.current ≠ none → c.admissions.restart = none
  /-- An admitted attempt was reserved after the offer that is still shown. -/
  shown : c.admissions.current ≠ none → ∀ q, c.vpnState = .reconnectRequired q →
    reservedSince c.log = true
  offered : ∀ r, c.admissions.restart = some r → Offered r c.log
  live : ∀ q, c.vpnState = .reconnectRequired q → c.admissions.current = none →
    reservedSince c.log = false → c.admissions.restart = some (q.attempt, q.owner)

variable {c c' : Core}

theorem RestartInv.silent (h : RestartInv c) (hcur : c.admissions.current ≠ none)
    (hcur' : c'.admissions.current ≠ none) (hr : c'.admissions.restart = none)
    (hv : c'.vpnState = c.vpnState) {d : List Entry} (hl : c'.log = c.log ++ d)
    (hd : reservedSince (c.log ++ d) = reservedSince c.log) : RestartInv c' where
  busy _ := hr
  shown _ q hq := by rw [hl, hd]; exact h.shown hcur q (hv ▸ hq)
  offered r hr' := by rw [hr] at hr'; cases hr'
  live q _ hn := absurd hn hcur'

theorem RestartInv.shows (h : RestartInv c) (hcur : c.admissions.current ≠ none)
    (hr : c'.admissions.restart = c.admissions.restart)
    (hv : ∀ q, c'.vpnState ≠ .reconnectRequired q) : RestartInv c' where
  busy _ := hr.trans (h.busy hcur)
  shown _ q hq := absurd hq (hv q)
  offered r hr' := by rw [hr, h.busy hcur] at hr'; cases hr'
  live q hq := absurd hq (hv q)

theorem RestartInv.effect (ho : c.Owned) (h : RestartInv c) (he : Effect c c') :
    RestartInv c' := by
  have hact : ∀ {act}, c.active = some act → c.admissions.current ≠ none := by
    intro act ha hn
    obtain ⟨-, a, hc, -⟩ := ho.active act ha
    rw [hc] at hn; cases hn
  have hsome : ∀ {a}, c.admissions.current = some a → c.admissions.current ≠ none :=
    fun hc hn => by rw [hc] at hn; cases hn
  cases he with
  | reserve restart hclosed hcur =>
    refine ⟨fun _ => rfl, fun _ q _ => ?_, by rintro r ⟨⟩, by rintro q - ⟨⟩⟩
    rw [reservedSince_append]; rfl
  | pend a hc =>
    exact h.silent (hsome hc) (by simp) (h.busy (hsome hc)) rfl (List.append_nil _).symm
      (by rw [List.append_nil])
  | release a hc =>
    refine ⟨fun hn => absurd rfl hn, fun hn => absurd rfl hn, fun r hr => ?_, fun q hq _ hs => ?_⟩
    · rw [h.busy (hsome hc)] at hr; cases hr
    · rw [reservedSince_append] at hs
      rw [show reservedSince c.log = true from h.shown (hsome hc) q hq] at hs
      cases hs
  | disconnectIdle hc =>
    exact ⟨fun _ => rfl, by rintro - q ⟨⟩, by rintro r ⟨⟩, by rintro q ⟨⟩⟩
  | forget a hc =>
    exact h.silent (hsome hc) (hsome hc) rfl rfl rfl (reservedSince_append _ _)
  | stop a hc =>
    exact h.silent (hsome hc) (by simp) (h.busy (hsome hc)) rfl rfl (reservedSince_append _ _)
  | stopAgain a hc | startRefused a act hc =>
    exact h.silent (hsome hc) (hsome hc) (h.busy (hsome hc)) rfl rfl (reservedSince_append _ _)
  | close => exact ⟨h.busy, h.shown, h.offered, h.live⟩
  | cancel t =>
    have hs : reservedSince (c.log ++ [.cancelled t]) = reservedSince c.log :=
      reservedSince_append _ _
    refine ⟨h.busy, fun hn q hq => hs.trans (h.shown hn q hq), fun r hr => ?_, fun q hq hn hf => ?_⟩
    · exact (h.offered r hr).append (by simp [Entry.spends])
    · exact h.live q hq hn (hs.symm.trans hf)
  | startActive a act hc => exact ⟨fun _ => h.busy (hsome hc), by rintro - q ⟨⟩,
      fun r hr => (by rw [h.busy (hsome hc)] at hr; cases hr), by rintro q ⟨⟩⟩
  | disconnecting a act ha hc => exact h.shows (hsome hc) rfl (by rintro q ⟨⟩)
  | connecting act ha => exact h.shows (hact ha) rfl (by rintro q ⟨⟩)
  | connected a act info ha hcan hc => exact h.shows (hsome hc) rfl (by rintro q ⟨⟩)
  | note act act' ha | take act ha => exact ⟨h.busy, h.shown, h.offered, h.live⟩
  | join a act offer state hc ha hj hown hout =>
    rcases hout with ⟨owner, rfl, rfl, -, -⟩ | ⟨rfl, hstate⟩
    · refine ⟨fun hn => absurd rfl hn, fun hn => absurd rfl hn, ?_, ?_⟩
      · rintro r ⟨rfl⟩
        exact ⟨c.log, act.cancellation, act.info, [], rfl, by simp⟩
      · rintro q ⟨rfl⟩ - -; rfl
    · refine h.shows (hsome hc) rfl fun q hq => ?_
      rcases hstate with rfl | ⟨reason, rfl⟩ <;> cases hq

theorem reachable_restart {inst : Uuid} {s : State} (h : (machine inst).Reachable s) :
    RestartInv s.core :=
  (reachable_owned_core (P := RestartInv)
    ⟨fun _ => rfl, by rintro - q ⟨⟩, by rintro r ⟨⟩, by rintro q ⟨⟩⟩
    (fun _ _ ho hp he => hp.effect ho he) h).2

/-- **Reconnect offers**: an offer that is still shown, with nothing admitted and nothing reserved
since it was published, is stored and would be admitted; and a restart is admitted only for the
offer that the most recent `end_attempt` published, before anything spent it. -/
theorem restart_offer_live (inst : Uuid) (s : State) (h : (machine inst).Reachable s) :
    (∀ q, s.vpnState = .reconnectRequired q → s.admissions.current = none →
      reservedSince s.log = false →
      s.admissions.restart = some (q.attempt, q.owner) ∧
      (s.admissions.closed = false →
        ∃ s' res, s.reserveConnect (some (q.attempt, q.owner)) = .ok (s', res))) ∧
    (∀ r s' res, s.reserveConnect (some r) = .ok (s', res) →
      Offered r s.log ∧ s'.admissions.restart = none ∧ ¬ Offered r s'.log) := by
  have hinv := reachable_restart h
  refine ⟨fun q hq hn hs => ?_, fun r s' res hres => ?_⟩
  · have hr : s.admissions.restart = some (q.attempt, q.owner) := hinv.live q hq hn hs
    refine ⟨hr, fun hcl => ?_⟩
    simp [State.reserveConnect, hcl, hn, hr]
  · unfold State.reserveConnect at hres
    split_ifs at hres with h₁ h₂ h₃
    simp only [Except.ok.injEq, Prod.mk.injEq] at hres
    obtain ⟨rfl, rfl⟩ := hres
    have hr : s.admissions.restart = some r := by simpa using h₃
    exact ⟨hinv.offered r hr, rfl, not_offered_handed⟩

/-- A run of session 7 whose network changes: its attempt ends with an offer. -/
def networkChangeRun : List Label :=
  [.reserve none, .commit ⟨0, 0, false⟩ sampleRequest (some 7), .handle 0,
    .emit 0 .reconnectRequired, .handle 0, .finish 0, .handle 0, .workerReturn 0, .join true]

/-- After the network change the offer is live, and a restart with it was offered. -/
theorem restart_offer_live_after_network_change : ∃ s, (machine 0).Reachable s ∧
    s.admissions.restart = some (0, 7) ∧ Offered (0, 7) s.log := by
  have hr : (machine 0).Reachable _ := ⟨networkChangeRun, rfl⟩
  have hlive := restart_offer_live 0 _ hr
  obtain ⟨hres, hadm⟩ := hlive.1 ⟨0, 7, sampleRequest.info⟩ rfl rfl (by decide)
  obtain ⟨s', res, hok⟩ := hadm rfl
  exact ⟨_, hr, hres, (hlive.2 (0, 7) s' res hok).1⟩

/-- A reservation that is dropped again spends the offer, but the state that shows it stays. -/
theorem restart_offer_shown_after_spent : ∃ s, (machine 0).Reachable s ∧
    (∃ q, s.vpnState = .reconnectRequired q) ∧ s.admissions.current = none ∧
    s.admissions.restart = none ∧ s.admissions.closed = false :=
  ⟨_, ⟨networkChangeRun ++ [.reserve none, .dropReservation ⟨1, 1, false⟩], rfl⟩, ⟨_, rfl⟩, rfl, rfl,
    rfl⟩

end GlobalProtect.Service.Lifecycle
