import GlobalProtect.Client.Connect
import GlobalProtect.Session.HealthGate

/-! # What `gpclient` does with the sessions it is issued

Every registered login leaves the ledger exactly once (`sessions_settled_once`). The books stay
`Accounted` along the whole flow: issues are never lost or doubled, no two held sessions share a
server, and what was relinquished is what a tunnel worker was started with. Lookups in the ledger go
by server, so each method is shown to come with a ledger in which they are unambiguous: a login goes
to a server that has no session, and a tunnel is started with the only session that is held.

Most steps leave the books alone (`Quiet`). After a registration the flow only fails with an error
that neither repeats the attempt nor tries the server as a gateway (`Error.Final`), so these two
retries start from an empty ledger; that, and that a success of the cookie-only mode has printed
what is held, is `Settled`. -/

namespace GlobalProtect.Client

open Lib Api Session Flow

/-! ### Errors -/

/-- Errors that end the flow: the others are asked about again or lead to a gateway login. -/
def Error.Final : Error → Prop
  | .identity _ => False
  | .portal _ => False
  | _ => True

theorem terminal_final_of_final (h : Handler) {e : Error} (he : e.Final) : (h.terminal e).Final := by
  unfold Handler.terminal
  split
  · trivial
  · trivial
  · split
    · trivial
    · exact he

theorem terminal_final_of_disabled {h : Handler} (hd : h.dmabufDisabled = true) (e : Error) :
    (h.terminal e).Final := by
  obtain ⟨first, hf⟩ := Option.isSome_iff_exists.mp hd
  unfold Handler.terminal
  split
  · trivial
  · trivial
  · rw [hf]; trivial

/-! ### Steps that leave the books alone -/

section Quiet

variable {ε ε' α β : Type} {P P' : ε → Prop} {f : Flow Handler ε α} {g : α → Flow Handler ε β}

/-- The flow leaves the books alone and its errors satisfy `P`. -/
def Quiet (P : ε → Prop) (f : Flow Handler ε α) : Prop :=
  ∀ h, wp f (fun r h' => h'.books = h.books ∧ ∀ e, r = .error e → P e) h

theorem Quiet.mono (hf : Quiet P f) (hP : ∀ e, P e → P' e) : Quiet P' f :=
  fun h => wp_mono (hf h) fun _ _ ⟨hb, he⟩ => ⟨hb, fun e hr => hP e (he e hr)⟩

theorem Quiet.pure (a : α) : Quiet P (pure a : Flow Handler ε α) :=
  fun _ => wp_pure.mpr ⟨rfl, fun _ he => by cases he⟩

theorem Quiet.throw {e : ε} (he : P e) : Quiet P (throw e : Flow Handler ε α) :=
  fun _ => wp_throw.mpr ⟨rfl, fun _ h => by cases h; exact he⟩

theorem Quiet.diverge : Quiet P (diverge : Flow Handler ε α) := fun _ => wp_diverge

theorem Quiet.get : Quiet P (get : Flow Handler ε Handler) :=
  fun _ => wp_get.mpr ⟨rfl, fun _ he => by cases he⟩

theorem Quiet.modify {u : Handler → Handler} (hu : ∀ h, (u h).books = h.books) :
    Quiet P (modify u : Flow Handler ε PUnit) :=
  fun h => wp_modify.mpr ⟨hu h, fun _ he => by cases he⟩

theorem Quiet.ofExcept {r : Except ε α} (hr : ∀ e, r = .error e → P e) :
    Quiet P (ofExcept r : Flow Handler ε α) :=
  fun _ => wp_ofExcept.mpr ⟨rfl, hr⟩

theorem Quiet.mapError {u : ε → ε'} {P' : ε' → Prop} (hf : Quiet P f) (hu : ∀ e, P e → P' (u e)) :
    Quiet P' (mapError u f) := by
  intro h
  refine wp_mapError.mpr (wp_mono (hf h) ?_)
  rintro (e | a) h' ⟨hb, he⟩
  · exact ⟨hb, fun _ h => by cases h; exact hu e (he e rfl)⟩
  · exact ⟨hb, fun _ h => by cases h⟩

theorem Quiet.wp_bind (hf : Quiet P f) {Q : Except ε β → Handler → Prop} {h : Handler} {b : Books}
    (hbooks : h.books = b) (herr : ∀ e h', h'.books = b → P e → Q (.error e) h')
    (hok : ∀ a h', h'.books = b → wp (g a) Q h') : wp (f >>= g) Q h := by
  refine Flow.wp_bind.mpr (wp_mono (hf h) ?_)
  rintro (e | a) h' ⟨hb, he⟩
  · exact herr e h' (hb.trans hbooks) (he e rfl)
  · exact hok a h' (hb.trans hbooks)

theorem Quiet.bind (hf : Quiet P f) (hg : ∀ a, Quiet P (g a)) : Quiet P (f >>= g) := by
  refine fun h => hf.wp_bind rfl (fun e h' hb he => ?_) fun a h' hb => ?_
  · exact ⟨hb, fun _ h => by cases h; exact he⟩
  · exact wp_mono (hg a h') fun r h'' ⟨hb', he⟩ => ⟨hb'.trans hb, he⟩

theorem Quiet.ite {c : Prop} [Decidable c] {f' : Flow Handler ε α} (hf : Quiet P f)
    (hf' : Quiet P f') : Quiet P (if c then f else f') := by
  split
  · exact hf
  · exact hf'

variable (env : Env)

theorem wp_ask {answer : ℕ → β} {Q : Except ε β → Handler → Prop} {h : Handler} :
    wp (ask env answer) Q h ↔ Q (.ok (answer (h.tick env).clock)) (h.tick env) := by
  simp only [ask, Flow.wp_bind, wp_modify, wp_get, wp_pure]

theorem wp_isCancelled {Q : Except ε Bool → Handler → Prop} {h : Handler} :
    wp (isCancelled env) Q h ↔ Q (.ok (h.tick env).cancelled) (h.tick env) := by
  simp only [isCancelled, Flow.wp_bind, wp_modify, wp_get, wp_pure]

theorem wp_book {u : Books → Books} {Q : Except ε PUnit → Handler → Prop} {h : Handler} :
    wp (book u) Q h ↔ Q (.ok ⟨⟩) { h with books := u h.books } :=
  wp_modify

theorem wp_checkCancelled {Q : Except Error Unit → Handler → Prop} {h : Handler} :
    wp (checkCancelled env) Q h ↔
      ((h.tick env).cancelled = true → Q (.error .cancelled) (h.tick env)) ∧
        ((h.tick env).cancelled = false → Q (.ok ()) (h.tick env)) := by
  simp only [checkCancelled, Flow.wp_bind, wp_isCancelled]
  cases (h.tick env).cancelled <;> simp [wp_throw, wp_pure]

theorem quiet_ask (answer : ℕ → β) : Quiet P (ask env answer) :=
  fun _ => (wp_ask env).mpr ⟨rfl, fun _ he => by cases he⟩

theorem quiet_checkCancelled : Quiet Error.Final (checkCancelled env) := by
  refine fun h => (wp_checkCancelled env).mpr ⟨fun _ => ⟨rfl, ?_⟩, fun _ => ⟨rfl, ?_⟩⟩
  · rintro e ⟨⟩; trivial
  · rintro e ⟨⟩

/-- Any error. -/
def Any (_ : ε) : Prop := True

theorem Quiet.any (hf : Quiet P f) : Quiet Any f := hf.mono fun _ _ => trivial

theorem Quiet.before {f : Connect α} (hf : Quiet Error.Final f) :
    Quiet (fun e : GatewayConnectError => e.error.Final) (before f) :=
  hf.mapError fun _ he => he

theorem Quiet.after {f : Connect α} (hf : Quiet Error.Final f) :
    Quiet (fun e : GatewayConnectError => e.error.Final) (after f) :=
  hf.mapError fun _ he => he

theorem quiet_unlessCancelled (answer : ℕ → Except Error β) :
    Quiet Any (unlessCancelled env answer) :=
  (quiet_checkCancelled env).any.bind fun _ => (quiet_ask env _).bind fun _ =>
    .ofExcept fun _ _ => trivial

theorem quiet_require (answer : ℕ → Except String β) :
    Quiet Error.Final (require env answer) := by
  refine (quiet_ask env _).bind fun r => .ofExcept fun e he => ?_
  cases r with
  | ok a => cases he
  | error m => cases he; trivial

theorem quiet_requireIf (needed : Bool) (answer : ℕ → Except String Unit) :
    Quiet Error.Final (requireIf env needed answer) :=
  (quiet_require env _).ite (.pure _)

theorem quiet_ensure (c : Bool) (m : String) : Quiet Error.Final (ensure c m) :=
  Quiet.ite (.pure _) (.throw trivial)

theorem quiet_obtainCredentialRounds (n : ℕ) : Quiet Any (obtainCredentialRounds env n) := by
  induction n with
  | zero => exact .diverge
  | succ n ih =>
    refine (quiet_checkCancelled env).any.bind fun _ => (quiet_ask env _).bind fun r =>
      (quiet_checkCancelled env).any.bind fun _ => ?_
    cases r with
    | ok u => exact .pure _
    | error e =>
      refine Quiet.get.bind fun h => Quiet.ite ?_ (.throw trivial)
      refine Quiet.bind (.modify ?_) fun _ => Quiet.get.bind fun h' => ?_
      · exact fun _ => rfl
      · exact ((quiet_unlessCancelled env _).mapError fun _ _ => trivial).bind fun _ => ih

theorem quiet_obtainCredential : Quiet Any (obtainCredentialWithRecovery env) :=
  quiet_obtainCredentialRounds env env.fuel

variable (args : ConnectArgs)

theorem quiet_prepareCookieFromStdin : Quiet Any (prepareCookieFromStdin env args) :=
  Quiet.get.bind fun _ => Quiet.ite (.pure _) <|
    (quiet_require env _).any.bind fun _ => .modify fun _ => rfl

theorem quiet_cachedCookie {P : Error → Prop} : Quiet P (cachedCookie env args) :=
  Quiet.ite ((quiet_ask env _).bind fun _ => .pure _) (.pure _)

theorem quiet_portalConfig : Quiet Any (portalConfig env args) := by
  have hcached : Quiet Any (cachedConfig env args) := by
    refine (quiet_cachedCookie env args).bind fun c => ?_
    cases c with
    | none => exact .pure _
    | some c =>
      refine (quiet_ask env _).bind fun r => ?_
      cases r with
      | ok config => exact .pure _
      | error e => exact (quiet_checkCancelled env).any.bind fun _ => .pure _
  refine (quiet_unlessCancelled env _).bind fun _ => hcached.bind fun c => ?_
  cases c with
  | some config => exact .pure _
  | none =>
    exact (quiet_obtainCredential env).bind fun _ => (quiet_checkCancelled env).any.bind fun _ =>
      (quiet_ask env _).bind fun _ => .ofExcept fun _ _ => trivial

theorem quiet_selectGateway (config : PortalConfig) :
    Quiet Any (selectGateway env args config) := by
  unfold selectGateway
  split
  · split
    · exact .pure _
    · exact .throw trivial
  · split
    · exact .throw trivial
    · exact .pure _
    · exact (quiet_require env _).any.bind fun _ => .pure _

theorem quiet_validateBindings (l : List (Gateway × GatewayLoginSession)) :
    Quiet Error.Final (validateBindings env l) := by
  induction l with
  | nil => exact .pure _
  | cons m l ih => exact (quiet_require env _).bind fun _ => ih

end Quiet

/-! ### The books -/

/-- The invariant of the books. -/
structure Accounted (b : Books) : Prop where
  issues : (b.sessions.all.map GatewaySession.issue).Perm (List.range b.issued)
  servers : (b.sessions.held.map GatewaySession.server).Nodup
  released : ∀ e ∈ b.sessions.released, e.2 = .relinquished ↔ e.1.issue ∈ b.tunnels
  held : ∀ x ∈ b.sessions.held, x.issue ∉ b.tunnels
  tunnels : ∀ i ∈ b.tunnels, i < b.issued

/-- No session of this server is held. -/
def Absent (server : String) (b : Books) : Prop := ∀ y ∈ b.sessions.held, y.server ≠ server

/-- Whatever is held is a session of this server. -/
def HeldAt (server : String) (b : Books) : Prop := ∀ y ∈ b.sessions.held, y.server = server

variable {b b' : Books} {x : GatewaySession} {server : String}

theorem absent_of_nil (h : b.sessions.held = []) (server : String) : Absent server b := by
  intro y hy
  rw [h] at hy; cases hy

theorem heldAt_of_nil (h : b.sessions.held = []) (server : String) : HeldAt server b := by
  intro y hy
  rw [h] at hy; cases hy

theorem Accounted.nodup (h : Accounted b) : (b.sessions.all.map GatewaySession.issue).Nodup :=
  h.issues.nodup_iff.mpr List.nodup_range

theorem accounted_nil : Accounted {} :=
  ⟨by simp [Custody.all], by simp, by simp, by simp, by simp⟩

theorem Accounted.register (h : Accounted b) (hissue : x.issue = b.issued)
    (habsent : Absent x.server b) :
    Accounted { b with sessions := b.sessions.register x, issued := b.issued + 1 } := by
  refine ⟨?_, ?_, h.released, forall_mem_snoc h.held fun hi => ?_,
    fun i hi => Nat.lt_succ_of_lt (h.tunnels i hi)⟩
  · refine (Custody.perm_register.map _).trans ?_
    rw [List.map_cons, hissue, List.range_succ]
    exact (h.issues.cons _).trans (List.perm_append_singleton _ _).symm
  · simp only [Custody.register, List.map_append, List.map_cons, List.map_nil]
    refine (List.perm_append_singleton _ _).nodup_iff.mpr (List.nodup_cons.mpr ⟨?_, h.servers⟩)
    intro hmem
    obtain ⟨y, hy, hs⟩ := List.mem_map.mp hmem
    exact habsent y hy hs
  · exact absurd (h.tunnels _ hi) (by rw [hissue]; exact Nat.lt_irrefl _)

theorem Accounted.logoutGateway (h : Accounted b) (server : String) :
    Accounted (b.logoutGateway server) := by
  rcases Custody.releaseFirst_cases b.sessions GatewaySession.server server .loggedOut with
    ⟨heq, -⟩ | ⟨a, -, hheld, hreleased⟩
  · have hb : b.logoutGateway server = b := congrArg (fun c => { b with sessions := c }) heq
    rwa [hb]
  · refine ⟨?_, ?_, ?_, fun y hy => ?_, h.tunnels⟩
    · exact (Custody.perm_releaseFirst.map GatewaySession.issue).trans h.issues
    · exact ((hheld.map _).nodup_iff.mp h.servers).of_cons
    · change ∀ e ∈ (b.sessions.releaseFirst GatewaySession.server server .loggedOut).released, _
      rw [hreleased]
      exact forall_mem_snoc h.released
        (iff_of_false (by simp) (h.held a (hheld.mem_iff.mpr (by simp))))
    · exact h.held y (hheld.mem_iff.mpr (List.mem_cons_of_mem _ hy))

theorem mem_held_logoutGateway (h : Accounted b) {y : GatewaySession} :
    y ∈ (b.logoutGateway server).sessions.held ↔ y ∈ b.sessions.held ∧ y.server ≠ server :=
  Custody.mem_held_releaseFirst h.servers

theorem held_logoutGateway_of_heldAt (h : Accounted b) (hat : HeldAt server b) :
    (b.logoutGateway server).sessions.held = [] := by
  refine List.eq_nil_iff_forall_not_mem.mpr fun y hy => ?_
  obtain ⟨hy, hne⟩ := (mem_held_logoutGateway h).mp hy
  exact hne (hat y hy)

theorem Accounted.startTunnel (h : Accounted b) (hheld : b.sessions.held = [x])
    (hx : x.server = server) :
    Accounted (b.startTunnel server x.issue) ∧
      (b.startTunnel server x.issue).sessions.held = [] := by
  have hsessions : b.sessions.relinquishGateway server =
      ⟨[], b.sessions.released ++ [(x, .relinquished)]⟩ := by
    simp [GatewaySessions.relinquishGateway, Custody.releaseFirst, hheld, hx]
  have hnil : (b.startTunnel server x.issue).sessions.held = [] := by
    rw [Books.startTunnel, hsessions]
  have hlt : x.issue < b.issued := by
    refine List.mem_range.mp (h.issues.mem_iff.mp (List.mem_map.mpr ⟨x, ?_, rfl⟩))
    simp [Custody.all, hheld]
  refine ⟨⟨?_, ?_, fun e he => ?_, ?_, forall_mem_snoc h.tunnels hlt⟩, hnil⟩
  · exact (Custody.perm_releaseFirst.map GatewaySession.issue).trans h.issues
  · rw [hnil]; exact List.nodup_nil
  · rw [Books.startTunnel, hsessions] at he
    rcases List.mem_append.mp he with he | he
    · -- another login, so its issue differs from that of the one that is held
      have hne : e.1.issue ≠ x.issue := by
        have hn := h.nodup
        rw [Custody.all, hheld, List.singleton_append, List.map_cons, List.nodup_cons] at hn
        intro heq
        exact hn.1 (List.mem_map.mpr ⟨e.1, List.mem_map.mpr ⟨e, he, rfl⟩, heq⟩)
      simp [Books.startTunnel, h.released e he, hne]
    · obtain rfl := List.mem_singleton.mp he
      simp [Books.startTunnel]
  · rw [hnil]; simp

theorem Accounted.rejoin (h : Accounted b) {s : NonTunnel.State}
    (hs : (NonTunnel.machine b.sessions.members).Reachable s) :
    Accounted { b with sessions := b.sessions.rejoin s.ledger } := by
  have hkept := (NonTunnel.reachable_maintained h.servers hs).kept
  have hmem : ∀ y ∈ s.ledger.all, y ∈ b.sessions.held := fun y hy => hkept.conserved.mem_iff.mp hy
  have hservers := (hkept.conserved.map GatewaySession.server).nodup_iff.mpr h.servers
  refine ⟨((Custody.perm_rejoin hkept.conserved).map _).trans h.issues, ?_, fun e he => ?_,
    fun y hy => h.held y (hmem y (List.mem_append_left _ hy)), h.tunnels⟩
  · rw [Custody.all, List.map_append] at hservers
    exact hservers.of_append_left
  · rcases List.mem_append.mp he with he | he
    · exact h.released e he
    · refine iff_of_false (by simp [(hkept.released e he).1]) (h.held e.1 (hmem e.1 ?_))
      exact List.mem_append_right _ (List.mem_map.mpr ⟨e, he, rfl⟩)

/-! ### Logins -/

variable {env : Env} {args : ConnectArgs} {session : GatewayLoginSession} {gateway : Gateway}
  {config : PortalConfig}

/-- The login of this session was registered at `server`. -/
def Registered (server : String) (session : GatewayLoginSession) (b b' : Books) : Prop :=
  ∃ x : GatewaySession, b'.sessions = b.sessions.register x ∧ x.server = server ∧
    x.issue = session.issue ∧ x.authentication = session.authentication

/-- The outcome of `login_gateway`: an error after the registration is either the cancellation, and
the token is cancelled, or a protocol error. -/
def LoginPost (server : String) (b : Books) (r : Except Error GatewayLoginSession) (h : Handler) :
    Prop :=
  Accounted h.books ∧ match r with
    | .ok session => Registered server session b h.books
    | .error e => h.books = b ∨ (∃ session, Registered server session b h.books) ∧
        (e = .cancelled ∧ h.cancelled = true ∨ e = .protocol)

theorem registered_registerLogin (hb : Accounted b) (habsent : Absent server b)
    (authentication : GatewayAuthentication) (bound : Bool) :
    Accounted (b.registerLogin server authentication) ∧
      Registered server ⟨b.issued, authentication, bound⟩ b
        (b.registerLogin server authentication) :=
  ⟨hb.register (x := ⟨b.issued, ⟨server, server, .external, 0, []⟩, authentication, {}⟩) rfl
    habsent, _, rfl, rfl, rfl, rfl⟩

theorem bindNonTunnel_spec (hb : Accounted b) (habsent : Absent server b)
    {authentication : GatewayAuthentication} {h : Handler}
    (hbooks : h.books = b.registerLogin server authentication) :
    wp (bindNonTunnel env server) (fun r h' => match r with
      | .ok () => Accounted h'.books ∧ Registered server ⟨b.issued, authentication, true⟩ b h'.books
      | .error e => e = .protocol ∧ h'.books = h.books) h := by
  have hfind : h.books.sessions.members.find? (fun m => m.server = server) =
      some ⟨b.issued, ⟨server, server, .external, 0, []⟩, authentication, {}⟩ := by
    have hnone : b.sessions.held.find? (fun m => m.server = server) = none :=
      List.find?_eq_none.mpr fun y hy => by simpa using habsent y hy
    rw [hbooks]
    simp only [GatewaySessions.members, Books.registerLogin, Custody.register, List.find?_append,
      hnone, Option.none_or]
    simp [GatewaySession.server, Gateway.server]
  simp only [bindNonTunnel, wp_bind, wp_get, hfind, wp_ask]
  cases env.bind (h.tick env).clock with
  | error m => exact wp_throw.mpr ⟨rfl, rfl⟩
  | ok addresses =>
    refine wp_book.mpr ?_
    let x : GatewaySession := ⟨b.issued, ⟨server, server, .external, 0, []⟩, authentication, addresses⟩
    have hupdate : (b.registerLogin server authentication).sessions.update x =
        b.sessions.register x := Custody.update_register habsent rfl
    have hb' : { h.books with sessions := h.books.sessions.update x } =
        { b with sessions := b.sessions.register x, issued := b.issued + 1 } := by
      rw [hbooks, hupdate]; rfl
    change Accounted { h.books with sessions := h.books.sessions.update x } ∧ Registered _ _ _
      { h.books with sessions := h.books.sessions.update x }
    rw [hb']
    exact ⟨hb.register rfl habsent, x, rfl, rfl, rfl, rfl⟩

theorem loginGatewayRounds_spec (hb : Accounted b) (habsent : Absent server b) (internal : Bool)
    (n : ℕ) : ∀ h : Handler, h.books = b →
      wp (loginGatewayRounds env args internal server n) (LoginPost server b) h := by
  induction n with
  | zero => exact fun _ _ => wp_diverge
  | succ n ih =>
    intro h hbooks
    have hsame : ∀ (e : Error) (h' : Handler), h'.books = b → Any e →
        LoginPost server b (.error e) h' := fun e h' hb' _ => ⟨hb' ▸ hb, Or.inl hb'⟩
    refine (quiet_checkCancelled env).any.wp_bind hbooks hsame fun _ h₁ h₁b => ?_
    rw [wp_bind, wp_ask]
    have h₁b : (h₁.tick env).books = b := h₁b
    generalize h₁.tick env = h₁ at h₁b
    cases env.login h₁.clock with
    | error e => exact wp_throw.mpr (hsame e h₁ h₁b trivial)
    | ok l =>
      cases l with
      | mfa message input =>
        exact (quiet_require env _).any.wp_bind h₁b hsame fun _ => ih
      | authenticated authentication =>
        obtain ⟨hacc, hreg⟩ := registered_registerLogin hb habsent authentication false
        simp only [wp_bind, wp_get, wp_book, wp_checkCancelled, h₁b]
        refine ⟨fun hc => ⟨hacc, Or.inr ⟨⟨_, hreg⟩, Or.inl ⟨rfl, hc⟩⟩⟩, fun _ => ?_⟩
        split
        · refine wp_bind.mpr (wp_mono (bindNonTunnel_spec hb habsent rfl) ?_)
          rintro (e | ⟨⟩) h₂ hpost
          · obtain ⟨rfl, hb₂⟩ := hpost
            have hb₂ : h₂.books = b.registerLogin server authentication := hb₂
            exact ⟨hb₂ ▸ hacc, Or.inr ⟨⟨_, hb₂ ▸ hreg⟩, Or.inr rfl⟩⟩
          · exact wp_pure.mpr hpost
        · exact wp_pure.mpr ⟨hacc, hreg⟩

theorem loginGateway_spec (hb : Accounted b) (habsent : Absent server b) (internal : Bool)
    {h : Handler} (hbooks : h.books = b) :
    wp (loginGateway env args internal server) (LoginPost server b) h := by
  have hsame : ∀ (e : Error) (h' : Handler), h'.books = b → Any e →
      LoginPost server b (.error e) h' := fun e h' hb' _ => ⟨hb' ▸ hb, Or.inl hb'⟩
  refine (quiet_ask env _).wp_bind hbooks hsame fun r h₁ h₁b => ?_
  refine (Quiet.ofExcept fun _ _ => trivial).wp_bind h₁b hsame fun _ h₂ h₂b => ?_
  exact loginGatewayRounds_spec hb habsent internal _ h₂ h₂b

/-- The outcome of `authenticate_gateway`. -/
def AuthenticatePost (server : String) (b : Books) (r : Except Error GatewayLoginSession)
    (h : Handler) : Prop :=
  Accounted h.books ∧ match r with
    | .ok session => Registered server session b h.books
    | .error e => h.books = b ∨ (∃ session, Registered server session b h.books) ∧ e.Final

theorem LoginPost.authenticate {r : Except Error GatewayLoginSession} {h : Handler}
    (hr : LoginPost server b r h) : AuthenticatePost server b r h := by
  refine ⟨hr.1, ?_⟩
  cases r with
  | ok session => exact hr.2
  | error e =>
    refine hr.2.imp_right fun ⟨hreg, he⟩ => ⟨hreg, ?_⟩
    rcases he with ⟨rfl, -⟩ | rfl
    · trivial
    · trivial

/-- A failed login with the portal's cookie is repeated only if nothing was registered. -/
theorem loginWithPortalCookie_spec (hb : Accounted b) (habsent : Absent gateway.server b)
    {h : Handler} (hbooks : h.books = b) :
    wp (loginWithPortalCookie env args config gateway) (fun r h' => match r with
      | .ok none => h'.books = b
      | .ok (some session) => AuthenticatePost gateway.server b (.ok session) h'
      | .error e => AuthenticatePost gateway.server b (.error e) h') h := by
  unfold loginWithPortalCookie
  split
  swap
  · exact wp_pure.mpr hbooks
  refine wp_bind.mpr (wp_attempt.mpr (wp_mono (loginGateway_spec hb habsent _ hbooks) ?_))
  rintro (e | session) h₁ ⟨hacc, hpost⟩
  swap
  · exact wp_pure.mpr ⟨hacc, hpost⟩
  have hend : ∀ e' : Error, e'.Final → ∀ h₂ : Handler, h₂.books = h₁.books →
      AuthenticatePost gateway.server b (.error e') h₂ := by
    intro e' he' h₂ hb₂
    refine ⟨hb₂ ▸ hacc, ?_⟩
    rw [hb₂]
    exact hpost.imp_right fun ⟨hreg, _⟩ => ⟨hreg, he'⟩
  refine wp_bind.mpr ((wp_checkCancelled env).mpr ⟨fun _ => hend .cancelled trivial _ rfl, fun hc => ?_⟩)
  simp only [wp_bind, wp_get]
  split
  · exact wp_throw.mpr (hend (.recoveryFailed _ _) trivial (h₁.tick env) rfl)
  · exact wp_throw.mpr (hend .protocol trivial (h₁.tick env) rfl)
  next hne hne' =>
    -- the error is neither of the two that can follow a registration
    refine wp_pure.mpr ?_
    rcases hpost with heq | ⟨-, ⟨-, hcan⟩ | rfl⟩
    · exact heq
    · simp [Handler.tick, hcan] at hc
    · exfalso
      cases hf : (h₁.tick env).firstFailure with
      | none => exact hne' (by simp [Handler.terminal, hf])
      | some first => exact hne first .protocol (by simp [Handler.terminal, hf])

theorem authenticateGateway_spec (hb : Accounted b) (habsent : Absent gateway.server b)
    {h : Handler} (hbooks : h.books = b) :
    wp (authenticateGateway env args config gateway) (AuthenticatePost gateway.server b) h := by
  have hsame : ∀ (e : Error) (h' : Handler), h'.books = b → Any e →
      AuthenticatePost gateway.server b (.error e) h' := fun e h' hb' _ => ⟨hb' ▸ hb, Or.inl hb'⟩
  refine (quiet_checkCancelled env).any.wp_bind hbooks hsame fun _ h₁ h₁b => ?_
  refine (quiet_unlessCancelled env _).wp_bind h₁b hsame fun _ h₂ h₂b => ?_
  refine (quiet_checkCancelled env).any.wp_bind h₂b hsame fun _ h₃ h₃b => ?_
  refine wp_bind.mpr (wp_mono (loginWithPortalCookie_spec hb habsent h₃b) ?_)
  rintro (e | _ | session) h₄ hpost
  · exact hpost
  · refine (quiet_obtainCredential env).wp_bind hpost hsame fun _ h₅ h₅b => ?_
    refine (quiet_checkCancelled env).any.wp_bind h₅b hsame fun _ h₆ h₆b => ?_
    exact wp_mono (loginGateway_spec hb habsent _ h₆b) fun _ _ hr => hr.authenticate
  · exact wp_pure.mpr hpost

/-! ### Tunnels -/

/-- The session of this login is the only one that is held. -/
def Sole (server : String) (session : GatewayLoginSession) (b : Books) : Prop :=
  ∃ x : GatewaySession, b.sessions.held = [x] ∧ x.server = server ∧ x.issue = session.issue ∧
    x.authentication = session.authentication

theorem Registered.sole (hr : Registered server session b b') (hnil : b.sessions.held = []) :
    Sole server session b' := by
  obtain ⟨x, hs, hx⟩ := hr
  exact ⟨x, by rw [hs, Custody.register, hnil]; rfl, hx⟩

theorem Sole.heldAt (hs : Sole server session b) : HeldAt server b := by
  obtain ⟨x, hheld, hx, -⟩ := hs
  intro y hy
  rw [hheld] at hy
  rw [List.mem_singleton.mp hy, hx]

/-- Everything that is held was printed. -/
def AllPrinted (b : Books) : Prop :=
  ∀ y ∈ b.sessions.held, ⟨y.issue, y.authentication.cookie, y.server⟩ ∈ b.printed

/-- The outcome of `connect_gateway`. -/
structure ConnectPost (args : ConnectArgs) (server : String) (r : Except GatewayConnectError Unit)
    (h : Handler) : Prop where
  accounted : Accounted h.books
  heldAt : HeldAt server h.books
  printed : r = .ok () → args.cookieOnly = true → AllPrinted h.books
  final : ∀ e, r = .error e → e.error.Final

theorem establish_books {h : Handler} (hnil : h.books.sessions.held = []) (run : TunnelRun) :
    (h.establish args server run).books = h.books := by
  have hunused : h.books.unused server = [] := by
    simp [Books.unused, GatewaySessions.members, hnil]
  unfold Handler.establish
  cases run.established <;> cases run.observed <;>
    simp [Handler.writePidFile, hunused]

theorem classifyOpenconnectResult_final {code : Int} {established requested : Bool}
    {e : GatewayConnectError}
    (h : classifyOpenconnectResult code established requested = .error e) : e.error.Final := by
  unfold classifyOpenconnectResult at h
  split_ifs at h <;> cases h <;> trivial

theorem runTunnel_spec (hb : Accounted b) (hsole : Sole server session b) {h : Handler}
    (hbooks : h.books = b) (hcookie : args.cookieOnly = false) :
    wp (runTunnel env args server session) (ConnectPost args server) h := by
  obtain ⟨x, hheld, hx, hissue, -⟩ := hsole
  obtain ⟨hacc, hnil⟩ := hb.startTunnel hheld hx
  have hpost : ∀ (r : Except GatewayConnectError Unit) (h' : Handler),
      h'.books = b.startTunnel server x.issue → (∀ e, r = .error e → e.error.Final) →
        ConnectPost args server r h' := by
    intro r h' hb' hr
    refine ⟨hb' ▸ hacc, ?_, fun _ hc => ?_, hr⟩
    · rw [hb']; exact heldAt_of_nil hnil server
    · rw [hcookie] at hc; cases hc
  simp only [runTunnel, wp_bind, wp_book, wp_ask, wp_modify, wp_get, hbooks, ← hissue]
  generalize hh : Handler.tick { h with books := b.startTunnel server x.issue } env = h₁
  have h₁b : h₁.books = b.startTunnel server x.issue := by rw [← hh]; rfl
  have h₂b : (h₁.establish args server (env.tunnel h₁.clock)).books =
      b.startTunnel server x.issue := (establish_books (h₁b ▸ hnil) _).trans h₁b
  generalize Handler.establish args h₁ server (env.tunnel h₁.clock) = h₂ at h₂b
  split
  · exact wp_throw.mpr (hpost _ _ h₂b (by rintro e ⟨⟩; trivial))
  · exact wp_throw.mpr (hpost _ _ h₂b (by rintro e ⟨⟩; trivial))
  · exact wp_ofExcept.mpr (hpost _ _ h₂b fun e he => classifyOpenconnectResult_final he)

theorem connectGateway_spec (hb : Accounted b) (hsole : Sole server session b) {h : Handler}
    (hbooks : h.books = b) :
    wp (connectGateway env args server session) (ConnectPost args server) h := by
  unfold connectGateway
  split
  · refine wp_book.mpr ⟨?_, ?_, fun _ _ => ?_, by rintro e ⟨⟩⟩
    · rw [hbooks]; exact ⟨hb.issues, hb.servers, hb.released, hb.held, hb.tunnels⟩
    · rw [hbooks]; exact hsole.heldAt
    · obtain ⟨x, hheld, hx, hissue, hauth⟩ := hsole
      intro y hy
      have hy : y ∈ b.sessions.held := by rw [hbooks] at hy; exact hy
      rw [hheld] at hy
      obtain rfl := List.mem_singleton.mp hy
      simp [Books.print, hissue, hauth, hx]
  next hcookie =>
  have hcookie : args.cookieOnly = false := by simpa using hcookie
  have hsame : ∀ (e : GatewayConnectError) (h' : Handler), h'.books = b → e.error.Final →
      ConnectPost args server (.error e) h' := by
    intro e h' hb' he
    refine ⟨hb' ▸ hb, hb' ▸ hsole.heldAt, by rintro ⟨⟩, ?_⟩
    rintro _ ⟨⟩; exact he
  split
  · exact wp_throw.mpr (hsame _ h hbooks trivial)
  refine (quiet_checkCancelled env).after.wp_bind hbooks hsame fun _ h₁ h₁b => ?_
  refine (quiet_require env _).before.wp_bind h₁b hsame fun _ h₂ h₂b => ?_
  refine (quiet_require env _).before.wp_bind h₂b hsame fun _ h₃ h₃b => ?_
  refine (quiet_require env _).before.wp_bind h₃b hsame fun _ h₄ h₄b => ?_
  refine (quiet_requireIf env _ _).before.wp_bind h₄b hsame fun _ h₅ h₅b => ?_
  refine (quiet_requireIf env _ _).before.wp_bind h₅b hsame fun _ h₆ h₆b => ?_
  exact runTunnel_spec hb hsole h₆b hcookie

/-! ### Internal gateways -/

/-- The books stay accounted for, and an error ends the flow. -/
def FinalPost {α : Type} (r : Except Error α) (h : Handler) : Prop :=
  Accounted h.books ∧ ∀ e, r = .error e → e.Final

theorem finalPost_error {α : Type} (hb : Accounted b) (e : Error) (h : Handler)
    (hbooks : h.books = b) (he : e.Final) : FinalPost (.error e : Except Error α) h :=
  ⟨hbooks ▸ hb, by rintro _ ⟨⟩; exact he⟩

theorem checkCandidates_nodup {normalize : String → Except String String} {hosts : List String}
    {gateways : List Gateway} (h : checkCandidates normalize hosts gateways = .ok ()) :
    (gateways.map Gateway.server).Nodup ∧
      ∀ g ∈ gateways, ∀ host, normalize g.server = .ok host → host ∉ hosts := by
  induction gateways generalizing hosts with
  | nil => simp
  | cons g gateways ih =>
    rw [checkCandidates] at h
    split_ifs at h
    split at h
    · cases h
    next host hhost =>
    split_ifs at h with hmem
    obtain ⟨hn, hrest⟩ := ih h
    constructor
    · refine List.nodup_cons.mpr ⟨fun hs => ?_, hn⟩
      obtain ⟨g', hg', heq⟩ := List.mem_map.mp hs
      exact hrest g' hg' host (heq ▸ hhost) (by simp)
    · intro g' hg' host' hhost' hmem'
      rcases List.mem_cons.mp hg' with rfl | hg'
      · exact hmem (Except.ok.inj (hhost.symm.trans hhost') ▸ hmem')
      · exact hrest g' hg' host' hhost' (List.mem_cons_of_mem _ hmem')

theorem authenticateRemaining_spec {gateways : List Gateway} :
    ∀ {authenticated : List (Gateway × GatewayLoginSession)} {b : Books} {h : Handler},
      Accounted b → (gateways.map Gateway.server).Nodup →
      (∀ g ∈ gateways, Absent g.server b) → h.books = b →
      wp (authenticateRemaining env args config gateways authenticated) FinalPost h := by
  induction gateways with
  | nil =>
    intro authenticated b h hb _ _ hbooks
    exact wp_pure.mpr ⟨hbooks ▸ hb, by rintro e ⟨⟩⟩
  | cons g gateways ih =>
    intro authenticated b h hb hn habsent hbooks
    obtain ⟨hg, hn⟩ := List.nodup_cons.mp hn
    refine (quiet_checkCancelled env).wp_bind hbooks (finalPost_error hb) fun _ h₁ h₁b => ?_
    refine wp_bind.mpr (wp_attempt.mpr
      (wp_mono (authenticateGateway_spec hb (habsent g (by simp)) h₁b) ?_))
    -- what is held now has no session of the gateways that are left
    have hnext : ∀ b' : Books,
        (∀ y ∈ b'.sessions.held, y ∈ b.sessions.held ∨ y.server = g.server) →
          ∀ g' ∈ gateways, Absent g'.server b' := by
      intro b' hsub g' hg' y hy heq
      rcases hsub y hy with hy | hy
      · exact habsent g' (List.mem_cons_of_mem _ hg') y hy heq
      · exact hg (List.mem_map.mpr ⟨g', hg', heq.symm.trans hy⟩)
    have hregistered : ∀ {session : GatewayLoginSession} {b' : Books},
        Registered g.server session b b' →
          ∀ y ∈ b'.sessions.held, y ∈ b.sessions.held ∨ y.server = g.server := by
      rintro session b' ⟨x, hs, hx, -⟩ y hy
      rw [hs] at hy
      refine (List.mem_append.mp hy).imp_right fun hy => ?_
      rw [List.mem_singleton.mp hy, hx]
    rintro (e | session) h₂ ⟨hacc, hpost⟩
    · have hsub : ∀ y ∈ h₂.books.sessions.held, y ∈ b.sessions.held ∨ y.server = g.server := by
        rcases hpost with heq | ⟨⟨session, hr⟩, -⟩
        · exact fun y hy => Or.inl (heq ▸ hy)
        · exact hregistered hr
      have hlogout := hacc.logoutGateway g.server
      refine wp_bind.mpr (wp_book.mpr ?_)
      refine (quiet_checkCancelled env).wp_bind rfl (finalPost_error hlogout) fun _ h₃ h₃b => ?_
      simp only [wp_bind, wp_get]
      split
      next hd =>
        exact wp_throw.mpr (finalPost_error hlogout _ _ h₃b (terminal_final_of_disabled hd e))
      · refine ih hlogout hn (hnext _ fun y hy => ?_) h₃b
        exact hsub y ((mem_held_logoutGateway hacc).mp hy).1
    · exact ih hacc hn (hnext _ (hregistered hpost)) rfl

theorem maintain_spec (hb : Accounted b) {h : Handler} (hbooks : h.books = b) :
    wp (maintain env) FinalPost h := by
  simp only [maintain, wp_bind, wp_ask, wp_get]
  have h₁b : (h.tick env).books = b := hbooks
  generalize h.tick env = h₁ at h₁b
  split
  · exact wp_diverge
  next s hs =>
  split
  · simp only [wp_bind, wp_modify, wp_pure]
    refine ⟨?_, by rintro e ⟨⟩⟩
    rw [h₁b] at hs ⊢
    exact hb.rejoin ⟨_, hs⟩
  · exact wp_diverge

theorem runInternalSession_spec (hb : Accounted b) {h : Handler} (hbooks : h.books = b)
    (authenticated : List (Gateway × GatewayLoginSession)) :
    wp (runInternalSession env args authenticated) FinalPost h := by
  refine (quiet_require env _).wp_bind hbooks (finalPost_error hb) fun _ h₁ h₁b => ?_
  refine (quiet_ensure _ _).wp_bind h₁b (finalPost_error hb) fun _ h₂ h₂b => ?_
  refine (quiet_validateBindings env _).wp_bind h₂b (finalPost_error hb) fun _ h₃ h₃b => ?_
  refine (quiet_require env _).wp_bind h₃b (finalPost_error hb) fun _ h₄ h₄b => ?_
  refine (quiet_require env _).wp_bind h₄b (finalPost_error hb) fun _ h₅ h₅b => ?_
  refine (quiet_requireIf env _ _).wp_bind h₅b (finalPost_error hb) fun _ h₆ h₆b => ?_
  refine (quiet_ask env _).wp_bind h₆b (finalPost_error hb) fun _ h₇ h₇b => ?_
  refine wp_bind.mpr (wp_modify.mpr (wp_bind.mpr (wp_mono (maintain_spec hb h₇b) ?_)))
  rintro (e | result) h₈ ⟨hb, he⟩
  · exact finalPost_error hb e h₈ rfl (he e rfl)
  refine (quiet_ask env _).wp_bind rfl (finalPost_error hb) fun run h₉ h₉b => ?_
  refine (quiet_ensure _ _).wp_bind h₉b (finalPost_error hb) fun _ h₁₀ h₁₀b => ?_
  split
  · exact wp_throw.mpr (finalPost_error hb _ _ h₁₀b trivial)
  · exact wp_throw.mpr (finalPost_error hb _ _ h₁₀b trivial)
  · exact wp_pure.mpr ⟨h₁₀b ▸ hb, by rintro e ⟨⟩⟩
  · exact wp_throw.mpr (finalPost_error hb _ _ h₁₀b trivial)

theorem internalSessionMode_final {modes : List SessionMode} {e : Error}
    (h : internalSessionMode modes = .error e) : e.Final := by
  unfold internalSessionMode at h
  split at h
  · cases h; trivial
  · split_ifs at h; cases h; trivial

theorem checkCandidates_final {normalize : String → Except String String} {hosts : List String}
    {gateways : List Gateway} {e : Error}
    (h : checkCandidates normalize hosts gateways = .error e) : e.Final := by
  induction gateways generalizing hosts with
  | nil => cases h
  | cons g gateways ih =>
    rw [checkCandidates] at h
    split_ifs at h
    · cases h; trivial
    split at h
    · cases h; trivial
    · split_ifs at h
      · cases h; trivial
      · exact ih h

theorem connectInternalGateways_spec (hb : Accounted b) (hsole : Sole gateway.server session b)
    {h : Handler} (hbooks : h.books = b) (remaining : List Gateway) :
    wp (connectInternalGateways env args config gateway session remaining) FinalPost h := by
  refine (quiet_ensure _ _).wp_bind hbooks (finalPost_error hb) fun _ h₁ h₁b => ?_
  refine (quiet_ensure _ _).wp_bind h₁b (finalPost_error hb) fun _ h₂ h₂b => ?_
  rw [wp_bind, wp_ofExcept]
  cases hcheck : checkCandidates env.normalize [] (gateway :: remaining) with
  | error e => exact finalPost_error hb e h₂ h₂b (checkCandidates_final hcheck)
  | ok u =>
    obtain ⟨hfirst, hn⟩ := List.nodup_cons.mp (checkCandidates_nodup hcheck).1
    have habsent : ∀ g ∈ remaining, Absent g.server b := by
      intro g hg y hy heq
      exact hfirst (List.mem_map.mpr ⟨g, hg, heq.symm.trans (hsole.heldAt y hy)⟩)
    refine wp_bind.mpr (wp_mono (authenticateRemaining_spec hb hn habsent h₂b) ?_)
    rintro (e | authenticated) h₃ ⟨hb, he⟩
    · exact finalPost_error hb e h₃ rfl (he e rfl)
    refine (quiet_checkCancelled env).wp_bind rfl (finalPost_error hb) fun _ h₄ h₄b => ?_
    refine (Quiet.ofExcept fun _ => internalSessionMode_final).wp_bind h₄b (finalPost_error hb)
      fun _ h₅ h₅b => ?_
    refine (quiet_ensure _ _).wp_bind h₅b (finalPost_error hb) fun _ h₆ h₆b => ?_
    exact runInternalSession_spec hb h₆b _

/-! ### The portal -/

/-- The outcome of an attempt to connect: a success in the cookie-only mode has printed what is
held, and an error that is not the end of the flow leaves nothing in the ledger. -/
structure Settled (args : ConnectArgs) (r : Except Error Unit) (h : Handler) : Prop where
  accounted : Accounted h.books
  printed : r = .ok () → args.cookieOnly = true → AllPrinted h.books
  final : ∀ e, r = .error e → h.books.sessions.held = [] ∨ e.Final

theorem settled_error (hb : Accounted b) (hnil : b.sessions.held = []) (e : Error) (h : Handler)
    (hbooks : h.books = b) (_ : Any e) : Settled args (.error e) h :=
  ⟨hbooks ▸ hb, by rintro ⟨⟩, fun _ _ => Or.inl (hbooks ▸ hnil)⟩

theorem AuthenticatePost.settled {e : Error} {h : Handler}
    (hpost : AuthenticatePost server b (.error e) h) (hnil : b.sessions.held = []) :
    Settled args (.error e) h := by
  refine ⟨hpost.1, by rintro ⟨⟩, ?_⟩
  rintro _ ⟨⟩
  refine hpost.2.imp (fun hb => ?_) And.right
  rw [hb, hnil]

/-- The outcome for one gateway: a failure before the establishment leaves at most its own session,
and a failure after it ends the flow. -/
structure GatewaySettled (args : ConnectArgs) (server : String)
    (r : Except GatewayConnectError Unit) (h : Handler) : Prop where
  settled : Settled args (r.mapError GatewayConnectError.error) h
  heldAt : ∀ e, r = .error ⟨.beforeEstablishment, e⟩ → HeldAt server h.books
  final : ∀ e, r = .error ⟨.afterEstablishment, e⟩ → e.Final

theorem ConnectPost.gatewaySettled {r : Except GatewayConnectError Unit} {h : Handler}
    (hr : ConnectPost args server r h) : GatewaySettled args server r h := by
  refine ⟨⟨hr.accounted, fun hok => ?_, fun e he => ?_⟩, fun _ _ => hr.heldAt,
    fun e he => hr.final _ he⟩
  · cases r with
    | ok u => exact hr.printed rfl
    | error e => cases hok
  · cases r with
    | ok u => cases he
    | error e => cases he; exact Or.inr (hr.final _ rfl)

theorem gatewaySettled_after {h : Handler} {e : Error} (hb : Accounted h.books) (he : e.Final) :
    GatewaySettled args server (.error ⟨.afterEstablishment, e⟩) h :=
  ⟨⟨hb, by rintro ⟨⟩, by rintro _ ⟨⟩; exact Or.inr he⟩, by rintro _ ⟨⟩, by rintro _ ⟨⟩; exact he⟩

theorem connectGatewayWithFallback_spec (hb : Accounted b) (hnil : b.sessions.held = [])
    {h : Handler} (hbooks : h.books = b) (remaining : List Gateway) :
    wp (connectGatewayWithFallback env args config gateway remaining)
      (GatewaySettled args gateway.server) h := by
  refine wp_bind.mpr (wp_mapError.mpr
    (wp_mono (authenticateGateway_spec hb (absent_of_nil hnil _) hbooks) ?_))
  rintro (e | session) h₁ ⟨hacc, hpost⟩
  · refine ⟨AuthenticatePost.settled ⟨hacc, hpost⟩ hnil, ?_, by rintro _ ⟨⟩⟩
    · rintro _ ⟨⟩
      rcases hpost with heq | ⟨⟨session, hr⟩, -⟩
      · exact heldAt_of_nil (heq ▸ hnil) _
      · exact (hr.sole hnil).heldAt
  have hsole := hpost.sole hnil
  simp only [Except.mapError]
  split
  next hmode =>
    have hcookie : args.cookieOnly = false := by
      simp only [Bool.and_eq_true, Bool.not_eq_true'] at hmode
      exact hmode.1
    split
    · exact wp_throw.mpr (gatewaySettled_after hacc trivial)
    · refine wp_mapError.mpr (wp_mono (connectInternalGateways_spec hacc hsole rfl remaining) ?_)
      rintro (e | u) h₂ ⟨hb₂, he⟩
      · exact gatewaySettled_after hb₂ (he e rfl)
      · refine ⟨⟨hb₂, fun _ hc => ?_, by rintro _ ⟨⟩⟩, by rintro _ ⟨⟩, by rintro _ ⟨⟩⟩
        rw [hcookie] at hc; cases hc
  · exact wp_mono (connectGateway_spec hacc hsole rfl) fun _ _ hr => hr.gatewaySettled

/-- **The automatic loop** starts each attempt with an empty ledger. -/
theorem autoGateways_spec (count : ℕ) {gateways : List Gateway} :
    ∀ {last : Option Error} {b : Books} {h : Handler}, Accounted b → b.sessions.held = [] →
      h.books = b → wp (autoGateways env args config count gateways last) (Settled args) h := by
  induction gateways with
  | nil =>
    intro last b h hb hnil hbooks
    exact wp_throw.mpr (settled_error hb hnil _ h hbooks trivial)
  | cons g gateways ih =>
    intro last b h hb hnil hbooks
    refine wp_bind.mpr (wp_attempt.mpr
      (wp_mono (connectGatewayWithFallback_spec hb hnil hbooks gateways) ?_))
    rintro (⟨stage, e⟩ | ⟨⟩) h₁ hpost
    · have hacc := hpost.settled.accounted.logoutGateway g.server
      simp only [logoutGateway, wp_bind, wp_book, wp_get]
      split
      next hc =>
        refine wp_throw.mpr ⟨hacc, by rintro ⟨⟩, ?_⟩
        rintro _ ⟨⟩
        rcases (Bool.or_eq_true _ _).mp hc with hd | hafter
        · exact Or.inr (terminal_final_of_disabled hd e)
        · obtain rfl : stage = .afterEstablishment := of_decide_eq_true hafter
          exact Or.inr (terminal_final_of_final _ (hpost.final e rfl))
      next hc =>
        cases stage with
        | beforeEstablishment =>
          exact ih hacc
            (held_logoutGateway_of_heldAt hpost.settled.accounted (hpost.heldAt e rfl)) rfl
        | afterEstablishment => simp at hc
    · exact wp_pure.mpr hpost.settled

theorem connectPortalWithPrelogin_spec (hb : Accounted b) (hnil : b.sessions.held = [])
    {h : Handler} (hbooks : h.books = b) :
    wp (connectPortalWithPrelogin env args) (Settled args) h := by
  refine (quiet_portalConfig env args).wp_bind hbooks (settled_error hb hnil) fun config h₁ h₁b => ?_
  refine (quiet_checkCancelled env).any.wp_bind h₁b (settled_error hb hnil) fun _ h₂ h₂b => ?_
  split
  · refine (quiet_ensure _ _).any.wp_bind h₂b (settled_error hb hnil) fun _ h₃ h₃b => ?_
    exact autoGateways_spec _ hb hnil h₃b
  · refine (quiet_selectGateway env args config).wp_bind h₂b (settled_error hb hnil)
      fun gateway h₃ h₃b => ?_
    refine wp_mapError.mpr (wp_mono (connectGatewayWithFallback_spec hb hnil h₃b []) ?_)
    exact fun r h₄ hr => hr.settled

theorem connectGatewayWithPrelogin_spec (hb : Accounted b) (hnil : b.sessions.held = [])
    {h : Handler} (hbooks : h.books = b) (server : String) :
    wp (connectGatewayWithPrelogin env args server) (Settled args) h := by
  refine (quiet_unlessCancelled env _).wp_bind hbooks (settled_error hb hnil) fun _ h₁ h₁b => ?_
  refine (quiet_obtainCredential env).wp_bind h₁b (settled_error hb hnil) fun _ h₂ h₂b => ?_
  refine wp_bind.mpr (wp_mono (loginGateway_spec hb (absent_of_nil hnil server) false h₂b) ?_)
  rintro (e | session) h₃ hlogin
  · exact hlogin.authenticate.settled hnil
  · refine wp_mapError.mpr (wp_mono (connectGateway_spec hlogin.1 (hlogin.2.sole hnil) rfl) ?_)
    exact fun r h₄ hr => hr.gatewaySettled.settled

theorem tryCachedCookie_spec (hb : Accounted b) (hnil : b.sessions.held = []) {h : Handler}
    (hbooks : h.books = b) :
    wp (tryCachedCookie env args) (fun r h' => match r with
      | .ok none => Accounted h'.books ∧ h'.books.sessions.held = []
      | .ok (some result) => Settled args result h'
      | .error _ => False) h := by
  refine (quiet_cachedCookie (P := fun _ => False) env args).wp_bind hbooks
    (fun _ _ _ => id) fun stored h₁ h₁b => ?_
  cases stored with
  | none => exact wp_pure.mpr ⟨h₁b ▸ hb, h₁b ▸ hnil⟩
  | some stored =>
    refine wp_bind.mpr (wp_attempt.mpr
      (wp_mono (loginGateway_spec hb (absent_of_nil hnil stored.lastGateway) false h₁b) ?_))
    rintro (e | session) h₂ hlogin
    · have hsettled : Settled args (.error e) h₂ := hlogin.authenticate.settled hnil
      simp only [wp_bind, wp_isCancelled]
      split
      · exact wp_pure.mpr ⟨hsettled.accounted, hsettled.printed, hsettled.final⟩
      next hc =>
        refine wp_pure.mpr ⟨hsettled.accounted, ?_⟩
        rcases hlogin.2 with heq | ⟨-, ⟨-, hcan⟩ | rfl⟩
        · exact heq ▸ hnil
        · simp [Handler.tick, hcan] at hc
        · simp at hc
    · have hsole := hlogin.2.sole hnil
      simp only
      split
      · simp only [logoutGateway, wp_bind, wp_book, wp_pure]
        exact ⟨hlogin.1.logoutGateway _, held_logoutGateway_of_heldAt hlogin.1 hsole.heldAt⟩
      · refine wp_bind.mpr (wp_attempt.mpr (wp_mono (connectGateway_spec hlogin.1 hsole rfl) ?_))
        rintro (e | ⟨⟩) h₃ hpost
        · simp only [wp_bind, wp_isCancelled]
          split
          · refine wp_pure.mpr ⟨hpost.accounted, by rintro ⟨⟩, ?_⟩
            rintro _ ⟨⟩
            exact Or.inr (hpost.final e rfl)
          · simp only [logoutGateway, wp_bind, wp_book, wp_pure]
            exact ⟨hpost.accounted.logoutGateway _,
              held_logoutGateway_of_heldAt hpost.accounted hpost.heldAt⟩
        · exact wp_pure.mpr hpost.gatewaySettled.settled

/-! ### The command -/

theorem terminal_eq {h : Handler} {e e' : Error} (he : h.terminal e = e')
    (hne : ∀ first e₀, e' ≠ .recoveryFailed first e₀) : e = e' := by
  unfold Handler.terminal at he
  split at he
  · exact he
  · exact he
  · split at he
    · exact absurd he.symm (hne _ _)
    · exact he

theorem handleImpl_spec (hb : Accounted b) (hnil : b.sessions.held = []) {h : Handler}
    (hbooks : h.books = b) : wp (handleImpl env args) (Settled args) h := by
  refine (quiet_checkCancelled env).any.wp_bind hbooks (settled_error hb hnil) fun _ h₁ h₁b => ?_
  refine (quiet_prepareCookieFromStdin env args).wp_bind h₁b (settled_error hb hnil)
    fun _ h₂ h₂b => ?_
  split
  · exact connectGatewayWithPrelogin_spec hb hnil h₂b _
  refine wp_bind.mpr (wp_mono (tryCachedCookie_spec hb hnil h₂b) ?_)
  rintro (e | _ | result) h₃ hcached
  · exact hcached.elim
  · obtain ⟨hb, hnil⟩ := hcached
    refine (quiet_checkCancelled env).any.wp_bind rfl (settled_error hb hnil) fun _ h₄ h₄b => ?_
    refine wp_bind.mpr (wp_attempt.mpr
      (wp_mono (connectPortalWithPrelogin_spec hb hnil h₄b) ?_))
    rintro (e | ⟨⟩) h₅ hpost
    · simp only [wp_bind, wp_get]
      split
      next m hm =>
        obtain rfl := terminal_eq hm (by simp)
        exact connectGatewayWithPrelogin_spec hpost.accounted
          ((hpost.final _ rfl).resolve_right id) rfl _
      · refine wp_throw.mpr ⟨hpost.accounted, by rintro ⟨⟩, ?_⟩
        rintro _ ⟨⟩
        exact (hpost.final e rfl).imp_right (terminal_final_of_final h₅)
    · exact wp_pure.mpr hpost
  · exact wp_ofExcept.mpr hcached

/-- **The passphrase loop** starts each round with an empty ledger. -/
theorem handleRounds_spec (n : ℕ) : ∀ {b : Books} {h : Handler}, Accounted b →
    b.sessions.held = [] → h.books = b → wp (handleRounds env args n) (Settled args) h := by
  induction n with
  | zero => exact fun _ _ _ => wp_diverge
  | succ n ih =>
    intro b h hb hnil hbooks
    refine (quiet_checkCancelled env).any.wp_bind hbooks (settled_error hb hnil) fun _ h₁ h₁b => ?_
    refine wp_bind.mpr (wp_attempt.mpr (wp_mono (handleImpl_spec hb hnil h₁b) ?_))
    rintro (e | ⟨⟩) h₂ hpost
    swap
    · simp only [wp_bind, wp_get, Except.mapError]
      exact wp_pure.mpr hpost
    have hempty : ∀ i, h₂.terminal e = .identity i → h₂.books.sessions.held = [] := by
      intro i hi
      obtain rfl := terminal_eq hi (by simp)
      exact (hpost.final _ rfl).resolve_right id
    have hretry : ∀ i, h₂.terminal e = .identity i →
        wp (require env env.prompt >>= fun _ => handleRounds env args n) (Settled args) h₂ :=
      fun i hi => (quiet_require env _).any.wp_bind rfl
        (settled_error hpost.accounted (hempty i hi))
        fun _ h₃ h₃b => ih hpost.accounted (hempty i hi) h₃b
    simp only [wp_bind, wp_get, Except.mapError]
    split
    next heq => cases heq
    next heq =>
      refine wp_pure.mpr ⟨hpost.accounted, fun _ _ y hy => ?_, by rintro _ ⟨⟩⟩
      rw [hempty _ (Except.error.inj heq)] at hy; cases hy
    next heq => exact hretry _ (Except.error.inj heq)
    next heq => exact hretry _ (Except.error.inj heq)
    next e' _ _ _ heq =>
      refine wp_throw.mpr ⟨hpost.accounted, by rintro ⟨⟩, ?_⟩
      rintro _ ⟨⟩
      rw [← Except.error.inj heq]
      exact (hpost.final e rfl).imp_right (terminal_final_of_final h₂)

theorem handleAttempt_spec (hb : Accounted b) (hnil : b.sessions.held = []) {h : Handler}
    (hbooks : h.books = b) : wp (handleAttempt env args) (Settled args) h := by
  refine (quiet_ensure _ _).any.wp_bind hbooks (settled_error hb hnil) fun _ h₁ h₁b => ?_
  refine (quiet_ensure _ _).any.wp_bind h₁b (settled_error hb hnil) fun _ h₂ h₂b => ?_
  exact handleRounds_spec _ hb hnil h₂b

/-- **Every session is settled exactly once**: when the command returns nothing is held, and each
registered login left the ledger in exactly one way. It was relinquished because a tunnel worker was
started with it, or logged out, or left alive because the cookie-only mode printed it and
succeeded. -/
theorem sessions_settled_once (env : Env) (args : ConnectArgs) {r : Except Error Unit} {h : Handler}
    (hrun : (handle env args).exec {} = some (r, h)) :
    h.books.sessions.held = [] ∧ ∀ i < h.books.issued, ∃ x how,
      h.books.sessions.released.filter (fun e => e.1.issue = i) = [(x, how)] ∧
        (how = .relinquished ∧ i ∈ h.books.tunnels ∨
          how = .loggedOut ∧ i ∉ h.books.tunnels ∨
          how = .relinquished ∧ i ∉ h.books.tunnels ∧ args.cookieOnly = true ∧ r = .ok () ∧
            ⟨i, x.authentication.cookie, x.server⟩ ∈ h.books.printed) := by
  revert r h
  change wp (handle env args) (fun r h => _) {}
  simp only [handle, wp_bind, wp_modify]
  refine wp_attempt.mpr (wp_mono (handleAttempt_spec accounted_nil rfl rfl) fun r h₁ hpost => ?_)
  simp only [wp_book, wp_ask, wp_ofExcept]
  have hb := hpost.accounted
  -- both ways to end give up everything that is held
  obtain ⟨last, hlast, hif⟩ : ∃ last : Release,
      (last = .relinquished → args.cookieOnly = true ∧ r = .ok ()) ∧
        (if (args.cookieOnly && r.isOk) = true then h₁.books.sessions.relinquish
          else h₁.books.sessions.logout) = h₁.books.sessions.releaseAll last := by
    split
    next hc =>
      refine ⟨.relinquished, fun _ => ?_, rfl⟩
      obtain ⟨hcookie, hok⟩ := (Bool.and_eq_true _ _).mp hc
      cases r with
      | ok u => exact ⟨hcookie, rfl⟩
      | error e => cases hok
    · exact ⟨.loggedOut, by rintro ⟨⟩, rfl⟩
  simp only [hif, Handler.tick]
  refine ⟨rfl, fun i hi => ?_⟩
  have hperm : (h₁.books.sessions.releaseAll last).all.Perm h₁.books.sessions.all :=
    Custody.perm_releaseAll
  obtain ⟨x, hx, rfl⟩ := List.mem_map.mp
    (((hperm.map _).trans hb.issues).mem_iff.mpr (List.mem_range.mpr hi))
  obtain ⟨how, hhow⟩ := Custody.mem_released hx (by simp [Custody.releaseAll])
  refine ⟨x, how, Custody.released_once ((hperm.map _).nodup_iff.mpr hb.nodup) hhow, ?_⟩
  rcases List.mem_append.mp hhow with hold | hnew
  · have hiff := hb.released _ hold
    cases how with
    | loggedOut => exact Or.inr (Or.inl ⟨rfl, fun ht => by cases hiff.mpr ht⟩)
    | relinquished => exact Or.inl ⟨rfl, hiff.mp rfl⟩
  · obtain ⟨y, hy, heq⟩ := List.mem_map.mp hnew
    cases heq
    cases last with
    | loggedOut => exact Or.inr (Or.inl ⟨rfl, hb.held x hy⟩)
    | relinquished =>
      obtain ⟨hcookie, hok⟩ := hlast rfl
      exact Or.inr (Or.inr ⟨rfl, hb.held x hy, hcookie, hok, hpost.printed hok hcookie x hy⟩)

/-- A portal with two gateways; the preparation of the first tunnel fails. -/
def fallbackEnv : Env where
  signal := fun _ => false
  stdin := fun _ => .ok ()
  storedCookie := fun _ => none
  prelogin := fun _ => .ok ()
  credential := fun _ => .ok ()
  discover := fun _ => .ok
    ⟨[{ name := "first", address := "first.example" },
      { name := "second", address := "second.example" }], true⟩
  client := fun _ => .ok ()
  login := fun _ => .ok (.authenticated ⟨"cookie", "tunnel"⟩)
  prompt := fun _ => .ok ()
  select := fun _ => .ok 0
  bind := fun _ => .ok {}
  prepare := fun t => if t < 24 then .error "no device" else .ok ()
  tunnel := fun _ => { established := true, observed := true, exit := .ok 0 }
  maintenance := fun _ => []
  internal := fun _ => {}
  writePid := fun _ => true
  removePid := fun _ => true
  normalize := .ok
  fuel := 1

theorem sessions_settled_once_fallback :
    ∃ h, (handle fallbackEnv { server := "portal", autoGateway := true }).exec {} =
        some (.ok (), h) ∧ h.books.issued = 2 ∧ h.books.tunnels = [1] ∧
      ∃ x, h.books.sessions.released.filter (fun e => e.1.issue = 0) = [(x, .loggedOut)] := by
  have hrun : ((handle fallbackEnv { server := "portal", autoGateway := true }).exec {}).any
      (fun p => p.1.isOk && p.2.books.issued = 2 && p.2.books.tunnels = [1]) = true := by
    decide +kernel
  obtain ⟨r, h, hexec, hp⟩ := exec_of_any hrun
  simp only [Bool.and_eq_true, decide_eq_true_eq] at hp
  obtain ⟨⟨hok, hissued⟩, htunnels⟩ := hp
  obtain ⟨x, how, hfilter, hhow⟩ := (sessions_settled_once _ _ hexec).2 0 (by rw [hissued]; decide)
  cases r with
  | error e => cases hok
  | ok u =>
    refine ⟨h, hexec, hissued, htunnels, x, ?_⟩
    rw [htunnels] at hhow
    rcases hhow with ⟨-, hin⟩ | ⟨rfl, -⟩ | ⟨-, -, hc, -⟩
    · simp at hin
    · exact hfilter
    · cases hc

end GlobalProtect.Client
