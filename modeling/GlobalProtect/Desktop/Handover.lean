import GlobalProtect.Desktop.Model

/-! # Switching the GUI keeps the session ledger exact

Both programs keep a `pending` flag. They stay in step because both follow one automaton on the
control bytes, `follow`: the supervisor's flag is where the automaton is after the bytes it wrote
(`InStep.supervisor`), the service's is where it is after the bytes it read (`InStep.service`), and
what was read is the beginning of what was written. The words that the automaton accepts are the
`Rounds` (`rounds_of_follow`).

`Ledger` is the account of the sessions: those issued and not revoked are the ones in scope
(`Serve.Pc.held`). The service does three things to it: nothing, revoke a session it holds, and
issue one. `Supervisor.Sound` is the account of the GUI processes, `Renewed` that of the retries. -/

namespace GlobalProtect.Desktop

open Lib Api
open Service
  (Registry.State Registry.Label Registry.Sessions Registry.step Registry.step_gone
    Registry.step_used Registry.lookup_revoke)

/-! ### The control bytes -/

/-- Whether a switch is pending after a control byte; `none` when the byte is out of place. -/
def Control.next : Bool → Control → Option Bool
  | false, .guiInstaller => some false
  | false, .switchBegin => some true
  | true, .switchCommit => some false
  | true, .switchCancel => some false
  | false, .guiExited => some false
  | false, .renderingRetry => some false
  | _, _ => none

def follow (pending : Bool) (bytes : List Control) : Option Bool := bytes.foldlM Control.next pending

theorem follow_append {b : Bool} {u v : List Control} :
    follow b (u ++ v) = (follow b u).bind fun b => follow b v := by
  unfold follow
  rw [List.foldlM_append]
  rfl

theorem follow_concat {b b' : Bool} {u : List Control} {c : Control} (h : follow b u = some b') :
    follow b (u ++ [c]) = c.next b' := by
  rw [follow_append, h]
  simp [follow]

/-- The words `(INSTALLER | BEGIN (COMMIT | CANCEL))*`. -/
inductive Switches : List Control → Prop
  | nil : Switches []
  | installer {w : List Control} (h : Switches w) : Switches (w ++ [.guiInstaller])
  | commit {w : List Control} (h : Switches w) : Switches (w ++ [.switchBegin, .switchCommit])
  | cancel {w : List Control} (h : Switches w) : Switches (w ++ [.switchBegin, .switchCancel])

/-- A round that was reported: switches, then the exit or the retry byte. -/
def Reported (w : List Control) : Prop :=
  ∃ v, Switches v ∧ (w = v ++ [.guiExited] ∨ w = v ++ [.renderingRetry])

/-- The round so far, with a switch pending or not. -/
def Round : Bool → List Control → Prop
  | false, w => Switches w
  | true, w => ∃ v, Switches v ∧ w = v ++ [.switchBegin]

/-- Reported rounds, and the beginning of one. -/
def Rounds (b : Bool) (w : List Control) : Prop :=
  ∃ (rounds : List (List Control)) (last : List Control),
    w = rounds.flatten ++ last ∧ (∀ r ∈ rounds, Reported r) ∧ Round b last

theorem rounds_of_follow {w : List Control} {b : Bool} (h : follow false w = some b) :
    Rounds b w := by
  induction w using List.reverseRecOn generalizing b with
  | nil =>
    cases h
    exact ⟨[], [], rfl, by simp, Switches.nil⟩
  | append_singleton w c ih =>
    rw [follow_append, Option.bind_eq_some_iff] at h
    obtain ⟨b₀, h₀, hc⟩ := h
    obtain ⟨rounds, last, rfl, hrounds, hlast⟩ := ih h₀
    have hc : c.next b₀ = some b := by simpa [follow] using hc
    -- the exit and the retry byte close the round, the other bytes extend it
    have hclose : b₀ = false → (c = .guiExited ∨ c = .renderingRetry) → b = false →
        Rounds b (rounds.flatten ++ last ++ [c]) := by
      rintro rfl hcr rfl
      exact ⟨rounds ++ [last ++ [c]], [], by simp, forall_mem_snoc hrounds
        ⟨last, hlast, hcr.imp (by rintro rfl; rfl) (by rintro rfl; rfl)⟩, Switches.nil⟩
    have hextend : Round b (last ++ [c]) → Rounds b (rounds.flatten ++ last ++ [c]) :=
      fun hr => ⟨rounds, last ++ [c], by simp, hrounds, hr⟩
    unfold Control.next at hc
    split at hc
    · cases hc
      exact hextend (Switches.installer hlast)
    · cases hc
      exact hextend ⟨last, hlast, rfl⟩
    · cases hc
      obtain ⟨v, hv, rfl⟩ := hlast
      exact hextend (by simpa [Round] using Switches.commit hv)
    · cases hc
      obtain ⟨v, hv, rfl⟩ := hlast
      exact hextend (by simpa [Round] using Switches.cancel hv)
    · cases hc
      exact hclose rfl (Or.inl rfl) rfl
    · cases hc
      exact hclose rfl (Or.inr rfl) rfl
    · cases hc

theorem Round.isPrefix {b : Bool} {w : List Control} (h : Round b w) :
    ∃ v, Switches v ∧ w <+: v := by
  cases b with
  | false => exact ⟨w, h, List.prefix_rfl⟩
  | true =>
    obtain ⟨v, hv, rfl⟩ := h
    exact ⟨_, hv.commit, [.switchCommit], by simp⟩

/-! ### The supervisor -/

namespace Supervisor

/-- The value that `pending` has at a point; where it depends on how the point was reached, none. -/
def Pc.pending : Pc → Option Bool
  | .readCredential _ | .prepare _ | .resolveReplacement | .starting _ | .save _ | .reply _
  | .commit _ | .abort _ => some true
  | .failed | .closing .error _ | .report .error | .returned => none
  | _ => some false

/-- The GUI processes that the point itself has to join. -/
def Pc.children : Pc → List ℕ
  | .starting child | .save child | .reply child | .commit child | .abort child => [child]
  | .closing _ children => children
  | _ => []

/-- The point is after the loop of `launch_with_switches`, or outside of it. -/
def Pc.outside : Pc → Bool
  | .awaitCredential | .resolving | .closing _ _ | .report _ | .returned => true
  | _ => false

/-- Every GUI process was joined or is owned, and the point knows its `pending`. -/
structure Sound (s : Supervisor) : Prop where
  pending : ∀ b, s.pc.pending = some b → s.pending = b
  owned : ∀ i < s.started, i ∈ s.joined ∨ i ∈ s.current.toList ∨ i ∈ s.retired ∨ i ∈ s.pc.children
  outside : s.pc.outside = true → s.current = none ∧ s.retired = []

variable {s : Supervisor} {replies : List Reply} {pc : Pc} {l : Label} {n : Next}

/-- The byte that the step wrote, if any, is in place. -/
def Keeps (s : Supervisor) (n : Next) : Prop :=
  n.supervisor.Sound ∧ follow s.pending n.wrote.toList = some n.supervisor.pending

theorem Sound.goto (h : s.Sound) (hp : ∀ b, pc.pending = some b → s.pending = b)
    (hc : ∀ i ∈ s.pc.children, i ∈ pc.children)
    (ho : pc.outside = true → s.pc.outside = true) : (s.goto pc).Sound where
  pending := hp
  owned i hi := (h.owned i hi).imp_right (Or.imp_right (Or.imp_right (hc i)))
  outside hout := h.outside (ho hout)

theorem Sound.join (h : s.Sound) {child : ℕ} {children : List ℕ}
    (hc : s.pc.children = child :: children) (hp : ∀ b, pc.pending = some b → s.pending = b)
    (hpc : pc.children = children) (ho : pc.outside = true → s.pc.outside = true) :
    ((s.join child).goto pc).Sound where
  pending := hp
  owned i hi := by
    have hmem : i ∈ s.joined → i ∈ s.joined ++ [child] := List.mem_append_left _
    rcases h.owned i hi with hj | hcur | hret | hch
    · exact Or.inl (hmem hj)
    · exact Or.inr (Or.inl hcur)
    · exact Or.inr (Or.inr (Or.inl hret))
    · rw [hc, List.mem_cons] at hch
      rcases hch with rfl | hch
      · exact Or.inl (List.mem_append_right _ (List.mem_singleton_self i))
      · exact Or.inr (Or.inr (Or.inr (hpc ▸ hch)))
  outside hout := h.outside (ho hout)

theorem Sound.close (h : s.Sound) (hc : s.pc.children = []) : (s.close .error).Sound where
  pending b hb := by cases hb
  owned i hi := by
    rcases h.owned i hi with hj | hcur | hret | hch
    · exact Or.inl hj
    · exact Or.inr (Or.inr (Or.inr (List.mem_append_right _ hcur)))
    · exact Or.inr (Or.inr (Or.inr (List.mem_append_left _ hret)))
    · rw [hc] at hch; cases hch
  outside _ := ⟨rfl, rfl⟩

theorem Sound.startReplacement (h : s.Sound) (hp : s.pending = true) (hc : s.pc.children = []) :
    s.startReplacement.Sound where
  pending b hb := by
    cases hb
    exact hp
  owned i hi := by
    rcases Nat.lt_succ_iff_lt_or_eq.mp hi with hi | rfl
    · rcases h.owned i hi with hj | hcur | hret | hch
      · exact Or.inl hj
      · exact Or.inr (Or.inl hcur)
      · exact Or.inr (Or.inr (Or.inl hret))
      · rw [hc] at hch; cases hch
    · exact Or.inr (Or.inr (Or.inr (List.mem_singleton_self _)))
  outside hout := by cases hout

theorem Keeps.quiet {s' : Supervisor} (h : s'.Sound) (hp : s'.pending = s.pending) :
    s.Keeps { supervisor := s', replies } :=
  ⟨h, congrArg some hp.symm⟩

theorem Keeps.wrote {s' : Supervisor} {c : Control} (h : s'.Sound)
    (hc : c.next s.pending = some s'.pending) :
    s.Keeps { supervisor := s', wrote := some c, replies } :=
  ⟨h, by simpa [follow] using hc⟩

theorem Sound.leave (h : s.Sound) (hc : s.pc.children = []) (ho : s.pc.outside = true) :
    s.Keeps { supervisor := s.goto .returned, replies } :=
  .quiet (h.goto (fun _ hb => by cases hb) (by simp [hc]) fun _ => ho) rfl

theorem launchStep_keeps (h : s.Sound) (hpc : s.pc = pc)
    (hs : s.launchStep replies pc l = some n) : s.Keeps n := by
  have hp := h.pending
  have hout := h.outside
  rw [hpc] at hp hout
  unfold launchStep at hs
  split at hs
  · -- a credential is read
    have hleave : s.Keeps { supervisor := s.goto .returned, replies } :=
      h.leave (by rw [hpc]; rfl) (by rw [hpc]; rfl)
    split_ifs at hs <;> cases hs
    · exact hleave
    · exact .quiet (h.goto hp (by simp [hpc, Pc.children]) (by simp [hpc, Pc.outside])) rfl
  · cases hs
    exact h.leave (by rw [hpc]; rfl) (by rw [hpc]; rfl)
  · -- the GUI is started
    cases hs
    obtain ⟨hcur, hret⟩ := hout rfl
    refine .quiet ⟨hp, fun i hi => ?_, fun hout => by cases hout⟩ rfl
    rcases Nat.lt_succ_iff_lt_or_eq.mp hi with hi | rfl
    · rcases h.owned i hi with hj | hcur' | hret' | hch
      · exact Or.inl hj
      · rw [hcur] at hcur'; cases hcur'
      · rw [hret] at hret'; cases hret'
      · rw [hpc] at hch; cases hch
    · exact Or.inr (Or.inl (List.mem_singleton_self _))
  · next crash =>
    cases hs
    refine .quiet (h.goto ?_ (by simp [hpc, Pc.children]) (by simp [hpc, Pc.outside])) rfl
    cases crash
    · exact fun _ hb => by cases hb
    · exact hp
  · next outcome =>
    have hleave : s.Keeps { supervisor := s.goto .returned, replies } :=
      h.leave (by rw [hpc]; rfl) (by rw [hpc]; rfl)
    by_cases hcan : s.cancelled = true
    · rw [if_pos hcan] at hs
      cases hs
      exact hleave
    rw [if_neg hcan] at hs
    have hmoved : s.pc.pending = some false → (s.goto .awaitCredential).Sound := fun hno =>
      h.goto (fun b hb => h.pending b (hno.trans hb)) (by simp [hpc, Pc.children])
        (by simp [hpc, Pc.outside])
    -- no switch is pending when an exit or a crash is reported
    cases outcome with
    | exited =>
      cases hs
      refine .wrote (hmoved (by rw [hpc]; rfl)) ?_
      rw [hp false rfl, show (s.goto .awaitCredential).pending = false from hp false rfl]
      rfl
    | crash =>
      dsimp only at hs
      split_ifs at hs <;> cases hs
      · exact hleave
      · have hsound := hmoved (by rw [hpc]; rfl)
        refine .wrote ⟨hsound.pending, hsound.owned, hsound.outside⟩ ?_
        rw [hp false rfl]
        rfl
    | error =>
      cases hs
      exact hleave
  · cases hs
    exact h.leave (by rw [hpc]; rfl) (by rw [hpc]; rfl)
  · cases hs

theorem loopStep_keeps (h : s.Sound) (hpc : s.pc = pc)
    (hs : s.loopStep replies pc l = some n) : s.Keeps n := by
  have hp := h.pending
  rw [hpc] at hp
  unfold loopStep at hs
  split at hs
  · -- the current GUI has exited, and is joined
    next outcome =>
    cases hs
    refine .quiet ⟨fun b hb => ?_, fun i hi => ?_, fun _ => ⟨rfl, rfl⟩⟩ rfl
    · cases outcome
      · exact hp b hb
      · exact hp b hb
      · cases hb
    · rcases h.owned i hi with hj | hcur | hret | hch
      · exact Or.inl (List.mem_append_left _ hj)
      · exact Or.inl (List.mem_append_right _ hcur)
      · exact Or.inr (Or.inr (Or.inr hret))
      · rw [hpc] at hch; cases hch
  · cases hs
    have hmoved : (s.goto .receive).Sound :=
      h.goto hp (by simp [hpc, Pc.children]) (by simp [Pc.outside])
    exact .quiet ⟨fun b hb => Option.some.inj hb, hmoved.owned, hmoved.outside⟩ (hp false rfl).symm
  · cases hs
    exact .quiet (h.close (by rw [hpc]; rfl)) rfl
  · next outcome child children _ =>
    cases hs
    refine .quiet (h.join (by rw [hpc]; rfl) ?_ rfl fun _ => by rw [hpc]; rfl) rfl
    cases outcome <;> exact hp
  · next outcome =>
    cases hs
    refine .quiet (h.goto ?_ (by simp [hpc, Pc.children]) (by simp [hpc, Pc.outside])) rfl
    cases outcome <;> exact hp
  · cases hs

theorem afterCheck_pending (selection : Selection) (found : Bool) :
    (afterCheck selection found).pending = some false ∧
      (afterCheck selection found).outside = false := by
  unfold afterCheck
  split_ifs <;> exact ⟨rfl, rfl⟩

theorem afterFind_pending (selection : Selection) (found : Bool) :
    (afterFind selection found).pending = some false ∧
      (afterFind selection found).outside = false := by
  unfold afterFind
  split_ifs
  · exact ⟨rfl, rfl⟩
  · exact afterCheck_pending selection found

theorem Sound.advance (h : s.Sound) {b : Bool} (hb : s.pc.pending = some b)
    (hp : pc.pending = some b ∨ pc.pending = none) (hc : ∀ i ∈ s.pc.children, i ∈ pc.children)
    (ho : pc.outside = false) : s.Keeps { supervisor := s.goto pc, replies } := by
  refine .quiet (h.goto (fun b' hb' => ?_) hc fun hout => ?_) rfl
  · rcases hp with hp | hp
    · exact h.pending b' (hb.trans (hp.symm.trans hb'))
    · rw [hp] at hb'; cases hb'
  · rw [ho] at hout; cases hout

theorem prepareStep_keeps (h : s.Sound) (hpc : s.pc = pc)
    (hs : s.prepareStep replies pc l = some n) : s.Keeps n := by
  have hp := h.pending
  rw [hpc] at hp
  -- no GUI process depends on the point
  have hstay : ∀ {pc' : Pc}, s.pc.children = [] → ∀ i ∈ s.pc.children, i ∈ pc'.children := by
    intro pc' hnil i hi
    rw [hnil] at hi; cases hi
  have hgo : ∀ {b : Bool} {pc' : Pc} {r : List Reply}, pc.pending = some b → pc.children = [] →
      pc'.pending = some b ∨ pc'.pending = none → pc'.outside = false →
      s.Keeps { supervisor := s.goto pc', replies := r } := by
    intro b pc' r hb hnil hb' ho
    exact h.advance (by rw [hpc]; exact hb) hb' (hstay (by rw [hpc]; exact hnil)) ho
  unfold prepareStep at hs
  split at hs
  · cases hs
    exact hgo rfl rfl (Or.inl rfl) rfl
  · cases hs
    exact hgo rfl rfl (Or.inl (afterFind_pending _ _).1) (afterFind_pending _ _).2
  · next selection =>
    cases hs
    have hmoved : (s.goto (.installerRead selection)).Sound :=
      h.goto hp (hstay (by rw [hpc]; rfl)) (by simp [Pc.outside])
    refine .wrote hmoved ?_
    rw [hp false rfl, show (s.goto (.installerRead selection)).pending = false from hp false rfl]
    rfl
  · next selection available =>
    -- whatever was read, the next point has the same `pending`
    have hnext : ∀ {r : List Reply}, s.Keeps
        { supervisor := s.goto (if available then afterCheck selection false
            else .runtimeCheck selection), replies := r } := by
      intro r
      split_ifs
      · exact hgo rfl rfl (Or.inl (afterCheck_pending _ _).1) (afterCheck_pending _ _).2
      · exact hgo rfl rfl (Or.inl rfl) rfl
    dsimp only at hs
    split at hs
    · cases hs
    · obtain ⟨-, rfl⟩ := Option.ite_some_none_eq_some.mp hs
      exact hnext
    · cases hs
      exact hnext
  · cases hs
    exact hgo rfl rfl (Or.inl (afterCheck_pending _ _).1) (afterCheck_pending _ _).2
  · cases hs
    exact hgo rfl rfl (Or.inl rfl) rfl
  · next found =>
    cases hs
    refine .wrote ⟨fun b hb => Option.some.inj hb, fun i hi => ?_, fun hout => by cases hout⟩ ?_
    · exact (h.owned i hi).imp_right (Or.imp_right (Or.imp_right (hstay (by rw [hpc]; rfl) i)))
    · rw [hp false rfl]
      rfl
  · obtain ⟨-, hs⟩ := Option.ite_none_left_eq_some.mp hs
    cases hs
    exact hgo rfl rfl (Or.inl rfl) rfl
  · cases hs
    exact .quiet (h.startReplacement (hp true rfl) (by rw [hpc]; rfl)) rfl
  · cases hs
    exact hgo rfl rfl (Or.inl rfl) rfl
  · cases hs
    exact .quiet (h.startReplacement (hp true rfl) (by rw [hpc]; rfl)) rfl
  -- every failure goes to one point, whatever `pending` is
  all_goals first
    | (cases hs
       exact hgo rfl rfl (Or.inr rfl) rfl)
    | cases hs

theorem replaceStep_keeps (h : s.Sound) (hpc : s.pc = pc)
    (hs : s.replaceStep replies pc l = some n) : s.Keeps n := by
  have hp := h.pending
  rw [hpc] at hp
  -- the same GUI process is held, and the same switch is pending
  have hkeep : ∀ {b : Bool} {pc' : Pc} {r : List Reply}, pc.pending = some b →
      pc'.pending = some b → pc'.children = pc.children → pc'.outside = false →
      s.Keeps { supervisor := s.goto pc', replies := r } := by
    intro b pc' r hb hb' hc ho
    refine h.advance (by rw [hpc]; exact hb) (Or.inl hb') (fun i hi => ?_) ho
    rw [hpc] at hi
    rwa [hc]
  unfold replaceStep at hs
  split at hs
  all_goals try (cases hs; exact hkeep rfl rfl rfl rfl)
  · cases hs
    exact .quiet (h.join (by rw [hpc]; rfl) (fun _ hb => by cases hb) rfl
      fun hout => by cases hout) rfl
  · -- the replacement becomes the current GUI, and the old one is retired
    next child =>
    cases hs
    refine .wrote ⟨fun b hb => Option.some.inj hb, fun i hi => ?_, fun hout => by cases hout⟩ ?_
    · rcases h.owned i hi with hj | hcur | hret | hch
      · exact Or.inl hj
      · exact Or.inr (Or.inr (Or.inl (List.mem_append_right _ hcur)))
      · exact Or.inr (Or.inr (Or.inl (List.mem_append_left _ hret)))
      · rw [hpc] at hch
        exact Or.inr (Or.inl hch)
    · rw [hp true rfl]
      rfl
  · cases hs
    exact .quiet (h.join (by rw [hpc]; rfl) (fun _ hb => by cases hb) rfl
      fun hout => by cases hout) rfl
  · -- the switch that is pending is cancelled
    have hmoved : ∀ b, s.pending = b → b = false → (s.goto .replyError).Sound := fun b hb hf =>
      h.goto (fun b' hb' => (hb.trans hf).trans (Option.some.inj hb')) (by simp [hpc, Pc.children])
        (by simp [Pc.outside])
    by_cases hpend : s.pending = true
    · rw [if_pos hpend] at hs
      cases hs
      refine .wrote ⟨fun b hb => Option.some.inj hb, fun i hi => ?_, fun hout => by cases hout⟩ ?_
      · have howned := h.owned i hi
        rw [hpc] at howned
        exact howned
      · rw [hpend]
        rfl
    · rw [if_neg hpend] at hs
      cases hs
      exact .quiet (hmoved _ rfl (Bool.eq_false_iff.mpr hpend)) rfl
  · obtain ⟨-, rfl⟩ := Option.ite_some_none_eq_some.mp hs
    exact .quiet (h.close (by rw [hpc]; rfl)) rfl
  · cases hs

theorem orElse_cases {α : Type} {o : Option α} {f : Unit → Option α} {a : α}
    (h : o.orElse f = some a) : o = some a ∨ f () = some a := by
  cases o with
  | none => exact .inr h
  | some b => exact .inl h

theorem step_cases (hs : s.step replies l = some n) :
    n = { supervisor := { s with cancelled := true }, replies } ∨
      s.launchStep replies s.pc l = some n ∨ s.loopStep replies s.pc l = some n ∨
      s.prepareStep replies s.pc l = some n ∨ s.replaceStep replies s.pc l = some n := by
  unfold step at hs
  split at hs
  · exact .inl (Option.some.inj hs).symm
  · refine .inr ((orElse_cases hs).imp_right fun hs => ?_)
    exact (orElse_cases hs).imp_right orElse_cases

/-- **One step of the supervisor** keeps its account of the processes, and the byte that it writes
is in place. -/
theorem step_keeps (h : s.Sound) (hs : s.step replies l = some n) : s.Keeps n := by
  rcases step_cases hs with rfl | hs | hs | hs | hs
  · exact .quiet ⟨h.pending, h.owned, h.outside⟩ rfl
  · exact launchStep_keeps h rfl hs
  · exact loopStep_keeps h rfl hs
  · exact prepareStep_keeps h rfl hs
  · exact replaceStep_keeps h rfl hs

end Supervisor

/-! ### The service -/

namespace Serve

/-- The sessions that are in scope: the current one, and the one of a pending switch. -/
def Pc.held : Pc → List Uuid
  | .serving sessionId pending _ | .revoking sessionId pending _ => sessionId :: pending.toList
  | .revokingPending pending _ => pending.toList
  | .issue | .deciding _ | .returned _ => []

/-- Whether a switch is pending for the next control byte; none when there is no next one. -/
def Pc.expects : Pc → Option Bool
  | .issue => some false
  | .serving _ _ .issuePending => some true
  | .serving _ pending _ => some pending.isSome
  | .revoking _ _ result | .revokingPending _ result | .deciding result =>
    match result with
    | .ok (some .guiExited) | .ok (some .renderingRetry) => some false
    | _ => none
  | .returned _ => none

/-- The error that the service ends with. -/
def Pc.error : Pc → Option ServeError
  | .revoking _ _ (.error e) | .revokingPending _ (.error e) | .deciding (.error e)
  | .returned (.error e) => some e
  | _ => none

/-- The sessions that were issued and are not in scope were revoked, and are gone. -/
structure Ledger (v : Serve) (reg : Registry.State) : Prop where
  used : ∀ id ∈ v.issued, id ∈ reg.usedSessions
  issued : ∀ id ∈ v.pc.held, id ∈ v.issued
  distinct : v.pc.held.Nodup
  released : ∀ id ∈ v.issued, id ∉ v.pc.held → id ∈ v.revoked ∧ reg.sessions.lookup id = none
  /-- A session is issued for a switch only when there is none. -/
  ready : ∀ id pending, v.pc = .serving id pending .issuePending → pending = none

variable {v v' : Serve} {reg reg' : Registry.State}

theorem Ledger.quiet (h : v.Ledger reg) (hheld : v'.pc.held = v.pc.held)
    (hissued : v'.issued = v.issued) (hrevoked : v'.revoked = v.revoked)
    (hready : ∀ id pending, v'.pc = .serving id pending .issuePending → pending = none := by
      intro _ _ heq; cases heq) :
    v'.Ledger reg where
  used := by rw [hissued]; exact h.used
  issued := by rw [hheld, hissued]; exact h.issued
  distinct := by rw [hheld]; exact h.distinct
  released := by rw [hheld, hissued, hrevoked]; exact h.released
  ready := hready

theorem Ledger.registry (h : v.Ledger reg) {inst : Uuid} {l : Registry.Label}
    (hs : Registry.step inst reg l = some reg') : v.Ledger reg' where
  used id hid := (Registry.step_used hs).1 (h.used id hid)
  issued := h.issued
  distinct := h.distinct
  released id hid hheld := by
    obtain ⟨hrev, hgone⟩ := h.released id hid hheld
    exact ⟨hrev, Registry.step_gone hs (h.used id hid) hgone⟩
  ready := h.ready

theorem Ledger.revoke (h : v.Ledger reg) {id : Uuid} (hheld : v'.pc.held = v.pc.held.erase id)
    (hissued : v'.issued = v.issued) (hrevoked : v'.revoked = v.revoked ++ [id])
    (hready : ∀ id pending, v'.pc = .serving id pending .issuePending → pending = none := by
      intro _ _ heq; cases heq) :
    v'.Ledger { reg with sessions := (reg.sessions.revoke id).1 } where
  used := by rw [hissued]; exact h.used
  issued k hk := by
    rw [hheld] at hk
    rw [hissued]
    exact h.issued k (List.mem_of_mem_erase hk)
  distinct := by rw [hheld]; exact h.distinct.erase id
  released k hk hne := by
    rw [hissued] at hk
    rw [hheld] at hne
    rw [hrevoked, Registry.lookup_revoke]
    by_cases hkid : k = id
    · rw [if_pos hkid, hkid]
      exact ⟨List.mem_append_right _ (List.mem_singleton_self _), rfl⟩
    · rw [if_neg hkid]
      rw [List.mem_erase_of_ne hkid] at hne
      obtain ⟨hrev, hgone⟩ := h.released k hk hne
      exact ⟨List.mem_append_left _ hrev, hgone⟩
  ready := hready

theorem Ledger.issue (h : v.Ledger reg) {inst id : Uuid} {l : Registry.Label}
    (hs : Registry.step inst reg l = some reg') (hl : l.issued = some id)
    (hused : id ∈ reg'.usedSessions) (hheld : v'.pc.held = v.pc.held ++ [id])
    (hissued : v'.issued = v.issued ++ [id]) (hrevoked : v'.revoked = v.revoked)
    (hready : ∀ id pending, v'.pc = .serving id pending .issuePending → pending = none := by
      intro _ _ heq; cases heq) :
    v'.Ledger reg' where
  used := by
    rw [hissued]
    exact forall_mem_snoc (fun k hk => (Registry.step_used hs).1 (h.used k hk)) hused
  issued k hk := by
    rw [hheld] at hk
    rw [hissued]
    rcases List.mem_append.mp hk with hk | hk
    · exact List.mem_append_left _ (h.issued k hk)
    · exact List.mem_append_right _ hk
  distinct := by
    have hnew : id ∉ v.pc.held := fun hid =>
      (Registry.step_used hs).2 id hl (h.used id (h.issued id hid))
    rw [hheld]
    exact nodup_snoc h.distinct hnew
  released k hk hne := by
    rw [hheld, List.mem_append, not_or] at hne
    rw [hissued, List.mem_append, or_iff_left hne.2] at hk
    rw [hrevoked]
    obtain ⟨hrev, hgone⟩ := h.released k hk hne.1
    exact ⟨hrev, Registry.step_gone hs (h.used k hk) hgone⟩
  ready := hready

/-- The service expects no more than before, and its error, if it is new, is not about the state of
a switch. -/
structure Pc.Follows (pc' pc : Pc) : Prop where
  expects : ∀ b, pc'.expects = some b → pc.expects = some b
  error : ∀ e, pc'.error = some e →
    pc.error = some e ∨ e ≠ .alreadyPending ∧ e ≠ .noSwitchPending

theorem Pc.Follows.ends {pc pc' : Pc} (hx : pc'.expects = none)
    (he : ∀ e, pc'.error = some e → e ≠ .alreadyPending ∧ e ≠ .noSwitchPending) :
    pc'.Follows pc :=
  ⟨fun b hb => by rw [hx] at hb; (cases hb), fun e hb => Or.inr (he e hb)⟩

theorem Pc.Follows.fails {pc pc' : Pc} {e : ServeError} (hx : pc'.expects = none)
    (he : pc'.error = some e) (hne : e ≠ .alreadyPending ∧ e ≠ .noSwitchPending) :
    pc'.Follows pc := by
  refine .ends hx fun e' he' => ?_
  obtain rfl := Option.some.inj (he.symm.trans he')
  exact hne

theorem issued?_keeps (h : v.Ledger reg) {inst id : Uuid} {now secret : ℕ} {version : String}
    {uid : Option ℕ} {available : Bool} {n : Next}
    (hs : Registry.step inst reg (.issue now version uid id secret available) = some reg')
    (hn : v.issued? (reg.sessions.issue now version uid id secret available).2 reg'.sessions =
      some n) :
    n.sessions = reg'.sessions ∧ n.serve.Ledger reg' ∧ n.serve.pc.Follows v.pc := by
  have hused : id ∈ reg'.usedSessions := by
    simp only [Registry.step, Option.ite_none_left_eq_some, Option.some.injEq] at hs
    obtain ⟨-, rfl⟩ := hs
    exact Finset.mem_insert_self _ _
  have hid : ∀ k, (reg.sessions.issue now version uid id secret available).2 = .ok k → k = id := by
    intro k hk
    unfold Service.Registry.Sessions.issue at hk
    dsimp only at hk
    split_ifs at hk
    exact (Except.ok.inj hk).symm
  have hquiet := h.registry hs
  unfold issued? at hn
  split at hn
  · next k hpc hres =>
    cases hn
    obtain rfl := hid k hres
    refine ⟨rfl, h.issue hs rfl hused (by rw [hpc]; rfl) rfl rfl, ?_⟩
    rw [hpc]; exact ⟨fun b hb => hb, fun e he => by cases he⟩
  · next e hpc hres =>
    cases hn
    exact ⟨rfl, hquiet.quiet (by rw [hpc]; rfl) rfl rfl,
      .fails rfl rfl ⟨by simp, by simp⟩⟩
  · next sessionId pending k hpc hres =>
    cases hn
    obtain rfl := hid k hres
    obtain rfl := h.ready _ _ hpc
    refine ⟨rfl, h.issue hs rfl hused (by rw [hpc]; rfl) rfl rfl, ?_⟩
    rw [hpc]; exact ⟨fun b hb => hb, fun e he => by cases he⟩
  · next sessionId pending e hpc hres =>
    cases hn
    exact ⟨rfl, hquiet.quiet (by rw [hpc]; rfl) rfl rfl,
      .fails rfl rfl ⟨by simp, by simp⟩⟩
  · cases hn

theorem sent_keeps (h : v.Ledger reg) {installer ok : Bool} {n : Next}
    (hn : v.sent reg.sessions installer ok = some n) :
    n.sessions = reg.sessions ∧ n.serve.Ledger reg ∧ n.serve.pc.Follows v.pc := by
  unfold sent at hn
  split at hn
  · next sessionId pending point hpc =>
    obtain ⟨hpoint, hn⟩ := Option.ite_none_left_eq_some.mp hn
    rw [not_or] at hpoint
    split_ifs at hn <;> cases hn
    · exact ⟨rfl, h.quiet (by rw [hpc]; rfl) rfl rfl,
        .fails rfl rfl ⟨by simp, by simp⟩⟩
    · refine ⟨rfl, h.quiet (by rw [hpc]; rfl) rfl rfl, ?_⟩
      rw [hpc]
      refine ⟨fun b hb => ?_, fun e he => by cases he⟩
      cases point with
      | issuePending => exact absurd rfl hpoint.2
      | _ => exact hb
  · cases hn

theorem interrupt_keeps (h : v.Ledger reg) {result : Except ServeError (Option Control)}
    {reading : Bool} {n : Next} (hr : result = .ok none ∨ result = .error .pipe)
    (hn : v.interrupt reg.sessions result reading = some n) :
    n.sessions = reg.sessions ∧ n.serve.Ledger reg ∧ n.serve.pc.Follows v.pc := by
  unfold interrupt at hn
  split at hn
  · next sessionId pending point hpc =>
    obtain ⟨-, hn⟩ := Option.ite_none_left_eq_some.mp hn
    cases hn
    refine ⟨rfl, h.quiet (by rw [hpc]; rfl) rfl rfl, ?_⟩
    rcases hr with rfl | rfl
    · exact .ends rfl fun e he => by cases he
    · exact .fails rfl rfl ⟨by simp, by simp⟩
  · cases hn

theorem settle_keeps (h : v.Ledger reg) {requested : Bool} {n : Next}
    (hn : v.settle reg.sessions requested = some n) :
    n.serve.Ledger { reg with sessions := n.sessions } ∧ n.serve.pc.Follows v.pc := by
  unfold settle at hn
  split at hn
  · next sessionId pending result hpc =>
    cases hn
    refine ⟨h.revoke ?_ rfl rfl, ?_⟩
    · rw [hpc]
      exact (List.erase_cons_head ..).symm
    · rw [hpc]
      exact ⟨fun b hb => hb, fun e he => Or.inl (by cases result <;> exact he)⟩
  · next result hpc =>
    cases hn
    refine ⟨h.quiet (by rw [hpc]; rfl) rfl rfl, ?_⟩
    rw [hpc]
    exact ⟨fun b hb => hb, fun e he => Or.inl (by cases result <;> exact he)⟩
  · next replacement result hpc =>
    cases hn
    refine ⟨h.revoke ?_ rfl rfl, ?_⟩
    · rw [hpc]
      exact (List.erase_cons_head ..).symm
    · rw [hpc]
      exact ⟨fun b hb => hb, fun e he => Or.inl (by cases result <;> exact he)⟩
  -- the result decides, and nothing is in scope
  · next e hpc =>
    cases hn
    refine ⟨h.quiet (by rw [hpc]; rfl) rfl rfl, ?_⟩
    rw [hpc]
    exact ⟨fun b hb => (by cases hb), fun e he => Or.inl he⟩
  · next hpc =>
    cases hn
    refine ⟨h.quiet (by rw [hpc]; rfl) rfl rfl, ?_⟩
    exact .ends rfl fun e he => by cases he
  · next hpc =>
    cases hn
    cases requested with
    | true =>
      refine ⟨h.quiet (by rw [hpc]; rfl) rfl rfl, ?_⟩
      rw [hpc]
      exact ⟨fun b hb => hb, fun e he => by cases he⟩
    | false =>
      refine ⟨h.quiet (by rw [hpc]; rfl) rfl rfl, ?_⟩
      exact .ends rfl fun e he => by cases he
  · next hpc =>
    split_ifs at hn <;> cases hn
    · exact ⟨h.quiet (by rw [hpc]; rfl) rfl rfl,
        .fails rfl rfl ⟨by simp, by simp⟩⟩
    · refine ⟨h.quiet (by rw [hpc]; rfl) rfl rfl, ?_⟩
      rw [hpc]
      exact ⟨fun b hb => hb, fun e he => by cases he⟩
  · next hpc =>
    cases hn
    exact ⟨h.quiet (by rw [hpc]; rfl) rfl rfl,
      .fails rfl rfl ⟨by simp, by simp⟩⟩
  · cases hn

/-- A control byte that is in place is handled without an error, and the next one is expected as the
automaton says. -/
theorem receive_keeps (h : v.Ledger reg) {sessionId : Uuid} {pending : Option Uuid}
    (hpc : v.pc = .serving sessionId pending .read) {c : Control} {b : Bool}
    (hc : c.next pending.isSome = some b) {n : Next}
    (hn : v.receive reg.sessions sessionId pending c = n) :
    n.serve.Ledger { reg with sessions := n.sessions } ∧
      (∀ b', n.serve.pc.expects = some b' → b' = b) ∧ n.serve.pc.error = none := by
  have hdistinct := h.distinct
  rw [hpc] at hdistinct
  cases pending with
  | none =>
    cases c <;> simp only [Control.next, Option.isSome_none, Option.some.injEq, reduceCtorEq] at hc
    all_goals
      subst hc hn
      refine ⟨h.quiet (by rw [hpc]; rfl) rfl rfl ?_, fun b' hb => (Option.some.inj hb).symm, rfl⟩
      intro _ _ heq
      cases heq
    rfl
  | some replacement =>
    cases c <;> simp only [Control.next, Option.isSome_some, Option.some.injEq, reduceCtorEq] at hc
    all_goals subst hc hn
    · refine ⟨h.revoke ?_ rfl rfl,
        fun b' hb => (Option.some.inj hb).symm, rfl⟩
      rw [hpc]
      exact (List.erase_cons_head ..).symm
    · refine ⟨h.revoke ?_ rfl rfl,
        fun b' hb => (Option.some.inj hb).symm, rfl⟩
      have hne : sessionId ≠ replacement := by simpa [Pc.held] using hdistinct
      simp [receive, hpc, Pc.held, hne]

end Serve

/-! ### The composition -/

structure InStep (s : State) : Prop where
  sound : s.supervisor.Sound
  ledger : s.serve.Ledger s.registry
  /-- What was read is the beginning of what was written. -/
  stream : s.written = s.read ++ s.wire
  supervisor : follow false s.written = some s.supervisor.pending
  service : ∀ b, s.serve.pc.expects = some b → follow false s.read = some b
  answers : ∀ e, s.serve.pc.error = some e → e ≠ .alreadyPending ∧ e ≠ .noSwitchPending

variable {cfg : Config} {s s' : State}

theorem serveStep_receive (hs : serveStep cfg s .receive = some s') :
    ∃ sessionId pending c wire, s.serve.pc = .serving sessionId pending .read ∧
      s.wire = c :: wire ∧
      s' = { s.served (s.serve.receive s.registry.sessions sessionId pending c) with
        wire, read := s.read ++ [c] } := by
  simp only [serveStep] at hs
  split at hs
  · next sessionId pending c wire hpc hwire =>
    exact ⟨sessionId, pending, c, wire, hpc, hwire, (Option.some.inj hs).symm⟩
  · cases hs

theorem InStep.next_byte (h : InStep s) {sessionId : Uuid} {pending : Option Uuid} {c : Control}
    {wire : List Control} (hpc : s.serve.pc = .serving sessionId pending .read)
    (hwire : s.wire = c :: wire) :
    ∃ b, c.next pending.isSome = some b ∧ follow false (s.read ++ [c]) = some b := by
  have hread : follow false s.read = some pending.isSome := h.service _ (by rw [hpc]; rfl)
  have hwritten := h.supervisor
  rw [h.stream, hwire, List.append_cons, follow_append, Option.bind_eq_some_iff] at hwritten
  obtain ⟨b, hb, -⟩ := hwritten
  exact ⟨b, (follow_concat hread).symm.trans hb, hb⟩

theorem InStep.served (h : InStep s) {n : Serve.Next} {reg : Registry.State} {restart : Bool}
    (hl : n.serve.Ledger { reg with sessions := n.sessions })
    (hf : n.serve.pc.Follows s.serve.pc) :
    InStep { State.served { s with registry := reg } n with restart } where
  sound := h.sound
  ledger := hl
  stream := h.stream
  supervisor := h.supervisor
  service b hb := h.service b (hf.expects b hb)
  answers e he := (hf.error e he).elim (h.answers e) id

theorem InStep.serve (h : InStep s) {l : Serve.Label} (hs : serveStep cfg s l = some s') :
    InStep s' := by
  cases l with
  | issue now id secret available =>
    obtain ⟨reg, hreg, hs⟩ := Option.bind_eq_some_iff.mp hs
    obtain ⟨n, hn, rfl⟩ := Option.map_eq_some_iff.mp hs
    obtain ⟨hsess, hl, hf⟩ := Serve.issued?_keeps h.ledger hreg hn
    have hledger : n.serve.Ledger { reg with sessions := n.sessions } := by
      rw [hsess]
      exact hl
    exact h.served hledger hf
  | sent ok =>
    obtain ⟨n, hn, rfl⟩ := Option.map_eq_some_iff.mp hs
    obtain ⟨hsess, hl, hf⟩ := Serve.sent_keeps h.ledger hn
    exact h.served (by rw [hsess]; exact hl) hf
  | receive =>
    obtain ⟨sessionId, pending, c, wire, hpc, hwire, rfl⟩ := serveStep_receive hs
    obtain ⟨b, hnext, hread⟩ := h.next_byte hpc hwire
    obtain ⟨hl, hexp, herr⟩ := Serve.receive_keeps h.ledger hpc hnext rfl
    refine ⟨h.sound, hl, ?_, h.supervisor, fun b' hb' => ?_, fun e he => ?_⟩
    · exact h.stream.trans (by rw [hwire, List.append_cons])
    · rw [hexp b' hb']
      exact hread
    · exact absurd (herr.symm.trans he) (by simp)
  | eof =>
    obtain ⟨-, hs⟩ := Option.ite_none_right_eq_some.mp hs
    obtain ⟨n, hn, rfl⟩ := Option.map_eq_some_iff.mp hs
    obtain ⟨hsess, hl, hf⟩ := Serve.interrupt_keeps h.ledger (Or.inl rfl) hn
    exact h.served (by rw [hsess]; exact hl) hf
  | readError =>
    obtain ⟨n, hn, rfl⟩ := Option.map_eq_some_iff.mp hs
    obtain ⟨hsess, hl, hf⟩ := Serve.interrupt_keeps h.ledger (Or.inr rfl) hn
    exact h.served (by rw [hsess]; exact hl) hf
  | cancelled =>
    obtain ⟨n, hn, rfl⟩ := Option.map_eq_some_iff.mp hs
    obtain ⟨hsess, hl, hf⟩ := Serve.interrupt_keeps h.ledger (Or.inl rfl) hn
    exact h.served (by rw [hsess]; exact hl) hf
  | settle =>
    obtain ⟨n, hn, rfl⟩ := Option.map_eq_some_iff.mp hs
    obtain ⟨hl, hf⟩ := Serve.settle_keeps h.ledger hn
    exact h.served hl hf

theorem InStep.step (h : InStep s) {l : Label} (hs : Desktop.step cfg s l = some s') :
    InStep s' := by
  cases l with
  | supervisor l =>
    obtain ⟨n, hn, rfl⟩ := Option.map_eq_some_iff.mp hs
    obtain ⟨hsound, hwrote⟩ := Supervisor.step_keeps h.sound hn
    refine ⟨hsound, h.ledger, ?_, ?_, h.service, h.answers⟩
    · rw [h.stream, List.append_assoc]
    · rw [follow_append, h.supervisor]
      exact hwrote
  | serve l => exact h.serve hs
  | registry l =>
    obtain ⟨reg, hreg, rfl⟩ := Option.map_eq_some_iff.mp hs
    exact ⟨h.sound, h.ledger.registry hreg, h.stream, h.supervisor, h.service, h.answers⟩
  | requestRestart =>
    cases hs
    exact ⟨h.sound, h.ledger, h.stream, h.supervisor, h.service, h.answers⟩

theorem reachable_inStep (hs : (machine cfg).Reachable s) : InStep s := by
  refine hs.invariant (P := InStep) ?_ fun s l s' _ h hstep => h.step hstep
  refine ⟨⟨?_, ?_, fun _ => ⟨rfl, rfl⟩⟩, ⟨?_, ?_, List.nodup_nil, ?_, ?_⟩, rfl, rfl, ?_, ?_⟩
  · exact fun b hb => Option.some.inj hb
  · exact fun i hi => absurd hi (Nat.not_lt_zero i)
  · exact fun id hid => by cases hid
  · exact fun id hid => by cases hid
  · exact fun id hid => by cases hid
  · exact fun id pending heq => by cases heq
  · exact fun b hb => hb
  · exact fun e he => by cases he

/-! ### The ledger is exact -/

/-- `launch_with_switches` is not running. -/
def Supervisor.Pc.left : Supervisor.Pc → Bool
  | .awaitCredential | .resolving | .report _ | .returned => true
  | _ => false

theorem Supervisor.Sound.all_joined {s : Supervisor} (h : s.Sound) (hl : s.pc.left = true) :
    ∀ i < s.started, i ∈ s.joined := by
  have hpc : s.pc.outside = true ∧ s.pc.children = [] := by
    unfold Pc.left at hl
    split at hl
    case h_5 => cases hl
    all_goals next heq => rw [heq]; exact ⟨rfl, rfl⟩
  obtain ⟨hcur, hret⟩ := h.outside hpc.1
  intro i hi
  rcases h.owned i hi with hj | hc | hr | hch
  · exact hj
  · rw [hcur] at hc; cases hc
  · rw [hret] at hr; cases hr
  · rw [hpc.2] at hch; cases hch

theorem Serve.Pc.held_length (pc : Serve.Pc) : pc.held.length ≤ 2 := by
  have htwo : ∀ pending : Option Uuid, pending.toList.length ≤ 1 := by
    intro pending
    cases pending <;> simp
  cases pc with
  | serving sessionId pending point | revoking sessionId pending result =>
    exact Nat.succ_le_succ (htwo pending)
  | revokingPending pending result => exact Nat.le_succ_of_le (htwo pending)
  | issue | deciding result | returned result => exact Nat.zero_le 2

/-- The service revoked the session `id` and no other. -/
def RevokesExactly (s s' : State) (id : Uuid) : Prop :=
  s'.serve.revoked = s.serve.revoked ++ [id] ∧
    ∀ k, s'.registry.sessions.lookup k = if k = id then none else s.registry.sessions.lookup k

theorem InStep.switched (h : InStep s) {sessionId : Uuid} {pending : Option Uuid}
    (hpc : s.serve.pc = .serving sessionId pending .read)
    (hs : serveStep cfg s .receive = some s') :
    (s.wire.head? = some .switchCommit → ∃ replacement, pending = some replacement ∧
      replacement ≠ sessionId ∧ s'.serve.pc = .serving replacement none .read ∧
      RevokesExactly s s' sessionId) ∧
    (s.wire.head? = some .switchCancel → ∃ replacement, pending = some replacement ∧
      replacement ≠ sessionId ∧ s'.serve.pc = .serving sessionId none .read ∧
      RevokesExactly s s' replacement) := by
  have hdistinct := h.ledger.distinct
  rw [hpc] at hdistinct
  obtain ⟨sessionId', pending', c, wire, hpc', hwire, rfl⟩ := serveStep_receive hs
  obtain ⟨rfl, rfl, -⟩ := Serve.Pc.serving.inj (hpc.symm.trans hpc')
  obtain ⟨b, hnext, -⟩ := h.next_byte hpc hwire
  -- with either byte a switch is pending, for another session
  have hswitch : c = .switchCommit ∨ c = .switchCancel →
      ∃ replacement, pending = some replacement ∧ replacement ≠ sessionId := by
    intro hc
    cases pending with
    | none => rcases hc with rfl | rfl <;> cases hnext
    | some replacement =>
      exact ⟨replacement, rfl, by simpa [Serve.Pc.held, eq_comm] using hdistinct⟩
  rw [hwire]
  constructor
  · intro hc
    cases hc
    obtain ⟨replacement, rfl, hne⟩ := hswitch (Or.inl rfl)
    exact ⟨replacement, rfl, hne, rfl, rfl, Registry.lookup_revoke _ sessionId⟩
  · intro hc
    cases hc
    obtain ⟨replacement, rfl, hne⟩ := hswitch (Or.inr rfl)
    exact ⟨replacement, rfl, hne, rfl, rfl, Registry.lookup_revoke _ replacement⟩

/-- **Switch handover**: the supervisor writes rounds of switches, each closed by the exit or the
retry byte, so the service never finds a switch out of place; the sessions of the channel that are
live are the current and the pending one; a commit revokes the old session only and a cancel the
pending one only; when `serve` has returned, all of them were revoked; and when
`launch_with_switches` has returned, every GUI was joined. -/
theorem switch_handover (cfg : Config) {s : State} (hs : (machine cfg).Reachable s) :
    (∃ (rounds : List (List Control)) (last : List Control), s.written = rounds.flatten ++ last ∧
      (∀ r ∈ rounds, Reported r) ∧ ∃ v, Switches v ∧ last <+: v) ∧
    (∀ e, s.serve.pc.error = some e → e ≠ .alreadyPending ∧ e ≠ .noSwitchPending) ∧
    (∀ id ∈ s.serve.issued, s.registry.sessions.lookup id ≠ none → id ∈ s.serve.pc.held) ∧
    s.serve.pc.held.length ≤ 2 ∧
    (∀ s' sessionId pending, serveStep cfg s .receive = some s' →
      s.serve.pc = .serving sessionId pending .read →
      (s.wire.head? = some .switchCommit → ∃ replacement, pending = some replacement ∧
        replacement ≠ sessionId ∧ s'.serve.pc = .serving replacement none .read ∧
        RevokesExactly s s' sessionId) ∧
      (s.wire.head? = some .switchCancel → ∃ replacement, pending = some replacement ∧
        replacement ≠ sessionId ∧ s'.serve.pc = .serving sessionId none .read ∧
        RevokesExactly s s' replacement)) ∧
    (∀ result, s.serve.pc = .returned result → ∀ id ∈ s.serve.issued,
      id ∈ s.serve.revoked ∧ s.registry.sessions.lookup id = none) ∧
    (s.supervisor.pc.left = true → ∀ i < s.supervisor.started, i ∈ s.supervisor.joined) := by
  have h := reachable_inStep hs
  obtain ⟨rounds, last, hwritten, hrounds, hlast⟩ := rounds_of_follow h.supervisor
  refine ⟨⟨rounds, last, hwritten, hrounds, hlast.isPrefix⟩, h.answers, ?_,
    Serve.Pc.held_length _, fun s' sessionId pending hstep hpc => h.switched hpc hstep, ?_,
    h.sound.all_joined⟩
  · intro id hid hlive
    by_contra hheld
    exact hlive (h.ledger.released id hid hheld).2
  · intro result hpc id hid
    refine h.ledger.released id hid ?_
    rw [hpc]
    exact List.not_mem_nil

/-- The GUI is switched once; both GUIs exit, and the service ends. -/
theorem switch_handover_committed :
    ∃ s, (machine ⟨0, "v", 1000, true⟩).Reachable s ∧ s.serve.issued = [1, 2] ∧
      s.serve.revoked = [1, 2] ∧ s.supervisor.pc = .returned ∧ s.supervisor.started = 2 ∧
      s.written = [.switchBegin, .switchCommit, .guiExited] ∧
      ∀ i < s.supervisor.started, i ∈ s.supervisor.joined := by
  let labels : List Label :=
    [.serve (.issue 0 1 5 true), .serve (.sent true), .supervisor .proceed, .supervisor .proceed,
      .supervisor .accept, .supervisor (.select ⟨true, false⟩), .supervisor (.found true),
      .supervisor .proceed, .serve .receive, .serve (.issue 1 2 6 true), .serve (.sent true),
      .supervisor .proceed, .supervisor .proceed, .supervisor .proceed, .supervisor .proceed,
      .supervisor .proceed, .supervisor .proceed, .serve .receive,
      .supervisor (.exits .exited), .supervisor (.exits .exited), .supervisor .proceed,
      .supervisor .proceed, .serve .receive, .serve .settle, .serve .settle, .serve .settle,
      .supervisor (.fail false)]
  obtain ⟨s, hs, hrun⟩ := Machine.Reachable.of_run (M := machine ⟨0, "v", 1000, true⟩) labels
    (p := fun s => decide (s.serve.issued = [1, 2] ∧ s.serve.revoked = [1, 2] ∧
      s.supervisor.pc = .returned ∧ s.supervisor.started = 2 ∧
      s.written = [.switchBegin, .switchCommit, .guiExited]))
    (by decide +kernel)
  obtain ⟨hissued, hrevoked, hpc, hstarted, hwritten⟩ := of_decide_eq_true hrun
  have hjoined := (switch_handover _ hs).2.2.2.2.2.2 (by rw [hpc]; rfl)
  exact ⟨s, hs, hissued, hrevoked, hpc, hstarted, hwritten, hjoined⟩

/-! ### The rendering retry -/

theorem Supervisor.step_retry {s : Supervisor} {replies : List Reply} {l : Supervisor.Label}
    {n : Supervisor.Next} (hs : s.step replies l = some n) :
    n.wrote.toList.count .renderingRetry + s.recovered.toNat = n.supervisor.recovered.toNat := by
  rcases Supervisor.step_cases hs with rfl | h | h | h | h
  · exact Nat.zero_add _
  · unfold launchStep at h
    repeat' split at h
    all_goals cases h
    all_goals try exact Nat.zero_add _
    next hrecovered =>
      rw [Bool.eq_false_iff.mpr hrecovered]
      rfl
  all_goals
    simp only [loopStep, prepareStep, replaceStep] at h
    repeat' split at h
    all_goals cases h <;> exact Nat.zero_add _

/-- What a round has ended with. -/
def Serve.Pc.result : Serve.Pc → Except ServeError (Option Control)
  | .revoking _ _ result | .revokingPending _ result | .deciding result => result
  | .returned (.error e) => .error e
  | _ => .ok none

/-- No byte was refused. -/
def Accepted : Except ServeError (Option Control) → Prop
  | .ok c => ∀ b ∈ c, b = .guiExited ∨ b = .renderingRetry
  | .error e => e = .pipe ∨ ∃ e', e = .session e'

/-- The retry bytes that were read: the one that the session was renewed for, and the one that has
ended the round. -/
structure Renewed (s : State) : Prop where
  supervisor : s.written.count .renderingRetry = s.supervisor.recovered.toNat
  service : s.read.count .renderingRetry = s.serve.renderingRenewed.toNat +
    if s.serve.pc.result = .ok (some .renderingRetry) then 1 else 0
  accepted : Accepted s.serve.pc.result

theorem Renewed.serve (h : Renewed s) (hin : InStep s) {l : Serve.Label}
    (hs : serveStep cfg s l = some s') : Renewed s' := by
  obtain ⟨hsupervisor, hservice, haccepted⟩ := h
  have honce : s.read.count .renderingRetry ≤ 1 := by
    have hcount := hsupervisor
    rw [hin.stream, List.count_append] at hcount
    have hbound := Bool.toNat_le s.supervisor.recovered
    omega
  cases l
  case receive =>
    obtain ⟨sessionId, pending, c, wire, hpc, hwire, rfl⟩ := serveStep_receive hs
    -- a byte that is out of place was not written
    obtain ⟨b, hnext, -⟩ := hin.next_byte hpc hwire
    cases c <;> cases pending <;> try cases hnext
    all_goals constructor <;> simp_all [State.served, Serve.receive, Serve.Pc.result, Accepted]
  case' issue => obtain ⟨reg, -, hs⟩ := Option.bind_eq_some_iff.mp hs
  case' eof => obtain ⟨-, hs⟩ := Option.ite_none_right_eq_some.mp hs
  all_goals
    obtain ⟨n, hn, rfl⟩ := Option.map_eq_some_iff.mp hs
    simp only [Serve.issued?, Serve.sent, Serve.interrupt, Serve.settle] at hn
    repeat' split at hn
    all_goals cases hn
    all_goals constructor <;> simp_all [State.served, Serve.Pc.result, Accepted]

theorem reachable_renewed (hs : (machine cfg).Reachable s) : Renewed s := by
  refine hs.invariant (P := Renewed) ?_ fun s l s' hr h hstep => ?_
  · exact ⟨rfl, rfl, fun b hb => by cases hb⟩
  cases l with
  | supervisor l =>
    obtain ⟨n, hn, rfl⟩ := Option.map_eq_some_iff.mp hstep
    refine ⟨?_, h.service, h.accepted⟩
    rw [List.count_append, h.supervisor, ← Supervisor.step_retry hn, Nat.add_comm]
  | serve l => exact h.serve (reachable_inStep hr) hstep
  | registry l =>
    obtain ⟨reg, -, rfl⟩ := Option.map_eq_some_iff.mp hstep
    exact ⟨h.supervisor, h.service, h.accepted⟩
  | requestRestart =>
    cases hstep
    exact ⟨h.supervisor, h.service, h.accepted⟩

/-- **The service refuses no control byte.** The retry byte is written once at most, and `serve` fails
only if a pipe or the registry does. -/
theorem no_byte_refused (cfg : Config) {s : State} (hs : (machine cfg).Reachable s) :
    s.written.count .renderingRetry ≤ 1 ∧ ∀ e, s.serve.pc = .returned (.error e) →
      e = .pipe ∨ ∃ e', e = .session e' := by
  have h := reachable_renewed hs
  refine ⟨h.supervisor.trans_le (Bool.toNat_le _), fun e he => ?_⟩
  have haccepted := h.accepted
  rwa [he] at haccepted

/-- The GUI crashes once, and the pipe of the service breaks later. -/
theorem no_byte_refused_renewed :
    ∃ s, (machine ⟨0, "v", 1000, true⟩).Reachable s ∧ s.read = [.renderingRetry] ∧
      s.serve.revoked = [1, 2] ∧ s.written.count .renderingRetry ≤ 1 := by
  obtain ⟨s, hs, hrun⟩ := Machine.Reachable.of_run (M := machine ⟨0, "v", 1000, true⟩)
    [.serve (.issue 0 1 5 true), .serve (.sent true), .supervisor .proceed, .supervisor .proceed,
      .supervisor (.exits .crash), .supervisor .proceed, .supervisor .proceed, .serve .receive,
      .serve .settle, .serve .settle, .serve .settle, .serve (.issue 1 2 6 true),
      .serve (.sent false), .serve .settle, .serve .settle, .serve .settle]
    (p := fun s => decide (s.read = [.renderingRetry] ∧ s.serve.revoked = [1, 2]))
    (by decide +kernel)
  obtain ⟨hread, hrevoked⟩ := of_decide_eq_true hrun
  exact ⟨s, hs, hread, hrevoked, (no_byte_refused _ hs).1⟩

end GlobalProtect.Desktop
