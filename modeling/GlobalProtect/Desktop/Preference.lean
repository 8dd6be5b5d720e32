import GlobalProtect.Desktop.Handover

/-! # The saved preference

A switch request names a variant of the GUI. The replacement procedure saves that variant as the
user's preference once the replacement is ready, replies to the requester, and writes the commit
byte last. This file adds the preference to the supervisor and its service.

Up to the save, a request that fails changes nothing. If one of the two writes after it fails, the
replacement is stopped and the switch is cancelled, and the preference stays (`preference_kept`).
Otherwise the preference is that of the last request that was committed (`preference_committed`),
and in every run the GUI that is kept is the one of that request. -/

namespace GlobalProtect.Desktop

open Lib

inductive GuiVariant where
  | tauri
  | nsh
  deriving DecidableEq, Repr

def Selection.variant (selection : Selection) : GuiVariant :=
  if selection.nsh then .nsh else .tauri

/-- The desktop with the saved preference and the variant of the request that is processed.
`committed` and `owner` are histories: the variant of the last request that was committed and its
GUI, or what the supervisor was started with. -/
structure Chosen where
  desktop : State := {}
  preference : GuiVariant
  variant : GuiVariant := .tauri
  committed : GuiVariant
  owner : Option ℕ := none

/-- What a step of the supervisor at a point means for them. -/
def Chosen.track (c : Chosen) : Supervisor.Pc → Supervisor.Label → Chosen
  | .receive, .select selection => { c with variant := selection.variant }
  -- `save_preference` replaces the file as a whole, or fails
  | .save _, .proceed => { c with preference := c.variant }
  | .commit child, .proceed => { c with committed := c.variant, owner := some child }
  | .resolving, .proceed => { c with owner := some c.desktop.supervisor.started }
  | _, _ => c

def Chosen.step (cfg : Config) (c : Chosen) (l : Label) : Option Chosen :=
  (Desktop.step cfg c.desktop l).map fun desktop =>
    match l with
    | .supervisor l => { c.track c.desktop.supervisor.pc l with desktop }
    | _ => { c with desktop }

def chosen (cfg : Config) (initial : GuiVariant) : Machine Chosen Label where
  init := { preference := initial, committed := initial }
  step := Chosen.step cfg

namespace Supervisor

variable {s : Supervisor} {replies : List Reply} {l : Label} {n : Next} {child : ℕ}

/-- The preference is saved, and the request is not committed yet. -/
def Pc.saved : Pc → Bool
  | .reply _ | .commit _ => true
  | _ => false

/-- A switch request is being processed. -/
def Pc.processing : Pc → Bool
  | .awaitCredential | .resolving | .running | .closing _ _ | .report _ | .returned => false
  | _ => true

theorem Pc.processing_of_saved {pc : Pc} (h : pc.saved = true) : pc.processing = true := by
  cases pc with
  | reply child => rfl
  | commit child => rfl
  | _ => cases h

/-- The steps with an effect on what is saved, committed or owned, and the failures in between. -/
def decisive : Pc → Label → Bool
  | .save _, .proceed | .reply _, .proceed | .commit _, .proceed | .resolving, .proceed => true
  | .reply _, .fail _ | .commit _, .fail _ => true
  | _, _ => false

theorem decisive_cases {pc : Pc} {l : Label} (h : decisive pc l = true) :
    (∃ child, pc = .save child ∧ l = .proceed) ∨ (∃ child, pc = .reply child ∧ l = .proceed) ∨
      (∃ child, pc = .commit child ∧ l = .proceed) ∨ pc = .resolving ∧ l = .proceed ∨
      ∃ child crash, (pc = .reply child ∨ pc = .commit child) ∧ l = .fail crash := by
  unfold decisive at h
  split at h
  · exact .inl ⟨_, rfl, rfl⟩
  · exact .inr (.inl ⟨_, rfl, rfl⟩)
  · exact .inr (.inr (.inl ⟨_, rfl, rfl⟩))
  · exact .inr (.inr (.inr (.inl ⟨rfl, rfl⟩)))
  · exact .inr (.inr (.inr (.inr ⟨_, _, .inl rfl, rfl⟩)))
  · exact .inr (.inr (.inr (.inr ⟨_, _, .inr rfl, rfl⟩)))
  · cases h

/-- Another step does not get between the save and the commit, and takes up no other GUI. -/
structure Indifferent (s : Supervisor) (n : Next) : Prop where
  saved : n.supervisor.pc.saved = s.pc.saved
  current : n.supervisor.current = s.current ∨ n.supervisor.current = none

theorem afterCheck_saved (selection : Selection) (found : Bool) :
    (afterCheck selection found).saved = false := by
  unfold afterCheck
  split_ifs <;> rfl

theorem afterFind_saved (selection : Selection) (found : Bool) :
    (afterFind selection found).saved = false := by
  unfold afterFind
  split_ifs
  · rfl
  · exact afterCheck_saved selection found

theorem Indifferent.goto {pc pc' : Pc} {wrote : Option Control} (hpc : s.pc = pc)
    (h : pc.saved = false) (h' : pc'.saved = false) :
    Indifferent s { supervisor := s.goto pc', wrote, replies } :=
  ⟨by rw [hpc, h]; exact h', .inl rfl⟩

theorem launchStep_indifferent {pc : Pc} (hpc : s.pc = pc) (hd : decisive pc l = false)
    (hs : s.launchStep replies pc l = some n) : Indifferent s n := by
  unfold launchStep at hs
  split at hs
  case h_3 => cases hd
  all_goals
    repeat' split at hs
    all_goals cases hs
    all_goals exact ⟨by rw [hpc]; rfl, .inl rfl⟩

theorem loopStep_indifferent {pc : Pc} (hpc : s.pc = pc)
    (hs : s.loopStep replies pc l = some n) : Indifferent s n := by
  unfold loopStep at hs
  split at hs
  case h_6 => cases hs
  all_goals cases hs
  · exact ⟨by rw [hpc]; rfl, .inr rfl⟩
  · exact ⟨by rw [hpc]; rfl, .inl rfl⟩
  · exact ⟨by rw [hpc]; rfl, .inr rfl⟩
  · exact ⟨by rw [hpc]; rfl, .inl rfl⟩
  · exact ⟨by rw [hpc]; rfl, .inl rfl⟩

theorem prepareStep_indifferent {pc : Pc} (hpc : s.pc = pc)
    (hs : s.prepareStep replies pc l = some n) : Indifferent s n := by
  unfold prepareStep at hs
  split at hs
  case h_2 selection found =>
    cases hs
    exact .goto hpc rfl (afterFind_saved selection found)
  case h_4 selection available =>
    repeat' split at hs
    all_goals cases hs
    all_goals first
      | exact .goto hpc rfl (afterCheck_saved selection false)
      | exact .goto hpc rfl rfl
  case h_5 selection =>
    cases hs
    exact .goto hpc rfl (afterCheck_saved selection false)
  all_goals
    repeat' split at hs
    all_goals cases hs
    all_goals exact ⟨by rw [hpc]; rfl, .inl rfl⟩

theorem replaceStep_indifferent {pc : Pc} (hpc : s.pc = pc) (hd : decisive pc l = false)
    (hs : s.replaceStep replies pc l = some n) : Indifferent s n := by
  unfold replaceStep at hs
  split at hs
  all_goals
    repeat' split at hs
    all_goals cases hs
    all_goals first
      | exact ⟨by rw [hpc]; rfl, .inl rfl⟩
      | exact ⟨by rw [hpc]; rfl, .inr rfl⟩
      | cases hd

theorem step_indifferent (hd : decisive s.pc l = false) (hs : s.step replies l = some n) :
    Indifferent s n := by
  rcases step_cases hs with rfl | hs | hs | hs | hs
  · exact ⟨rfl, .inl rfl⟩
  · exact launchStep_indifferent rfl hd hs
  · exact loopStep_indifferent rfl hs
  · exact prepareStep_indifferent rfl hs
  · exact replaceStep_indifferent rfl hd hs

theorem step_save (hpc : s.pc = .save child) (hs : s.step replies .proceed = some n) :
    n.supervisor = s.goto (.reply child) := by
  simp only [step, hpc, launchStep, loopStep, prepareStep, replaceStep] at hs
  cases hs
  rfl

theorem step_reply (hpc : s.pc = .reply child) (hs : s.step replies .proceed = some n) :
    n.supervisor = s.goto (.commit child) := by
  simp only [step, hpc, launchStep, loopStep, prepareStep, replaceStep] at hs
  cases hs
  rfl

theorem step_commit (hpc : s.pc = .commit child) (hs : s.step replies .proceed = some n) :
    n.supervisor.pc = .running ∧ n.supervisor.current = some child := by
  simp only [step, hpc, launchStep, loopStep, prepareStep, replaceStep] at hs
  cases hs
  exact ⟨rfl, rfl⟩

theorem step_launch (hpc : s.pc = .resolving) (hs : s.step replies .proceed = some n) :
    n.supervisor.pc = .running ∧ n.supervisor.current = some s.started := by
  simp only [step, hpc, launchStep] at hs
  cases hs
  exact ⟨rfl, rfl⟩

theorem step_lost {crash : Bool} (hpc : s.pc = .reply child ∨ s.pc = .commit child)
    (hs : s.step replies (.fail crash) = some n) : n.supervisor = s.goto (.abort child) := by
  rcases hpc with hpc | hpc <;>
  · simp only [step, hpc, launchStep, loopStep, prepareStep, replaceStep] at hs
    cases hs
    rfl

end Supervisor

/-! ### The invariants -/

variable {cfg : Config} {initial : GuiVariant} {c c' : Chosen}

open Supervisor

theorem chosen_supervisor {l : Supervisor.Label} (hs : c.step cfg (.supervisor l) = some c') :
    ∃ n, c.desktop.supervisor.step c.desktop.replies l = some n ∧
      c'.desktop.supervisor = n.supervisor ∧
      c' = { c.track c.desktop.supervisor.pc l with desktop := c'.desktop } := by
  obtain ⟨desktop, hd, rfl⟩ := Option.map_eq_some_iff.mp hs
  obtain ⟨n, hn, rfl⟩ := Option.map_eq_some_iff.mp hd
  exact ⟨n, hn, rfl, rfl⟩

theorem serveStep_supervisor {s s' : State} {l : Serve.Label} (hs : serveStep cfg s l = some s') :
    s'.supervisor = s.supervisor := by
  cases l with
  | issue now id secret available =>
    obtain ⟨registry, -, hs⟩ := Option.bind_eq_some_iff.mp hs
    obtain ⟨n, -, rfl⟩ := Option.map_eq_some_iff.mp hs
    rfl
  | receive =>
    obtain ⟨_, _, _, _, _, _, rfl⟩ := serveStep_receive hs
    rfl
  | eof =>
    obtain ⟨-, hs⟩ := Option.ite_none_right_eq_some.mp hs
    obtain ⟨n, -, rfl⟩ := Option.map_eq_some_iff.mp hs
    rfl
  | _ =>
    obtain ⟨n, -, rfl⟩ := Option.map_eq_some_iff.mp hs
    rfl

theorem chosen_other {l : Label} (hl : ∀ l', l ≠ .supervisor l') (hs : c.step cfg l = some c') :
    c'.desktop.supervisor = c.desktop.supervisor ∧ c' = { c with desktop := c'.desktop } := by
  obtain ⟨desktop, hd, rfl⟩ := Option.map_eq_some_iff.mp hs
  cases l with
  | supervisor l => exact absurd rfl (hl l)
  | serve l => exact ⟨serveStep_supervisor hd, rfl⟩
  | registry l =>
    obtain ⟨registry, -, rfl⟩ := Option.map_eq_some_iff.mp hd
    exact ⟨rfl, rfl⟩
  | requestRestart =>
    cases hd
    exact ⟨rfl, rfl⟩

/-- A step that is not decisive saves and commits nothing. -/
theorem track_indifferent {pc : Pc} {l : Supervisor.Label} (hd : decisive pc l = false) :
    (c.track pc l).preference = c.preference ∧ (c.track pc l).committed = c.committed ∧
      (c.track pc l).owner = c.owner ∧ (pc.saved = true → (c.track pc l).variant = c.variant) := by
  unfold Chosen.track
  split
  · exact ⟨rfl, rfl, rfl, fun h => by cases h⟩
  · cases hd
  · cases hd
  · cases hd
  · exact ⟨rfl, rfl, rfl, fun _ => rfl⟩

/-- The GUI that is kept is the one of the last request that was committed, or of the start. -/
def Owned (c : Chosen) : Prop := ∀ gui ∈ c.desktop.supervisor.current, c.owner = some gui

/-- Between the save and the commit the preference is the requested variant; otherwise it is that of
the last request that was committed. -/
def Saved (c : Chosen) : Prop :=
  c.preference = if c.desktop.supervisor.pc.saved then c.variant else c.committed

theorem Owned.step {l : Label} (h : Owned c) (hs : c.step cfg l = some c') : Owned c' := by
  by_cases hl : ∃ l', l = .supervisor l'
  · obtain ⟨l, rfl⟩ := hl
    obtain ⟨n, hn, hsup, hc'⟩ := chosen_supervisor hs
    have howner : c'.owner = (c.track c.desktop.supervisor.pc l).owner := by rw [hc']
    unfold Owned
    rw [hsup, howner]
    cases hd : decisive c.desktop.supervisor.pc l with
    | false =>
      rw [(track_indifferent hd).2.2.1]
      rcases (step_indifferent hd hn).current with hcur | hcur <;> rw [hcur]
      · exact h
      · exact fun _ hg => by cases hg
    | true =>
      rcases decisive_cases hd with ⟨child, hpc, rfl⟩ | ⟨child, hpc, rfl⟩ | ⟨child, hpc, rfl⟩ |
        ⟨hpc, rfl⟩ | ⟨child, crash, hpc, rfl⟩
      · rw [step_save hpc hn, hpc]
        exact h
      · rw [step_reply hpc hn, hpc]
        exact h
      · rw [(step_commit hpc hn).2, hpc]
        exact fun _ hg => hg
      · rw [(step_launch hpc hn).2, hpc]
        exact fun _ hg => hg
      · rw [step_lost hpc hn]
        rcases hpc with hpc | hpc <;> rw [hpc] <;> exact h
  · obtain ⟨hsup, hc'⟩ := chosen_other (fun l' heq => hl ⟨l', heq⟩) hs
    unfold Owned
    rw [hsup, hc']
    exact h

/-- The steps of the runs considered: a reply or a commit that fails was for the variant that was
preferred already. -/
def unchanged (c : Chosen) : Label → Bool
  | .supervisor (.fail _) => !c.desktop.supervisor.pc.saved || c.variant = c.committed
  | _ => true

theorem Saved.step {l : Label} (h : Saved c) (hl : unchanged c l = true)
    (hs : c.step cfg l = some c') : Saved c' := by
  unfold Saved at h ⊢
  by_cases hsuper : ∃ l', l = .supervisor l'
  · obtain ⟨l, rfl⟩ := hsuper
    obtain ⟨n, hn, hsup, hc'⟩ := chosen_supervisor hs
    have hpref : c'.preference = (c.track c.desktop.supervisor.pc l).preference := by rw [hc']
    have hvariant : c'.variant = (c.track c.desktop.supervisor.pc l).variant := by rw [hc']
    have hcommitted : c'.committed = (c.track c.desktop.supervisor.pc l).committed := by rw [hc']
    rw [hsup, hpref, hvariant, hcommitted]
    cases hd : decisive c.desktop.supervisor.pc l with
    | false =>
      obtain ⟨hp, hc, -, hv⟩ := track_indifferent (c := c) hd
      rw [(step_indifferent hd hn).saved, hp, hc, h]
      by_cases hsaved : c.desktop.supervisor.pc.saved = true
      · rw [if_pos hsaved, if_pos hsaved, hv hsaved]
      · rw [if_neg hsaved, if_neg hsaved]
    | true =>
      rcases decisive_cases hd with ⟨child, hpc, rfl⟩ | ⟨child, hpc, rfl⟩ | ⟨child, hpc, rfl⟩ |
        ⟨hpc, rfl⟩ | ⟨child, crash, hpc, rfl⟩
      · rw [step_save hpc hn, hpc]
        rfl
      · rw [step_reply hpc hn, hpc]
        rw [hpc] at h
        exact h
      · rw [(step_commit hpc hn).1, hpc]
        rw [hpc] at h
        exact h
      · rw [(step_launch hpc hn).1, hpc]
        rw [hpc] at h
        exact h
      · -- the write after the save has failed
        have hsaved : c.desktop.supervisor.pc.saved = true := by
          rcases hpc with hpc | hpc <;> rw [hpc] <;> rfl
        have hsame : c.variant = c.committed := by simpa [unchanged, hsaved] using hl
        rw [if_pos hsaved, hsame] at h
        rw [step_lost hpc hn]
        rcases hpc with hpc | hpc <;> rw [hpc] <;> exact h
  · obtain ⟨hsup, hc'⟩ := chosen_other (fun l' heq => hsuper ⟨l', heq⟩) hs
    rw [hsup, hc']
    exact h

/-- **The preference of the last commit**: in every run the GUI that is kept is the one of the last
request that was committed, or of the start. If no write after a save fails for a new variant, then
whenever no request is being processed, the preference is the variant of that request, or the
initial one. -/
theorem preference_committed (cfg : Config) (initial : GuiVariant) :
    (∀ c, (chosen cfg initial).Reachable c →
      ∀ gui ∈ c.desktop.supervisor.current, c.owner = some gui) ∧
    ∀ c, ((chosen cfg initial).guard unchanged).Reachable c →
      c.desktop.supervisor.pc.processing = false → c.preference = c.committed := by
  constructor
  · intro c h
    refine h.invariant (P := Owned) (fun _ hg => by cases hg) fun m l m' _ ih hs => ih.step hs
  · intro c h hidle
    have hsaved : Saved c := by
      refine Machine.Reachable.invariant (M := (chosen cfg initial).guard unchanged) (P := Saved)
        rfl (fun m l m' _ ih hs => ?_) h
      obtain ⟨hl, hs⟩ := Machine.guard_step.mp hs
      exact ih.step hl hs
    rw [hsaved]
    refine if_neg fun hs => ?_
    rw [Pc.processing_of_saved hs] at hidle
    cases hidle

/-- The GUI is started, and a request for the other variant comes as far as the replacement being
ready; then what `rest` says. -/
def switchRun (rest : List Supervisor.Label) : List Label :=
  [.serve (.issue 0 1 5 true), .serve (.sent true), .supervisor .proceed, .supervisor .proceed,
    .supervisor .accept, .supervisor (.select ⟨true, false⟩), .supervisor (.found true),
    .supervisor .proceed, .serve .receive, .serve (.issue 1 2 6 true), .serve (.sent true),
    .supervisor .proceed, .supervisor .proceed, .supervisor .proceed] ++ rest.map .supervisor

def exampleChosen : Machine Chosen Label := chosen ⟨0, "v", 1000, true⟩ .tauri

/-- A request that is committed. -/
theorem preference_committed_switched :
    (∃ c, exampleChosen.Reachable c ∧ c.desktop.supervisor.current = some 1 ∧ c.owner = some 1) ∧
    ∃ c, (exampleChosen.guard unchanged).Reachable c ∧ c.committed = .nsh ∧
      c.desktop.supervisor.pc = .running ∧ c.preference = .nsh := by
  constructor
  · obtain ⟨c, hc, hp⟩ := Machine.Reachable.of_run (M := exampleChosen)
      (switchRun [.proceed, .proceed, .proceed])
      (p := fun c => decide (c.desktop.supervisor.current = some 1)) (by decide +kernel)
    have hcurrent : c.desktop.supervisor.current = some 1 := of_decide_eq_true hp
    exact ⟨c, hc, hcurrent, (preference_committed _ _).1 c hc 1 hcurrent⟩
  · obtain ⟨c, hc, hp⟩ := Machine.Reachable.of_run (M := exampleChosen.guard unchanged)
      (switchRun [.proceed, .proceed, .proceed])
      (p := fun c => decide (c.committed = .nsh ∧ c.desktop.supervisor.pc = .running))
      (by decide +kernel)
    obtain ⟨hcommitted, hpc⟩ := of_decide_eq_true hp
    have hidle : c.desktop.supervisor.pc.processing = false := by rw [hpc]; rfl
    exact ⟨c, hc, hcommitted, hpc, ((preference_committed _ _).2 c hc hidle).trans hcommitted⟩

/-- The requester is gone when the replacement is ready: the old GUI is kept, no commit was written,
and the preference is the new variant. -/
theorem preference_kept :
    ∃ c, exampleChosen.Reachable c ∧ c.desktop.supervisor.pc = .running ∧
      c.desktop.supervisor.current = some 0 ∧
      c.desktop.written = [.switchBegin, .switchCancel] ∧ c.preference = .nsh := by
  obtain ⟨c, hc, hp⟩ := Machine.Reachable.of_run (M := exampleChosen)
    (switchRun [.proceed, .fail false, .exits .error, .proceed, .proceed])
    (p := fun c => decide (c.desktop.supervisor.pc = .running ∧
      c.desktop.supervisor.current = some 0 ∧
      c.desktop.written = [.switchBegin, .switchCancel] ∧ c.preference = .nsh)) (by decide +kernel)
  exact ⟨c, hc, of_decide_eq_true hp⟩

end GlobalProtect.Desktop
