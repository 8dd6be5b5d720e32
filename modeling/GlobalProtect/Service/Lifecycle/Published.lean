import Mathlib.Computability.RegularExpressions
import GlobalProtect.Service.Lifecycle.Effects

/-! # What is published for one attempt

The abstract view of one attempt is an automaton `track` over the history: an attempt comes up, goes
down and is finished, and what may be published depends on that and on whether a stop was accepted
or the token cancelled. `reachable_track` is the refinement: the history of every reachable state is
a run of the automaton of every attempt. The language of the published states and the temporal
consequences are then facts about the automaton alone. -/

namespace GlobalProtect.Service.Lifecycle

open Lib Api

/-! ### The language -/

inductive StateKind where
  | connecting
  | connected
  | disconnecting
  | disconnected
  | failed
  | reconnectRequired
  deriving DecidableEq, Repr

def kindOf : VpnState → StateKind
  | .connecting _ => .connecting
  | .connected _ => .connected
  | .disconnecting => .disconnecting
  | .disconnected => .disconnected
  | .failed _ => .failed
  | .reconnectRequired _ => .reconnectRequired

/-- `Connecting (Connecting | Connected)*`. -/
def upExpr : RegularExpression StateKind :=
  .comp (.char .connecting) (.star (.plus (.char .connecting) (.char .connected)))

/-- `(Connecting (Connecting | Connected)*)? Disconnecting*`. -/
def downExpr : RegularExpression StateKind :=
  .comp (.plus upExpr .epsilon) (.star (.char .disconnecting))

/-- `(Connecting (Connecting | Connected)*)? Disconnecting* (Disconnected | Failed |
ReconnectRequired)`. -/
def attemptExpr : RegularExpression StateKind :=
  .comp downExpr (.plus (.plus (.char .disconnected) (.char .failed)) (.char .reconnectRequired))

/-- The states published for the attempt with token `t`. -/
def publishedBy (t : ℕ) (log : List Entry) : List StateKind :=
  log.filterMap fun
    | .published (some owner) state => if owner = t then some (kindOf state) else none
    | _ => none

/-! ### The automaton of one attempt -/

inductive Stage where
  | fresh
  | up
  | down
  | finished
  deriving DecidableEq, Repr

/-- What the history says about one attempt. -/
structure Track where
  stage : Stage := .fresh
  stopped : Bool := false
  cancelled : Bool := false
  deriving DecidableEq, Repr

/-- What may be published next. -/
def Track.publish (k : Track) : StateKind → Option Track
  | .connecting => if k.stage = .fresh ∨ k.stage = .up then some { k with stage := .up } else none
  | .connected => if k.stage = .up ∧ k.stopped = false then some k else none
  | .disconnecting => if k.stage ≠ .finished then some { k with stage := .down } else none
  | .disconnected | .failed => if k.stage ≠ .finished then some { k with stage := .finished } else none
  | .reconnectRequired =>
    if k.stage ≠ .finished ∧ k.stopped = false ∧ k.cancelled = false then
      some { k with stage := .finished } else none

def trackStep (t : ℕ) (k : Track) : Entry → Option Track
  | .stopRequested u => some (if u = t then { k with stopped := true } else k)
  | .cancelled u => some (if u = t then { k with cancelled := true } else k)
  | .published (some u) state => if u = t then k.publish (kindOf state) else some k
  | .ended u _ => if u = t ∧ k.stage ≠ .finished then none else some k
  | _ => some k

/-- The automaton of the attempt with token `t`. -/
def track (t : ℕ) : Machine Track Entry where
  init := {}
  step := trackStep t

/-! ### The refinement -/

/-- How the automaton of the attempt `t` follows the core. -/
structure Follows (t : ℕ) (c : Core) (k : Track) : Prop where
  cancelled : k.cancelled = true ↔ t ∈ c.cancelled
  unused : c.fresh ≤ t → k.stage = .fresh ∧ k.stopped = false
  current : ∀ a, c.admissions.current = some a → a.cancellation = t →
    k.stopped = a.stopRequested ∧ k.stage ≠ .finished ∧
    (c.active = none → c.joining = none → k.stage = .fresh) ∧
    (c.active ≠ none → t ∉ c.cancelled → k.stage = .up)

/-- The log grew by a piece that the automaton can follow. -/
def Moves (t : ℕ) (k : Track) (c c' : Core) : Prop :=
  ∃ d k', c'.log = c.log ++ d ∧ (track t).run k d = some k' ∧ Follows t c' k'

variable {t : ℕ} {c c' : Core} {k : Track}

theorem run_track_one {e : Entry} : (track t).run k [e] = trackStep t k e := by
  simp [Machine.run, track]

theorem run_track_two {e e' : Entry} :
    (track t).run k [e, e'] = (trackStep t k e).bind fun k' => trackStep t k' e' := by
  simp [Machine.run, track]

theorem Follows.quiet (h : Follows t c k) {d : List Entry} (hd : c'.log = c.log ++ d)
    (hrun : (track t).run k d = some k) (hcan : t ∈ c'.cancelled ↔ t ∈ c.cancelled)
    (hf : c'.fresh = c.fresh)
    (hcur : ∀ a', c'.admissions.current = some a' → a'.cancellation = t →
      ∃ a, c.admissions.current = some a ∧ a.cancellation = t ∧
        a'.stopRequested = a.stopRequested)
    (hact : c'.active = none ↔ c.active = none) (hj : c'.joining = none ↔ c.joining = none) :
    Moves t k c c' := by
  refine ⟨d, k, hd, hrun, h.cancelled.trans hcan.symm, by rw [hf]; exact h.unused, ?_⟩
  intro a' ha' ht
  obtain ⟨a, ha, hat, hs⟩ := hcur a' ha' ht
  obtain ⟨h₁, h₂, h₃, h₄⟩ := h.current a ha hat
  refine ⟨h₁.trans hs.symm, h₂, ?_, ?_⟩
  · rw [hact, hj]; exact h₃
  · rw [ne_eq, hact, hcan]; exact h₄

theorem Follows.cancelled_self (h : Follows t c k) (hd : c'.log = c.log ++ [.cancelled t])
    (hcan : c'.cancelled = insert t c.cancelled) (hf : c'.fresh = c.fresh)
    (hcur : ∀ a', c'.admissions.current = some a' → c.admissions.current = some a')
    (hfresh : c'.active = none → c'.joining = none → c.active = none ∧ c.joining = none) :
    Moves t k c c' := by
  refine ⟨_, { k with cancelled := true }, hd, by simp [run_track_one, trackStep], ?_, ?_, ?_⟩
  · simp [hcan]
  · rw [hf]; exact h.unused
  · intro a' ha' ht
    obtain ⟨h₁, h₂, h₃, -⟩ := h.current a' (hcur a' ha') ht
    refine ⟨h₁, h₂, fun hn hjn => ?_, fun _ hnot => absurd (by simp [hcan]) hnot⟩
    obtain ⟨hn, hjn⟩ := hfresh hn hjn
    exact h₃ hn hjn

theorem Follows.active_up (ho : c.Owned) (h : Follows t c k) {act : ActiveAttempt}
    (ha : c.active = some act) (ht : act.cancellation = t) (hcan : t ∉ c.cancelled) :
    k.stage = .up := by
  obtain ⟨-, a, hc, hown⟩ := ho.active act ha
  exact (h.current a hc (hown.2.1.trans ht)).2.2.2 (by simp [ha]) hcan

theorem trackStep_other {u : ℕ} (hu : u ≠ t) (state : VpnState) :
    trackStep t k (.published (some u) state) = some k := by simp [trackStep, hu]

theorem Follows.effect (ho : c.Owned) (h : Follows t c k) (he : Effect c c') : Moves t k c c' := by
  cases he with
  | reserve restart hclosed hcur hres ha hj =>
    refine ⟨_, k, rfl, rfl, h.cancelled, fun hle => h.unused (by simp at hle; omega), ?_⟩
    rintro a ⟨rfl⟩ ht
    obtain ⟨hst, hsp⟩ := h.unused (le_of_eq ht)
    exact ⟨hsp, by simp [hst], fun _ _ => hst, fun hn => absurd ha hn⟩
  | pend a hc =>
    refine h.quiet (List.append_nil _).symm rfl Iff.rfl rfl ?_ Iff.rfl Iff.rfl
    rintro a' ⟨rfl⟩ ht; exact ⟨a, hc, ht, rfl⟩
  | close =>
    exact h.quiet (List.append_nil _).symm rfl Iff.rfl rfl (fun a ha ht => ⟨a, ha, ht, rfl⟩)
      Iff.rfl Iff.rfl
  | disconnectIdle hc | forget a hc =>
    exact h.quiet rfl rfl Iff.rfl rfl (fun a ha ht => ⟨a, ha, ht, rfl⟩) Iff.rfl Iff.rfl
  | note act act' ha hk =>
    exact h.quiet (List.append_nil _).symm rfl Iff.rfl rfl (fun a ha ht => ⟨a, ha, ht, rfl⟩)
      (by simp [ha]) Iff.rfl
  | release a hc ha hj =>
    by_cases ht : a.cancellation = t
    · subst ht
      exact h.cancelled_self rfl rfl rfl (by rintro b ⟨⟩) (fun _ _ => ⟨ha, hj⟩)
    · refine h.quiet rfl (by simp [run_track_one, trackStep, ht]) (by simp [Ne.symm ht]) rfl ?_
        Iff.rfl Iff.rfl
      rintro b ⟨⟩
  | cancel u =>
    by_cases ht : u = t
    · subst ht
      exact h.cancelled_self rfl rfl rfl (fun _ hb => hb) (fun hn hj => ⟨hn, hj⟩)
    · exact h.quiet rfl (by simp [run_track_one, trackStep, ht]) (by simp [Ne.symm ht]) rfl
        (fun a ha ht => ⟨a, ha, ht, rfl⟩) Iff.rfl Iff.rfl
  | stop a hc =>
    by_cases ht : a.cancellation = t
    · subst ht
      refine ⟨_, { k with stopped := true, cancelled := true }, rfl,
        by simp [run_track_two, trackStep], by simp, ?_, ?_⟩
      · intro hle; exact absurd (ho.current_lt a hc) (not_lt.mpr hle)
      · rintro b ⟨rfl⟩ -
        obtain ⟨-, h₂, h₃, -⟩ := h.current a hc rfl
        exact ⟨rfl, h₂, h₃, fun _ hn => absurd (by simp) hn⟩
    · refine h.quiet rfl (by simp [run_track_two, trackStep, ht]) (by simp [Ne.symm ht]) rfl ?_
        Iff.rfl Iff.rfl
      rintro b ⟨rfl⟩ hb; exact absurd hb ht
  | stopAgain a hc hs =>
    refine h.quiet rfl ?_ Iff.rfl rfl (fun a ha ht => ⟨a, ha, ht, rfl⟩) Iff.rfl Iff.rfl
    rw [run_track_one]
    by_cases ht : a.cancellation = t
    · have hst := (h.current a hc ht).1
      simp only [trackStep, ht, if_pos, Option.some.injEq]
      rw [hs] at hst
      cases k; simp_all
    · simp [trackStep, ht]
  | startActive a act hc ha hj hown hstop hcan =>
    obtain ⟨-, hact, -⟩ := hown
    by_cases ht : a.cancellation = t
    · obtain ⟨h₁, h₂, h₃, -⟩ := h.current a hc ht
      have hst := h₃ ha hj
      refine ⟨_, { k with stage := .up }, rfl, ?_, h.cancelled, ?_, ?_⟩
      · simp [run_track_one, trackStep, ← hact, ht, Track.publish, kindOf, hst]
      · intro hle
        have := ho.current_lt a hc
        simp only at hle; omega
      · rintro b ⟨rfl⟩ -
        exact ⟨h₁, by simp, fun hn => by simp at hn, fun _ _ => rfl⟩
    · refine ⟨_, k, rfl, by simp [run_track_one, trackStep, ← hact, ht], h.cancelled, h.unused, ?_⟩
      rintro b ⟨rfl⟩ hb; exact absurd hb ht
  | startRefused a act hc ha hj hown =>
    obtain ⟨-, hact, -⟩ := hown
    by_cases ht : a.cancellation = t
    · rw [← hact, ht]
      exact h.cancelled_self rfl rfl rfl (fun _ hb => hb) (fun hn => by simp at hn)
    · refine ⟨_, k, rfl, by simp [run_track_one, trackStep, ← hact, ht], ?_, h.unused, ?_⟩
      · simp [h.cancelled, ← hact, Ne.symm ht]
      · intro b hb hbt
        obtain rfl : a = b := Option.some.inj (hc.symm.trans hb)
        exact absurd hbt ht
  | disconnecting a act ha hc hs =>
    obtain ⟨hj, b, hb, hown⟩ := ho.active act ha
    obtain rfl : a = b := Option.some.inj (hc.symm.trans hb)
    by_cases ht : act.cancellation = t
    · obtain ⟨h₁, h₂, -, -⟩ := h.current a hc (hown.2.1.trans ht)
      refine ⟨_, { k with stage := .down, cancelled := true }, rfl, ?_, by simp [ht], ?_, ?_⟩
      · simp [run_track_two, trackStep, ht, Track.publish, kindOf, h₂]
      · intro hle
        have := ho.current_lt a hc
        rw [hown.2.1, ht] at this
        exact absurd this (not_lt.mpr hle)
      · intro b hb _
        obtain rfl : a = b := Option.some.inj (hc.symm.trans hb)
        exact ⟨h₁, by simp, fun hn => by simp [ha] at hn, fun _ hn => absurd (by simp [ht]) hn⟩
    · exact h.quiet rfl (by simp [run_track_two, trackStep, ht]) (by simp [Ne.symm ht]) rfl
        (fun a ha ht => ⟨a, ha, ht, rfl⟩) Iff.rfl Iff.rfl
  | connecting act ha hcan =>
    refine h.quiet rfl ?_ Iff.rfl rfl (fun a ha ht => ⟨a, ha, ht, rfl⟩) Iff.rfl Iff.rfl
    rw [run_track_one]
    by_cases ht : act.cancellation = t
    · have hup := h.active_up ho ha ht (ht ▸ hcan)
      simp only [trackStep, ht, if_pos, kindOf, Track.publish, hup, or_true]
      cases k; simp_all
    · exact trackStep_other ht _
  | connected a act info ha hcan hc hs =>
    refine h.quiet rfl ?_ Iff.rfl rfl (fun a ha ht => ⟨a, ha, ht, rfl⟩) Iff.rfl Iff.rfl
    rw [run_track_one]
    by_cases ht : act.cancellation = t
    · have hup := h.active_up ho ha ht (ht ▸ hcan)
      obtain ⟨-, b, hb, hown⟩ := ho.active act ha
      obtain rfl : a = b := Option.some.inj (hc.symm.trans hb)
      have hst := (h.current a hc (hown.2.1.trans ht)).1
      simp [trackStep, ht, kindOf, Track.publish, hup, hst, hs]
    · exact trackStep_other ht _
  | take act ha =>
    refine ⟨[], k, (List.append_nil _).symm, rfl, h.cancelled, h.unused, ?_⟩
    intro a hc ht
    obtain ⟨h₁, h₂, -, -⟩ := h.current a hc ht
    exact ⟨h₁, h₂, fun _ hn => by simp at hn, fun hn => absurd rfl hn⟩
  | join a act offer state hc ha hj hown hout =>
    by_cases ht : act.cancellation = t
    · obtain ⟨h₁, h₂, -, -⟩ := h.current a hc (hown.2.1.trans ht)
      refine ⟨_, { k with stage := .finished }, rfl, ?_, h.cancelled, ?_, by rintro b ⟨⟩⟩
      · have hpub : k.publish (kindOf state) = some { k with stage := .finished } := by
          rcases hout with ⟨owner, -, rfl, hcan, hstop⟩ | ⟨-, rfl | ⟨reason, rfl⟩⟩
          · have hk : k.cancelled = false := by
              rw [← Bool.not_eq_true, h.cancelled, ← ht]; exact hcan
            simp [Track.publish, kindOf, h₂, hk, h₁, hstop]
          · simp [Track.publish, kindOf, h₂]
          · simp [Track.publish, kindOf, h₂]
        simp [run_track_two, trackStep, ht, hpub]
      · intro hle
        have := ho.current_lt a hc
        rw [hown.2.1, ht] at this
        exact absurd this (not_lt.mpr hle)
    · refine ⟨_, k, rfl, ?_, h.cancelled, h.unused, by rintro b ⟨⟩⟩
      simp [run_track_two, trackStep, ht]

/-- **The refinement**: the history of every reachable state is a run of the automaton of every
attempt. -/
theorem reachable_track {inst : Uuid} {s : State} (h : (machine inst).Reachable s) (t : ℕ) :
    ∃ k, (track t).run {} s.log = some k ∧ Follows t s.core k := by
  refine (reachable_owned_core (P := fun c =>
    ∃ k, (track t).run {} c.log = some k ∧ Follows t c k) ?_ ?_ h).2
  · exact ⟨{}, rfl, by simp, fun _ => ⟨rfl, rfl⟩, by rintro a ⟨⟩⟩
  · rintro c c' ho ⟨k, hk, hf⟩ he
    obtain ⟨d, k', hd, hrun, hf'⟩ := hf.effect ho he
    refine ⟨k', ?_, hf'⟩
    rw [hd]
    exact Machine.run_append.mpr ⟨k, hk, hrun⟩

/-! ### The language of the automaton -/

/-- The words published up to a stage. -/
def stageLanguage : Stage → Language StateKind
  | .fresh => 1
  | .up => upExpr.matches'
  | .down => downExpr.matches'
  | .finished => attemptExpr.matches'

theorem append_mem_kstar {α : Type*} {l : Language α} {v w : List α} (hv : v ∈ KStar.kstar l)
    (hw : w ∈ l) : v ++ w ∈ KStar.kstar l := by
  obtain ⟨L, rfl, hL⟩ := Language.mem_kstar.mp hv
  exact Language.mem_kstar.mpr ⟨L ++ [w], by simp, forall_mem_snoc hL hw⟩

theorem mem_down_of_stage {st : Stage} (hst : st ≠ .finished) {w : List StateKind}
    (hw : w ∈ stageLanguage st) : w ∈ downExpr.matches' := by
  have hpre : ∀ {v}, v ∈ upExpr.matches' ∨ v = [] → v ∈ downExpr.matches' := by
    intro v hv
    rw [← List.append_nil v]
    refine Language.append_mem_mul ?_ (Language.nil_mem_kstar _)
    rcases hv with hv | rfl
    · exact Or.inl hv
    · exact Or.inr Language.nil_mem_one
  cases st with
  | fresh => exact hpre (Or.inr ((Language.mem_one _).mp hw))
  | up => exact hpre (Or.inl hw)
  | down => exact hw
  | finished => exact absurd rfl hst

theorem up_append {w : List StateKind} (hw : w ∈ upExpr.matches') {x : StateKind}
    (hx : x = .connecting ∨ x = .connected) : w ++ [x] ∈ upExpr.matches' := by
  obtain ⟨u, hu, v, hv, rfl⟩ := Language.mem_mul.mp hw
  rw [List.append_assoc]
  refine Language.append_mem_mul hu (append_mem_kstar hv ?_)
  rcases hx with rfl | rfl
  · exact Or.inl rfl
  · exact Or.inr rfl

theorem over_append {w : List StateKind} (hw : w ∈ downExpr.matches') {x : StateKind}
    (hx : x = .disconnected ∨ x = .failed ∨ x = .reconnectRequired) :
    w ++ [x] ∈ attemptExpr.matches' := by
  refine Language.append_mem_mul hw ?_
  rcases hx with rfl | rfl | rfl
  · exact Or.inl (Or.inl rfl)
  · exact Or.inl (Or.inr rfl)
  · exact Or.inr rfl

theorem publish_language {k k' : Track} {x : StateKind} (h : k.publish x = some k')
    {w : List StateKind} (hw : w ∈ stageLanguage k.stage) :
    w ++ [x] ∈ stageLanguage k'.stage := by
  cases x with
  | connecting =>
    obtain ⟨hst, rfl⟩ := Option.ite_some_none_eq_some.mp h
    rcases hst with hst | hst <;> rw [hst] at hw
    · rw [(Language.mem_one _).mp hw]
      exact Language.append_mem_mul (a := [StateKind.connecting]) rfl (Language.nil_mem_kstar _)
    · exact up_append hw (Or.inl rfl)
  | connected =>
    obtain ⟨⟨hst, -⟩, rfl⟩ := Option.ite_some_none_eq_some.mp h
    rw [hst] at hw ⊢
    exact up_append hw (Or.inr rfl)
  | disconnecting =>
    obtain ⟨hst, rfl⟩ := Option.ite_some_none_eq_some.mp h
    obtain ⟨u, hu, v, hv, rfl⟩ := Language.mem_mul.mp (mem_down_of_stage hst hw)
    rw [List.append_assoc]
    exact Language.append_mem_mul hu (append_mem_kstar hv rfl)
  | disconnected =>
    obtain ⟨hst, rfl⟩ := Option.ite_some_none_eq_some.mp h
    exact over_append (mem_down_of_stage hst hw) (Or.inl rfl)
  | failed =>
    obtain ⟨hst, rfl⟩ := Option.ite_some_none_eq_some.mp h
    exact over_append (mem_down_of_stage hst hw) (Or.inr (Or.inl rfl))
  | reconnectRequired =>
    obtain ⟨⟨hst, -⟩, rfl⟩ := Option.ite_some_none_eq_some.mp h
    exact over_append (mem_down_of_stage hst hw) (Or.inr (Or.inr rfl))

theorem trackStep_cases {e : Entry} {k' : Track} (h : trackStep t k e = some k') :
    (∃ state, e = .published (some t) state ∧ k.publish (kindOf state) = some k') ∨
    (publishedBy t [e] = [] ∧ k'.stage = k.stage ∧ (k.stopped = true → k'.stopped = true) ∧
      (k.cancelled = true → k'.cancelled = true)) := by
  cases e with
  | handed | disconnectRequested =>
    cases h
    exact Or.inr ⟨rfl, rfl, id, id⟩
  | stopRequested u =>
    cases h
    refine Or.inr ⟨rfl, ?_⟩
    split_ifs
    · exact ⟨rfl, fun _ => rfl, id⟩
    · exact ⟨rfl, id, id⟩
  | cancelled u =>
    cases h
    refine Or.inr ⟨rfl, ?_⟩
    split_ifs
    · exact ⟨rfl, id, fun _ => rfl⟩
    · exact ⟨rfl, id, id⟩
  | ended u offer =>
    simp only [trackStep, Option.ite_none_left_eq_some, Option.some.injEq] at h
    rw [← h.2]
    exact Or.inr ⟨rfl, rfl, id, id⟩
  | published owner state =>
    cases owner with
    | none =>
      cases h
      exact Or.inr ⟨rfl, rfl, id, id⟩
    | some u =>
      by_cases hu : u = t
      · subst hu; exact Or.inl ⟨state, rfl, by simpa [trackStep] using h⟩
      · rw [trackStep_other hu] at h
        cases h
        exact Or.inr ⟨by simp [publishedBy, hu], rfl, id, id⟩

theorem publishedBy_append (l l' : List Entry) :
    publishedBy t (l ++ l') = publishedBy t l ++ publishedBy t l' := List.filterMap_append

theorem run_language {log : List Entry} (h : (track t).run {} log = some k) :
    publishedBy t log ∈ stageLanguage k.stage := by
  induction log using List.reverseRecOn generalizing k with
  | nil => cases h; exact Language.nil_mem_one
  | append_singleton log e ih =>
    obtain ⟨m, hm, hs⟩ := Machine.run_append.mp h
    rw [run_track_one] at hs
    rw [publishedBy_append]
    rcases trackStep_cases hs with ⟨state, rfl, hp⟩ | ⟨hnil, hst, -⟩
    · have hone : publishedBy t [.published (some t) state] = [kindOf state] := by
        simp [publishedBy]
      rw [hone]
      exact publish_language hp (ih hm)
    · rw [hnil, List.append_nil, hst]; exact ih hm

/-! ### What stays ruled out -/

/-- Nothing but an end follows once the attempt is going down. -/
def Track.Late (k : Track) : Prop := k.stage = .down ∨ k.stage = .finished

theorem publish_late {k' : Track} {x : StateKind} (hk : k.Late) (h : k.publish x = some k') :
    k'.Late := by
  cases x <;> simp only [Track.publish, Option.ite_none_right_eq_some, Option.some.injEq] at h
  · obtain ⟨hst, -⟩ := h
    rcases hk with hk | hk <;> rw [hk] at hst <;> simp at hst
  · obtain ⟨-, rfl⟩ := h; exact hk
  · obtain ⟨-, rfl⟩ := h; exact Or.inl rfl
  · obtain ⟨-, rfl⟩ := h; exact Or.inr rfl
  · obtain ⟨-, rfl⟩ := h; exact Or.inr rfl
  · obtain ⟨-, rfl⟩ := h; exact Or.inr rfl

theorem trackStep_late {e : Entry} {k' : Track} (hk : k.Late) (h : trackStep t k e = some k') :
    k'.Late := by
  rcases trackStep_cases h with ⟨state, rfl, hp⟩ | ⟨-, hst, -⟩
  · exact publish_late hk hp
  · rw [Track.Late, hst]; exact hk

theorem publish_flags {k' : Track} {x : StateKind} (h : k.publish x = some k') :
    k'.stopped = k.stopped ∧ k'.cancelled = k.cancelled := by
  cases x <;> simp only [Track.publish, Option.ite_none_right_eq_some, Option.some.injEq] at h <;>
    obtain ⟨-, rfl⟩ := h <;> exact ⟨rfl, rfl⟩

theorem trackStep_flags {e : Entry} {k' : Track} (h : trackStep t k e = some k') :
    (k.stopped = true → k'.stopped = true) ∧ (k.cancelled = true → k'.cancelled = true) := by
  rcases trackStep_cases h with ⟨state, -, hp⟩ | ⟨-, -, hflags⟩
  · obtain ⟨hstopped, hcancelled⟩ := publish_flags hp
    rw [hstopped, hcancelled]
    exact ⟨id, id⟩
  · exact hflags

theorem run_over {log : List Entry} {offer : Option (ℕ × Uuid)}
    (h : (track t).run {} log = some k) (hmem : .ended t offer ∈ log) : k.stage = .finished := by
  obtain ⟨as, bs, rfl⟩ := List.append_of_mem hmem
  obtain ⟨m, -, h⟩ := Machine.run_append.mp h
  obtain ⟨m', hs, h⟩ := Machine.run_cons.mp h
  have hfin : m'.stage = .finished := by
    simp only [track, trackStep, Option.ite_none_left_eq_some, Option.some.injEq, true_and,
      not_not] at hs
    rw [← hs.2]; exact hs.1
  refine Machine.run_keeps (P := fun k => k.stage = .finished) ?_ bs m' hfin h
  intro k e k' hk hs
  rcases trackStep_cases hs with ⟨state, rfl, hp⟩ | ⟨-, hst, -⟩
  · exfalso
    cases state <;> simp [Track.publish, kindOf, hk] at hp
  · exact hst.trans hk

theorem not_mem_after_stop {l₁ l₂ : List Entry}
    (h : (track t).run {} (l₁ ++ .stopRequested t :: l₂) = some k) {state : VpnState}
    (hstate : kindOf state = .connected ∨ kindOf state = .reconnectRequired) :
    .published (some t) state ∉ l₂ := by
  refine Machine.run_never_after (P := fun k => k.stopped = true) ?_ ?_ ?_ h
  · intro m m' hs
    simp only [track, trackStep, if_true, Option.some.injEq] at hs
    rw [← hs]
  · intro m x m' hm hs; exact (trackStep_flags hs).1 hm
  · intro m hm
    rcases hstate with hstate | hstate <;> simp [track, trackStep, hstate, Track.publish, hm]

theorem not_mem_after_cancel {l₁ l₂ : List Entry}
    (h : (track t).run {} (l₁ ++ .cancelled t :: l₂) = some k) {state : VpnState}
    (hstate : kindOf state = .reconnectRequired) : .published (some t) state ∉ l₂ := by
  refine Machine.run_never_after (P := fun k => k.cancelled = true) ?_ ?_ ?_ h
  · intro m m' hs
    simp only [track, trackStep, if_true, Option.some.injEq] at hs
    rw [← hs]
  · intro m x m' hm hs; exact (trackStep_flags hs).2 hm
  · intro m hm; simp [track, trackStep, hstate, Track.publish, hm]

theorem not_mem_after_disconnecting {l₁ l₂ : List Entry}
    (h : (track t).run {} (l₁ ++ .published (some t) .disconnecting :: l₂) = some k)
    {state : VpnState} (hstate : kindOf state = .connecting ∨ kindOf state = .connected) :
    .published (some t) state ∉ l₂ := by
  refine Machine.run_never_after (P := Track.Late) ?_ ?_ ?_ h
  · intro m m' hs
    simp only [track, trackStep, if_true, kindOf, Track.publish, Option.ite_none_right_eq_some,
      Option.some.injEq] at hs
    rw [← hs.2]; exact Or.inl rfl
  · intro m x m' hm hs; exact trackStep_late hm hs
  · rintro m (hm | hm) <;> rcases hstate with hstate | hstate <;>
      simp [track, trackStep, hstate, Track.publish, hm]

/-- **Published states**: at every moment of every run, the states published for an attempt begin a
word of the language, and form one once the attempt has ended; no `Connected` follows an accepted
stop, neither `Connecting` nor `Connected` follows a `Disconnecting`, and `ReconnectRequired`
follows neither an accepted stop nor a cancellation. -/
theorem published_states (inst : Uuid) (s : State) (h : (machine inst).Reachable s) (t : ℕ) :
    (∃ rest, publishedBy t s.log ++ rest ∈ attemptExpr.matches') ∧
    (∀ offer, .ended t offer ∈ s.log → publishedBy t s.log ∈ attemptExpr.matches') ∧
    (∀ l₁ l₂, s.log = l₁ ++ .stopRequested t :: l₂ →
      ∀ info, .published (some t) (.connected info) ∉ l₂) ∧
    (∀ l₁ l₂, s.log = l₁ ++ .published (some t) .disconnecting :: l₂ →
      (∀ info, .published (some t) (.connecting info) ∉ l₂) ∧
      ∀ info, .published (some t) (.connected info) ∉ l₂) ∧
    (∀ l₁ l₂ r, s.log = l₁ ++ .published (some t) (.reconnectRequired r) :: l₂ →
      .cancelled t ∉ l₁ ∧ .stopRequested t ∉ l₁) := by
  obtain ⟨k, hrun, -⟩ := reachable_track h t
  have hword := run_language hrun
  refine ⟨?_, ?_, ?_, ?_, ?_⟩
  · by_cases hst : k.stage = .finished
    · rw [hst] at hword
      exact ⟨[], by rwa [List.append_nil]⟩
    · exact ⟨[.disconnected], over_append (mem_down_of_stage hst hword) (Or.inl rfl)⟩
  · intro offer hmem
    rw [run_over hrun hmem] at hword
    exact hword
  · intro l₁ l₂ hl info
    exact not_mem_after_stop (hl ▸ hrun) (Or.inl rfl)
  · intro l₁ l₂ hl
    exact ⟨fun info => not_mem_after_disconnecting (hl ▸ hrun) (Or.inl rfl),
      fun info => not_mem_after_disconnecting (hl ▸ hrun) (Or.inr rfl)⟩
  · intro l₁ l₂ r hl
    rw [hl] at hrun
    refine ⟨fun hmem => ?_, fun hmem => ?_⟩ <;> obtain ⟨as, bs, rfl⟩ := List.append_of_mem hmem <;>
      rw [List.append_assoc, List.cons_append] at hrun
    · exact absurd (by simp) (not_mem_after_cancel hrun (rfl : kindOf (.reconnectRequired r) = _))
    · exact absurd (by simp) (not_mem_after_stop hrun (Or.inr (rfl : kindOf (.reconnectRequired r) = _)))

/-- A session that is established and then disconnected by the user. -/
def disconnectedRun : List Label :=
  [.reserve none, .commit ⟨0, 0, false⟩ sampleRequest none, .handle 0,
    .emit 0 (.established ⟨none, none, none⟩), .handle 0, .requestDisconnect, .handle 0,
    .finish 0, .handle 0, .workerReturn 0, .join true]

theorem published_states_disconnected : ∃ s, (machine 0).Reachable s ∧
    publishedBy 0 s.log = [.connecting, .connected, .disconnecting, .disconnected] ∧
    publishedBy 0 s.log ∈ attemptExpr.matches' := by
  obtain ⟨s, hr, hp⟩ := Machine.Reachable.of_run (M := machine 0)
    (l := disconnectedRun) (p := fun s => decide (publishedBy 0 s.log =
      [.connecting, .connected, .disconnecting, .disconnected] ∧ .ended 0 none ∈ s.log))
    (by decide +kernel)
  obtain ⟨hword, hend⟩ := of_decide_eq_true hp
  exact ⟨s, hr, hword, (published_states 0 s hr 0).2.1 none hend⟩

end GlobalProtect.Service.Lifecycle
