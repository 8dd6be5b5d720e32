import GlobalProtect.Lib.History
import GlobalProtect.Lib.Machine

/-! # The command pipe of a native connection

The model of `Cancellation` in `openconnect/src/vpn.rs`. Every operation holds the lock, so it is
one step; what a write to the pipe returns is in the label. `history` records what the operations
did.

`Allowed` says, in terms of the history alone, when an event may follow: a write needs the attached
descriptor, the cancel byte comes with the first cancel call only, a statistics byte needs that no
cancel was called and none is unanswered, and an attach reports whether a cancel was called. Every
history of the machine is made of such events (`Inv.sound`), and `cancel_not_lost` reads the
properties of the pipe off it. The request is latched before the byte is written, so the cancel is
lost exactly while the descriptor stays attached for which the write failed (`told_iff`). -/

namespace GlobalProtect.Native.CommandPipe

open Lib

inductive Byte where
  | cancel
  | statistics
  deriving DecidableEq, Repr

inductive Event where
  /-- A descriptor was attached; the caller was told whether a cancel was requested. -/
  | attached (fd : Int) (requested : Bool)
  | detached
  | cancelCalled
  | wrote (fd : Int) (byte : Byte) (ok : Bool)
  | answered
  deriving DecidableEq, Repr

structure State where
  requested : Bool := false
  commandFd : Option Int := none
  statisticsPending : Bool := false
  history : List Event := []
  deriving DecidableEq, Repr

/-- The outcomes of a write. -/
inductive WriteResult where
  | ok
  | wouldBlock
  | error
  deriving DecidableEq, Repr

namespace State

variable (s : State)

def record (events : List Event) : State := { s with history := s.history ++ events }

/-- `attach`, which returns `requested`. -/
def attach (fd : Int) : Bool × State :=
  (s.requested, record { s with commandFd := some fd } [.attached fd s.requested])

def detach : State :=
  record { s with commandFd := none, statisticsPending := false } [.detached]

/-- `request_statistics`: a full pipe is no error. -/
def requestStatistics (result : WriteResult) : Except Unit Bool × State :=
  if s.requested || s.statisticsPending then (.ok false, s)
  else
    match s.commandFd with
    | none => (.ok false, s)
    | some fd =>
      match result with
      | .ok => (.ok true, record { s with statisticsPending := true } [.wrote fd .statistics true])
      | .wouldBlock => (.ok false, s.record [.wrote fd .statistics false])
      | .error => (.error (), s.record [.wrote fd .statistics false])

def statisticsReceived : State := record { s with statisticsPending := false } [.answered]

/-- `cancel`: the request is latched before the write. -/
def cancel (ok : Bool) : Except Unit Unit × State :=
  if s.requested then (.ok (), s.record [.cancelCalled])
  else
    match s.commandFd with
    | none => (.ok (), record { s with requested := true } [.cancelCalled])
    | some fd =>
      (if ok then .ok () else .error (),
        record { s with requested := true } [.cancelCalled, .wrote fd .cancel ok])

end State

inductive Act where
  | attach (fd : Int)
  | detach
  | requestStatistics (result : WriteResult)
  | statisticsReceived
  | cancel (ok : Bool)
  deriving DecidableEq, Repr

def step (s : State) : Act → State
  | .attach fd => (s.attach fd).2
  | .detach => s.detach
  | .requestStatistics result => (s.requestStatistics result).2
  | .statisticsReceived => s.statisticsReceived
  | .cancel ok => (s.cancel ok).2

def machine : Machine State Act where
  init := {}
  step s l := some (step s l)

/-! ### What a history tells -/

/-- The attached descriptor. -/
def current (h : List Event) : Option Int :=
  h.foldl (fun fd e =>
    match e with
    | .attached new _ => some new
    | .detached => none
    | _ => fd) none

/-- The statistics bytes that wait for an answer; a detached pipe gives none. -/
def unanswered (h : List Event) : ℕ :=
  h.foldl (fun n e =>
    match e with
    | .wrote _ .statistics true => n + 1
    | .answered | .detached => 0
    | _ => n) 0

/-- The event may follow the history. -/
def Allowed (h : List Event) : Event → Prop
  | .attached _ requested => requested = decide (.cancelCalled ∈ h)
  | .wrote fd .cancel _ =>
    current h = some fd ∧ ∃ h', h = h' ++ [.cancelCalled] ∧ .cancelCalled ∉ h'
  | .wrote fd .statistics _ => current h = some fd ∧ .cancelCalled ∉ h ∧ unanswered h = 0
  | _ => True

/-- Every event of the history may follow what is before it. -/
abbrev Sound (h : List Event) : Prop := History.Sound Allowed h

/-- A descriptor is attached, or given up. -/
def Event.changes : Event → Bool
  | .attached _ _ | .detached => true
  | _ => false

/-- The event happened, and the descriptor has not changed since. -/
def Since (h : List Event) (e : Event) : Prop :=
  ∃ pre post, h = pre ++ e :: post ∧ ∀ x ∈ post, x.changes = false

/-- Nobody is left to be told of the cancel: the attached descriptor was reported as cancelled, or
the cancel byte was written to it, or none is attached. -/
def Told (h : List Event) : Prop :=
  current h = none ∨ (∃ fd, Since h (.attached fd true)) ∨
    ∃ fd, current h = some fd ∧ Since h (.wrote fd .cancel true)

theorem current_concat (h : List Event) (e : Event) :
    current (h ++ [e]) =
      match e with
      | .attached new _ => some new
      | .detached => none
      | _ => current h := by
  simp only [current, List.foldl_append, List.foldl_cons, List.foldl_nil]

theorem unanswered_concat (h : List Event) (e : Event) :
    unanswered (h ++ [e]) =
      match e with
      | .wrote _ .statistics true => unanswered h + 1
      | .answered | .detached => 0
      | _ => unanswered h := by
  simp only [unanswered, List.foldl_append, List.foldl_cons, List.foldl_nil]

/-! ### The invariant -/

/-- The first cancel call writes at once if a descriptor is attached. -/
def Prompt (h : List Event) : Prop :=
  ∀ pre post fd, h = pre ++ .cancelCalled :: post → .cancelCalled ∉ pre → current pre = some fd →
    ∃ ok rest, post = .wrote fd .cancel ok :: rest

/-- The fields are what the history tells, and the history is sound. -/
structure Inv (s : State) : Prop where
  requested : s.requested = decide (.cancelCalled ∈ s.history)
  commandFd : s.commandFd = current s.history
  pending : unanswered s.history = s.statisticsPending.toNat
  sound : Sound s.history
  prompt : Prompt s.history

theorem Prompt.concat {h : List Event} {e : Event} (hp : Prompt h)
    (he : e = .cancelCalled → .cancelCalled ∈ h ∨ current h = none) : Prompt (h ++ [e]) := by
  intro pre post fd heq hfirst hfd
  rcases History.split_append heq with ⟨rest, rfl, hold⟩ | ⟨front, hpre, hnew⟩
  · obtain ⟨ok, rest', rfl⟩ := hp pre rest fd hold hfirst hfd
    exact ⟨ok, rest' ++ [e], rfl⟩
  · -- the event is the one that was added
    obtain ⟨rfl, rfl⟩ : front = [] ∧ e = .cancelCalled := by
      cases front with
      | nil => exact ⟨rfl, (List.cons.inj hnew).1⟩
      | cons y front => simp at hnew
    rw [List.append_nil] at hpre
    subst hpre
    rcases he rfl with h | h
    · exact absurd h hfirst
    · rw [h] at hfd
      cases hfd

theorem Prompt.cancel {h : List Event} {fd : Int} {ok : Bool} (hp : Prompt h)
    (hfd : current h = some fd) : Prompt (h ++ [.cancelCalled, .wrote fd .cancel ok]) := by
  intro pre post fd' heq hfirst hfd'
  rcases List.append_eq_append_iff.mp heq with ⟨m, hpre, hm⟩ | ⟨m, hh, hm⟩
  · cases m with
    | nil =>
      obtain ⟨-, rfl⟩ := List.cons.inj hm
      rw [List.append_nil] at hpre
      subst hpre
      obtain rfl := Option.some.inj (hfd.symm.trans hfd')
      exact ⟨ok, [], rfl⟩
    | cons y m =>
      obtain ⟨rfl, -⟩ := List.cons.inj hm
      exact absurd (by simp [hpre]) hfirst
  · cases m with
    | nil =>
      obtain ⟨-, rfl⟩ := List.cons.inj hm
      rw [List.append_nil] at hh
      subst hh
      obtain rfl := Option.some.inj (hfd.symm.trans hfd')
      exact ⟨ok, [], rfl⟩
    | cons y m =>
      obtain ⟨rfl, rfl⟩ := List.cons.inj hm
      obtain ⟨ok', rest, rfl⟩ := hp pre m fd' hh hfirst hfd'
      exact ⟨ok', rest ++ [.cancelCalled, .wrote fd .cancel ok], rfl⟩

variable {s : State}

theorem Inv.attach (h : Inv s) (fd : Int) : Inv (s.attach fd).2 where
  requested := by simpa [State.attach, State.record] using h.requested
  commandFd := by simp [State.attach, State.record, current_concat]
  pending := by simpa [State.attach, State.record, unanswered_concat] using h.pending
  sound := h.sound.concat h.requested
  prompt := h.prompt.concat nofun

theorem Inv.detach (h : Inv s) : Inv s.detach where
  requested := by simpa [State.detach, State.record] using h.requested
  commandFd := by simp [State.detach, State.record, current_concat]
  pending := by simp [State.detach, State.record, unanswered_concat]
  sound := h.sound.concat trivial
  prompt := h.prompt.concat nofun

theorem Inv.statisticsReceived (h : Inv s) : Inv s.statisticsReceived where
  requested := by simpa [State.statisticsReceived, State.record] using h.requested
  commandFd := by simpa [State.statisticsReceived, State.record, current_concat] using h.commandFd
  pending := by simp [State.statisticsReceived, State.record, unanswered_concat]
  sound := h.sound.concat trivial
  prompt := h.prompt.concat nofun

theorem Inv.wroteStatistics (h : Inv s) {fd : Int} (ok : Bool) (hr : s.requested = false)
    (hp : s.statisticsPending = false) (hfd : s.commandFd = some fd) :
    Inv (State.record { s with statisticsPending := ok } [.wrote fd .statistics ok]) where
  requested := by simpa [State.record] using h.requested
  commandFd := by simpa [State.record, current_concat] using h.commandFd
  pending := by
    have h0 : unanswered s.history = 0 := by simpa [hp] using h.pending
    cases ok <;> simp [State.record, unanswered_concat, h0]
  sound := by
    have hnot : .cancelCalled ∉ s.history := by simpa [hr] using h.requested
    exact h.sound.concat ⟨h.commandFd ▸ hfd, hnot, by simpa [hp] using h.pending⟩
  prompt := h.prompt.concat nofun

theorem Inv.requestStatistics (h : Inv s) (result : WriteResult) :
    Inv (s.requestStatistics result).2 := by
  unfold State.requestStatistics
  by_cases hb : s.requested || s.statisticsPending
  · rw [if_pos hb]
    exact h
  · rw [if_neg hb]
    have hr : s.requested = false := by simp_all
    have hp : s.statisticsPending = false := by simp_all
    split
    · exact h
    · rename_i fd hfd
      have hfail := h.wroteStatistics false hr hp hfd
      rw [show { s with statisticsPending := false } = s by rw [← hp]] at hfail
      cases result with
      | ok => exact h.wroteStatistics true hr hp hfd
      | wouldBlock => exact hfail
      | error => exact hfail

theorem Inv.cancel (h : Inv s) (ok : Bool) : Inv (s.cancel ok).2 := by
  unfold State.cancel
  by_cases hr : s.requested = true
  · rw [if_pos hr]
    have hin : .cancelCalled ∈ s.history := by simpa [hr] using h.requested
    refine ⟨?_, ?_, ?_, h.sound.concat trivial, h.prompt.concat fun _ => .inl hin⟩
    · simp [State.record, hr]
    · simpa [State.record, current_concat] using h.commandFd
    · simpa [State.record, unanswered_concat] using h.pending
  · rw [if_neg hr]
    have hnot : .cancelCalled ∉ s.history := by simpa [hr] using h.requested
    split
    · rename_i hfd
      have hcur : current s.history = none := h.commandFd ▸ hfd
      refine ⟨?_, ?_, ?_, h.sound.concat trivial, h.prompt.concat fun _ => .inr hcur⟩
      · simp [State.record]
      · simpa [State.record, current_concat] using h.commandFd
      · simpa [State.record, unanswered_concat] using h.pending
    · rename_i fd hfd
      have hcur : current s.history = some fd := h.commandFd ▸ hfd
      have hcalled : current (s.history ++ [.cancelCalled]) = some fd := by
        rw [current_concat]
        exact hcur
      have happ : s.history ++ [.cancelCalled, .wrote fd .cancel ok] =
          s.history ++ [.cancelCalled] ++ [.wrote fd .cancel ok] := by simp
      have hallowed : Allowed s.history .cancelCalled := trivial
      have hbefore : Sound (s.history ++ [.cancelCalled]) := h.sound.concat hallowed
      refine ⟨?_, ?_, ?_, ?_, h.prompt.cancel hcur⟩
      · simp [State.record]
      · change s.commandFd = current (s.history ++ [.cancelCalled, .wrote fd .cancel ok])
        rw [happ, current_concat, hfd]
        exact hcalled.symm
      · change unanswered (s.history ++ [.cancelCalled, .wrote fd .cancel ok]) = _
        rw [happ, unanswered_concat, unanswered_concat]
        exact h.pending
      · change Sound (s.history ++ [.cancelCalled, .wrote fd .cancel ok])
        rw [happ]
        exact hbefore.concat ⟨hcalled, s.history, rfl, hnot⟩

theorem inv_reachable (h : machine.Reachable s) : Inv s := by
  refine h.invariant ⟨rfl, rfl, rfl, ?_, ?_⟩ fun s l s' _ hi hs => ?_
  · exact History.Sound.nil
  · intro pre post fd heq
    simp [machine] at heq
  · cases hs
    cases l with
    | attach fd => exact hi.attach fd
    | detach => exact hi.detach
    | requestStatistics result => exact hi.requestStatistics result
    | statisticsReceived => exact hi.statisticsReceived
    | cancel ok => exact hi.cancel ok

/-! ### The properties of the pipe -/

/-- The cancel byte comes with the first call: no call is before an earlier event. -/
theorem Sound.not_called {h pre mid post : List Event} {x : Event} {fd : Int} {ok : Bool}
    (hs : Sound h) (heq : h = pre ++ x :: (mid ++ .wrote fd .cancel ok :: post)) :
    .cancelCalled ∉ pre := by
  obtain ⟨-, first, hfirst, hnot⟩ := hs (pre ++ x :: mid) (.wrote fd .cancel ok) post
    (by simp [heq])
  have hpre : pre ++ (x :: mid).dropLast = first := by
    rw [← List.dropLast_append_of_ne_nil (by simp), hfirst, List.dropLast_concat]
  exact fun hcalled => hnot (by simp [← hpre, hcalled])

theorem Sound.cancel_once {h pre post : List Event} {fd : Int} {ok : Bool} (hs : Sound h)
    (heq : h = pre ++ .wrote fd .cancel ok :: post) : ∀ fd' ok', .wrote fd' .cancel ok' ∉ post := by
  intro fd' ok' hmem
  obtain ⟨a, b, rfl⟩ := List.append_of_mem hmem
  obtain ⟨-, first, rfl, -⟩ := hs pre _ _ heq
  exact hs.not_called heq (by simp)

theorem current_append {h post : List Event} (hpost : ∀ x ∈ post, x.changes = false) :
    current (h ++ post) = current h := by
  induction post using List.reverseRecOn with
  | nil => rw [List.append_nil]
  | append_singleton post x ih =>
    rw [← List.append_assoc, current_concat, ih fun y hy => hpost y (by simp [hy])]
    have hx := hpost x (by simp)
    cases x with
    | attached fd reported | detached => cases hx
    | cancelCalled | wrote fd b ok | answered => rfl

theorem exists_attached {h : List Event} {fd : Int} (hfd : current h = some fd) :
    ∃ reported, Since h (.attached fd reported) := by
  induction h using List.reverseRecOn with
  | nil => cases hfd
  | append_singleton h x ih =>
    rw [current_concat] at hfd
    have hold : x.changes = false → current h = some fd →
        ∃ reported, Since (h ++ [x]) (.attached fd reported) := by
      intro hx hfd
      obtain ⟨reported, pre, post, rfl, hpost⟩ := ih hfd
      exact ⟨reported, pre, post ++ [x], by simp, forall_mem_snoc hpost hx⟩
    cases x with
    | attached new reported =>
      cases hfd
      exact ⟨reported, h, [], rfl, by simp⟩
    | detached => cases hfd
    | cancelCalled | wrote _ _ _ | answered => exact hold rfl hfd

theorem Inv.not_told (hi : Inv s) {fd : Int} (hsince : Since s.history (.wrote fd .cancel false)) :
    ¬ Told s.history := by
  obtain ⟨pre, post, heq, hpost⟩ := hsince
  rintro (hnone | ⟨fd', pre', post', heq', -⟩ | ⟨fd', -, pre', post', heq', -⟩)
  · rw [heq, List.append_cons, current_append hpost, current_concat] at hnone
    exact Option.some_ne_none fd ((hi.sound _ _ _ heq).1.symm.trans hnone)
  · -- an attach before the first call reports none
    have hreported : .cancelCalled ∈ pre' := by simpa [Allowed] using hi.sound _ _ _ heq'
    rcases History.split_split (heq.symm.trans heq') with ⟨-, ⟨⟩, -⟩ | ⟨m, -, rfl⟩ | ⟨m, rfl, rfl⟩
    · cases hpost (.attached fd' true) (by simp)
    · exact hi.sound.not_called heq' hreported
  · rcases History.split_split (heq.symm.trans heq') with ⟨-, ⟨⟩, -⟩ | ⟨m, -, rfl⟩ | ⟨m, -, rfl⟩
    · exact hi.sound.cancel_once heq fd' true (by simp)
    · exact hi.sound.cancel_once heq' fd false (by simp)

/-- The attach reports a call before it, and the first call after it writes. -/
theorem Inv.told_or_wrote (hi : Inv s) (hcalled : .cancelCalled ∈ s.history) {fd : Int}
    (hfd : current s.history = some fd) : Since s.history (.attached fd true) ∨
      ∃ ok, Since s.history (.wrote fd .cancel ok) := by
  obtain ⟨reported, pre, post, heq, hpost⟩ := exists_attached hfd
  have hreported : reported = decide (.cancelCalled ∈ pre) := hi.sound _ _ _ heq
  by_cases hpre : .cancelCalled ∈ pre
  · exact Or.inl ⟨pre, post, by simpa [hreported, hpre] using heq, hpost⟩
  · have hmem : .cancelCalled ∈ post := by simpa [heq, hpre] using hcalled
    obtain ⟨a, b, rfl, ha⟩ := List.eq_append_cons_of_mem hmem
    have hcurrent : current (pre ++ .attached fd reported :: a) = some fd := by
      rw [List.append_cons, current_append fun x hx => hpost x (by simp [hx]), current_concat]
    obtain ⟨ok, rest, rfl⟩ := hi.prompt (pre ++ .attached fd reported :: a) b fd (by simp [heq])
      (by simp [hpre, ha]) hcurrent
    exact Or.inr ⟨ok, pre ++ .attached fd reported :: a ++ [.cancelCalled], rest, by simp [heq],
      fun x hx => hpost x (by simp [hx])⟩

/-- A cancel that was called is lost exactly where its byte could not be written to the descriptor
that is still attached. -/
theorem Inv.told_iff (hi : Inv s) (hcalled : .cancelCalled ∈ s.history) :
    Told s.history ↔ ¬ ∃ fd, Since s.history (.wrote fd .cancel false) := by
  refine ⟨fun htold ⟨_, hsince⟩ => hi.not_told hsince htold, fun hnot => ?_⟩
  cases hfd : current s.history with
  | none => exact Or.inl hfd
  | some fd =>
    rcases hi.told_or_wrote hcalled hfd with hreported | ⟨ok, hsince⟩
    · exact Or.inr (Or.inl ⟨fd, hreported⟩)
    · cases ok with
      | true => exact Or.inr (Or.inr ⟨fd, hfd, hsince⟩)
      | false => exact absurd ⟨fd, hsince⟩ hnot

/-- **No cancel is lost** while the byte can be written: an operation records what it did, and no
descriptor is left after a detach; a write goes to the attached descriptor; at most one cancel byte
is written, and no statistics byte after a cancel call; at most one statistics byte is unanswered;
every attach after a cancel call reports it; the first cancel call writes at once if a descriptor is
attached; and who uses the attached descriptor is told of the cancel, unless the write failed on
it. -/
theorem cancel_not_lost (h : machine.Reachable s) :
    (s.commandFd = current s.history ∧
      (∀ fd, (s.attach fd).2.history = s.history ++ [.attached fd (s.attach fd).1]) ∧
      s.detach.history = s.history ++ [.detached] ∧ s.detach.commandFd = none ∧
      ∀ ok, s.history ++ [.cancelCalled] <+: (s.cancel ok).2.history) ∧
    (∀ pre fd b ok post, s.history = pre ++ .wrote fd b ok :: post → current pre = some fd) ∧
    (∀ pre fd ok post, s.history = pre ++ .wrote fd .cancel ok :: post →
      (∀ fd' ok', .wrote fd' .cancel ok' ∉ post) ∧ ∀ fd' ok', .wrote fd' .statistics ok' ∉ post) ∧
    unanswered s.history ≤ 1 ∧
    (∀ pre post, s.history = pre ++ .cancelCalled :: post →
      ∀ fd reported, .attached fd reported ∈ post → reported = true) ∧
    (∀ pre post fd, s.history = pre ++ .cancelCalled :: post → .cancelCalled ∉ pre →
      current pre = some fd → ∃ ok rest, post = .wrote fd .cancel ok :: rest) ∧
    (.cancelCalled ∈ s.history →
      (Told s.history ↔ ¬ ∃ fd, Since s.history (.wrote fd .cancel false))) := by
  have hi := inv_reachable h
  refine ⟨⟨hi.commandFd, fun fd => rfl, rfl, rfl, fun ok => ?_⟩, fun pre fd b ok post heq => ?_,
    fun pre fd ok post heq => ⟨?_, ?_⟩, ?_, fun pre post heq fd reported hmem => ?_,
    fun pre post fd => hi.prompt pre post fd, hi.told_iff⟩
  · unfold State.cancel
    split
    · exact List.prefix_rfl
    · split
      · exact List.prefix_rfl
      · next fd _ => exact ⟨[.wrote fd .cancel ok], by simp [State.record]⟩
  · cases b with
    | cancel => exact (hi.sound pre _ post heq).1
    | statistics => exact (hi.sound pre _ post heq).1
  · exact hi.sound.cancel_once heq
  · intro fd' ok' hmem
    obtain ⟨a, b, rfl⟩ := List.append_of_mem hmem
    obtain ⟨-, h', hpre, -⟩ := hi.sound pre _ _ heq
    obtain ⟨-, hnot, -⟩ := hi.sound (pre ++ .wrote fd .cancel ok :: a)
      (.wrote fd' .statistics ok') b (by simp [heq])
    exact hnot (by simp [hpre])
  · rw [hi.pending]
    exact Bool.toNat_le _
  · obtain ⟨a, b, rfl⟩ := List.append_of_mem hmem
    have := hi.sound (pre ++ .cancelCalled :: a) (.attached fd reported) b (by simp [heq])
    simpa [Allowed] using this

/-- A cancel before the pipe exists is reported by the attach; one after it is written. -/
theorem cancel_not_lost_before_attach :
    (∃ s reported, machine.Reachable s ∧ s.history = [.cancelCalled, .attached 5 reported] ∧
      reported = true) ∧
    ∃ s, machine.Reachable s ∧
      s.history = [.attached 5 false, .cancelCalled, .wrote 5 .cancel true, .cancelCalled] ∧
      Told s.history := by
  have hbefore : machine.Reachable _ := ⟨[.cancel true, .attach 5], rfl⟩
  have hafter : machine.Reachable _ := ⟨[.attach 5, .cancel true, .cancel true], rfl⟩
  obtain ⟨-, -, -, -, hreports, -⟩ := cancel_not_lost hbefore
  obtain ⟨-, -, -, -, -, -, htold⟩ := cancel_not_lost hafter
  refine ⟨⟨_, _, hbefore, rfl, hreports [] _ rfl 5 _ (List.mem_singleton_self _)⟩,
    _, hafter, rfl, (htold (by decide)).mpr ?_⟩
  rintro ⟨fd, pre, post, heq, -⟩
  have hmem : Event.wrote fd .cancel false ∈ pre ++ .wrote fd .cancel false :: post := by simp
  rw [← heq, show (step _ _).history = [.attached 5 false, .cancelCalled, .wrote 5 .cancel true,
    .cancelCalled] from rfl] at hmem
  simp at hmem

/-- The write of the cancel byte fails. The descriptor stays attached, the next cancel call returns
without a write, and none ever writes one. -/
theorem cancel_lost : ∃ s, machine.Reachable s ∧
    s.history = [.attached 5 false, .cancelCalled, .wrote 5 .cancel false] ∧
    ¬ Told s.history ∧ s.commandFd = some 5 ∧
    (s.cancel true).1.isOk = true ∧ (s.cancel true).2.history = s.history ++ [.cancelCalled] ∧
    ∀ s' post, machine.Reachable s' → s'.history = s.history ++ post →
      ∀ fd ok, .wrote fd .cancel ok ∉ post := by
  have h : machine.Reachable _ := ⟨[.attach 5, .cancel false], rfl⟩
  refine ⟨_, h, rfl, (inv_reachable h).not_told ⟨[_, _], [], rfl, by simp⟩, rfl, rfl, rfl,
    fun s' post h' heq => ?_⟩
  exact (inv_reachable h').sound.cancel_once
    (show s'.history = [.attached 5 false, .cancelCalled] ++ _ :: post from heq)

/-- After a cancel byte that could not be written, no call tries to write one again. -/
theorem failed_cancel_not_retried {pre post : List Event} {fd : Int} (h : machine.Reachable s)
    (heq : s.history = pre ++ .wrote fd .cancel false :: post) :
    ∀ fd' ok, .wrote fd' .cancel ok ∉ post :=
  (inv_reachable h).sound.cancel_once heq

theorem failed_cancel_not_retried_twice :
    ∃ s, machine.Reachable s ∧ ∀ fd ok, .wrote fd .cancel ok ∉ s.history.drop 3 :=
  have h : machine.Reachable _ := ⟨[.attach 5, .cancel false, .cancel true], rfl⟩
  ⟨_, h, failed_cancel_not_retried h (Eq.refl ([_, _] ++ _ :: _))⟩

end GlobalProtect.Native.CommandPipe
