import Mathlib.Data.Bool.Basic
import GlobalProtect.Lib.Machine

/-! # Handing over to the background

The model of `gpclient/src/background.rs` and of its use in `connect_gateway`. A launcher starts a
worker and waits until it says that it is ready, exits, or is not wanted any more. The worker signs in
with the terminal of the launcher; each attempt to connect redirects its standard streams, and the
first tunnel that is up detaches it from the terminal for good.

The two run interleaved, one operation in a step, and the worker may exit at any moment. A signal
asks it to; when it does so is up to it. `dup2`, `wait` and `kill` succeed. -/

namespace GlobalProtect.Client.Background

open Lib

/-! ### The worker -/

/-- What the descriptors 0, 1 and 2 refer to. -/
structure Stdio (δ : Type) where
  input : δ
  output : δ
  error : δ
  deriving DecidableEq

/-- Where the worker is; `saved` is the field of `BackgroundStdio`. -/
inductive Pc (δ : Type) where
  | outside
  /-- `redirect_stdio`. -/
  | flushOutput
  | flushError
  | saveInput
  | saveOutput (input : δ)
  | saveError (input output : δ)
  | dupInput (saved : Stdio δ)
  | dupOutput (saved : Stdio δ)
  | dupError (saved : Stdio δ)
  | inside (saved : Option (Stdio δ))
  /-- `detach`. -/
  | setsid (saved : Option (Stdio δ))
  | writeReady (saved : Option (Stdio δ))
  /-- The destructor of `BackgroundStdio`. -/
  | restoreInput (saved : Stdio δ)
  | restoreOutput (saved : Stdio δ)
  | restoreError (saved : Stdio δ)
  deriving DecidableEq

inductive Process where
  | unborn
  | running
  | exited
  | reaped
  deriving DecidableEq

/-! ### The launcher -/

inductive LaunchError where
  /-- "Cannot start background VPN worker", and what fails before it. -/
  | spawn
  /-- "Background connection cancelled" -/
  | cancelled
  /-- "Background VPN exited before the tunnel was established" -/
  | exited
  deriving DecidableEq

inductive Launcher where
  | starting
  | selecting
  | waiting (error : LaunchError)
  | returned (result : Except LaunchError Unit)
  deriving DecidableEq

def readyByte : UInt8 := 1

/-- `ready` is whether the worker still has its socket to the launcher, and `socket` what it wrote to
it and the launcher has not read; `leader` is whether `setsid` has succeeded. `written` counts the
bytes that say it is ready, and `detached` tells whether a `detach` has succeeded. -/
structure State (δ : Type) where
  launcher : Launcher := .starting
  process : Process := .unborn
  interrupted : Bool := false
  leader : Bool := false
  ready : Bool := true
  socket : List UInt8 := []
  written : ℕ := 0
  detached : Bool := false
  stdio : Stdio δ
  pc : Pc δ := .outside
  deriving DecidableEq

/-- The files that an attempt works with. -/
structure Files (δ : Type) where
  null : δ
  log : δ

def Files.redirected {δ : Type} (files : Files δ) : Stdio δ := ⟨files.null, files.log, files.log⟩

inductive Event where
  /-- The launcher: `spawn` fails, or something before it. -/
  | spawnFails
  | spawn
  | readReady
  | readFails
  | exitNoticed
  | shutdown
  | wait
  /-- The worker: an attempt begins, detaches, ends. -/
  | beginAttempt
  | detach
  | endAttempt
  /-- Its next operation succeeds or fails. -/
  | ok
  | fail
  | exit
  deriving DecidableEq

section Step

variable {δ : Type} (files : Files δ) (s : State δ)

def Launcher.isReturned : Launcher → Bool
  | .returned _ => true
  | _ => false

/-- The launcher has a worker to wait for. -/
def Launcher.hasWorker : Launcher → Bool
  | .selecting | .waiting _ => true
  | _ => false

/-- The worker's next operation succeeds. -/
def succeed : Option (State δ) :=
  match s.pc with
  | .flushOutput => some { s with pc := .flushError }
  | .flushError => some { s with pc := .saveInput }
  | .saveInput => some { s with pc := .saveOutput s.stdio.input }
  | .saveOutput input => some { s with pc := .saveError input s.stdio.output }
  | .saveError input output => some { s with pc := .dupInput ⟨input, output, s.stdio.error⟩ }
  | .dupInput saved => some { s with stdio.input := files.null, pc := .dupOutput saved }
  | .dupOutput saved => some { s with stdio.output := files.log, pc := .dupError saved }
  | .dupError saved => some { s with stdio.error := files.log, pc := .inside (some saved) }
  | .setsid saved =>
    -- the leader of a session cannot begin another
    if s.leader then none else some { s with leader := true, pc := .writeReady saved }
  | .writeReady _ =>
    if s.launcher.isReturned then none
    else
      some { s with
        socket := s.socket ++ [readyByte], written := s.written + 1, ready := false,
        detached := true, pc := .inside none }
  | .restoreInput saved => some { s with stdio.input := saved.input, pc := .restoreOutput saved }
  | .restoreOutput saved => some { s with stdio.output := saved.output, pc := .restoreError saved }
  | .restoreError saved => some { s with stdio.error := saved.error, pc := .outside }
  | .outside | .inside _ => none

/-- The worker's next operation fails. -/
def fail : Option (State δ) :=
  match s.pc with
  | .flushOutput | .flushError | .saveInput | .saveOutput _ | .saveError _ _ =>
    some { s with pc := .outside }
  | .setsid saved | .writeReady saved => some { s with pc := .inside saved }
  | _ => none

/-- A step of the worker. -/
def work : Event → Option (State δ)
  | .beginAttempt =>
    match s.pc with
    | .outside => some { s with pc := if s.ready then .flushOutput else .inside none }
    | _ => none
  | .detach =>
    match s.pc with
    | .inside saved => some { s with pc := if s.ready then .setsid saved else .inside saved }
    | _ => none
  | .endAttempt =>
    match s.pc with
    | .inside (some saved) => some { s with pc := .restoreInput saved }
    | .inside none => some { s with pc := .outside }
    | _ => none
  | .ok => succeed files s
  | .fail => fail s
  | .exit => some { s with process := .exited }
  | _ => none

/-- The launcher sends `SIGINT` and waits for the worker. -/
def interrupt (error : LaunchError) : State δ :=
  { s with interrupted := true, launcher := .waiting error }

def launch : Event → Option (State δ)
  | .spawnFails =>
    match s.launcher with
    | .starting => some { s with launcher := .returned (.error .spawn) }
    | _ => none
  | .spawn =>
    match s.launcher with
    | .starting => some { s with launcher := .selecting, process := .running }
    | _ => none
  | .readReady =>
    match s.launcher, s.socket with
    | .selecting, byte :: socket =>
      let s := { s with socket }
      if byte = readyByte then some { s with launcher := .returned (.ok ()) }
      else some (interrupt s .exited)
    | _, _ => none
  | .readFails =>
    match s.launcher with
    | .selecting => some (interrupt s .exited)
    | _ => none
  | .exitNoticed =>
    match s.launcher, s.process with
    | .selecting, .exited =>
      some { s with process := .reaped, launcher := .returned (.error .exited) }
    | _, _ => none
  | .shutdown =>
    match s.launcher with
    | .selecting => some (interrupt s .cancelled)
    | _ => none
  | .wait =>
    match s.launcher, s.process with
    | .waiting error, .exited =>
      some { s with process := .reaped, launcher := .returned (.error error) }
    | _, _ => none
  | _ => none

def step (event : Event) : Option (State δ) :=
  match event with
  | .spawnFails | .spawn | .readReady | .readFails | .exitNoticed | .shutdown | .wait => launch s event
  | _ => if s.process = .running then work files s event else none

end Step

/-- The launcher and its worker; `original` are the standard streams that the worker inherits. -/
def machine {δ : Type} (files : Files δ) (original : Stdio δ) : Machine (State δ) Event where
  init := { stdio := original }
  step := step files

/-! ### The standard streams -/

section Streams

variable {δ : Type} {files : Files δ} {original : Stdio δ} {s s' : State δ}

/-- The worker is in an attempt, with its streams redirected. -/
def Pc.inAttempt : Pc δ → Bool
  | .inside _ | .setsid _ | .writeReady _ => true
  | _ => false

/-- The standard streams, wherever the worker is. -/
def Streams (files : Files δ) (original : Stdio δ) (detached : Bool) (stdio : Stdio δ) :
    Pc δ → Prop
  | .outside => stdio = if detached then files.redirected else original
  | .flushOutput | .flushError | .saveInput => detached = false ∧ stdio = original
  | .saveOutput input => detached = false ∧ stdio = original ∧ input = original.input
  | .saveError input output => detached = false ∧ stdio = original ∧ input = original.input ∧
      output = original.output
  | .dupInput saved => detached = false ∧ saved = original ∧ stdio = original
  | .dupOutput saved => detached = false ∧ saved = original ∧
      stdio = { original with input := files.null }
  | .dupError saved => detached = false ∧ saved = original ∧
      stdio = { original with input := files.null, output := files.log }
  | .inside none => detached = true ∧ stdio = files.redirected
  | .inside (some saved) | .restoreInput saved => detached = false ∧ saved = original ∧
      stdio = files.redirected
  | .setsid saved | .writeReady saved => detached = false ∧ saved = some original ∧
      stdio = files.redirected
  | .restoreOutput saved => detached = false ∧ saved = original ∧
      stdio = { files.redirected with input := original.input }
  | .restoreError saved => detached = false ∧ saved = original ∧
      stdio = { original with error := files.log }

theorem Streams.of_inAttempt {pc : Pc δ} {detached : Bool} {stdio : Stdio δ}
    (h : Streams files original detached stdio pc) (hpc : pc.inAttempt = true) :
    stdio = files.redirected := by
  cases pc with
  | inside saved =>
    cases saved with
    | none => exact h.2
    | some saved => exact h.2.2
  | setsid _ | writeReady _ => exact h.2.2
  | _ => cases hpc

theorem Streams.of_detached {pc : Pc δ} {stdio : Stdio δ}
    (h : Streams files original true stdio pc) : stdio = files.redirected := by
  cases pc with
  | outside => exact h
  | inside saved =>
    cases saved with
    | none => exact h.2
    | some saved => exact absurd h.1 nofun
  | _ => exact absurd h.1 nofun

/-! ### One step -/

/-- The worker. -/
structure Sound (files : Files δ) (original : Stdio δ) (s : State δ) : Prop where
  streams : Streams files original s.detached s.stdio s.pc
  ready : s.ready = !s.detached
  written : s.written = if s.detached then 1 else 0
  leader : s.detached = true → s.leader = true
  writing : ∀ saved, s.pc = .writeReady saved → s.leader = true
  socket : s.socket ≠ [] → s.detached = true
  returned : s.launcher = .returned (.ok ()) → s.detached = true
  starting : s.launcher = .starting → s.process = .unborn
  waiting : ∀ error, s.launcher = .waiting error → s.interrupted = true ∧ error ≠ .spawn
  worker : s.launcher.hasWorker = true → s.process = .running ∨ s.process = .exited
  reaped : ∀ error, s.launcher = .returned (.error error) →
    s.process = if error = .spawn then .unborn else .reaped

section

variable (h : Sound files original s)
include h

theorem succeed_sound (hs : succeed files s = some s') : Sound files original s' := by
  obtain ⟨launcher, process, interrupted, leader, ready, socket, written, detached, stdio, pc⟩ := s
  have hstreams := h.streams
  cases pc with
  | flushOutput | flushError =>
    cases hs
    exact { h with streams := hstreams, writing := nofun }
  | saveInput =>
    cases hs
    exact { h with
      streams := ⟨hstreams.1, hstreams.2, congrArg Stdio.input hstreams.2⟩, writing := nofun }
  | saveOutput input =>
    obtain ⟨hdetached, hstdio, hinput⟩ := hstreams
    cases hs
    exact { h with
      streams := ⟨hdetached, hstdio, hinput, congrArg Stdio.output hstdio⟩, writing := nofun }
  | saveError input output =>
    obtain ⟨hdetached, hstdio, rfl, rfl⟩ := hstreams
    cases hs
    have hsaved : Stdio.mk original.input original.output stdio.error = original := by
      rw [show stdio = original from hstdio]
    exact { h with streams := ⟨hdetached, hsaved, hstdio⟩, writing := nofun }
  | dupInput saved | dupOutput saved | dupError saved =>
    obtain ⟨hdetached, hsaved, rfl⟩ := hstreams
    cases hs
    exact { h with streams := ⟨hdetached, hsaved, rfl⟩, writing := nofun }
  | setsid saved =>
    dsimp only [succeed] at hs
    split_ifs at hs
    cases hs
    exact { h with streams := hstreams, leader := fun _ => rfl, writing := fun _ _ => rfl }
  | writeReady saved =>
    obtain ⟨rfl, -, hstdio⟩ := hstreams
    dsimp only [succeed] at hs
    split_ifs at hs
    cases hs
    have hwritten : written = 0 := h.written
    exact { h with
      streams := ⟨rfl, hstdio⟩, ready := rfl, written := congrArg (· + 1) hwritten
      leader := fun _ => h.writing saved rfl, writing := nofun, socket := fun _ => rfl
      returned := fun _ => rfl }
  | restoreInput saved | restoreOutput saved =>
    obtain ⟨hdetached, rfl, rfl⟩ := hstreams
    cases hs
    exact { h with streams := ⟨hdetached, rfl, rfl⟩, writing := nofun }
  | restoreError saved =>
    obtain ⟨rfl, rfl, rfl⟩ := hstreams
    cases hs
    exact { h with streams := rfl, writing := nofun }
  | outside | inside _ => cases hs

theorem fail_sound (hs : fail s = some s') : Sound files original s' := by
  obtain ⟨launcher, process, interrupted, leader, ready, socket, written, detached, stdio, pc⟩ := s
  have hstreams := h.streams
  cases pc with
  | flushOutput | flushError | saveInput =>
    obtain ⟨rfl, hstdio⟩ := hstreams
    cases hs
    exact { h with streams := hstdio, writing := nofun }
  | saveOutput _ | saveError _ _ =>
    obtain ⟨rfl, hstdio, -⟩ := hstreams
    cases hs
    exact { h with streams := hstdio, writing := nofun }
  | setsid saved | writeReady saved =>
    -- the streams that were saved are restored when the attempt ends
    obtain ⟨hdetached, rfl, hstdio⟩ := hstreams
    cases hs
    exact { h with streams := ⟨hdetached, rfl, hstdio⟩, writing := nofun }
  | _ => cases hs

theorem work_sound {event : Event} (hrunning : s.process = .running)
    (hs : work files s event = some s') : Sound files original s' := by
  obtain ⟨launcher, process, interrupted, leader, ready, socket, written, detached, stdio, pc⟩ := s
  have hstreams := h.streams
  have hready := h.ready
  dsimp only at hready hrunning
  subst hready hrunning
  cases event with
  | beginAttempt =>
    cases pc with
    | outside =>
      cases detached with
      | false | true =>
        cases hs
        exact { h with streams := ⟨rfl, hstreams⟩, writing := nofun }
    | _ => cases hs
  | detach =>
    cases pc with
    | inside saved =>
      cases saved with
      | none =>
        obtain ⟨rfl, hstdio⟩ := hstreams
        cases hs
        exact h
      | some saved =>
        obtain ⟨rfl, rfl, hstdio⟩ := hstreams
        cases hs
        exact { h with streams := ⟨rfl, rfl, hstdio⟩, writing := nofun }
    | _ => cases hs
  | endAttempt =>
    cases pc with
    | inside saved =>
      cases saved with
      | none =>
        obtain ⟨rfl, hstdio⟩ := hstreams
        cases hs
        exact { h with streams := hstdio, writing := nofun }
      | some saved =>
        cases hs
        exact { h with streams := hstreams, writing := nofun }
    | _ => cases hs
  | ok => exact succeed_sound h hs
  | fail => exact fail_sound h hs
  | exit =>
    cases hs
    refine { h with
      starting := fun hstarting => ?_, worker := fun _ => .inr rfl, reaped := fun error herror => ?_ }
    · exact absurd (h.starting hstarting) nofun
    · have hreaped := h.reaped error herror
      dsimp only at hreaped
      split_ifs at hreaped
  | _ => cases hs

theorem launch_sound {event : Event} (hs : launch s event = some s') : Sound files original s' := by
  obtain ⟨launcher, process, interrupted, leader, ready, socket, written, detached, stdio, pc⟩ := s
  cases event with
  | spawnFails =>
    cases launcher with
    | starting =>
      cases hs
      refine { h with
        returned := nofun, starting := nofun, waiting := nofun, worker := nofun
        reaped := fun error herror => ?_ }
      cases herror
      exact h.starting rfl
    | _ => cases hs
  | spawn =>
    cases launcher with
    | starting =>
      cases hs
      exact { h with
        returned := nofun, starting := nofun, waiting := nofun, worker := fun _ => .inl rfl
        reaped := nofun }
    | _ => cases hs
  | readReady =>
    cases launcher with
    | selecting =>
      cases socket with
      | nil => cases hs
      | cons byte socket =>
        have hdetached : detached = true := h.socket nofun
        dsimp only [launch] at hs
        split_ifs at hs
        · cases hs
          exact { h with
            socket := fun _ => hdetached, returned := fun _ => hdetached, starting := nofun
            waiting := nofun, worker := nofun, reaped := nofun }
        · cases hs
          exact { h with
            socket := fun _ => hdetached, returned := nofun, starting := nofun
            waiting := fun _ herror => by cases herror; exact ⟨rfl, nofun⟩
            worker := fun _ => h.worker rfl, reaped := nofun }
    | _ => cases hs
  | readFails | shutdown =>
    cases launcher with
    | selecting =>
      cases hs
      exact { h with
        returned := nofun, starting := nofun, worker := fun _ => h.worker rfl, reaped := nofun
        waiting := fun _ herror => by cases herror; exact ⟨rfl, nofun⟩ }
    | _ => cases hs
  | exitNoticed =>
    cases launcher with
    | selecting =>
      cases process with
      | exited =>
        cases hs
        exact { h with
          returned := nofun, starting := nofun, waiting := nofun, worker := nofun
          reaped := fun _ herror => by cases herror; rfl }
      | _ => cases hs
    | _ => cases hs
  | wait =>
    cases launcher with
    | waiting error =>
      cases process with
      | exited =>
        cases hs
        refine { h with
          returned := nofun, starting := nofun, waiting := nofun, worker := nofun
          reaped := fun _ herror => ?_ }
        cases herror
        exact (if_neg (h.waiting error rfl).2).symm
      | _ => cases hs
    | _ => cases hs
  | _ => cases hs

theorem step_sound {event : Event}
    (hs : step files s event = some s') : Sound files original s' := by
  unfold step at hs
  split at hs
  case h_8 =>
    split_ifs at hs with hrunning
    exact work_sound h hrunning hs
  all_goals exact launch_sound h hs

end

/-- What a step does to the count: nothing, unless the worker is about to say that it is ready. -/
def Counts (s s' : State δ) : Prop :=
  s'.written = s.written ∧ s'.detached = s.detached ∨
    s'.detached = true ∧ ∃ saved, s.pc = .writeReady saved

theorem launch_counts {event : Event} (hs : launch s event = some s') : Counts s s' := by
  have hsame : s'.written = s.written ∧ s'.detached = s.detached := by
    unfold launch at hs
    split at hs
    case h_3 =>
      split at hs
      · dsimp only at hs
        split_ifs at hs <;> cases hs <;> exact ⟨rfl, rfl⟩
      · cases hs
    case h_8 => cases hs
    all_goals split at hs
    all_goals cases hs
    all_goals exact ⟨rfl, rfl⟩
  exact .inl hsame

theorem succeed_counts (hs : succeed files s = some s') : Counts s s' := by
  unfold succeed at hs
  split at hs
  case h_9 =>
    split_ifs at hs
    cases hs
    exact .inl ⟨rfl, rfl⟩
  case h_10 saved hpc =>
    split_ifs at hs
    cases hs
    exact .inr ⟨rfl, saved, hpc⟩
  all_goals cases hs
  all_goals exact .inl ⟨rfl, rfl⟩

theorem work_counts {event : Event} (hs : work files s event = some s') : Counts s s' := by
  unfold work at hs
  split at hs
  case h_4 => exact succeed_counts hs
  case h_5 =>
    unfold fail at hs
    split at hs
    all_goals cases hs
    all_goals exact .inl ⟨rfl, rfl⟩
  case h_6 =>
    cases hs
    exact .inl ⟨rfl, rfl⟩
  case h_7 => cases hs
  all_goals split at hs <;> cases hs <;> exact .inl ⟨rfl, rfl⟩

theorem step_counts {event : Event} (hs : step files s event = some s') : Counts s s' := by
  unfold step at hs
  split at hs
  case h_8 =>
    split_ifs at hs
    exact work_counts hs
  all_goals exact launch_counts hs

/-! ### Runs -/

theorem sound_of_reachable (hs : (machine files original).Reachable s) : Sound files original s := by
  refine Machine.Reachable.invariant ?_ (fun _ _ _ _ h hstep => step_sound h hstep) hs
  exact ⟨rfl, rfl, rfl, nofun, nofun, fun h => absurd rfl h, nofun, fun _ => rfl, nofun,
    nofun, nofun⟩

def sampleEvents : List Event :=
  [.spawn, .beginAttempt, .ok, .ok, .ok, .ok, .ok, .ok, .ok, .ok, .endAttempt, .ok, .ok, .ok,
    .beginAttempt, .ok, .ok, .ok, .ok, .ok, .ok, .ok, .ok, .detach, .ok, .ok, .readReady, .endAttempt,
    .beginAttempt]

def sampleMachine : Machine (State ℕ) Event := machine ⟨3, 4⟩ ⟨0, 1, 2⟩

/-- What happens to a worker that is not wanted any more: it is interrupted, and the launcher returns
when it has exited. -/
def Abandoned (s : State δ) (error : LaunchError) : Prop :=
  s.interrupted = true ∧ (s.process = .running ∨ s.process = .exited) ∧
    (s.process = .exited → ∃ s', launch s .wait = some s' ∧
      s'.launcher = .returned (.error error) ∧ s'.process = .reaped)

theorem Sound.abandoned (h : Sound files original s) {error : LaunchError}
    (hwaiting : s.launcher = .waiting error) : Abandoned s error := by
  refine ⟨(h.waiting error hwaiting).1, h.worker (by rw [hwaiting]; rfl), fun hexited => ?_⟩
  exact ⟨{ s with process := .reaped, launcher := .returned (.error error) },
    by simp [launch, hwaiting, hexited], rfl, rfl⟩

theorem launch_abandons {event : Event} (hevent : event = .shutdown ∨ event = .readFails)
    (hs : launch s event = some s') : ∃ error, s'.launcher = .waiting error := by
  rcases hevent with rfl | rfl
  all_goals
    dsimp only [launch] at hs
    split at hs
    · cases hs
      exact ⟨_, rfl⟩
    · cases hs

/-- **The handover.** The worker says at most once that it is ready, when it has a session of its own;
the launcher succeeds only if it has said so, and otherwise leaves no worker behind; a worker that is
not wanted any more is interrupted, and the launcher returns when it has exited; the standard
streams are redirected in attempts, and for good once the worker is detached. -/
theorem background_handover (hs : (machine files original).Reachable s) :
    s.written ≤ 1 ∧
    (∀ event s', (machine files original).step s event = some s' → s.written < s'.written →
      s.leader = true) ∧
    (s.launcher = .returned (.ok ()) → s.written = 1) ∧
    (∀ error, s.launcher = .returned (.error error) →
      s.process = if error = .spawn then .unborn else .reaped) ∧
    (∀ error, s.launcher = .waiting error → Abandoned s error) ∧
    (∀ event s', event = .shutdown ∨ event = .readFails →
      (machine files original).step s event = some s' →
        ∃ error, s'.launcher = .waiting error ∧ Abandoned s' error) ∧
    (s.pc = .outside → s.detached = false → s.stdio = original) ∧
    (s.pc.inAttempt = true → s.stdio = files.redirected) ∧
    ∀ ls s', (machine files original).run s ls = some s' → s.detached = true →
      s'.detached = true ∧ s'.stdio = files.redirected := by
  have hsound := sound_of_reachable hs
  refine ⟨?_, ?_, ?_, hsound.reaped, fun error h => hsound.abandoned h, ?_, ?_,
    hsound.streams.of_inAttempt, ?_⟩
  · rw [hsound.written]
    split_ifs <;> decide
  · intro event s' hstep hlt
    rcases step_counts hstep with ⟨hsame, -⟩ | ⟨-, saved, hpc⟩
    · omega
    · exact hsound.writing saved hpc
  · intro hreturned
    rw [hsound.written, hsound.returned hreturned]
    rfl
  · intro event s' hevent hstep
    have hlaunch : launch s event = some s' := by rcases hevent with rfl | rfl <;> exact hstep
    obtain ⟨error, hwaiting⟩ := launch_abandons hevent hlaunch
    exact ⟨error, hwaiting, (step_sound hsound hstep).abandoned hwaiting⟩
  · intro hpc hdetached
    have hstreams := hsound.streams
    rw [hpc, hdetached] at hstreams
    exact hstreams
  · intro ls s' hrun hdetached
    have hdetached' : s'.detached = true := by
      refine Machine.run_keeps (P := fun s => s.detached = true) ?_ ls s hdetached hrun
      intro m event m' hm hstep
      rcases step_counts hstep with ⟨-, hsame⟩ | ⟨hset, -⟩
      · rw [hsame, hm]
      · exact hset
    have hstreams := (sound_of_reachable (hs.run hrun)).streams
    rw [hdetached'] at hstreams
    exact ⟨hdetached', hstreams.of_detached⟩

theorem background_handover_sample : (∃ s, sampleMachine.Reachable s ∧
    (s.launcher = .returned (.ok ()) ∧ s.pc = .inside none) ∧ s.written = 1 ∧
    s.stdio = ⟨3, 4, 4⟩) ∧
    ∃ s, sampleMachine.Reachable s ∧ s.launcher = .waiting .cancelled ∧
      Abandoned s .cancelled := by
  obtain ⟨s, hs, hstate⟩ := Machine.Reachable.of_run (M := sampleMachine)
    (p := fun s => s.launcher = .returned (.ok ()) ∧ s.pc = .inside none) sampleEvents
    (by decide +kernel)
  have hstate := of_decide_eq_true hstate
  obtain ⟨-, -, hwritten, -, -, -, -, hinside, -⟩ := background_handover hs
  have hstopped : sampleMachine.Reachable _ := ⟨[.spawn, .beginAttempt, .shutdown, .exit], rfl⟩
  obtain ⟨-, -, -, -, habandoned, -⟩ := background_handover hstopped
  exact ⟨⟨s, hs, hstate, hwritten hstate.1, hinside (by rw [hstate.2]; rfl)⟩, _, hstopped, rfl,
    habandoned _ rfl⟩

end Streams

end GlobalProtect.Client.Background
