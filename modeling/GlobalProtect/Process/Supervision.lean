import GlobalProtect.Process.CommandRunner

/-! # Commands are bounded, observed and reaped

What holds in every run of the machine of `Process.CommandRunner`. The numbers of operations follow
from the control flow alone (`Follows`); what the call knows about the pipes and the child follows
from an invariant, which has one part for wherever the call is (`Core`) and one for each place
(`Knows`). -/

namespace GlobalProtect.Process.CommandRunner

open Lib

/-! ### Events and places -/

/-- An operation of the call. -/
def Event.isOwn : Event → Bool
  | .run _ => true
  | .around _ => false

def Event.isCheck : Event → Bool
  | .run (.check _) => true
  | _ => false

def Event.isWrite : Event → Bool
  | .run (.write _) => true
  | _ => false

def Event.isRead (stream : Stream) : Event → Bool
  | .run (.read stream' _) => stream' = stream
  | _ => false

/-- What is returned when the child is gone. -/
def Pc.result : Pc → Option Result
  | .drop result | .wait result | .returned result => some result
  | _ => none

def Pc.isReturned : Pc → Bool
  | .returned _ => true
  | _ => false

/-- The writes to come before the next check. -/
def Pc.writes : Pc → ℕ
  | .write => 1
  | _ => 0

/-- The reads of a pipe to come before the next check. -/
def Pc.reads : Stream → Pc → ℕ
  | _, .write | _, .readStdout | .stderr, .readStderr => 1
  | _, _ => 0

/-- The operations to come, at most, if the call returns at its next deadline. -/
def Pc.remaining : Pc → ℕ
  | .start => 13
  | .spawn => 12
  | .nonblocking | .sleep => 11
  | .check => 10
  | .write => 9
  | .readStdout => 8
  | .readStderr => 7
  | .sink _ => 6
  | .tryWait => 5
  | .stopHelpers => 4
  | .deadline => 3
  | .drop _ => 2
  | .wait _ => 1
  | .returned _ => 0

section Follows

variable {pc pc' : Pc} {operation : Operation}

theorem Follows.writes_le (h : Follows pc operation pc')
    (hcheck : Event.isCheck (.run operation) = false) :
    pc'.writes + (if Event.isWrite (.run operation) then 1 else 0) ≤ pc.writes := by
  cases h with
  | check => cases hcheck
  | _ => simp [Pc.writes, Event.isWrite]

theorem Follows.reads_le (stream : Stream) (h : Follows pc operation pc')
    (hcheck : Event.isCheck (.run operation) = false) :
    pc'.reads stream + (if Event.isRead stream (.run operation) then 1 else 0) ≤
      pc.reads stream := by
  cases h with
  | check => cases hcheck
  | _ => cases stream <;> simp [Pc.reads, Event.isRead]

theorem Follows.remaining_lt (h : Follows pc operation pc')
    (hdeadline : pc = .deadline → pc'.result.isSome = true) : pc'.remaining < pc.remaining := by
  cases h with
  | again | idle => exact absurd (hdeadline rfl) nofun
  | _ => simp [Pc.remaining]

theorem Follows.result_eq {result : Result} (h : Follows pc operation pc')
    (hresult : pc.result = some result) : pc'.result = some result := by
  cases h with
  | dropStop | dropStopped | wait => exact hresult
  | _ => cases hresult

end Follows

/-! ### What the call knows -/

section Invariant

variable {call : Call} {s s' : State}

/-- What holds wherever the call is. -/
structure Core (call : Call) (s : State) : Prop where
  stdoutSound : s.stdout.Sound
  stderrSound : s.stderr.Sound
  limit : ∀ limit ∈ call.outputLimit, s.output.length ≤ limit
  unlimited : call.outputLimit = none → s.stdoutEof = true ∧ s.output = []
  stdoutEnd : call.outputLimit.isSome = true → s.stdoutEof = true → s.stdout.atEnd = true
  unobserved : call.observation = false → s.stderrEof = true
  stderrEnd : call.observation = true → s.stderrEof = true → s.stderr.atEnd = true
  observed : s.observed = s.stderr.seen
  received : ∀ frame ∈ call.stdinFrame,
    s.inputOffset ≤ frame.length ∧ s.received = frame.take s.inputOffset
  inputError : s.inputError.isSome = true → inputRemains call s = true
  exited : s.exitedAt.isSome = s.status.isSome
  reaped : ∀ status ∈ s.status, s.child = .reaped status
  target : ∀ target ∈ s.stopped, target = call.target

/-- Everything that was read was kept, or passed on. -/
def Streams (s : State) : Prop := s.output = s.stdout.seen ∧ s.observed = s.sunk

/-- The child is there, and nothing has gone wrong. -/
def InLoop (s : State) : Prop := Streams s ∧ s.child ≠ .unborn

structure Answers (call : Call) (s : State) (result : ObservedOutput) : Prop where
  status : s.status = some result.output.status
  stdout : result.output.stdout = s.output
  stderr : result.output.stderr = []
  due : s.due = true
  inputError : result.inputError = none ↔ inputRemains call s = false

/-- What a result says about the state it is returned from. -/
def Outcome (call : Call) (s : State) : Result → Prop
  | .ok result => Streams s ∧ Answers call s result
  | .error error =>
    (s.output = s.stdout.seen ∨ error = outputExceedsLimit) ∧ s.sunk <+: s.observed

/-- The child was not spawned, or it was killed and waited for. -/
def Gone (s : State) (result : Result) : Prop :=
  (s.child = .unborn ∧ ∃ error, result = .error error) ∨
    (∃ status, s.child = .reaped status) ∧ s.stopped.isSome = true

/-- What holds where the call is. -/
def Knows (call : Call) (s : State) : Pc → Prop
  | .start | .spawn => Streams s ∧ s.child = .unborn
  | .sink chunk =>
    s.output = s.stdout.seen ∧ s.observed = s.sunk ++ chunk ∧ s.child ≠ .unborn
  | .drop result => Outcome call s result ∧ s.child ≠ .unborn
  | .wait result => Outcome call s result ∧ s.child ≠ .unborn ∧ s.stopped.isSome = true
  | .returned result => Outcome call s result ∧ Gone s result
  | _ => InLoop s

/-- What does not go back: the ends of the pipes, the time, and the exit that was noticed. -/
structure Later (s s' : State) : Prop where
  stdoutEof : s.stdoutEof = true → s'.stdoutEof = true
  stderrEof : s.stderrEof = true → s'.stderrEof = true
  now : s.now ≤ s'.now
  exitedAt : ∀ exitedAt ∈ s.exitedAt, s'.exitedAt = some exitedAt

theorem Later.refl (s : State) : Later s s := ⟨id, id, le_rfl, fun _ h => h⟩

theorem Later.due (h : Later s s') (hdue : s.due = true) : s'.due = true := by
  unfold State.due at *
  cases hexit : s.exitedAt with
  | none => rw [hexit] at hdue; cases hdue
  | some exitedAt =>
    rw [hexit] at hdue
    rw [h.exitedAt exitedAt hexit]
    simp only [Bool.or_eq_true, Bool.and_eq_true, decide_eq_true_eq] at hdue ⊢
    rcases hdue with ⟨hout, herr⟩ | htime
    · exact .inl ⟨h.stdoutEof hout, h.stderrEof herr⟩
    · have hnow := h.now
      exact .inr (by omega)

/-- The invariant after a step, and that the step went forward. -/
structure Kept (call : Call) (s s' : State) : Prop where
  core : Core call s'
  knows : Knows call s' s'.pc
  later : Later s s'

/-- The same after an operation at `pc`. -/
structure Moved (call : Call) (s : State) (pc : Pc) (operation : Operation) (s' : State) : Prop
    extends Kept call s s' where
  follows : Follows pc operation s'.pc

variable {pc pc' : Pc} {operation : Operation}

theorem readable_zero {pipe : Pipe UInt8} (h : readable pipe 0 = true) : pipe.atEnd = true := h

theorem readable_length {pipe : Pipe UInt8} {length : ℕ} (h : readable pipe length = true)
    (hlength : length ≠ 0) : (pipe.chunk length).length = length := by
  rw [readable, if_neg hlength, Bool.and_eq_true] at h
  exact of_decide_eq_true h.2

theorem Child.kill_eq_unborn {child : Child} {reached : Bool} :
    child.kill reached = .unborn ↔ child = .unborn := by
  cases child <;> cases reached <;> simp [Child.kill]

section

variable (hc : Core call s)
include hc

theorem Moved.jump (hf : Follows pc operation pc')
    (hk : Knows call { s with pc := pc' } pc') : Moved call s pc operation { s with pc := pc' } :=
  ⟨⟨{ hc with }, hk, { Later.refl s with }⟩, hf⟩

theorem Moved.fail (hk : InLoop s) {error : IoError}
    (hf : Follows pc operation (.drop (.error error))) :
    Moved call s pc operation (fail s error) :=
  .jump hc hf ⟨⟨.inl hk.1.1, hk.1.2 ▸ List.prefix_refl _⟩, hk.2⟩

/-! ### The operations -/

theorem inputRemains_eq_false :
    inputRemains call s = false ↔ ∀ frame ∈ call.stdinFrame, s.received = frame := by
  unfold inputRemains
  cases hframe : call.stdinFrame with
  | none => simp
  | some frame =>
    obtain ⟨hoffset, hreceived⟩ := hc.received frame hframe
    simp only [Option.any_some, decide_eq_false_iff_not, Option.mem_def, Option.some.injEq,
      forall_eq', hreceived, List.take_eq_self_iff]
    omega

theorem writeFrame_moved {frame : List UInt8} {result : Except IoError ℕ}
    (hk : InLoop s) (hframe : call.stdinFrame = some frame) (hremains : inputRemains call s = true)
    (hnone : s.inputError.isNone = true) (hs : writeFrame s frame result = some s') :
    Moved call s .write (.write result) s' := by
  obtain ⟨hoffset, hreceived⟩ := hc.received frame hframe
  unfold writeFrame at hs
  split at hs
  · cases hs
    exact ⟨⟨{ hc with inputError := fun _ => hremains }, hk, { Later.refl s with }⟩, .write _⟩
  · next length _ =>
    split_ifs at hs with hlength
    cases hs
    refine ⟨⟨{ hc with received := ?_, inputError := ?_ }, hk, { Later.refl s with }⟩, .write _⟩
    · intro frame' hframe'
      obtain rfl := Option.some.inj (hframe.symm.trans hframe')
      dsimp only
      refine ⟨by omega, ?_⟩
      rw [hreceived, List.take_add]
    · intro hsome
      rw [Option.isNone_iff_eq_none.mp hnone] at hsome
      cases hsome
  · split_ifs at hs <;> cases hs
    · exact .jump hc (.write _) hk
    · exact ⟨⟨{ hc with inputError := fun _ => hremains }, hk, { Later.refl s with }⟩, .write _⟩

theorem readOutput_moved {limit : ℕ} {result : Except IoError ℕ}
    (hk : InLoop s) (hlimit : call.outputLimit = some limit) (heof : ¬s.stdoutEof = true)
    (hs : readOutput s limit result = some s') :
    Moved call s .readStdout (.read .stdout result) s' := by
  have hunlimited : call.outputLimit ≠ none := by rw [hlimit]; nofun
  have hnow := hc.limit limit hlimit
  cases result with
  | ok length =>
    dsimp only [readOutput] at hs
    split_ifs at hs with hreadable hzero hover
    · -- the end of the output
      cases hs
      subst hzero
      exact ⟨⟨{ hc with
          unlimited := fun h => absurd h hunlimited
          stdoutEnd := fun _ _ => readable_zero hreadable },
        hk, { Later.refl s with stdoutEof := fun _ => rfl }⟩, .readStdout _⟩
    · -- too much of it: what was read is dropped
      cases hs
      exact ⟨⟨{ hc with
          stdoutSound := Pipe.sound_read hc.stdoutSound length
          stdoutEnd := fun _ h => absurd h heof },
        ⟨⟨.inr rfl, hk.1.2 ▸ List.prefix_refl _⟩, hk.2⟩, { Later.refl s with }⟩, .stdoutFails _ _⟩
    · cases hs
      have hchunk := readable_length hreadable hzero
      refine ⟨⟨{ hc with
          stdoutSound := Pipe.sound_read hc.stdoutSound length, limit := ?_
          unlimited := fun h => absurd h hunlimited, stdoutEnd := fun _ h => absurd h heof },
        ⟨⟨?_, hk.1.2⟩, hk.2⟩, { Later.refl s with }⟩, .readStdout _⟩
      · intro limit' hlimit'
        obtain rfl := Option.some.inj (hlimit.symm.trans hlimit')
        rw [List.length_append]
        omega
      · exact (congrArg (· ++ _) hk.1.1).trans (Pipe.seen_read length).symm
  | error error =>
    dsimp only [readOutput] at hs
    split_ifs at hs <;> cases hs
    · exact .jump hc (.readStdout _) hk
    · exact .fail hc hk (.stdoutFails _ _)

theorem readDiagnostics_moved {result : Except IoError ℕ} (hk : InLoop s)
    (heof : ¬s.stderrEof = true) (hs : readDiagnostics s result = some s') :
    Moved call s .readStderr (.read .stderr result) s' := by
  cases result with
  | ok length =>
    dsimp only [readDiagnostics] at hs
    split_ifs at hs with hreadable hzero
    · cases hs
      subst hzero
      exact ⟨⟨{ hc with
          unobserved := fun _ => rfl, stderrEnd := fun _ _ => readable_zero hreadable },
        hk, { Later.refl s with stderrEof := fun _ => rfl }⟩, .emptyStderr _⟩
    · cases hs
      refine ⟨⟨{ hc with
          stderrSound := Pipe.sound_read hc.stderrSound length
          stderrEnd := fun _ h => absurd h heof, observed := ?_ },
        ⟨hk.1.1, congrArg (· ++ _) hk.1.2, hk.2⟩, { Later.refl s with }⟩, .readStderr _ _⟩
      exact (congrArg (· ++ _) hc.observed).trans (Pipe.seen_read length).symm
  | error error =>
    dsimp only [readDiagnostics] at hs
    split_ifs at hs <;> cases hs
    · exact .jump hc (.emptyStderr _) hk
    · exact .fail hc hk (.stderrFails _ _)

theorem atSink_moved {chunk : List UInt8} (hk : Knows call s (.sink chunk))
    (hs : atSink s chunk operation = some s') : Moved call s (.sink chunk) operation s' := by
  obtain ⟨houtput, hobserved, hchild⟩ := hk
  unfold atSink at hs
  split at hs <;> cases hs
  · exact ⟨⟨{ hc with }, ⟨⟨houtput, hobserved⟩, hchild⟩, { Later.refl s with }⟩, .sink _⟩
  · -- the observer has seen more than the sink
    next count =>
    refine ⟨⟨{ hc with }, ⟨⟨.inl houtput, ?_⟩, hchild⟩, { Later.refl s with }⟩, .sinkFails _ _ _⟩
    dsimp only [fail]
    rw [hobserved, List.prefix_append_right_inj]
    exact List.take_prefix count chunk

theorem atTryWait_moved (hk : InLoop s) (hs : atTryWait s operation = some s') :
    Moved call s .tryWait operation s' := by
  unfold atTryWait at hs
  split_ifs at hs with hstatus
  · split at hs <;> cases hs
    exact .jump hc .noWait hk
  · have hexit : ¬s.exitedAt.isSome = true := by rwa [hc.exited]
    split at hs
    · split at hs <;> cases hs
      · refine ⟨⟨{ hc with exited := rfl, reaped := fun status h => ?_ }, ⟨hk.1, nofun⟩,
          { Later.refl s with exitedAt := fun t ht => ?_ }⟩, .noticed⟩
        · rw [Option.some.inj h]
        · exact absurd (Option.isSome_of_mem ht) hexit
      · exact .jump hc .unnoticed hk
    · cases hs
      exact .fail hc hk (.waitFails _)
    · cases hs

theorem stopHelpers_kept {next : Pc} (hs : stopHelpers call s next operation = some s') :
    Core call s' ∧ Later s s' ∧ s'.stopped.isSome = true ∧ s'.pc = next ∧
      (s.child ≠ .unborn → s'.child ≠ .unborn) ∧ (Streams s → Streams s') ∧
      (∀ result, Outcome call s result → Outcome call s' result) := by
  obtain ⟨reached, rfl, rfl⟩ | ⟨rfl, hstopped, rfl⟩ := stopHelpers_cases hs
  · refine ⟨{ hc with reaped := ?_, target := ?_ }, { Later.refl s with }, rfl, rfl, ?_, id, ?_⟩
    · intro status hstatus
      exact congrArg (Child.kill reached) (hc.reaped status hstatus)
    · intro target htarget
      exact (Option.some.inj htarget).symm
    · exact fun h => mt Child.kill_eq_unborn.mp h
    · intro result h
      cases result with
      | ok result => exact ⟨h.1, { h.2 with }⟩
      | error error => exact h
  · refine ⟨{ hc with }, { Later.refl s with }, hstopped, rfl, id, id, ?_⟩
    intro result h
    cases result with
    | ok result => exact ⟨h.1, { h.2 with }⟩
    | error error => exact h

theorem observedOutput_answers {status : ℤ} (hstatus : s.status = some status)
    (hdue : s.due = true) : Answers call s (observedOutput call s status) where
  status := hstatus
  stdout := rfl
  stderr := rfl
  due := hdue
  inputError := by
    dsimp only [observedOutput]
    have herror := hc.inputError
    cases hremains : inputRemains call s with
    | true => cases s.inputError <;> simp
    | false =>
      rw [hremains] at herror
      cases herror' : s.inputError with
      | none => simp
      | some error => rw [herror'] at herror; cases herror rfl

theorem atWait_moved {result : Result} (hk : Knows call s (.wait result))
    (hs : atWait s result operation = some s') : Moved call s (.wait result) operation s' := by
  obtain ⟨houtcome, -, hstopped⟩ := hk
  have key : ∀ status : ℤ, (∀ status' ∈ s.status, status' = status) →
      Kept call s { s with child := .reaped status, pc := .returned result } := by
    intro status heq
    refine ⟨{ hc with reaped := fun status' h => by rw [heq status' h] },
      ⟨?_, .inr ⟨⟨status, rfl⟩, hstopped⟩⟩, { Later.refl s with }⟩
    cases result with
    | ok result => exact ⟨houtcome.1, { houtcome.2 with }⟩
    | error error => exact houtcome
  unfold atWait at hs
  split at hs
  · split at hs <;> cases hs
    · next status hchild =>
      refine ⟨key status fun status' h => ?_, .wait result⟩
      cases hchild.symm.trans (hc.reaped status' h)
    · next status hchild =>
      refine ⟨key status fun status' h => ?_, .wait result⟩
      exact (Child.reaped.inj (hchild.symm.trans (hc.reaped status' h))).symm
  · cases hs

theorem operate_moved (hk : Knows call s s.pc)
    (hs : operate call s operation = some s') : Moved call s s.pc operation s' := by
  unfold operate at hs
  generalize s.pc = pc at hs hk ⊢
  cases pc with
  | start =>
    dsimp only [atStart] at hs
    split at hs <;> cases hs
    · exact .jump hc .start hk
    · exact .jump hc (.refused _)
        ⟨⟨.inl hk.1.1, hk.1.2 ▸ List.prefix_refl _⟩, .inl ⟨hk.2, _, rfl⟩⟩
  | spawn =>
    dsimp only [atSpawn] at hs
    split at hs <;> cases hs
    · refine ⟨⟨{ hc with reaped := fun status h => ?_ }, ⟨hk.1, nofun⟩, { Later.refl s with }⟩,
        .spawn⟩
      cases hk.2.symm.trans (hc.reaped status h)
    · exact .jump hc (.unspawned _)
        ⟨⟨.inl hk.1.1, hk.1.2 ▸ List.prefix_refl _⟩, .inl ⟨hk.2, _, rfl⟩⟩
  | nonblocking =>
    dsimp only [atNonblocking] at hs
    split at hs <;> cases hs
    · exact .jump hc .nonblocking hk
    · exact .fail hc hk (.blocking _)
  | check =>
    dsimp only [atCheck] at hs
    split at hs <;> cases hs
    · exact ⟨⟨{ hc with }, hk, { Later.refl s with }⟩, .check⟩
    · exact .fail hc hk (.cancelled _)
  | write =>
    dsimp only [atWrite] at hs
    split_ifs at hs with hremains
    · rw [Bool.and_eq_true] at hremains
      split at hs
      · next frame hframe => exact writeFrame_moved hc hk hframe hremains.1 hremains.2 hs
      · cases hs
    · split at hs <;> cases hs
      exact .jump hc .noInput hk
  | readStdout =>
    dsimp only [atReadStdout] at hs
    split_ifs at hs with heof
    · split at hs <;> cases hs
      exact .jump hc .noStdout hk
    · split at hs
      · next limit hlimit => exact readOutput_moved hc hk hlimit heof hs
      · cases hs
  | readStderr =>
    dsimp only [atReadStderr] at hs
    split_ifs at hs with heof
    · split at hs <;> cases hs
      exact .jump hc .noStderr hk
    · split at hs
      · exact readDiagnostics_moved hc hk heof hs
      · cases hs
  | sink chunk => exact atSink_moved hc hk hs
  | tryWait => exact atTryWait_moved hc hk hs
  | stopHelpers =>
    obtain ⟨hcore, hlater, -, hpc, hchild, hstreams, -⟩ := stopHelpers_kept hc hs
    refine ⟨⟨hcore, hpc ▸ ⟨hstreams hk.1, hchild hk.2⟩, hlater⟩, ?_⟩
    obtain ⟨reached, rfl, rfl⟩ | ⟨rfl, -, rfl⟩ := stopHelpers_cases hs
    · exact .stop reached
    · exact .stopped
  | deadline =>
    obtain ⟨rfl, ⟨status, hstatus, hdue, rfl⟩ | ⟨-, rfl⟩⟩ := atDeadline_cases hs
    · exact .jump hc (.finish _) ⟨⟨hk.1, { observedOutput_answers hc hstatus hdue with }⟩, hk.2⟩
    · split_ifs
      · exact .jump hc .again hk
      · exact .jump hc .idle hk
  | sleep =>
    dsimp only [atSleep] at hs
    split at hs <;> cases hs
    exact ⟨⟨{ hc with }, hk, { Later.refl s with now := Nat.le_add_right _ _ }⟩, .sleep⟩
  | drop result =>
    obtain ⟨hcore, hlater, hstopped, hpc, hchild, -, houtcome⟩ := stopHelpers_kept hc hs
    refine ⟨⟨hcore, hpc ▸ ⟨houtcome result hk.1, hchild hk.2, hstopped⟩, hlater⟩, ?_⟩
    obtain ⟨reached, rfl, rfl⟩ | ⟨rfl, -, rfl⟩ := stopHelpers_cases hs
    · exact .dropStop result reached
    · exact .dropStopped result
  | wait result => exact atWait_moved hc hk hs
  | returned result => cases hs

end

/-! ### Around the call -/

/-- The state with another surrounding. -/
def State.amid (s : State) (stdout stderr : Pipe UInt8) (child : Child) (now : ℕ) : State :=
  { s with stdout := stdout, stderr := stderr, child := child, now := now }

/-- What is around the call changes, but nothing that the call has seen of it. -/
structure Passes (s : State) (stdout stderr : Pipe UInt8) (child : Child) (now : ℕ) : Prop where
  stdoutSound : s.stdout.Sound → stdout.Sound
  stderrSound : s.stderr.Sound → stderr.Sound
  stdoutSeen : s.stdout.Sound → stdout.seen = s.stdout.seen
  stderrSeen : s.stderr.Sound → stderr.seen = s.stderr.seen
  stdoutEnd : s.stdout.atEnd = true → stdout.atEnd = true
  stderrEnd : s.stderr.atEnd = true → stderr.atEnd = true
  child : child = s.child ∨ s.child = .running ∧ ∃ status, child = .exited status
  now : s.now ≤ now

theorem Passes.refl (s : State) : Passes s s.stdout s.stderr s.child s.now :=
  ⟨id, id, fun _ => rfl, fun _ => rfl, id, id, .inl rfl, le_rfl⟩

theorem around_passes {event : Environment} (hs : around s event = some s') :
    ∃ stdout stderr child now, s' = s.amid stdout stderr child now ∧
      Passes s stdout stderr child now := by
  unfold around at hs
  split at hs
  · split_ifs at hs with hopen
    cases hs
    exact ⟨_, _, _, _, rfl, { Passes.refl s with
      stdoutSound := fun h => Pipe.sound_write h _, stdoutSeen := fun h => Pipe.seen_write h _
      stdoutEnd := fun h => absurd hopen (Pipe.not_isOpen_of_atEnd h) }⟩
  · split_ifs at hs with hopen
    cases hs
    exact ⟨_, _, _, _, rfl, { Passes.refl s with
      stderrSound := fun h => Pipe.sound_write h _, stderrSeen := fun h => Pipe.seen_write h _
      stderrEnd := fun h => absurd hopen (Pipe.not_isOpen_of_atEnd h) }⟩
  · cases hs
    exact ⟨_, _, _, _, rfl, { Passes.refl s with
      stdoutSound := id, stdoutSeen := fun _ => rfl, stdoutEnd := Pipe.atEnd_close }⟩
  · cases hs
    exact ⟨_, _, _, _, rfl, { Passes.refl s with
      stderrSound := id, stderrSeen := fun _ => rfl, stderrEnd := Pipe.atEnd_close }⟩
  · split at hs
    · next hchild =>
      cases hs
      exact ⟨_, _, _, _, rfl, { Passes.refl s with child := .inr ⟨hchild, _, rfl⟩ }⟩
    · cases hs
  · cases hs
    exact ⟨_, _, _, _, rfl, { Passes.refl s with now := Nat.le_add_right _ _ }⟩

section Passes

variable {stdout stderr : Pipe UInt8} {child : Child} {now : ℕ}

section

variable (h : Passes s stdout stderr child now)
include h

theorem Passes.child_eq (hchild : s.child ≠ .running) : child = s.child := by
  rcases h.child with heq | ⟨hrunning, -⟩
  · exact heq
  · exact absurd hrunning hchild

theorem Passes.born (hchild : s.child ≠ .unborn) : child ≠ .unborn := by
  rcases h.child with rfl | ⟨-, status, rfl⟩
  · exact hchild
  · nofun

theorem Passes.later : Later s (s.amid stdout stderr child now) :=
  { Later.refl s with now := h.now }

theorem Passes.outcome (hc : Core call s) {result : Result} (houtcome : Outcome call s result) :
    Outcome call (s.amid stdout stderr child now) result := by
  have hseen := h.stdoutSeen hc.stdoutSound
  cases result with
  | ok result =>
    obtain ⟨hstreams, hanswers⟩ := houtcome
    exact ⟨⟨hstreams.1.trans hseen.symm, hstreams.2⟩,
      { hanswers with due := h.later.due hanswers.due }⟩
  | error error => exact ⟨houtcome.1.imp_left fun h => h.trans hseen.symm, houtcome.2⟩

theorem Passes.knows (hc : Core call s) {pc : Pc} (hk : Knows call s pc) :
    Knows call (s.amid stdout stderr child now) pc := by
  have hseen := h.stdoutSeen hc.stdoutSound
  have hstreams : Streams s → Streams (s.amid stdout stderr child now) :=
    fun hstreams => ⟨hstreams.1.trans hseen.symm, hstreams.2⟩
  cases pc with
  | start | spawn => exact ⟨hstreams hk.1, (h.child_eq (by rw [hk.2]; nofun)).trans hk.2⟩
  | sink chunk => exact ⟨hk.1.trans hseen.symm, hk.2.1, h.born hk.2.2⟩
  | drop result => exact ⟨h.outcome hc hk.1, h.born hk.2⟩
  | wait result => exact ⟨h.outcome hc hk.1, h.born hk.2.1, hk.2.2⟩
  | returned result =>
    refine ⟨h.outcome hc hk.1, ?_⟩
    rcases hk.2 with ⟨hunborn, herror⟩ | ⟨⟨status, hreaped⟩, hstopped⟩
    · exact .inl ⟨(h.child_eq (by rw [hunborn]; nofun)).trans hunborn, herror⟩
    · exact .inr ⟨⟨status, (h.child_eq (by rw [hreaped]; nofun)).trans hreaped⟩, hstopped⟩
  | _ => exact ⟨hstreams hk.1, h.born hk.2⟩

theorem Passes.kept (hc : Core call s) (hk : Knows call s s.pc) :
    Kept call s (s.amid stdout stderr child now) := by
  refine ⟨{ hc with
      stdoutSound := h.stdoutSound hc.stdoutSound, stderrSound := h.stderrSound hc.stderrSound
      stdoutEnd := fun hlimit heof => h.stdoutEnd (hc.stdoutEnd hlimit heof)
      stderrEnd := fun hobserved heof => h.stderrEnd (hc.stderrEnd hobserved heof)
      observed := hc.observed.trans (h.stderrSeen hc.stderrSound).symm
      reaped := fun status hstatus => ?_ }, h.knows hc hk, h.later⟩
  have hreaped := hc.reaped status hstatus
  exact (h.child_eq (by rw [hreaped]; nofun)).trans hreaped

end

end Passes

/-! ### Runs -/

/-- The invariant. -/
structure Inv (call : Call) (s : State) : Prop where
  core : Core call s
  knows : Knows call s s.pc

theorem step_kept {event : Event} (h : Inv call s) (hs : (machine call).step s event = some s') :
    Kept call s s' := by
  cases event with
  | around event =>
    obtain ⟨stdout, stderr, child, now, rfl, hpasses⟩ := around_passes hs
    exact hpasses.kept h.core h.knows
  | run operation => exact (operate_moved h.core h.knows hs).toKept

theorem step_inv {event : Event} (h : Inv call s) (hs : (machine call).step s event = some s') :
    Inv call s' :=
  ⟨(step_kept h hs).core, (step_kept h hs).knows⟩

theorem init_inv : Inv call (machine call).init where
  core :=
    { stdoutSound := Nat.le_refl 0
      stderrSound := Nat.le_refl 0
      limit := fun _ _ => Nat.zero_le _
      unlimited := fun h => ⟨Option.isNone_iff_eq_none.mpr h, rfl⟩
      stdoutEnd := fun hsome hnone => by
        rw [Option.isNone_iff_eq_none.mp hnone] at hsome
        cases hsome
      unobserved := fun h => congrArg not h
      stderrEnd := fun h heof => by
        rw [show (machine call).init.stderrEof = !call.observation from rfl, h] at heof
        cases heof
      observed := rfl
      received := fun _ _ => ⟨Nat.zero_le _, rfl⟩
      inputError := nofun
      exited := rfl
      reaped := nofun
      target := nofun }
  knows := ⟨⟨rfl, rfl⟩, rfl⟩

theorem Inv.follows (h : Inv call s) (hs : operate call s operation = some s') :
    Follows s.pc operation s'.pc :=
  (operate_moved h.core h.knows hs).follows

theorem Reachable.inv (h : (machine call).Reachable s) : Inv call s :=
  h.invariant init_inv fun _ _ _ _ hinv hs => step_inv hinv hs

/-- The call has returned, or has an operation to go on with. -/
def Proceeds (call : Call) (s : State) : Prop :=
  s.pc.isReturned = true ∨ ∃ operation s', operate call s operation = some s'

theorem exists_stopHelpers (call : Call) (s : State) (next : Pc) :
    ∃ operation s', stopHelpers call s next operation = some s' := by
  cases hstopped : s.stopped with
  | none => exact ⟨.kill true, _, by simp only [stopHelpers, hstopped]; rfl⟩
  | some target => exact ⟨.skip, _, by simp only [stopHelpers, hstopped]; rfl⟩

/-- The call is never stuck, other than in waiting for the child that it has signalled. -/
theorem Inv.proceeds (h : Inv call s) :
    Proceeds call s ∨ s.child = .running ∧ s.stopped = some call.target := by
  have hk := h.knows
  unfold Proceeds operate
  generalize s.pc = pc at hk ⊢
  cases pc with
  | start => exact .inl (.inr ⟨.check (.ok ()), _, rfl⟩)
  | spawn => exact .inl (.inr ⟨.spawn (.ok ()), _, rfl⟩)
  | nonblocking => exact .inl (.inr ⟨.nonblocking (.ok ()), _, rfl⟩)
  | check => exact .inl (.inr ⟨.check (.ok ()), _, rfl⟩)
  | write =>
    refine .inl (.inr ?_)
    dsimp only [atWrite]
    split_ifs with hremains
    · cases hframe : call.stdinFrame with
      | none =>
        rw [inputRemains, hframe] at hremains
        cases hremains
      | some frame => exact ⟨.write (.ok 0), _, rfl⟩
    · exact ⟨.skip, _, rfl⟩
  | readStdout =>
    refine .inl (.inr ?_)
    dsimp only [atReadStdout]
    split_ifs with heof
    · exact ⟨.skip, _, rfl⟩
    · cases hlimit : call.outputLimit with
      | none => exact absurd (h.core.unlimited hlimit).1 heof
      | some limit => exact ⟨.read .stdout (.error ⟨.interrupted, ""⟩), _, rfl⟩
  | readStderr =>
    refine .inl (.inr ?_)
    dsimp only [atReadStderr]
    split_ifs with heof
    · exact ⟨.skip, _, rfl⟩
    · cases hobservation : call.observation with
      | false => exact absurd (h.core.unobserved hobservation) heof
      | true => exact ⟨.read .stderr (.error ⟨.interrupted, ""⟩), _, rfl⟩
  | sink chunk => exact .inl (.inr ⟨.sink none, _, rfl⟩)
  | tryWait =>
    refine .inl (.inr ?_)
    dsimp only [atTryWait]
    split_ifs with hstatus
    · exact ⟨.skip, _, rfl⟩
    · exact ⟨.tryWait (some ⟨.interrupted, ""⟩), _, rfl⟩
  | stopHelpers => exact .inl (.inr (exists_stopHelpers call s _))
  | deadline =>
    refine .inl (.inr ⟨.deadline, Option.isSome_iff_exists.mp ?_⟩)
    have hexited := h.core.exited
    dsimp only [atDeadline]
    cases hstatus : s.status with
    | none => rfl
    | some status =>
      rw [hstatus] at hexited
      obtain ⟨exitedAt, hexit⟩ := Option.isSome_iff_exists.mp hexited
      rw [hexit]
      dsimp only
      split <;> rfl
  | sleep => exact .inl (.inr ⟨.sleep, _, rfl⟩)
  | drop result => exact .inl (.inr (exists_stopHelpers call s _))
  | wait result =>
    obtain ⟨-, hborn, hstopped⟩ := hk
    cases hchild : s.child with
    | unborn => exact absurd hchild hborn
    | running =>
      obtain ⟨target, htarget⟩ := Option.isSome_iff_exists.mp hstopped
      exact .inr ⟨rfl, by rw [htarget, h.core.target target htarget]⟩
    | exited status | reaped status =>
      exact .inl (.inr ⟨.wait, _, by dsimp only [atWait]; rw [hchild]⟩)
  | returned result => exact .inl (.inl rfl)

theorem run_inv {events : List Event} (h : Inv call s)
    (hs : (machine call).run s events = some s') : Inv call s' :=
  Machine.run_keeps (P := Inv call) (fun _ _ _ hinv hs => step_inv hinv hs) events s h hs

/-- In a run without a check, the events with `p` are bounded by a rank of the program counter. -/
theorem run_between_checks_le (p : Event → Bool) (rank : Pc → ℕ)
    (haround : ∀ event, p (.around event) = false)
    (hrank : ∀ pc operation pc', Follows pc operation pc' → Event.isCheck (.run operation) = false →
      rank pc' + (if p (.run operation) then 1 else 0) ≤ rank pc)
    {events : List Event} (h : Inv call s) (hchecks : ∀ event ∈ events, event.isCheck = false)
    (hs : (machine call).run s events = some s') : events.countP p ≤ rank s.pc := by
  have hcount := Machine.run_countP_le (M := machine call) (Inv call) (fun s => rank s.pc) p
    (fun event => !event.isCheck) (fun _ _ _ hinv _ hs => step_inv hinv hs) ?_ events s
    (fun event hevent => by rw [hchecks event hevent]; rfl) h hs
  · omega
  · intro s event s' hinv hcheck hs
    cases event with
    | around event =>
      rw [haround event, around_pc hs]
      rfl
    | run operation => exact hrank _ _ _ (hinv.follows hs) (Bool.not_eq_true' _ ▸ hcheck)

theorem step_result {event : Event} {result : Result} (h : Inv call s)
    (hresult : s.pc.result = some result) (hs : (machine call).step s event = some s') :
    s'.pc.result = some result := by
  cases event with
  | around event =>
    rw [around_pc hs]
    exact hresult
  | run operation => exact (h.follows hs).result_eq hresult

theorem run_own_le (Q : State → Prop)
    (hkeep : ∀ s event s', Inv call s ∧ Q s → (machine call).step s event = some s' → Q s')
    (hdeadline : ∀ s operation s', Inv call s ∧ Q s → s.pc = .deadline →
      operate call s operation = some s' → s'.pc.result.isSome = true)
    {events : List Event} (h : Inv call s) (hQ : Q s)
    (hs : (machine call).run s events = some s') :
    Q s' ∧ events.countP Event.isOwn ≤ s.pc.remaining := by
  have hkeep' : ∀ s event s', Inv call s ∧ Q s → (machine call).step s event = some s' →
      Inv call s' ∧ Q s' :=
    fun s event s' hsafe hs => ⟨step_inv hsafe.1 hs, hkeep s event s' hsafe hs⟩
  refine ⟨(Machine.run_keeps hkeep' events s ⟨h, hQ⟩ hs).2, ?_⟩
  have hcount := Machine.run_countP_le (M := machine call) (fun s => Inv call s ∧ Q s)
    (fun s => s.pc.remaining) Event.isOwn (fun _ => true)
    (fun s event s' hsafe _ hs => hkeep' s event s' hsafe hs) ?_ events s (fun _ _ => rfl) ⟨h, hQ⟩ hs
  · omega
  · intro s event s' hsafe _ hs
    cases event with
    | around event =>
      rw [around_pc hs]
      rfl
    | run operation =>
      exact (hsafe.1.follows hs).remaining_lt fun hpc => hdeadline s operation s' hsafe hpc hs

/-- Whatever happens around it, the call makes at most two more operations and returns `result`. It
waits for nothing but the exit of the child that it has signalled. -/
def Returns (call : Call) (s : State) (result : Result) : Prop :=
  ∀ events s', (machine call).run s events = some s' →
    s'.pc.result = some result ∧ events.countP Event.isOwn ≤ 2 ∧
      (Proceeds call s' ∨ s'.child = .running ∧ s'.stopped = some call.target)

theorem Pc.remaining_le_two {pc : Pc} {result : Result} (h : pc.result = some result) :
    pc.remaining ≤ 2 := by
  cases pc with
  | drop _ | wait _ | returned _ => simp [Pc.remaining]
  | _ => cases h

theorem Inv.returns {result : Result} (h : Inv call s) (hresult : s.pc.result = some result) :
    Returns call s result := by
  intro events s' hs
  have hrun := run_own_le (fun s => s.pc.result = some result)
    (fun _ _ _ hsafe hs => step_result hsafe.1 hsafe.2 hs) ?_ h hresult hs
  · exact ⟨hrun.1, hrun.2.trans (Pc.remaining_le_two hresult), (run_inv h hs).proceeds⟩
  · rintro s operation s' ⟨-, hresult⟩ hpc _
    rw [hpc] at hresult
    cases hresult

theorem Inv.returns_of_check {error : IoError} (h : Inv call s)
    (hs : (machine call).step s (.run (.check (.error error))) = some s') :
    Returns call s' (.error error) := by
  refine (step_inv h hs).returns ?_
  have hfollows := h.follows hs
  generalize s'.pc = pc' at hfollows ⊢
  generalize s.pc = pc at hfollows
  cases hfollows <;> rfl

theorem Core.exists_status (hc : Core call s) (hdue : s.due = true) :
    ∃ status, s.status = some status := by
  refine Option.isSome_iff_exists.mp (hc.exited ▸ ?_)
  unfold State.due at hdue
  cases hexit : s.exitedAt with
  | none => rw [hexit] at hdue; cases hdue
  | some exitedAt => rfl

theorem Inv.result_of_deadline (h : Inv call s) (hdue : s.due = true)
    (hpc : s.pc = .deadline) (hs : operate call s operation = some s') :
    ∃ result, s'.pc.result = some (.ok result) := by
  rw [operate, hpc] at hs
  obtain ⟨-, ⟨status, -, -, rfl⟩ | ⟨hnot, -⟩⟩ := atDeadline_cases hs
  · exact ⟨_, rfl⟩
  · obtain ⟨status, hstatus⟩ := h.core.exists_status hdue
    rw [hnot (by rw [hstatus]; rfl)] at hdue
    cases hdue

theorem Inv.returns_of_deadline (h : Inv call s) (hdue : s.due = true)
    (hs : (machine call).step s (.run .deadline) = some s') :
    ∃ result, Returns call s' (.ok result) := by
  have hpc : s.pc = .deadline := by
    have hfollows := h.follows hs
    generalize s'.pc = pc' at hfollows
    generalize s.pc = pc at hfollows ⊢
    cases hfollows <;> rfl
  obtain ⟨result, hresult⟩ := h.result_of_deadline hdue hpc hs
  exact ⟨result, (step_inv h hs).returns hresult⟩

theorem Inv.due_of_result {event : Event} {result : ObservedOutput} (h : Inv call s)
    (hnone : s.pc.result = none) (hs : (machine call).step s event = some s')
    (hresult : s'.pc.result = some (.ok result)) : event = .run .deadline ∧ s.due = true := by
  cases event with
  | around event =>
    rw [around_pc hs, hnone] at hresult
    cases hresult
  | run operation =>
    have hdeadline : s.pc = .deadline ∧ operation = .deadline := by
      have hfollows := h.follows hs
      generalize s'.pc = pc' at hfollows hresult
      generalize s.pc = pc at hfollows hnone ⊢
      cases hfollows with
      | finish => exact ⟨rfl, rfl⟩
      | dropStop | dropStopped | wait => cases hnone
      | _ => cases hresult
    obtain ⟨hpc, rfl⟩ := hdeadline
    have hs : operate call s .deadline = some s' := hs
    rw [operate, hpc] at hs
    obtain ⟨-, ⟨status, -, hdue, -⟩ | ⟨-, rfl⟩⟩ := atDeadline_cases hs
    · exact ⟨rfl, hdue⟩
    · dsimp only at hresult
      split_ifs at hresult <;> cases hresult

/-- A call that is due makes a bounded number of operations more, and waits for nothing. -/
theorem Inv.run_of_due {events : List Event} (h : Inv call s) (hdue : s.due = true)
    (hs : (machine call).run s events = some s') :
    events.countP Event.isOwn ≤ 13 ∧ Proceeds call s' := by
  have hinv := run_inv h hs
  have hrun := run_own_le (fun s => s.due = true)
    (fun _ _ _ hsafe hs => (step_kept hsafe.1 hs).later.due hsafe.2) ?_ h hdue hs
  · have hremaining : s.pc.remaining ≤ 13 := by
      cases s.pc <;> simp [Pc.remaining]
    refine ⟨hrun.2.trans hremaining, ?_⟩
    obtain ⟨status, hstatus⟩ := hinv.core.exists_status hrun.1
    rcases hinv.proceeds with hproceeds | ⟨hrunning, -⟩
    · exact hproceeds
    · cases hrunning.symm.trans (hinv.core.reaped status hstatus)
  · rintro s operation s' ⟨hinv, hdue⟩ hpc hs
    obtain ⟨result, hresult⟩ := hinv.result_of_deadline hdue hpc hs
    rw [hresult]
    rfl

/-- A result holds what the child wrote. -/
structure Faithful (call : Call) (s : State) (result : ObservedOutput) : Prop where
  status : s.child = .reaped result.output.status
  stdout : result.output.stdout <+: s.stdout.produced
  limit : ∀ limit ∈ call.outputLimit, result.output.stdout.length ≤ limit
  complete : call.outputLimit.isSome = true → s.stdoutEof = true →
    result.output.stdout = s.stdout.produced
  inherited : call.outputLimit = none → result.output.stdout = []
  observed : s.observed <+: s.stderr.produced
  allObserved : call.observation = true → s.stderrEof = true → s.observed = s.stderr.produced
  sunk : s.sunk = s.observed
  inputError : result.inputError = none ↔ ∀ frame ∈ call.stdinFrame, s.received = frame

theorem Inv.outcome {result : Result} (h : Inv call s) (hresult : s.pc.result = some result) :
    Outcome call s result := by
  have hk := h.knows
  generalize s.pc = pc at hk hresult
  cases pc with
  | drop _ | wait _ | returned _ =>
    cases hresult
    exact hk.1
  | _ => cases hresult

theorem Inv.faithful {result : ObservedOutput} (h : Inv call s)
    (hresult : s.pc.result = some (.ok result)) : Faithful call s result := by
  obtain ⟨⟨houtput, hobserved⟩, hanswers⟩ := h.outcome hresult
  have hstdout : result.output.stdout = s.stdout.seen := hanswers.stdout.trans houtput
  exact {
    status := h.core.reaped _ hanswers.status
    stdout := hstdout ▸ Pipe.seen_prefix
    limit := hanswers.stdout ▸ h.core.limit
    complete := fun hlimit heof =>
      hstdout.trans (Pipe.seen_of_atEnd (h.core.stdoutEnd hlimit heof))
    inherited := fun hnone => hanswers.stdout.trans (h.core.unlimited hnone).2
    observed := h.core.observed ▸ Pipe.seen_prefix
    allObserved := fun hobservation heof =>
      h.core.observed.trans (Pipe.seen_of_atEnd (h.core.stderrEnd hobservation heof))
    sunk := hobserved.symm
    inputError := hanswers.inputError.trans (inputRemains_eq_false h.core) }

theorem Inv.result_of_limit {limit : ℕ} (h : Inv call s) (hlimit : call.outputLimit = some limit)
    (htaken : limit < s.stdout.taken) : s.pc.result = some (.error outputExceedsLimit) := by
  have hle : s.output.length ≤ limit := h.core.limit limit hlimit
  have hne : s.output ≠ s.stdout.seen := by
    intro houtput
    rw [houtput, Pipe.length_seen h.core.stdoutSound] at hle
    omega
  have hk := h.knows
  generalize s.pc = pc at hk ⊢
  cases pc with
  | sink chunk => exact absurd hk.1 hne
  | drop result | wait result | returned result =>
    cases result with
    | ok result => exact absurd hk.1.1.1 hne
    | error error =>
      rcases hk.1.1 with houtput | rfl
      · exact absurd houtput hne
      · rfl
  | _ => exact absurd hk.1.1 hne

theorem Inv.gone {result : Result} (h : Inv call s) (hpc : s.pc = .returned result) :
    (s.child = .unborn ∧ ∃ error, result = .error error) ∨
      (∃ status, s.child = .reaped status) ∧ s.stopped = some call.target := by
  have hk := h.knows
  rw [hpc] at hk
  refine hk.2.imp_right fun ⟨hreaped, hstopped⟩ => ⟨hreaped, ?_⟩
  obtain ⟨target, htarget⟩ := Option.isSome_iff_exists.mp hstopped
  rw [htarget, h.core.target target htarget]

end Invariant

/-! ### Every run -/

/-- A call with a frame, for a child that reads it, writes to both pipes and exits while a helper
holds them open. -/
def sampleCall : Call := runObserved (some 4) (.frame [7])

def sampleRun : List Event :=
  [.run (.check (.ok ())), .run (.spawn (.ok ())), .run (.nonblocking (.ok ())),
    .run (.check (.ok ())), .run (.write (.ok 1)), .around (.produce .stdout [1, 2]),
    .run (.read .stdout (.ok 2)), .around (.produce .stderr [3]), .run (.read .stderr (.ok 1)),
    .run (.sink none), .around (.exit 0), .run (.tryWait none), .run (.kill false), .run .deadline,
    .run (.check (.ok ())), .run .skip, .run (.read .stdout (.error ⟨.wouldBlock, ""⟩)),
    .run (.read .stderr (.error ⟨.wouldBlock, ""⟩)), .run .skip, .around (.tick 250),
    .run .deadline, .run .skip, .run .wait]

def sampleOutput : ObservedOutput := ⟨⟨0, [1, 2], []⟩, none⟩

/-- In every run of a call, whatever the child and its helpers do:

* between two checks there are at most one write and one read of each pipe, and a check that fails
  ends the call with its error;
* once the exit was noticed and both pipes are at their end or 250 ms have passed, the next deadline
  returns a result, as none does before, and the call gets there in a bounded number of operations
  without waiting;
* a result is faithful to what the child wrote, and a call that has read more than its limit fails;
* a call that has returned has spawned no child, or has signalled and reaped it. -/
theorem command_bounded_observed_reaped (call : Call) (s : State)
    (h : (machine call).Reachable s) :
    (∀ events s', (machine call).run s events = some s' →
        (∀ event ∈ events, event.isCheck = false) →
          events.countP Event.isWrite ≤ 1 ∧ ∀ stream, events.countP (Event.isRead stream) ≤ 1) ∧
      (∀ error s', (machine call).step s (.run (.check (.error error))) = some s' →
        Returns call s' (.error error)) ∧
      (s.due = true →
        (∀ s', (machine call).step s (.run .deadline) = some s' →
          ∃ result, Returns call s' (.ok result)) ∧
        ∀ events s', (machine call).run s events = some s' →
          events.countP Event.isOwn ≤ 13 ∧ Proceeds call s') ∧
      (∀ event s' result, s.pc.result = none → (machine call).step s event = some s' →
        s'.pc.result = some (.ok result) → event = .run .deadline ∧ s.due = true) ∧
      (∀ result, s.pc = .returned (.ok result) → Faithful call s result) ∧
      (∀ limit ∈ call.outputLimit, limit < s.stdout.taken →
        Returns call s (.error outputExceedsLimit)) ∧
      ∀ result, s.pc = .returned result →
        (s.child = .unborn ∧ ∃ error, result = .error error) ∨
          (∃ status, s.child = .reaped status) ∧ s.stopped = some call.target := by
  have hinv := Reachable.inv h
  refine ⟨?_, fun error s' => hinv.returns_of_check, ?_, fun event s' result => hinv.due_of_result,
    ?_, ?_, fun result => hinv.gone⟩
  · intro events s' hs hchecks
    constructor
    · refine (run_between_checks_le Event.isWrite Pc.writes (fun _ => rfl)
        (fun _ _ _ => Follows.writes_le) hinv hchecks hs).trans ?_
      cases s.pc <;> simp [Pc.writes]
    · intro stream
      refine (run_between_checks_le (Event.isRead stream) (Pc.reads stream) (fun _ => rfl)
        (fun _ _ _ => Follows.reads_le stream) hinv hchecks hs).trans ?_
      cases stream <;> cases s.pc <;> simp [Pc.reads]
  · intro hdue
    exact ⟨fun s' => hinv.returns_of_deadline hdue, fun events s' => hinv.run_of_due hdue⟩
  · intro result hpc
    exact hinv.faithful (by rw [hpc]; rfl)
  · intro limit hlimit htaken
    exact hinv.returns (hinv.result_of_limit hlimit htaken)

theorem command_bounded_observed_reaped_sample :
    ∃ s, (machine sampleCall).Reachable s ∧ s.pc = .returned (.ok sampleOutput) ∧
      Faithful sampleCall s sampleOutput ∧ s.stopped = some .group := by
  obtain ⟨s, hs, hp⟩ := Machine.Reachable.of_run (M := machine sampleCall) sampleRun
    (p := fun s => s.pc = .returned (.ok sampleOutput)) (by decide +kernel)
  have hpc : s.pc = .returned (.ok sampleOutput) := of_decide_eq_true hp
  obtain ⟨-, -, -, -, hfaithful, -, hgone⟩ := command_bounded_observed_reaped sampleCall s hs
  refine ⟨s, hs, hpc, hfaithful _ hpc, ?_⟩
  rcases hgone _ hpc with ⟨-, error, herror⟩ | ⟨-, hstopped⟩
  · cases herror
  · exact hstopped

end GlobalProtect.Process.CommandRunner
