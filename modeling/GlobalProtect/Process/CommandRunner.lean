import GlobalProtect.Lib.Machine
import GlobalProtect.Lib.Pipe

/-! # Controlled commands

The model of `process/command_runner.rs` of `gpapi`: `run` starts a child and, in one polling loop,
writes a frame to its standard input, reads its standard output and standard error, and waits for its
exit.

An operation of the call is one step. Between any two of them the child and its helpers may write to
the pipes, close them or exit, and time passes. What an operation gives is in its label, so that a
run of the machine is one behaviour of the child, its helpers, the cancellation check and the sink.
`fcntl` may fail for any of the three pipes; which one makes no difference. -/

namespace GlobalProtect.Process.CommandRunner

open Lib

/-! ### The call -/

inductive ErrorKind where
  | wouldBlock
  | interrupted
  | writeZero
  | brokenPipe
  | invalidData
  | other (code : ℕ)
  deriving DecidableEq

/-- `io::Error` -/
structure IoError where
  kind : ErrorKind
  message : String
  deriving DecidableEq

/-- The errors after which an operation on a pipe is tried again. -/
def IoError.isTransient (error : IoError) : Bool :=
  match error.kind with
  | .wouldBlock | .interrupted => true
  | _ => false

def inputPipeClosed : IoError := ⟨.writeZero, "Credential input pipe closed"⟩

def outputExceedsLimit : IoError := ⟨.invalidData, "Command output exceeds its limit"⟩

def exitedBeforeInput : IoError := ⟨.brokenPipe, "Child exited before receiving its credential"⟩

inductive ChildInput where
  | null
  | frame (bytes : List UInt8)
  | terminal

/-- The arguments of `run`; `observation` is whether there are an observer and a sink. -/
structure Call where
  outputLimit : Option ℕ
  observation : Bool
  stdin : ChildInput

def runControlled (outputLimit : ℕ) : Call := ⟨some outputLimit, false, .null⟩

def runObserved (outputLimit : Option ℕ) (stdin : ChildInput) : Call := ⟨outputLimit, true, stdin⟩

def Call.stdinFrame (call : Call) : Option (List UInt8) :=
  match call.stdin with
  | .frame bytes => some bytes
  | .null | .terminal => none

/-- What `stop_helpers` kills. -/
inductive Target where
  | group
  | child
  deriving DecidableEq

/-- The child is the leader of a group of its own, unless it reads the terminal. -/
def Call.target (call : Call) : Target :=
  match call.stdin with
  | .terminal => .child
  | .null | .frame _ => .group

structure Output where
  status : ℤ
  stdout : List UInt8
  stderr : List UInt8
  deriving DecidableEq

structure ObservedOutput where
  output : Output
  inputError : Option IoError
  deriving DecidableEq

abbrev Result := Except IoError ObservedOutput

/-! ### States -/

/-- The next operation of the call. The last three are the destructor of `ControlledChild`, with the
result that is returned after it. -/
inductive Pc where
  | start
  | spawn
  | nonblocking
  | check
  | write
  | readStdout
  | readStderr
  | sink (chunk : List UInt8)
  | tryWait
  | stopHelpers
  | deadline
  | sleep
  | drop (result : Result)
  | wait (result : Result)
  | returned (result : Result)
  deriving DecidableEq

inductive Child where
  | unborn
  | running
  | exited (status : ℤ)
  | reaped (status : ℤ)
  deriving DecidableEq

/-- The first five are what is around the call: the pipes, with `received` for what was written to
the one of the standard input, the child and the time in milliseconds. `observed` is what the
observer was given and `sunk` what was written to the sink. `stopped` is what was signalled. -/
structure State where
  stdout : Pipe UInt8 := {}
  stderr : Pipe UInt8 := {}
  received : List UInt8 := []
  child : Child := .unborn
  now : ℕ := 0
  stopped : Option Target := none
  inputOffset : ℕ := 0
  inputError : Option IoError := none
  output : List UInt8 := []
  stdoutEof : Bool
  stderrEof : Bool
  status : Option ℤ := none
  exitedAt : Option ℕ := none
  progressed : Bool := false
  observed : List UInt8 := []
  sunk : List UInt8 := []
  pc : Pc := .start
  deriving DecidableEq

/-- Once the exit was noticed: both pipes are at their end, or 250 ms have passed. -/
def State.due (s : State) : Bool :=
  match s.exitedAt with
  | some exitedAt => (s.stdoutEof && s.stderrEof) || 250 ≤ s.now - exitedAt
  | none => false

/-! ### Around the call -/

inductive Stream where
  | stdout
  | stderr
  deriving DecidableEq

/-- The child or a helper writes to a pipe, the last one closes it, the child exits, time passes. -/
inductive Environment where
  | produce (stream : Stream) (bytes : List UInt8)
  | close (stream : Stream)
  | exit (status : ℤ)
  | tick (milliseconds : ℕ)
  deriving DecidableEq

def around (s : State) : Environment → Option State
  | .produce .stdout bytes =>
    if s.stdout.isOpen then some { s with stdout := s.stdout.write bytes } else none
  | .produce .stderr bytes =>
    if s.stderr.isOpen then some { s with stderr := s.stderr.write bytes } else none
  | .close .stdout => some { s with stdout := s.stdout.close }
  | .close .stderr => some { s with stderr := s.stderr.close }
  | .exit status =>
    match s.child with
    | .running => some { s with child := .exited status }
    | _ => none
  | .tick milliseconds => some { s with now := s.now + milliseconds }

/-! ### The operations -/

/-- The operations of the call and what they give. A `sink` that fails has written the first `count`
bytes; `reached` is whether a signal reaches the child; `skip` goes past an operation that the call
does not make. -/
inductive Operation where
  | check (result : Except IoError Unit)
  | spawn (result : Except IoError Unit)
  | nonblocking (result : Except IoError Unit)
  | write (result : Except IoError ℕ)
  | read (stream : Stream) (result : Except IoError ℕ)
  | sink (failure : Option (IoError × ℕ))
  | tryWait (failure : Option IoError)
  | deadline
  | sleep
  | kill (reached : Bool)
  | wait
  | skip
  deriving DecidableEq

section Operations

variable (call : Call) (s : State)

/-- An early return after the child was spawned. -/
def fail (error : IoError) : State := { s with pc := .drop (.error error) }

def atStart : Operation → Option State
  | .check (.ok ()) => some { s with pc := .spawn }
  | .check (.error error) => some { s with pc := .returned (.error error) }
  | _ => none

def atSpawn : Operation → Option State
  | .spawn (.ok ()) => some { s with child := .running, pc := .nonblocking }
  | .spawn (.error error) => some { s with pc := .returned (.error error) }
  | _ => none

def atNonblocking : Operation → Option State
  | .nonblocking (.ok ()) => some { s with pc := .check }
  | .nonblocking (.error error) => some (fail s error)
  | _ => none

def atCheck : Operation → Option State
  | .check (.ok ()) => some { s with progressed := false, pc := .write }
  | .check (.error error) => some (fail s error)
  | _ => none

/-- There is a part of the frame that is still to be written. -/
def inputRemains : Bool := call.stdinFrame.any fun frame => s.inputOffset < frame.length

/-- `pipe.write(&frame[input_offset..])`, which accepts no more than it is given. -/
def writeFrame (frame : List UInt8) : Except IoError ℕ → Option State
  | .ok 0 => some { s with inputError := some inputPipeClosed, pc := .readStdout }
  | .ok length =>
    if length ≤ frame.length - s.inputOffset then
      some { s with
        received := s.received ++ (frame.drop s.inputOffset).take length
        inputOffset := s.inputOffset + length, progressed := true, pc := .readStdout }
    else none
  | .error error =>
    if error.isTransient then some { s with pc := .readStdout }
    else some { s with inputError := some error, pc := .readStdout }

def atWrite (operation : Operation) : Option State :=
  if inputRemains call s && s.inputError.isNone then
    match operation, call.stdinFrame with
    | .write result, some frame => writeFrame s frame result
    | _, _ => none
  else
    match operation with
    | .skip => some { s with pc := .readStdout }
    | _ => none

/-- The length of `buffer`. -/
def bufferLength : ℕ := 8192

/-- What a read into the buffer may give: nothing at the end only. -/
def readable (pipe : Pipe UInt8) (length : ℕ) : Bool :=
  if length = 0 then pipe.atEnd else length ≤ bufferLength && (pipe.chunk length).length = length

def readOutput (limit : ℕ) : Except IoError ℕ → Option State
  | .ok length =>
    if readable s.stdout length then
      if length = 0 then some { s with stdoutEof := true, pc := .readStderr }
      else if limit - s.output.length < length then
        some (fail { s with stdout := s.stdout.read length } outputExceedsLimit)
      else
        some { s with
          stdout := s.stdout.read length, output := s.output ++ s.stdout.chunk length
          progressed := true, pc := .readStderr }
    else none
  | .error error =>
    if error.isTransient then some { s with pc := .readStderr } else some (fail s error)

def atReadStdout (operation : Operation) : Option State :=
  if s.stdoutEof then
    match operation with
    | .skip => some { s with pc := .readStderr }
    | _ => none
  else
    match operation, call.outputLimit with
    | .read .stdout result, some limit => readOutput s limit result
    -- `stdout.as_mut().unwrap()` would panic
    | _, _ => none

/-- The observer gets the chunk before it is written to the sink. -/
def readDiagnostics : Except IoError ℕ → Option State
  | .ok length =>
    if readable s.stderr length then
      if length = 0 then some { s with stderrEof := true, pc := .tryWait }
      else
        some { s with
          stderr := s.stderr.read length, observed := s.observed ++ s.stderr.chunk length
          pc := .sink (s.stderr.chunk length) }
    else none
  | .error error =>
    if error.isTransient then some { s with pc := .tryWait } else some (fail s error)

def atReadStderr (operation : Operation) : Option State :=
  if s.stderrEof then
    match operation with
    | .skip => some { s with pc := .tryWait }
    | _ => none
  else
    match operation, call.observation with
    | .read .stderr result, true => readDiagnostics s result
    -- `stderr.as_mut().unwrap()` would panic
    | _, _ => none

/-- `sink.write_all(chunk)` -/
def atSink (chunk : List UInt8) : Operation → Option State
  | .sink none => some { s with sunk := s.sunk ++ chunk, progressed := true, pc := .tryWait }
  | .sink (some (error, count)) => some (fail { s with sunk := s.sunk ++ chunk.take count } error)
  | _ => none

def atTryWait (operation : Operation) : Option State :=
  if s.status.isSome then
    match operation with
    | .skip => some { s with pc := .deadline }
    | _ => none
  else
    match operation with
    | .tryWait none =>
      match s.child with
      | .exited status =>
        some { s with
          child := .reaped status, status := some status, exitedAt := some s.now
          pc := .stopHelpers }
      | _ => some { s with pc := .deadline }
    | .tryWait (some error) => some (fail s error)
    | _ => none

/-- The child after a signal that ends it, with the status of `SIGKILL`, if it reaches it. -/
def Child.kill (reached : Bool) : Child → Child
  | .running => if reached then .exited 9 else .running
  | child => child

/-- `stop_helpers`, which signals once; what the signal gives is ignored. -/
def stopHelpers (next : Pc) : Operation → Option State
  | .kill reached =>
    if s.stopped.isNone then
      some { s with child := s.child.kill reached, stopped := some call.target, pc := next }
    else none
  | .skip => if s.stopped.isSome then some { s with pc := next } else none
  | _ => none

def observedOutput (status : ℤ) : ObservedOutput where
  output := { status := status, stdout := s.output, stderr := [] }
  inputError :=
    if inputRemains call s && s.inputError.isNone then some exitedBeforeInput else s.inputError

def atDeadline : Operation → Option State
  | .deadline =>
    let again : State := { s with pc := if s.progressed then .check else .sleep }
    match s.status with
    | some status =>
      match s.exitedAt with
      | some _ =>
        if s.due then some { s with pc := .drop (.ok (observedOutput call s status)) }
        else some again
      -- `exited_at.unwrap()` would panic
      | none => none
    | none => some again
  | _ => none

def atSleep : Operation → Option State
  | .sleep => some { s with now := s.now + 10, pc := .check }
  | _ => none

/-- `process.wait()`, which gives a status that is known at once. -/
def atWait (result : Result) : Operation → Option State
  | .wait =>
    match s.child with
    | .exited status | .reaped status =>
      some { s with child := .reaped status, pc := .returned result }
    | .unborn | .running => none
  | _ => none

/-- One operation of `run`. -/
def operate (operation : Operation) : Option State :=
  match s.pc with
  | .start => atStart s operation
  | .spawn => atSpawn s operation
  | .nonblocking => atNonblocking s operation
  | .check => atCheck s operation
  | .write => atWrite call s operation
  | .readStdout => atReadStdout call s operation
  | .readStderr => atReadStderr call s operation
  | .sink chunk => atSink s chunk operation
  | .tryWait => atTryWait s operation
  | .stopHelpers => stopHelpers call s .deadline operation
  | .deadline => atDeadline call s operation
  | .sleep => atSleep s operation
  | .drop result => stopHelpers call s (.wait result) operation
  | .wait result => atWait s result operation
  | .returned _ => none

end Operations

inductive Event where
  | around (event : Environment)
  | run (operation : Operation)
  deriving DecidableEq

def machine (call : Call) : Machine State Event where
  init := { stdoutEof := call.outputLimit.isNone, stderrEof := !call.observation }
  step s
    | .around event => around s event
    | .run operation => operate call s operation

/-! ### The control flow -/

/-- Where an operation leads, whatever the state is. -/
inductive Follows : Pc → Operation → Pc → Prop where
  | start : Follows .start (.check (.ok ())) .spawn
  | refused (error : IoError) : Follows .start (.check (.error error)) (.returned (.error error))
  | spawn : Follows .spawn (.spawn (.ok ())) .nonblocking
  | unspawned (error : IoError) : Follows .spawn (.spawn (.error error)) (.returned (.error error))
  | nonblocking : Follows .nonblocking (.nonblocking (.ok ())) .check
  | blocking (error : IoError) :
    Follows .nonblocking (.nonblocking (.error error)) (.drop (.error error))
  | check : Follows .check (.check (.ok ())) .write
  | cancelled (error : IoError) : Follows .check (.check (.error error)) (.drop (.error error))
  | write (result : Except IoError ℕ) : Follows .write (.write result) .readStdout
  | noInput : Follows .write .skip .readStdout
  | readStdout (result : Except IoError ℕ) :
    Follows .readStdout (.read .stdout result) .readStderr
  | stdoutFails (result : Except IoError ℕ) (error : IoError) :
    Follows .readStdout (.read .stdout result) (.drop (.error error))
  | noStdout : Follows .readStdout .skip .readStderr
  | readStderr (result : Except IoError ℕ) (chunk : List UInt8) :
    Follows .readStderr (.read .stderr result) (.sink chunk)
  | emptyStderr (result : Except IoError ℕ) : Follows .readStderr (.read .stderr result) .tryWait
  | stderrFails (result : Except IoError ℕ) (error : IoError) :
    Follows .readStderr (.read .stderr result) (.drop (.error error))
  | noStderr : Follows .readStderr .skip .tryWait
  | sink (chunk : List UInt8) : Follows (.sink chunk) (.sink none) .tryWait
  | sinkFails (chunk : List UInt8) (error : IoError) (count : ℕ) :
    Follows (.sink chunk) (.sink (some (error, count))) (.drop (.error error))
  | noticed : Follows .tryWait (.tryWait none) .stopHelpers
  | unnoticed : Follows .tryWait (.tryWait none) .deadline
  | waitFails (error : IoError) : Follows .tryWait (.tryWait (some error)) (.drop (.error error))
  | noWait : Follows .tryWait .skip .deadline
  | stop (reached : Bool) : Follows .stopHelpers (.kill reached) .deadline
  | stopped : Follows .stopHelpers .skip .deadline
  | finish (output : ObservedOutput) : Follows .deadline .deadline (.drop (.ok output))
  | again : Follows .deadline .deadline .check
  | idle : Follows .deadline .deadline .sleep
  | sleep : Follows .sleep .sleep .check
  | dropStop (result : Result) (reached : Bool) :
    Follows (.drop result) (.kill reached) (.wait result)
  | dropStopped (result : Result) : Follows (.drop result) .skip (.wait result)
  | wait (result : Result) : Follows (.wait result) .wait (.returned result)

section Inversion

variable {call : Call} {s s' : State} {operation : Operation}

theorem stopHelpers_cases {next : Pc} (hs : stopHelpers call s next operation = some s') :
    (∃ reached, operation = .kill reached ∧ s' =
      { s with child := s.child.kill reached, stopped := some call.target, pc := next }) ∨
    operation = .skip ∧ s.stopped.isSome = true ∧ s' = { s with pc := next } := by
  unfold stopHelpers at hs
  split at hs
  · split_ifs at hs
    cases hs
    exact .inl ⟨_, rfl, rfl⟩
  · split_ifs at hs with hstopped
    cases hs
    exact .inr ⟨rfl, hstopped, rfl⟩
  · cases hs

theorem atDeadline_cases (hs : atDeadline call s operation = some s') :
    operation = .deadline ∧
      ((∃ status, s.status = some status ∧ s.due = true ∧
          s' = { s with pc := .drop (.ok (observedOutput call s status)) }) ∨
        (s.status.isSome = true → s.due = false) ∧
          s' = { s with pc := if s.progressed then .check else .sleep }) := by
  unfold atDeadline at hs
  split at hs
  · refine ⟨rfl, ?_⟩
    dsimp only at hs
    split at hs
    · next status hstatus =>
      split at hs
      · split at hs
        · next hdue =>
          cases hs
          exact .inl ⟨status, hstatus, hdue, rfl⟩
        · next hdue =>
          cases hs
          exact .inr ⟨fun _ => eq_false_of_ne_true hdue, rfl⟩
      · cases hs
    · next hstatus =>
      cases hs
      refine .inr ⟨fun h => ?_, rfl⟩
      rw [hstatus] at h
      cases h
  · cases hs

theorem around_pc {event : Environment} (hs : around s event = some s') : s'.pc = s.pc := by
  unfold around at hs
  split at hs
  · split_ifs at hs
    cases hs
    rfl
  · split_ifs at hs
    cases hs
    rfl
  · cases hs
    rfl
  · cases hs
    rfl
  · split at hs <;> cases hs
    rfl
  · cases hs
    rfl

end Inversion

end GlobalProtect.Process.CommandRunner
