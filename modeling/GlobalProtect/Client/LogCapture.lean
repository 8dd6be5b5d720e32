import GlobalProtect.Lib.Lines
import GlobalProtect.Lib.Machine
import GlobalProtect.Lib.Text
import GlobalProtect.Lib.Utf8Decode
import Mathlib.Algebra.BigOperators.Group.List.Basic
import Mathlib.Algebra.Ring.Nat
import Mathlib.Logic.Function.Basic

/-! # The log of the dashboard

The model of `History` and `LineDecoder` in `gpclient/src/dashboard/output.rs`. Two threads read the
captured streams; each `ingest` and each `finish` holds the lock of the history, so the capture is a
machine whose labels are these calls (`machine`). `strip_ansi_escapes::strip` is the parameter
`strip`. The trimming loop of `push` has a bound on its rounds, and fails beyond it.

`pushed` is not in the source: it records all lines that were pushed, with their stream.

* `LineDecoder.ofLine`: the state of a decoder is that of the unfinished line, for any way to cut the
  stream into chunks (`ingest_ofLine`).
* `History.Good`: what `push` keeps (`push_good`). The bytes are those of the retained lines, so the
  loop ends when the lines run out.
* `log_captured`: both for all runs. -/

namespace GlobalProtect.Client.LogCapture

open Lib (Machine)
open Lib.Lines (complete unfinished)
open Lib.Text (isControl)
open Lib.Utf8 (Bytes decodeLossy)

def maxLines : ℕ := 2000

def maxBytes : ℕ := 1048576

def maxLineBytes : ℕ := 8192

/-- `u64::MAX`. -/
def u64Max : ℕ := 2 ^ 64 - 1

/-! ### The history -/

structure History where
  lines : List String := []
  bytes : ℕ := 0
  discarded : ℕ := 0
  /-- The field `partial`. -/
  unfinished : Fin 2 → String := fun _ => ""
  pushed : List (Fin 2 × String) := []

namespace History

variable (h : History)

def isOver : Bool := maxLines < h.lines.length || maxBytes < h.bytes

/-- One round of the loop: without a line it changes nothing, and the subtraction may overflow. -/
def discard : Option History :=
  match h.lines with
  | [] => some h
  | line :: lines =>
    if line.utf8ByteSize ≤ h.bytes then
      some { h with
        lines
        bytes := h.bytes - line.utf8ByteSize
        discarded := min (h.discarded + 1) u64Max }
    else none

/-- The loop, with so many rounds. -/
def trim : ℕ → History → Option History
  | 0, h => if h.isOver then none else some h
  | rounds + 1, h => if h.isOver then h.discard.bind (trim rounds) else some h

/-- The line is added, before the loop. -/
def append (stream : Fin 2) (line : String) : History :=
  { h with
    bytes := h.bytes + line.utf8ByteSize
    lines := h.lines ++ [line]
    pushed := h.pushed ++ [(stream, line)] }

def push (rounds : ℕ) (stream : Fin 2) (line : String) : Option History :=
  trim rounds (h.append stream line)

/-- The last line of a stream is shown as this text. -/
def setUnfinished (stream : Fin 2) (text : String) : History :=
  { h with unfinished := Function.update h.unfinished stream text }

/-- The lines that were pushed for a stream. -/
def pushedFor (stream : Fin 2) : List String :=
  (h.pushed.filter (·.1 = stream)).map Prod.snd

end History

/-! ### The decoders -/

section

variable (strip : Bytes → Bytes) (rounds : ℕ)

def plainText (bytes : Bytes) : String :=
  String.ofList ((decodeLossy (strip bytes)).filter fun c => !isControl c || c = '\t')

structure LineDecoder where
  bytes : Bytes := []
  truncated : Bool := false

def LineDecoder.text (d : LineDecoder) : String :=
  plainText strip d.bytes ++ if d.truncated then " [line truncated]" else ""

def newline : UInt8 := 10

def LineDecoder.ingestByte (stream : Fin 2) (s : LineDecoder × History) (byte : UInt8) :
    Option (LineDecoder × History) :=
  let (d, h) := s
  if byte = newline then (h.push rounds stream (d.text strip)).map fun h => ({}, h)
  else if d.bytes.length < maxLineBytes then some ({ d with bytes := d.bytes ++ [byte] }, h)
  else some ({ d with truncated := true }, h)

def LineDecoder.isEmpty (d : LineDecoder) : Bool := d.bytes = [] && !d.truncated

def LineDecoder.ingest (stream : Fin 2) (bytes : Bytes) (d : LineDecoder) (h : History) :
    Option (LineDecoder × History) :=
  (bytes.foldlM (LineDecoder.ingestByte strip rounds stream) (d, h)).map fun (d, h) =>
    (d, h.setUnfinished stream (if d.isEmpty then "" else d.text strip))

def LineDecoder.finish (stream : Fin 2) (d : LineDecoder) (h : History) : Option History :=
  (if d.isEmpty then some h else h.push rounds stream (d.text strip)).map
    (·.setUnfinished stream "")

/-! ### The capture -/

structure Capture where
  history : History := {}
  decoder : Fin 2 → LineDecoder := fun _ => {}
  finished : Fin 2 → Bool := fun _ => false

inductive Call where
  | ingest (stream : Fin 2) (chunk : Bytes)
  | finish (stream : Fin 2)
  deriving DecidableEq, Repr

def Call.stream : Call → Fin 2
  | .ingest stream _ | .finish stream => stream

/-- A decoder is gone after `finish`. -/
def Capture.call (s : Capture) : Call → Option Capture
  | .ingest stream chunk =>
    if s.finished stream then none
    else ((s.decoder stream).ingest strip rounds stream chunk s.history).map fun (d, history) =>
      { s with history, decoder := Function.update s.decoder stream d }
  | .finish stream =>
    if s.finished stream then none
    else ((s.decoder stream).finish strip rounds stream s.history).map fun history =>
      { s with history, finished := Function.update s.finished stream true }

def machine : Machine Capture Call where
  init := {}
  step := Capture.call strip rounds

end

/-- The bytes of a stream in a list of calls. -/
def received (stream : Fin 2) (calls : List Call) : Bytes :=
  calls.flatMap fun
    | .ingest stream' chunk => if stream' = stream then chunk else []
    | .finish _ => []

/-! ### What the history keeps -/

namespace History

/-- The counters agree with the lines. -/
structure Accounted (h : History) : Prop where
  bytes : h.bytes = (h.lines.map String.utf8ByteSize).sum
  pushed : ∃ dropped, h.pushed.map Prod.snd = dropped ++ h.lines ∧
    h.discarded = min dropped.length u64Max

structure Good (h : History) : Prop extends Accounted h where
  lines_le : h.lines.length ≤ maxLines
  bytes_le : h.bytes ≤ maxBytes

variable {h h' : History}

theorem discard_accounted (hh : h.Accounted) (hover : h.isOver = true) :
    ∃ line lines, h.lines = line :: lines ∧ ∃ m, h.discard = some m ∧ m.Accounted ∧
      m.lines = lines ∧ m.pushed = h.pushed ∧ m.unfinished = h.unfinished := by
  obtain ⟨dropped, hpushed, hdiscarded⟩ := hh.pushed
  cases hlines : h.lines with
  | nil =>
    -- without lines there are no bytes
    have hbytes := hh.bytes
    simp [isOver, hlines, hbytes] at hover
  | cons line lines =>
    have hbytes := hh.bytes
    rw [hlines, List.map_cons, List.sum_cons] at hbytes
    refine ⟨line, lines, rfl,
      { h with
        lines
        bytes := h.bytes - line.utf8ByteSize
        discarded := min (h.discarded + 1) u64Max }, ?_, ?_, rfl, rfl, rfl⟩
    · unfold discard
      rw [hlines]
      exact if_pos (by omega)
    · refine ⟨by simp only; omega, dropped ++ [line], ?_, ?_⟩
      · rw [hpushed, hlines]
        simp
      · simp only [List.length_append, List.length_singleton, hdiscarded]
        omega

theorem good_of_not_isOver (hh : h.Accounted) (hover : ¬ h.isOver = true) : h.Good := by
  simp only [isOver, Bool.or_eq_true, decide_eq_true_iff, not_or, Nat.not_lt] at hover
  exact ⟨hh, hover.1, hover.2⟩

/-- **The loop ends**, after as many rounds as there are lines. -/
theorem trim_good {rounds : ℕ} (hh : h.Accounted) (hrounds : h.lines.length ≤ rounds) :
    ∃ h', trim rounds h = some h' ∧ h'.Good ∧ h'.pushed = h.pushed ∧
      h'.unfinished = h.unfinished := by
  induction rounds generalizing h with
  | zero =>
    unfold trim
    by_cases hover : h.isOver = true
    · obtain ⟨line, lines, hlines, -⟩ := discard_accounted hh hover
      rw [hlines] at hrounds
      simp at hrounds
    · rw [if_neg hover]
      exact ⟨h, rfl, good_of_not_isOver hh hover, rfl, rfl⟩
  | succ rounds ih =>
    unfold trim
    by_cases hover : h.isOver = true
    · obtain ⟨line, lines, hlines, m, hm, hgood, hrest, hpushed, hunfinished⟩ :=
        discard_accounted hh hover
      rw [hlines, List.length_cons] at hrounds
      obtain ⟨h', hh', hgood', hpushed', hunfinished'⟩ := ih hgood (by rw [hrest]; omega)
      refine ⟨h', ?_, hgood', hpushed'.trans hpushed, hunfinished'.trans hunfinished⟩
      rw [if_pos hover, hm, Option.bind_some, hh']
    · rw [if_neg hover]
      exact ⟨h, rfl, good_of_not_isOver hh hover, rfl, rfl⟩

theorem push_good {rounds : ℕ} (hrounds : maxLines + 1 ≤ rounds) (hh : h.Good) (stream : Fin 2)
    (line : String) : ∃ h', h.push rounds stream line = some h' ∧ h'.Good ∧
      h'.pushed = h.pushed ++ [(stream, line)] ∧ h'.unfinished = h.unfinished := by
  obtain ⟨dropped, hpushed, hdiscarded⟩ := hh.pushed
  refine trim_good (h := h.append stream line) ⟨?_, dropped, ?_, hdiscarded⟩ ?_
  · simp [append, hh.bytes]
  · simp [append, hpushed]
  · have := hh.lines_le
    simp only [append, List.length_append, List.length_singleton]
    omega

theorem Good.setUnfinished (hh : h.Good) (stream : Fin 2) (text : String) :
    (h.setUnfinished stream text).Good :=
  ⟨⟨hh.bytes, hh.pushed⟩, hh.lines_le, hh.bytes_le⟩

end History

/-! ### What the decoders do -/

section

variable (strip : Bytes → Bytes) {rounds : ℕ}

/-- A line as it is shown: cut, as plain text, and marked if it was cut. -/
def render (line : Bytes) : String :=
  plainText strip (line.take maxLineBytes) ++
    if maxLineBytes < line.length then " [line truncated]" else ""

/-- The decoder that has read this much of a line. -/
def LineDecoder.ofLine (line : Bytes) : LineDecoder where
  bytes := line.take maxLineBytes
  truncated := maxLineBytes < line.length

theorem text_ofLine (line : Bytes) : (LineDecoder.ofLine line).text strip = render strip line := by
  simp [LineDecoder.text, LineDecoder.ofLine, render]

theorem isEmpty_ofLine (line : Bytes) : (LineDecoder.ofLine line).isEmpty = decide (line = []) := by
  cases line with
  | nil => rfl
  | cons b line => simp [LineDecoder.isEmpty, LineDecoder.ofLine, maxLineBytes]

theorem ingestByte_newline (stream : Fin 2) (line : Bytes) (h : History) :
    LineDecoder.ingestByte strip rounds stream (.ofLine line, h) newline =
      (h.push rounds stream (render strip line)).map fun h => (.ofLine [], h) := by
  rw [LineDecoder.ingestByte, if_pos rfl, text_ofLine]
  rfl

theorem ingestByte_other (stream : Fin 2) (line : Bytes) (h : History) {byte : UInt8}
    (hbyte : byte ≠ newline) :
    LineDecoder.ingestByte strip rounds stream (.ofLine line, h) byte =
      some (.ofLine (line ++ [byte]), h) := by
  rw [LineDecoder.ingestByte, if_neg hbyte]
  by_cases hroom : (line.take maxLineBytes).length < maxLineBytes
  · obtain ⟨htake, hover⟩ := Lib.Lines.take_snoc_of_lt hroom byte
    simp only [LineDecoder.ofLine, htake, hover]
    exact if_pos hroom
  · obtain ⟨htake, hover⟩ := Lib.Lines.take_snoc_of_not_lt hroom byte
    simp only [LineDecoder.ofLine, htake, hover, decide_true]
    exact if_neg hroom

/-- **A chunk**: the lines that it ends are pushed, and the decoder is where the stream is. -/
theorem ingestBytes_ofLine (hrounds : maxLines + 1 ≤ rounds) (stream : Fin 2) (chunk : Bytes)
    (S : Bytes) {h : History} (hh : h.Good) : ∃ h' lines,
      chunk.foldlM (LineDecoder.ingestByte strip rounds stream) (.ofLine (unfinished newline S), h) =
        some (.ofLine (unfinished newline (S ++ chunk)), h') ∧
      h'.Good ∧ h'.unfinished = h.unfinished ∧
      complete newline (S ++ chunk) = complete newline S ++ lines ∧
      h'.pushed = h.pushed ++ lines.map fun line => (stream, render strip line) := by
  induction chunk generalizing S h with
  | nil => exact ⟨h, [], by simp, hh, rfl, by simp, by simp⟩
  | cons byte chunk ih =>
    rw [List.foldlM_cons]
    by_cases hbyte : byte = newline
    · subst hbyte
      obtain ⟨m, hm, hgood, hpushed, hunfinished⟩ :=
        History.push_good hrounds hh stream (render strip (unfinished newline S))
      obtain ⟨h', lines, hh', hgood', hunfinished', hlines, hpushed'⟩ := ih (S ++ [newline]) hgood
      rw [Lib.Lines.unfinished_snoc_separator] at hh'
      rw [Lib.Lines.complete_snoc_separator] at hlines
      rw [List.append_assoc, List.singleton_append] at hh' hlines
      refine ⟨h', unfinished newline S :: lines, ?_, hgood', hunfinished'.trans hunfinished, ?_, ?_⟩
      · rw [ingestByte_newline, hm]
        exact hh'
      · simp [hlines]
      · simp [hpushed', hpushed]
    · obtain ⟨h', lines, hh', hgood', hunfinished', hlines, hpushed'⟩ := ih (S ++ [byte]) hh
      rw [Lib.Lines.unfinished_snoc hbyte] at hh'
      rw [Lib.Lines.complete_snoc hbyte] at hlines
      rw [List.append_assoc, List.singleton_append] at hh' hlines
      refine ⟨h', lines, ?_, hgood', hunfinished', hlines, hpushed'⟩
      rw [ingestByte_other strip stream _ h hbyte]
      exact hh'

/-- What is shown of the last line. -/
def lastLine (S : Bytes) : String :=
  if unfinished newline S = [] then "" else render strip (unfinished newline S)

/-- What is pushed for a stream. -/
def expected (finished : Bool) (S : Bytes) : List String :=
  (complete newline S ++
    if finished ∧ unfinished newline S ≠ [] then [unfinished newline S] else []).map (render strip)

/-! ### Runs -/

/-- The state of one stream after the calls. -/
structure Follows (calls : List Call) (s : Capture) (stream : Fin 2) : Prop where
  finished : s.finished stream = decide (.finish stream ∈ calls)
  decoder : s.decoder stream = .ofLine (unfinished newline (received stream calls))
  pushed : s.history.pushedFor stream =
    expected strip (s.finished stream) (received stream calls)
  shown : s.history.unfinished stream =
    if s.finished stream then "" else lastLine strip (received stream calls)

structure Tracks (calls : List Call) (s : Capture) : Prop where
  good : s.history.Good
  follows : ∀ stream, Follows strip calls s stream

variable {strip} {calls : List Call} {s s' : Capture}

theorem tracks_init : Tracks strip [] {} where
  good := ⟨⟨rfl, [], rfl, rfl⟩, Nat.zero_le _, Nat.zero_le _⟩
  follows stream := by
    have hreceived : received stream [] = [] := rfl
    refine ⟨rfl, ?_, ?_, ?_⟩
    · rw [hreceived, Lib.Lines.unfinished_nil]
      rfl
    · rw [expected, hreceived, Lib.Lines.complete_nil, Lib.Lines.unfinished_nil]
      rfl
    · rw [lastLine, hreceived, Lib.Lines.unfinished_nil]
      rfl

theorem received_append (stream : Fin 2) (calls : List Call) (c : Call) :
    received stream (calls ++ [c]) = received stream calls ++ received stream [c] :=
  List.flatMap_append

theorem received_other {stream : Fin 2} {c : Call} (h : stream ≠ c.stream) :
    received stream [c] = [] := by
  cases c with
  | ingest stream' chunk => simp [received, show stream' ≠ stream from h.symm]
  | finish stream' => rfl

theorem pushedFor_append {h h' : History} {stream : Fin 2} {lines : List Bytes}
    (hpushed : h'.pushed = h.pushed ++ lines.map fun line => (stream, render strip line))
    (stream' : Fin 2) : h'.pushedFor stream' =
      h.pushedFor stream' ++ if stream' = stream then lines.map (render strip) else [] := by
  rw [History.pushedFor, hpushed, List.filter_append, List.map_append]
  refine congrArg₂ (· ++ ·) rfl ?_
  split_ifs with hstream
  · subst hstream
    rw [List.filter_eq_self.mpr (by simp), List.map_map]
    rfl
  · rw [List.filter_eq_nil_iff.mpr (by simpa using fun _ _ h => hstream h.symm)]
    rfl

theorem Follows.other {stream : Fin 2} (h : Follows strip calls s stream) {c : Call}
    (hstream : stream ≠ c.stream) (hdecoder : s'.decoder stream = s.decoder stream)
    (hfinished : s'.finished stream = s.finished stream)
    (hpushed : s'.history.pushedFor stream = s.history.pushedFor stream)
    (hshown : s'.history.unfinished stream = s.history.unfinished stream) :
    Follows strip (calls ++ [c]) s' stream := by
  have hreceived : received stream (calls ++ [c]) = received stream calls := by
    rw [received_append, received_other hstream, List.append_nil]
  have hmem : Call.finish stream ∈ calls ++ [c] ↔ Call.finish stream ∈ calls := by
    rw [List.mem_append, List.mem_singleton]
    refine or_iff_left ?_
    rintro rfl
    exact hstream rfl
  refine ⟨?_, ?_, ?_, ?_⟩
  · rw [hfinished, h.finished]
    exact decide_eq_decide.mpr hmem.symm
  · rw [hdecoder, hreceived, h.decoder]
  · rw [hpushed, hfinished, hreceived, h.pushed]
  · rw [hshown, hfinished, hreceived, h.shown]

theorem call_open {c : Call} (h : s.call strip rounds c = some s') :
    s.finished c.stream = false := by
  rw [Bool.eq_false_iff]
  intro hfinished
  cases c with
  | ingest stream chunk =>
    have hnone : s.call strip rounds (.ingest stream chunk) = none := if_pos hfinished
    rw [hnone] at h
    cases h
  | finish stream =>
    have hnone : s.call strip rounds (.finish stream) = none := if_pos hfinished
    rw [hnone] at h
    cases h

section

variable (hrounds : maxLines + 1 ≤ rounds)
include hrounds

theorem ingest_tracks (h : Tracks strip calls s) {stream : Fin 2}
    (hopen : s.finished stream = false) (chunk : Bytes) :
    ∃ s', s.call strip rounds (.ingest stream chunk) = some s' ∧
      Tracks strip (calls ++ [.ingest stream chunk]) s' := by
  have hstream := h.follows stream
  obtain ⟨h', lines, hbytes, hgood, hunfinished, hlines, hpushed⟩ :=
    ingestBytes_ofLine strip hrounds stream chunk (received stream calls) h.good
  have hcall : s.call strip rounds (.ingest stream chunk) = some { s with
      history := h'.setUnfinished stream (lastLine strip (received stream calls ++ chunk))
      decoder := Function.update s.decoder stream
        (.ofLine (unfinished newline (received stream calls ++ chunk))) } := by
    unfold Capture.call LineDecoder.ingest
    dsimp only
    rw [hopen, hstream.decoder, hbytes]
    simp [isEmpty_ofLine, text_ofLine, lastLine]
  refine ⟨_, hcall, hgood.setUnfinished _ _, fun stream' => ?_⟩
  have hpushedFor := pushedFor_append hpushed
  by_cases hother : stream' = stream
  · subst hother
    have hreceived : received stream' (calls ++ [.ingest stream' chunk]) =
        received stream' calls ++ chunk := by
      rw [received_append]
      simp [received]
    have hmem : Call.finish stream' ∈ calls ++ [.ingest stream' chunk] ↔
        Call.finish stream' ∈ calls := by simp
    refine ⟨?_, ?_, ?_, ?_⟩
    · rw [hstream.finished]
      exact decide_eq_decide.mpr hmem.symm
    · rw [hreceived]
      exact Function.update_self _ _ _
    · rw [hreceived]
      refine (hpushedFor stream').trans ?_
      rw [hstream.pushed, if_pos rfl]
      simp [expected, hopen, hlines]
    · rw [hreceived]
      refine (Function.update_self _ _ _).trans ?_
      rw [hopen]
      rfl
  · refine (h.follows stream').other hother ?_ rfl ?_ ?_
    · exact Function.update_of_ne hother _ _
    · refine (hpushedFor stream').trans ?_
      rw [if_neg hother, List.append_nil]
    · refine (Function.update_of_ne hother _ _).trans ?_
      rw [hunfinished]

theorem finish_ofLine (stream : Fin 2) (S : Bytes) {h : History}
    (hh : h.Good) : ∃ (h' : History) (lines : List Bytes),
      (LineDecoder.ofLine (unfinished newline S)).finish strip rounds stream h =
        some (h'.setUnfinished stream "") ∧
      h'.Good ∧ h'.unfinished = h.unfinished ∧
      lines = (if unfinished newline S ≠ [] then [unfinished newline S] else []) ∧
      h'.pushed = h.pushed ++ lines.map fun line => (stream, render strip line) := by
  unfold LineDecoder.finish
  rw [isEmpty_ofLine, text_ofLine]
  by_cases hempty : unfinished newline S = []
  · exact ⟨h, [], by simp [hempty], hh, rfl, by simp [hempty], by simp⟩
  · obtain ⟨h', hpush, hgood, hpushed, hunfinished⟩ :=
      History.push_good hrounds hh stream (render strip (unfinished newline S))
    exact ⟨h', [unfinished newline S], by simp [hempty, hpush], hgood, hunfinished,
      by simp [hempty], by simp [hpushed]⟩

theorem finish_tracks (h : Tracks strip calls s) {stream : Fin 2}
    (hopen : s.finished stream = false) : ∃ s', s.call strip rounds (.finish stream) = some s' ∧
      Tracks strip (calls ++ [.finish stream]) s' := by
  have hstream := h.follows stream
  obtain ⟨h', lines, hfinish, hgood, hunfinished, hlines, hpushed⟩ :=
    finish_ofLine hrounds stream (received stream calls) h.good
  have hcall : s.call strip rounds (.finish stream) = some { s with
      history := h'.setUnfinished stream ""
      finished := Function.update s.finished stream true } := by
    unfold Capture.call
    dsimp only
    rw [hopen, hstream.decoder, hfinish]
    rfl
  refine ⟨_, hcall, hgood.setUnfinished _ _, fun stream' => ?_⟩
  have hpushedFor := pushedFor_append hpushed
  by_cases hother : stream' = stream
  · subst hother
    have hreceived : received stream' (calls ++ [.finish stream']) = received stream' calls := by
      rw [received_append]
      simp [received]
    have hfinished : Function.update s.finished stream' true stream' = true :=
      Function.update_self _ _ _
    refine ⟨?_, ?_, ?_, ?_⟩
    · refine hfinished.trans ?_
      simp
    · rw [hreceived]
      exact hstream.decoder
    · rw [hreceived]
      refine (hpushedFor stream').trans ?_
      rw [hstream.pushed, if_pos rfl]
      simp [expected, hopen, hlines]
    · refine (Function.update_self _ _ _).trans ?_
      rw [if_pos hfinished]
  · refine (h.follows stream').other hother rfl ?_ ?_ ?_
    · exact Function.update_of_ne hother _ _
    · refine (hpushedFor stream').trans ?_
      rw [if_neg hother, List.append_nil]
    · refine (Function.update_of_ne hother _ _).trans ?_
      rw [hunfinished]

/-- **Every call succeeds** while its decoder is there, and leaves the stream where it is. -/
theorem call_tracks (h : Tracks strip calls s) {c : Call}
    (hopen : s.finished c.stream = false) : ∃ s', s.call strip rounds c = some s' ∧
      Tracks strip (calls ++ [c]) s' := by
  cases c with
  | ingest stream chunk => exact ingest_tracks hrounds h hopen chunk
  | finish stream => exact finish_tracks hrounds h hopen

theorem run_tracks (h : (machine strip rounds).run {} calls = some s) : Tracks strip calls s := by
  refine Machine.run_induction (M := machine strip rounds) tracks_init ?_ h
  intro calls s c s' htracks hstep
  obtain ⟨t, ht, htracks'⟩ := call_tracks hrounds htracks (call_open hstep)
  obtain rfl : t = s' := Option.some.inj (ht.symm.trans hstep)
  exact htracks'

end

theorem History.Good.account {h : History} (hh : h.Good) :
    h.bytes = (h.lines.map String.utf8ByteSize).sum ∧ h.lines.length ≤ maxLines ∧
    h.bytes ≤ maxBytes ∧ h.lines <:+ h.pushed.map Prod.snd ∧
    (h.pushed.length - h.lines.length ≤ u64Max →
      h.discarded + h.lines.length = h.pushed.length) := by
  obtain ⟨dropped, hpushed, hdiscarded⟩ := hh.pushed
  refine ⟨hh.bytes, hh.lines_le, hh.bytes_le, ⟨dropped, hpushed.symm⟩, fun hle => ?_⟩
  have hlength := congrArg List.length hpushed
  rw [List.length_map, List.length_append] at hlength
  omega

end

/-- **The log is what was written**, for every way to cut the streams into chunks and to interleave
them. With 2001 rounds the trimming loop always ends. -/
theorem log_captured (strip : Bytes → Bytes) (rounds : ℕ) (hrounds : maxLines + 1 ≤ rounds) :
    (∀ calls s, (machine strip rounds).run {} calls = some s →
      (∀ stream, s.history.pushedFor stream =
          expected strip (Call.finish stream ∈ calls) (received stream calls) ∧
        s.history.unfinished stream =
          if Call.finish stream ∈ calls then "" else lastLine strip (received stream calls)) ∧
      s.history.bytes = (s.history.lines.map String.utf8ByteSize).sum ∧
      s.history.lines.length ≤ maxLines ∧ s.history.bytes ≤ maxBytes ∧
      s.history.lines <:+ s.history.pushed.map Prod.snd ∧
      (s.history.pushed.length - s.history.lines.length ≤ u64Max →
        s.history.discarded + s.history.lines.length = s.history.pushed.length) ∧
      ∀ c, s.finished c.stream = false → ∃ s', s.call strip rounds c = some s') ∧
    ∀ stream calls calls' s s', (machine strip rounds).run {} calls = some s →
      (machine strip rounds).run {} calls' = some s' →
      received stream calls = received stream calls' →
      (Call.finish stream ∈ calls ↔ Call.finish stream ∈ calls') →
      s.history.pushedFor stream = s'.history.pushedFor stream ∧
        s.history.unfinished stream = s'.history.unfinished stream := by
  have hrun : ∀ calls s, (machine strip rounds).run {} calls = some s → ∀ stream,
      s.history.pushedFor stream =
          expected strip (Call.finish stream ∈ calls) (received stream calls) ∧
        s.history.unfinished stream =
          if Call.finish stream ∈ calls then "" else lastLine strip (received stream calls) := by
    intro calls s h stream
    have hfollows := (run_tracks hrounds h).follows stream
    refine ⟨by rw [hfollows.pushed, hfollows.finished], ?_⟩
    rw [hfollows.shown, hfollows.finished]
    simp
  refine ⟨fun calls s h => ⟨hrun calls s h, ?_⟩, fun stream calls calls' s s' h h' hsame hiff => ?_⟩
  · have htracks := run_tracks hrounds h
    obtain ⟨hbytes, hlines, hmax, hsuffix, hcount⟩ := htracks.good.account
    refine ⟨hbytes, hlines, hmax, hsuffix, hcount, fun c hopen => ?_⟩
    obtain ⟨s', hs', -⟩ := call_tracks hrounds htracks hopen
    exact ⟨s', hs'⟩
  · obtain ⟨hpushed, hshown⟩ := hrun calls s h stream
    obtain ⟨hpushed', hshown'⟩ := hrun calls' s' h' stream
    rw [hpushed, hpushed', hshown, hshown', hsame]
    simp [hiff]

theorem log_captured_chunks : ∃ s,
    (machine id 2001).run {} [.ingest 0 [97], .ingest 1 [10], .ingest 0 [98, 10, 99], .finish 0] =
      some s ∧
    s.history.pushedFor 0 = ["ab", "c"] ∧ s.history.pushedFor 1 = [""] := by
  have hrun := (log_captured id 2001 (by decide)).1
  obtain ⟨s, hs⟩ := Option.isSome_iff_exists.mp (show ((machine id 2001).run {}
    [.ingest 0 [97], .ingest 1 [10], .ingest 0 [98, 10, 99], .finish 0]).isSome = true from rfl)
  refine ⟨s, hs, ?_, ?_⟩
  · rw [((hrun _ s hs).1 0).1]
    decide
  · rw [((hrun _ s hs).1 1).1]
    decide

end GlobalProtect.Client.LogCapture
