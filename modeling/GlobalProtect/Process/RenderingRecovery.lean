import GlobalProtect.Lib.Lines
import GlobalProtect.Lib.Utf8Decode
import Mathlib.Data.List.DropRight
import Mathlib.Data.List.Infix

/-! # The diagnostic of a rendering crash

The model of `StderrDiagnostic` in `process/rendering_recovery.rs` of `gpapi`. It observes the
standard error of a desktop process, in the chunks in which `run_observed` reads it, and looks for
the line that GDK writes when the Wayland display fails. Of the line that is not over it keeps the
first `maxLineBytes` bytes, and `overflow` if there were more.

`matched` looks at that line as well, and what it has seen once stays. So the answer depends on the
bytes and on how many of them had come at each call of `matched` (`Asked`), and on nothing else.

* `Observes`: what the observer knows of a stream, with one lemma for each operation.
* `run_bytewise`: a chunk for every byte gives the same observer.
* `isDiagnostic_append`: the lines of GDK are recognised.
* `matched_iff_line`: the answer, after any calls. -/

namespace GlobalProtect.Process.RenderingRecovery

open Lib
open Lib.Lines (complete unfinished)
open Lib.Utf8 (Bytes)

/-! ### Diagnostic lines -/

def newline : UInt8 := 10

def maxLineBytes : ℕ := 1024

def gdkMessage : Bytes := Utf8.encode "Gdk-Message:".toList

/-- `DIAGNOSTIC` -/
def diagnostic : Bytes :=
  Utf8.encode "Error 71 (Protocol error) dispatching to Wayland display".toList

/-- What a line may start with. -/
def starts : List Bytes :=
  ["Gdk-Message:", "(gpgui:", "(gpauth:", "(gpgui-helper:"].map fun text => Utf8.encode text.toList

def isAsciiWhitespace (b : UInt8) : Bool := b = 32 || b = 9 || b = 10 || b = 12 || b = 13

/-- What `check_line` asks of a line, apart from its length. -/
def isDiagnostic (line : Bytes) : Bool :=
  let line := line.rdropWhile isAsciiWhitespace
  let message := (line.dropSuffix? (Utf8.encode ".".toList)).getD line
  starts.any (·.isPrefixOf line) && decide (gdkMessage <:+: line) && diagnostic.isSuffixOf message

theorem rdropWhile_space {b : UInt8} (hb : isAsciiWhitespace b = false) (body : Bytes)
    {space : Bytes} (hspace : ∀ x ∈ space, isAsciiWhitespace x = true) :
    (body ++ [b] ++ space).rdropWhile isAsciiWhitespace = body ++ [b] := by
  induction space using List.reverseRecOn with
  | nil =>
    rw [List.append_nil]
    exact List.rdropWhile_concat_neg _ _ _ (by simp [hb])
  | append_singleton space c ih =>
    rw [← List.append_assoc, List.rdropWhile_concat_pos _ _ _ (hspace c (by simp))]
    exact ih fun x hx => hspace x (by simp [hx])

theorem diagnostic_eq : ∃ init, diagnostic = init ++ [121] := by
  have htext : "Error 71 (Protocol error) dispatching to Wayland display".toList =
      "Error 71 (Protocol error) dispatching to Wayland displa".toList ++ ['y'] := by simp
  exact ⟨_, by rw [diagnostic, htext, Utf8.encode_append]; rfl⟩

/-- What GDK writes is recognised, with any text before the error, with or without a full stop, and
with any whitespace at the end. -/
theorem isDiagnostic_append {start text stop space : Bytes} (hstart : start ∈ starts)
    (hbegins : start <+: text) (hgdk : gdkMessage <:+: text) (hstop : stop = [] ∨ stop = [46])
    (hspace : ∀ x ∈ space, isAsciiWhitespace x = true) :
    isDiagnostic (text ++ diagnostic ++ stop ++ space) = true := by
  have hdot : Utf8.encode ".".toList = [46] := by decide
  obtain ⟨init, hdiagnostic⟩ := diagnostic_eq
  obtain ⟨hline, hmessage⟩ : (text ++ diagnostic ++ stop ++ space).rdropWhile isAsciiWhitespace =
      text ++ diagnostic ++ stop ∧ ((text ++ diagnostic ++ stop).dropSuffix? [46]).getD
        (text ++ diagnostic ++ stop) = text ++ diagnostic := by
    rcases hstop with rfl | rfl
    · rw [List.append_nil, hdiagnostic, ← List.append_assoc]
      refine ⟨rdropWhile_space (by decide) _ hspace, ?_⟩
      cases h : (text ++ init ++ [121]).dropSuffix? [46] with
      | none => rfl
      | some rest =>
        -- the diagnostic does not end with a full stop
        obtain ⟨s, hs, heq⟩ := List.dropSuffix?_eq_some_iff.mp h
        obtain rfl := eq_of_beq heq
        cases (List.append_inj' hs rfl).2
    · refine ⟨rdropWhile_space (by decide) _ hspace, ?_⟩
      rw [List.dropSuffix?_eq_some_iff.mpr ⟨[46], rfl, rfl⟩]
      rfl
  have hpart : text <+: text ++ diagnostic ++ stop := by
    rw [List.append_assoc]
    exact List.prefix_append _ _
  simp only [isDiagnostic, hdot, hline, hmessage, Bool.and_eq_true, decide_eq_true_iff,
    List.any_eq_true]
  exact ⟨⟨⟨start, hstart, List.isPrefixOf_iff_prefix.mpr (hbegins.trans hpart)⟩,
    hgdk.trans hpart.isInfix⟩, List.isSuffixOf_iff_suffix.mpr (List.suffix_append _ _)⟩

/-! ### The observer -/

structure StderrDiagnostic where
  line : Bytes := []
  overflow : Bool := false
  /-- The field `matched`. -/
  isMatched : Bool := false
  deriving DecidableEq

namespace StderrDiagnostic

variable (d : StderrDiagnostic)

def checkLine : StderrDiagnostic :=
  if !d.overflow && isDiagnostic d.line then { d with isMatched := true } else d

/-- One round of the loop of `push`. -/
def pushByte (byte : UInt8) : StderrDiagnostic :=
  if byte = newline then { d.checkLine with line := [], overflow := false }
  else if d.line.length < maxLineBytes then { d with line := d.line ++ [byte] }
  else { d with overflow := true }

def push (bytes : Bytes) : StderrDiagnostic := bytes.foldl pushByte d

/-- The answer, and the observer after it. -/
def matched : Bool × StderrDiagnostic := (d.checkLine.isMatched, d.checkLine)

end StderrDiagnostic

inductive Call where
  | push (bytes : Bytes)
  | matched
  deriving DecidableEq

def StderrDiagnostic.call (d : StderrDiagnostic) : Call → StderrDiagnostic
  | .push bytes => d.push bytes
  | .matched => d.matched.2

def run (calls : List Call) : StderrDiagnostic := calls.foldl StderrDiagnostic.call {}

/-! ### What was pushed and asked -/

def Call.bytes : Call → Bytes
  | .push bytes => bytes
  | .matched => []

def pushed (calls : List Call) : Bytes := calls.flatMap Call.bytes

/-- The line was the unfinished one at a call of `matched`. -/
def Asked (calls : List Call) (line : Bytes) : Prop :=
  ∃ before, before ++ [.matched] <+: calls ∧ unfinished newline (pushed before) = line

/-- The same call with a chunk for every byte. -/
def Call.bytewise : Call → List Call
  | .push bytes => bytes.map fun byte => .push [byte]
  | .matched => [.matched]

theorem pushed_snoc (calls : List Call) (c : Call) :
    pushed (calls ++ [c]) = pushed calls ++ c.bytes := by
  simp [pushed]

theorem asked_push (calls : List Call) (bytes : Bytes) :
    Asked (calls ++ [.push bytes]) = Asked calls := by
  funext line
  refine propext (exists_congr fun before => and_congr_left fun _ => ?_)
  rw [List.prefix_concat_iff]
  refine or_iff_right fun h => ?_
  cases (List.append_inj' h rfl).2

theorem asked_matched (calls : List Call) : Asked (calls ++ [.matched]) =
    fun line => Asked calls line ∨ unfinished newline (pushed calls) = line := by
  funext line
  refine propext ⟨?_, ?_⟩
  · rintro ⟨before, hbefore, hline⟩
    rcases List.prefix_concat_iff.mp hbefore with h | h
    · rw [(List.append_inj' h rfl).1] at hline
      exact .inr hline
    · exact .inl ⟨before, h, hline⟩
  · rintro (⟨before, hbefore, hline⟩ | hline)
    · exact ⟨before, hbefore.trans (List.prefix_append _ _), hline⟩
    · exact ⟨calls, List.prefix_rfl, hline⟩

/-! ### What the observer knows -/

/-- The line is short enough to be kept, and is a diagnostic. -/
def Reported (line : Bytes) : Prop := line.length ≤ maxLineBytes ∧ isDiagnostic line = true

/-- The observer has read the stream, and was asked about the lines `asked`. -/
structure Observes (d : StderrDiagnostic) (stream : Bytes) (asked : Bytes → Prop) : Prop where
  line : d.line = (unfinished newline stream).take maxLineBytes
  overflow : d.overflow = true ↔ maxLineBytes < (unfinished newline stream).length
  matched : d.isMatched = true ↔
    ∃ line, (line ∈ complete newline stream ∨ asked line) ∧ Reported line

variable {d : StderrDiagnostic} {stream : Bytes} {asked : Bytes → Prop}

theorem observes_init : Observes {} [] (Asked []) where
  line := by rw [Lines.unfinished_nil]; rfl
  overflow := by simp [Lines.unfinished_nil]
  matched := by simp [Lines.complete_nil, Asked]

/-- What is kept of a line decides whether it is reported. -/
theorem Observes.reported_iff (h : Observes d stream asked) :
    (!d.overflow && isDiagnostic d.line) = true ↔ Reported (unfinished newline stream) := by
  rw [Bool.and_eq_true, Bool.not_eq_true', ← Bool.not_eq_true, h.overflow, Nat.not_lt, h.line]
  refine and_congr_right fun hle => ?_
  rw [List.take_of_length_le hle]

theorem Observes.checkLine (h : Observes d stream asked) :
    Observes d.checkLine stream fun line => asked line ∨ unfinished newline stream = line := by
  have hmatched : d.checkLine.isMatched = true ↔
      d.isMatched = true ∨ Reported (unfinished newline stream) := by
    rw [← h.reported_iff, StderrDiagnostic.checkLine]
    split_ifs with hcheck <;> simp [hcheck]
  refine ⟨?_, ?_, ?_⟩
  · rw [StderrDiagnostic.checkLine]
    split_ifs <;> exact h.line
  · rw [StderrDiagnostic.checkLine]
    split_ifs <;> exact h.overflow
  · rw [hmatched, h.matched]
    constructor
    · rintro (⟨line, hline, hreported⟩ | hreported)
      · exact ⟨line, hline.imp_right .inl, hreported⟩
      · exact ⟨_, .inr (.inr rfl), hreported⟩
    · rintro ⟨line, hline | hline | rfl, hreported⟩
      · exact .inl ⟨line, .inl hline, hreported⟩
      · exact .inl ⟨line, .inr hline, hreported⟩
      · exact .inr hreported

/-- **One byte.** -/
theorem Observes.pushByte (h : Observes d stream asked) (byte : UInt8) :
    Observes (d.pushByte byte) (stream ++ [byte]) asked := by
  rw [StderrDiagnostic.pushByte]
  split_ifs with hbyte hroom
  · -- the line is over, and was looked at
    subst hbyte
    refine ⟨?_, ?_, ?_⟩
    · rw [Lines.unfinished_snoc_separator, List.take_nil]
    · simp [Lines.unfinished_snoc_separator]
    · refine h.checkLine.matched.trans (exists_congr fun line => and_congr_left fun _ => ?_)
      rw [Lines.complete_snoc_separator, List.mem_append, List.mem_singleton, or_assoc, eq_comm,
        or_comm (a := asked line)]
  · rw [h.line] at hroom
    obtain ⟨htake, hover⟩ := Lines.take_snoc_of_lt hroom byte
    refine ⟨?_, ?_, ?_⟩
    · rw [Lines.unfinished_snoc hbyte, htake, h.line]
    · rw [Lines.unfinished_snoc hbyte, hover, h.overflow]
    · rw [Lines.complete_snoc hbyte, h.matched]
  · rw [h.line] at hroom
    obtain ⟨htake, hover⟩ := Lines.take_snoc_of_not_lt hroom byte
    refine ⟨?_, ?_, ?_⟩
    · rw [Lines.unfinished_snoc hbyte, htake, h.line]
    · rw [Lines.unfinished_snoc hbyte]
      exact iff_of_true rfl hover
    · rw [Lines.complete_snoc hbyte, h.matched]

theorem Observes.push (h : Observes d stream asked) (bytes : Bytes) :
    Observes (d.push bytes) (stream ++ bytes) asked := by
  induction bytes generalizing d stream with
  | nil => rwa [List.append_nil]
  | cons byte bytes ih =>
    have hrest := ih (h.pushByte byte)
    rwa [List.append_assoc, List.singleton_append] at hrest

/-- **After any calls**, the observer knows what was pushed. -/
theorem observes_run (calls : List Call) : Observes (run calls) (pushed calls) (Asked calls) := by
  induction calls using List.reverseRecOn with
  | nil => exact observes_init
  | append_singleton calls c ih =>
    rw [run, List.foldl_append, pushed_snoc]
    cases c with
    | push bytes =>
      rw [asked_push]
      exact ih.push bytes
    | matched =>
      rw [asked_matched, Call.bytes, List.append_nil]
      exact ih.checkLine

/-! ### Chunks -/

theorem foldl_bytewise (d : StderrDiagnostic) (c : Call) :
    c.bytewise.foldl StderrDiagnostic.call d = d.call c := by
  cases c with
  | push bytes =>
    rw [Call.bytewise, List.foldl_map]
    rfl
  | matched => rfl

theorem run_bytewise (calls : List Call) : run (calls.flatMap Call.bytewise) = run calls := by
  rw [run, List.foldl_flatMap]
  simp only [foldl_bytewise]
  rfl

/-! ### The answer -/

theorem matched_iff (calls : List Call) : (run calls).matched.1 = true ↔ ∃ line,
    (line ∈ (pushed calls).splitOn newline ∨ Asked calls line) ∧ Reported line := by
  have h := (observes_run calls).checkLine
  refine h.matched.trans (exists_congr fun line => and_congr_left fun _ => ?_)
  rw [Lines.splitOn_eq, List.mem_append, List.mem_singleton, or_assoc, eq_comm,
    or_comm (a := Asked calls line)]

/-- **The line of GDK is found**, in whatever chunks it comes. -/
theorem matched_of_gdk {calls : List Call} {start text stop space : Bytes} (hstart : start ∈ starts)
    (hbegins : start <+: text) (hgdk : gdkMessage <:+: text) (hstop : stop = [] ∨ stop = [46])
    (hspace : ∀ x ∈ space, isAsciiWhitespace x = true)
    (hline : text ++ diagnostic ++ stop ++ space ∈ (pushed calls).splitOn newline)
    (hlength : (text ++ diagnostic ++ stop ++ space).length ≤ maxLineBytes) :
    (run calls).matched.1 = true :=
  (matched_iff calls).mpr
    ⟨_, .inl hline, hlength, isDiagnostic_append hstart hbegins hgdk hstop hspace⟩

theorem matched_of_gdk_split : (run [.push gdkMessage, .push diagnostic]).matched.1 = true :=
  matched_of_gdk List.mem_cons_self List.prefix_rfl List.infix_rfl (.inl (Eq.refl []))
    (List.forall_mem_nil _) (by decide +kernel) (by decide +kernel)

/-- **The diagnosis does not depend on the chunks.** After any calls the observer is the one that
gets every byte alone; `matched` finds the lines of what was pushed, and those that were unfinished
at an earlier call of it; no more than `maxLineBytes` are kept. -/
theorem matched_iff_line (calls : List Call) :
    run (calls.flatMap Call.bytewise) = run calls ∧
      ((run calls).matched.1 = true ↔ ∃ line,
        (line ∈ (pushed calls).splitOn newline ∨ Asked calls line) ∧
          line.length ≤ maxLineBytes ∧ isDiagnostic line = true) ∧
      (run calls).line.length ≤ maxLineBytes := by
  refine ⟨run_bytewise calls, matched_iff calls, ?_⟩
  rw [(observes_run calls).line]
  exact List.length_take_le _ _

end GlobalProtect.Process.RenderingRecovery
