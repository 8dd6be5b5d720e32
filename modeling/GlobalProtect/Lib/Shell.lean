import GlobalProtect.Lib.Machine
import GlobalProtect.Lib.Text
import Mathlib.Algebra.Ring.Nat
import Mathlib.Data.String.Basic
import Mathlib.Algebra.BigOperators.Group.List.Basic

/-! # Shell input

How a POSIX shell reads commands, one character at a time: quoting, words, and which words are
assignments. The machine stops (`none`) where the text alone does not say what happens: expansions,
operators other than `;`, and characters that a shell cannot read.

A word keeps for every character whether it was quoted. Reading a character adds at most that
character to the words, and a quote or a backslash that takes effect adds nothing
(`State.step_bounded`). So `NAME='value'` assigns the value exactly if it has no quote
(`evaluate_line_iff`). A text whose quotes are escaped (`quote`) is read as one word
(`evaluate_quote`); what a command runs depends on where the shell looks for it (`Search.find`). -/

namespace GlobalProtect.Lib.Shell

abbrev Word := List (Char × Bool)

def Word.text (w : Word) : String := String.ofList (w.map Prod.fst)

inductive Event where
  | assign (name value : String)
  /-- Anything else than assignments. -/
  | execute (words : List String)
  deriving DecidableEq, Repr

inductive Mode where
  | bare
  | single
  | double
  | escaped
  | doubleEscaped
  | comment
  deriving DecidableEq, Repr

structure State where
  events : List Event
  words : List Word
  word : Option Word
  mode : Mode
  deriving DecidableEq, Repr

/-! ### Commands -/

def isNameChar (c : Char) : Bool := c.isAlphanum || c = '_'

/-- Letters, digits and underscores, none of them quoted, and not a digit first. -/
def isName (w : Word) : Bool :=
  w.all (fun p => !p.2 && isNameChar p.1) && w.head?.any (!·.1.isDigit)

def assignment? (w : Word) : Option Event :=
  let name := w.takeWhile (·.1 ≠ '=')
  match w.dropWhile (·.1 ≠ '=') with
  | (_, false) :: value =>
    if isName name then some (.assign (Word.text name) (Word.text value)) else none
  | _ => none

def command (words : List Word) : List Event :=
  match words.mapM assignment? with
  | some events => events
  | none => [.execute (words.map Word.text)]

namespace State

def atRest (events : List Event) : State where
  events := events
  words := []
  word := none
  mode := .bare

/-- Quotes make a word even if nothing is in them. -/
def beginWord (s : State) : State := { s with word := some (s.word.getD []) }

def push (s : State) (c : Char) (quoted : Bool) : State :=
  { s with word := some (s.word.getD [] ++ [(c, quoted)]) }

def endWord (s : State) : State := { s with words := s.words ++ s.word.toList, word := none }

def endCommand (s : State) : State :=
  { s with events := s.events ++ command (s.words ++ s.word.toList), words := [], word := none }

/-- Expansions, and operators that do more than end a command. -/
def undetermined : List Char := ['$', '\x60', '~', '&', '|', '<', '>', '(', ')']

def bare (s : State) (c : Char) : Option State :=
  match c with
  | '\'' => some { s.beginWord with mode := .single }
  | '"' => some { s.beginWord with mode := .double }
  | '\\' => some { s with mode := .escaped }
  | ' ' | '\t' => some s.endWord
  | '\n' => some s.endCommand
  -- a command must come before it
  | ';' => if s.words = [] ∧ s.word = none then none else some s.endCommand
  | '#' => some (if s.word = none then { s with mode := .comment } else s.push '#' false)
  | c => if c ∈ undetermined then none else some (s.push c false)

def single (s : State) (c : Char) : State :=
  if c = '\'' then { s with mode := .bare } else s.push c true

def double (s : State) (c : Char) : Option State :=
  match c with
  | '"' => some { s with mode := .bare }
  | '\\' => some { s with mode := .doubleEscaped }
  | c => if c = '$' ∨ c = '\x60' then none else some (s.push c true)

/-- A newline after a backslash is no character at all. -/
def escaped (s : State) (c : Char) : State :=
  { (if c = '\n' then s else s.push c true) with mode := .bare }

/-- In double quotes a backslash is a character, unless the next one has a meaning there. -/
def doubleEscaped (s : State) (c : Char) : State :=
  { (if c = '\n' then s
    else if c ∈ ['$', '\x60', '"', '\\'] then s.push c true
    else (s.push '\\' true).push c true) with mode := .double }

def comment (s : State) (c : Char) : State :=
  if c = '\n' then { s.endCommand with mode := .bare } else s

def step (s : State) (c : Char) : Option State :=
  if c = '\x00' then none
  else match s.mode with
    | .bare => s.bare c
    | .single => some (s.single c)
    | .double => s.double c
    | .escaped => some (s.escaped c)
    | .doubleEscaped => some (s.doubleEscaped c)
    | .comment => some (s.comment c)

def finish (s : State) : Option (List Event) :=
  match s.mode with
  | .bare | .comment => some s.endCommand.events
  | _ => none

end State

def machine : Machine State Char where
  init := .atRest []
  step := State.step

/-- What a shell does with the text. -/
def evaluate (text : List Char) : Option (List Event) :=
  (machine.run (.atRest []) text).bind State.finish

/-! ### How much is read -/

def Event.size : Event → ℕ
  | .assign name value => name.length + 1 + value.length
  | .execute words => (words.map String.length).sum

def size (events : List Event) : ℕ := (events.map Event.size).sum

def State.size (s : State) : ℕ :=
  Shell.size s.events + (s.words.map List.length).sum + (s.word.getD []).length

/-- Characters that have been read and are in no word. -/
def Mode.debt : Mode → ℕ
  | .bare => 0
  | .doubleEscaped => 2
  | _ => 1

theorem size_append (events events' : List Event) :
    size (events ++ events') = size events + size events' := by
  simp [size]

theorem length_text (w : Word) : w.text.length = w.length := by
  rw [Word.text, String.length_ofList, List.length_map]

theorem size_assignment {w : Word} {e : Event} (h : assignment? w = some e) :
    e.size = w.length := by
  unfold assignment? at h
  dsimp only at h
  have hlength := congrArg List.length
    (List.takeWhile_append_dropWhile (p := fun p : Char × Bool => decide (p.1 ≠ '=')) (l := w))
  rw [List.length_append] at hlength
  split at h
  · rename_i c value hvalue
    split_ifs at h
    cases h
    rw [hvalue, List.length_cons] at hlength
    rw [Event.size, length_text, length_text]
    omega
  · cases h

theorem size_command (words : List Word) :
    size (command words) = (words.map List.length).sum := by
  unfold command
  split
  · rename_i events hevents
    induction words generalizing events with
    | nil =>
      cases hevents
      rfl
    | cons w words ih =>
      rw [List.mapM_cons] at hevents
      obtain ⟨e, he, hevents⟩ := Option.bind_eq_some_iff.mp hevents
      obtain ⟨rest, hrest, hevents⟩ := Option.bind_eq_some_iff.mp hevents
      cases hevents
      rw [List.map_cons, List.sum_cons, ← ih rest hrest, ← size_assignment he]
      simp [size]
  · simp [size, Event.size, Function.comp_def, length_text]

namespace State

variable {s s' : State} {c : Char}

theorem size_push (s : State) (c : Char) (quoted : Bool) : (s.push c quoted).size = s.size + 1 := by
  simp [size, push, Nat.add_assoc]

theorem size_beginWord (s : State) : s.beginWord.size = s.size := rfl

theorem sum_endWord (s : State) : ((s.words ++ s.word.toList).map List.length).sum =
    (s.words.map List.length).sum + (s.word.getD []).length := by
  cases s.word <;> simp

theorem size_endWord (s : State) : s.endWord.size = s.size := by
  simp only [size, endWord, sum_endWord]
  simp [Nat.add_assoc]

theorem size_endCommand (s : State) : s.endCommand.size = s.size := by
  simp only [size, endCommand, size_append, size_command, sum_endWord]
  simp [Nat.add_assoc]

/-- What reading the character may add to the words: itself at most, and what was owed. A quote adds
nothing that was not owed, and a newline nothing, unless it is in quotes. -/
def Bounded (s : State) (c : Char) (s' : State) : Prop :=
  s'.size + s'.mode.debt ≤ s.size + s.mode.debt + 1 ∧
    (c = '\'' → s'.size ≤ s.size + s.mode.debt) ∧ (c = '\n' → s'.finish ≠ none → s'.size = s.size)

theorem bounded_same (hsize : s'.size = s.size) (hdebt : s'.mode.debt ≤ s.mode.debt + 1) :
    Bounded s c s' :=
  ⟨by omega, fun _ => by omega, fun _ _ => hsize⟩

theorem bounded_push {n : ℕ} (hsize : s'.size = s.size + n)
    (hdebt : n + s'.mode.debt ≤ s.mode.debt + 1) (hquote : c = '\'' → n ≤ s.mode.debt)
    (hnewline : c = '\n' → s'.finish = none) : Bounded s c s' := by
  refine ⟨by omega, fun hc => ?_, fun hc hfinish => absurd (hnewline hc) hfinish⟩
  have := hquote hc
  omega

theorem bare_bounded (hmode : s.mode = .bare) (h : s.bare c = some s') : Bounded s c s' := by
  have hdebt : s.mode.debt = 0 := by rw [hmode]; rfl
  unfold bare at h
  split at h
  · cases h
    exact bounded_same s.size_beginWord (by rw [hdebt]; rfl)
  · cases h
    exact bounded_same s.size_beginWord (by rw [hdebt]; rfl)
  · cases h
    exact bounded_same rfl (by rw [hdebt]; rfl)
  · cases h
    exact bounded_same s.size_endWord (Nat.le_succ _)
  · cases h
    exact bounded_same s.size_endWord (Nat.le_succ _)
  · cases h
    exact bounded_same s.size_endCommand (Nat.le_succ _)
  · split_ifs at h
    cases h
    exact bounded_same s.size_endCommand (Nat.le_succ _)
  · cases h
    split_ifs
    · exact bounded_same rfl (by rw [hdebt]; rfl)
    · exact bounded_push (s.size_push _ _) (Nat.add_comm _ _).le (fun hc => absurd hc (by decide))
        fun hc => absurd hc (by decide)
  · -- a character of a word
    rename_i hquote _ _ _ _ hnewline _ _
    split_ifs at h
    cases h
    exact bounded_push (s.size_push _ _) (Nat.add_comm _ _).le (fun hc => absurd hc hquote)
      fun hc => absurd hc hnewline

theorem single_bounded (hmode : s.mode = .single) : Bounded s c (s.single c) := by
  unfold single
  split_ifs with hc
  · exact bounded_same rfl (Nat.zero_le _)
  · refine bounded_push (s.size_push _ _) (Nat.add_comm _ _).le (fun h => absurd h hc) fun _ => ?_
    rw [finish, push, hmode]

theorem double_bounded (hmode : s.mode = .double) (h : s.double c = some s') : Bounded s c s' := by
  have hdebt : s.mode.debt = 1 := by rw [hmode]; rfl
  unfold double at h
  split at h
  · cases h
    exact bounded_same rfl (Nat.zero_le _)
  · cases h
    exact bounded_same rfl (by rw [hdebt]; rfl)
  · split_ifs at h
    cases h
    refine bounded_push (s.size_push _ _) (Nat.add_comm _ _).le (fun _ => hdebt.ge) fun _ => ?_
    rw [finish, push, hmode]

theorem escaped_bounded (hmode : s.mode = .escaped) : Bounded s c (s.escaped c) := by
  have hdebt : s.mode.debt = 1 := by rw [hmode]; rfl
  unfold escaped
  split_ifs with hc
  · exact bounded_same rfl (Nat.zero_le _)
  · exact bounded_push (s.size_push _ _) (Nat.le_add_left _ _) (fun _ => hdebt.ge)
      fun h => absurd h hc

theorem doubleEscaped_bounded (hmode : s.mode = .doubleEscaped) :
    Bounded s c (s.doubleEscaped c) := by
  have hdebt : s.mode.debt = 2 := by rw [hmode]; rfl
  unfold doubleEscaped
  split_ifs with hc hmeaning
  · refine bounded_same rfl ?_
    show 1 ≤ s.mode.debt + 1
    omega
  · refine bounded_push (s.size_push _ _) ?_ (fun _ => by omega) fun _ => rfl
    show 1 + 1 ≤ s.mode.debt + 1
    omega
  · refine bounded_push (n := 2) ?_ ?_ (fun _ => hdebt.ge) fun _ => rfl
    · exact (size_push _ _ _).trans (congrArg (· + 1) (s.size_push _ _))
    · show 2 + 1 ≤ s.mode.debt + 1
      omega

theorem comment_bounded : Bounded s c (s.comment c) := by
  unfold comment
  split_ifs
  · exact bounded_same s.size_endCommand (Nat.zero_le _)
  · exact bounded_same rfl (Nat.le_succ _)

theorem step_bounded (h : s.step c = some s') : Bounded s c s' := by
  unfold step at h
  split_ifs at h
  cases hmode : s.mode with
  | bare =>
    rw [hmode] at h
    exact bare_bounded hmode h
  | single =>
    rw [hmode] at h
    cases h
    exact single_bounded hmode
  | double =>
    rw [hmode] at h
    exact double_bounded hmode h
  | escaped =>
    rw [hmode] at h
    cases h
    exact escaped_bounded hmode
  | doubleEscaped =>
    rw [hmode] at h
    cases h
    exact doubleEscaped_bounded hmode
  | comment =>
    rw [hmode] at h
    cases h
    exact comment_bounded

theorem size_finish {events : List Event} (h : s.finish = some events) :
    Shell.size events = s.size := by
  have hrest : Shell.size s.endCommand.events = s.size := by
    rw [← s.size_endCommand]
    rfl
  unfold finish at h
  split at h
  · exact Option.some.inj h ▸ hrest
  · exact Option.some.inj h ▸ hrest
  · cases h

end State

variable {s s' : State} {text : List Char}

theorem machine_bounded {c : Char} (h : machine.step s c = some s') : State.Bounded s c s' :=
  State.step_bounded (s := s) (c := c) h

theorem run_size (h : machine.run s text = some s') :
    s'.size + s'.mode.debt ≤ s.size + s.mode.debt + text.length := by
  induction text generalizing s with
  | nil =>
    cases h
    exact le_rfl
  | cons c text ih =>
    obtain ⟨t, hstep, hrest⟩ := Machine.run_cons.mp h
    have hbound := (machine_bounded hstep).1
    have := ih hrest
    rw [List.length_cons]
    omega

theorem nul_notMem (h : machine.run s text = some s') : '\x00' ∉ text := by
  induction text generalizing s with
  | nil => simp
  | cons c text ih =>
    obtain ⟨t, hstep, hrest⟩ := Machine.run_cons.mp h
    refine List.not_mem_cons_of_ne_of_not_mem ?_ (ih hrest)
    rintro rfl
    cases hstep

/-! ### Quoted values -/

/-- The word that has been read so far is in the state. -/
def State.inWord (events : List Event) (w : Word) (mode : Mode) : State where
  events := events
  words := []
  word := some w
  mode := mode

theorem run_quoted {events : List Event} {w : Word} (hquote : '\'' ∉ text)
    (hnul : '\x00' ∉ text) :
    machine.run (.inWord events w .single) text =
      some (.inWord events (w ++ text.map (·, true)) .single) := by
  induction text generalizing w with
  | nil => simp
  | cons c text ih =>
    obtain ⟨hc, hquote⟩ := List.ne_and_not_mem_of_not_mem_cons hquote
    obtain ⟨hc', hnul⟩ := List.ne_and_not_mem_of_not_mem_cons hnul
    refine Machine.run_cons.mpr ⟨.inWord events (w ++ [(c, true)]) .single, ?_, ?_⟩
    · have hsingle : (State.inWord events w .single).single c =
          .inWord events (w ++ [(c, true)]) .single := by
        rw [State.single, if_neg hc.symm]
        rfl
      rw [← hsingle]
      exact if_neg hc'.symm
    · rw [ih hquote hnul]
      simp

theorem bare_of_isNameChar {c : Char} (s : State) (h : isNameChar c = true) :
    s.bare c = some (s.push c false) := by
  unfold State.bare
  split
  iterate 8 exact absurd h (by decide)
  rw [if_neg]
  intro hmem
  simp only [State.undetermined, List.mem_cons, List.not_mem_nil, or_false] at hmem
  rcases hmem with rfl | rfl | rfl | rfl | rfl | rfl | rfl | rfl | rfl <;> exact absurd h (by decide)

theorem step_of_isNameChar {c : Char} (h : isNameChar c = true) (hmode : s.mode = .bare) :
    machine.step s c = some (s.push c false) := by
  refine (if_neg ?_).trans ?_
  · rintro rfl
    exact absurd h (by decide)
  · rw [hmode]
    exact bare_of_isNameChar s h

theorem run_name {events : List Event} (w : Word) (h : ∀ c ∈ text, isNameChar c = true) :
    machine.run (.inWord events w .bare) text =
      some (.inWord events (w ++ text.map (·, false)) .bare) := by
  induction text generalizing w with
  | nil => simp
  | cons c text ih =>
    refine Machine.run_cons.mpr ⟨.inWord events (w ++ [(c, false)]) .bare, ?_, ?_⟩
    · exact step_of_isNameChar (h c List.mem_cons_self) rfl
    · rw [ih _ fun d hd => h d (List.mem_cons_of_mem _ hd)]
      simp

/-- The text assigns the value to the name. -/
def line (name value : List Char) : List Char := name ++ '=' :: '\'' :: (value ++ ['\'', '\n'])

section Line

variable {name : List Char} (value : List Char) (events : List Event)

theorem isNameChar_of_isName (h : isName (name.map (·, false)) = true) :
    ∀ c ∈ name, isNameChar c = true := by
  intro c hc
  have hall := List.all_eq_true.mp (Bool.and_eq_true_iff.mp h).1 _ (List.mem_map_of_mem hc)
  simpa using hall

theorem run_opened (h : isName (name.map (·, false)) = true) :
    machine.run (.atRest events) (name ++ ['=', '\'']) =
      some (.inWord events (name.map (·, false) ++ [('=', false)]) .single) := by
  cases name with
  | nil => cases h
  | cons c name =>
    have hchars := isNameChar_of_isName h
    refine Machine.run_cons.mpr ⟨.inWord events [(c, false)] .bare, ?_, ?_⟩
    · exact step_of_isNameChar (hchars c List.mem_cons_self) rfl
    · exact Machine.run_append_of_run
        (run_name [(c, false)] fun d hd => hchars d (List.mem_cons_of_mem _ hd)) ['=', '\'']

theorem assignment?_quoted (h : isName (name.map (·, false)) = true) :
    assignment? (name.map (·, false) ++ [('=', false)] ++ value.map (·, true)) =
      some (.assign (String.ofList name) (String.ofList value)) := by
  have hname : ∀ p ∈ name.map fun c => (c, false), decide (p.1 ≠ '=') = true := by
    intro p hp
    obtain ⟨c, hc, rfl⟩ := List.mem_map.mp hp
    refine decide_eq_true ?_
    rintro rfl
    exact absurd (isNameChar_of_isName h _ hc) (by decide)
  have htext : ∀ (text : List Char) (quoted : Bool),
      Word.text (text.map (·, quoted)) = String.ofList text := by
    intro text quoted
    simp [Word.text, Function.comp_def]
  unfold assignment?
  rw [List.append_assoc, List.takeWhile_append_of_pos hname, List.dropWhile_append_of_pos hname]
  simp [h, htext]

theorem run_value {first : List Char} (h : isName (name.map (·, false)) = true)
    (hquote : '\'' ∉ first) (hnul : '\x00' ∉ first) (rest : List Char) :
    machine.run (.atRest events) (name ++ '=' :: '\'' :: (first ++ rest)) =
      machine.run (.inWord events
        (name.map (·, false) ++ [('=', false)] ++ first.map (·, true)) .single) rest := by
  have hopened := Machine.run_append_of_run (run_opened events h) (first ++ rest)
  rw [List.append_assoc, List.cons_append, List.cons_append, List.nil_append] at hopened
  rw [hopened, Machine.run_append_of_run (run_quoted hquote hnul)]

theorem run_line (h : isName (name.map (·, false)) = true) (hquote : '\'' ∉ value)
    (hnul : '\x00' ∉ value) :
    machine.run (.atRest events) (line name value) =
      some (.atRest (events ++ [.assign (String.ofList name) (String.ofList value)])) := by
  rw [line, run_value events h hquote hnul]
  have hcommand : command [name.map (·, false) ++ [('=', false)] ++ value.map (·, true)] =
      [.assign (String.ofList name) (String.ofList value)] := by
    rw [command, List.mapM_cons, assignment?_quoted value h]
    rfl
  rw [State.atRest, ← hcommand]
  rfl

theorem size_line_lt (h : isName (name.map (·, false)) = true) (hquote : '\'' ∈ value)
    {events' : List Event}
    (heval : (machine.run (.atRest events) (line name value)).bind State.finish = some events') :
    size events' < size events + (name.length + 1 + value.length) := by
  obtain ⟨final, hrun, hfinish⟩ := Option.bind_eq_some_iff.mp heval
  obtain ⟨first, rest, rfl, hfirst⟩ := List.eq_append_cons_of_mem hquote
  have hnul : '\x00' ∉ first := by
    have hall := nul_notMem hrun
    intro hmem
    exact hall (by simp [line, hmem])
  rw [line, List.append_assoc, run_value events h hfirst hnul, List.cons_append] at hrun
  -- the first quote of the value closes the one before it
  obtain ⟨closed, hclosed, hrun⟩ := Machine.run_cons.mp hrun
  obtain rfl : .inWord events _ .bare = closed := Option.some.inj hclosed
  obtain ⟨before, hbefore, hrun⟩ := Machine.run_append.mp hrun
  obtain ⟨last, hlast, hrun⟩ := Machine.run_cons.mp hrun
  have hnewline := Machine.run_single.mp hrun
  have hrest := run_size hbefore
  have hquoted := (machine_bounded hlast).2.1 rfl
  have hend := (machine_bounded hnewline).2.2 rfl (by simp [hfinish])
  have hsize : (State.inWord events (name.map (·, false) ++ [('=', false)] ++
      first.map (·, true)) .bare).size = size events + (name.length + 1 + first.length) := by
    simp only [State.size, State.inWord, List.map_nil, List.sum_nil, Option.getD_some,
      List.length_append, List.length_map, List.length_singleton]
    omega
  have hdebt : (State.inWord events (name.map (·, false) ++ [('=', false)] ++
      first.map (·, true)) .bare).mode.debt = 0 := rfl
  rw [State.size_finish hfinish, hend, List.length_append, List.length_cons]
  omega

/-- **A line assigns the value exactly if it has no quote.** -/
theorem evaluate_line_iff (h : isName (name.map (·, false)) = true) :
    (machine.run (.atRest events) (line name value)).bind State.finish =
        some (events ++ [.assign (String.ofList name) (String.ofList value)]) ↔
      '\'' ∉ value ∧ '\x00' ∉ value := by
  constructor
  · intro heval
    constructor
    · intro hquote
      have hlt := size_line_lt value events h hquote heval
      have hassign : size [.assign (String.ofList name) (String.ofList value)] =
          name.length + 1 + value.length := by
        simp [size, Event.size]
      rw [size_append, hassign] at hlt
      omega
    · obtain ⟨final, hrun, -⟩ := Option.bind_eq_some_iff.mp heval
      have hall := nul_notMem hrun
      intro hmem
      exact hall (by simp [line, hmem])
  · rintro ⟨hquote, hnul⟩
    rw [run_line value events h hquote hnul, Option.bind_some]
    simp [State.finish, State.atRest, State.endCommand, command]

end Line

/-! ### A text as one word -/

/-- In quotes, and each quote of the text after a backslash between quotes. -/
def quote (text : List Char) : List Char :=
  '\'' :: (Text.replaceChar '\'' ['\'', '\\', '\'', '\''] text ++ ['\''])

theorem run_escaped {events : List Event} (w : Word) (hnul : '\x00' ∉ text) :
    machine.run (.inWord events w .single)
        (Text.replaceChar '\'' ['\'', '\\', '\'', '\''] text) =
      some (.inWord events (w ++ text.map (·, true)) .single) := by
  induction text generalizing w with
  | nil => simp [Text.replaceChar]
  | cons c text ih =>
    obtain ⟨hc, hnul⟩ := List.ne_and_not_mem_of_not_mem_cons hnul
    -- one character of the text, whatever follows it
    have hchar : machine.run (.inWord events w .single)
        (if c = '\'' then ['\'', '\\', '\'', '\''] else [c]) =
          some (.inWord events (w ++ [(c, true)]) .single) := by
      split_ifs with hquote
      · rw [hquote]
        rfl
      · have hsingle := @run_quoted [c] events w
          (by simpa using Ne.symm hquote) (by simpa using hc)
        simpa using hsingle
    rw [Text.replaceChar, List.flatMap_cons, Machine.run_append_of_run hchar]
    rw [← Text.replaceChar, ih _ hnul]
    simp

theorem assignment?_all_quoted (text : List Char) : assignment? (text.map (·, true)) = none := by
  unfold assignment?
  dsimp only
  split
  · rename_i c value hvalue
    have hmem : (c, false) ∈ text.map fun c => (c, true) :=
      (List.dropWhile_suffix _).subset (hvalue ▸ List.mem_cons_self)
    simp at hmem
  · rfl

/-- **A quoted text is one word.** -/
theorem evaluate_quote (hnul : '\x00' ∉ text) :
    evaluate (quote text) = some [.execute [String.ofList text]] := by
  have hopen : machine.run (.atRest []) ['\''] = some (.inWord [] [] .single) := rfl
  have hrun : machine.run (.atRest []) (quote text) =
      some (.inWord [] (text.map (·, true)) .bare) := by
    rw [quote, ← List.singleton_append, Machine.run_append_of_run hopen,
      Machine.run_append_of_run (run_escaped [] hnul)]
    rfl
  have hcommand : command [text.map (·, true)] = [.execute [String.ofList text]] := by
    rw [command, List.mapM_cons, assignment?_all_quoted]
    simp [Word.text, Function.comp_def]
  rw [evaluate, hrun, Option.bind_some, ← hcommand]
  rfl

/-! ### What is run -/

inductive Target (ι : Type*) where
  | utility (name : String)
  | file (file : ι)
  deriving DecidableEq, Repr

/-- Where a shell looks for what a command names. -/
structure Search (ι : Type*) where
  /-- The names of functions and built-in utilities. -/
  utilities : List String
  path : List String
  file : String → Option ι
  executable : String → Bool

namespace Search

variable {ι : Type*} (e : Search ι)

/-- The pathname of a name in a directory of the search path; an empty one is the working directory. -/
def entry (dir name : String) : String := (if dir = "" then "." else dir) ++ "/" ++ name

/-- A name with a slash is a pathname, any other one is looked up. -/
def find (name : String) : Option (Target ι) :=
  if '/' ∈ name.toList then (e.file name).map .file
  else if name ∈ e.utilities then some (.utility name)
  else ((e.path.map (entry · name)).find? e.executable).bind fun pathname =>
    (e.file pathname).map .file

/-- What a command starts, and with which arguments. -/
def started : Event → Option (Option (Target ι) × List String)
  | .execute (name :: arguments) => some (e.find name, arguments)
  | _ => none

def runs (text : List Char) : Option (List (Option (Target ι) × List String)) :=
  (evaluate text).map (·.filterMap e.started)

theorem runs_quote (hnul : '\x00' ∉ text) :
    e.runs (quote text) = some [(e.find (String.ofList text), [])] := by
  rw [runs, evaluate_quote hnul]
  rfl

end Search

end GlobalProtect.Lib.Shell
