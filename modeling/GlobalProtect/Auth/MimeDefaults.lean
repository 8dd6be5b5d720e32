import GlobalProtect.Lib.Lines
import GlobalProtect.Lib.Text
import GlobalProtect.Lib.Utf8Decode
import Mathlib.Data.List.TakeWhile

/-! # The callback entry in the MIME defaults of a user

The model of `replace_callback_default` and `update_desktop_override` in
`auth/src/callback/xdg.rs`. The scan of the source keeps the section in a flag; `Callback` says by
the lines before it, and without the flag, that a line is a callback entry. The scan rewrites these
lines and no other (`scan_eq`, `getElem?_rewriteFrom`), and a rewritten line is again such a line
with the same key and terminator, so a second scan finds nothing to change
(`rewriteFrom_rewriteFrom`). -/

namespace GlobalProtect.Auth.MimeDefaults

open Lib
open Lib.Text (isWhitespace trim)
open Lib.Lines (Split splitInclusive)
open Lib.Utf8 (Bytes encode decode?)

abbrev Line := List Char

def mimeType : List Char := "x-scheme-handler/globalprotectcallback".toList

def handler : List Char := "gpgui.desktop".toList

def defaultsHeader : List Char := "[Default Applications]".toList

/-! ### One file -/

/-- The section changes at this line. -/
def isHeader (line : Line) : Bool := (trim line).head? = some '['

def isDefaults (line : Line) : Bool := trim line = defaultsHeader

/-- The first part of `split_once('=')`. -/
def key? (line : Line) : Option (List Char) :=
  if '=' ∈ line then some (line.takeWhile (· ≠ '=')) else none

def hasCallbackKey (line : Line) : Bool := (key? line).any (trim · = mimeType)

def ending (line : Line) : List Char :=
  if ['\r', '\n'] <:+ line then ['\r', '\n']
  else if ['\n'] <:+ line then ['\n']
  else []

/-- The entry with the key and the ending of the line. -/
def entry (line : Line) : Line :=
  line.takeWhile (· ≠ '=') ++ '=' :: (handler ++ ';' :: ending line)

structure Scan where
  inDefaults : Bool := false
  found : Bool := false
  updated : List Char := []

/-- The flag `in_defaults` after a line. -/
def within (inDefaults : Bool) (line : Line) : Bool :=
  if isHeader line then isDefaults line else inDefaults

def Scan.line (s : Scan) (line : Line) : Scan :=
  let inDefaults := within s.inDefaults line
  if inDefaults && hasCallbackKey line then
    { inDefaults, found := true, updated := s.updated ++ entry line }
  else { inDefaults, found := s.found, updated := s.updated ++ line }

def replaceCallbackDefault (contents : List Char) : Option (List Char) :=
  let s := (splitInclusive '\n' contents).foldl Scan.line {}
  if s.found then some s.updated else none

/-! ### The files of the user -/

/-- The configuration directory: which file a name leads to through links, and the files. -/
structure Disk where
  target : List Char → Option ℕ
  contents : ℕ → Bytes
  permissions : ℕ → ℕ

/-- The operation that a write of a file fails at. -/
inductive WriteFault where
  | canonicalize
  | missingDirectory
  | temporaryFile
  | permissions
  | write
  | persist
  deriving DecidableEq, Repr

/-- Which file operations fail. -/
structure Faults where
  /-- Reading the file of the name fails, and not because there is none. -/
  read : List Char → Bool
  write : Option WriteFault

inductive UpdateError where
  | cannotRead (filename : List Char)
  | io (fault : WriteFault)
  | cannotUpdate (filename : List Char)
  deriving DecidableEq, Repr

namespace Disk

variable (disk : Disk)

/-- The new file has the permissions of the one that it replaces. -/
def persist (file : ℕ) (contents : Bytes) : Disk :=
  { disk with contents := Function.update disk.contents file contents }

/-- The text that a name leads to. -/
def text? (filename : List Char) : Option (List Char) :=
  (disk.target filename).bind fun file => decode? (disk.contents file)

/-- The temporary file is gone if it could not be made the new file. -/
def write (fault : Option WriteFault) (filename : List Char) (file : ℕ) (updated : List Char) :
    Except UpdateError Unit × Disk :=
  match fault with
  | some .persist => (.error (.cannotUpdate filename), disk)
  | some fault => (.error (.io fault), disk)
  | none => (.ok (), disk.persist file (encode updated))

end Disk

def overrideName (desktop : List Char) : List Char :=
  desktop.map Char.toLower ++ "-mimeapps.list".toList

variable (faults : Faults) (disk : Disk)

/-- The loop over the desktop names. -/
def updateFirst : List (List Char) → Except UpdateError Unit × Disk
  | [] => (.ok (), disk)
  | desktop :: desktops =>
    let filename := overrideName desktop
    -- the name is not that of a file in the directory
    if '/' ∈ filename then updateFirst desktops
    else if faults.read filename then (.error (.cannotRead filename), disk)
    else match disk.target filename with
      | none => updateFirst desktops
      | some file => match decode? (disk.contents file) with
        | none => (.error (.cannotRead filename), disk)
        | some contents => match replaceCallbackDefault contents with
          | none => updateFirst desktops
          | some updated =>
            if updated ≠ contents then disk.write faults.write filename file updated
            else (.ok (), disk)

/-- The names in `XDG_CURRENT_DESKTOP`. -/
def desktopNames (currentDesktop : List Char) : List (List Char) :=
  (currentDesktop.splitOn ':').filter (· ≠ [])

def updateDesktopOverride (currentDesktop : Bytes) : Except UpdateError Unit × Disk :=
  match decode? currentDesktop with
  | none => (.ok (), disk)
  | some currentDesktop => updateFirst faults disk (desktopNames currentDesktop)

/-! ### Which lines are meant -/

/-- The last section header of the lines is `[Default Applications]`. -/
def InDefaults (lines : List Line) : Prop := ∃ header,
  (lines.filter isHeader).getLast? = some header ∧ trim header = defaultsHeader

/-- The line is in a `[Default Applications]` section and has the callback type as its key. -/
def Callback (before : List Line) (line : Line) : Prop :=
  InDefaults (before ++ [line]) ∧ ∃ key, key? line = some key ∧ trim key = mimeType

/-- A line of the text is a callback entry. -/
def HasCallback (contents : List Char) : Prop := ∃ i line,
  (splitInclusive '\n' contents)[i]? = some line ∧
    Callback ((splitInclusive '\n' contents).take i) line

/-! ### The scan -/

theorem inDefaults_iff (lines : List Line) : InDefaults lines ↔ lines.foldl within false = true := by
  induction lines using List.reverseRecOn with
  | nil => simp [InDefaults]
  | append_singleton lines line ih =>
    rw [List.foldl_append, List.foldl_cons, List.foldl_nil, within]
    unfold InDefaults at ih ⊢
    rw [List.filter_append]
    split_ifs with hheader
    · simp [hheader, isDefaults]
    · rw [← ih]
      simp [hheader]

theorem hasCallbackKey_iff (line : Line) :
    hasCallbackKey line = true ↔ ∃ key, key? line = some key ∧ trim key = mimeType := by
  simp [hasCallbackKey, Option.any_eq_true]

/-- The line is a callback entry, by the flag before it. -/
def isCallback (inDefaults : Bool) (line : Line) : Bool :=
  within inDefaults line && hasCallbackKey line

theorem callback_iff (before : List Line) (line : Line) :
    Callback before line ↔ isCallback (before.foldl within false) line = true := by
  rw [Callback, inDefaults_iff, List.foldl_append, ← hasCallbackKey_iff, isCallback,
    Bool.and_eq_true]
  rfl

def rewriteLine (inDefaults : Bool) (line : Line) : Line :=
  if isCallback inDefaults line then entry line else line

/-- The lines after the scan. -/
def rewriteFrom (inDefaults : Bool) : List Line → List Line
  | [] => []
  | line :: lines => rewriteLine inDefaults line :: rewriteFrom (within inDefaults line) lines

def anyCallback (inDefaults : Bool) : List Line → Bool
  | [] => false
  | line :: lines => isCallback inDefaults line || anyCallback (within inDefaults line) lines

theorem scan_eq (lines : List Line) (s : Scan) : lines.foldl Scan.line s =
    { inDefaults := lines.foldl within s.inDefaults
      found := s.found || anyCallback s.inDefaults lines
      updated := s.updated ++ (rewriteFrom s.inDefaults lines).flatten } := by
  induction lines generalizing s with
  | nil => simp [anyCallback, rewriteFrom]
  | cons line lines ih =>
    rw [List.foldl_cons, ih, anyCallback, rewriteFrom, rewriteLine, Scan.line, List.foldl_cons]
    cases hcallback : isCallback s.inDefaults line with
    | false | true =>
      rw [isCallback] at hcallback
      simp [hcallback]

theorem replaceCallbackDefault_eq (contents : List Char) : replaceCallbackDefault contents =
    if anyCallback false (splitInclusive '\n' contents) then
      some (rewriteFrom false (splitInclusive '\n' contents)).flatten
    else none := by
  rw [replaceCallbackDefault, scan_eq]
  simp

theorem getElem?_rewriteFrom (lines : List Line) (inDefaults : Bool) (i : ℕ) :
    (rewriteFrom inDefaults lines)[i]? =
      lines[i]?.map (rewriteLine ((lines.take i).foldl within inDefaults)) := by
  induction lines generalizing inDefaults i with
  | nil => simp [rewriteFrom]
  | cons line lines ih =>
    cases i with
    | zero => simp [rewriteFrom]
    | succ i => simp [rewriteFrom, ih]

theorem length_rewriteFrom (lines : List Line) (inDefaults : Bool) :
    (rewriteFrom inDefaults lines).length = lines.length := by
  induction lines generalizing inDefaults with
  | nil => rfl
  | cons line lines ih => rw [rewriteFrom, List.length_cons, List.length_cons, ih]

theorem anyCallback_iff (lines : List Line) (inDefaults : Bool) :
    anyCallback inDefaults lines = true ↔ ∃ i line, lines[i]? = some line ∧
      isCallback ((lines.take i).foldl within inDefaults) line = true := by
  induction lines generalizing inDefaults with
  | nil => simp [anyCallback]
  | cons line lines ih =>
    rw [anyCallback, Bool.or_eq_true, ih]
    constructor
    · rintro (h | ⟨i, line', hline, h⟩)
      · exact ⟨0, line, rfl, h⟩
      · exact ⟨i + 1, line', hline, h⟩
    · rintro ⟨i, line', hline, h⟩
      cases i with
      | zero =>
        cases hline
        exact .inl h
      | succ i => exact .inr ⟨i, line', hline, h⟩

theorem hasCallback_iff (contents : List Char) :
    HasCallback contents ↔ anyCallback false (splitInclusive '\n' contents) = true := by
  rw [anyCallback_iff, HasCallback]
  simp only [callback_iff]

/-! ### A rewritten line -/

section Entry

variable {line : Line}

theorem equals_mem (h : hasCallbackKey line = true) : '=' ∈ line := by
  unfold hasCallbackKey key? at h
  split_ifs at h with hmem
  · exact hmem
  · cases h

theorem trim_key (h : hasCallbackKey line = true) :
    trim (line.takeWhile (· ≠ '=')) = mimeType := by
  unfold hasCallbackKey key? at h
  rw [if_pos (equals_mem h)] at h
  simpa using h

theorem takeWhile_entry (line : Line) :
    (entry line).takeWhile (· ≠ '=') = line.takeWhile (· ≠ '=') := by
  rw [entry, List.takeWhile_append_of_pos]
  · simp
  · exact fun c hc => List.mem_takeWhile_imp (p := fun c => decide (c ≠ '=')) hc

theorem hasCallbackKey_entry (h : hasCallbackKey line = true) :
    hasCallbackKey (entry line) = true := by
  have hmem : '=' ∈ entry line := List.mem_append_right _ List.mem_cons_self
  unfold hasCallbackKey key?
  rw [if_pos hmem, takeWhile_entry, Option.any_some, trim_key h, decide_eq_true_iff]

theorem not_isHeader (h : hasCallbackKey line = true) : isHeader line = false := by
  have hkey := Text.head?_trim (line.takeWhile (· ≠ '='))
  rw [trim_key h] at hkey
  have hline : (trim line).head? = some 'x' := by
    rw [Text.head?_trim]
    conv_lhs => rw [← List.takeWhile_append_dropWhile (p := (· ≠ '=')) (l := line)]
    rw [List.dropWhile_append]
    split_ifs with hempty
    · rw [List.isEmpty_iff.mp hempty] at hkey
      cases hkey
    · obtain ⟨c, rest, hcons⟩ := List.exists_cons_of_ne_nil (mt List.isEmpty_iff.mpr hempty)
      rw [hcons] at hkey ⊢
      exact hkey.symm
  rw [isHeader, hline]
  rfl

theorem within_entry (inDefaults : Bool) (h : hasCallbackKey line = true) :
    within inDefaults (entry line) = within inDefaults line := by
  rw [within, within, not_isHeader h, not_isHeader (hasCallbackKey_entry h)]
  rfl

theorem ending_append (body : List Char) {e : List Char}
    (h : e = ['\r', '\n'] ∨ e = ['\n'] ∨ e = []) : ending (body ++ ';' :: e) = e := by
  unfold ending
  simp only [← List.reverse_prefix]
  rcases h with rfl | rfl | rfl <;> simp

theorem ending_entry (line : Line) : ending (entry line) = ending line := by
  have hcases : ending line = ['\r', '\n'] ∨ ending line = ['\n'] ∨ ending line = [] := by
    unfold ending
    split_ifs <;> simp
  have hentry : entry line =
      (line.takeWhile (· ≠ '=') ++ '=' :: handler) ++ ';' :: ending line := by
    simp [entry]
  rw [hentry, ending_append _ hcases]

theorem entry_entry (line : Line) : entry (entry line) = entry line := by
  rw [entry, takeWhile_entry, ending_entry]
  rfl

theorem newline_notMem_key {l : List Char} (h : hasCallbackKey (l ++ ['\n']) = true)
    (hl : '\n' ∉ l) : '\n' ∉ (l ++ ['\n']).takeWhile (· ≠ '=') := by
  have hmem : '=' ∈ l := by simpa using equals_mem h
  obtain ⟨key, value, rfl, -⟩ := List.eq_append_cons_of_mem hmem
  intro hnewline
  have hbegins : (key ++ '=' :: value ++ ['\n']).takeWhile (· ≠ '=') <+: key := by
    rw [List.append_assoc, List.takeWhile_append]
    split_ifs
    · simp
    · exact List.takeWhile_prefix _
  exact hl (List.mem_append_left _ (hbegins.subset hnewline))

theorem newline_notMem_handler : '\n' ∉ handler := by decide

theorem entry_terminated {l : List Char} (h : hasCallbackKey (l ++ ['\n']) = true)
    (hl : '\n' ∉ l) : ∃ l', entry (l ++ ['\n']) = l' ++ ['\n'] ∧ '\n' ∉ l' := by
  have hkey := newline_notMem_key h hl
  have hhandler := newline_notMem_handler
  rw [entry]
  generalize (l ++ ['\n']).takeWhile (· ≠ '=') = key at hkey
  have hending : ending (l ++ ['\n']) = ['\r', '\n'] ∨ ending (l ++ ['\n']) = ['\n'] := by
    have hsuffix : ['\n'] <:+ l ++ ['\n'] := List.suffix_append _ _
    unfold ending
    rw [if_pos hsuffix]
    split_ifs <;> simp
  rcases hending with hending | hending
  · refine ⟨key ++ '=' :: (handler ++ [';', '\r']), by simp [hending], ?_⟩
    simp [hkey, hhandler]
  · refine ⟨key ++ '=' :: (handler ++ [';']), by simp [hending], ?_⟩
    simp [hkey, hhandler]

theorem newline_notMem_entry {l : List Char} (hl : '\n' ∉ l) : '\n' ∉ entry l := by
  have hhandler := newline_notMem_handler
  have hkey : '\n' ∉ l.takeWhile (· ≠ '=') :=
    fun hmem => hl ((List.takeWhile_prefix _).subset hmem)
  have hending : ending l = [] := by
    unfold ending
    rw [if_neg, if_neg]
    · exact fun hsuffix => hl (hsuffix.subset (by simp))
    · exact fun hsuffix => hl (hsuffix.subset (by simp))
  rw [entry, hending]
  generalize l.takeWhile (· ≠ '=') = key at hkey
  simp [hkey, hhandler]

end Entry

/-! ### All lines -/

theorem within_rewriteLine (inDefaults : Bool) (line : Line) :
    within inDefaults (rewriteLine inDefaults line) = within inDefaults line := by
  unfold rewriteLine
  split_ifs with hcallback
  · exact within_entry inDefaults (Bool.and_eq_true_iff.mp hcallback).2
  · rfl

theorem isCallback_rewriteLine (inDefaults : Bool) (line : Line) :
    isCallback inDefaults (rewriteLine inDefaults line) = isCallback inDefaults line := by
  unfold rewriteLine
  split_ifs with hcallback
  · have hkey := (Bool.and_eq_true_iff.mp hcallback).2
    rw [isCallback, within_entry inDefaults hkey, hasCallbackKey_entry hkey, isCallback, hkey]
  · rfl

theorem rewriteLine_rewriteLine (inDefaults : Bool) (line : Line) :
    rewriteLine inDefaults (rewriteLine inDefaults line) = rewriteLine inDefaults line := by
  have hsame := isCallback_rewriteLine inDefaults line
  cases hcallback : isCallback inDefaults line with
  | false =>
    have hline : rewriteLine inDefaults line = line := if_neg (by simp [hcallback])
    rw [hline, hline]
  | true =>
    have hline : rewriteLine inDefaults line = entry line := if_pos hcallback
    rw [hline, hcallback] at hsame
    rw [hline, rewriteLine, if_pos hsame, entry_entry]

theorem anyCallback_rewriteFrom (lines : List Line) (inDefaults : Bool) :
    anyCallback inDefaults (rewriteFrom inDefaults lines) = anyCallback inDefaults lines := by
  induction lines generalizing inDefaults with
  | nil => rfl
  | cons line lines ih =>
    rw [rewriteFrom, anyCallback, anyCallback, isCallback_rewriteLine, within_rewriteLine, ih]

theorem rewriteFrom_rewriteFrom (lines : List Line) (inDefaults : Bool) :
    rewriteFrom inDefaults (rewriteFrom inDefaults lines) = rewriteFrom inDefaults lines := by
  induction lines generalizing inDefaults with
  | nil => rfl
  | cons line lines ih =>
    rw [rewriteFrom, rewriteFrom, rewriteLine_rewriteLine, within_rewriteLine, ih]

theorem split_rewriteFrom {lines : List Line} (h : Split '\n' lines) (inDefaults : Bool) :
    Split '\n' (rewriteFrom inDefaults lines) := by
  induction h generalizing inDefaults with
  | nil => exact .nil
  | @last l hne hl =>
    rw [rewriteFrom, rewriteFrom, rewriteLine]
    split_ifs
    · refine .last ?_ (newline_notMem_entry hl)
      simp [entry]
    · exact .last hne hl
  | @cons l ls hl _ ih =>
    rw [rewriteFrom, rewriteLine]
    split_ifs with hcallback
    · obtain ⟨l', hentry, hl'⟩ := entry_terminated (Bool.and_eq_true_iff.mp hcallback).2 hl
      rw [hentry]
      exact .cons hl' (ih _)
    · exact .cons hl (ih _)

theorem splitInclusive_of_replace {contents updated : List Char}
    (h : replaceCallbackDefault contents = some updated) :
    splitInclusive '\n' updated = rewriteFrom false (splitInclusive '\n' contents) := by
  rw [replaceCallbackDefault_eq] at h
  split_ifs at h
  cases h
  exact Lines.splitInclusive_flatten (split_rewriteFrom (Lines.split_splitInclusive _ _) _)

theorem replaceCallbackDefault_eq_none (contents : List Char) :
    replaceCallbackDefault contents = none ↔ ¬ HasCallback contents := by
  rw [replaceCallbackDefault_eq, hasCallback_iff]
  split_ifs with h <;> simp [h]

theorem replaceCallbackDefault_again {contents updated : List Char}
    (h : replaceCallbackDefault contents = some updated) :
    replaceCallbackDefault updated = some updated := by
  have hlines := splitInclusive_of_replace h
  rw [replaceCallbackDefault_eq] at h ⊢
  rw [hlines, anyCallback_rewriteFrom, rewriteFrom_rewriteFrom]
  exact h

/-! ### The override that is rewritten -/

/-- The names of the override files, in the order of the desktops. -/
def overrideNames (currentDesktop : Bytes) : List (List Char) :=
  (((decode? currentDesktop).elim [] desktopNames).map overrideName).filter ('/' ∉ ·)

/-- The name leads to a text with a callback entry. -/
def Disk.HasEntry (disk : Disk) (filename : List Char) : Prop :=
  ∃ contents, disk.text? filename = some contents ∧ HasCallback contents

/-- The first of the names that leads to a text with a callback entry. -/
def Disk.First (disk : Disk) (filenames : List (List Char)) (filename : List Char) : Prop :=
  ∃ before after, filenames = before ++ filename :: after ∧ disk.HasEntry filename ∧
    ∀ earlier ∈ before, ¬ disk.HasEntry earlier

/-- What the loop may leave behind: only the file of the first name with an entry may have changed,
and after a success it holds the rewritten text. -/
structure Disk.Updated (disk : Disk) (filenames : List (List Char))
    (result : Except UpdateError Unit × Disk) : Prop where
  target : result.2.target = disk.target
  permissions : result.2.permissions = disk.permissions
  changed : ∀ file, result.2.contents file ≠ disk.contents file →
    ∃ filename, disk.First filenames filename ∧ disk.target filename = some file
  rewritten : result.1 = .ok () → ∀ filename, disk.First filenames filename →
    result.2.text? filename = (disk.text? filename).bind replaceCallbackDefault

variable {faults disk} {filename : List Char} {filenames : List (List Char)}
  {result : Except UpdateError Unit × Disk}

theorem Disk.First.skip (h : ¬ disk.HasEntry filename) {name : List Char} :
    disk.First (filename :: filenames) name ↔ disk.First filenames name := by
  constructor
  · rintro ⟨before, after, hnames, hentry, hbefore⟩
    cases before with
    | nil =>
      obtain ⟨rfl, -⟩ := List.cons.inj hnames
      exact absurd hentry h
    | cons earlier before =>
      obtain ⟨-, rfl⟩ := List.cons.inj hnames
      exact ⟨before, after, rfl, hentry, fun n hn => hbefore n (List.mem_cons_of_mem _ hn)⟩
  · rintro ⟨before, after, rfl, hentry, hbefore⟩
    refine ⟨filename :: before, after, rfl, hentry, fun n hn => ?_⟩
    rcases List.mem_cons.mp hn with rfl | hn
    · exact h
    · exact hbefore n hn

theorem Disk.First.head (h : disk.HasEntry filename) {name : List Char} :
    disk.First (filename :: filenames) name ↔ name = filename := by
  constructor
  · rintro ⟨before, after, hnames, -, hbefore⟩
    cases before with
    | nil => exact (List.cons.inj hnames).1.symm
    | cons earlier before =>
      obtain ⟨rfl, -⟩ := List.cons.inj hnames
      exact absurd h (hbefore _ List.mem_cons_self)
  · rintro rfl
    exact ⟨[], filenames, rfl, h, fun _ hn => absurd hn List.not_mem_nil⟩

theorem Disk.Updated.skip (h : ¬ disk.HasEntry filename) (hrest : disk.Updated filenames result) :
    disk.Updated (filename :: filenames) result where
  target := hrest.target
  permissions := hrest.permissions
  changed file hfile := by
    obtain ⟨name, hfirst, hname⟩ := hrest.changed file hfile
    exact ⟨name, (Disk.First.skip h).mpr hfirst, hname⟩
  rewritten hok name hfirst := hrest.rewritten hok name ((Disk.First.skip h).mp hfirst)

theorem Disk.Updated.error (filenames : List (List Char)) (e : UpdateError) :
    disk.Updated filenames (.error e, disk) where
  target := rfl
  permissions := rfl
  changed _ hfile := absurd rfl hfile
  rewritten hok := by cases hok

theorem Disk.Updated.first {file : ℕ} {contents updated : List Char}
    (htarget : disk.target filename = some file) (hdecode : decode? (disk.contents file) = some contents)
    (hreplace : replaceCallbackDefault contents = some updated)
    (htext : result.2 = disk ∧ (result.1 = .ok () → updated = contents) ∨
      result.2 = disk.persist file (encode updated)) :
    disk.Updated (filename :: filenames) result := by
  have htext? : disk.text? filename = some contents := by
    rw [Disk.text?, htarget, Option.bind_some, hdecode]
  have hentry : disk.HasEntry filename := by
    refine ⟨contents, htext?, ?_⟩
    by_contra hnot
    rw [(replaceCallbackDefault_eq_none contents).mpr hnot] at hreplace
    cases hreplace
  rcases htext with ⟨hsame, hok⟩ | hpersist
  · refine ⟨by rw [hsame], by rw [hsame], fun f hf => absurd (by rw [hsame]) hf, ?_⟩
    intro hresult name hfirst
    rw [(Disk.First.head hentry).mp hfirst, hsame, htext?, Option.bind_some, hreplace, hok hresult]
  · refine ⟨by rw [hpersist]; rfl, by rw [hpersist]; rfl, fun f hf => ?_, ?_⟩
    · refine ⟨filename, (Disk.First.head hentry).mpr rfl, ?_⟩
      by_contra hne
      rw [htarget] at hne
      rw [hpersist] at hf
      exact hf (Function.update_of_ne (fun h => hne (congrArg some h.symm)) _ _)
    · intro _ name hfirst
      rw [(Disk.First.head hentry).mp hfirst, hpersist, htext?, Option.bind_some, hreplace]
      simp [Disk.text?, Disk.persist, htarget, Utf8.decode?_encode]

theorem updateFirst_updated (faults : Faults) (disk : Disk) (desktops : List (List Char)) :
    disk.Updated ((desktops.map overrideName).filter ('/' ∉ ·)) (updateFirst faults disk desktops) := by
  induction desktops with
  | nil =>
    refine ⟨rfl, rfl, fun _ hfile => absurd rfl hfile, ?_⟩
    rintro - name ⟨before, after, hnames, -⟩
    simp at hnames
  | cons desktop desktops ih =>
    rw [List.map_cons]
    unfold updateFirst
    dsimp only
    by_cases hslash : '/' ∈ overrideName desktop
    · rw [if_pos hslash, List.filter_cons_of_neg (by simpa using hslash)]
      exact ih
    rw [if_neg hslash, List.filter_cons_of_pos (by simpa using hslash)]
    split_ifs
    · exact .error _ _
    cases htarget : disk.target (overrideName desktop) with
    | none =>
      refine ih.skip ?_
      rintro ⟨contents, htext, -⟩
      rw [Disk.text?, htarget] at htext
      cases htext
    | some file =>
      dsimp only
      cases hdecode : decode? (disk.contents file) with
      | none => exact .error _ _
      | some contents =>
        dsimp only
        cases hreplace : replaceCallbackDefault contents with
        | none =>
          refine ih.skip ?_
          rintro ⟨contents', htext, hcallback⟩
          rw [Disk.text?, htarget, Option.bind_some, hdecode] at htext
          cases htext
          exact (replaceCallbackDefault_eq_none _).mp hreplace hcallback
        | some updated =>
          dsimp only
          split_ifs with hchanged
          · refine .first htarget hdecode hreplace ?_
            cases hfault : faults.write with
            | none => exact .inr rfl
            | some fault =>
              refine .inl ⟨?_, fun hok => ?_⟩
              · cases fault <;> rfl
              · cases fault <;> cases hok
          · exact .first htarget hdecode hreplace (.inl ⟨rfl, fun _ => not_not.mp hchanged⟩)

theorem Disk.First.unique {name name' : List Char} (h : disk.First filenames name)
    (h' : disk.First filenames name') : name = name' := by
  induction filenames with
  | nil =>
    obtain ⟨before, after, hnames, -⟩ := h
    simp at hnames
  | cons filename filenames ih =>
    by_cases hentry : disk.HasEntry filename
    · rw [(Disk.First.head hentry).mp h, (Disk.First.head hentry).mp h']
    · exact ih ((Disk.First.skip hentry).mp h) ((Disk.First.skip hentry).mp h')

theorem Disk.Updated.once (h : disk.Updated filenames result) {file file' : ℕ}
    (hfile : result.2.contents file ≠ disk.contents file)
    (hfile' : result.2.contents file' ≠ disk.contents file') : file = file' := by
  obtain ⟨name, hfirst, hname⟩ := h.changed file hfile
  obtain ⟨name', hfirst', hname'⟩ := h.changed file' hfile'
  rw [hfirst.unique hfirst', hname'] at hname
  exact (Option.some.inj hname).symm

theorem entry_eq {line : Line} {key : List Char} (h : key? line = some key) :
    entry line = key ++ "=gpgui.desktop;".toList ++ ending line := by
  have htext : "=gpgui.desktop;".toList = '=' :: (handler ++ [';']) := by decide
  unfold key? at h
  split_ifs at h
  rw [entry, ← Option.some.inj h, htext]
  simp

/-- **The rewrite touches the callback entries only**, and of the overrides only the first one that
has an entry. -/
theorem callback_default_replaced :
    (∀ contents, replaceCallbackDefault contents = none ↔ ¬ HasCallback contents) ∧
    (∀ contents updated, replaceCallbackDefault contents = some updated →
      (splitInclusive '\n' updated).length = (splitInclusive '\n' contents).length ∧
      (∀ i line, (splitInclusive '\n' contents)[i]? = some line →
        (Callback ((splitInclusive '\n' contents).take i) line → ∃ key,
          key? line = some key ∧ (splitInclusive '\n' updated)[i]? =
            some (key ++ "=gpgui.desktop;".toList ++ ending line)) ∧
        (¬ Callback ((splitInclusive '\n' contents).take i) line →
          (splitInclusive '\n' updated)[i]? = some line)) ∧
      replaceCallbackDefault updated = some updated) ∧
    ∀ (faults : Faults) (disk : Disk) (currentDesktop : Bytes),
      let result := updateDesktopOverride faults disk currentDesktop
      disk.Updated (overrideNames currentDesktop) result ∧
        ∀ file file', result.2.contents file ≠ disk.contents file →
          result.2.contents file' ≠ disk.contents file' → file = file' := by
  refine ⟨replaceCallbackDefault_eq_none, fun contents updated h => ?_,
    fun faults disk currentDesktop => ?_⟩
  · have hlines := splitInclusive_of_replace h
    refine ⟨by rw [hlines, length_rewriteFrom], fun i line hline => ?_,
      replaceCallbackDefault_again h⟩
    have hrewritten : (splitInclusive '\n' updated)[i]? = some (rewriteLine
        (((splitInclusive '\n' contents).take i).foldl within false) line) := by
      rw [hlines, getElem?_rewriteFrom, hline]
      rfl
    rw [hrewritten, callback_iff, rewriteLine]
    refine ⟨fun hcallback => ?_, fun hcallback => by rw [if_neg hcallback]⟩
    obtain ⟨key, hkey, -⟩ := (hasCallbackKey_iff line).mp (Bool.and_eq_true_iff.mp hcallback).2
    exact ⟨key, hkey, by rw [if_pos hcallback, entry_eq hkey]⟩
  · have hupdated : disk.Updated (overrideNames currentDesktop)
        (updateDesktopOverride faults disk currentDesktop) := by
      unfold updateDesktopOverride overrideNames
      cases decode? currentDesktop with
      | none => exact updateFirst_updated faults disk []
      | some desktops => exact updateFirst_updated faults disk (desktopNames desktops)
    exact ⟨hupdated, fun _ _ => hupdated.once⟩

/-- A file without a final newline: the entry in the defaults is rewritten, the association is not. -/
theorem callback_default_replaced_last :
    replaceCallbackDefault
      ("[Added Associations]\nx-scheme-handler/globalprotectcallback=a\n" ++
        "[Default Applications]\r\n x-scheme-handler/globalprotectcallback =b").toList =
    some ("[Added Associations]\nx-scheme-handler/globalprotectcallback=a\n" ++
        "[Default Applications]\r\n x-scheme-handler/globalprotectcallback =gpgui.desktop;").toList ∧
    replaceCallbackDefault
      ("[Added Associations]\nx-scheme-handler/globalprotectcallback=a\n" ++
        "[Default Applications]\r\n x-scheme-handler/globalprotectcallback =gpgui.desktop;").toList =
    some ("[Added Associations]\nx-scheme-handler/globalprotectcallback=a\n" ++
        "[Default Applications]\r\n x-scheme-handler/globalprotectcallback =gpgui.desktop;").toList :=
  have hreplaced := by
    rw [String.toList_append, String.toList_append]
    decide +kernel
  ⟨hreplaced, (callback_default_replaced.2.1 _ _ hreplaced).2.2⟩

end GlobalProtect.Auth.MimeDefaults
