import Mathlib.Logic.Function.Basic
import GlobalProtect.Lib.Archive
import GlobalProtect.Lib.Machine
import GlobalProtect.Lib.Utf8Decode

/-! # Updates of the GUI

The model of `install_gui_with_installer` in `gpservice/src/request_dispatcher.rs`, for a service
without a package installer. The source belongs to a user, who may change it at any time; the service
copies it, checks the copy, and unpacks what it has checked. A call makes one file operation in a
step, any of which may fail, and may be killed between any two.

A stream that the decoder cannot continue ends: both are errors of one kind to the code. How the
decoder decompresses and how headers are encoded is left open. -/

namespace GlobalProtect.Service.GuiUpdate

open Lib
open Lib.Utf8 (Bytes)

/-! ### Files and archives -/

inductive FileType where
  | regular
  | directory
  | other
  deriving DecidableEq

structure Node where
  fileType : FileType
  mode : ℕ
  contents : Bytes
  deriving DecidableEq

/-- The header of an entry. -/
structure Entry where
  /-- `Entry::path` succeeds. -/
  readable : Bool
  fileName : Option Bytes
  isFile : Bool
  size : ℕ
  deriving DecidableEq

def maxGuiArchiveSize : ℕ := 256 * 1024 * 1024

def maxGuiArchiveContentSize : ℕ := 512 * 1024 * 1024

def maxGuiBinarySize : ℕ := 256 * 1024 * 1024

/-- The names that `NamedTempFile` draws from. -/
def isTemporary (name : Bytes) : Bool := (Utf8.encode ".tmp".toList).isPrefixOf name

/-- The target is a name of the service's own directory. -/
structure Config where
  target : Bytes
  target_utf8 : (Utf8.decode? target).isSome = true
  target_not_temporary : isTemporary target = false
  sha256Hex : Bytes → String
  sha256Hex_injective : Function.Injective sha256Hex
  decompress : Bytes → Bytes
  header : Bytes → Archive.Header Entry
  header_append : ∀ {s : Bytes} {e : Entry} {n : ℕ} (t : Bytes),
    header s = .entry e n → header (s ++ t) = .entry e n

def Config.format (cfg : Config) : Archive.Format UInt8 Entry where
  header := cfg.header
  size := Entry.size
  header_append := cfg.header_append

def Config.binaryName (cfg : Config) : Bytes :=
  if (Utf8.decode? cfg.target).isSome then cfg.target else Utf8.encode "gpgui".toList

def Config.isGui (cfg : Config) (entry : Entry) : Bool :=
  entry.fileName = some cfg.binaryName && entry.isFile

/-! ### The call -/

/-- `io` is an operation that failed. -/
inductive Reason where
  | io
  | message (text : String)
  deriving DecidableEq

inductive GuiInstallError where
  | checksum (reason : Reason)
  | install (reason : Reason)
  deriving DecidableEq

/-- Where a call is; `staged` and `binary` are the names of its temporary files. -/
inductive Pc where
  | createDirectory
  | openSource
  | statSource
  | createStaged (size : ℕ)
  | copySource (size : ℕ) (staged : Bytes)
  | syncStaged (staged : Bytes)
  | verifyChecksum (staged : Bytes)
  | reopen (staged : Bytes)
  | nextEntry (staged rest : Bytes)
  | createBinary (staged : Bytes) (entry : Entry) (rest : Bytes)
  /-- `rest` is what can still be read of the entry. -/
  | copyBinary (staged binary : Bytes) (entry : Entry) (rest : Bytes) (copied : ℕ)
  | setPermissions (staged binary : Bytes)
  | syncBinary (staged binary : Bytes)
  | persist (staged binary : Bytes)
  | syncDirectory (staged : Bytes)
  | dropBinary (staged binary : Bytes) (error : GuiInstallError)
  | dropStaged (staged : Bytes) (result : Except GuiInstallError Unit)
  | done (result : Except GuiInstallError Unit)
  | killed
  deriving DecidableEq

/-- `source` is the file that is open, or would be opened; `copied` are the bytes read from it. -/
structure State where
  directory : Bytes → Option Node
  source : Node
  copied : ℕ := 0
  pc : Pc := .createDirectory

inductive Event where
  | ok
  | fail
  | create (name : Bytes)
  /-- That many bytes are asked for and copied; none are there at the end of a file. -/
  | transfer (count : ℕ)
  | kill
  | tamper (source : Node)
  deriving DecidableEq

def installError (text : String) : GuiInstallError := .install (.message text)

def ioError : GuiInstallError := .install .io

namespace State

variable (s : State)

def goto (pc : Pc) : State := { s with pc }

def put (name : Bytes) (node : Option Node) (pc : Pc) : State :=
  { s with directory := Function.update s.directory name node, pc }

/-- The bytes are appended to the file. -/
def append (name bytes : Bytes) (pc : Pc) : State :=
  s.put name ((s.directory name).map fun node => { node with contents := node.contents ++ bytes }) pc

end State

section Step

variable (cfg : Config) (checksum : String) (s : State)

/-- The entries one after another, up to the first that is the GUI. -/
def extractGuiBinary (staged rest : Bytes) : Pc :=
  match cfg.header rest with
  | .finished =>
    .dropStaged staged (.error (installError ("GUI update archive does not contain a non-empty regular "
      ++ String.ofList (Utf8.decodeLossy cfg.binaryName) ++ " file")))
  | .failed => .dropStaged staged (.error ioError)
  | .entry entry n =>
    if !entry.readable then .dropStaged staged (.error ioError)
    else if cfg.isGui entry then
      if entry.size = 0 ∨ maxGuiBinarySize < entry.size then
        .dropStaged staged (.error (installError ("GUI binary must be non-empty and no larger than "
          ++ toString maxGuiBinarySize ++ " bytes")))
      else .createBinary staged entry (cfg.format.data entry n rest)
    else if cfg.format.skip entry n ≤ rest.length then
      .nextEntry staged (rest.drop (cfg.format.skip entry n))
    else .dropStaged staged (.error ioError)

def succeed : Option State :=
  match s.pc with
  | .createDirectory => some (s.goto .openSource)
  | .openSource => some (s.goto .statSource)
  | .statSource =>
    if s.source.fileType ≠ .regular ∨ s.source.contents.length = 0 ∨
        maxGuiArchiveSize < s.source.contents.length then
      some (s.goto (.done (.error (installError ("GUI update archive must be a non-empty regular file "
        ++ "no larger than " ++ toString maxGuiArchiveSize ++ " bytes")))))
    else some (s.goto (.createStaged s.source.contents.length))
  | .syncStaged staged => some (s.goto (.verifyChecksum staged))
  | .verifyChecksum staged =>
    (s.directory staged).map fun node =>
      let actual := cfg.sha256Hex node.contents
      if actual ≠ checksum then
        s.goto (.dropStaged staged (.error (.checksum (.message ("Checksum mismatch, expected: "
          ++ checksum ++ ", actual: " ++ actual)))))
      else s.goto (.reopen staged)
  | .reopen staged =>
    (s.directory staged).map fun node =>
      s.goto (.nextEntry staged ((cfg.decompress node.contents).take maxGuiArchiveContentSize))
  | .nextEntry staged rest => some (s.goto (extractGuiBinary cfg staged rest))
  | .setPermissions staged binary =>
    some (s.put binary ((s.directory binary).map fun node => { node with mode := 0o755 })
      (.syncBinary staged binary))
  | .syncBinary staged binary => some (s.goto (.persist staged binary))
  | .persist staged binary =>
    -- a rename does not replace a directory
    if (s.directory cfg.target).any fun node => node.fileType = .directory then
      some (s.goto (.dropBinary staged binary ioError))
    else
      let renamed := s.put binary none s.pc
      some (renamed.put cfg.target (s.directory binary) (.syncDirectory staged))
  | .syncDirectory staged => some (s.goto (.dropStaged staged (.ok ())))
  | .dropBinary staged binary error => some (s.put binary none (.dropStaged staged (.error error)))
  | .dropStaged staged result => some (s.put staged none (.done result))
  | .createStaged _ | .copySource _ _ | .createBinary _ _ _ | .copyBinary _ _ _ _ _ | .done _
  | .killed => none

/-- The next operation fails. -/
def failed : Pc → Option Pc
  | .createDirectory | .openSource | .statSource | .createStaged _ => some (.done (.error ioError))
  | .verifyChecksum staged => some (.dropStaged staged (.error (.checksum .io)))
  | .copySource _ staged | .syncStaged staged | .reopen staged | .nextEntry staged _
  | .createBinary staged _ _ | .syncDirectory staged => some (.dropStaged staged (.error ioError))
  | .copyBinary staged binary _ _ _ | .setPermissions staged binary | .syncBinary staged binary
  | .persist staged binary => some (.dropBinary staged binary ioError)
  -- a failure to remove a temporary file is ignored
  | .dropBinary staged _ error => some (.dropStaged staged (.error error))
  | .dropStaged _ result => some (.done result)
  | .done _ | .killed => none

/-- A new temporary file; an existing one is never opened for it. -/
def create (name : Bytes) : Option State :=
  if s.directory name = none ∧ isTemporary name = true then
    match s.pc with
    | .createStaged size => some (s.put name (some ⟨.regular, 0o600, []⟩) (.copySource size name))
    | .createBinary staged entry rest =>
      some (s.put name (some ⟨.regular, 0o600, []⟩) (.copyBinary staged name entry rest 0))
    | _ => none
  else none

/-- A round of `std::io::copy`. -/
def transfer (count : ℕ) : Option State :=
  if count = 0 then none
  else
    match s.pc with
    | .copySource size staged =>
      let limit := maxGuiArchiveSize + 1 - s.copied
      let chunk := (s.source.contents.drop s.copied).take (min count limit)
      if chunk = [] then
        if s.copied ≠ size then
          some (s.goto (.dropStaged staged
            (.error (installError "GUI update archive changed while it was being read"))))
        else some (s.goto (.syncStaged staged))
      else
        let s := s.append staged chunk s.pc
        some { s with copied := s.copied + chunk.length }
    | .copyBinary staged binary entry rest copied =>
      let chunk := rest.take count
      if chunk = [] then
        if copied ≠ entry.size then
          some (s.goto (.dropBinary staged binary
            (installError "GUI binary size does not match its archive header")))
        else some (s.goto (.setPermissions staged binary))
      else
        some (s.append binary chunk
          (.copyBinary staged binary entry (rest.drop count) (copied + chunk.length)))
    | _ => none

def step : Event → Option State
  | .ok => succeed cfg checksum s
  | .fail => (failed s.pc).map s.goto
  | .create name => create s name
  | .transfer count => transfer s count
  | .kill =>
    match s.pc with
    | .done _ | .killed => none
    | _ => some (s.goto .killed)
  | .tamper source => some { s with source }

end Step

/-- A call on a directory with the files `before`. -/
def machine (cfg : Config) (checksum : String) (before : Bytes → Option Node) (source : Node) :
    Machine State Event where
  init := { directory := before, source }
  step := step cfg checksum

/-! ### A call -/

/-- A header of two bytes, for a name of one byte. -/
def sampleHeader : Bytes → Archive.Header Entry
  | name :: size :: _ => if name = 0 then .finished else .entry ⟨true, some [name], true, size.toNat⟩ 2
  | _ => .failed

def sampleDigest (bytes : Bytes) : String := String.ofList (bytes.map fun b => Char.ofNat b.toNat)

theorem sampleDigest_injective : Function.Injective sampleDigest := by
  have hbyte : Function.Injective fun b : UInt8 => Char.ofNat b.toNat := by
    intro a b h
    have hcode : ∀ n < 256, (Char.ofNat n).toNat = n := by decide +kernel
    have hnat := congrArg Char.toNat h
    rw [hcode _ a.toNat_lt, hcode _ b.toNat_lt] at hnat
    exact UInt8.toNat_inj.mp hnat
  intro bytes bytes' h
  exact List.map_injective_iff.mpr hbyte (String.ofList_injective h)

def sampleConfig : Config where
  target := [103]
  target_utf8 := by decide
  target_not_temporary := by decide
  sha256Hex := sampleDigest
  sha256Hex_injective := sampleDigest_injective
  decompress := id
  header := sampleHeader
  header_append := by
    intro s e n t h
    match s, h with
    | _ :: _ :: _, h => exact h

def sampleArchive : Bytes := [103, 2, 7, 8]

/-- The user replaces the source once it has been copied. -/
def sampleEvents : List Event :=
  [.ok, .ok, .ok, .create (Utf8.encode ".tmpA".toList), .transfer 10, .tamper ⟨.regular, 0o644, [1]⟩,
    .transfer 10, .ok, .ok, .ok, .ok, .create (Utf8.encode ".tmpB".toList), .transfer 10, .transfer 10,
    .ok, .ok, .ok, .ok, .ok]

/-! ### What the target may be -/

/-- A regular entry with the name of the target. -/
def Config.isTarget (cfg : Config) (entry : Entry) : Bool :=
  entry.fileName = some cfg.target && entry.isFile

theorem Config.isGui_eq (cfg : Config) : cfg.isGui = cfg.isTarget := by
  funext entry
  rw [isGui, isTarget, binaryName, if_pos cfg.target_utf8]

/-- The entry is the first of its name in the archive that the checksum is of. -/
def Unpacked (cfg : Config) (checksum : String) (entry : Entry) (data : Bytes) : Prop :=
  ∃ archive, cfg.sha256Hex archive = checksum ∧
    Archive.FirstEntry cfg.format cfg.isTarget (cfg.decompress archive) entry data

/-- The contents of the GUI, from the one archive that the checksum is of. -/
def Genuine (cfg : Config) (checksum : String) (data : Bytes) : Prop :=
  ∃ archive, (∀ other, cfg.sha256Hex other = checksum ↔ other = archive) ∧
    (∃ entry, Archive.FirstEntry cfg.format cfg.isTarget (cfg.decompress archive) entry data) ∧
    data ≠ [] ∧ data.length ≤ maxGuiBinarySize

/-- The GUI is installed. -/
def Installed (cfg : Config) (checksum : String) (directory : Bytes → Option Node) : Prop :=
  ∃ data, directory cfg.target = some ⟨.regular, 0o755, data⟩ ∧ Genuine cfg checksum data

section Invariant

variable {cfg : Config} {checksum : String} {before : Bytes → Option Node} {s s' : State}

theorem Unpacked.genuine {entry : Entry} {data : Bytes} (h : Unpacked cfg checksum entry data)
    (hsize : ¬ (entry.size = 0 ∨ maxGuiBinarySize < entry.size)) : Genuine cfg checksum data := by
  obtain ⟨archive, hsum, hfirst⟩ := h
  have hlength : data.length = entry.size := hfirst.length_eq
  refine ⟨archive, fun other => ⟨fun h => ?_, fun h => h ▸ hsum⟩, ⟨entry, hfirst⟩, ?_, by omega⟩
  · exact cfg.sha256Hex_injective (h.trans hsum.symm)
  · rintro rfl
    rw [List.length_nil] at hlength
    omega

/-- A name of a temporary file of the call. -/
structure Temporary (before : Bytes → Option Node) (name : Bytes) : Prop where
  named : isTemporary name = true
  fresh : before name = none

/-- What the call knows. -/
def Knows (cfg : Config) (checksum : String) (before : Bytes → Option Node)
    (directory : Bytes → Option Node) : Pc → Prop
  | .createDirectory | .openSource | .statSource | .createStaged _ | .done (.error _) | .killed => True
  | .copySource _ staged | .syncStaged staged | .verifyChecksum staged
  | .dropStaged staged (.error _) => Temporary before staged
  | .reopen staged => Temporary before staged ∧
      ∃ node, directory staged = some node ∧ cfg.sha256Hex node.contents = checksum
  | .nextEntry staged rest => Temporary before staged ∧
      ∀ entry data, Archive.FirstEntry cfg.format cfg.isTarget rest entry data →
        Unpacked cfg checksum entry data
  | .createBinary staged entry rest => Temporary before staged ∧
      (rest.length = entry.size → Genuine cfg checksum rest)
  | .copyBinary staged binary entry rest copied => Temporary before staged ∧
      Temporary before binary ∧ ∃ mode contents, directory binary = some ⟨.regular, mode, contents⟩ ∧
        contents.length = copied ∧
          ((contents ++ rest).length = entry.size → Genuine cfg checksum (contents ++ rest))
  | .setPermissions staged binary => Temporary before staged ∧ Temporary before binary ∧
      ∃ mode data, directory binary = some ⟨.regular, mode, data⟩ ∧ Genuine cfg checksum data
  | .syncBinary staged binary | .persist staged binary => Temporary before staged ∧
      Temporary before binary ∧
        ∃ data, directory binary = some ⟨.regular, 0o755, data⟩ ∧ Genuine cfg checksum data
  | .dropBinary staged binary _ => Temporary before staged ∧ Temporary before binary
  | .syncDirectory staged | .dropStaged staged (.ok _) =>
      Temporary before staged ∧ Installed cfg checksum directory
  | .done (.ok _) => Installed cfg checksum directory

/-- The files of the directory, whatever the call has done so far. -/
structure Kept (cfg : Config) (checksum : String) (before directory : Bytes → Option Node) :
    Prop where
  target : directory cfg.target = before cfg.target ∨ Installed cfg checksum directory
  others : ∀ name, name ≠ cfg.target → before name ≠ none → directory name = before name

structure Inv (cfg : Config) (checksum : String) (before : Bytes → Option Node) (s : State) :
    Prop where
  kept : Kept cfg checksum before s.directory
  copied : s.copied ≤ maxGuiArchiveSize + 1
  knows : Knows cfg checksum before s.directory s.pc

theorem Temporary.ne_target {name : Bytes} (h : Temporary before name) : cfg.target ≠ name := by
  rintro rfl
  have hnamed := h.named
  rw [cfg.target_not_temporary] at hnamed
  cases hnamed

theorem Installed.update {name : Bytes} {node : Option Node} {directory : Bytes → Option Node}
    (h : Installed cfg checksum directory) (hname : Temporary before name) :
    Installed cfg checksum (Function.update directory name node) := by
  obtain ⟨data, hdata, hgenuine⟩ := h
  exact ⟨data, by rwa [Function.update_of_ne hname.ne_target], hgenuine⟩

theorem Kept.update {name : Bytes} {node : Option Node} {directory : Bytes → Option Node}
    (h : Kept cfg checksum before directory) (hname : Temporary before name) :
    Kept cfg checksum before (Function.update directory name node) := by
  refine ⟨?_, fun other hother hbefore => ?_⟩
  · rcases h.target with hsame | hinstalled
    · left
      rwa [Function.update_of_ne hname.ne_target]
    · exact .inr (hinstalled.update hname)
  · have hne : other ≠ name := by
      rintro rfl
      exact hbefore hname.fresh
    rw [Function.update_of_ne hne]
    exact h.others other hother hbefore

theorem Kept.temporary {name : Bytes} (h : Kept cfg checksum before s.directory)
    (hnone : s.directory name = none) (hnamed : isTemporary name = true) :
    Temporary before name := by
  refine ⟨hnamed, ?_⟩
  by_contra hbefore
  have hne : name ≠ cfg.target := by
    rintro rfl
    rw [cfg.target_not_temporary] at hnamed
    cases hnamed
  rw [h.others name hne hbefore] at hnone
  exact hbefore hnone

/-! ### One step -/

theorem knows_extractGuiBinary {directory : Bytes → Option Node} {staged rest : Bytes}
    (h : Knows cfg checksum before directory (.nextEntry staged rest)) :
    Knows cfg checksum before directory (extractGuiBinary cfg staged rest) := by
  obtain ⟨hstaged, hfirst⟩ := h
  unfold extractGuiBinary
  split
  · exact hstaged
  · exact hstaged
  · rename_i entry n hheader
    split_ifs with _ hgui hsize hskip
    · exact hstaged
    · exact hstaged
    · rw [cfg.isGui_eq] at hgui
      refine ⟨hstaged, fun hlength => ?_⟩
      exact (hfirst entry _ (.here hheader hgui hlength)).genuine hsize
    · rw [cfg.isGui_eq, Bool.not_eq_true] at hgui
      exact ⟨hstaged, fun entry' data h => hfirst entry' data (.next hheader hgui hskip h)⟩
    · exact hstaged

theorem failed_knows {directory : Bytes → Option Node} {pc pc' : Pc}
    (h : Knows cfg checksum before directory pc) (hs : failed pc = some pc') :
    Knows cfg checksum before directory pc' := by
  cases pc with
  | createDirectory | openSource | statSource | createStaged _ =>
    cases hs
    trivial
  | copySource _ staged | syncStaged staged | verifyChecksum staged =>
    cases hs
    exact h
  | reopen staged | nextEntry staged _ | createBinary staged _ _ | syncDirectory staged
  | dropBinary staged _ _ =>
    cases hs
    exact h.1
  | copyBinary staged binary _ _ _ | setPermissions staged binary | syncBinary staged binary
  | persist staged binary =>
    cases hs
    exact ⟨h.1, h.2.1⟩
  | dropStaged staged result =>
    cases hs
    cases result with
    | error error => trivial
    | ok u => exact h.2
  | done _ | killed => cases hs

section

variable (h : Inv cfg checksum before s)
include h

theorem Inv.goto {pc : Pc}
    (hknows : Knows cfg checksum before s.directory pc) : Inv cfg checksum before (s.goto pc) :=
  ⟨h.kept, h.copied, hknows⟩

theorem Inv.put {name : Bytes} {node : Option Node} {pc : Pc} (hname : Temporary before name)
    (hknows : Knows cfg checksum before (Function.update s.directory name node) pc) :
    Inv cfg checksum before (s.put name node pc) :=
  ⟨h.kept.update hname, h.copied, hknows⟩

theorem succeed_inv (hs : succeed cfg checksum s = some s') : Inv cfg checksum before s' := by
  obtain ⟨directory, source, copied, pc⟩ := s
  have hknows := h.knows
  cases pc with
  | createDirectory | openSource =>
    cases hs
    exact h.goto trivial
  | statSource =>
    dsimp only [succeed] at hs
    split_ifs at hs <;> cases hs <;> exact h.goto trivial
  | syncStaged staged =>
    cases hs
    exact h.goto hknows
  | verifyChecksum staged =>
    obtain ⟨node, hnode, hs⟩ := Option.map_eq_some_iff.mp hs
    dsimp only at hs
    split_ifs at hs with hsum
    · cases hs
      exact h.goto hknows
    · cases hs
      exact h.goto ⟨hknows, node, hnode, not_not.mp hsum⟩
  | reopen staged =>
    obtain ⟨hstaged, archive, harchive, hsum⟩ := hknows
    obtain ⟨node, hnode, hs⟩ := Option.map_eq_some_iff.mp hs
    obtain rfl := Option.some.inj (harchive.symm.trans hnode)
    cases hs
    -- what is found in the front of the archive is what is found in all of it
    refine h.goto ⟨hstaged, fun entry data hfirst => ?_⟩
    exact ⟨archive.contents, hsum, hfirst.of_prefix (List.take_prefix _ _)⟩
  | nextEntry staged rest =>
    cases hs
    exact h.goto (knows_extractGuiBinary hknows)
  | setPermissions staged binary =>
    obtain ⟨hstaged, hbinary, mode, data, hdata, hgenuine⟩ := hknows
    cases hs
    refine h.put hbinary ⟨hstaged, hbinary, data, ?_, hgenuine⟩
    rw [Function.update_self, hdata]
    rfl
  | syncBinary staged binary =>
    cases hs
    exact h.goto hknows
  | persist staged binary =>
    obtain ⟨hstaged, hbinary, data, hdata, hgenuine⟩ := hknows
    dsimp only [succeed] at hs
    split_ifs at hs
    · cases hs
      exact h.goto ⟨hstaged, hbinary⟩
    · cases hs
      have hinstalled : Installed cfg checksum (Function.update (Function.update directory binary none)
          cfg.target (directory binary)) :=
        ⟨data, by rw [Function.update_self]; exact hdata, hgenuine⟩
      refine ⟨⟨.inr hinstalled, fun name hname hbefore => ?_⟩, h.copied, hstaged, hinstalled⟩
      rw [State.put, State.put]
      dsimp only
      rw [Function.update_of_ne hname]
      exact (h.kept.update hbinary).others name hname hbefore
  | syncDirectory staged =>
    cases hs
    exact h.goto hknows
  | dropBinary staged binary error =>
    cases hs
    exact h.put hknows.2 hknows.1
  | dropStaged staged result =>
    cases hs
    cases result with
    | error error => exact h.put hknows trivial
    | ok u => exact h.put hknows.1 (hknows.2.update hknows.1)
  | createStaged _ | copySource _ _ | createBinary _ _ _ | copyBinary _ _ _ _ _ | done _ | killed =>
    cases hs

theorem create_inv {name : Bytes} (hs : create s name = some s') : Inv cfg checksum before s' := by
  obtain ⟨directory, source, copied, pc⟩ := s
  unfold create at hs
  split_ifs at hs with hnew
  have hname : Temporary before name := h.kept.temporary hnew.1 hnew.2
  have hknows := h.knows
  cases pc with
  | createStaged size =>
    cases hs
    exact h.put hname hname
  | createBinary staged entry rest =>
    cases hs
    refine h.put hname ⟨hknows.1, hname, 0o600, [], ?_, rfl, hknows.2⟩
    exact Function.update_self _ _ _
  | _ => cases hs

theorem transfer_inv {count : ℕ} (hs : transfer s count = some s') :
    Inv cfg checksum before s' := by
  obtain ⟨directory, source, copied, pc⟩ := s
  unfold transfer at hs
  split_ifs at hs with hcount
  have hknows := h.knows
  cases pc with
  | copySource size staged =>
    dsimp only at hs
    split_ifs at hs
    · cases hs
      exact h.goto hknows
    · cases hs
      exact h.goto hknows
    · cases hs
      -- no more is copied than is left of the limit
      have hlimit : copied ≤ maxGuiArchiveSize + 1 := h.copied
      refine ⟨h.kept.update hknows, ?_, hknows⟩
      simp only [State.append, State.put, List.length_take]
      omega
  | copyBinary staged binary entry rest done =>
    obtain ⟨hstaged, hbinary, mode, contents, hnode, hlength, hgenuine⟩ := hknows
    dsimp only at hs
    split_ifs at hs with hend hsize
    · cases hs
      exact h.goto ⟨hstaged, hbinary⟩
    · cases hs
      have hrest : rest = [] := by
        cases rest with
        | nil => rfl
        | cons b rest => exact absurd hend (by simp [hcount])
      rw [hrest, List.append_nil] at hgenuine
      refine h.goto ⟨hstaged, hbinary, mode, contents, hnode, hgenuine ?_⟩
      rw [hlength, not_not.mp hsize]
    · cases hs
      refine h.put hbinary ⟨hstaged, hbinary, mode, contents ++ rest.take count, ?_, ?_, ?_⟩
      · rw [Function.update_self, hnode]
        rfl
      · rw [List.length_append, hlength]
      · rwa [List.append_assoc, List.take_append_drop]
  | _ => cases hs

theorem step_inv {event : Event}
    (hs : step cfg checksum s event = some s') : Inv cfg checksum before s' := by
  cases event with
  | ok => exact succeed_inv h hs
  | fail =>
    obtain ⟨pc, hpc, rfl⟩ := Option.map_eq_some_iff.mp hs
    exact h.goto (failed_knows h.knows hpc)
  | create name => exact create_inv h hs
  | transfer count => exact transfer_inv h hs
  | kill =>
    have hkilled : s' = s.goto .killed := by
      dsimp only [step] at hs
      split at hs
      · cases hs
      · cases hs
      · exact (Option.some.inj hs).symm
    rw [hkilled]
    exact h.goto trivial
  | tamper source =>
    cases hs
    exact ⟨h.kept, h.copied, h.knows⟩

end

/-- **An update is genuine or nothing**, at every moment of a call, whatever the user does to the source
and wherever the call fails or is killed. -/
theorem update_all_or_nothing {source : Node}
    (hs : (machine cfg checksum before source).Reachable s) :
    (s.directory cfg.target = before cfg.target ∨ Installed cfg checksum s.directory) ∧
    (s.pc = .done (.ok ()) → Installed cfg checksum s.directory) ∧
    (∀ name, name ≠ cfg.target → before name ≠ none → s.directory name = before name) ∧
    s.copied ≤ maxGuiArchiveSize + 1 := by
  have hinit : Inv cfg checksum before (machine cfg checksum before source).init :=
    ⟨⟨.inl rfl, fun _ _ _ => rfl⟩, Nat.zero_le _, trivial⟩
  have hinv := Machine.Reachable.invariant hinit (fun _ _ _ _ h hstep => step_inv h hstep) hs
  refine ⟨hinv.kept.target, fun hdone => ?_, hinv.kept.others, hinv.copied⟩
  have hknows := hinv.knows
  rw [hdone] at hknows
  exact hknows

/-- An old program and another file are there before the update. -/
def sampleDirectory (name : Bytes) : Option Node :=
  if name = [103] then some ⟨.regular, 0o755, [9]⟩
  else if name = [104] then some ⟨.regular, 0o644, [1]⟩
  else none

theorem update_all_or_nothing_sample : ∃ s,
    (machine sampleConfig (sampleDigest sampleArchive) sampleDirectory
      ⟨.regular, 0o644, sampleArchive⟩).Reachable s ∧
    s.pc = .done (.ok ()) ∧ Installed sampleConfig (sampleDigest sampleArchive) s.directory ∧
    s.directory [104] = some ⟨.regular, 0o644, [1]⟩ := by
  obtain ⟨s, hs, hdone⟩ := Machine.Reachable.of_run (M := machine sampleConfig
    (sampleDigest sampleArchive) sampleDirectory ⟨.regular, 0o644, sampleArchive⟩)
    (p := fun s => s.pc = .done (.ok ())) sampleEvents (by decide +kernel)
  have hpc := of_decide_eq_true hdone
  obtain ⟨-, hinstalled, hothers, -⟩ := update_all_or_nothing hs
  exact ⟨s, hs, hpc, hinstalled hpc, hothers [104] (by decide) (by decide)⟩

end Invariant

end GlobalProtect.Service.GuiUpdate
