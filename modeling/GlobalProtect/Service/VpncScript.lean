import GlobalProtect.Lib.Checks
import GlobalProtect.Lib.Json
import GlobalProtect.Lib.Text
import GlobalProtect.Lib.Utf8Decode

/-! # The installed script

The model of `gpservice/src/vpnc_script.rs` and of the request it serves, `VpncScriptMetadata` in
`gpapi/src/service/vpnc_script.rs`. The service keeps one script and one file that says where it is
from, and checks what it finds of them before it touches them.

A request is checked by the length of its text, the file by the length of the JSON that is written
for it. As the second is not bounded by the first, `storage_usable_iff` needs the texts to fit: one
that does not is stored, and then keeps the service from replacing or removing it
(`oversized_locks`). -/

namespace GlobalProtect.Service.VpncScript

open Lib
open Lib.Utf8 (Bytes encode decode?)

/-! ### Metadata -/

inductive VpncScriptSource where
  | file
  | command
  deriving DecidableEq

def VpncScriptSource.name : VpncScriptSource → String
  | file => "file"
  | command => "command"

structure VpncScriptMetadata where
  source : VpncScriptSource
  value : String
  deriving DecidableEq

def maxVpncScriptSourceValue : ℕ := 32 * 1024

def VpncScriptMetadata.new (source : VpncScriptSource) (value : String) :
    Except String VpncScriptMetadata := do
  ensure (!(Text.trim value.toList).isEmpty) "VPNC script source is empty"
  ensure (!value.toList.contains '\x00') "VPNC script source contains a null character"
  ensure (value.utf8ByteSize ≤ maxVpncScriptSourceValue)
    ("VPNC script source exceeds the " ++ toString maxVpncScriptSourceValue ++ " byte limit")
  return ⟨source, value⟩

def VpncScriptMetadata.validate (metadata : VpncScriptMetadata) : Except String Unit := do
  let _ ← new metadata.source metadata.value
  return ()

structure StoredMetadata where
  version : UInt8
  metadata : VpncScriptMetadata
  deriving DecidableEq

def StoredMetadata.toJson (stored : StoredMetadata) : Json := .object [
  ("version", .number stored.version.toNat),
  ("metadata", .object [
    ("source", .string stored.metadata.source.name),
    ("value", .string stored.metadata.value)])]

/-- `serde_json::to_writer`. -/
def StoredMetadata.toBytes (stored : StoredMetadata) : Bytes := encode stored.toJson.write

def metadataVersion : UInt8 := 1

/-- What is written for the metadata. -/
def written (metadata : VpncScriptMetadata) : Bytes :=
  StoredMetadata.toBytes ⟨metadataVersion, metadata⟩

/-- `serde_json::from_reader`, which reads what was written. -/
structure Reader where
  parse : Bytes → Option StoredMetadata
  parse_written : ∀ metadata, parse (written metadata) = some ⟨metadataVersion, metadata⟩

/-! ### Files -/

inductive FileType where
  | regular
  | directory
  | symlink
  | other
  deriving DecidableEq

/-- What `symlink_metadata` tells of a file, and what is in it. -/
structure Node where
  fileType : FileType
  uid : ℕ
  mode : ℕ
  contents : Bytes
  deriving DecidableEq

/-- A path and what is there. -/
structure Entry where
  path : String
  node : Option Node
  deriving DecidableEq

def directoryMode : ℕ := 0o755

def scriptMode : ℕ := 0o755

def metadataMode : ℕ := 0o600

def maxMetadataSize : ℕ := 40 * 1024

def maxVpncScriptSize : ℕ := 1024 * 1024

def validateOwnershipAndMode (path : String) (node : Node) (uid : ℕ) : Except String Unit := do
  ensure (node.uid = uid) (path ++ " must be owned by uid " ++ toString uid)
  ensure (node.mode &&& 0o022 = 0) (path ++ " must not be writable by group or other users")

def validateDirectory (directory : Entry) (uid : ℕ) : Except String Unit := do
  let node ← context directory.node ("Failed to inspect VPNC script directory " ++ directory.path)
  ensure (node.fileType = .directory)
    ("VPNC script directory " ++ directory.path ++ " is not a real directory")
  validateOwnershipAndMode directory.path node uid

def validateScript (path : String) (node : Node) (uid : ℕ) : Except String Unit := do
  ensure (node.fileType = .regular) ("Installed VPNC script " ++ path ++ " is not a regular file")
  validateOwnershipAndMode path node uid
  ensure (node.mode &&& 0o111 ≠ 0) ("Installed VPNC script " ++ path ++ " is not executable")

def validateMetadata (path : String) (node : Node) (uid : ℕ) : Except String Unit := do
  ensure (node.fileType = .regular) ("VPNC script metadata " ++ path ++ " is not a regular file")
  validateOwnershipAndMode path node uid
  ensure (node.mode &&& 0o777 = metadataMode)
    ("VPNC script metadata " ++ path ++ " must have mode 0600")
  ensure (node.contents.length ≤ maxMetadataSize)
    ("VPNC script metadata " ++ path ++ " is too large")

/-- The check of a file, if there is one. -/
def validateExisting (validate : String → Node → ℕ → Except String Unit) (file : Entry) (uid : ℕ) :
    Except String Unit :=
  match file.node with
  | none => .ok ()
  | some node => validate file.path node uid

/-- A directory, followed by those above it. -/
def ensureDirectory (uid : ℕ) : List Entry → Except String Unit × List Entry
  | [] => (.ok (), [])
  | directory :: parents =>
    match directory.node with
    | some _ => (validateDirectory directory uid, directory :: parents)
    | none =>
      match ensureDirectory uid parents with
      | (.error error, parents) => (.error error, directory :: parents)
      | (.ok (), parents) =>
        let directory := { directory with node := some ⟨.directory, uid, directoryMode, []⟩ }
        (validateDirectory directory uid, directory :: parents)

/-! ### The store -/

structure Store where
  /-- The directory of the files, followed by those above it. -/
  directories : List Entry
  script : Entry
  metadata : Entry
  deriving DecidableEq

/-- The checks of `install_at` before it writes. -/
def checkInstall (contents : Bytes) (metadata : VpncScriptMetadata) (uid : ℕ) (s : Store) :
    Except String Unit := do
  validateExisting validateScript s.script uid
  validateExisting validateMetadata s.metadata uid
  ensure (!contents.isEmpty) "VPNC script is empty"
  ensure (contents.length ≤ maxVpncScriptSize)
    ("VPNC script exceeds the " ++ toString maxVpncScriptSize ++ " byte limit")
  metadata.validate

def scriptNode (contents : Bytes) (uid : ℕ) : Node := ⟨.regular, uid, scriptMode, contents⟩

def metadataNode (metadata : VpncScriptMetadata) (uid : ℕ) : Node :=
  ⟨.regular, uid, metadataMode, written metadata⟩

/-- The staged files take the places of the old ones. -/
def persist (contents : Bytes) (metadata : VpncScriptMetadata) (uid : ℕ) (s : Store) : Store :=
  { s with
    script := { s.script with node := some (scriptNode contents uid) }
    metadata := { s.metadata with node := some (metadataNode metadata uid) } }

/-- The checks of `install_at` after it has written. -/
def checkInstalled (uid : ℕ) (s : Store) : Except String Unit := do
  let script ← context s.script.node "Failed to inspect the installed VPNC script"
  validateScript s.script.path script uid
  let metadata ← context s.metadata.node "Failed to inspect VPNC script metadata"
  validateMetadata s.metadata.path metadata uid

def installAt (contents : Bytes) (metadata : VpncScriptMetadata) (uid : ℕ) (s : Store) :
    Except String Unit × Store :=
  if s.directories = [] then (.error "Installed VPNC script has no parent directory", s)
  else
    match ensureDirectory uid s.directories with
    | (.error error, directories) => (.error error, { s with directories := directories })
    | (.ok (), directories) =>
      let s := { s with directories := directories }
      match checkInstall contents metadata uid s with
      | .error error => (.error error, s)
      | .ok () =>
        let s := persist contents metadata uid s
        (checkInstalled uid s, s)

def readMetadataAt (reader : Reader) (file : Entry) (uid : ℕ) :
    Except String (Option VpncScriptMetadata) :=
  match file.node with
  | none => .ok none
  | some node => do
    validateMetadata file.path node uid
    let stored ← context (reader.parse (node.contents.take maxMetadataSize))
      "Failed to parse VPNC script metadata"
    ensure (stored.version = metadataVersion)
      ("Unsupported VPNC script metadata version " ++ toString stored.version)
    stored.metadata.validate
    return some stored.metadata

def removeAt (directories : List Entry) (validate : String → Node → ℕ → Except String Unit)
    (file : Entry) (uid : ℕ) : Except String Entry := do
  let directory ← context directories.head? "VPNC script state file has no parent directory"
  validateDirectory directory uid
  validateExisting validate file uid
  return { file with node := none }

/-- The removal of the script, then of its metadata. -/
def remove (uid : ℕ) (s : Store) : Except String Unit × Store :=
  match removeAt s.directories validateScript s.script uid with
  | .error error => (.error error, s)
  | .ok script =>
    let s := { s with script := script }
    match removeAt s.directories validateMetadata s.metadata uid with
    | .error error => (.error error, s)
    | .ok metadata => (.ok (), { s with metadata := metadata })

/-! ### Requests -/

inductive Request where
  | install (contents : Bytes) (metadata : VpncScriptMetadata)
  | readMetadata
  | remove
  deriving DecidableEq

/-- The store after a request. -/
def Request.effect (uid : ℕ) (s : Store) : Request → Store
  | install contents metadata => (installAt contents metadata uid s).2
  | readMetadata => s
  | remove => (VpncScript.remove uid s).2

def Accepted (contents : Bytes) (metadata : VpncScriptMetadata) : Prop :=
  metadata.validate = .ok () ∧ 1 ≤ contents.length ∧ contents.length ≤ maxVpncScriptSize

def Fits (metadata : VpncScriptMetadata) : Prop := (written metadata).length ≤ maxMetadataSize

section Requests

variable (reader : Reader) (uid : ℕ)

/-- The script and the metadata are in the store. -/
def Installed (contents : Bytes) (metadata : VpncScriptMetadata) (s : Store) : Prop :=
  (∃ node, s.script.node = some node ∧ node.contents = contents) ∧
    readMetadataAt reader s.metadata uid = .ok (some metadata)

/-- What a request is to do. -/
def Served (s : Store) : Request → Prop
  | .install contents metadata =>
    let outcome := installAt contents metadata uid s
    (Accepted contents metadata → outcome.1 = .ok () ∧
      ∀ n, Installed reader uid contents metadata
        ((List.replicate n Request.readMetadata).foldl (Request.effect uid) outcome.2)) ∧
      (outcome.1 ≠ .ok () →
        outcome.2.script = s.script ∧ outcome.2.metadata = s.metadata)
  | .readMetadata => ∃ metadata, readMetadataAt reader s.metadata uid = .ok metadata
  | .remove =>
    let outcome := remove uid s
    outcome.1 = .ok () ∧ outcome.2.script.node = none ∧ outcome.2.metadata.node = none

/-- Every request of a sequence is served. -/
def Usable : List Request → Store → Prop
  | [], _ => True
  | request :: requests, s => Served reader uid s request ∧ Usable requests (request.effect uid s)

end Requests

/-! ### The checks -/

section Checks

variable {uid : ℕ} {s : Store} {contents : Bytes} {metadata : VpncScriptMetadata}

theorem validateOwnershipAndMode_eq_ok {path : String} {node : Node} :
    validateOwnershipAndMode path node uid = .ok () ↔ node.uid = uid ∧ node.mode &&& 0o022 = 0 := by
  unfold validateOwnershipAndMode
  rw [ensure_bind_eq_ok, ensure_eq_ok, decide_eq_true_iff, decide_eq_true_iff]

theorem validateScript_scriptNode (path : String) (contents : Bytes) (uid : ℕ) :
    validateScript path (scriptNode contents uid) uid = .ok () := by
  unfold validateScript
  refine ensure_bind_eq_ok.mpr ⟨rfl, bind_eq_ok.mpr ⟨(), ?_, ?_⟩⟩
  · have hwritable : scriptMode &&& 0o022 = 0 := by decide
    exact validateOwnershipAndMode_eq_ok.mpr ⟨rfl, hwritable⟩
  · have hexecutable : scriptMode &&& 0o111 ≠ 0 := by decide
    exact ensure_eq_ok.mpr (decide_eq_true hexecutable)

theorem validateMetadata_eq_ok {path : String} {node : Node} :
    validateMetadata path node uid = .ok () ↔ node.fileType = .regular ∧
      (node.uid = uid ∧ node.mode &&& 0o022 = 0) ∧ node.mode &&& 0o777 = metadataMode ∧
        node.contents.length ≤ maxMetadataSize := by
  unfold validateMetadata
  rw [ensure_bind_eq_ok, bind_eq_ok]
  simp only [ensure_bind_eq_ok, ensure_eq_ok, decide_eq_true_iff]
  constructor
  · rintro ⟨htype, u, howner, hrest⟩
    exact ⟨htype, validateOwnershipAndMode_eq_ok.mp howner, hrest⟩
  · rintro ⟨htype, howner, hrest⟩
    exact ⟨htype, (), validateOwnershipAndMode_eq_ok.mpr howner, hrest⟩

theorem validateMetadata_metadataNode (path : String) :
    validateMetadata path (metadataNode metadata uid) uid = .ok () ↔ Fits metadata := by
  rw [validateMetadata_eq_ok]
  constructor
  · rintro ⟨-, -, -, hlength⟩
    exact hlength
  · intro hfits
    have hwritable : metadataMode &&& 0o022 = 0 := by decide
    have hmode : metadataMode &&& 0o777 = metadataMode := by decide
    exact ⟨rfl, ⟨rfl, hwritable⟩, hmode, hfits⟩

theorem checkInstalled_persist :
    checkInstalled uid (persist contents metadata uid s) = .ok () ↔ Fits metadata := by
  unfold checkInstalled
  rw [context_bind_eq_ok]
  constructor
  · rintro ⟨script, -, h⟩
    obtain ⟨u, -, h⟩ := bind_eq_ok.mp h
    obtain ⟨node, hnode, h⟩ := context_bind_eq_ok.mp h
    cases hnode
    exact (validateMetadata_metadataNode _).mp h
  · intro hfits
    refine ⟨_, rfl, bind_eq_ok.mpr ⟨(), validateScript_scriptNode _ _ _, ?_⟩⟩
    exact context_bind_eq_ok.mpr ⟨_, rfl, (validateMetadata_metadataNode _).mpr hfits⟩

theorem fits_of_installAt (h : (installAt contents metadata uid s).1 = .ok ()) :
    Fits metadata := by
  unfold installAt at h
  split_ifs at h
  split at h
  · cases h
  · dsimp only at h
    split at h
    · cases h
    · exact checkInstalled_persist.mp h

end Checks

/-! ### A store in use -/

section Ready

variable {uid : ℕ} {s : Store} {contents : Bytes} {metadata : VpncScriptMetadata}

/-- The directory can be used, and the files in it are as the store writes them. -/
structure Ready (uid : ℕ) (s : Store) : Prop where
  directory : ∃ directory parents, s.directories = directory :: parents ∧
    validateDirectory directory uid = .ok ()
  script : s.script.node = none ∨ ∃ contents, s.script.node = some (scriptNode contents uid)
  metadata : s.metadata.node = none ∨ ∃ metadata : VpncScriptMetadata, metadata.validate = .ok () ∧
    Fits metadata ∧ s.metadata.node = some (metadataNode metadata uid)

section

variable (hs : Ready uid s)
include hs

theorem Ready.validateScript : validateExisting validateScript s.script uid = .ok () := by
  unfold validateExisting
  rcases hs.script with hnone | ⟨contents, hsome⟩
  · rw [hnone]
  · rw [hsome]
    exact validateScript_scriptNode _ _ _

theorem Ready.validateMetadata : validateExisting validateMetadata s.metadata uid = .ok () := by
  unfold validateExisting
  rcases hs.metadata with hnone | ⟨metadata, -, hfits, hsome⟩
  · rw [hnone]
  · rw [hsome]
    exact (validateMetadata_metadataNode _).mpr hfits

theorem Ready.ensureDirectory : ensureDirectory uid s.directories = (.ok (), s.directories) := by
  obtain ⟨directory, parents, hdirectories, hvalid⟩ := hs.directory
  -- a directory that passes its check is there
  obtain ⟨node, hnode, -⟩ := context_bind_eq_ok.mp hvalid
  rw [hdirectories, VpncScript.ensureDirectory, hnode, hvalid]

theorem Ready.checkInstall :
    checkInstall contents metadata uid s = .ok () ↔ Accepted contents metadata := by
  unfold VpncScript.checkInstall
  rw [hs.validateScript, hs.validateMetadata]
  change (ensure _ _ >>= _) = _ ↔ _
  simp only [ensure_bind_eq_ok, Bool.not_eq_true', List.isEmpty_eq_false_iff, decide_eq_true_iff,
    ← List.length_pos_iff, Accepted]
  tauto

theorem Ready.installAt_accepted (h : Accepted contents metadata) :
    installAt contents metadata uid s =
      (checkInstalled uid (persist contents metadata uid s), persist contents metadata uid s) := by
  obtain ⟨directory, parents, hdirectories, -⟩ := hs.directory
  unfold installAt
  rw [if_neg (by simp [hdirectories]), hs.ensureDirectory]
  dsimp only
  rw [hs.checkInstall.mpr h]

/-- A refused installation leaves everything as it was. -/
theorem Ready.installAt_refused (h : ¬ Accepted contents metadata) :
    ∃ error, installAt contents metadata uid s = (.error error, s) := by
  obtain ⟨directory, parents, hdirectories, -⟩ := hs.directory
  unfold installAt
  rw [if_neg (by simp [hdirectories]), hs.ensureDirectory]
  dsimp only
  cases hcheck : VpncScript.checkInstall contents metadata uid s with
  | error error => exact ⟨error, rfl⟩
  | ok u => exact absurd (hs.checkInstall.mp hcheck) h

theorem Ready.remove :
    remove uid s = (.ok (), { s with
      script := { s.script with node := none }
      metadata := { s.metadata with node := none } }) := by
  obtain ⟨directory, parents, hdirectories, hvalid⟩ := hs.directory
  have hremove : ∀ {validate : String → Node → ℕ → Except String Unit} {file : Entry},
      validateExisting validate file uid = .ok () →
        removeAt s.directories validate file uid = .ok { file with node := none } := by
    intro validate file hfile
    unfold removeAt
    rw [hdirectories]
    refine context_bind_eq_ok.mpr ⟨directory, rfl, ?_⟩
    exact bind_eq_ok.mpr ⟨(), hvalid, bind_eq_ok.mpr ⟨(), hfile, rfl⟩⟩
  unfold VpncScript.remove
  rw [hremove hs.validateScript]
  dsimp only
  rw [hremove hs.validateMetadata]

theorem Ready.persist (hvalid : metadata.validate = .ok ())
    (hfits : Fits metadata) : Ready uid (persist contents metadata uid s) where
  directory := hs.directory
  script := .inr ⟨contents, rfl⟩
  metadata := .inr ⟨metadata, hvalid, hfits, rfl⟩

theorem Ready.removed : Ready uid (VpncScript.remove uid s).2 := by
  rw [hs.remove]
  exact ⟨hs.directory, .inl rfl, .inl rfl⟩

end

end Ready

/-! ### Reading -/

section Reading

variable {uid : ℕ} {s : Store} {contents : Bytes} {metadata : VpncScriptMetadata} (reader : Reader)

theorem readMetadataAt_metadataNode {file : Entry} (hvalid : metadata.validate = .ok ())
    (hfits : Fits metadata) (hfile : file.node = some (metadataNode metadata uid)) :
    readMetadataAt reader file uid = .ok (some metadata) := by
  have hread : reader.parse ((metadataNode metadata uid).contents.take maxMetadataSize) =
      some ⟨metadataVersion, metadata⟩ := by
    have htake : (written metadata).take maxMetadataSize = written metadata :=
      List.take_of_length_le hfits
    exact (congrArg reader.parse htake).trans (reader.parse_written metadata)
  unfold readMetadataAt
  rw [hfile]
  refine bind_eq_ok.mpr ⟨(), (validateMetadata_metadataNode _).mpr hfits, ?_⟩
  refine context_bind_eq_ok.mpr ⟨_, hread, ensure_bind_eq_ok.mpr ⟨rfl, ?_⟩⟩
  exact bind_eq_ok.mpr ⟨(), hvalid, rfl⟩

theorem installed_persist (hvalid : metadata.validate = .ok ()) (hfits : Fits metadata) :
    Installed reader uid contents metadata (persist contents metadata uid s) :=
  ⟨⟨_, rfl, rfl⟩, readMetadataAt_metadataNode reader hvalid hfits rfl⟩

theorem foldl_effect_reads (uid n : ℕ) (s : Store) :
    (List.replicate n Request.readMetadata).foldl (Request.effect uid) s = s := by
  induction n with
  | zero => rfl
  | succ n ih => exact ih

theorem Ready.readMetadataAt (hs : Ready uid s) :
    ∃ metadata, readMetadataAt reader s.metadata uid = .ok metadata := by
  rcases hs.metadata with hnone | ⟨metadata, hvalid, hfits, hsome⟩
  · unfold VpncScript.readMetadataAt
    rw [hnone]
    exact ⟨none, rfl⟩
  · exact ⟨some metadata, readMetadataAt_metadataNode reader hvalid hfits hsome⟩

end Reading

/-! ### A reader -/

section CompactReader

/-- What is written before the text of the source. -/
def header (source : VpncScriptSource) : List Char :=
  ['\x7b'] ++ Json.writeString "version" ++ [':', '1', ','] ++ Json.writeString "metadata" ++
    [':', '\x7b'] ++ Json.writeString "source" ++ [':'] ++ Json.writeString source.name ++ [','] ++
    Json.writeString "value" ++ [':', '"']

/-- Metadata from that source, if the text is written as the service writes it. -/
def parseFrom (source : VpncScriptSource) (text : List Char) : Option VpncScriptMetadata :=
  if (header source).isPrefixOf text then
    (Json.readString (text.drop (header source).length)).bind fun (value, rest) =>
      if rest = ['\x7d', '\x7d'] then some ⟨source, String.ofList value⟩ else none
  else none

theorem write_toJson (metadata : VpncScriptMetadata) :
    (StoredMetadata.mk metadataVersion metadata).toJson.write =
      header metadata.source ++ (Json.escaped metadata.value.toList ++ ['"', '\x7d', '\x7d']) := by
  have hdigits : Nat.toDigits 10 metadataVersion.toNat = ['1'] := by decide
  have hvalue : Json.writeString metadata.value =
      '"' :: (Json.escaped metadata.value.toList ++ ['"']) := rfl
  simp only [StoredMetadata.toJson, Json.write, Json.writeField, Json.writeFields, hdigits, hvalue,
    header, List.append_assoc, List.cons_append, List.append_nil]
  rfl

theorem parseFrom_write (source : VpncScriptSource) (value : String) :
    parseFrom source (header source ++ (Json.escaped value.toList ++ ['"', '\x7d', '\x7d'])) =
      some ⟨source, value⟩ := by
  unfold parseFrom
  rw [if_pos (List.isPrefixOf_iff_prefix.mpr (List.prefix_append _ _)), List.drop_left,
    Json.readString_escaped]
  simp

theorem parseFrom_file_command (rest : List Char) :
    parseFrom .file (header .command ++ rest) = none := rfl

/-- Reads the texts that the service writes. -/
def compactReader : Reader where
  parse bytes := (decode? bytes).bind fun text =>
    ((parseFrom .file text).orElse fun _ => parseFrom .command text).map (⟨metadataVersion, ·⟩)
  parse_written metadata := by
    rw [written, StoredMetadata.toBytes, Utf8.decode?_encode, Option.bind_some, write_toJson]
    obtain ⟨source, value⟩ := metadata
    cases source with
    | file =>
      rw [parseFrom_write]
      rfl
    | command =>
      rw [parseFrom_file_command, parseFrom_write]
      rfl

end CompactReader

/-! ### Metadata that do not fit -/

section Oversized

variable {uid : ℕ} {s : Store}

/-- The metadata file is longer than the service reads. -/
def Oversized (s : Store) : Prop :=
  ∃ node, s.metadata.node = some node ∧ maxMetadataSize < node.contents.length

theorem Oversized.validateMetadata (hs : Oversized s) :
    validateExisting validateMetadata s.metadata uid ≠ .ok () := by
  obtain ⟨node, hnode, hlength⟩ := hs
  unfold validateExisting
  rw [hnode]
  intro h
  have hle := (validateMetadata_eq_ok.mp h).2.2.2
  omega

theorem Oversized.installAt (hs : Oversized s) (contents : Bytes) (metadata : VpncScriptMetadata) :
    (installAt contents metadata uid s).1 ≠ .ok () ∧
      (installAt contents metadata uid s).2.metadata = s.metadata := by
  have hcheck : ∀ directories, checkInstall contents metadata uid
      { s with directories := directories } ≠ .ok () := by
    intro directories h
    obtain ⟨u, -, h⟩ := bind_eq_ok.mp h
    obtain ⟨v, hv, -⟩ := bind_eq_ok.mp h
    exact hs.validateMetadata hv
  unfold VpncScript.installAt
  split_ifs
  · exact ⟨nofun, rfl⟩
  · split
    · exact ⟨nofun, rfl⟩
    · rename_i directories _
      dsimp only
      cases hresult : checkInstall contents metadata uid { s with directories := directories } with
      | error error => exact ⟨nofun, rfl⟩
      | ok u => exact absurd hresult (hcheck directories)

theorem Oversized.remove (hs : Oversized s) :
    (remove uid s).1 ≠ .ok () ∧ (remove uid s).2.metadata = s.metadata := by
  have hremove : ∀ entry, removeAt s.directories VpncScript.validateMetadata s.metadata uid ≠
      .ok entry := by
    intro entry h
    obtain ⟨directory, -, h⟩ := context_bind_eq_ok.mp h
    obtain ⟨u, -, h⟩ := bind_eq_ok.mp h
    obtain ⟨v, hv, -⟩ := bind_eq_ok.mp h
    exact hs.validateMetadata hv
  unfold VpncScript.remove
  split
  · exact ⟨nofun, rfl⟩
  · dsimp only
    split
    · exact ⟨nofun, rfl⟩
    · rename_i entry hentry
      exact absurd hentry (hremove entry)

theorem Oversized.effect (hs : Oversized s) (request : Request) :
    (request.effect uid s).metadata = s.metadata := by
  cases request with
  | install contents metadata => exact (hs.installAt contents metadata).2
  | readMetadata => rfl
  | remove => exact hs.remove.2

/-- **Metadata that do not fit stay**: no sequence of requests replaces or removes them, and every
installation and removal fails. -/
theorem oversized_locks (uid : ℕ) (hs : Oversized s) (requests : List Request) :
    Oversized (requests.foldl (Request.effect uid) s) ∧
      (∀ contents metadata,
        (installAt contents metadata uid (requests.foldl (Request.effect uid) s)).1 ≠ .ok ()) ∧
      (remove uid (requests.foldl (Request.effect uid) s)).1 ≠ .ok () := by
  have hkept : Oversized (requests.foldl (Request.effect uid) s) := by
    induction requests generalizing s with
    | nil => exact hs
    | cons request requests ih =>
      refine ih ?_
      unfold Oversized
      rw [hs.effect request]
      exact hs
  exact ⟨hkept, fun contents metadata => (hkept.installAt contents metadata).1, hkept.remove.1⟩

end Oversized

/-! ### Many quotes -/

section Quotes

/-- A command of quotes, each of which is written as two characters. -/
def quotes (n : ℕ) : VpncScriptMetadata := ⟨.command, String.ofList (List.replicate n '"')⟩

theorem utf8Len_escaped_quotes (n : ℕ) :
    String.utf8Len (Json.escaped (List.replicate n '"')) = 2 * n := by
  induction n with
  | zero => rfl
  | succ n ih =>
    have hquote : String.utf8Len (Json.escapeChar '"') = 2 := by decide
    rw [List.replicate_succ, Json.escaped, List.flatMap_cons, String.utf8Len_append, hquote]
    rw [Json.escaped] at ih
    rw [ih]
    omega

theorem validate_quotes {n : ℕ} (hpos : 0 < n) (hn : n ≤ maxVpncScriptSourceValue) :
    (quotes n).validate = .ok () := by
  have hquote : ∀ c ∈ List.replicate n '"', c = '"' := fun c hc => List.eq_of_mem_replicate hc
  have htrim : Text.trim (List.replicate n '"') = List.replicate n '"' := by
    refine Text.trim_eq_self fun c hc => ?_
    rw [hquote c hc]
    decide
  have hsize : (String.ofList (List.replicate n '"')).utf8ByteSize = n := by
    rw [String.utf8ByteSize_ofList, Utf8.utf8Len_of_ascii, List.length_replicate]
    intro c hc
    rw [hquote c hc]
    decide
  unfold VpncScriptMetadata.validate VpncScriptMetadata.new quotes
  refine bind_eq_ok.mpr ⟨quotes n, ?_, rfl⟩
  refine ensure_bind_eq_ok.mpr ⟨?_, ensure_bind_eq_ok.mpr ⟨?_, ensure_bind_eq_ok.mpr ⟨?_, rfl⟩⟩⟩
  · rw [String.toList_ofList, htrim]
    simp
    omega
  · rw [String.toList_ofList]
    simp
  · rw [hsize]
    exact decide_eq_true hn

theorem le_length_written_quotes (n : ℕ) : 2 * n ≤ (written (quotes n)).length := by
  rw [written, StoredMetadata.toBytes, Utf8.length_encode, write_toJson, String.utf8Len_append,
    String.utf8Len_append, quotes, String.toList_ofList, utf8Len_escaped_quotes]
  omega

end Quotes

/-! ### Sequences of requests -/

section Sequences

variable (reader : Reader) {uid : ℕ} {s : Store}

/-- One request is served and leaves the store ready, unless it stores a text that does not fit. -/
theorem Ready.served (request : Request) (hs : Ready uid s) (hfits : ∀ contents metadata,
    request = .install contents metadata → Accepted contents metadata → Fits metadata) :
    Served reader uid s request ∧ Ready uid (request.effect uid s) := by
  cases request with
  | install contents metadata =>
    rw [Served, Request.effect]
    by_cases haccepted : Accepted contents metadata
    · have hmetadata := hfits contents metadata rfl haccepted
      rw [hs.installAt_accepted haccepted, checkInstalled_persist.mpr hmetadata]
      refine ⟨⟨fun _ => ⟨rfl, fun n => ?_⟩, fun hfail => absurd rfl hfail⟩,
        hs.persist haccepted.1 hmetadata⟩
      rw [foldl_effect_reads]
      exact installed_persist reader haccepted.1 hmetadata
    · obtain ⟨error, hrefused⟩ := hs.installAt_refused haccepted
      rw [hrefused]
      exact ⟨⟨fun h => absurd h haccepted, fun _ => ⟨rfl, rfl⟩⟩, hs⟩
  | readMetadata => exact ⟨hs.readMetadataAt reader, hs⟩
  | remove =>
    refine ⟨?_, hs.removed⟩
    rw [Served, hs.remove]
    exact ⟨rfl, rfl, rfl⟩

theorem Ready.usable {requests : List Request} (hs : Ready uid s) (hfits : ∀ contents metadata,
    .install contents metadata ∈ requests → Accepted contents metadata → Fits metadata) :
    Usable reader uid requests s := by
  induction requests generalizing s with
  | nil => trivial
  | cons request requests ih =>
    obtain ⟨hserved, hready⟩ := hs.served reader request
      fun contents metadata h => hfits contents metadata (h ▸ List.mem_cons_self)
    refine ⟨hserved, ih hready ?_⟩
    exact fun contents metadata h => hfits contents metadata (List.mem_cons_of_mem _ h)

theorem fits_of_usable {requests : List Request} {contents : Bytes} {metadata : VpncScriptMetadata}
    (h : Usable reader uid requests s) (hmem : .install contents metadata ∈ requests)
    (haccepted : Accepted contents metadata) : Fits metadata := by
  induction requests generalizing s with
  | nil => cases hmem
  | cons request requests ih =>
    obtain ⟨hserved, husable⟩ := h
    rcases List.mem_cons.mp hmem with rfl | hmem
    · exact fits_of_installAt (hserved.1 haccepted).1
    · exact ih husable hmem

/-- A usable directory with nothing in it. -/
structure Fresh (uid : ℕ) (s : Store) : Prop where
  directory : ∃ directory parents, s.directories = directory :: parents ∧
    validateDirectory directory uid = .ok ()
  script : s.script.node = none
  metadata : s.metadata.node = none

/-- **The store stays usable exactly as long as the metadata it accepts fit into its file.** -/
theorem storage_usable_iff (hs : Fresh uid s) (requests : List Request) :
    Usable reader uid requests s ↔ ∀ contents metadata, .install contents metadata ∈ requests →
      Accepted contents metadata → Fits metadata := by
  constructor
  · intro h contents metadata hmem haccepted
    exact fits_of_usable reader h hmem haccepted
  · intro h
    have hready : Ready uid s := ⟨hs.directory, .inl hs.script, .inl hs.metadata⟩
    exact hready.usable reader h

end Sequences

def sampleMetadata : VpncScriptMetadata := ⟨.command, "exit 0"⟩

def sampleStore : Store where
  directories := [⟨"/scripts", some ⟨.directory, 0, 0o755, []⟩⟩]
  script := ⟨"/scripts/vpnc-script", none⟩
  metadata := ⟨"/scripts/vpnc-script.metadata", none⟩

theorem fresh_sampleStore : Fresh 0 sampleStore := ⟨⟨_, _, rfl, rfl⟩, rfl, rfl⟩

theorem storage_usable_sample :
    Fresh 0 sampleStore ∧ Usable compactReader 0
      [.install [35] sampleMetadata, .install [] sampleMetadata, .readMetadata, .remove,
        .install [35] sampleMetadata] sampleStore := by
  refine ⟨fresh_sampleStore, (storage_usable_iff compactReader fresh_sampleStore _).mpr ?_⟩
  intro contents metadata hmem _
  have hmetadata : metadata = sampleMetadata := by simp at hmem; tauto
  rw [hmetadata]
  unfold Fits
  decide

/-- Accepted metadata that the store cannot hold: the files are written, the installation fails, and
so does every later one, and the removal. -/
theorem quotes_lock_store :
    Accepted [35] (quotes 21000) ∧
      (installAt [35] (quotes 21000) 0 sampleStore).1 ≠ .ok () ∧
      (installAt [35] (quotes 21000) 0 sampleStore).2.script.node = some (scriptNode [35] 0) ∧
      (remove 0 (installAt [35] (quotes 21000) 0 sampleStore).2).1 ≠ .ok () ∧
      (installAt [35] sampleMetadata 0 (installAt [35] (quotes 21000) 0 sampleStore).2).1 ≠
        .ok () := by
  have hvalid : (quotes 21000).validate = .ok () := validate_quotes (by decide) (by decide)
  have haccepted : Accepted [35] (quotes 21000) := ⟨hvalid, by decide, by decide⟩
  have hlong : maxMetadataSize < (written (quotes 21000)).length :=
    lt_of_lt_of_le (by decide) (le_length_written_quotes 21000)
  have hready : Ready 0 sampleStore :=
    ⟨fresh_sampleStore.directory, .inl fresh_sampleStore.script, .inl fresh_sampleStore.metadata⟩
  have hinstall := hready.installAt_accepted haccepted
  have hlocked : Oversized (persist [35] (quotes 21000) 0 sampleStore) := ⟨_, rfl, hlong⟩
  obtain ⟨-, hinstalls, hremove⟩ := oversized_locks 0 hlocked []
  rw [hinstall]
  refine ⟨haccepted, ?_, rfl, hremove, hinstalls [35] sampleMetadata⟩
  intro hok
  exact absurd (checkInstalled_persist.mp hok) (Nat.not_le.mpr hlong)

end GlobalProtect.Service.VpncScript
