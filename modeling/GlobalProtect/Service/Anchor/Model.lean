import GlobalProtect.Lib.Base64
import GlobalProtect.Lib.Checks
import GlobalProtect.Lib.Json
import GlobalProtect.Lib.Processes
import GlobalProtect.Lib.Utf8Decode

/-! # The device anchor

The model of `gpservice/src/device_anchor.rs`, with the anchor of `gpapi/src/device_anchor`. A call of
`resolve_in` is a process that makes one file operation in a step; calls run interleaved, an operation
may fail, and a call may crash between any two of them.

The temporary file of a call is the inode with the name of the call, and a record is a file that was
one before: `persist_noclobber` gives the inode the name of the record, and an open file stays the
inode that it was. What `collect` finds is decided outside. -/

namespace GlobalProtect.Service.Anchor

open Lib
open Lib.Utf8 (Bytes)

/-! ### Anchors -/

inductive AnchorSource where
  | unixMac
  | unixRandom
  | macosIokit
  deriving DecidableEq

def AnchorSource.code : AnchorSource → ℕ
  | unixMac => 1
  | unixRandom => 2
  | macosIokit => 3

structure DeviceAnchor where
  hardwareId : String
  source : AnchorSource
  deriving DecidableEq

def DeviceAnchor.validate (anchor : DeviceAnchor) : Bool :=
  (Base64.decode anchor.hardwareId.toList).any fun bytes =>
    bytes.length = 32 && Base64.encode bytes = anchor.hardwareId.toList

def AnchorSource.isUnix : AnchorSource → Bool
  | unixMac | unixRandom => true
  | macosIokit => false

structure Record where
  version : ℕ
  anchor : DeviceAnchor
  deriving DecidableEq

def Record.toJson (record : Record) : Json := .object [
  ("version", .number record.version),
  ("anchor", .object [
    ("hardware_id", .string record.anchor.hardwareId),
    ("source", .number record.anchor.source.code)])]

/-- `serde_json::to_vec`. -/
def Record.toBytes (record : Record) : Bytes := Utf8.encode record.toJson.write

/-- What is written for an anchor. -/
def written (anchor : DeviceAnchor) : Bytes := Record.toBytes ⟨1, anchor⟩

/-- `owner` is whom the calls run as; `umask` is taken from the modes of new files. `parse` is
`serde_json::from_slice`, which reads what was written. -/
structure Config where
  owner : ℕ
  umask : ℕ
  parse : Bytes → Option Record
  parse_written : ∀ anchor, parse (written anchor) = some ⟨1, anchor⟩

/-! ### Files -/

inductive FileType where
  | regular
  | directory
  | symlink
  | other
  deriving DecidableEq

structure Metadata where
  fileType : FileType
  uid : ℕ
  mode : ℕ
  nlink : ℕ
  deriving DecidableEq

structure Inode where
  metadata : Metadata
  contents : Bytes
  deriving DecidableEq

/-- `io` is an operation that failed. -/
inductive Error where
  | io
  | failed (message : String)
  deriving DecidableEq

def validateMetadata (metadata : Metadata) (owner : ℕ) (directory : Bool) : Except Error Unit := do
  ensure (metadata.fileType = if directory then .directory else .regular)
    (.failed "unexpected device anchor state type")
  ensure (metadata.uid = owner) (.failed "unexpected device anchor state owner")
  ensure (metadata.mode &&& 0o777 = if directory then 0o700 else 0o600)
    (.failed "unsafe device anchor state permissions")
  ensure (directory || metadata.nlink = 1) (.failed "device anchor state must not have hard links")

/-- The directory, the lock file in it, the inodes of the temporary files, the one that has the name
`hardware-id`, and who has the lock. -/
structure Files (ι : Type) where
  directory : Option Metadata
  lockFile : Option Metadata
  inodes : ι → Option Inode
  record : Option ι
  holder : Option ι

/-- The mode of a new file. -/
def Config.masked (cfg : Config) (mode : ℕ) : ℕ := mode - (mode &&& cfg.umask)

/-- The checks of `read_record` on what it has read. -/
def checkRecord (cfg : Config) (bytes : Bytes) : Except Error DeviceAnchor := do
  let record ← context (cfg.parse bytes) (.failed "malformed device anchor record")
  ensure (record.version = 1 && record.anchor.validate)
    (.failed "unsupported or invalid device anchor record")
  ensure record.anchor.source.isUnix (.failed "invalid Unix device anchor source")
  return record.anchor

def checkCollected (anchor : DeviceAnchor) : Except Error Unit :=
  ensure (anchor.validate && anchor.source.isUnix) (.failed "invalid collected Unix device anchor")

/-! ### Calls -/

/-- Where a call of `resolve_in` is. -/
inductive Pc (ι : Type) where
  | idle
  | createDirectory
  | syncParent
  | validateDirectory
  | openLock
  | validateLock
  | lock
  | openRecord
  | validateRecord (inode : ι)
  | measureRecord (inode : ι)
  | readRecord (inode : ι) (bytes : Bytes)
  | collect
  | createTemporary (anchor : DeviceAnchor)
  | setPermissions (anchor : DeviceAnchor)
  | write (anchor : DeviceAnchor)
  | sync (anchor : DeviceAnchor)
  | persist (anchor : DeviceAnchor)
  | syncDirectory (anchor : DeviceAnchor)
  /-- The destructor of the temporary file runs. -/
  | dropTemporary (error : Error)
  /-- The lock file is closed. -/
  | unlock (result : Except Error DeviceAnchor)
  | done (result : Except Error DeviceAnchor)
  | crashed

inductive Event where
  | ok
  | fail
  | collected (result : Except Error DeviceAnchor)
  /-- That many bytes are read or written; none are read at the end of a file. -/
  | transfer (count : ℕ)
  | crash

section Act

variable {ι : Type} [DecidableEq ι] (cfg : Config) (i : ι) (files : Files ι)

/-- The call goes on if a check succeeds, and returns its error otherwise. -/
def proceed (result : Except Error Unit) (next : Pc ι) (stop : Except Error DeviceAnchor → Pc ι) :
    Files ι × Pc ι :=
  match result with
  | .ok () => (files, next)
  | .error error => (files, stop (.error error))

/-- The inode of the call is changed. -/
def Files.edit (f : Option Inode → Option Inode) : Files ι :=
  { files with inodes := Function.update files.inodes i (f (files.inodes i)) }

/-- The lock is released if the call has it. -/
def Files.release : Files ι :=
  { files with holder := if files.holder = some i then none else files.holder }

/-- The next operation succeeds. -/
def succeed : Pc ι → Option (Files ι × Pc ι)
  | .idle => some (files, .createDirectory)
  | .createDirectory =>
    match files.directory with
    | none =>
      let metadata : Metadata := ⟨.directory, cfg.owner, cfg.masked 0o700, 2⟩
      some ({ files with directory := some metadata }, .syncParent)
    | some _ => some (files, .validateDirectory)
  | .syncParent => some (files, .validateDirectory)
  | .validateDirectory =>
    match files.directory with
    | none => some (files, .done (.error .io))
    | some metadata =>
      some (proceed files (validateMetadata metadata cfg.owner true) .openLock .done)
  | .openLock =>
    match files.lockFile with
    | none =>
      let metadata : Metadata := ⟨.regular, cfg.owner, cfg.masked 0o600, 1⟩
      some ({ files with lockFile := some metadata }, .validateLock)
    | some metadata =>
      -- a link is not followed, and a directory not opened for writing
      if metadata.fileType = .symlink ∨ metadata.fileType = .directory then
        some (files, .done (.error .io))
      else some (files, .validateLock)
  | .validateLock =>
    match files.lockFile with
    | none => none
    | some metadata => some (proceed files (validateMetadata metadata cfg.owner false) .lock .done)
  | .lock =>
    if files.holder = none then some ({ files with holder := some i }, .openRecord) else none
  | .openRecord =>
    match files.record with
    | none => some (files, .collect)
    | some inode => some (files, .validateRecord inode)
  | .validateRecord inode =>
    (files.inodes inode).map fun node =>
      proceed files (validateMetadata node.metadata cfg.owner false) (.measureRecord inode) .unlock
  | .measureRecord inode =>
    (files.inodes inode).map fun node =>
      proceed files
        (ensure (node.contents.length ≤ 4096) (.failed "oversized device anchor record"))
        (.readRecord inode []) .unlock
  | .createTemporary anchor =>
    let node : Inode := ⟨⟨.regular, cfg.owner, cfg.masked 0o600, 1⟩, []⟩
    some (files.edit i fun _ => some node, .setPermissions anchor)
  | .setPermissions anchor =>
    let chmod (node : Inode) : Inode := { node with metadata.mode := 0o600 }
    some (files.edit i (Option.map chmod), .write anchor)
  | .write anchor =>
    (files.inodes i).bind fun node =>
      if node.contents.length = (written anchor).length then some (files, .sync anchor) else none
  | .sync anchor => some (files, .persist anchor)
  | .persist anchor =>
    match files.record with
    | none => some ({ files with record := some i }, .syncDirectory anchor)
    | some _ => some (files, .dropTemporary .io)
  | .syncDirectory anchor => some (files, .unlock (.ok anchor))
  | .dropTemporary error =>
    let unlink (node : Inode) : Inode := { node with metadata.nlink := 0 }
    some (files.edit i (Option.map unlink), .unlock (.error error))
  | .unlock result => some (files.release i, .done result)
  | .readRecord _ _ | .collect | .done _ | .crashed => none

/-- The next operation fails. -/
def failed : Pc ι → Option (Pc ι)
  | .createDirectory | .syncParent | .validateDirectory | .openLock | .validateLock | .lock =>
    some (.done (.error .io))
  | .openRecord | .validateRecord _ | .measureRecord _ | .readRecord _ _ | .createTemporary _
  | .syncDirectory _ => some (.unlock (.error .io))
  | .setPermissions _ | .write _ | .sync _ | .persist _ => some (.dropTemporary .io)
  -- a failure to remove the temporary file is ignored
  | .dropTemporary error => some (.unlock (.error error))
  | .idle | .collect | .unlock _ | .done _ | .crashed => none

/-- Bytes are written to the temporary file, or read from the record. -/
def transfer (count : ℕ) : Pc ι → Option (Files ι × Pc ι)
  | .write anchor =>
    (files.inodes i).bind fun node =>
      let next := node.contents ++ ((written anchor).drop node.contents.length).take count
      if 0 < count ∧ node.contents.length < (written anchor).length then
        some (files.edit i fun _ => some { node with contents := next }, .write anchor)
      else none
  | .readRecord inode bytes =>
    (files.inodes inode).bind fun node =>
      let chunk := (node.contents.drop bytes.length).take count
      if 0 < count then
        if chunk = [] then some (files, .unlock (checkRecord cfg bytes))
        else some (files, .readRecord inode (bytes ++ chunk))
      else none
  | _ => none

def collected (result : Except Error DeviceAnchor) : Pc ι → Option (Files ι × Pc ι)
  | .collect =>
    match result with
    | .error error => some (files, .unlock (.error error))
    | .ok anchor => some (proceed files (checkCollected anchor) (.createTemporary anchor) .unlock)
  | _ => none

/-- A step of a call. -/
def resolveIn (pc : Pc ι) : Event → Option (Files ι × Pc ι)
  | .ok => succeed cfg i files pc
  | .fail => (failed pc).map fun pc => (files, pc)
  | .collected result => collected files result pc
  | .transfer count => transfer cfg i files count pc
  | .crash =>
    match pc with
    | .idle | .done _ | .crashed => none
    | _ => some (files.release i, .crashed)

end Act

/-- Calls on one directory; `directory` and `lockFile` are what is there before. -/
def calls (ι : Type) [DecidableEq ι] (cfg : Config) (directory lockFile : Option Metadata) :
    Processes ι (Files ι) (Pc ι) Event where
  shared := { directory, lockFile, inodes := fun _ => none, record := none, holder := none }
  own _ := .idle
  act i files pc event := resolveIn cfg i files pc event

/-- What the record file holds. -/
def Files.recordContents {ι : Type} (files : Files ι) : Option Bytes :=
  (files.record.bind files.inodes).map (·.contents)

end GlobalProtect.Service.Anchor
