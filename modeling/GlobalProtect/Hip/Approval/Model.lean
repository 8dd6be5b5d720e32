import Mathlib.Data.Finset.Insert
import GlobalProtect.Lib.Checks
import GlobalProtect.Lib.Machine
import GlobalProtect.Lib.Store

/-! # Approved HIP scripts

The model of `hip_approval.rs`. The approval directory is a tree of directories with files;
`install` stages a directory and publishes it by a rename, `revoke` renames it away and then removes
it, and `resolveAt`, `statusAt` read. Every call is a process that makes one file operation in a
step, calls run interleaved, any operation may fail, and a process may crash between any two of
them.

The contents of files are lists over an alphabet of bytes `β`. The encoding of the metadata, the
digest and the parser of identifiers come from libraries and are parameters. The service may do
everything that a file operation may do: it runs as the owner of the files. -/

namespace GlobalProtect.Hip.Approval

open Lib

/-! ### Data -/

def maxScriptSize : ℕ := 1024 * 1024

def maxMetadataSize : ℕ := 8 * 1024

def metadataVersion : ℕ := 1

def scriptName : String := "script"

def metadataName : String := "metadata.json"

structure ApprovalInfo where
  approvalId : String
  ownerUid : ℕ
  sha256 : String
  originalPath : String
  deriving DecidableEq, Repr

structure StoredMetadata where
  version : ℕ
  info : ApprovalInfo
  deriving DecidableEq, Repr

/-- `path` is relative to the approval directory. -/
structure ApprovedScript where
  info : ApprovalInfo
  path : List String
  deriving DecidableEq, Repr

inductive HipApprovalStatus where
  | valid
  | revoked
  | corrupt
  | otherUser
  deriving DecidableEq, Repr

def isLowerHexDigit (c : Char) : Bool := c.isDigit || ('a' ≤ c && c ≤ 'f')

/-- A UUID as it is printed: groups of 8, 4, 4, 4 and 12 hexadecimal digits. -/
def canonicalId (value : String) : Bool :=
  value.toList.length = 36 && value.toList.zipIdx.all fun (c, i) =>
    if i = 8 ∨ i = 13 ∨ i = 18 ∨ i = 23 then c = '-' else isLowerHexDigit c

/-- What the code takes from elsewhere. `parseUuid` is the parsed identifier as it is printed; the
texts that are printed as themselves are the canonical ones. Metadata can be read back. -/
structure Config (β : Type) where
  fileOwner : ℕ
  parseUuid : String → Option String
  parseUuid_self : ∀ value, parseUuid value = some value ↔ canonicalId value = true
  encode : StoredMetadata → List β
  decode : List β → Option StoredMetadata
  decode_encode : ∀ stored, decode (encode stored) = some stored
  sha256Hex : List β → String

variable {β : Type}

/-! ### The tree -/

/-- What is in an approval; `other` is anything but a regular file. -/
inductive Leaf (β : Type) where
  | file (owner mode : ℕ) (contents : List β)
  | other

structure Directory (β : Type) where
  owner : ℕ
  mode : ℕ
  files : Store String (Leaf β) := ∅

/-- What a symbolic link leads to. `unreadable` is what cannot be looked at, as in a loop. -/
inductive Target where
  | missing
  | unreadable
  | file
  | directory (metadata : Bool)
  deriving DecidableEq, Repr

/-- An entry of the approval directory; `other` is neither a directory nor a link. -/
inductive Node (β : Type) where
  | directory (d : Directory β)
  | symlink (target : Target)
  | other

/-- The approval directory. -/
structure Tree (β : Type) where
  owner : ℕ
  mode : ℕ
  entries : Store String (Node β) := ∅

namespace Tree

variable (t : Tree β)

def directory (name : String) : Option (Directory β) :=
  match t.entries.lookup name with
  | some (.directory d) => some d
  | _ => none

def put (name : String) (d : Directory β) : Tree β :=
  { t with entries := t.entries.insert name (.directory d) }

def drop (name : String) : Tree β := { t with entries := t.entries.erase name }

/-- `Path::exists`, which follows links. -/
def pathExists (name : String) : Bool :=
  match t.entries.lookup name with
  | none | some (.symlink .missing) | some (.symlink .unreadable) => false
  | some _ => true

/-- `rename` of a directory: it replaces an empty directory only. -/
def rename (source target : String) : Option (Tree β) :=
  match t.directory source, t.entries.lookup target with
  | some d, none => some ((t.drop source).put target d)
  | some d, some (.directory d') =>
    if d'.files.entries = [] then some ((t.drop source).put target d) else none
  | _, _ => none

/-- Removes a file, and nothing if it is not there. -/
def unlink (name file : String) : Tree β :=
  match t.directory name with
  | some d => t.put name { d with files := d.files.erase file }
  | none => t

/-- Removes a directory if it is empty. -/
def rmdir (name : String) : Option (Tree β) :=
  match t.directory name with
  | some d => if d.files.entries = [] then some (t.drop name) else none
  | none => none

end Tree

/-! ### Reading -/

/-- `io` is an operation that failed, a check of the budget or metadata that cannot be read. -/
inductive Error where
  | io
  /-- "Cannot inspect {path}" -/
  | inspect (path : List String)
  /-- "HIP approval directory {path} is not private (owner {owner}, mode {mode})" -/
  | notPrivate (path : List String) (owner mode : ℕ)
  | failed (message : String)
  deriving DecidableEq, Repr

def validateId (cfg : Config β) (value : String) : Except Error Unit :=
  match cfg.parseUuid value with
  | none => .error (.failed "Invalid HIP approval ID")
  | some parsed => ensure (parsed = value) (.failed "HIP approval ID must use canonical form")

/-- `validate_private_dir` of what is a directory. -/
def validatePrivate (path : List String) (owner mode ownerUid : ℕ) : Except Error Unit :=
  ensure (owner = ownerUid && mode &&& 0o077 = 0) (.notPrivate path owner (mode &&& 0o777))

/-- `validate_private_dir` of an entry of the approval directory. -/
def validatePrivateDir (t : Tree β) (name : String) (ownerUid : ℕ) :
    Except Error (Directory β) := do
  match t.entries.lookup name with
  | none => .error (.inspect [name])
  | some (.directory d) =>
    validatePrivate [name] d.owner d.mode ownerUid
    return d
  | some _ => .error (.failed "HIP approval directory is not a directory")

/-- `validate_file`, and what the file then holds. -/
def validateFile (d : Directory β) (path : List String) (name : String)
    (ownerUid mode maxSize : ℕ) : Except Error (List β) := do
  match d.files.lookup name with
  | none => .error (.inspect path)
  | some .other => .error (.failed "HIP approval file is not regular")
  | some (.file owner actual contents) =>
    ensure (owner = ownerUid && actual &&& 0o777 = mode)
      (.failed "HIP approval file has unsafe ownership or mode")
    ensure (contents.length ≤ maxSize) (.failed "HIP approval file is too large")
    return contents

def isHexDigit (c : Char) : Bool :=
  c.isDigit || ('a' ≤ c && c ≤ 'f') || ('A' ≤ c && c ≤ 'F')

def readMetadataUnboundAt (cfg : Config β) (t : Tree β) (approvalId : String) :
    Except Error ApprovalInfo := do
  validateId cfg approvalId
  validatePrivate [] t.owner t.mode cfg.fileOwner
  let d ← validatePrivateDir t approvalId cfg.fileOwner
  let contents ← validateFile d [approvalId, metadataName] metadataName cfg.fileOwner 0o600
    maxMetadataSize
  match cfg.decode contents with
  | none => .error .io
  | some stored =>
    ensure (stored.version = metadataVersion) (.failed "Unsupported HIP approval version")
    ensure (stored.info.approvalId = approvalId) (.failed "HIP approval ID mismatch")
    ensure (stored.info.sha256.toList.length = 64 && stored.info.sha256.toList.all isHexDigit)
      (.failed "Invalid HIP approval digest")
    return stored.info

def readMetadataAt (cfg : Config β) (t : Tree β) (approvalId : String) (desktopUid : ℕ) :
    Except Error ApprovalInfo := do
  let info ← readMetadataUnboundAt cfg t approvalId
  ensure (info.ownerUid = desktopUid) (.failed "HIP approval belongs to another user")
  return info

/-- `CollectionControl::check`, the `i`-th time; `control` is what the checks find. -/
def check (control : ℕ → Bool) (i : ℕ) : Except Error Unit := ensure (control i) .io

/-- The directory that the path of a script goes through, which the code does not check again. -/
def scriptDirectory (t : Tree β) (approvalId : String) : Except Error (Directory β) :=
  match t.directory approvalId with
  | some d => .ok d
  | none => .error (.inspect [approvalId, scriptName])

/-- `resolve_at_with_control`. The metadata is read from the tree `t`; by the time the script is
opened, other calls may have made it `t'`. An open file stays what it is; it is read in chunks of
8192 bytes, with a check before each one and before the end is seen. -/
def resolveAtWithControl (cfg : Config β) (t t' : Tree β) (approvalId : String) (desktopUid : ℕ)
    (control : ℕ → Bool) : Except Error ApprovedScript := do
  check control 0
  let info ← readMetadataAt cfg t approvalId desktopUid
  check control 1
  let d ← scriptDirectory t' approvalId
  let contents ← validateFile d [approvalId, scriptName] scriptName cfg.fileOwner 0o500
    maxScriptSize
  let reads := (contents.length + 8191) / 8192 + 1
  ensure ((List.range reads).all fun i => control (2 + i)) .io
  ensure (contents.length ≠ 0) (.failed "Approved HIP script is empty")
  ensure (cfg.sha256Hex contents = info.sha256) (.failed "Approved HIP script digest mismatch")
  check control (2 + reads)
  return { info, path := [approvalId, scriptName] }

/-- `resolve_at`, when nothing else happens; `budget` is what the checks of its budget find. -/
def resolveAt (cfg : Config β) (t : Tree β) (approvalId : String) (desktopUid : ℕ)
    (budget : ℕ → Bool) : Except Error ApprovedScript :=
  resolveAtWithControl cfg t t approvalId desktopUid budget

/-- What `symlink_metadata` finds at the three paths that `status_at` looks at: nothing (`none`),
something, or an error (`some false`). The approval directory itself is there. -/
def inspectPaths (t : Tree β) (approvalId : String) : Option Bool :=
  match t.entries.lookup approvalId with
  | none => none
  | some (.directory d) => (d.files.lookup metadataName).map fun _ => true
  | some (.symlink .missing) | some (.symlink (.directory false)) => none
  | some (.symlink (.directory true)) => some true
  | some (.symlink .unreadable) | some (.symlink .file) | some .other => some false

/-- `status_at`, without the check of the ancestors. -/
def statusAt (cfg : Config β) (t : Tree β) (approvalId : String) (desktopUid : ℕ)
    (budget : ℕ → Bool) : Except Error HipApprovalStatus := do
  ensure (desktopUid ≠ 0) (.failed "HIP approval status requires a desktop user")
  validateId cfg approvalId
  match inspectPaths t approvalId with
  | none => return .revoked
  | some false => return .corrupt
  | some true =>
    match validatePrivate [] t.owner t.mode cfg.fileOwner with
    | .error _ => return .corrupt
    | .ok _ =>
      match readMetadataUnboundAt cfg t approvalId with
      | .error _ => return .corrupt
      | .ok info =>
        if info.ownerUid ≠ desktopUid then return .otherUser
        else
          match resolveAt cfg t approvalId desktopUid budget with
          | .ok _ => return .valid
          | .error _ => return .corrupt

/-! ### Installing -/

/-- How a file operation ends. -/
inductive Io where
  | ok
  | fail
  /-- The staging directory is created, under a name and with a mode. -/
  | create (suffix : String) (mode : ℕ)
  | write (count : ℕ)
  | unlink (file : String)
  deriving DecidableEq, Repr

inductive InstallPc where
  | mkdir
  | chmod
  | validate
  | createScript
  | writeScript (written : ℕ)
  | createMetadata
  | writeMetadata (written : ℕ)
  | syncStaged
  | checkTarget
  | rename
  | syncBase
  /-- The destructor of the staging directory runs. -/
  | cleanup (ok : Bool)
  | done (ok : Bool)
  deriving DecidableEq, Repr

/-- What an install approves. -/
structure Publication (β : Type) where
  id : String
  uid : ℕ
  contents : List β
  originalPath : String

def Publication.info (cfg : Config β) (p : Publication β) : ApprovalInfo :=
  { approvalId := p.id, ownerUid := p.uid, sha256 := cfg.sha256Hex p.contents,
    originalPath := p.originalPath }

def Publication.encoded (cfg : Config β) (p : Publication β) : List β :=
  cfg.encode ⟨metadataVersion, p.info cfg⟩

structure InstallCall (β : Type) extends Publication β where
  suffix : String := ""
  pc : InstallPc := .mkdir

/-- The staging directory. -/
def InstallCall.staged (c : InstallCall β) : String := ".install-" ++ c.suffix

/-- What a step leaves; `published` and `revoked` are what its rename did. -/
structure Effect (β κ : Type) where
  tree : Tree β
  call : κ
  published : List (Publication β) := []
  revoked : List String := []

/-- `write_new`: creates the file, which must not exist, in the staging directory. -/
def createNew (t : Tree β) (staged file : String) (owner mode : ℕ) : Option (Tree β) :=
  match t.directory staged with
  | some d =>
    if (d.files.lookup file).isNone then
      some (t.put staged { d with files := d.files.insert file (.file owner mode []) })
    else none
  | none => none

/-- `write_new`: the file holds the contents. -/
def writeFile (t : Tree β) (staged file : String) (owner mode : ℕ) (contents : List β) :
    Option (Tree β) :=
  match t.directory staged with
  | some d =>
    some (t.put staged { d with files := d.files.insert file (.file owner mode contents) })
  | none => none

def InstallCall.goto (c : InstallCall β) (pc : InstallPc) : InstallCall β := { c with pc }

/-- The call has a staging directory, or has had one and has not ended. -/
def InstallCall.holds (c : InstallCall β) : Bool :=
  match c.pc with
  | .mkdir | .done _ => false
  | _ => true

/-- `install_at`, from where it creates the staging directory. `busy` are the names that other calls
have for theirs: the names that are drawn at one time are distinct. -/
def InstallCall.step (cfg : Config β) (busy : String → Bool) (t : Tree β) (c : InstallCall β) :
    Io → Option (Effect β (InstallCall β))
  | .create suffix mode =>
    let c' := { c with suffix, pc := .chmod }
    if c.pc = .mkdir ∧ (t.entries.lookup c'.staged).isNone ∧ busy c'.staged = false then
      some { tree := t.put c'.staged { owner := cfg.fileOwner, mode }, call := c' }
    else none
  | .write count =>
    match c.pc with
    | .writeScript written =>
      if 0 < count ∧ written + count ≤ c.contents.length then
        (writeFile t c.staged scriptName cfg.fileOwner 0o500
          (c.contents.take (written + count))).map fun tree =>
            { tree, call := c.goto (.writeScript (written + count)) }
      else none
    | .writeMetadata written =>
      if 0 < count ∧ written + count ≤ (c.encoded cfg).length then
        (writeFile t c.staged metadataName cfg.fileOwner 0o600
          ((c.encoded cfg).take (written + count))).map fun tree =>
            { tree, call := c.goto (.writeMetadata (written + count)) }
      else none
    | _ => none
  | .unlink file =>
    match c.pc with
    | .cleanup _ => some { tree := t.unlink c.staged file, call := c }
    | _ => none
  | .ok =>
    match c.pc with
    | .chmod =>
      (t.directory c.staged).map fun d =>
        { tree := t.put c.staged { d with mode := 0o700 }, call := c.goto .validate }
    | .validate =>
      match validatePrivateDir t c.staged cfg.fileOwner with
      | .ok _ => some { tree := t, call := c.goto .createScript }
      | .error _ => some { tree := t, call := c.goto (.cleanup false) }
    | .createScript =>
      (createNew t c.staged scriptName cfg.fileOwner 0o500).map fun tree =>
        { tree, call := c.goto (.writeScript 0) }
    | .writeScript written =>
      -- everything is written, and synced
      if written = c.contents.length then
        if (c.encoded cfg).length ≤ maxMetadataSize then
          some { tree := t, call := c.goto .createMetadata }
        else some { tree := t, call := c.goto (.cleanup false) }
      else none
    | .createMetadata =>
      (createNew t c.staged metadataName cfg.fileOwner 0o600).map fun tree =>
        { tree, call := c.goto (.writeMetadata 0) }
    | .writeMetadata written =>
      if written = (c.encoded cfg).length then some { tree := t, call := c.goto .syncStaged }
      else none
    | .syncStaged => some { tree := t, call := c.goto .checkTarget }
    | .checkTarget =>
      if t.pathExists c.id then some { tree := t, call := c.goto (.cleanup false) }
      else some { tree := t, call := c.goto .rename }
    | .rename =>
      (t.rename c.staged c.id).map fun tree =>
        { tree, call := c.goto .syncBase, published := [c.toPublication] }
    | .syncBase => some { tree := t, call := c.goto (.cleanup true) }
    | .cleanup ok =>
      -- errors of the destructor are ignored
      some { tree := (t.rmdir c.staged).getD t, call := c.goto (.done ok) }
    | .mkdir | .done _ => none
  | .fail =>
    match c.pc with
    | .done _ => none
    | .mkdir => some { tree := t, call := c.goto (.done false) }
    | .cleanup ok => some { tree := t, call := c.goto (.done ok) }
    | _ => some { tree := t, call := c.goto (.cleanup false) }

/-! ### Revoking -/

inductive RevokePc where
  | lookup
  | readMetadata
  | rename
  | syncRenamed
  | remove
  | syncRemoved
  | done (ok : Bool)
  deriving DecidableEq, Repr

structure RevokeCall where
  id : String
  uid : ℕ
  pc : RevokePc := .lookup
  deriving DecidableEq, Repr

def RevokeCall.goto (c : RevokeCall) (pc : RevokePc) : RevokeCall := { c with pc }

def RevokeCall.target (c : RevokeCall) : String := ".revoked-" ++ c.id

/-- `revoke_at`. An approval that is not there is revoked already. -/
def RevokeCall.step (cfg : Config β) (t : Tree β) (c : RevokeCall) :
    Io → Option (Effect β RevokeCall)
  | .ok =>
    match c.pc with
    | .lookup =>
      if (validateId cfg c.id).isOk = false then some { tree := t, call := c.goto (.done false) }
      else if (t.entries.lookup c.id).isNone then some { tree := t, call := c.goto (.done true) }
      else some { tree := t, call := c.goto .readMetadata }
    | .readMetadata =>
      match readMetadataAt cfg t c.id c.uid with
      | .ok _ => some { tree := t, call := c.goto .rename }
      | .error _ => some { tree := t, call := c.goto (.done false) }
    | .rename =>
      (t.rename c.id c.target).map fun tree =>
        { tree, call := c.goto .syncRenamed, revoked := [c.id] }
    | .syncRenamed => some { tree := t, call := c.goto .remove }
    | .remove =>
      (t.rmdir c.target).map fun tree => { tree, call := c.goto .syncRemoved }
    | .syncRemoved => some { tree := t, call := c.goto (.done true) }
    | .done _ => none
  | .unlink file =>
    match c.pc with
    | .remove => some { tree := t.unlink c.target file, call := c }
    | _ => none
  | .fail =>
    match c.pc with
    | .done _ => none
    -- a failed clean-up is only logged
    | .remove => some { tree := t, call := c.goto (.done true) }
    | _ => some { tree := t, call := c.goto (.done false) }
  | _ => none

/-! ### All calls -/

inductive Call (β : Type) where
  | install (c : InstallCall β)
  | revoke (c : RevokeCall)

/-- `calls` are the calls that have not crashed. `used` are the identifiers that were drawn;
`published` and `revoked` are what the renames of the two operations did. -/
structure State (β : Type) where
  tree : Tree β
  calls : Store ℕ (Call β) := ∅
  next : ℕ := 0
  used : Finset String := ∅
  published : List (Publication β) := []
  revoked : List String := []

inductive Label (β : Type) where
  | install (contents : List β) (originalPath : String) (uid : ℕ) (id : String)
  | revoke (id : String) (uid : ℕ)
  | io (call : ℕ) (io : Io)
  | crash (call : ℕ)

/-- The name is that of the staging directory of a call that has not ended. -/
def State.busy (s : State β) (name : String) : Bool :=
  s.calls.entries.any fun e =>
    match e.2 with
    | .install c => c.staged = name && c.holds
    | .revoke _ => false

/-- The checks that `install_at` makes before it draws an identifier. -/
def installable (cfg : Config β) (t : Tree β) (contents : List β) : Bool :=
  (validatePrivate [] t.owner t.mode cfg.fileOwner).isOk && contents.length ≠ 0 &&
    contents.length ≤ maxScriptSize

def step (cfg : Config β) (s : State β) : Label β → Option (State β)
  | .install contents originalPath uid id =>
    if installable cfg s.tree contents = false then some s
    -- an identifier is drawn that was not drawn before
    else if canonicalId id = true ∧ id ∉ s.used then
      some { s with
        calls := s.calls.insert s.next (.install { id, uid, contents, originalPath })
        next := s.next + 1
        used := insert id s.used }
    else none
  | .revoke id uid =>
    some { s with calls := s.calls.insert s.next (.revoke { id, uid }), next := s.next + 1 }
  | .io call io =>
    match s.calls.lookup call with
    | some (.install c) =>
      (c.step cfg s.busy s.tree io).map fun e =>
        { s with
          tree := e.tree
          calls := s.calls.insert call (.install e.call)
          published := s.published ++ e.published }
    | some (.revoke c) =>
      (c.step cfg s.tree io).map fun e =>
        { s with
          tree := e.tree
          calls := s.calls.insert call (.revoke e.call)
          revoked := s.revoked ++ e.revoked }
    | none => none
  | .crash call => some { s with calls := s.calls.erase call }

/-- The calls on an approval directory that starts out empty. -/
def machine (cfg : Config β) (owner mode : ℕ) : Machine (State β) (Label β) where
  init := { tree := { owner, mode } }
  step := step cfg

end GlobalProtect.Hip.Approval
