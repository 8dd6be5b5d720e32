import GlobalProtect.Lib.Decimal
import GlobalProtect.Lib.Text
import GlobalProtect.Lib.Url
import Mathlib.Logic.Function.Basic

/-! # The lock file of the service

`LockFile` (`gpapi`, `utils/lock_file.rs`), with which a starting service looks for one that is
already running. The file holds the process id and the port. Its parser reads both
(`fromFile_lock`), but the check for a running service takes the whole content for the port: what it
asks for is not a URL, and no running service is ever found (`running_never_found`). -/

namespace GlobalProtect.Utils

open Lib Lib.Text

/-! ### Files -/

inductive IoErrorKind where
  | notFound
  | permissionDenied
  | other
  deriving DecidableEq, Repr

inductive Stored where
  | absent
  | text (content : String)
  | unreadable (kind : IoErrorKind)
  deriving DecidableEq, Repr

structure Files where
  stored : String → Stored
  /-- Why a file cannot be written or removed. -/
  denied : String → Option IoErrorKind

namespace Files

def readToString (files : Files) (path : String) : Except IoErrorKind String :=
  match files.stored path with
  | .absent => .error .notFound
  | .text content => .ok content
  | .unreadable kind => .error kind

def put (files : Files) (path : String) (stored : Stored) : Except IoErrorKind Files :=
  match files.denied path with
  | some kind => .error kind
  | none => .ok { files with stored := Function.update files.stored path stored }

def write (files : Files) (path content : String) : Except IoErrorKind Files :=
  files.put path (.text content)

def removeFile (files : Files) (path : String) : Except IoErrorKind Files := files.put path .absent

theorem readToString_write {files files' : Files} {path content : String}
    (h : files.write path content = .ok files') : files'.readToString path = .ok content := by
  unfold write put at h
  split at h
  · cases h
  · obtain rfl := Except.ok.inj h
    simp [readToString]

end Files

/-! ### The content -/

inductive LockFileError where
  | ioError (kind : IoErrorKind)
  | invalidFormat
  | invalidPid
  | invalidPort
  deriving DecidableEq, Repr

structure LockInfo where
  pid : ℕ
  port : ℕ
  deriving DecidableEq, Repr

namespace LockInfo

def parseU32 (error : LockFileError) (part : List Char) : Except LockFileError ℕ :=
  match parseUnsigned (2 ^ 32 - 1) part with
  | some n => .ok n
  | none => .error error

def parse (content : String) : Except LockFileError LockInfo :=
  match (trim content.toList).splitOn ':' with
  | [] => .error .invalidFormat
  | first :: parts => do
    let pid ← parseU32 .invalidPid first
    match parts with
    | [] => .error .invalidFormat
    | second :: parts =>
      let port ← parseU32 .invalidPort second
      match parts with
      | [] => .ok { pid, port }
      | _ :: _ => .error .invalidFormat

def fromFile (files : Files) (path : String) : Except LockFileError LockInfo :=
  match files.readToString path with
  | .ok content => parse content
  | .error kind => .error (.ioError kind)

end LockInfo

/-! ### Locking -/

/-- What a client gets from the network: the status of an answer, if there is one. -/
structure HttpClient where
  url : UrlParser
  builds : Bool
  get : Url → Option ℕ

def HttpClient.send (client : HttpClient) (url : String) : Option ℕ :=
  (client.url.parse url).bind client.get

structure LockFile where
  path : String
  pid : UInt32

namespace LockFile

def lock (l : LockFile) (content : String) (files : Files) : Except IoErrorKind Files :=
  files.write l.path (toString l.pid.toNat ++ ":" ++ content)

def unlock (l : LockFile) (files : Files) : Except IoErrorKind Files :=
  match files.readToString l.path with
  | .ok content =>
    match LockInfo.parse content with
    | .ok info => if info.pid = l.pid.toNat then files.removeFile l.path else .ok files
    | .error _ => .ok files
  | .error .notFound => .ok files
  | .error kind => .error kind

def healthUrl (content : String) : String :=
  "http://127.0.0.1:" ++ String.ofList (trim content.toList) ++ "/health"

def checkHealth (l : LockFile) (client : HttpClient) (files : Files) : Bool :=
  match files.readToString l.path with
  | .ok content =>
    client.builds && (client.send (healthUrl content)).any fun status =>
      200 ≤ status && status < 300
  | .error _ => false

/-- The check at the start of a service. -/
def start (l : LockFile) (client : HttpClient) (files : Files) : Except String Unit :=
  if l.checkHealth client files then
    .error "Another instance of the service is already running"
  else .ok ()

end LockFile

/-! ### What a locked file says -/

/-- What `lock` writes. -/
def lockContent (pid port : UInt32) : String := toString pid.toNat ++ ":" ++ toString port.toNat

theorem toList_toString (n : ℕ) : (toString n).toList = Nat.toDigits 10 n := by
  rw [Nat.toString_eq_repr, Nat.toList_repr]

theorem toList_lockContent (pid port : UInt32) :
    (lockContent pid port).toList =
      Nat.toDigits 10 pid.toNat ++ ':' :: Nat.toDigits 10 port.toNat := by
  rw [lockContent, String.toList_append, String.toList_append, toList_toString, toList_toString]
  simp

theorem trim_lockContent (pid port : UInt32) :
    trim (lockContent pid port).toList = (lockContent pid port).toList := by
  have hdigit : ∀ n, ∀ c ∈ Nat.toDigits 10 n, isWhitespace c = false := by
    intro n c hc
    have := toNat_of_isDigit (isDigit_of_mem_toDigits hc)
    simp only [isWhitespace, Bool.or_eq_false_iff, Bool.and_eq_false_iff, decide_eq_false_iff_not]
    omega
  refine trim_eq_self fun c hc => ?_
  rw [toList_lockContent] at hc
  rcases List.mem_append.mp hc with hc | hc
  · exact hdigit _ c hc
  · rcases List.mem_cons.mp hc with rfl | hc
    · decide
    · exact hdigit _ c hc

theorem colon_notMem_toDigits (n : ℕ) : ':' ∉ Nat.toDigits 10 n := by
  intro h
  exact absurd (isDigit_of_mem_toDigits h) (by decide)

theorem parse_lockContent (pid port : UInt32) :
    LockInfo.parse (lockContent pid port) = .ok ⟨pid.toNat, port.toNat⟩ := by
  have hsplit : (lockContent pid port).toList.splitOn ':' =
      [Nat.toDigits 10 pid.toNat, Nat.toDigits 10 port.toNat] := by
    have hjoin : (lockContent pid port).toList =
        [':'].intercalate [Nat.toDigits 10 pid.toNat, Nat.toDigits 10 port.toNat] := by
      rw [toList_lockContent]
      simp [List.intercalate]
    rw [hjoin]
    exact List.splitOn_intercalate ':' (by simp [colon_notMem_toDigits]) (by simp)
  have hread : ∀ (n : UInt32) (error : LockFileError),
      LockInfo.parseU32 error (Nat.toDigits 10 n.toNat) = .ok n.toNat := by
    intro n error
    have hn : n.toNat ≤ 2 ^ 32 - 1 := Nat.le_sub_one_of_lt n.toNat_lt
    rw [LockInfo.parseU32, parseUnsigned_toDigits hn]
  simp only [LockInfo.parse, trim_lockContent, hsplit, hread]
  rfl

theorem toList_healthUrl {content : String} (h : trim content.toList = content.toList) :
    (LockFile.healthUrl content).toList =
      "http://127.0.0.1:".toList ++ (content.toList ++ "/health".toList) := by
  unfold LockFile.healthUrl
  rw [h, String.ofList_toList, String.toList_append, String.toList_append, List.append_assoc]

/-- The check asks for something that is not a URL. -/
theorem parse_healthUrl (parser : UrlParser) (pid port : UInt32) :
    parser.parse (LockFile.healthUrl (lockContent pid port)) = none := by
  refine parser.parse_refused _ ?_
  have htext : (LockFile.healthUrl (lockContent pid port)).toList =
      'h' :: 't' :: 't' :: 'p' :: ':' :: '/' :: '/' :: (['1', '2', '7', '.', '0', '.', '0', '.', '1'] ++
        ':' :: (Nat.toDigits 10 pid.toNat ++ ':' :: (Nat.toDigits 10 port.toNat ++
          ['/', 'h', 'e', 'a', 'l', 't', 'h']))) := by
    have hbefore : "http://127.0.0.1:".toList =
        ['h', 't', 't', 'p', ':', '/', '/', '1', '2', '7', '.', '0', '.', '0', '.', '1', ':'] := by
      decide
    have hafter : "/health".toList = ['/', 'h', 'e', 'a', 'l', 't', 'h'] := by decide
    rw [toList_healthUrl (trim_lockContent pid port), toList_lockContent, hbefore, hafter]
    simp only [List.append_assoc, List.cons_append, List.nil_append]
  have hdigit : ∀ n, ∀ c ∈ Nat.toDigits 10 n, c.isDigit = true ∧ endsAuthority c = false := by
    intro n c hc
    have hc := isDigit_of_mem_toDigits hc
    refine ⟨hc, Bool.eq_false_iff.mpr fun hend => ?_⟩
    have : ((c = '/' ∨ c = '?') ∨ c = '#') ∨ c = '\\' := by simpa [endsAuthority] using hend
    rcases this with ((rfl | rfl) | rfl) | rfl <;> exact absurd hc (by decide)
  have hauthority : (':' :: (Nat.toDigits 10 port.toNat ++
      ['/', 'h', 'e', 'a', 'l', 't', 'h'])).takeWhile (!endsAuthority ·) =
        ':' :: Nat.toDigits 10 port.toNat := by
    rw [List.takeWhile_cons_of_pos (by decide),
      List.takeWhile_append_of_pos fun c hc => by simp [(hdigit _ c hc).2]]
    exact congrArg _ (List.append_nil _)
  have hat : ∀ n, '@' ∉ Nat.toDigits 10 n := fun n h =>
    absurd (isDigit_of_mem_toDigits h) (by decide)
  rw [plainUrl, htext]
  refine plainRest_refused (List.all_eq_true.mp (by decide)) (hdigit _) (by decide) (by decide)
    (by decide) ?_
  rw [hauthority]
  simp [hat]

/-! ### A second service -/

variable {first other : LockFile} {port : UInt32} {files locked : Files}

section

variable (h : first.lock (toString port.toNat) files = .ok locked)
include h

theorem readToString_lock : locked.readToString first.path = .ok (lockContent first.pid port) :=
  Files.readToString_write h

theorem fromFile_lock :
    LockInfo.fromFile locked first.path = .ok ⟨first.pid.toNat, port.toNat⟩ := by
  rw [LockInfo.fromFile, readToString_lock h]
  exact parse_lockContent first.pid port

theorem unlock_other (hpath : other.path = first.path) (hpid : other.pid ≠ first.pid) :
    other.unlock locked = .ok locked := by
  have hne : ¬ first.pid.toNat = other.pid.toNat :=
    fun heq => hpid (UInt32.toNat_inj.mp heq).symm
  simp only [LockFile.unlock, hpath, readToString_lock h, parse_lockContent, if_neg hne]

theorem checkHealth_lock (hpath : other.path = first.path) (client : HttpClient) :
    other.checkHealth client locked = false := by
  simp only [LockFile.checkHealth, hpath, readToString_lock h, HttpClient.send, parse_healthUrl,
    Option.bind_none, Option.any_none, Bool.and_false]

end

theorem healthUrl_ne (pid port : UInt32) :
    LockFile.healthUrl (lockContent pid port) ≠
      "http://127.0.0.1:" ++ toString port.toNat ++ "/health" := by
  intro heq
  have hlist := congrArg String.toList heq
  rw [toList_healthUrl (trim_lockContent pid port), String.toList_append, String.toList_append,
    List.append_assoc, toList_lockContent, toList_toString] at hlist
  -- one colon more
  have hcolon := congrArg (List.count ':') (List.append_cancel_left hlist)
  have hnone : ∀ n, (Nat.toDigits 10 n).count ':' = 0 := fun n =>
    List.count_eq_zero.mpr (colon_notMem_toDigits n)
  simp [List.count_append, hnone] at hcolon

/-- **A running service is never found.** Its lock file is read correctly and kept by others, but
whatever the process id and the port are, the check asks for another URL than the health endpoint,
fails for every network, and does not refuse a second start. -/
theorem running_never_found (first : LockFile) (port : UInt32) (files locked : Files)
    (h : first.lock (toString port.toNat) files = .ok locked) (other : LockFile)
    (hpath : other.path = first.path) :
    LockInfo.fromFile locked other.path = .ok ⟨first.pid.toNat, port.toNat⟩ ∧
      (other.pid ≠ first.pid → other.unlock locked = .ok locked) ∧
      (∃ content, locked.readToString other.path = .ok content ∧
        LockFile.healthUrl content ≠ "http://127.0.0.1:" ++ toString port.toNat ++ "/health") ∧
      ∀ client : HttpClient,
        other.checkHealth client locked = false ∧ other.start client locked = .ok () := by
  refine ⟨hpath ▸ fromFile_lock h, unlock_other h hpath, ?_, fun client => ?_⟩
  · exact ⟨_, hpath ▸ readToString_lock h, healthUrl_ne first.pid port⟩
  · have hfalse := checkHealth_lock h hpath client
    exact ⟨hfalse, by rw [LockFile.start, hfalse]; rfl⟩

/-- No file yet, and every file can be written. -/
def noFiles : Files where
  stored _ := .absent
  denied _ := none

theorem running_never_found_at :
    ∃ locked, (LockFile.mk "/run/gpservice.lock" 1234).lock "8080" noFiles = .ok locked ∧
      LockInfo.fromFile locked "/run/gpservice.lock" = .ok ⟨1234, 8080⟩ := by
  have h : (LockFile.mk "/run/gpservice.lock" 1234).lock "8080" noFiles = .ok _ := rfl
  exact ⟨_, h, (running_never_found ⟨"/run/gpservice.lock", 1234⟩ 8080 noFiles _ h
    ⟨"/run/gpservice.lock", 5678⟩ rfl).1⟩

/-- Every request for a URL is answered with success, but this is not one. -/
theorem running_unseen :
    ∃ locked, (LockFile.mk "/run/gpservice.lock" 1234).lock "8080" noFiles = .ok locked ∧
      locked.readToString "/run/gpservice.lock" = .ok "1234:8080" ∧
      LockFile.healthUrl "1234:8080" = "http://127.0.0.1:1234:8080/health" ∧
      (LockFile.mk "/run/gpservice.lock" 5678).checkHealth
        ⟨UrlParser.plain, true, fun _ => some 200⟩ locked = false :=
  ⟨_, rfl, by decide +kernel, by decide +kernel, by decide +kernel⟩

end GlobalProtect.Utils
