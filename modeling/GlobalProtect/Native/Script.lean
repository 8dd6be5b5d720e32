import GlobalProtect.Lib.Checks
import GlobalProtect.Lib.Shell
import GlobalProtect.Lib.Utf8Decode

/-! # The configuration script of a native connection

The model of `VpnBuilder::resolve_script` in `openconnect/src/vpn.rs` and of the search for a default
script in `vpn_utils.rs`. The stored command line is given to `/bin/sh -c`, so what it runs is a
question of the shell (`Lib.Shell`).

A quoted path is one word, whatever is in it. But the shell takes a word without a slash for the
name of a command, and looks for it elsewhere: `script_path_runs_iff`. -/

namespace GlobalProtect.Native

open Lib
open Lib.Utf8 (Bytes encode decode?)

/-- What the process sees of its system. -/
structure System (ι : Type) where
  file : Bytes → Option ι
  isFile : ι → Bool
  /-- `IsExecutable::is_executable`. -/
  isExecutable : Bytes → Bool
  /-- `Path::canonicalize`: the components of an absolute path. -/
  canonicalize : Bytes → Option (List Bytes)
  currentExe : Option Bytes
  /-- The environment variable `GP_VPNC_SCRIPT`. -/
  gpVpncScript : Option Bytes

/-- The system interface takes no path with a NUL in it. -/
def System.lookup {ι : Type} (sys : System ι) (path : Bytes) : Option ι :=
  if 0 ∈ path then none else sys.file path

variable {ι : Type} (sys : System ι)

/-! ### The default script -/

def vpncScriptLocations : List String := [
  "/usr/local/libexec/gpclient/vpnc-script",
  "/usr/libexec/gpclient/vpnc-script",
  "/usr/lib/gpclient/vpnc-script",
  "/usr/local/share/vpnc-scripts/vpnc-script",
  "/usr/local/sbin/vpnc-script",
  "/usr/share/vpnc-scripts/vpnc-script",
  "/usr/sbin/vpnc-script",
  "/etc/vpnc/vpnc-script",
  "/etc/openconnect/vpnc-script",
  "/usr/libexec/vpnc-scripts/vpnc-script"]

def findExecutable (locations : List String) : Option String :=
  locations.find? fun location => sys.isExecutable (encode location.toList)

def slash : UInt8 := 0x2F

/-- A path that is absolute, a file, executable and UTF-8. -/
def configuredScript (path : Bytes) : Option String :=
  if path.head? = some slash ∧ (sys.lookup path).any sys.isFile ∧ sys.isExecutable path then
    (decode? path).map String.ofList
  else none

/-- An absolute path, from its components. -/
def absolutePath (components : List Bytes) : Bytes :=
  slash :: List.intercalate [slash] components

def installedVpncScript (executable : Bytes) : Option String := do
  let executable ← sys.canonicalize executable
  let _ ← executable.getLast?
  let bin := executable.dropLast
  let name ← bin.getLast?
  if name ≠ encode ['b', 'i', 'n'] then none
  else
    let tail := ["libexec", "gpclient", "vpnc-script"].map fun name => encode name.toList
    configuredScript sys (absolutePath (bin.dropLast ++ tail))

def findVpncScript : Option String :=
  match sys.gpVpncScript.filter (· ≠ []) with
  | some path => configuredScript sys path
  | none =>
    (sys.currentExe.bind (installedVpncScript sys)).orElse fun _ =>
      findExecutable sys vpncScriptLocations

/-! ### The command line -/

def shellQuotePath (path : String) : String :=
  String.ofList ('\'' :: (Text.replaceChar '\'' ['\'', '\\', '\'', '\''] path.toList ++ ['\'']))

/-- The fields of `VpnBuilder` that decide the command line. -/
structure VpnBuilder where
  networkConfigurationHandler : Bool := false
  script : Option String := none
  scriptIsPath : Bool := false
  scriptTun : Bool := false
  /-- The program of the tunnel is given with its identity. -/
  scriptTunLaunch : Bool := false

inductive Failure where
  /-- A `VpnError` with its text. -/
  | error (message : String)
  | panic
  deriving DecidableEq

/-- If the file exists, it has to be executable. -/
def checkExecutable (file : String) : Except Failure Unit :=
  let path := encode file.toList
  ensure (!((sys.lookup path).isSome && !sys.isExecutable path))
    (.error (file ++ " is not executable"))

/-- `CString::new`, with a panic where it fails. -/
def toCstring (value : String) : Except Failure String :=
  if '\x00' ∈ value.toList then .error .panic else .ok value

namespace VpnBuilder

variable (b : VpnBuilder)

/-- The script, given or found, before it is quoted. -/
def chooseScript : Except Failure String :=
  match b.script with
  | some script => do
    ensure (!(b.scriptIsPath && (sys.lookup (encode script.toList)).isNone))
      (.error ("VPN script does not exist: " ++ script))
    checkExecutable sys script
    pure script
  | none =>
    match findVpncScript sys with
    | some script => pure script
    | none => .error (.error "Failed to find vpnc-script")

def resolveScript : Except Failure (Option String) :=
  if b.networkConfigurationHandler then
    if b.script.isSome ∨ b.scriptTun then
      .error (.error "Network configuration handler conflicts with script options")
    else pure none
  else if b.scriptTunLaunch then pure none
  else do
    let script ← b.chooseScript sys
    some <$> toCstring
      (if b.scriptIsPath ∨ b.script.isNone then shellQuotePath script else script)

/-- The path of the script, if the script is one and not a command. -/
def pathScript : Option String :=
  match b.script with
  | some script => if b.scriptIsPath then some script else none
  | none => findVpncScript sys

end VpnBuilder

/-- The shell that is started, with any utilities of its own and any `PATH`. -/
def System.shell (utilities path : List String) : Shell.Search ι where
  utilities := utilities
  path := path
  file name := sys.lookup (encode name.toList)
  executable name := sys.isExecutable (encode name.toList)

/-! ### Results -/

theorem toList_shellQuotePath (path : String) :
    (shellQuotePath path).toList = Shell.quote path.toList := by
  rw [shellQuotePath, String.toList_ofList]
  rfl

theorem nul_mem_quote {text : List Char} (h : '\x00' ∈ text) : '\x00' ∈ Shell.quote text := by
  refine List.mem_cons_of_mem _ (List.mem_append_left _ ?_)
  exact List.mem_flatMap.mpr ⟨'\x00', h, List.mem_singleton.mpr rfl⟩

theorem toCstring_eq_ok {value line : String} :
    toCstring value = .ok line ↔ '\x00' ∉ value.toList ∧ value = line := by
  unfold toCstring
  split_ifs with h <;> simp [h]

variable {sys} {b : VpnBuilder} {p line : String}

theorem chooseScript_of_pathScript (h : b.pathScript sys = some p) {script : String}
    (hchoose : b.chooseScript sys = .ok script) :
    script = p ∧ (b.scriptIsPath = true ∨ b.script.isNone = true) := by
  unfold VpnBuilder.pathScript at h
  unfold VpnBuilder.chooseScript at hchoose
  cases hscript : b.script with
  | none =>
    rw [hscript] at h hchoose
    dsimp only at h hchoose
    rw [h] at hchoose
    exact ⟨(Except.ok.inj hchoose).symm, .inr rfl⟩
  | some given =>
    rw [hscript] at h hchoose
    dsimp only at h hchoose
    split_ifs at h with hpath
    cases h
    obtain ⟨-, -, hchoose⟩ := bind_eq_ok.mp hchoose
    obtain ⟨-, -, hchoose⟩ := bind_eq_ok.mp hchoose
    exact ⟨(Except.ok.inj hchoose).symm, .inl hpath⟩

theorem resolveScript_eq_ok (hline : b.resolveScript sys = .ok (some line)) :
    ∃ script, b.chooseScript sys = .ok script ∧ toCstring
      (if b.scriptIsPath ∨ b.script.isNone then shellQuotePath script else script) = .ok line := by
  unfold VpnBuilder.resolveScript at hline
  by_cases hhandler : b.networkConfigurationHandler = true
  · rw [if_pos hhandler] at hline
    split_ifs at hline
    cases hline
  rw [if_neg hhandler] at hline
  by_cases hlaunch : b.scriptTunLaunch = true
  · rw [if_pos hlaunch] at hline
    cases hline
  rw [if_neg hlaunch] at hline
  obtain ⟨script, hchoose, hline⟩ := bind_eq_ok.mp hline
  refine ⟨script, hchoose, ?_⟩
  cases hstored : toCstring
      (if b.scriptIsPath ∨ b.script.isNone then shellQuotePath script else script) with
  | error e =>
    rw [hstored] at hline
    cases hline
  | ok stored =>
    rw [hstored] at hline
    rw [Option.some.inj (Except.ok.inj hline)]

theorem resolveScript_of_pathScript (h : b.pathScript sys = some p)
    (hline : b.resolveScript sys = .ok (some line)) :
    '\x00' ∉ p.toList ∧ line = shellQuotePath p := by
  obtain ⟨script, hchoose, hline⟩ := resolveScript_eq_ok hline
  obtain ⟨rfl, hpath⟩ := chooseScript_of_pathScript h hchoose
  rw [if_pos hpath] at hline
  obtain ⟨hnul, rfl⟩ := toCstring_eq_ok.mp hline
  refine ⟨fun hmem => hnul ?_, rfl⟩
  rw [toList_shellQuotePath]
  exact nul_mem_quote hmem

theorem slash_mem_of_configuredScript {path : Bytes} (h : configuredScript sys path = some p) :
    '/' ∈ p.toList := by
  unfold configuredScript at h
  split_ifs at h with hpath
  obtain ⟨text, htext, rfl⟩ := Option.map_eq_some_iff.mp h
  obtain ⟨rest, rfl⟩ := List.head?_eq_some_iff.mp hpath.1
  unfold decode? at htext
  rw [Utf8.units_ascii (by decide)] at htext
  split_ifs at htext
  cases htext
  rw [String.toList_ofList, List.reduceOption_cons_of_some]
  exact List.mem_cons_self

theorem slash_mem_of_installed {executable : Bytes}
    (h : installedVpncScript sys executable = some p) : '/' ∈ p.toList := by
  unfold installedVpncScript at h
  obtain ⟨components, -, h⟩ := Option.bind_eq_some_iff.mp h
  obtain ⟨-, -, h⟩ := Option.bind_eq_some_iff.mp h
  obtain ⟨name, -, h⟩ := Option.bind_eq_some_iff.mp h
  split_ifs at h
  exact slash_mem_of_configuredScript h

theorem slash_mem_of_findVpncScript (h : findVpncScript sys = some p) : '/' ∈ p.toList := by
  have hlocations : ∀ location ∈ vpncScriptLocations, '/' ∈ location.toList := by
    decide
  unfold findVpncScript at h
  split at h
  · exact slash_mem_of_configuredScript h
  · cases hinstalled : sys.currentExe.bind (installedVpncScript sys) with
    | none =>
      have hfound : findExecutable sys vpncScriptLocations = some p := by
        rw [hinstalled] at h
        exact h
      exact hlocations p (List.mem_of_find?_eq_some hfound)
    | some script =>
      rw [hinstalled] at h
      cases h
      obtain ⟨executable, -, hscript⟩ := Option.bind_eq_some_iff.mp hinstalled
      exact slash_mem_of_installed hscript

theorem slash_mem_of_default (h : b.pathScript sys = some p) (hscript : b.script = none) :
    '/' ∈ p.toList := by
  unfold VpnBuilder.pathScript at h
  rw [hscript] at h
  exact slash_mem_of_findVpncScript h

/-- **Paths and the shell.** A quoted path is one word, the path. The command line of a script runs
the file at its path, whatever utilities and `PATH` the shell has, exactly if the script was searched
for or its path has a slash. -/
theorem script_path_runs_iff (sys : System ι) (b : VpnBuilder) :
    (∀ p : String, '\x00' ∉ p.toList →
      Shell.evaluate (shellQuotePath p).toList = some [.execute [p]]) ∧
    ∀ p line : String, b.pathScript sys = some p → b.resolveScript sys = .ok (some line) →
      ((∀ utilities path : List String, (sys.shell utilities path).runs line.toList =
          some [((sys.lookup (encode p.toList)).map .file, [])]) ↔
        b.script = none ∨ '/' ∈ p.toList) := by
  constructor
  · intro p hnul
    rw [toList_shellQuotePath, Shell.evaluate_quote hnul, String.ofList_toList]
  · intro p line hpath hline
    obtain ⟨hnul, rfl⟩ := resolveScript_of_pathScript hpath hline
    have hruns : ∀ utilities path : List String,
        (sys.shell utilities path).runs (shellQuotePath p).toList =
          some [((sys.shell utilities path).find p, [])] := by
      intro utilities path
      rw [toList_shellQuotePath, Shell.Search.runs_quote _ hnul, String.ofList_toList]
    constructor
    · intro hall
      by_contra hnot
      obtain ⟨-, hslash⟩ := not_or.mp hnot
      -- a shell that has a utility of this name
      have hfound := (hruns [p] []).symm.trans (hall [p] [])
      have hutility : (sys.shell [p] []).find p = some (.utility p) := by
        rw [Shell.Search.find, if_neg hslash]
        exact if_pos List.mem_cons_self
      rw [hutility] at hfound
      cases hfile : sys.lookup (encode p.toList) with
      | none => simp [hfile] at hfound
      | some f => simp [hfile] at hfound
    · intro hcases utilities path
      have hslash : '/' ∈ p.toList := hcases.elim (slash_mem_of_default hpath) id
      rw [hruns, Shell.Search.find, if_pos hslash]
      rfl

/-- A system with one file, a script at the path. -/
def System.ofScript (path : String) : System Unit where
  file p := if p = encode path.toList then some () else none
  isFile _ := true
  isExecutable p := p = encode path.toList
  canonicalize _ := none
  currentExe := none
  gpVpncScript := none

theorem script_path_runs_absolute :
    Shell.evaluate (shellQuotePath "/a b").toList = some [.execute ["/a b"]] ∧
    ∀ utilities path : List String,
      ((System.ofScript "/a b").shell utilities path).runs (shellQuotePath "/a b").toList =
        some [(some (.file ()), [])] :=
  let b : VpnBuilder := { script := some "/a b", scriptIsPath := true }
  ⟨(script_path_runs_iff (.ofScript "/a b") b).1 "/a b" (by decide),
    ((script_path_runs_iff (.ofScript "/a b") b).2 "/a b" (shellQuotePath "/a b") (by decide)
      (by decide)).mpr (.inr (by decide))⟩

/-- A script in the working directory, given by its name: the shell does not find it. -/
theorem script_name_not_run :
    (VpnBuilder.resolveScript (.ofScript "up") { script := some "up", scriptIsPath := true } =
      .ok (some "'up'")) ∧
    (System.ofScript "up").lookup (encode "up".toList) = some () ∧
    ((System.ofScript "up").shell [] ["/usr/bin"]).runs "'up'".toList = some [(none, [])] :=
  ⟨by decide, by decide, by decide⟩

end GlobalProtect.Native
