import Mathlib.Data.List.Infix
import GlobalProtect.Lib.Unix.Paths

/-! # Trusted executables

The resolution of collector commands (`collection.rs` of `gpapi`), over the file systems of
`Lib.Unix`. With `requireRoot`, what is resolved and the directories of the command path are trusted
(`trusted_of_rootOwnedPath`): every directory on the way belongs to root and is sticky if others may
write it, and the last component may not be written by others at all, sticky or not. So users who
are not root can neither replace nor change them (`trusted_resolution`). -/

namespace GlobalProtect.Process

open Lib Lib.Unix

/-! ### The source -/

/-- `TOOL_DIRECTORIES`, on Linux. -/
def toolDirectoryNames : List (List String) :=
  [["usr", "bin"], ["usr", "sbin"], ["bin"], ["sbin"], ["usr", "local", "bin"],
    ["usr", "local", "sbin"], ["run", "current-system", "sw", "bin"]]

/-- `tool_directories`; `configured` is what `GP_COMMAND_PATH` lists. -/
def toolDirectories (configured : List Path) : List Path :=
  configured.filter (·.absolute) ++ toolDirectoryNames.map fun names => ⟨true, names⟩

def rootOwnedPath (fs : FileSystem) (path : List String) : Bool :=
  path.inits.all fun part =>
    match fs.symlinkMetadata part with
    | none => false
    | some metadata =>
      let writable := metadata.mode &&& 0o022 ≠ 0
      -- a root-owned sticky directory protects each root-owned descendant from replacement
      let protectedAncestor :=
        part ≠ path ∧ metadata.isDirectory ∧ metadata.mode &&& 0o1000 ≠ 0
      metadata.owner = 0 ∧ (¬writable ∨ protectedAncestor) ∧ ¬metadata.isSymlink

def resolveExecutable (fs : FileSystem) (cwd : List String) (path : Path) (requireRoot : Bool) :
    Option (List String) := do
  let resolved ← fs.canonicalize cwd path
  let metadata ← fs.metadata resolved
  if metadata.isFile && metadata.mode &&& 0o111 ≠ 0 &&
      (!requireRoot || rootOwnedPath fs resolved) then
    some resolved
  else none

def resolveInDirectories (fs : FileSystem) (cwd : List String) (name : Path)
    (directories : List Path) (requireRoot : Bool) : Option (List String) :=
  directories.findSome? fun directory => do
    let directory ← fs.canonicalize cwd directory
    if requireRoot && !rootOwnedPath fs directory then none
    else resolveExecutable fs cwd (Path.join ⟨true, directory⟩ name) requireRoot

/-- The directories that `command_path` joins. -/
def commandDirectories (fs : FileSystem) (cwd : List String) (configured : List Path)
    (requireRoot : Bool) : List (List String) :=
  (toolDirectories configured).filterMap fun directory => do
    let resolved ← fs.canonicalize cwd directory
    let metadata ← fs.metadata resolved
    if metadata.isDirectory && (!requireRoot || rootOwnedPath fs resolved) then some resolved
    else none

/-- `command_path`, as the list of directories; paths with a colon cannot be joined. -/
def commandPath (fs : FileSystem) (cwd : List String) (configured : List Path)
    (requireRoot : Bool) : Option (List (List String)) :=
  let directories := commandDirectories fs cwd configured requireRoot
  if directories.any (·.any (·.toList.contains ':')) then none else some directories

/-! ### What the check means -/

variable {fs fs' : FileSystem} {cwd q : List String}

theorem trusted_of_rootOwnedPath (hc : fs.Canonical q) (h : rootOwnedPath fs q = true) :
    fs.Trusted q := by
  have hpart (here rest : List String) (hq : q = here ++ rest) :
      ∃ a, fs.inodeAt here = some a ∧ a.owner = 0 ∧
        (a.writable = true → here ≠ q ∧ a.sticky = true) := by
    have hmem : here ∈ q.inits := (List.mem_inits here q).mpr ⟨rest, hq.symm⟩
    have hcheck := List.all_eq_true.mp h here hmem
    rw [hq] at hc
    rw [hc.symlinkMetadata_eq] at hcheck
    cases ha : fs.inodeAt here with
    | none => rw [ha] at hcheck; cases hcheck
    | some a =>
      rw [ha] at hcheck
      obtain ⟨howner, hsafe, -⟩ := of_decide_eq_true hcheck
      refine ⟨a, rfl, howner, fun hw => ?_⟩
      rcases hsafe with hno | ⟨hne, -, hsticky⟩
      · exact absurd (of_decide_eq_true hw) hno
      · exact ⟨hne, decide_eq_true hsticky⟩
  constructor
  case way =>
    intro here rest hq _
    obtain ⟨a, ha, howner, hsafe⟩ := hpart here rest hq
    exact ⟨a, ha, howner, fun hw => (hsafe hw).2⟩
  case ends =>
    obtain ⟨a, ha, howner, hsafe⟩ := hpart q [] (List.append_nil q).symm
    refine ⟨a, ha, howner, ?_⟩
    by_contra hw
    exact (hsafe (Bool.not_eq_false _ ▸ hw)).1 rfl

theorem canonical_trusted {path : Path} (hresolved : fs.canonicalize cwd path = some q)
    (hok : (!true || rootOwnedPath fs q) = true) : fs.Canonical q ∧ fs.Trusted q := by
  have hc : fs.Canonical q := FileSystem.canonicalizeFrom_canonical (by simp) hresolved
  have howned : rootOwnedPath fs q = true := by simpa using hok
  exact ⟨hc, trusted_of_rootOwnedPath hc howned⟩

theorem resolveExecutable_trusted {path : Path}
    (h : resolveExecutable fs cwd path true = some q) : fs.Canonical q ∧ fs.Trusted q := by
  obtain ⟨resolved, hresolved, h⟩ := Option.bind_eq_some_iff.mp h
  obtain ⟨a, -, h⟩ := Option.bind_eq_some_iff.mp h
  obtain ⟨hok, rfl⟩ := Option.ite_some_none_eq_some.mp h
  exact canonical_trusted hresolved (Bool.and_eq_true_iff.mp hok).2

theorem resolveInDirectories_trusted {name : Path} {directories : List Path}
    (h : resolveInDirectories fs cwd name directories true = some q) :
    fs.Canonical q ∧ fs.Trusted q := by
  obtain ⟨directory, -, h⟩ := List.exists_of_findSome?_eq_some h
  obtain ⟨resolved, -, h⟩ := Option.bind_eq_some_iff.mp h
  obtain ⟨-, h⟩ := Option.ite_none_left_eq_some.mp h
  exact resolveExecutable_trusted h

theorem commandPath_trusted {configured : List Path} {directories : List (List String)}
    (h : commandPath fs cwd configured true = some directories) (hq : q ∈ directories) :
    fs.Canonical q ∧ fs.Trusted q := by
  obtain ⟨-, h⟩ := Option.ite_none_left_eq_some.mp h
  cases h
  obtain ⟨directory, -, h⟩ := List.mem_filterMap.mp hq
  obtain ⟨resolved, hresolved, h⟩ := Option.bind_eq_some_iff.mp h
  obtain ⟨a, -, h⟩ := Option.bind_eq_some_iff.mp h
  obtain ⟨hok, rfl⟩ := Option.ite_some_none_eq_some.mp h
  exact canonical_trusted hresolved (Bool.and_eq_true_iff.mp hok).2

/-- **Trusted resolution**: after any operations of users who are not root, an executable that was
resolved for root is named by its path as before, and is unchanged; and a directory of the command
path is named by its path as before, and has the entries that it had. -/
theorem trusted_resolution (h : fs.unprivileged.Reachable fs') :
    (∀ path, resolveExecutable fs cwd path true = some q →
      ∃ i, fs.resolve q = some i ∧ fs'.resolve q = some i ∧
        fs'.inodes.lookup i = fs.inodes.lookup i) ∧
    (∀ name directories, resolveInDirectories fs cwd name directories true = some q →
      ∃ i, fs.resolve q = some i ∧ fs'.resolve q = some i ∧
        fs'.inodes.lookup i = fs.inodes.lookup i) ∧
    ∀ configured directories, commandPath fs cwd configured true = some directories →
      q ∈ directories → ∃ i, fs.resolve q = some i ∧ fs'.resolve q = some i ∧
        ∀ name, fs'.entry i name = fs.entry i name := by
  have hg := FileSystem.reachable_guarded h
  refine ⟨fun path hq => ?_, fun name directories hq => ?_, fun configured directories hd hq => ?_⟩
  · obtain ⟨hc, ht⟩ := resolveExecutable_trusted hq
    exact ht.resolve_kept hc hg
  · obtain ⟨hc, ht⟩ := resolveInDirectories_trusted hq
    exact ht.resolve_kept hc hg
  · obtain ⟨hc, ht⟩ := commandPath_trusted hd hq
    obtain ⟨i, hi, hi', hsame⟩ := ht.resolve_kept hc hg
    refine ⟨i, hi, hi', fun name => ?_⟩
    rw [FileSystem.entry, FileSystem.entry, hsame]

/-- A collector of root in a sticky directory that everybody may write, next to a file of a user. -/
def stickyExample : FileSystem where
  root := 0
  inodes := ([(0, ⟨0, 0, 0o755, .directory ([("tmp", 1)].map fun e => ⟨e.1, e.2⟩).toAList⟩),
    (1, ⟨0, 0, 0o1777,
      .directory ([("collector", 2), ("notes", 3)].map fun e => ⟨e.1, e.2⟩).toAList⟩),
    (2, ⟨0, 0, 0o755, .file [35, 33]⟩), (3, ⟨1000, 1000, 0o644, .file []⟩)].map
      fun e => ⟨e.1, e.2⟩).toAList

/-- The user may put their file in another place, and the collector stays. -/
theorem trusted_resolution_sticky :
    ∃ fs', stickyExample.unprivileged.Reachable fs' ∧ fs'.entry 1 "notes" = none ∧
      ∃ i, stickyExample.resolve ["tmp", "collector"] = some i ∧
        fs'.resolve ["tmp", "collector"] = some i ∧
        fs'.inodes.lookup i = stickyExample.inodes.lookup i := by
  have hresolved : resolveExecutable stickyExample [] ⟨true, ["tmp", ".", "collector"]⟩ true =
      some ["tmp", "collector"] := by decide +kernel
  obtain ⟨fs', hfs', hmoved⟩ := Machine.Reachable.of_run (M := stickyExample.unprivileged)
    [(⟨1000, [1000], by decide⟩, .rename 1 "notes" 1 "moved")]
    (p := fun fs => fs.entry 1 "notes" = none) (by decide +kernel)
  exact ⟨fs', hfs', of_decide_eq_true hmoved, (trusted_resolution hfs').1 _ hresolved⟩

end GlobalProtect.Process
