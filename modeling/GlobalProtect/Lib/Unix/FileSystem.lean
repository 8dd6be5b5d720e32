import Mathlib.Data.Nat.Bitwise
import GlobalProtect.Lib.Machine
import GlobalProtect.Lib.Store

/-! # A Unix file system

Inodes with owners, groups and modes, and what users who are not root may do to them: there are no
access control lists, and these users have no capabilities. A user acts on the inodes of
directories, as through an open descriptor, so whether the path to a directory may be searched does
not matter.

* `Guarded`: the inodes of root are kept. Owner and mode stay. What others may not write stays as it
  is. A sticky directory keeps the entries that belong to root.
* `step_guarded`: every operation of a user who is not root does so. `Guarded.setEntry` is the case
  of the operations on directories.
* `reachable_guarded`: and so does any number of them. -/

namespace GlobalProtect.Lib.Unix

structure Path where
  absolute : Bool
  components : List String
  deriving DecidableEq, Repr

inductive Content where
  | file (data : List UInt8)
  | directory (entries : Store String ℕ)
  | symlink (target : Path)
  deriving DecidableEq

structure Inode where
  owner : ℕ
  group : ℕ
  mode : ℕ
  content : Content
  deriving DecidableEq

namespace Inode

def entry (a : Inode) (name : String) : Option ℕ :=
  match a.content with
  | .directory entries => entries.lookup name
  | _ => none

def isFile (a : Inode) : Bool :=
  match a.content with
  | .file _ => true
  | _ => false

def isDirectory (a : Inode) : Bool :=
  match a.content with
  | .directory _ => true
  | _ => false

def isSymlink (a : Inode) : Bool :=
  match a.content with
  | .symlink _ => true
  | _ => false

/-- A directory without entries. -/
def isEmpty (a : Inode) : Bool :=
  match a.content with
  | .directory entries => entries.entries.isEmpty
  | _ => false

/-- Somebody other than the owner may write. -/
def writable (a : Inode) : Bool := a.mode &&& 0o022 ≠ 0

def sticky (a : Inode) : Bool := a.mode &&& 0o1000 ≠ 0

end Inode

structure FileSystem where
  root : ℕ
  inodes : Store ℕ Inode
  deriving DecidableEq

/-- A user who is not root. -/
structure User where
  uid : ℕ
  groups : List ℕ
  unprivileged : uid ≠ 0

/-- The user has these permissions: 4 to read, 2 to write, 1 to search. -/
def User.access (u : User) (a : Inode) (bits : ℕ) : Bool :=
  let shift := if u.uid = a.owner then 6 else if a.group ∈ u.groups then 3 else 0
  (a.mode >>> shift) &&& bits = bits

/-- The user may add entries to the directory. -/
def User.mayAdd (u : User) (d : Inode) : Bool := u.access d 0o3

/-- The user may take the entry that names `a` from the directory `d`. -/
def User.mayRemove (u : User) (d a : Inode) : Bool :=
  u.mayAdd d && (!d.sticky || u.uid = a.owner || u.uid = d.owner)

/-! ### Operations -/

/-- What is created. -/
inductive New where
  | file (data : List UInt8)
  | directory
  | symlink (target : Path)

def New.content : New → Content
  | .file data => .file data
  | .directory => .directory ∅
  | .symlink target => .symlink target

/-- `unlink` is also `rmdir`. -/
inductive Operation where
  | create (dir : ℕ) (name : String) (inode group mode : ℕ) (new : New)
  | write (inode : ℕ) (data : List UInt8)
  | rename (dir : ℕ) (name : String) (dir' : ℕ) (name' : String)
  | unlink (dir : ℕ) (name : String)
  | link (inode dir : ℕ) (name : String)
  | chmod (inode mode : ℕ)

namespace FileSystem

variable (fs : FileSystem)

def entry (dir : ℕ) (name : String) : Option ℕ := (fs.inodes.lookup dir).bind (·.entry name)

def put (i : ℕ) (a : Inode) : FileSystem := { fs with inodes := fs.inodes.insert i a }

/-- Sets or takes away an entry of what is a directory. -/
def setEntry (dir : ℕ) (name : String) (target : Option ℕ) : FileSystem :=
  match fs.inodes.lookup dir with
  | some d =>
    match d.content, target with
    | .directory entries, some i =>
      fs.put dir { d with content := .directory (entries.insert name i) }
    | .directory entries, none =>
      fs.put dir { d with content := .directory (entries.erase name) }
    | _, _ => fs
  | none => fs

/-- The directory and what the entry names. -/
def find (dir : ℕ) (name : String) : Option (Inode × ℕ × Inode) :=
  (fs.inodes.lookup dir).bind fun d => (d.entry name).bind fun i =>
    (fs.inodes.lookup i).map fun a => (d, i, a)

/-- The user may put a new entry under the name. -/
def vacant (u : User) (dir : ℕ) (name : String) : Bool :=
  match fs.inodes.lookup dir with
  | some d => d.isDirectory && u.mayAdd d && (d.entry name).isNone
  | none => false

/-- The user may put `a` under the name, in place of what is there: an empty directory gives way to
a directory, and anything else to what is not one. -/
def replaceable (u : User) (a : Inode) (dir : ℕ) (name : String) : Bool :=
  match fs.find dir name with
  | some (d, _, b) => u.mayRemove d b && if a.isDirectory then b.isEmpty else !b.isDirectory
  | none => fs.vacant u dir name

/-- What an operation of a user does, if it is permitted. Of a rename that would move a directory
below itself, more is permitted here than by a kernel. -/
def step : User × Operation → Option FileSystem
  | (u, .create dir name inode group mode new) =>
    if fs.vacant u dir name ∧ (fs.inodes.lookup inode).isNone then
      let created := fs.put inode { owner := u.uid, group, mode, content := new.content }
      some (created.setEntry dir name (some inode))
    else none
  | (u, .write inode data) =>
    match fs.inodes.lookup inode with
    | some a =>
      if a.isFile ∧ u.access a 0o2 then some (fs.put inode { a with content := .file data })
      else none
    | none => none
  | (u, .rename dir name dir' name') =>
    match fs.find dir name with
    | some (d, i, a) =>
      -- the entry `..` of a directory that gets another parent is written
      if u.mayRemove d a ∧ (a.isDirectory → dir = dir' ∨ u.access a 0o2) ∧
          fs.replaceable u a dir' name' then
        -- two names of one file stay as they are
        if fs.entry dir' name' = some i then some fs
        else some ((fs.setEntry dir name none).setEntry dir' name' (some i))
      else none
    | none => none
  | (u, .unlink dir name) =>
    match fs.find dir name with
    | some (d, _, a) =>
      if u.mayRemove d a ∧ (a.isDirectory → a.isEmpty) then some (fs.setEntry dir name none)
      else none
    | none => none
  | (u, .link inode dir name) =>
    match fs.inodes.lookup inode with
    | some a =>
      if a.isDirectory = false ∧ fs.vacant u dir name then
        some (fs.setEntry dir name (some inode))
      else none
    | none => none
  | (u, .chmod inode mode) =>
    match fs.inodes.lookup inode with
    | some a => if u.uid = a.owner then some (fs.put inode { a with mode }) else none
    | none => none

/-- The operations of users who are not root, from a file system on. -/
def unprivileged : Machine FileSystem (User × Operation) where
  init := fs
  step := FileSystem.step

end FileSystem

/-! ### Permissions -/

section Permissions

variable {u : User} {d a : Inode}

theorem User.writable_of_access {bits : ℕ} (h : u.access d bits = true)
    (hbits : bits.testBit 1 = true) (hroot : d.owner = 0) : d.writable = true := by
  have howner : u.uid ≠ d.owner := by rw [hroot]; exact u.unprivileged
  have hmode : (d.mode >>> (if d.group ∈ u.groups then 3 else 0)) &&& bits = bits := by
    simpa [User.access, howner] using h
  have hbit := congrArg (fun m => m.testBit 1) hmode
  simp only [Nat.testBit_and, Nat.testBit_shiftRight, hbits, Bool.and_true] at hbit
  rw [Inode.writable, decide_eq_true_eq]
  intro hzero
  -- neither of the two bits is set
  have hnone (i : ℕ) (hi : Nat.testBit 0o022 i = true) : d.mode.testBit i = false := by
    have hand := congrArg (fun m => m.testBit i) hzero
    simpa [Nat.testBit_and, hi] using hand
  split_ifs at hbit
  · rw [hnone 4 (by decide)] at hbit; cases hbit
  · rw [hnone 1 (by decide)] at hbit; cases hbit

theorem User.writable_of_mayAdd (h : u.mayAdd d = true) (hroot : d.owner = 0) :
    d.writable = true :=
  User.writable_of_access h (by decide) hroot

theorem User.not_mayRemove (hroot : d.owner = 0) (hsticky : d.sticky = true) (ha : a.owner = 0) :
    u.mayRemove d a = false := by
  simp [User.mayRemove, hroot, hsticky, ha, u.unprivileged]

end Permissions

namespace FileSystem

variable {fs fs₁ fs₂ : FileSystem}

/-! ### Entries -/

theorem lookup_put_ne {i k : ℕ} {a : Inode} (h : k ≠ i) :
    (fs.put i a).inodes.lookup k = fs.inodes.lookup k := AList.lookup_insert_ne h

theorem setEntry_root (dir : ℕ) (name : String) (target : Option ℕ) :
    (fs.setEntry dir name target).root = fs.root := by
  unfold setEntry
  split
  · split <;> rfl
  · rfl

theorem lookup_setEntry_ne {dir k : ℕ} {name : String} {target : Option ℕ} (h : k ≠ dir) :
    (fs.setEntry dir name target).inodes.lookup k = fs.inodes.lookup k := by
  unfold setEntry
  split
  · split
    · exact lookup_put_ne h
    · exact lookup_put_ne h
    · rfl
  · rfl

theorem lookup_setEntry {dir : ℕ} {name : String} {d : Inode}
    (hd : fs.inodes.lookup dir = some d) (target : Option ℕ) :
    ∃ d', (fs.setEntry dir name target).inodes.lookup dir = some d' ∧ d'.owner = d.owner ∧
      d'.mode = d.mode ∧ ∀ n, n ≠ name → d'.entry n = d.entry n := by
  cases hc : d.content with
  | directory entries =>
    cases target with
    | some i =>
      simp only [setEntry, hd, hc]
      refine ⟨_, AList.lookup_insert _, rfl, rfl, fun n hn => ?_⟩
      simp only [Inode.entry, hc]
      exact AList.lookup_insert_ne hn
    | none =>
      simp only [setEntry, hd, hc]
      refine ⟨_, AList.lookup_insert _, rfl, rfl, fun n hn => ?_⟩
      simp only [Inode.entry, hc]
      exact AList.lookup_erase_ne hn
  | file data | symlink link =>
    simp only [setEntry, hd, hc]
    exact ⟨d, rfl, rfl, rfl, fun _ _ => rfl⟩

theorem find_eq_some {dir i : ℕ} {name : String} {d a : Inode}
    (h : fs.find dir name = some (d, i, a)) :
    fs.inodes.lookup dir = some d ∧ d.entry name = some i ∧ fs.inodes.lookup i = some a := by
  obtain ⟨d', hd, h⟩ := Option.bind_eq_some_iff.mp h
  obtain ⟨i', hi, h⟩ := Option.bind_eq_some_iff.mp h
  obtain ⟨a', ha, h⟩ := Option.map_eq_some_iff.mp h
  obtain ⟨rfl, rfl, rfl⟩ : d' = d ∧ i' = i ∧ a' = a := by simpa using h
  exact ⟨hd, hi, ha⟩

/-! ### What root owns -/

/-- An inode of root, before and after: `fs` is the file system before. -/
structure Kept (fs : FileSystem) (a a' : Inode) : Prop where
  owner : a'.owner = a.owner
  mode : a'.mode = a.mode
  same : a.writable = false → a' = a
  entry : a.sticky = true → ∀ n i b, a.entry n = some i → fs.inodes.lookup i = some b →
    b.owner = 0 → a'.entry n = some i

theorem Kept.refl (fs : FileSystem) (a : Inode) : Kept fs a a :=
  ⟨rfl, rfl, fun _ => rfl, fun _ _ _ _ h _ _ => h⟩

/-- Everything that root owns was kept. -/
structure Guarded (fs fs' : FileSystem) : Prop where
  root : fs'.root = fs.root
  inode : ∀ i a, fs.inodes.lookup i = some a → a.owner = 0 →
    ∃ a', fs'.inodes.lookup i = some a' ∧ Kept fs a a'

theorem Guarded.refl (fs : FileSystem) : Guarded fs fs :=
  ⟨rfl, fun _ a ha _ => ⟨a, ha, Kept.refl fs a⟩⟩

theorem Guarded.trans (h : Guarded fs fs₁) (h' : Guarded fs₁ fs₂) : Guarded fs fs₂ := by
  refine ⟨h'.root.trans h.root, fun i a ha hroot => ?_⟩
  obtain ⟨a₁, ha₁, hk⟩ := h.inode i a ha hroot
  obtain ⟨a₂, ha₂, hk'⟩ := h'.inode i a₁ ha₁ (hk.owner.trans hroot)
  refine ⟨a₂, ha₂, hk'.owner.trans hk.owner, hk'.mode.trans hk.mode, fun hw => ?_,
    fun hsticky n j b hn hb hbroot => ?_⟩
  · have hsame := hk.same hw
    exact (hk'.same (by rw [hsame]; exact hw)).trans hsame
  · obtain ⟨b₁, hb₁, hkb⟩ := h.inode j b hb hbroot
    have hsticky₁ : a₁.sticky = true := by rw [Inode.sticky, hk.mode]; exact hsticky
    exact hk'.entry hsticky₁ n j b₁ (hk.entry hsticky n j b hn hb hbroot) hb₁
      (hkb.owner.trans hbroot)

/-- The user may change what stands under the name: if the directory belongs to root, others may
write to it, and if it is sticky the entry does not belong to root. -/
def Open (fs : FileSystem) (dir : ℕ) (name : String) : Prop :=
  ∀ d, fs.inodes.lookup dir = some d → d.owner = 0 → d.writable = true ∧
    (d.sticky = true → ∀ i b, d.entry name = some i → fs.inodes.lookup i = some b → b.owner ≠ 0)

theorem open_of_mayRemove {u : User} {dir i : ℕ} {name : String} {d a : Inode}
    (hfind : fs.find dir name = some (d, i, a)) (h : u.mayRemove d a = true) :
    fs.Open dir name := by
  intro d' hd' hroot
  obtain ⟨hd, hi, ha⟩ := find_eq_some hfind
  obtain rfl := Option.some.inj (hd.symm.trans hd')
  have hadd : u.mayAdd d = true := (Bool.and_eq_true_iff.mp h).1
  refine ⟨User.writable_of_mayAdd hadd hroot, fun hsticky j b hj hb hbroot => ?_⟩
  obtain rfl := Option.some.inj (hi.symm.trans hj)
  obtain rfl := Option.some.inj (ha.symm.trans hb)
  rw [User.not_mayRemove hroot hsticky hbroot] at h
  cases h

theorem open_of_vacant {u : User} {dir : ℕ} {name : String} (h : fs.vacant u dir name = true) :
    fs.Open dir name := by
  intro d hd hroot
  simp only [vacant, hd, Bool.and_eq_true, Option.isNone_iff_eq_none] at h
  obtain ⟨⟨-, hadd⟩, hnone⟩ := h
  refine ⟨User.writable_of_mayAdd hadd hroot, fun _ i b hi => ?_⟩
  rw [hnone] at hi
  cases hi

theorem open_of_replaceable {u : User} {a : Inode} {dir : ℕ} {name : String}
    (h : fs.replaceable u a dir name = true) : fs.Open dir name := by
  unfold replaceable at h
  split at h
  · next d i b hfind => exact open_of_mayRemove hfind (Bool.and_eq_true_iff.mp h).1
  · exact open_of_vacant h

theorem Guarded.setEntry (h : Guarded fs fs₁) {dir : ℕ} {name : String} (target : Option ℕ)
    (hopen : fs.Open dir name) : Guarded fs (fs₁.setEntry dir name target) := by
  refine ⟨(setEntry_root dir name target).trans h.root, fun k a ha hroot => ?_⟩
  obtain ⟨a₁, ha₁, hk⟩ := h.inode k a ha hroot
  by_cases hkd : k = dir
  · subst hkd
    obtain ⟨hwritable, hentry⟩ := hopen a ha hroot
    obtain ⟨a₂, ha₂, howner, hmode, hothers⟩ := lookup_setEntry ha₁ target
    refine ⟨a₂, ha₂, howner.trans hk.owner, hmode.trans hk.mode, fun hw => ?_,
      fun hsticky n i b hn hb hbroot => ?_⟩
    · rw [hwritable] at hw; cases hw
    · by_cases hname : n = name
      · subst hname
        exact absurd hbroot (hentry hsticky i b hn hb)
      · rw [hothers n hname]
        exact hk.entry hsticky n i b hn hb hbroot
  · exact ⟨a₁, (lookup_setEntry_ne hkd).trans ha₁, hk⟩

theorem Guarded.put {i : ℕ} {a' : Inode}
    (hi : ∀ a, fs.inodes.lookup i = some a → a.owner = 0 → Kept fs a a') :
    Guarded fs (fs.put i a') := by
  refine ⟨rfl, fun k a ha hroot => ?_⟩
  by_cases hki : k = i
  · subst hki
    exact ⟨a', AList.lookup_insert _, hi a ha hroot⟩
  · exact ⟨a, (lookup_put_ne hki).trans ha, Kept.refl fs a⟩

/-- **What a user who is not root does keeps what root owns.** -/
theorem step_guarded {op : User × Operation} (h : fs.step op = some fs₁) : Guarded fs fs₁ := by
  obtain ⟨u, op⟩ := op
  cases op with
  | create dir name inode group mode new =>
    obtain ⟨⟨hvacant, hnew⟩, rfl⟩ := Option.ite_some_none_eq_some.mp h
    refine Guarded.setEntry (Guarded.put fun a ha => ?_) _ (open_of_vacant hvacant)
    rw [Option.isNone_iff_eq_none.mp hnew] at ha
    cases ha
  | write inode data =>
    simp only [step] at h
    split at h
    · next a ha =>
      obtain ⟨⟨hfile, haccess⟩, rfl⟩ := Option.ite_some_none_eq_some.mp h
      refine Guarded.put fun b hb hroot => ?_
      obtain rfl := Option.some.inj (ha.symm.trans hb)
      have hwritable := User.writable_of_access haccess (by decide) hroot
      refine ⟨rfl, rfl, fun hw => ?_, fun _ n i b hn => ?_⟩
      · rw [hwritable] at hw; cases hw
      · -- a file has no entries
        unfold Inode.isFile at hfile
        unfold Inode.entry at hn
        cases hc : a.content <;> simp [hc] at hfile hn
    · cases h
  | rename dir name dir' name' =>
    simp only [step] at h
    split at h
    · next d i a hfind =>
      obtain ⟨⟨hremove, -, hreplace⟩, h⟩ := Option.ite_none_right_eq_some.mp h
      split_ifs at h <;> cases h
      · exact Guarded.refl fs
      · exact ((Guarded.refl fs).setEntry none (open_of_mayRemove hfind hremove)).setEntry _
          (open_of_replaceable hreplace)
    · cases h
  | unlink dir name =>
    simp only [step] at h
    split at h
    · next d i a hfind =>
      obtain ⟨⟨hremove, -⟩, rfl⟩ := Option.ite_some_none_eq_some.mp h
      exact (Guarded.refl fs).setEntry none (open_of_mayRemove hfind hremove)
    · cases h
  | link inode dir name =>
    simp only [step] at h
    split at h
    · obtain ⟨⟨-, hvacant⟩, rfl⟩ := Option.ite_some_none_eq_some.mp h
      exact (Guarded.refl fs).setEntry _ (open_of_vacant hvacant)
    · cases h
  | chmod inode mode =>
    simp only [step] at h
    split at h
    · next a ha =>
      obtain ⟨howner, rfl⟩ := Option.ite_some_none_eq_some.mp h
      refine Guarded.put fun b hb hroot => ?_
      obtain rfl := Option.some.inj (ha.symm.trans hb)
      exact absurd (howner.trans hroot) u.unprivileged
    · cases h

/-- **And so do all of them, in any order.** -/
theorem reachable_guarded (h : fs.unprivileged.Reachable fs₁) : Guarded fs fs₁ :=
  h.invariant (Guarded.refl fs) fun _ _ _ _ hg hs => hg.trans (step_guarded hs)

end FileSystem

end GlobalProtect.Lib.Unix
