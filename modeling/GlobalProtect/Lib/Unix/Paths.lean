import GlobalProtect.Lib.Unix.FileSystem

/-! # Paths

How a path names a file: `.` and `..` are taken away, symbolic links are followed, at most forty of
them. What comes out is a list of names from the root (`canonicalize`).

* `canonicalizeFrom_canonical`: it is canonical. Walking along the names meets no link.
* `Canonical.canonicalizeFrom_eq`: a canonical path is its own result.
* `Trusted.kept`: a path whose directories belong to root and are sticky where others may write them,
  and whose end belongs to root and is not writable to others, names the same inode, unchanged,
  whatever users who are not root have done. -/

namespace GlobalProtect.Lib.Unix

def Path.join (p q : Path) : Path :=
  if q.absolute then q else ⟨p.absolute, p.components ++ q.components⟩

namespace FileSystem

/-- The inode at the end of the names, from the inode `i` on. -/
def walk (fs : FileSystem) : ℕ → List String → Option ℕ
  | i, [] => some i
  | i, name :: names => (fs.entry i name).bind fun j => fs.walk j names

def inodeAt (fs : FileSystem) (names : List String) : Option Inode :=
  (fs.walk fs.root names).bind fs.inodes.lookup

/-- Follows the components `todo` from the directory `here`, and goes on as `next` says at a link.
-/
def expand (fs : FileSystem) (next : List String → List String → Option (List String)) :
    List String → List String → Option (List String)
  | here, [] => (fs.inodeAt here).bind fun a => if a.isDirectory then some here else none
  | here, name :: todo =>
    if name = "." then fs.expand next here todo
    else if name = ".." then fs.expand next here.dropLast todo
    else
      (fs.inodeAt (here ++ [name])).bind fun a =>
        match a.content with
        | .symlink target =>
          next (if target.absolute then [] else here) (target.components ++ todo)
        | .directory _ => fs.expand next (here ++ [name]) todo
        | .file _ => if todo = [] then some (here ++ [name]) else none

/-- Follows at most that many links. -/
def canonicalizeFrom (fs : FileSystem) : ℕ → List String → List String → Option (List String)
  | 0 => fs.expand fun _ _ => none
  | links + 1 => fs.expand (fs.canonicalizeFrom links)

def maxLinks : ℕ := 40

/-- `realpath`; the names of the working directory are those that lead to it. -/
def canonicalize (fs : FileSystem) (cwd : List String) (p : Path) : Option (List String) :=
  fs.canonicalizeFrom maxLinks [] (if p.absolute then p.components else cwd ++ p.components)

/-- The inode that an absolute path names. -/
def resolve (fs : FileSystem) (names : List String) : Option ℕ :=
  (fs.canonicalizeFrom maxLinks [] names).bind (fs.walk fs.root)

/-- `stat`. -/
def metadata (fs : FileSystem) (names : List String) : Option Inode :=
  (fs.canonicalizeFrom maxLinks [] names).bind fs.inodeAt

/-- `lstat`: links are followed on the way, but not at the end. -/
def symlinkMetadata (fs : FileSystem) (names : List String) : Option Inode :=
  match names.getLast? with
  | none => fs.inodeAt []
  | some last =>
    (fs.canonicalizeFrom maxLinks [] names.dropLast).bind fun here => fs.inodeAt (here ++ [last])

/-! ### Walking -/

variable {fs fs' : FileSystem}

theorem walk_concat (i : ℕ) (names : List String) (name : String) :
    fs.walk i (names ++ [name]) = (fs.walk i names).bind fun j => fs.entry j name := by
  induction names generalizing i with
  | nil =>
    cases h : fs.entry i name with
    | none => simp [walk, h]
    | some j => simp [walk, h]
  | cons n names ih =>
    cases h : fs.entry i n with
    | none => simp [walk, h]
    | some j => simp only [List.cons_append, walk, h, Option.bind_some, ih]

theorem inodeAt_eq_some {names : List String} {a : Inode} :
    fs.inodeAt names = some a ↔ ∃ i, fs.walk fs.root names = some i ∧ fs.inodes.lookup i = some a :=
  Option.bind_eq_some_iff

theorem inodeAt_of_concat {names : List String} {name : String} {a : Inode}
    (h : fs.inodeAt (names ++ [name]) = some a) :
    ∃ d i, fs.inodeAt names = some d ∧ d.isDirectory = true ∧ d.entry name = some i ∧
      fs.inodes.lookup i = some a := by
  obtain ⟨i, hi, ha⟩ := inodeAt_eq_some.mp h
  rw [walk_concat] at hi
  obtain ⟨k, hk, hi⟩ := Option.bind_eq_some_iff.mp hi
  obtain ⟨d, hd, hentry⟩ := Option.bind_eq_some_iff.mp hi
  refine ⟨d, i, inodeAt_eq_some.mpr ⟨k, hk, hd⟩, ?_, hentry, ha⟩
  unfold Inode.entry at hentry
  unfold Inode.isDirectory
  cases hc : d.content <;> simp [hc] at hentry ⊢

theorem inodeAt_of_append {names rest : List String} {a : Inode} (hrest : rest ≠ [])
    (h : fs.inodeAt (names ++ rest) = some a) :
    ∃ d, fs.inodeAt names = some d ∧ d.isDirectory = true := by
  induction rest using List.reverseRecOn generalizing a with
  | nil => exact absurd rfl hrest
  | append_singleton rest name ih =>
    rw [← List.append_assoc] at h
    obtain ⟨d, i, hd, hdir, -⟩ := inodeAt_of_concat h
    by_cases hnil : rest = []
    · rw [hnil, List.append_nil] at hd
      exact ⟨d, hd, hdir⟩
    · exact ih hnil hd

/-! ### Canonical paths -/

/-- The names lead to something without links and without `.` and `..`. -/
structure Canonical (fs : FileSystem) (names : List String) : Prop where
  plain : ∀ n ∈ names, n ≠ "." ∧ n ≠ ".."
  ends : ∃ a, fs.inodeAt names = some a ∧ a.isSymlink = false ∧ (a.isDirectory = true ∨ names ≠ [])

theorem Inode.not_symlink_of_directory {a : Inode} (h : a.isDirectory = true) :
    a.isSymlink = false := by
  unfold Inode.isDirectory at h
  unfold Inode.isSymlink
  cases hc : a.content <;> simp [hc] at h ⊢

theorem expand_canonical {next : List String → List String → Option (List String)}
    (hnext : ∀ here todo q, (∀ n ∈ here, n ≠ "." ∧ n ≠ "..") → next here todo = some q →
      Canonical fs q) {here todo q : List String} (hplain : ∀ n ∈ here, n ≠ "." ∧ n ≠ "..")
    (h : fs.expand next here todo = some q) : Canonical fs q := by
  induction todo generalizing here with
  | nil =>
    obtain ⟨a, ha, h⟩ := Option.bind_eq_some_iff.mp h
    obtain ⟨hdir, rfl⟩ := Option.ite_some_none_eq_some.mp h
    exact ⟨hplain, a, ha, Inode.not_symlink_of_directory hdir, Or.inl hdir⟩
  | cons name todo ih =>
    unfold expand at h
    by_cases hdot : name = "."
    · rw [if_pos hdot] at h
      exact ih hplain h
    by_cases hup : name = ".."
    · rw [if_neg hdot, if_pos hup] at h
      exact ih (fun n hn => hplain n ((List.dropLast_sublist here).subset hn)) h
    rw [if_neg hdot, if_neg hup] at h
    obtain ⟨a, ha, h⟩ := Option.bind_eq_some_iff.mp h
    have hplain' : ∀ n ∈ here ++ [name], n ≠ "." ∧ n ≠ ".." := by
      intro n hn
      rcases List.mem_append.mp hn with hn | hn
      · exact hplain n hn
      · rw [List.mem_singleton.mp hn]; exact ⟨hdot, hup⟩
    cases hc : a.content with
    | symlink target =>
      rw [hc] at h
      refine hnext _ _ q ?_ h
      split_ifs
      · intro n hn; cases hn
      · exact hplain
    | directory entries =>
      rw [hc] at h
      exact ih hplain' h
    | file data =>
      rw [hc] at h
      obtain ⟨-, rfl⟩ := Option.ite_some_none_eq_some.mp h
      exact ⟨hplain', a, ha, by simp [Inode.isSymlink, hc], Or.inr (by simp)⟩

/-- **What comes out of `canonicalize` is canonical.** -/
theorem canonicalizeFrom_canonical {links : ℕ} {here todo q : List String}
    (hplain : ∀ n ∈ here, n ≠ "." ∧ n ≠ "..")
    (h : fs.canonicalizeFrom links here todo = some q) : Canonical fs q := by
  induction links generalizing here todo q with
  | zero => exact expand_canonical (fun _ _ _ _ hnone => by cases hnone) hplain h
  | succ links ih => exact expand_canonical (fun _ _ _ hp hq => ih hp hq) hplain h

theorem expand_eq {next : List String → List String → Option (List String)}
    {here todo : List String} {a : Inode} (hplain : ∀ n ∈ todo, n ≠ "." ∧ n ≠ "..")
    (ha : fs.inodeAt (here ++ todo) = some a) (hlink : a.isSymlink = false)
    (hdir : a.isDirectory = true ∨ todo ≠ []) :
    fs.expand next here todo = some (here ++ todo) := by
  induction todo generalizing here with
  | nil =>
    have hdir : a.isDirectory = true := hdir.elim id fun hne => absurd rfl hne
    rw [List.append_nil] at ha ⊢
    simp [expand, ha, hdir]
  | cons name todo ih =>
    obtain ⟨hdot, hup⟩ := hplain name List.mem_cons_self
    rw [List.append_cons] at ha ⊢
    have htodo : ∀ n ∈ todo, n ≠ "." ∧ n ≠ ".." := fun n hn => hplain n (List.mem_cons_of_mem _ hn)
    unfold expand
    rw [if_neg hdot, if_neg hup]
    by_cases hnil : todo = []
    · subst hnil
      rw [List.append_nil] at ha ⊢
      rw [ha, Option.bind_some]
      cases hc : a.content with
      | symlink target => simp [Inode.isSymlink, hc] at hlink
      | directory entries =>
        have hdir : a.isDirectory = true := by simp [Inode.isDirectory, hc]
        simp [expand, ha, hdir]
      | file data => simp
    · obtain ⟨d, hd, hdirectory⟩ := inodeAt_of_append hnil ha
      rw [hd, Option.bind_some]
      cases hc : d.content with
      | directory entries => exact ih htodo ha (Or.inr hnil)
      | symlink target | file data => simp [Inode.isDirectory, hc] at hdirectory

/-- **A canonical path is its own result.** -/
theorem Canonical.canonicalizeFrom_eq {names : List String} (h : Canonical fs names) (links : ℕ) :
    fs.canonicalizeFrom links [] names = some names := by
  obtain ⟨a, ha, hlink, hdir⟩ := h.ends
  cases links <;> exact expand_eq h.plain ha hlink hdir

theorem Canonical.resolve_eq {names : List String} (h : Canonical fs names) :
    fs.resolve names = fs.walk fs.root names := by
  rw [resolve, h.canonicalizeFrom_eq, Option.bind_some]

theorem Canonical.of_append {names rest : List String} (h : Canonical fs (names ++ rest))
    (hrest : rest ≠ []) : Canonical fs names := by
  obtain ⟨a, ha, -⟩ := h.ends
  obtain ⟨d, hd, hdir⟩ := inodeAt_of_append hrest ha
  exact ⟨fun n hn => h.plain n (List.mem_append_left _ hn), d, hd,
    Inode.not_symlink_of_directory hdir, Or.inl hdir⟩

theorem Canonical.symlinkMetadata_eq {names rest : List String}
    (h : Canonical fs (names ++ rest)) : fs.symlinkMetadata names = fs.inodeAt names := by
  induction names using List.reverseRecOn with
  | nil => rfl
  | append_singleton names name _ =>
    have hparent : Canonical fs names := by
      rw [List.append_assoc] at h
      exact h.of_append (by simp)
    simp only [symlinkMetadata, List.getLast?_concat, List.dropLast_concat,
      hparent.canonicalizeFrom_eq, Option.bind_some]

/-! ### Trusted paths -/

/-- Every directory on the way belongs to root, and is sticky if others may write it; what is at the
end belongs to root, and others may not write it. -/
structure Trusted (fs : FileSystem) (names : List String) : Prop where
  way : ∀ here rest, names = here ++ rest → rest ≠ [] →
    ∃ d, fs.inodeAt here = some d ∧ d.owner = 0 ∧ (d.writable = true → d.sticky = true)
  ends : ∃ a, fs.inodeAt names = some a ∧ a.owner = 0 ∧ a.writable = false

theorem Trusted.owner {names : List String} (h : Trusted fs names) {here rest : List String}
    (hnames : names = here ++ rest) : ∃ a, fs.inodeAt here = some a ∧ a.owner = 0 := by
  by_cases hrest : rest = []
  · obtain ⟨a, ha, howner, -⟩ := h.ends
    rw [hnames, hrest, List.append_nil] at ha
    exact ⟨a, ha, howner⟩
  · obtain ⟨d, hd, howner, -⟩ := h.way here rest hnames hrest
    exact ⟨d, hd, howner⟩

theorem Trusted.walk_eq {names : List String} (h : Trusted fs names) (hg : Guarded fs fs')
    {here rest : List String} (hnames : names = here ++ rest) :
    fs'.walk fs'.root here = fs.walk fs.root here := by
  induction here using List.reverseRecOn generalizing rest with
  | nil => rw [hg.root]; rfl
  | append_singleton here name ih =>
    have hsplit : names = here ++ (name :: rest) := by rw [hnames, List.append_assoc]; rfl
    rw [walk_concat, walk_concat, ih hsplit]
    obtain ⟨d, hd, howner, hsticky⟩ := h.way here (name :: rest) hsplit (by simp)
    obtain ⟨k, hk, hd⟩ := inodeAt_eq_some.mp hd
    obtain ⟨a, ha, haroot⟩ := h.owner hnames
    obtain ⟨d₀, i, hd₀, -, hi, ha⟩ := inodeAt_of_concat ha
    obtain ⟨k', hk', hd₀⟩ := inodeAt_eq_some.mp hd₀
    obtain rfl := Option.some.inj (hk.symm.trans hk')
    obtain rfl := Option.some.inj (hd.symm.trans hd₀)
    obtain ⟨d', hd', hkept⟩ := hg.inode k d hd howner
    -- the entry belongs to root, and is in a directory that others may not write or that is sticky
    have hentry : d'.entry name = some i := by
      by_cases hw : d.writable = true
      · exact hkept.entry (hsticky hw) name i a hi ha haroot
      · rw [hkept.same (Bool.not_eq_true _ ▸ hw)]
        exact hi
    rw [hk, Option.bind_some, Option.bind_some, entry, entry, hd, hd', Option.bind_some,
      Option.bind_some, hentry, hi]

/-- **A trusted path names the same inode, unchanged.** -/
theorem Trusted.kept {names : List String} (h : Trusted fs names) (hg : Guarded fs fs') :
    ∃ i a, fs.walk fs.root names = some i ∧ fs'.walk fs'.root names = some i ∧
      fs.inodes.lookup i = some a ∧ fs'.inodes.lookup i = some a := by
  obtain ⟨a, ha, howner, hw⟩ := h.ends
  obtain ⟨i, hi, ha⟩ := inodeAt_eq_some.mp ha
  obtain ⟨a', ha', hkept⟩ := hg.inode i a ha howner
  refine ⟨i, a, hi, ?_, ha, ?_⟩
  · rw [h.walk_eq hg (List.append_nil names).symm]
    exact hi
  · rw [ha', hkept.same hw]

theorem Canonical.kept {names : List String} (hc : Canonical fs names) (h : Trusted fs names)
    (hg : Guarded fs fs') : Canonical fs' names := by
  obtain ⟨i, a, hi, hi', ha, ha'⟩ := h.kept hg
  obtain ⟨b, hb, hends⟩ := hc.ends
  obtain rfl : a = b := Option.some.inj ((inodeAt_eq_some.mpr ⟨i, hi, ha⟩).symm.trans hb)
  exact ⟨hc.plain, a, inodeAt_eq_some.mpr ⟨i, hi', ha'⟩, hends⟩

/-- So the file that the path names, and what is in it, are the same. -/
theorem Trusted.resolve_kept {names : List String} (h : Trusted fs names) (hc : Canonical fs names)
    (hg : Guarded fs fs') :
    ∃ i, fs.resolve names = some i ∧ fs'.resolve names = some i ∧
      fs'.inodes.lookup i = fs.inodes.lookup i := by
  obtain ⟨i, a, hi, hi', ha, ha'⟩ := h.kept hg
  refine ⟨i, ?_, ?_, ha'.trans ha.symm⟩
  · rw [hc.resolve_eq]; exact hi
  · rw [(hc.kept h hg).resolve_eq]; exact hi'

end FileSystem

end GlobalProtect.Lib.Unix
