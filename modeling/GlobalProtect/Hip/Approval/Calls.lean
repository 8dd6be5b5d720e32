import GlobalProtect.Hip.Approval.Model

/-! # What the calls on approvals do

One lemma for each reader says what its success means (`readMetadataUnboundAt_ok`,
`resolveAtWithControl_ok`), and one lemma for each operation says what a step of it can do
(`InstallCall.step_moves`, `RevokeCall.step_moves`). A step of an install that is not its rename
touches its staging directory only, and a step of a revoke that is not its rename touches only the
directory that it has renamed. Neither name is that of an approval. -/

namespace GlobalProtect.Hip.Approval

open Lib

variable {β : Type} {cfg : Config β} {t t' : Tree β}

/-! ### Names -/

theorem canonicalId_of_dot {name : String} {rest : List Char} (h : name.toList = '.' :: rest) :
    canonicalId name = false := by
  have hdot : isLowerHexDigit '.' = false := by decide
  simp [canonicalId, h, List.zipIdx_cons, hdot]

theorem canonicalId_install (suffix : String) : canonicalId (".install-" ++ suffix) = false :=
  canonicalId_of_dot (by rw [String.toList_append]; rfl)

theorem canonicalId_revoked (id : String) : canonicalId (".revoked-" ++ id) = false :=
  canonicalId_of_dot (by rw [String.toList_append]; rfl)

theorem install_ne_revoked (suffix id : String) : ".install-" ++ suffix ≠ ".revoked-" ++ id := by
  intro h
  have hlist := congrArg String.toList h
  rw [String.toList_append, String.toList_append] at hlist
  have hsecond := congrArg (fun l => l[1]?) hlist
  simp at hsecond

theorem ne_of_canonicalId {id name : String} (h : canonicalId id = true)
    (hname : canonicalId name = false) : id ≠ name := by
  rintro rfl
  rw [h] at hname
  cases hname

/-! ### The tree -/

namespace Tree

@[simp] theorem lookup_put (t : Tree β) (name : String) (d : Directory β) :
    (t.put name d).entries.lookup name = some (.directory d) := AList.lookup_insert _

theorem lookup_put_ne (t : Tree β) {name n : String} (d : Directory β) (h : n ≠ name) :
    (t.put name d).entries.lookup n = t.entries.lookup n := AList.lookup_insert_ne h

@[simp] theorem lookup_drop (t : Tree β) (name : String) :
    (t.drop name).entries.lookup name = none := AList.lookup_erase name _

theorem lookup_drop_ne (t : Tree β) {name n : String} (h : n ≠ name) :
    (t.drop name).entries.lookup n = t.entries.lookup n := AList.lookup_erase_ne h

theorem directory_eq_some {name : String} {d : Directory β} :
    t.directory name = some d ↔ t.entries.lookup name = some (.directory d) := by
  unfold directory
  cases t.entries.lookup name with
  | none => simp
  | some node => cases node <;> simp

/-- Only the entry of that name differs. -/
structure SameBut (t t' : Tree β) (name : String) : Prop where
  owner : t'.owner = t.owner
  mode : t'.mode = t.mode
  lookup : ∀ n, n ≠ name → t'.entries.lookup n = t.entries.lookup n

theorem SameBut.directory {name n : String} (h : t.SameBut t' name) (hn : n ≠ name) :
    t'.directory n = t.directory n := by
  rw [Tree.directory, Tree.directory, h.lookup n hn]

theorem SameBut.refl (t : Tree β) (name : String) : t.SameBut t name := ⟨rfl, rfl, fun _ _ => rfl⟩

theorem sameBut_put (t : Tree β) (name : String) (d : Directory β) : t.SameBut (t.put name d) name :=
  ⟨rfl, rfl, fun _ hn => lookup_put_ne t d hn⟩

theorem sameBut_drop (t : Tree β) (name : String) : t.SameBut (t.drop name) name :=
  ⟨rfl, rfl, fun _ hn => lookup_drop_ne t hn⟩

theorem sameBut_unlink (t : Tree β) (name file : String) : t.SameBut (t.unlink name file) name := by
  unfold unlink
  cases t.directory name with
  | none => exact SameBut.refl t name
  | some d => exact sameBut_put t name _

theorem sameBut_rmdir {name : String} (h : t.rmdir name = some t') : t.SameBut t' name := by
  unfold rmdir at h
  cases hd : t.directory name with
  | none => rw [hd] at h; cases h
  | some d =>
    rw [hd] at h
    obtain ⟨-, rfl⟩ := Option.ite_some_none_eq_some.mp h
    exact sameBut_drop t name

theorem rename_eq_some {source target : String} (h : t.rename source target = some t') :
    ∃ d, t.directory source = some d ∧ t' = (t.drop source).put target d := by
  unfold rename at h
  cases hd : t.directory source with
  | none => rw [hd] at h; cases h
  | some d =>
    rw [hd] at h
    refine ⟨d, rfl, ?_⟩
    cases hn : t.entries.lookup target with
    | none => rw [hn] at h; exact (Option.some.inj h).symm
    | some node =>
      rw [hn] at h
      cases node with
      | directory d' => exact (Option.some.inj (Option.ite_none_right_eq_some.mp h).2).symm
      | symlink _ => cases h
      | other => cases h

end Tree

/-! ### Reading -/

theorem validateId_eq_ok {value : String} {u : Unit} :
    validateId cfg value = .ok u ↔ canonicalId value = true := by
  rw [← cfg.parseUuid_self]
  unfold validateId
  cases cfg.parseUuid value with
  | none => simp
  | some parsed => simp [ensure_eq_ok]

theorem validatePrivateDir_eq_ok {name : String} {ownerUid : ℕ} {d : Directory β}
    (h : validatePrivateDir t name ownerUid = .ok d) : t.directory name = some d := by
  unfold validatePrivateDir at h
  rw [Tree.directory_eq_some]
  cases hn : t.entries.lookup name with
  | none => rw [hn] at h; cases h
  | some node =>
    rw [hn] at h
    cases node with
    | directory d' =>
      obtain ⟨-, -, h⟩ := bind_eq_ok.mp h
      rw [pure_eq_ok.mp h]
    | symlink _ => cases h
    | other => cases h

theorem validateFile_eq_ok {d : Directory β} {path : List String} {name : String}
    {ownerUid mode maxSize : ℕ} {contents : List β}
    (h : validateFile d path name ownerUid mode maxSize = .ok contents) :
    ∃ owner actual, d.files.lookup name = some (.file owner actual contents) := by
  unfold validateFile at h
  cases hf : d.files.lookup name with
  | none => rw [hf] at h; cases h
  | some leaf =>
    rw [hf] at h
    cases leaf with
    | file owner actual found =>
      obtain ⟨-, -, h⟩ := bind_eq_ok.mp h
      obtain ⟨-, -, h⟩ := bind_eq_ok.mp h
      rw [pure_eq_ok.mp h]
      exact ⟨owner, actual, rfl⟩
    | other => cases h

theorem readMetadataUnboundAt_ok {id : String} {info : ApprovalInfo}
    (h : readMetadataUnboundAt cfg t id = .ok info) :
    canonicalId id = true ∧ (∃ u, validatePrivate [] t.owner t.mode cfg.fileOwner = .ok u) ∧
      ∃ d owner mode contents, t.directory id = some d ∧
        d.files.lookup metadataName = some (.file owner mode contents) ∧
        ∃ version, cfg.decode contents = some ⟨version, info⟩ := by
  obtain ⟨_, hid, h⟩ := bind_eq_ok.mp h
  obtain ⟨u, hbase, h⟩ := bind_eq_ok.mp h
  obtain ⟨d, hd, h⟩ := bind_eq_ok.mp h
  obtain ⟨contents, hfile, h⟩ := bind_eq_ok.mp h
  obtain ⟨owner, mode, hfile⟩ := validateFile_eq_ok hfile
  refine ⟨validateId_eq_ok.mp hid, ⟨u, hbase⟩, d, owner, mode, contents,
    validatePrivateDir_eq_ok hd, hfile, ?_⟩
  cases hdec : cfg.decode contents with
  | none => rw [hdec] at h; cases h
  | some stored =>
    rw [hdec] at h
    obtain ⟨-, -, h⟩ := bind_eq_ok.mp h
    obtain ⟨-, -, h⟩ := bind_eq_ok.mp h
    obtain ⟨-, -, h⟩ := bind_eq_ok.mp h
    obtain rfl := pure_eq_ok.mp h
    exact ⟨stored.version, rfl⟩

theorem readMetadataAt_ok {id : String} {uid : ℕ} {info : ApprovalInfo}
    (h : readMetadataAt cfg t id uid = .ok info) :
    readMetadataUnboundAt cfg t id = .ok info ∧ info.ownerUid = uid := by
  obtain ⟨found, hread, h⟩ := bind_eq_ok.mp h
  obtain ⟨_, howner, h⟩ := bind_eq_ok.mp h
  obtain rfl := pure_eq_ok.mp h
  exact ⟨hread, of_decide_eq_true (ensure_eq_ok.mp howner)⟩

/-- What `path` holds, if it is a file of an entry. -/
def Tree.read (t : Tree β) : List String → Option (List β)
  | [name, file] =>
    match (t.directory name).bind (·.files.lookup file) with
    | some (.file _ _ contents) => some contents
    | _ => none
  | _ => none

theorem resolveAtWithControl_ok {id : String} {uid : ℕ} {control : ℕ → Bool} {a : ApprovedScript}
    (h : resolveAtWithControl cfg t t' id uid control = .ok a) :
    readMetadataAt cfg t id uid = .ok a.info ∧ a.path = [id, scriptName] ∧
      ∃ d owner mode contents, t'.directory id = some d ∧
        d.files.lookup scriptName = some (.file owner mode contents) ∧
        cfg.sha256Hex contents = a.info.sha256 := by
  obtain ⟨-, -, h⟩ := bind_eq_ok.mp h
  obtain ⟨info, hinfo, h⟩ := bind_eq_ok.mp h
  obtain ⟨-, -, h⟩ := bind_eq_ok.mp h
  obtain ⟨d, hd, h⟩ := bind_eq_ok.mp h
  obtain ⟨contents, hfile, h⟩ := bind_eq_ok.mp h
  obtain ⟨-, -, h⟩ := bind_eq_ok.mp h
  obtain ⟨-, -, h⟩ := bind_eq_ok.mp h
  obtain ⟨_, hsha, h⟩ := bind_eq_ok.mp h
  obtain ⟨-, -, h⟩ := bind_eq_ok.mp h
  obtain rfl := pure_eq_ok.mp h
  obtain ⟨owner, mode, hfile⟩ := validateFile_eq_ok hfile
  have hdir : t'.directory id = some d := by
    unfold scriptDirectory at hd
    cases hd' : t'.directory id with
    | none => rw [hd'] at hd; cases hd
    | some d' => rw [hd'] at hd; cases hd; rfl
  exact ⟨hinfo, rfl, d, owner, mode, contents, hdir, hfile,
    of_decide_eq_true (ensure_eq_ok.mp hsha)⟩

theorem readMetadataUnboundAt_congr {id : String} (howner : t'.owner = t.owner)
    (hmode : t'.mode = t.mode)
    (h : canonicalId id = true → t'.entries.lookup id = t.entries.lookup id) :
    readMetadataUnboundAt cfg t' id = readMetadataUnboundAt cfg t id := by
  cases hid : validateId cfg id with
  | error e => simp only [readMetadataUnboundAt, hid, bind, Except.bind]
  | ok u =>
    have hlookup := h (validateId_eq_ok.mp hid)
    simp only [readMetadataUnboundAt, validatePrivateDir, howner, hmode, hlookup]

theorem resolveAt_congr {id : String} {uid : ℕ} {budget : ℕ → Bool} (howner : t'.owner = t.owner)
    (hmode : t'.mode = t.mode)
    (h : canonicalId id = true → t'.entries.lookup id = t.entries.lookup id) :
    resolveAt cfg t' id uid budget = resolveAt cfg t id uid budget := by
  have hcongr : readMetadataUnboundAt cfg t' id = readMetadataUnboundAt cfg t id :=
    readMetadataUnboundAt_congr howner hmode h
  cases hread : readMetadataUnboundAt cfg t id with
  | error e =>
    simp only [resolveAt, resolveAtWithControl, readMetadataAt, hcongr, hread, bind, Except.bind]
  | ok info =>
    have hlookup := h (readMetadataUnboundAt_ok hread).1
    simp only [resolveAt, resolveAtWithControl, readMetadataAt, hcongr, scriptDirectory,
      Tree.directory, hlookup]

theorem isOk_iff {ε α : Type} {x : Except ε α} : x.isOk = true ↔ ∃ a, x = .ok a := by
  cases x <;> simp [Except.isOk, Except.toBool]

theorem statusAt_eq_valid {id : String} {uid : ℕ} {budget : ℕ → Bool} (huid : uid ≠ 0) :
    statusAt cfg t id uid budget = .ok .valid ↔ (resolveAt cfg t id uid budget).isOk = true := by
  constructor
  · intro h
    obtain ⟨_, -, h⟩ := bind_eq_ok.mp h
    obtain ⟨_, -, h⟩ := bind_eq_ok.mp h
    -- every way out before the last one gives another status
    cases hresolve : resolveAt cfg t id uid budget with
    | ok a => rfl
    | error e =>
      rw [hresolve] at h
      split at h
      · cases h
      · cases h
      · split at h
        · cases h
        · split at h
          · cases h
          · split_ifs at h <;> cases h
  · intro h
    obtain ⟨a, ha⟩ := isOk_iff.mp h
    obtain ⟨hread, howner⟩ := readMetadataAt_ok (resolveAtWithControl_ok ha).1
    obtain ⟨hid, ⟨u, hbase⟩, d, owner, mode, contents, hd, hfile, -⟩ :=
      readMetadataUnboundAt_ok hread
    have hvalid : validateId cfg id = .ok () := validateId_eq_ok.mpr hid
    have hpaths : inspectPaths t id = some true := by
      rw [inspectPaths, Tree.directory_eq_some.mp hd]
      simp only [hfile, Option.map_some]
    have huser : ensure (uid ≠ 0) (Error.failed "HIP approval status requires a desktop user") =
        .ok () := ensure_eq_ok.mpr (decide_eq_true huid)
    simp only [statusAt, huser, hvalid, hpaths, hbase, hread, howner, ha, ne_eq, not_true_eq_false,
      if_false, bind, Except.bind, pure, Except.pure]

/-! ### Installing -/

/-- The files of a directory: the script, and the metadata. -/
def Directory.Holds (d : Directory β) (script metadata : Option (Leaf β)) : Prop :=
  d.files.lookup scriptName = script ∧ d.files.lookup metadataName = metadata

def Publication.script (cfg : Config β) (p : Publication β) (written : ℕ) : Leaf β :=
  .file cfg.fileOwner 0o500 (p.contents.take written)

def Publication.metadata (cfg : Config β) (p : Publication β) (written : ℕ) : Leaf β :=
  .file cfg.fileOwner 0o600 ((p.encoded cfg).take written)

/-- The directory of a publication. -/
def Directory.Complete (cfg : Config β) (p : Publication β) (d : Directory β) : Prop :=
  d.Holds (some (p.script cfg p.contents.length)) (some (p.metadata cfg (p.encoded cfg).length))

namespace InstallCall

variable {c : InstallCall β} {busy : String → Bool} {io : Io} {e : Effect β (InstallCall β)}

/-- The script and the metadata that the staging directory holds at a point, if there is one. -/
def stage (cfg : Config β) (c : InstallCall β) : Option (Option (Leaf β) × Option (Leaf β)) :=
  let script := c.script cfg c.contents.length
  match c.pc with
  | .chmod | .validate | .createScript => some (none, none)
  | .writeScript written => some (some (c.script cfg written), none)
  | .createMetadata => some (some script, none)
  | .writeMetadata written => some (some script, some (c.metadata cfg written))
  | .syncStaged | .checkTarget | .rename =>
    some (some script, some (c.metadata cfg (c.encoded cfg).length))
  | .mkdir | .syncBase | .cleanup _ | .done _ => none

/-- The staging directory is there, and holds what it should. -/
def Stands (cfg : Config β) (t : Tree β) (c : InstallCall β) : Prop :=
  ∀ x, c.stage cfg = some x → ∃ d, t.directory c.staged = some d ∧ d.Holds x.1 x.2

/-- The call may still publish. -/
def pending (c : InstallCall β) : Bool :=
  match c.pc with
  | .syncBase | .cleanup _ | .done _ => false
  | _ => true

/-- What a step of an install does. -/
inductive Moves (cfg : Config β) (busy : String → Bool) (t : Tree β) (c : InstallCall β) :
    Effect β (InstallCall β) → Prop where
  | stay {pc : InstallPc}
      (hstage : (c.goto pc).stage cfg = none ∨ (c.goto pc).stage cfg = c.stage cfg)
      (hholds : (c.goto pc).holds = true → c.holds = true)
      (hpending : (c.goto pc).pending = true → c.pending = true) :
      Moves cfg busy t c { tree := t, call := c.goto pc }
  | make {c' : InstallCall β} {d : Directory β} (hitem : c'.toPublication = c.toPublication)
      (hpc : c.pc = .mkdir) (hpc' : c'.pc = .chmod) (hbusy : busy c'.staged = false)
      (hfiles : d.files = ∅) : Moves cfg busy t c { tree := t.put c'.staged d, call := c' }
  | edit {t' : Tree β} {pc : InstallPc} (hholds : c.holds = true)
      (hpending : (c.goto pc).pending = true → c.pending = true)
      (hsame : t.SameBut t' c.staged) (hstands : c.Stands cfg t → (c.goto pc).Stands cfg t') :
      Moves cfg busy t c { tree := t', call := c.goto pc }
  | publish {d : Directory β} (hpc : c.pc = .rename) (hd : t.directory c.staged = some d) :
      Moves cfg busy t c { tree := (t.drop c.staged).put c.id d, call := c.goto .syncBase,
                           published := [c.toPublication] }

theorem Moves.put {d d' : Directory β} {pc : InstallPc} {x x' : Option (Leaf β) × Option (Leaf β)}
    (hholds : c.holds = true) (hpending : (c.goto pc).pending = true → c.pending = true)
    (hd : t.directory c.staged = some d) (hx : c.stage cfg = some x)
    (hx' : (c.goto pc).stage cfg = some x') (hkeep : d.Holds x.1 x.2 → d'.Holds x'.1 x'.2) :
    c.Moves cfg busy t { tree := t.put c.staged d', call := c.goto pc } := by
  refine .edit hholds hpending (t.sameBut_put c.staged d') fun hstands y hy => ?_
  obtain ⟨d₀, hd₀, hfiles⟩ := hstands x hx
  obtain rfl := Option.some.inj (hd.symm.trans hd₀)
  obtain rfl := Option.some.inj (hx'.symm.trans hy)
  exact ⟨d', Tree.directory_eq_some.mpr (t.lookup_put c.staged d'), hkeep hfiles⟩

theorem Moves.sweep {pc : InstallPc} {ok : Bool} (hpc : c.pc = .cleanup ok)
    (hstage : (c.goto pc).stage cfg = none) (hpending : (c.goto pc).pending = false)
    (hsame : t.SameBut t' c.staged) :
    c.Moves cfg busy t { tree := t', call := c.goto pc } := by
  refine .edit (by simp [holds, hpc]) (fun h => ?_) hsame fun _ x hx => ?_
  · rw [hpending] at h; cases h
  · rw [hstage] at hx; cases hx

end InstallCall

theorem createNew_eq_some {staged file : String} {owner mode : ℕ}
    (h : createNew t staged file owner mode = some t') :
    ∃ d, t.directory staged = some d ∧
      t' = t.put staged { d with files := d.files.insert file (.file owner mode []) } := by
  unfold createNew at h
  cases hd : t.directory staged with
  | none => rw [hd] at h; cases h
  | some d =>
    rw [hd] at h
    obtain ⟨-, h⟩ := Option.ite_none_right_eq_some.mp h
    exact ⟨d, rfl, (Option.some.inj h).symm⟩

theorem writeFile_eq_some {staged file : String} {owner mode : ℕ} {contents : List β}
    (h : writeFile t staged file owner mode contents = some t') :
    ∃ d, t.directory staged = some d ∧
      t' = t.put staged { d with files := d.files.insert file (.file owner mode contents) } := by
  unfold writeFile at h
  cases hd : t.directory staged with
  | none => rw [hd] at h; cases h
  | some d =>
    rw [hd] at h
    exact ⟨d, rfl, (Option.some.inj h).symm⟩

theorem Directory.Holds.insert_script {d : Directory β} {script metadata : Option (Leaf β)}
    (h : d.Holds script metadata) (leaf : Leaf β) :
    Holds { d with files := d.files.insert scriptName leaf } (some leaf) metadata :=
  ⟨AList.lookup_insert _, (AList.lookup_insert_ne (by decide)).trans h.2⟩

theorem Directory.Holds.insert_metadata {d : Directory β} {script metadata : Option (Leaf β)}
    (h : d.Holds script metadata) (leaf : Leaf β) :
    Holds { d with files := d.files.insert metadataName leaf } script (some leaf) :=
  ⟨(AList.lookup_insert_ne (by decide)).trans h.1, AList.lookup_insert _⟩

namespace InstallCall

variable {c : InstallCall β} {busy : String → Bool} {io : Io} {e : Effect β (InstallCall β)}

theorem ok_moves (h : c.step cfg busy t .ok = some e) : c.Moves cfg busy t e := by
  cases hpc : c.pc with
  | mkdir => simp only [step, hpc] at h; cases h
  | chmod =>
    simp only [step, hpc] at h
    obtain ⟨d, hd, rfl⟩ := Option.map_eq_some_iff.mp h
    exact .put (x := (none, none)) (by simp [holds, hpc]) (by simp [pending, hpc]) hd
      (by simp [stage, hpc]) rfl id
  | validate =>
    simp only [step, hpc] at h
    split at h <;> cases h
    · exact .stay (Or.inr (by simp [stage, goto, hpc])) (by simp [holds, hpc])
        (by simp [pending, hpc])
    · exact .stay (Or.inl rfl) (by simp [holds, hpc]) (by simp [pending, hpc])
  | createScript =>
    simp only [step, hpc] at h
    obtain ⟨tree, htree, rfl⟩ := Option.map_eq_some_iff.mp h
    obtain ⟨d, hd, rfl⟩ := createNew_eq_some htree
    exact .put (x := (none, none)) (by simp [holds, hpc]) (by simp [pending, hpc]) hd
      (by simp [stage, hpc]) rfl fun hfiles => hfiles.insert_script _
  | writeScript written =>
    simp only [step, hpc] at h
    obtain ⟨hall, h⟩ := Option.ite_none_right_eq_some.mp h
    split_ifs at h <;> cases h
    · -- the whole script is there
      exact .stay (Or.inr (by simp [stage, goto, hpc, hall])) (by simp [holds, hpc])
        (by simp [pending, hpc])
    · exact .stay (Or.inl rfl) (by simp [holds, hpc]) (by simp [pending, hpc])
  | createMetadata =>
    simp only [step, hpc] at h
    obtain ⟨tree, htree, rfl⟩ := Option.map_eq_some_iff.mp h
    obtain ⟨d, hd, rfl⟩ := createNew_eq_some htree
    exact .put (x := (some (c.script cfg c.contents.length), none)) (by simp [holds, hpc])
      (by simp [pending, hpc]) hd (by simp [stage, hpc]) rfl fun hfiles => hfiles.insert_metadata _
  | writeMetadata written =>
    simp only [step, hpc] at h
    obtain ⟨hall, rfl⟩ := Option.ite_some_none_eq_some.mp h
    exact .stay (Or.inr (by simp [stage, goto, hpc, hall])) (by simp [holds, hpc])
      (by simp [pending, hpc])
  | syncStaged =>
    simp only [step, hpc] at h
    cases h
    exact .stay (Or.inr (by simp [stage, goto, hpc])) (by simp [holds, hpc])
      (by simp [pending, hpc])
  | checkTarget =>
    simp only [step, hpc] at h
    split_ifs at h <;> cases h
    · exact .stay (Or.inl rfl) (by simp [holds, hpc]) (by simp [pending, hpc])
    · exact .stay (Or.inr (by simp [stage, goto, hpc])) (by simp [holds, hpc])
        (by simp [pending, hpc])
  | rename =>
    simp only [step, hpc] at h
    obtain ⟨tree, htree, rfl⟩ := Option.map_eq_some_iff.mp h
    obtain ⟨d, hd, rfl⟩ := Tree.rename_eq_some htree
    exact .publish hpc hd
  | syncBase =>
    simp only [step, hpc] at h
    cases h
    exact .stay (Or.inl rfl) (by simp [holds, hpc]) (by simp [pending, goto])
  | cleanup ok =>
    simp only [step, hpc] at h
    cases h
    refine .sweep hpc rfl rfl ?_
    cases hrm : t.rmdir c.staged with
    | none => exact Tree.SameBut.refl t _
    | some tree => exact Tree.sameBut_rmdir hrm
  | done ok => simp only [step, hpc] at h; cases h

theorem fail_moves (h : c.step cfg busy t .fail = some e) : c.Moves cfg busy t e := by
  have hstay (pc : InstallPc) (hstage : (c.goto pc).stage cfg = none)
      (hpending : (c.goto pc).pending = false) (hholds : (c.goto pc).holds = true → c.holds = true) :
      c.Moves cfg busy t { tree := t, call := c.goto pc } :=
    .stay (Or.inl hstage) hholds fun hp => by rw [hpending] at hp; cases hp
  simp only [step] at h
  split at h
  · cases h
  · cases h
    exact hstay _ rfl rfl fun hholds => by cases hholds
  · cases h
    exact hstay _ rfl rfl fun hholds => by cases hholds
  · next hdone hmkdir _ =>
    cases h
    refine hstay _ rfl rfl fun _ => ?_
    unfold holds
    split
    · next hpc => exact absurd hpc hmkdir
    · next ok hpc => exact absurd hpc (hdone ok)
    · rfl

/-- **What a step of an install does.** -/
theorem step_moves (h : c.step cfg busy t io = some e) : c.Moves cfg busy t e := by
  cases io with
  | ok => exact ok_moves h
  | fail => exact fail_moves h
  | create suffix mode =>
    obtain ⟨⟨hpc, -, hbusy⟩, rfl⟩ := Option.ite_some_none_eq_some.mp h
    exact .make rfl hpc rfl hbusy rfl
  | write count =>
    simp only [step] at h
    split at h
    · next written hpc =>
      obtain ⟨-, h⟩ := Option.ite_none_right_eq_some.mp h
      obtain ⟨tree, htree, rfl⟩ := Option.map_eq_some_iff.mp h
      obtain ⟨d, hd, rfl⟩ := writeFile_eq_some htree
      exact .put (x := (some (c.script cfg written), none)) (by simp [holds, hpc])
        (by simp [pending, hpc]) hd (by simp [stage, hpc]) rfl fun hfiles => hfiles.insert_script _
    · next written hpc =>
      obtain ⟨-, h⟩ := Option.ite_none_right_eq_some.mp h
      obtain ⟨tree, htree, rfl⟩ := Option.map_eq_some_iff.mp h
      obtain ⟨d, hd, rfl⟩ := writeFile_eq_some htree
      exact .put (x := (some (c.script cfg c.contents.length), some (c.metadata cfg written)))
        (by simp [holds, hpc]) (by simp [pending, hpc]) hd (by simp [stage, hpc]) rfl
        fun hfiles => hfiles.insert_metadata _
    · cases h
  | unlink file =>
    simp only [step] at h
    split at h
    · next ok hpc =>
      cases h
      have hc : c = c.goto (.cleanup ok) := by rw [← hpc]; rfl
      nth_rewrite 3 [hc]
      exact .sweep hpc rfl rfl (t.sameBut_unlink c.staged file)
    · cases h

end InstallCall

/-! ### Revoking -/

/-- The call has read the metadata of its user, and has not ended. -/
def RevokePc.cleared : RevokePc → Bool
  | .rename | .syncRenamed | .remove | .syncRemoved => true
  | _ => false

/-- The call has made its rename, and has not ended. -/
def RevokePc.renamed : RevokePc → Bool
  | .syncRenamed | .remove | .syncRemoved => true
  | _ => false

namespace RevokeCall

variable {c : RevokeCall} {io : Io} {e : Effect β RevokeCall}

/-- What a step of a revoke does. -/
inductive Moves (cfg : Config β) (t : Tree β) (c : RevokeCall) : Effect β RevokeCall → Prop where
  | stay {pc : RevokePc} (hcleared : pc.cleared = true → c.pc.cleared = true)
      (hrenamed : pc.renamed = true → c.pc.renamed = true)
      (hdone : pc = .done true → c.pc.renamed = true ∨
        c.pc = .lookup ∧ canonicalId c.id = true ∧ t.entries.lookup c.id = none) :
      Moves cfg t c { tree := t, call := c.goto pc }
  | clear {info : ApprovalInfo} (hread : readMetadataAt cfg t c.id c.uid = .ok info) :
      Moves cfg t c { tree := t, call := c.goto .rename }
  | rename {d : Directory β} (hpc : c.pc = .rename) (hd : t.directory c.id = some d) :
      Moves cfg t c { tree := (t.drop c.id).put c.target d, call := c.goto .syncRenamed,
                      revoked := [c.id] }
  | sweep {t' : Tree β} {pc : RevokePc} (hpc : c.pc = .remove) (hpc' : pc.renamed = true)
      (hsame : t.SameBut t' c.target) : Moves cfg t c { tree := t', call := c.goto pc }

/-- **What a step of a revoke does.** -/
theorem step_moves (h : c.step cfg t io = some e) : c.Moves cfg t e := by
  cases io with
  | create suffix mode => cases h
  | write count => cases h
  | unlink file =>
    simp only [step] at h
    split at h
    · next hpc =>
      cases h
      have hc : c = c.goto .remove := by rw [← hpc]; rfl
      nth_rewrite 3 [hc]
      exact .sweep hpc rfl (t.sameBut_unlink c.target file)
    · cases h
  | fail =>
    simp only [step] at h
    split at h
    · cases h
    · next hpc =>
      cases h
      exact .stay (by simp [RevokePc.cleared]) (by simp [RevokePc.renamed])
        fun _ => Or.inl (by rw [hpc]; rfl)
    · cases h
      exact .stay (by simp [RevokePc.cleared]) (by simp [RevokePc.renamed]) (by simp)
  | ok =>
    cases hpc : c.pc with
    | lookup =>
      simp only [step, hpc] at h
      split_ifs at h with hid hnone <;> cases h
      · exact .stay (by simp [RevokePc.cleared]) (by simp [RevokePc.renamed]) (by simp)
      · rw [Bool.not_eq_false, isOk_iff] at hid
        obtain ⟨u, hid⟩ := hid
        exact .stay (by simp [RevokePc.cleared]) (by simp [RevokePc.renamed])
          fun _ => Or.inr ⟨hpc, validateId_eq_ok.mp hid, Option.isNone_iff_eq_none.mp hnone⟩
      · exact .stay (by simp [RevokePc.cleared]) (by simp [RevokePc.renamed]) (by simp)
    | readMetadata =>
      simp only [step, hpc] at h
      cases hread : readMetadataAt cfg t c.id c.uid with
      | error err =>
        rw [hread] at h
        cases h
        exact .stay (by simp [RevokePc.cleared]) (by simp [RevokePc.renamed]) (by simp)
      | ok info =>
        rw [hread] at h
        cases h
        exact .clear hread
    | rename =>
      simp only [step, hpc] at h
      obtain ⟨tree, htree, rfl⟩ := Option.map_eq_some_iff.mp h
      obtain ⟨d, hd, rfl⟩ := Tree.rename_eq_some htree
      exact .rename hpc hd
    | syncRenamed =>
      simp only [step, hpc] at h
      cases h
      exact .stay (by simp [hpc, RevokePc.cleared]) (by simp [hpc, RevokePc.renamed]) (by simp)
    | remove =>
      simp only [step, hpc] at h
      obtain ⟨tree, htree, rfl⟩ := Option.map_eq_some_iff.mp h
      exact .sweep hpc rfl (Tree.sameBut_rmdir htree)
    | syncRemoved =>
      simp only [step, hpc] at h
      cases h
      exact .stay (by simp [RevokePc.cleared]) (by simp [RevokePc.renamed])
        fun _ => Or.inl (by rw [hpc]; rfl)
    | done ok => simp only [step, hpc] at h; cases h

end RevokeCall

end GlobalProtect.Hip.Approval
