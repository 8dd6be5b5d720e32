import GlobalProtect.Service.Anchor.Model

/-! # What the calls know

What a call knows of the files at each of its operations (`Knows`), and what an operation may change
of them (`Change`). The lock makes a call that found no record the only one that can publish one, and
no operation changes a file that has been published: no change of one call disturbs what another
knows (`Change.holds`), and each operation establishes what its call knows next
(`resolveIn_holds`). -/

namespace GlobalProtect.Service.Anchor

open Lib
open Lib.Utf8 (Bytes)

variable {ι : Type} {cfg : Config} {i k : ι} {files files' : Files ι}

/-! ### The record -/

def Valid (anchor : DeviceAnchor) : Prop := anchor.validate = true ∧ anchor.source.isUnix = true

/-- A file of the calls. -/
def privateMetadata (cfg : Config) : Metadata := ⟨.regular, cfg.owner, 0o600, 1⟩

def recordInode (cfg : Config) (anchor : DeviceAnchor) : Inode :=
  ⟨privateMetadata cfg, written anchor⟩

/-- The directory and the lock file pass their checks. -/
structure Ready (cfg : Config) (files : Files ι) : Prop where
  directory : ∃ metadata, files.directory = some metadata ∧
    validateMetadata metadata cfg.owner true = .ok ()
  lockFile : ∃ metadata, files.lockFile = some metadata ∧
    validateMetadata metadata cfg.owner false = .ok ()

/-- The record is that of the anchor. -/
structure Published (cfg : Config) (files : Files ι) (anchor : DeviceAnchor) : Prop where
  ready : Ready cfg files
  valid : Valid anchor
  record : ∃ inode, files.record = some inode ∧ files.inodes inode = some (recordInode cfg anchor)

theorem Published.recordContents {anchor : DeviceAnchor} (h : Published cfg files anchor) :
    files.recordContents = some (written anchor) := by
  obtain ⟨inode, hrecord, hinode⟩ := h.record
  simp [Files.recordContents, hrecord, hinode, recordInode]

theorem written_injective (cfg : Config) {anchor anchor' : DeviceAnchor}
    (h : written anchor = written anchor') : anchor = anchor' := by
  have hparse := cfg.parse_written anchor
  rw [h, cfg.parse_written] at hparse
  exact (Record.mk.inj (Option.some.inj hparse)).2.symm

theorem Published.unique {anchor anchor' : DeviceAnchor} (h : Published cfg files anchor)
    (h' : Published cfg files anchor') : anchor = anchor' := by
  have hcontents := h.recordContents
  rw [h'.recordContents] at hcontents
  exact (written_injective cfg (Option.some.inj hcontents)).symm

theorem Published.of_record {anchor : DeviceAnchor} {inode : ι} {node : Inode}
    (h : Published cfg files anchor) (hrecord : files.record = some inode)
    (hnode : files.inodes inode = some node) : node = recordInode cfg anchor := by
  obtain ⟨inode', hrecord', hinode⟩ := h.record
  obtain rfl := Option.some.inj (hrecord'.symm.trans hrecord)
  exact Option.some.inj (hnode.symm.trans hinode)

theorem Published.record_ne_none {anchor : DeviceAnchor} (h : Published cfg files anchor) :
    files.record ≠ none := by
  obtain ⟨inode, hrecord, -⟩ := h.record
  rw [hrecord]
  nofun

theorem validateMetadata_privateMetadata :
    validateMetadata (privateMetadata cfg) cfg.owner false = .ok () := by
  have hmode : (0o600 : ℕ) &&& 0o777 = 0o600 := by decide
  unfold validateMetadata
  refine ensure_bind_eq_ok.mpr ⟨rfl, ensure_bind_eq_ok.mpr ⟨decide_eq_true rfl, ?_⟩⟩
  exact ensure_bind_eq_ok.mpr ⟨decide_eq_true hmode, rfl⟩

theorem utf8ByteSize_of_valid {anchor : DeviceAnchor} (h : Valid anchor) :
    anchor.hardwareId.utf8ByteSize = 43 := by
  obtain ⟨bytes, -, hbytes⟩ := (Option.any_eq_true _ _).mp h.1
  obtain ⟨hlength, hencode⟩ := Bool.and_eq_true_iff.mp hbytes
  rw [← String.utf8Len_toList, ← of_decide_eq_true hencode, Base64.utf8Len_encode,
    of_decide_eq_true hlength]

theorem length_written_le {anchor : DeviceAnchor} (h : Valid anchor) :
    (written anchor).length ≤ 4096 := by
  have hid := Json.size_string_le anchor.hardwareId
  have hversion : (Json.number 1).size ≤ 1 := Json.size_number_le (by decide) (by decide)
  have hsource : (Json.number anchor.source.code).size ≤ 1 :=
    Json.size_number_le (by decide) (by cases anchor.source <;> decide)
  have hnames : Json.quotedSize "version" + Json.quotedSize "anchor" +
      Json.quotedSize "hardware_id" + Json.quotedSize "source" = 38 := by decide
  have hlength : (written anchor).length = (Record.toJson ⟨1, anchor⟩).size := Utf8.length_encode _
  rw [utf8ByteSize_of_valid h] at hid
  rw [hlength, Record.toJson]
  simp only [Json.size_object, List.map_cons, List.map_nil, List.sum_cons, List.sum_nil,
    List.length_cons, List.length_nil, Json.fieldSize]
  omega

theorem checkRecord_written {anchor : DeviceAnchor} (h : Valid anchor) :
    checkRecord cfg (written anchor) = .ok anchor := by
  unfold checkRecord
  refine context_bind_eq_ok.mpr ⟨_, cfg.parse_written anchor, ensure_bind_eq_ok.mpr ⟨?_, ?_⟩⟩
  · simp [h.1]
  · exact ensure_bind_eq_ok.mpr ⟨h.2, rfl⟩

/-! ### What a call knows -/

theorem proceed_eq {pc' : Pc ι} {result : Except Error Unit} {next : Pc ι}
    {stop : Except Error DeviceAnchor → Pc ι} (h : proceed files result next stop = (files', pc')) :
    files' = files ∧ (result = .ok () ∧ pc' = next ∨ ∃ error, pc' = stop (.error error)) := by
  cases result with
  | ok u =>
    cases h
    exact ⟨rfl, .inl ⟨rfl, rfl⟩⟩
  | error error =>
    cases h
    exact ⟨rfl, .inr ⟨error, rfl⟩⟩

/-- The call has the lock. -/
def Pc.inside : Pc ι → Bool
  | .openRecord | .validateRecord _ | .measureRecord _ | .readRecord _ _ | .collect
  | .createTemporary _ | .setPermissions _ | .write _ | .sync _ | .persist _ | .syncDirectory _
  | .dropTemporary _ | .unlock _ => true
  | .idle | .createDirectory | .syncParent | .validateDirectory | .openLock | .validateLock | .lock
  | .done _ | .crashed => false

/-- What the call knows of the files, apart from the lock. -/
def Knows (cfg : Config) (i : ι) (files : Files ι) : Pc ι → Prop
  | .idle | .createDirectory | .syncParent | .validateDirectory | .done (.error _) | .crashed => True
  | .openLock => ∃ metadata, files.directory = some metadata ∧
      validateMetadata metadata cfg.owner true = .ok ()
  | .validateLock => (∃ metadata, files.directory = some metadata ∧
      validateMetadata metadata cfg.owner true = .ok ()) ∧ ∃ metadata, files.lockFile = some metadata
  | .lock | .openRecord | .unlock (.error _) => Ready cfg files
  | .validateRecord inode | .measureRecord inode => Ready cfg files ∧ files.record = some inode
  | .readRecord inode bytes => Ready cfg files ∧ files.record = some inode ∧
      ∃ node, files.inodes inode = some node ∧ bytes <+: node.contents
  | .collect => Ready cfg files ∧ files.record = none
  | .createTemporary anchor => Ready cfg files ∧ files.record = none ∧ Valid anchor
  | .setPermissions anchor => Ready cfg files ∧ files.record = none ∧ Valid anchor ∧
      ∃ mode, files.inodes i = some ⟨⟨.regular, cfg.owner, mode, 1⟩, []⟩
  | .write anchor => Ready cfg files ∧ files.record = none ∧ Valid anchor ∧
      ∃ contents, files.inodes i = some ⟨privateMetadata cfg, contents⟩ ∧
        contents <+: written anchor
  | .sync anchor | .persist anchor => Ready cfg files ∧ files.record = none ∧ Valid anchor ∧
      files.inodes i = some (recordInode cfg anchor)
  | .dropTemporary _ => Ready cfg files ∧ files.record = none
  | .syncDirectory anchor | .unlock (.ok anchor) | .done (.ok anchor) => Published cfg files anchor

/-- What the call knows, with the lock. -/
def Holds (cfg : Config) (i : ι) (files : Files ι) (pc : Pc ι) : Prop :=
  (files.holder = some i ↔ pc.inside = true) ∧ Knows cfg i files pc

/-! ### Steps without a change -/

theorem failed_holds {pc pc' : Pc ι} (h : Holds cfg i files pc) (hs : failed pc = some pc') :
    Holds cfg i files pc' := by
  obtain ⟨hholder, hknows⟩ := h
  cases pc with
  | createDirectory | syncParent | validateDirectory | openLock | validateLock | lock =>
    cases hs
    exact ⟨hholder, trivial⟩
  | openRecord =>
    cases hs
    exact ⟨hholder, hknows⟩
  | validateRecord _ | measureRecord _ | readRecord _ _ | createTemporary _ | dropTemporary _ =>
    cases hs
    exact ⟨hholder, hknows.1⟩
  | syncDirectory _ =>
    cases hs
    exact ⟨hholder, hknows.ready⟩
  | setPermissions _ | write _ | sync _ | persist _ =>
    cases hs
    exact ⟨hholder, hknows.1, hknows.2.1⟩
  | idle | collect | unlock _ | done _ | crashed => cases hs

theorem collected_holds {pc pc' : Pc ι} {result : Except Error DeviceAnchor} (h : Holds cfg i files pc)
    (hs : collected files result pc = some (files', pc')) :
    files' = files ∧ Holds cfg i files pc' := by
  obtain ⟨hholder, hknows⟩ := h
  unfold collected at hs
  split at hs
  · split at hs
    · cases hs
      exact ⟨rfl, hholder, hknows.1⟩
    · rename_i anchor
      obtain ⟨rfl, ⟨hvalid, rfl⟩ | ⟨error, rfl⟩⟩ := proceed_eq (Option.some.inj hs)
      · have hboth := Bool.and_eq_true_iff.mp (ensure_eq_ok.mp hvalid)
        exact ⟨rfl, hholder, hknows.1, hknows.2, hboth⟩
      · exact ⟨rfl, hholder, hknows.1⟩
  · cases hs

/-! ### Changes -/

variable [DecidableEq ι]

/-- What an operation of a call may change. -/
inductive Change (cfg : Config) (i : ι) (files : Files ι) : Files ι → Prop where
  | refl : Change cfg i files files
  | createDirectory (metadata : Metadata) (h : files.directory = none) :
    Change cfg i files { files with directory := some metadata }
  | createLock (metadata : Metadata) (h : files.lockFile = none) :
    Change cfg i files { files with lockFile := some metadata }
  | acquire (h : files.holder = none) : Change cfg i files { files with holder := some i }
  | release : Change cfg i files (files.release i)
  | edit (f : Option Inode → Option Inode) (hholder : files.holder = some i)
    (hrecord : files.record = none) : Change cfg i files (files.edit i f)
  | publish (anchor : DeviceAnchor) (hholder : files.holder = some i)
    (hrecord : files.record = none)
    (hpublished : Published cfg { files with record := some i } anchor) :
    Change cfg i files { files with record := some i }

/-! ### What the others keep -/

namespace Change

variable (h : Change cfg i files files')
include h

theorem directory {metadata : Metadata}
    (hdirectory : files.directory = some metadata) : files'.directory = some metadata := by
  cases h with
  | createDirectory _ hnone => rw [hnone] at hdirectory; cases hdirectory
  | _ => exact hdirectory

theorem lockFile {metadata : Metadata}
    (hlock : files.lockFile = some metadata) : files'.lockFile = some metadata := by
  cases h with
  | createLock _ hnone => rw [hnone] at hlock; cases hlock
  | _ => exact hlock

theorem ready (hready : Ready cfg files) : Ready cfg files' := by
  obtain ⟨⟨directory, hdirectory, hvalid⟩, lock, hlock, hlockValid⟩ := hready
  exact ⟨⟨directory, h.directory hdirectory, hvalid⟩, lock, h.lockFile hlock, hlockValid⟩

theorem record {inode : ι} (hrecord : files.record = some inode) :
    files'.record = some inode ∧ files'.inodes = files.inodes := by
  cases h with
  | edit _ _ hnone | publish _ _ hnone _ => rw [hnone] at hrecord; cases hrecord
  | _ => exact ⟨hrecord, rfl⟩

theorem published {anchor : DeviceAnchor}
    (hpublished : Published cfg files anchor) : Published cfg files' anchor := by
  obtain ⟨hready, hvalid, inode, hrecord, hinode⟩ := hpublished
  obtain ⟨hrecord', hinodes⟩ := h.record hrecord
  exact ⟨h.ready hready, hvalid, inode, hrecord', hinodes ▸ hinode⟩

theorem inode (hne : k ≠ i) : files'.inodes k = files.inodes k := by
  cases h with
  | edit f _ _ => exact Function.update_of_ne hne _ _
  | _ => rfl

theorem holder (hne : k ≠ i) : files'.holder = some k ↔ files.holder = some k := by
  have hne' : some i ≠ some k := fun h => hne (Option.some.inj h).symm
  cases h with
  | acquire hnone => simp [hnone, Ne.symm hne]
  | release =>
    unfold Files.release
    dsimp only
    split_ifs with hi
    · rw [hi]
      exact ⟨nofun, fun h => absurd h hne'⟩
    · exact Iff.rfl
  | _ => exact Iff.rfl

theorem record_eq_none (hne : k ≠ i) (hholder : files.holder = some k)
    (hnone : files.record = none) : files'.record = none := by
  cases h with
  | publish _ hi _ _ =>
    rw [hholder] at hi
    exact absurd (Option.some.inj hi) hne
  | _ => exact hnone

theorem holds {pc : Pc ι} (hne : k ≠ i) (hk : Holds cfg k files pc) : Holds cfg k files' pc := by
  obtain ⟨hholder, hknows⟩ := hk
  refine ⟨(h.holder hne).trans hholder, ?_⟩
  have hnone : pc.inside = true → files.record = none → files'.record = none :=
    fun hinside => h.record_eq_none hne (hholder.mpr hinside)
  have hinode := h.inode hne
  have hready := h.ready
  cases pc with
  | idle | createDirectory | syncParent | validateDirectory | crashed => trivial
  | openLock =>
    obtain ⟨metadata, hdirectory, hvalid⟩ := hknows
    exact ⟨metadata, h.directory hdirectory, hvalid⟩
  | validateLock =>
    obtain ⟨⟨metadata, hdirectory, hvalid⟩, lock, hlock⟩ := hknows
    exact ⟨⟨metadata, h.directory hdirectory, hvalid⟩, lock, h.lockFile hlock⟩
  | lock | openRecord => exact hready hknows
  | validateRecord inode | measureRecord inode =>
    exact ⟨hready hknows.1, (h.record hknows.2).1⟩
  | readRecord inode bytes =>
    obtain ⟨hr, hrecord, hnode⟩ := hknows
    obtain ⟨hrecord', hinodes⟩ := h.record hrecord
    exact ⟨hready hr, hrecord', hinodes ▸ hnode⟩
  | collect | dropTemporary _ => exact ⟨hready hknows.1, hnone rfl hknows.2⟩
  | createTemporary anchor => exact ⟨hready hknows.1, hnone rfl hknows.2.1, hknows.2.2⟩
  | setPermissions anchor | write anchor | sync anchor | persist anchor =>
    obtain ⟨hr, hrecord, hvalid, hown⟩ := hknows
    exact ⟨hready hr, hnone rfl hrecord, hvalid, hinode ▸ hown⟩
  | syncDirectory anchor => exact h.published hknows
  | unlock result =>
    cases result with
    | error error => exact hready hknows
    | ok anchor => exact h.published hknows
  | done result =>
    cases result with
    | error error => trivial
    | ok anchor => exact h.published hknows

end Change

/-! ### One step -/

/-- A record is that of an anchor. -/
def Recorded (cfg : Config) (files : Files ι) : Prop :=
  ∀ inode, files.record = some inode → ∃ anchor, Published cfg files anchor

theorem Change.recorded (h : Change cfg i files files') (hrecorded : Recorded cfg files) :
    Recorded cfg files' := by
  intro inode hinode
  cases hrecord : files.record with
  | some old =>
    obtain ⟨anchor, hpublished⟩ := hrecorded old hrecord
    exact ⟨anchor, h.published hpublished⟩
  | none =>
    cases h with
    | publish anchor _ _ hpublished => exact ⟨anchor, hpublished⟩
    | _ => exact absurd (hrecord.symm.trans hinode) nofun

section Step

variable {pc pc' : Pc ι}

theorem Ready.edit (h : Ready cfg files) (f : Option Inode → Option Inode) :
    Ready cfg (files.edit i f) := ⟨h.directory, h.lockFile⟩

theorem Files.holder_release (h : files.holder = some i) : (files.release i).holder = none := by
  simp [Files.release, h]

theorem succeed_holds (h : Holds cfg i files pc) (hs : succeed cfg i files pc = some (files', pc')) :
    Change cfg i files files' ∧ Holds cfg i files' pc' := by
  obtain ⟨hholder, hknows⟩ := h
  cases pc with
  | idle | syncParent =>
    cases hs
    exact ⟨.refl, hholder, trivial⟩
  | createDirectory =>
    rw [succeed] at hs
    split at hs
    · rename_i hnone
      cases hs
      exact ⟨.createDirectory _ hnone, hholder, trivial⟩
    · cases hs
      exact ⟨.refl, hholder, trivial⟩
  | validateDirectory =>
    rw [succeed] at hs
    split at hs
    · cases hs
      exact ⟨.refl, hholder, trivial⟩
    · rename_i metadata hdirectory
      obtain ⟨rfl, ⟨hvalid, rfl⟩ | ⟨error, rfl⟩⟩ := proceed_eq (Option.some.inj hs)
      · exact ⟨.refl, hholder, metadata, hdirectory, hvalid⟩
      · exact ⟨.refl, hholder, trivial⟩
  | openLock =>
    rw [succeed] at hs
    split at hs
    · rename_i hnone
      cases hs
      exact ⟨.createLock _ hnone, hholder, hknows, _, rfl⟩
    · rename_i metadata hlock
      split_ifs at hs
      · cases hs
        exact ⟨.refl, hholder, trivial⟩
      · cases hs
        exact ⟨.refl, hholder, hknows, metadata, hlock⟩
  | validateLock =>
    rw [succeed] at hs
    split at hs
    · cases hs
    · rename_i metadata hlock
      obtain ⟨rfl, ⟨hvalid, rfl⟩ | ⟨error, rfl⟩⟩ := proceed_eq (Option.some.inj hs)
      · exact ⟨.refl, hholder, hknows.1, metadata, hlock, hvalid⟩
      · exact ⟨.refl, hholder, trivial⟩
  | lock =>
    rw [succeed] at hs
    split_ifs at hs with hnone
    cases hs
    exact ⟨.acquire hnone, ⟨fun _ => rfl, fun _ => rfl⟩, hknows.directory, hknows.lockFile⟩
  | openRecord =>
    rw [succeed] at hs
    split at hs
    · rename_i hnone
      cases hs
      exact ⟨.refl, hholder, hknows, hnone⟩
    · rename_i inode hrecord
      cases hs
      exact ⟨.refl, hholder, hknows, hrecord⟩
  | validateRecord inode =>
    obtain ⟨node, -, hs⟩ := Option.map_eq_some_iff.mp hs
    obtain ⟨rfl, ⟨-, rfl⟩ | ⟨error, rfl⟩⟩ := proceed_eq hs
    · exact ⟨.refl, hholder, hknows⟩
    · exact ⟨.refl, hholder, hknows.1⟩
  | measureRecord inode =>
    obtain ⟨node, hnode, hs⟩ := Option.map_eq_some_iff.mp hs
    obtain ⟨rfl, ⟨-, rfl⟩ | ⟨error, rfl⟩⟩ := proceed_eq hs
    · exact ⟨.refl, hholder, hknows.1, hknows.2, node, hnode, List.nil_prefix⟩
    · exact ⟨.refl, hholder, hknows.1⟩
  | createTemporary anchor =>
    obtain ⟨hready, hrecord, hvalid⟩ := hknows
    cases hs
    exact ⟨.edit _ (hholder.mpr rfl) hrecord, hholder, hready.edit _, hrecord, hvalid, _,
      Function.update_self _ _ _⟩
  | setPermissions anchor =>
    obtain ⟨hready, hrecord, hvalid, mode, hinode⟩ := hknows
    cases hs
    refine ⟨.edit _ (hholder.mpr rfl) hrecord, hholder, hready.edit _, hrecord, hvalid, [], ?_,
      List.nil_prefix⟩
    rw [Files.edit, hinode]
    exact Function.update_self _ _ _
  | write anchor =>
    obtain ⟨hready, hrecord, hvalid, contents, hinode, hbegins⟩ := hknows
    obtain ⟨node, hnode, hs⟩ := Option.bind_eq_some_iff.mp hs
    obtain rfl := Option.some.inj (hinode.symm.trans hnode)
    split_ifs at hs with hlength
    cases hs
    rw [hbegins.eq_of_length hlength] at hinode
    exact ⟨.refl, hholder, hready, hrecord, hvalid, hinode⟩
  | sync anchor =>
    cases hs
    exact ⟨.refl, hholder, hknows⟩
  | persist anchor =>
    obtain ⟨hready, hrecord, hvalid, hinode⟩ := hknows
    rw [succeed] at hs
    rw [hrecord] at hs
    cases hs
    have hpublished : Published cfg { files with record := some i } anchor :=
      ⟨⟨hready.directory, hready.lockFile⟩, hvalid, i, rfl, hinode⟩
    exact ⟨.publish anchor (hholder.mpr rfl) hrecord hpublished, hholder, hpublished⟩
  | syncDirectory anchor =>
    cases hs
    exact ⟨.refl, hholder, hknows⟩
  | dropTemporary error =>
    cases hs
    exact ⟨.edit _ (hholder.mpr rfl) hknows.2, hholder, hknows.1.edit _⟩
  | unlock result =>
    cases hs
    have hnone := Files.holder_release (hholder.mpr rfl)
    refine ⟨.release, ⟨fun h => absurd (hnone.symm.trans h) nofun, nofun⟩, ?_⟩
    cases result with
    | error error => trivial
    | ok anchor => exact Change.release.published hknows
  | readRecord inode bytes => cases hs
  | collect => cases hs
  | done result => cases hs
  | crashed => cases hs

theorem transfer_holds {count : ℕ} (hrecorded : Recorded cfg files) (h : Holds cfg i files pc)
    (hs : transfer cfg i files count pc = some (files', pc')) :
    Change cfg i files files' ∧ Holds cfg i files' pc' := by
  obtain ⟨hholder, hknows⟩ := h
  unfold transfer at hs
  split at hs
  · rename_i anchor
    obtain ⟨hready, hrecord, hvalid, contents, hinode, hbegins⟩ := hknows
    obtain ⟨node, hnode, hs⟩ := Option.bind_eq_some_iff.mp hs
    obtain rfl := Option.some.inj (hinode.symm.trans hnode)
    dsimp only at hs
    split_ifs at hs
    cases hs
    refine ⟨.edit _ (hholder.mpr rfl) hrecord, hholder, hready.edit _, hrecord, hvalid, _,
      Function.update_self _ _ _, ?_⟩
    -- what is written next follows what has been written
    obtain ⟨rest, hrest⟩ := hbegins
    rw [← hrest, List.drop_left]
    exact (List.prefix_append_right_inj _).mpr (List.take_prefix _ _)
  · rename_i inode bytes
    obtain ⟨hready, hrecord, node, hnode, hbegins⟩ := hknows
    obtain ⟨node', hnode', hs⟩ := Option.bind_eq_some_iff.mp hs
    obtain rfl := Option.some.inj (hnode.symm.trans hnode')
    obtain ⟨anchor, hpublished⟩ := hrecorded inode hrecord
    have hcontents : node.contents = written anchor :=
      congrArg Inode.contents (hpublished.of_record hrecord hnode)
    obtain ⟨rest, hrest⟩ := hbegins
    dsimp only at hs
    rw [← hrest, List.drop_left] at hs
    split_ifs at hs with hcount hend
    · cases hs
      -- the end of the file: the whole record has been read
      have hnil : rest = [] := by
        cases rest with
        | nil => rfl
        | cons b rest => simp [Nat.ne_of_gt hcount] at hend
      have hbytes : bytes = written anchor := by
        rw [← hcontents, ← hrest, hnil, List.append_nil]
      refine ⟨.refl, hholder, ?_⟩
      rw [hbytes, checkRecord_written hpublished.valid]
      exact hpublished
    · cases hs
      refine ⟨.refl, hholder, hready, hrecord, node, hnode, ?_⟩
      rw [← hrest]
      exact (List.prefix_append_right_inj _).mpr (List.take_prefix _ _)
  · cases hs

/-- **One step** of a call: what it may change, and what it then knows. -/
theorem resolveIn_holds {event : Event} (hrecorded : Recorded cfg files) (h : Holds cfg i files pc)
    (hs : resolveIn cfg i files pc event = some (files', pc')) :
    Change cfg i files files' ∧ Holds cfg i files' pc' := by
  cases event with
  | ok => exact succeed_holds h hs
  | fail =>
    obtain ⟨next, hnext, hs⟩ := Option.map_eq_some_iff.mp hs
    cases hs
    exact ⟨.refl, failed_holds h hnext⟩
  | collected result =>
    obtain ⟨rfl, hholds⟩ := collected_holds h hs
    exact ⟨.refl, hholds⟩
  | transfer count => exact transfer_holds hrecorded h hs
  | crash =>
    have hcrash : files' = files.release i ∧ pc' = .crashed := by
      cases pc <;> cases hs <;> exact ⟨rfl, rfl⟩
    obtain ⟨rfl, rfl⟩ := hcrash
    refine ⟨.release, ⟨fun h => ?_, nofun⟩, trivial⟩
    unfold Files.release at h
    dsimp only at h
    split_ifs at h with hi
    exact absurd h hi

end Step

end GlobalProtect.Service.Anchor
