import GlobalProtect.Service.Anchor.Sharing

/-! # One anchor for all calls

Every call that returns an anchor returns the one in the record. Once there is a record, the calls
only read it: each operation brings a call closer to its end, and without a failure to the anchor of
the record (`resolveIn_progress`). `anchors_converge` says so of all runs. -/

namespace GlobalProtect.Service.Anchor

open Lib

variable {ι : Type} {cfg : Config} {i k : ι} {files files' : Files ι}

/-! ### Calls once there is a record -/

section Later

variable {pc pc' : Pc ι} {anchor : DeviceAnchor} {event : Event}

/-- The call has not met an error. -/
def Pc.clean : Pc ι → Bool
  | .dropTemporary _ | .unlock (.error _) | .done (.error _) => false
  | _ => true

/-- The operations that a call still makes at most, where a record of `length` bytes is there. -/
def Pc.rank (length : ℕ) : Pc ι → ℕ
  | .idle => length + 12
  | .createDirectory => length + 11
  | .syncParent => length + 10
  | .validateDirectory => length + 9
  | .openLock => length + 8
  | .validateLock => length + 7
  | .lock => length + 6
  | .openRecord => length + 5
  | .validateRecord _ => length + 4
  | .measureRecord _ => length + 3
  | .readRecord _ bytes => length - bytes.length + 2
  | .syncDirectory _ => 2
  | .unlock _ => 1
  | _ => 0

/-- What a step does once there is a record. -/
structure Progress (anchor : DeviceAnchor) (pc : Pc ι) (event : Event) (pc' : Pc ι) : Prop where
  clean : pc.clean = true → event ≠ .fail → pc'.clean = true
  rank : pc'.rank (written anchor).length < pc.rank (written anchor).length
  reads : ∀ result, event ≠ .collected result

theorem failed_progress (hp : Published cfg files anchor) (h : Holds cfg i files pc)
    (hs : failed pc = some pc') : Progress anchor pc .fail pc' := by
  refine ⟨fun _ hne => absurd rfl hne, ?_, nofun⟩
  cases pc with
  | createTemporary _ | setPermissions _ | write _ | sync _ | persist _ =>
    exact absurd h.2.2.1 hp.record_ne_none
  | dropTemporary _ => exact absurd h.2.2 hp.record_ne_none
  | idle | collect | unlock _ | done _ | crashed => cases hs
  | _ =>
    cases hs
    simp [Pc.rank]

variable [DecidableEq ι]

theorem validateMetadata_fileType {metadata : Metadata}
    (h : validateMetadata metadata cfg.owner false = .ok ()) : metadata.fileType = .regular :=
  of_decide_eq_true (ensure_bind_eq_ok.mp h).1

theorem succeed_progress (hp : Published cfg files anchor) (h : Holds cfg i files pc)
    (hs : succeed cfg i files pc = some (files', pc')) : Progress anchor pc .ok pc' := by
  obtain ⟨directory, hdirectory, hdirectoryValid⟩ := hp.ready.directory
  obtain ⟨lock, hlock, hlockValid⟩ := hp.ready.lockFile
  obtain ⟨inode, hrecord, hinode⟩ := hp.record
  have hgo : ∀ {pc pc' : Pc ι}, pc'.clean = true →
      pc'.rank (written anchor).length < pc.rank (written anchor).length →
        Progress anchor pc .ok pc' := fun hclean hrank => ⟨fun _ _ => hclean, hrank, nofun⟩
  cases pc with
  | idle | syncParent =>
    cases hs
    exact hgo rfl (Nat.lt_succ_self _)
  | createDirectory =>
    rw [succeed, hdirectory] at hs
    cases hs
    exact hgo rfl (Nat.lt_add_of_pos_right (by decide : 0 < 2))
  | validateDirectory =>
    rw [succeed, hdirectory] at hs
    dsimp only at hs
    rw [hdirectoryValid] at hs
    cases hs
    exact hgo rfl (Nat.lt_succ_self _)
  | openLock =>
    rw [succeed, hlock] at hs
    dsimp only at hs
    rw [if_neg (by rw [validateMetadata_fileType hlockValid]; decide)] at hs
    cases hs
    exact hgo rfl (Nat.lt_succ_self _)
  | validateLock =>
    rw [succeed, hlock] at hs
    dsimp only at hs
    rw [hlockValid] at hs
    cases hs
    exact hgo rfl (Nat.lt_succ_self _)
  | lock =>
    rw [succeed] at hs
    split_ifs at hs
    cases hs
    exact hgo rfl (Nat.lt_succ_self _)
  | openRecord =>
    rw [succeed, hrecord] at hs
    cases hs
    exact hgo rfl (Nat.lt_succ_self _)
  | validateRecord inode' =>
    obtain ⟨node, hnode, hs⟩ := Option.map_eq_some_iff.mp hs
    rw [hp.of_record h.2.2 hnode, recordInode, validateMetadata_privateMetadata] at hs
    cases hs
    exact hgo rfl (Nat.lt_succ_self _)
  | measureRecord inode' =>
    obtain ⟨node, hnode, hs⟩ := Option.map_eq_some_iff.mp hs
    have hlength : node.contents.length ≤ 4096 := by
      rw [hp.of_record h.2.2 hnode]
      exact length_written_le hp.valid
    rw [ensure, if_pos (decide_eq_true hlength)] at hs
    cases hs
    exact hgo rfl (Nat.lt_succ_self _)
  | unlock result =>
    cases hs
    refine ⟨fun hclean _ => ?_, Nat.one_pos, nofun⟩
    cases result with
    | error error => cases hclean
    | ok anchor => rfl
  | createTemporary _ | setPermissions _ | write _ | sync _ | persist _ =>
    exact absurd h.2.2.1 hp.record_ne_none
  | dropTemporary _ => exact absurd h.2.2 hp.record_ne_none
  | syncDirectory _ =>
    cases hs
    exact hgo rfl (Nat.lt_succ_self 1)
  | readRecord _ _ | collect | done _ | crashed => cases hs

theorem transfer_progress {count : ℕ} (hp : Published cfg files anchor) (h : Holds cfg i files pc)
    (hs : transfer cfg i files count pc = some (files', pc')) :
    Progress anchor pc (.transfer count) pc' := by
  unfold transfer at hs
  split at hs
  · exact absurd h.2.2.1 hp.record_ne_none
  · rename_i inode bytes
    obtain ⟨-, hrecord, node, hnode, rest, hrest⟩ := h.2
    obtain ⟨node', hnode', hs⟩ := Option.bind_eq_some_iff.mp hs
    obtain rfl := Option.some.inj (hnode.symm.trans hnode')
    have hcontents : bytes ++ rest = written anchor := by
      rw [hrest, hp.of_record hrecord hnode, recordInode]
    dsimp only at hs
    rw [← hrest, List.drop_left] at hs
    split_ifs at hs with hcount hend
    · cases hs
      have hnil : rest = [] := by
        cases rest with
        | nil => rfl
        | cons b rest => simp [Nat.ne_of_gt hcount] at hend
      rw [hnil, List.append_nil] at hcontents
      rw [hcontents, checkRecord_written hp.valid]
      exact ⟨fun _ _ => rfl, by simp [Pc.rank], by simp⟩
    · cases hs
      have hpos : 0 < (rest.take count).length := List.length_pos_iff.mpr hend
      have hle : (rest.take count).length ≤ rest.length := List.length_take_le' _ _
      have hlength := congrArg List.length hcontents
      refine ⟨fun _ _ => rfl, ?_, by simp⟩
      simp only [Pc.rank, List.length_append] at hlength ⊢
      omega
  · cases hs

/-- **One step** of a call once there is a record. -/
theorem resolveIn_progress (hp : Published cfg files anchor) (h : Holds cfg i files pc)
    (hs : resolveIn cfg i files pc event = some (files', pc')) : Progress anchor pc event pc' := by
  cases event with
  | ok => exact succeed_progress hp h hs
  | fail =>
    obtain ⟨next, hnext, hs⟩ := Option.map_eq_some_iff.mp hs
    cases hs
    exact failed_progress hp h hnext
  | collected result =>
    rw [resolveIn, collected.eq_def] at hs
    split at hs
    · exact absurd h.2.2 hp.record_ne_none
    · cases hs
  | transfer count => exact transfer_progress hp h hs
  | crash =>
    cases pc with
    | idle | done _ | crashed => cases hs
    | createTemporary _ | setPermissions _ | write _ | sync _ | persist _ =>
      exact absurd h.2.2.1 hp.record_ne_none
    | collect | dropTemporary _ => exact absurd h.2.2 hp.record_ne_none
    | _ =>
      cases hs
      exact ⟨fun _ _ => rfl, by simp [Pc.rank], nofun⟩

theorem resolveIn_isSome (hrecorded : Recorded cfg files) (h : Holds cfg i files pc)
    (hidle : pc ≠ .idle) (hdone : ∀ result, pc ≠ .done result) (hcrashed : pc ≠ .crashed)
    (hlock : pc = .lock → files.holder = none) :
    ∃ event, event ≠ .fail ∧ event ≠ .crash ∧ (resolveIn cfg i files pc event).isSome = true := by
  have hok : (succeed cfg i files pc).isSome = true → ∃ event, event ≠ .fail ∧ event ≠ .crash ∧
      (resolveIn cfg i files pc event).isSome = true := fun h => ⟨.ok, by simp, by simp, h⟩
  have hinode : ∀ inode, files.record = some inode → ∃ node, files.inodes inode = some node := by
    intro inode hrecord
    obtain ⟨anchor, hp⟩ := hrecorded inode hrecord
    obtain ⟨inode', hrecord', hinode⟩ := hp.record
    obtain rfl := Option.some.inj (hrecord'.symm.trans hrecord)
    exact ⟨_, hinode⟩
  cases pc with
  | idle => exact absurd rfl hidle
  | done result => exact absurd rfl (hdone result)
  | crashed => exact absurd rfl hcrashed
  | createDirectory | validateDirectory | openRecord | persist _ =>
    refine hok ?_
    rw [succeed]
    split <;> rfl
  | openLock =>
    refine hok ?_
    rw [succeed]
    split
    · rfl
    · split_ifs <;> rfl
  | validateLock =>
    obtain ⟨metadata, hmetadata⟩ := h.2.2
    refine hok ?_
    rw [succeed, hmetadata]
    rfl
  | lock =>
    refine hok ?_
    rw [succeed, if_pos (hlock rfl)]
    rfl
  | validateRecord inode | measureRecord inode =>
    obtain ⟨node, hnode⟩ := hinode inode h.2.2
    refine hok ?_
    rw [succeed, hnode]
    rfl
  | readRecord inode bytes =>
    obtain ⟨-, -, node, hnode, -⟩ := h.2
    refine ⟨.transfer 1, by simp, by simp, ?_⟩
    rw [resolveIn, transfer, hnode, Option.bind_some, if_pos Nat.one_pos]
    split_ifs <;> rfl
  | collect => exact ⟨.collected (.error .io), by simp, by simp, rfl⟩
  | write anchor =>
    obtain ⟨-, -, -, contents, hnode, hprefix⟩ := h.2
    rcases Nat.lt_or_ge contents.length (written anchor).length with hlt | hge
    · refine ⟨.transfer 1, by simp, by simp, ?_⟩
      rw [resolveIn, transfer, hnode, Option.bind_some, if_pos ⟨Nat.one_pos, hlt⟩]
      rfl
    · refine hok ?_
      rw [succeed, hnode, Option.bind_some, if_pos (Nat.le_antisymm hprefix.length_le hge)]
      rfl
  | _ => exact hok rfl

end Later

/-! ### Two calls -/

section TwoCalls

/-- What is written before the identifier. -/
def header : List Char :=
  ['\x7b'] ++ Json.writeString "version" ++ [':', '1', ','] ++ Json.writeString "anchor" ++
    [':', '\x7b'] ++ Json.writeString "hardware_id" ++ [':', '"']

/-- What is written after the identifier. -/
def footer (source : AnchorSource) : List Char :=
  [','] ++ Json.writeString "source" ++ [':'] ++ Nat.toDigits 10 source.code ++ ['\x7d', '\x7d']

/-- Reads the texts that the service writes. -/
def parseText (text : List Char) : Option Record :=
  if header.isPrefixOf text then
    (Json.readString (text.drop header.length)).bind fun (hardwareId, rest) =>
      ([.unixMac, .unixRandom, .macosIokit].find? fun source => rest = footer source).map
        fun source => ⟨1, ⟨String.ofList hardwareId, source⟩⟩
  else none

theorem write_toJson (anchor : DeviceAnchor) : (Record.toJson ⟨1, anchor⟩).write =
    header ++ (Json.escaped anchor.hardwareId.toList ++ '"' :: footer anchor.source) := by
  have hdigits : Nat.toDigits 10 1 = ['1'] := by decide
  have hid : Json.writeString anchor.hardwareId =
      '"' :: (Json.escaped anchor.hardwareId.toList ++ ['"']) := rfl
  simp only [Record.toJson, Json.write, Json.writeField, Json.writeFields, hdigits, hid, header,
    footer, List.append_assoc, List.cons_append, List.append_nil]
  rfl

theorem find?_footer (source : AnchorSource) :
    [.unixMac, .unixRandom, .macosIokit].find? (fun other => footer source = footer other) =
      some source := by
  cases source <;> decide

def sampleConfig : Config where
  owner := 0
  umask := 0o022
  parse bytes := (Utf8.decode? bytes).bind parseText
  parse_written anchor := by
    rw [written, Record.toBytes, Utf8.decode?_encode, Option.bind_some, write_toJson, parseText,
      if_pos (List.isPrefixOf_iff_prefix.mpr (List.prefix_append _ _)), List.drop_left,
      Json.readString_escaped, Option.bind_some]
    dsimp only
    rw [find?_footer]
    simp

def sampleAnchor : DeviceAnchor :=
  ⟨"AAAAAAAAAAAAAAAAAAAAAAAAAAAAAAAAAAAAAAAAAAA", .unixMac⟩

/-- Both calls begin before there is a directory; one publishes its anchor, and the other reads it. -/
def sampleRun : List (Bool × Event) :=
  [(false, .ok), (true, .ok), (true, .ok), (false, .ok), (false, .ok), (false, .ok), (true, .ok),
    (true, .ok), (false, .ok), (false, .ok), (true, .ok), (true, .ok), (false, .ok),
    (false, .collected (.ok sampleAnchor)), (false, .ok), (false, .ok), (false, .transfer 50),
    (false, .transfer 100), (false, .ok), (false, .ok), (false, .ok), (false, .ok), (false, .ok),
    (true, .ok), (true, .ok), (true, .ok), (true, .ok), (true, .transfer 200), (true, .transfer 200),
    (true, .ok)]

def returned (s : Processes.State Bool (Files Bool) (Pc Bool)) (i : Bool) : Bool :=
  match s.own i with
  | .done (.ok anchor) => anchor = sampleAnchor
  | _ => false

theorem sampleRun_returns : (((calls Bool sampleConfig none none).machine.run
    (calls Bool sampleConfig none none).machine.init sampleRun).any fun s =>
      returned s false && returned s true) = true := by
  decide +kernel

end TwoCalls

/-! ### Runs -/

section Runs

variable [DecidableEq ι] {directory lockFile : Option Metadata} {s s' : Processes.State ι (Files ι) (Pc ι)}
  {anchor : DeviceAnchor}

/-- A call can make its next operation. -/
def Proceeds (cfg : Config) (s : Processes.State ι (Files ι) (Pc ι)) (i : ι) : Prop :=
  ∃ event, event ≠ .fail ∧ event ≠ .crash ∧
    (resolveIn cfg i s.shared (s.own i) event).isSome = true

theorem reachable_outline (hs : (calls ι cfg directory lockFile).machine.Reachable s) :
    Processes.Outline (Recorded cfg) (Holds cfg) s := by
  refine Processes.Reachable.outline (R := Change cfg) ?_ ?_ ?_ hs
  · intro i files pc event files' pc' hrecorded hholds hact
    obtain ⟨hchange, hholds'⟩ := resolveIn_holds hrecorded hholds hact
    exact ⟨hchange.recorded hrecorded, hholds', hchange⟩
  · intro i k files files' pc hne hchange hholds
    exact hchange.holds hne hholds
  · exact ⟨nofun, fun i => ⟨⟨nofun, nofun⟩, trivial⟩⟩

/-- There is a record of the anchor, and every call knows what it is to know. -/
def Anchored (cfg : Config) (anchor : DeviceAnchor) (s : Processes.State ι (Files ι) (Pc ι)) : Prop :=
  Processes.Outline (Recorded cfg) (Holds cfg) s ∧ Published cfg s.shared anchor

section

variable (hs : Anchored cfg anchor s)
include hs

theorem Anchored.step {l : ι × Event}
    (h : (calls ι cfg directory lockFile).machine.step s l = some s') :
    Anchored cfg anchor s' ∧ Progress anchor (s.own l.1) l.2 (s'.own l.1) := by
  obtain ⟨hout, hp⟩ := hs
  obtain ⟨i, event⟩ := l
  obtain ⟨files, pc, hact, rfl⟩ := Processes.step_eq_some.mp h
  obtain ⟨hchange, hholds⟩ := resolveIn_holds hout.1 (hout.2 i) hact
  refine ⟨⟨⟨hchange.recorded hout.1, fun k => ?_⟩, hchange.published hp⟩, ?_⟩
  · by_cases hk : k = i
    · subst hk
      simpa using hholds
    · simpa [hk] using hchange.holds hk (hout.2 k)
  · simpa using resolveIn_progress hp (hout.2 i) hact

theorem Anchored.run {ls : List (ι × Event)}
    (h : (calls ι cfg directory lockFile).machine.run s ls = some s') : Anchored cfg anchor s' :=
  Machine.run_keeps (fun _ _ _ hs hstep => (Anchored.step hs hstep).1) ls s hs h

theorem Anchored.collected_notMem {ls : List (ι × Event)}
    (h : (calls ι cfg directory lockFile).machine.run s ls = some s') (i : ι)
    (result : Except Error DeviceAnchor) : (i, Event.collected result) ∉ ls := by
  intro hmem
  obtain ⟨before, after, rfl⟩ := List.append_of_mem hmem
  obtain ⟨m, hm, h⟩ := Machine.run_append.mp h
  obtain ⟨m', hstep, -⟩ := Machine.run_cons.mp h
  exact ((hs.run hm).step hstep).2.reads result rfl

/-- A call none of whose operations fails meets no error. -/
theorem Anchored.clean {ls : List (ι × Event)} {i : ι}
    (h : (calls ι cfg directory lockFile).machine.run s ls = some s')
    (hclean : (s.own i).clean = true) (hfail : (i, Event.fail) ∉ ls) :
    (s'.own i).clean = true := by
  induction ls generalizing s with
  | nil =>
    cases h
    exact hclean
  | cons l ls ih =>
    obtain ⟨m, hm, h⟩ := Machine.run_cons.mp h
    obtain ⟨hanchored, hprogress⟩ := hs.step hm
    rw [List.mem_cons, not_or] at hfail
    refine ih hanchored h ?_ hfail.2
    obtain ⟨k, event⟩ := l
    by_cases hk : i = k
    · subst hk
      exact hprogress.clean hclean fun hevent => hfail.1 (congrArg _ hevent.symm)
    · rw [Processes.own_of_ne hk hm]
      exact hclean

theorem Anchored.count_le {ls : List (ι × Event)}
    (h : (calls ι cfg directory lockFile).machine.run s ls = some s') (i : ι) :
    ls.countP (fun l => l.1 = i) ≤ (s.own i).rank (written anchor).length := by
  have hcount := Processes.run_count_le (Q := Anchored cfg anchor) i
    (fun _ _ _ hs hstep => (hs.step hstep).1) (fun _ _ _ hs hstep => (hs.step hstep).2.rank) hs h
  omega

/-- No call waits for ever: it can go on itself, or the call that has the lock can. -/
theorem Anchored.proceeds {i : ι} (hidle : s.own i ≠ .idle)
    (hdone : ∀ result, s.own i ≠ .done result) (hcrashed : s.own i ≠ .crashed) :
    Proceeds cfg s i ∨ ∃ k, s.shared.holder = some k ∧ Proceeds cfg s k := by
  obtain ⟨⟨hrecorded, hholds⟩, -⟩ := hs
  by_cases hwait : s.own i = .lock ∧ s.shared.holder ≠ none
  · obtain ⟨k, hk⟩ := Option.ne_none_iff_exists'.mp hwait.2
    have hinside := (hholds k).1.mp hk
    refine .inr ⟨k, hk, resolveIn_isSome hrecorded (hholds k) ?_ ?_ ?_ ?_⟩
    · exact fun h => by rw [h] at hinside; cases hinside
    · exact fun _ h => by rw [h] at hinside; cases hinside
    · exact fun h => by rw [h] at hinside; cases hinside
    · exact fun h => by rw [h] at hinside; cases hinside
  · rw [not_and_not_right] at hwait
    exact .inl (resolveIn_isSome hrecorded (hholds i) hidle hdone hcrashed hwait)

end

/-- **All calls agree on one anchor**, however they interleave and wherever they crash. Once there is a
record it stays as it is, and a call that begins then returns its anchor: it does not collect one,
makes a bounded number of operations, and never waits for a call that cannot go on. -/
theorem anchors_converge (hs : (calls ι cfg directory lockFile).machine.Reachable s) :
    (∀ i k anchor anchor', s.own i = .done (.ok anchor) → s.own k = .done (.ok anchor') →
      anchor = anchor') ∧
    ∀ bytes, s.shared.recordContents = some bytes → ∃ anchor, cfg.parse bytes = some ⟨1, anchor⟩ ∧
      ∀ ls s', (calls ι cfg directory lockFile).machine.run s ls = some s' →
        s'.shared.recordContents = some bytes ∧
        ∀ i, s.own i = .idle →
          (∀ result, (i, .collected result) ∉ ls) ∧
          (∀ result, s'.own i = .done result → (i, .fail) ∉ ls → result = .ok anchor) ∧
          ls.countP (fun l => l.1 = i) ≤ bytes.length + 12 ∧
          (s'.own i ≠ .idle → (∀ result, s'.own i ≠ .done result) → s'.own i ≠ .crashed →
            Proceeds cfg s' i ∨ ∃ k, s'.shared.holder = some k ∧ Proceeds cfg s' k) := by
  have hout := reachable_outline hs
  have hreturned : ∀ {s : Processes.State ι (Files ι) (Pc ι)} {i anchor},
      Processes.Outline (Recorded cfg) (Holds cfg) s → s.own i = .done (.ok anchor) →
        Published cfg s.shared anchor := by
    intro s i anchor hout hi
    have hholds := (hout.2 i).2
    rw [hi] at hholds
    exact hholds
  refine ⟨?_, ?_⟩
  · intro i k anchor anchor' hi hk
    exact (hreturned hout hi).unique (hreturned hout hk)
  · intro bytes hbytes
    obtain ⟨node, hnode, rfl⟩ := Option.map_eq_some_iff.mp hbytes
    obtain ⟨inode, hrecord, -⟩ := Option.bind_eq_some_iff.mp hnode
    obtain ⟨anchor, hp⟩ := hout.1 inode hrecord
    obtain hcontents := Option.some.inj (hbytes.symm.trans hp.recordContents)
    rw [hcontents]
    refine ⟨anchor, cfg.parse_written anchor, ?_⟩
    intro ls s' hrun
    have hanchored : Anchored cfg anchor s := ⟨hout, hp⟩
    have hanchored' := hanchored.run hrun
    refine ⟨hanchored'.2.recordContents, fun i hidle => ?_⟩
    refine ⟨hanchored.collected_notMem hrun i, ?_, ?_, hanchored'.proceeds⟩
    · intro result hdone hfail
      have hclean := hanchored.clean hrun (by rw [hidle]; rfl) hfail
      cases result with
      | error error =>
        rw [hdone] at hclean
        cases hclean
      | ok anchor' => rw [(hreturned hanchored'.1 hdone).unique hanchored'.2]
    · have hcount := hanchored.count_le hrun i
      rw [hidle] at hcount
      exact hcount

theorem anchors_converge_two_calls : ∃ s, (calls Bool sampleConfig none none).machine.Reachable s ∧
    (returned s false && returned s true) = true ∧
    ∀ i k anchor anchor', s.own i = .done (.ok anchor) → s.own k = .done (.ok anchor') →
      anchor = anchor' := by
  obtain ⟨s, hs, hreturned⟩ := Machine.Reachable.of_run sampleRun sampleRun_returns
  exact ⟨s, hs, hreturned, (anchors_converge hs).1⟩

end Runs

end GlobalProtect.Service.Anchor
