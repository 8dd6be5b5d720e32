import GlobalProtect.Hip.Approval.Calls

/-! # Approvals cannot be forged, changed or revived

The invariant of the approval directory under installs, revokes and crashes (`Inv`): what stands
under an identifier is the complete directory of a publication that was not revoked, a publication
that was not revoked is there, the installs that run own their staging directories, and the revokes
that have read the metadata are those of the user who published.

From it, `Inv.resolved` says what a success of `resolve_at` means, `Inv.revoke_unowned` that a
revoke by another user changes nothing, `Inv.settled_run` that a revoke which succeeded has renamed,
and `Abandoned.step` that an install which ended before its rename never publishes. -/

namespace GlobalProtect.Hip.Approval

open Lib

variable {β : Type} {cfg : Config β} {t t' : Tree β} {calls calls' : Store ℕ (Call β)}
  {used : Finset String} {published published' : List (Publication β)} {revoked : List String}

/-! ### The invariant -/

/-- What was drawn, published and revoked. -/
structure Books (used : Finset String) (published : List (Publication β)) (revoked : List String) :
    Prop where
  canonical : ∀ id ∈ used, canonicalId id = true
  drawn : ∀ p ∈ published, p.id ∈ used
  distinct : ∀ p ∈ published, ∀ q ∈ published, p.id = q.id → p = q
  revoked : ∀ id ∈ revoked, ∃ p ∈ published, p.id = id

/-- The approvals that stand are the publications that were not revoked. -/
structure Entries (cfg : Config β) (t : Tree β) (published : List (Publication β))
    (revoked : List String) : Prop where
  sound : ∀ id node, canonicalId id = true → t.entries.lookup id = some node →
    id ∉ revoked ∧ ∃ p ∈ published, p.id = id ∧ ∃ d, node = .directory d ∧ d.Complete cfg p
  present : ∀ p ∈ published, p.id ∉ revoked → t.entries.lookup p.id ≠ none

/-- The installs that run have identifiers and staging directories of their own. -/
structure Installs (cfg : Config β) (t : Tree β) (calls : Store ℕ (Call β)) (used : Finset String)
    (published : List (Publication β)) : Prop where
  drawn : ∀ i c, calls.lookup i = some (.install c) → c.id ∈ used
  alone : ∀ i j c c', calls.lookup i = some (.install c) → calls.lookup j = some (.install c') →
    c.id = c'.id → i = j
  pending : ∀ i c, calls.lookup i = some (.install c) → c.pending = true →
    ∀ p ∈ published, p.id ≠ c.id
  apart : ∀ i j c c', calls.lookup i = some (.install c) → calls.lookup j = some (.install c') →
    c.holds = true → c'.holds = true → c.staged = c'.staged → i = j
  stands : ∀ i c, calls.lookup i = some (.install c) → c.Stands cfg t

/-- The revokes that are past their checks are the publisher's. -/
structure Revokes (calls : Store ℕ (Call β)) (published : List (Publication β))
    (revoked : List String) : Prop where
  owner : ∀ i c, calls.lookup i = some (.revoke c) → c.pc.cleared = true →
    ∃ p ∈ published, p.id = c.id ∧ p.uid = c.uid
  renamed : ∀ i c, calls.lookup i = some (.revoke c) → c.pc.renamed = true → c.id ∈ revoked

structure Inv (cfg : Config β) (s : State β) : Prop where
  books : Books s.used s.published s.revoked
  entries : Entries cfg s.tree s.published s.revoked
  installs : Installs cfg s.tree s.calls s.used s.published
  revokes : Revokes s.calls s.published s.revoked
  numbered : ∀ i call, s.calls.lookup i = some call → i < s.next

/-! ### Frames -/

theorem Directory.Complete.eq {p : Publication β} {d : Directory β} (h : d.Complete cfg p) :
    d.files.lookup scriptName = some (.file cfg.fileOwner 0o500 p.contents) ∧
      d.files.lookup metadataName = some (.file cfg.fileOwner 0o600 (p.encoded cfg)) := by
  have hscript := h.1
  have hmetadata := h.2
  rw [Publication.script, List.take_length] at hscript
  rw [Publication.metadata, List.take_length] at hmetadata
  exact ⟨hscript, hmetadata⟩

namespace InstallCall

variable {c : InstallCall β}

theorem holds_of_stage {x : Option (Leaf β) × Option (Leaf β)} (h : c.stage cfg = some x) :
    c.holds = true := by
  unfold stage at h
  unfold holds
  cases hpc : c.pc <;> simp_all

theorem Stands.frame (h : c.Stands cfg t) {name : String} (hsame : t.SameBut t' name)
    (hne : c.holds = true → c.staged ≠ name) : c.Stands cfg t' := by
  intro x hx
  obtain ⟨d, hd, hfiles⟩ := h x hx
  refine ⟨d, ?_, hfiles⟩
  rw [hsame.directory (hne (holds_of_stage hx))]
  exact hd

theorem canonicalId_staged (c : InstallCall β) : canonicalId c.staged = false :=
  canonicalId_install c.suffix

end InstallCall

theorem Entries.frame (h : Entries cfg t published revoked) {name : String}
    (hused : ∀ p ∈ published, canonicalId p.id = true) (hname : canonicalId name = false)
    (hsame : t.SameBut t' name) : Entries cfg t' published revoked where
  sound id node hid hnode := by
    rw [hsame.lookup id (ne_of_canonicalId hid hname)] at hnode
    exact h.sound id node hid hnode
  present p hp hrev := by
    rw [hsame.lookup p.id (ne_of_canonicalId (hused p hp) hname)]
    exact h.present p hp hrev

theorem Installs.mono (h : Installs cfg t calls used published)
    (hsub : ∀ i c, calls'.lookup i = some (.install c) → calls.lookup i = some (.install c))
    (hstands : ∀ i c, calls.lookup i = some (.install c) → c.Stands cfg t') :
    Installs cfg t' calls' used published where
  drawn i c hc := h.drawn i c (hsub i c hc)
  alone i j c c' hc hc' := h.alone i j c c' (hsub i c hc) (hsub j c' hc')
  pending i c hc := h.pending i c (hsub i c hc)
  apart i j c c' hc hc' := h.apart i j c c' (hsub i c hc) (hsub j c' hc')
  stands i c hc := hstands i c (hsub i c hc)

theorem Installs.replace (h : Installs cfg t calls used published) {i : ℕ} {c c' : InstallCall β}
    (hc : calls.lookup i = some (.install c)) (hitem : c'.toPublication = c.toPublication)
    (hpublished : ∀ p ∈ published', p ∈ published ∨ p.id = c.id ∧ c'.pending = false)
    (hpending : c'.pending = true → c.pending = true)
    (hapart : c'.holds = true → ∀ j c₂, calls.lookup j = some (.install c₂) → j ≠ i →
      c₂.holds = true → c₂.staged ≠ c'.staged)
    (hstands : c'.Stands cfg t')
    (hothers : ∀ j c₂, calls.lookup j = some (.install c₂) → j ≠ i → c₂.Stands cfg t') :
    Installs cfg t' (calls.insert i (.install c')) used published' := by
  have hid : c'.id = c.id := congrArg Publication.id hitem
  -- an install of the new store is the one that moved, or an old one of another number
  have hcases (j : ℕ) (c₂ : InstallCall β)
      (hj : (calls.insert i (.install c')).lookup j = some (.install c₂)) :
      (j = i ∧ c₂ = c') ∨ (j ≠ i ∧ calls.lookup j = some (.install c₂)) := by
    rcases Store.lookup_insert_cases hj with ⟨rfl, heq⟩ | ⟨hne, hold⟩
    · exact Or.inl ⟨rfl, Call.install.inj heq⟩
    · exact Or.inr ⟨hne, hold⟩
  constructor
  case drawn =>
    intro j c₂ hj
    rcases hcases j c₂ hj with ⟨rfl, rfl⟩ | ⟨-, hold⟩
    · rw [hid]; exact h.drawn j c hc
    · exact h.drawn j c₂ hold
  case alone =>
    intro j k c₂ c₃ hj hk heq
    rcases hcases j c₂ hj with ⟨rfl, rfl⟩ | ⟨-, holdj⟩ <;>
      rcases hcases k c₃ hk with ⟨rfl, rfl⟩ | ⟨-, holdk⟩
    · rfl
    · exact h.alone _ _ _ _ hc holdk (hid.symm.trans heq)
    · exact h.alone _ _ _ _ holdj hc (heq.trans hid)
    · exact h.alone _ _ _ _ holdj holdk heq
  case pending =>
    intro j c₂ hj hp p hmem
    rcases hcases j c₂ hj with ⟨rfl, rfl⟩ | ⟨hne, hold⟩ <;>
      rcases hpublished p hmem with hmem | ⟨hpid, hended⟩
    · rw [hid]; exact h.pending j c hc (hpending hp) p hmem
    · rw [hended] at hp; cases hp
    · exact h.pending j c₂ hold hp p hmem
    · intro heq
      exact hne (h.alone _ _ _ _ hold hc (heq.symm.trans hpid))
  case apart =>
    intro j k c₂ c₃ hj hk hh hh' heq
    rcases hcases j c₂ hj with ⟨rfl, rfl⟩ | ⟨hne, holdj⟩ <;>
      rcases hcases k c₃ hk with ⟨rfl, rfl⟩ | ⟨hne', holdk⟩
    · rfl
    · exact absurd heq.symm (hapart hh k c₃ holdk hne' hh')
    · exact absurd heq (hapart hh' j c₂ holdj hne hh)
    · exact h.apart _ _ _ _ holdj holdk hh hh' heq
  case stands =>
    intro j c₂ hj
    rcases hcases j c₂ hj with ⟨rfl, rfl⟩ | ⟨hne, hold⟩
    · exact hstands
    · exact hothers j c₂ hold hne

theorem Revokes.mono (h : Revokes calls published revoked) {revoked' : List String}
    (hsub : ∀ i c, calls'.lookup i = some (.revoke c) → calls.lookup i = some (.revoke c))
    (hpub : published ⊆ published') (hrev : revoked ⊆ revoked') :
    Revokes calls' published' revoked' where
  owner i c hc hpc := by
    obtain ⟨p, hp, hid, huid⟩ := h.owner i c (hsub i c hc) hpc
    exact ⟨p, hpub hp, hid, huid⟩
  renamed i c hc hpc := hrev (h.renamed i c (hsub i c hc) hpc)

theorem Revokes.replace (h : Revokes calls published revoked) {revoked' : List String} {i : ℕ}
    {c' : RevokeCall} (hrev : revoked ⊆ revoked')
    (howner : c'.pc.cleared = true → ∃ p ∈ published, p.id = c'.id ∧ p.uid = c'.uid)
    (hrenamed : c'.pc.renamed = true → c'.id ∈ revoked') :
    Revokes (calls.insert i (.revoke c')) published revoked' where
  owner j c₂ hj hpc := by
    rcases Store.lookup_insert_cases hj with ⟨-, heq⟩ | ⟨-, hold⟩
    · obtain rfl := Call.revoke.inj heq
      exact howner hpc
    · exact h.owner j c₂ hold hpc
  renamed j c₂ hj hpc := by
    rcases Store.lookup_insert_cases hj with ⟨-, heq⟩ | ⟨-, hold⟩
    · obtain rfl := Call.revoke.inj heq
      exact hrenamed hpc
    · exact hrev (h.renamed j c₂ hold hpc)

/-! ### The two renames -/

theorem Entries.publish (h : Entries cfg t published revoked) {p : Publication β}
    {d : Directory β} {staged : String} (hused : ∀ q ∈ published, canonicalId q.id = true)
    (hstaged : canonicalId staged = false) (hnew : p.id ∉ revoked) (hd : d.Complete cfg p) :
    Entries cfg ((t.drop staged).put p.id d) (published ++ [p]) revoked := by
  have hold (id : String) (hid : canonicalId id = true) (hne : id ≠ p.id) :
      ((t.drop staged).put p.id d).entries.lookup id = t.entries.lookup id := by
    rw [Tree.lookup_put_ne _ _ hne, Tree.lookup_drop_ne _ (ne_of_canonicalId hid hstaged)]
  constructor
  case sound =>
    intro id node hid hnode
    by_cases heq : id = p.id
    · subst heq
      rw [Tree.lookup_put] at hnode
      exact ⟨hnew, p, by simp, rfl, d, (Option.some.inj hnode).symm, hd⟩
    · rw [hold id hid heq] at hnode
      obtain ⟨hrev, q, hq, hqid, hdir⟩ := h.sound id node hid hnode
      exact ⟨hrev, q, List.mem_append_left _ hq, hqid, hdir⟩
  case present =>
    intro q hq hrev
    by_cases heq : q.id = p.id
    · rw [heq, Tree.lookup_put]; simp
    · rcases List.mem_append.mp hq with hq | hq
      · rw [hold q.id (hused q hq) heq]
        exact h.present q hq hrev
      · rw [List.mem_singleton.mp hq] at heq
        exact absurd rfl heq

theorem Entries.revoke (h : Entries cfg t published revoked) {id target : String}
    {d : Directory β} (hused : ∀ q ∈ published, canonicalId q.id = true)
    (htarget : canonicalId target = false) :
    Entries cfg ((t.drop id).put target d) published (revoked ++ [id]) := by
  have hold (n : String) (hn : canonicalId n = true) (hne : n ≠ id) :
      ((t.drop id).put target d).entries.lookup n = t.entries.lookup n := by
    rw [Tree.lookup_put_ne _ _ (ne_of_canonicalId hn htarget), Tree.lookup_drop_ne _ hne]
  constructor
  case sound =>
    intro n node hn hnode
    have hne : n ≠ id := by
      rintro rfl
      rw [Tree.lookup_put_ne _ _ (ne_of_canonicalId hn htarget), Tree.lookup_drop] at hnode
      cases hnode
    rw [hold n hn hne] at hnode
    obtain ⟨hrev, hq⟩ := h.sound n node hn hnode
    refine ⟨fun hmem => ?_, hq⟩
    rcases List.mem_append.mp hmem with hmem | hmem
    · exact hrev hmem
    · exact hne (List.mem_singleton.mp hmem)
  case present =>
    intro q hq hrev
    rw [List.mem_append, not_or, List.mem_singleton] at hrev
    rw [hold q.id (hused q hq) hrev.2]
    exact h.present q hq hrev.1

/-! ### Steps -/

variable {s s' : State β}

theorem not_busy {name : String} (h : s.busy name = false) {i : ℕ} {c : InstallCall β}
    (hc : s.calls.lookup i = some (.install c)) (hholds : c.holds = true) : c.staged ≠ name := by
  rintro rfl
  have hmem : ⟨i, .install c⟩ ∈ s.calls.entries := AList.mem_lookup_iff.mp hc
  have hany : s.busy c.staged = true :=
    List.any_eq_true.mpr ⟨⟨i, .install c⟩, hmem, by simp [hholds]⟩
  rw [hany] at h
  cases h

theorem Books.canonical_published (h : Books used published revoked) :
    ∀ p ∈ published, canonicalId p.id = true :=
  fun p hp => h.canonical p.id (h.drawn p hp)

theorem Inv.numbered_insert (h : Inv cfg s) {i : ℕ} {call call' : Call β}
    (hi : s.calls.lookup i = some call) (j : ℕ) (call₂ : Call β)
    (hj : (s.calls.insert i call').lookup j = some call₂) : j < s.next := by
  rcases Store.lookup_insert_cases hj with ⟨rfl, -⟩ | ⟨-, hold⟩
  · exact h.numbered j call hi
  · exact h.numbered j call₂ hold

theorem lookup_insert_install {i j : ℕ} {c : InstallCall β} {c₂ : RevokeCall}
    (hj : (calls.insert i (.install c)).lookup j = some (.revoke c₂)) :
    calls.lookup j = some (.revoke c₂) := by
  rcases Store.lookup_insert_cases hj with ⟨-, heq⟩ | ⟨-, hold⟩
  · cases heq
  · exact hold

theorem lookup_insert_revoke {i j : ℕ} {c : RevokeCall} {c₂ : InstallCall β}
    (hj : (calls.insert i (.revoke c)).lookup j = some (.install c₂)) :
    calls.lookup j = some (.install c₂) := by
  rcases Store.lookup_insert_cases hj with ⟨-, heq⟩ | ⟨-, hold⟩
  · cases heq
  · exact hold

theorem Inv.install (h : Inv cfg s) {i : ℕ} {c : InstallCall β} {e : Effect β (InstallCall β)}
    (hc : s.calls.lookup i = some (.install c)) (he : c.Moves cfg s.busy s.tree e) :
    Inv cfg { s with tree := e.tree, calls := s.calls.insert i (.install e.call),
                     published := s.published ++ e.published } := by
  have hused := h.books.canonical_published
  have hrevokes (published' : List (Publication β)) (hsub : s.published ⊆ published') (c') :
      Revokes (s.calls.insert i (.install c')) published' s.revoked :=
    h.revokes.mono (fun _ _ => lookup_insert_install) hsub (List.Subset.refl _)
  have hothers (j : ℕ) (c₂ : InstallCall β) (hj : s.calls.lookup j = some (.install c₂))
      (hne : j ≠ i) (hholds : c.holds = true) : c₂.holds = true → c₂.staged ≠ c.staged :=
    fun hh heq => hne (h.installs.apart j i c₂ c hj hc hh hholds heq)
  cases he with
  | stay hstage hholds hpending =>
    rw [List.append_nil]
    refine ⟨h.books, h.entries, ?_, hrevokes _ (List.Subset.refl _) _, h.numbered_insert hc⟩
    refine h.installs.replace hc rfl (fun p hp => Or.inl hp) hpending
      (fun hh j c₂ hj hne => hothers j c₂ hj hne (hholds hh)) (fun x hx => ?_)
      (fun j c₂ hj _ => h.installs.stands j c₂ hj)
    rcases hstage with hnone | hsame
    · rw [hnone] at hx; cases hx
    · exact h.installs.stands i c hc x (hsame.symm.trans hx)
  | @make c' d hitem hpc hpc' hbusy hfiles =>
    rw [List.append_nil]
    have hsame : s.tree.SameBut (s.tree.put c'.staged d) c'.staged := s.tree.sameBut_put _ d
    refine ⟨h.books, h.entries.frame hused c'.canonicalId_staged hsame, ?_,
      hrevokes _ (List.Subset.refl _) _, h.numbered_insert hc⟩
    refine h.installs.replace hc hitem (fun p hp => Or.inl hp)
      (fun _ => by simp [InstallCall.pending, hpc])
      (fun _ j c₂ hj _ hh => not_busy hbusy hj hh) (fun x hx => ?_)
      (fun j c₂ hj _ => (h.installs.stands j c₂ hj).frame hsame fun hh => not_busy hbusy hj hh)
    refine ⟨d, Tree.directory_eq_some.mpr (Tree.lookup_put _ _ d), ?_⟩
    have hx : (none, none) = x := by simpa [InstallCall.stage, hpc'] using hx
    rw [← hx]
    constructor <;> rw [hfiles] <;> rfl
  | edit hholds hpending hsame hstands =>
    rw [List.append_nil]
    refine ⟨h.books, h.entries.frame hused c.canonicalId_staged hsame, ?_,
      hrevokes _ (List.Subset.refl _) _, h.numbered_insert hc⟩
    exact h.installs.replace hc rfl (fun p hp => Or.inl hp) hpending
      (fun _ j c₂ hj hne => hothers j c₂ hj hne hholds) (hstands (h.installs.stands i c hc))
      (fun j c₂ hj hne => (h.installs.stands j c₂ hj).frame hsame (hothers j c₂ hj hne hholds))
  | @publish d hpc hd =>
    have hpending : c.pending = true := by simp [InstallCall.pending, hpc]
    have hholds : c.holds = true := by simp [InstallCall.holds, hpc]
    have hnew := h.installs.pending i c hc hpending
    have hid : canonicalId c.id = true := h.books.canonical _ (h.installs.drawn i c hc)
    have hrevoked : c.id ∉ s.revoked := by
      intro hmem
      obtain ⟨p, hp, hpid⟩ := h.books.revoked _ hmem
      exact hnew p hp hpid
    have hcomplete : d.Complete cfg c.toPublication := by
      have hstage : c.stage cfg = some (some (c.script cfg c.contents.length),
          some (c.metadata cfg (c.encoded cfg).length)) := by simp only [InstallCall.stage, hpc]
      obtain ⟨d₀, hd₀, hfiles⟩ := h.installs.stands i c hc _ hstage
      obtain rfl := Option.some.inj (hd.symm.trans hd₀)
      exact hfiles
    refine ⟨⟨h.books.canonical, forall_mem_snoc h.books.drawn (h.installs.drawn i c hc), ?_, ?_⟩,
      h.entries.publish hused c.canonicalId_staged hrevoked hcomplete, ?_,
      hrevokes _ (List.subset_append_left _ _) _, h.numbered_insert hc⟩
    · intro p hp q hq heq
      rcases List.mem_append.mp hp with hp | hp <;> rcases List.mem_append.mp hq with hq | hq
      · exact h.books.distinct p hp q hq heq
      · rw [List.mem_singleton.mp hq] at heq
        exact absurd heq (hnew p hp)
      · rw [List.mem_singleton.mp hp] at heq
        exact absurd heq.symm (hnew q hq)
      · rw [List.mem_singleton.mp hp, List.mem_singleton.mp hq]
    · intro id hmem
      obtain ⟨p, hp, hpid⟩ := h.books.revoked id hmem
      exact ⟨p, List.mem_append_left _ hp, hpid⟩
    · refine h.installs.replace hc rfl (forall_mem_snoc (fun _ => .inl) (.inr ⟨rfl, rfl⟩))
        (fun hp => by cases hp)
        (fun _ j c₂ hj hne => hothers j c₂ hj hne hholds) (fun x hx => by cases hx)
        (fun j c₂ hj hne x hx => ?_)
      -- the other staging directories have other names than the two that change
      have hstands := (h.installs.stands j c₂ hj).frame (s.tree.sameBut_drop c.staged)
        (hothers j c₂ hj hne hholds)
      have hsame := (s.tree.drop c.staged).sameBut_put c.id d
      exact hstands.frame hsame (fun _ => (ne_of_canonicalId hid c₂.canonicalId_staged).symm) x hx

theorem Inv.metadata (h : Inv cfg s) {id : String} {uid : ℕ} {info : ApprovalInfo}
    (hread : readMetadataAt cfg s.tree id uid = .ok info) :
    ∃ p ∈ s.published, p.id = id ∧ p.uid = uid ∧ info = p.info cfg := by
  obtain ⟨hread, howner⟩ := readMetadataAt_ok hread
  obtain ⟨hid, -, d, owner, mode, contents, hd, hfile, version, hdec⟩ :=
    readMetadataUnboundAt_ok hread
  obtain ⟨-, p, hp, hpid, d', hnode, hcomplete⟩ :=
    h.entries.sound id _ hid (Tree.directory_eq_some.mp hd)
  obtain rfl := Node.directory.inj hnode
  have hcontents : contents = p.encoded cfg := by
    rw [hcomplete.eq.2] at hfile
    exact (Leaf.file.inj (Option.some.inj hfile)).2.2.symm
  have hinfo : info = p.info cfg := by
    rw [hcontents, Publication.encoded, cfg.decode_encode] at hdec
    exact (StoredMetadata.mk.inj (Option.some.inj hdec)).2.symm
  refine ⟨p, hp, hpid, ?_, hinfo⟩
  rw [← howner, hinfo]
  rfl

theorem RevokeCall.canonicalId_target (c : RevokeCall) : canonicalId c.target = false :=
  canonicalId_revoked c.id

theorem Inv.revoke (h : Inv cfg s) {i : ℕ} {c : RevokeCall} {e : Effect β RevokeCall}
    (hc : s.calls.lookup i = some (.revoke c)) (he : c.Moves cfg s.tree e) :
    Inv cfg { s with tree := e.tree, calls := s.calls.insert i (.revoke e.call),
                     revoked := s.revoked ++ e.revoked } := by
  have hused := h.books.canonical_published
  have hinstalls (t' : Tree β) (c' : RevokeCall)
      (hstands : ∀ j c₂, s.calls.lookup j = some (.install c₂) → c₂.Stands cfg t') :
      Installs cfg t' (s.calls.insert i (.revoke c')) s.used s.published :=
    h.installs.mono (fun _ _ => lookup_insert_revoke) hstands
  have htarget (c₂ : InstallCall β) : c₂.holds = true → c₂.staged ≠ c.target :=
    fun _ => install_ne_revoked c₂.suffix c.id
  cases he with
  | stay hcleared hrenamed _ =>
    rw [List.append_nil]
    exact ⟨h.books, h.entries, hinstalls _ _ h.installs.stands,
      h.revokes.replace (List.Subset.refl _) (fun hpc => h.revokes.owner i c hc (hcleared hpc))
        (fun hpc => h.revokes.renamed i c hc (hrenamed hpc)), h.numbered_insert hc⟩
  | clear hread =>
    rw [List.append_nil]
    obtain ⟨p, hp, hpid, hpuid, -⟩ := h.metadata hread
    exact ⟨h.books, h.entries, hinstalls _ _ h.installs.stands,
      h.revokes.replace (List.Subset.refl _) (fun _ => ⟨p, hp, hpid, hpuid⟩)
        (fun hpc => by cases hpc), h.numbered_insert hc⟩
  | @rename d hpc hd =>
    obtain ⟨p, hp, hpid, hpuid⟩ := h.revokes.owner i c hc (by rw [hpc]; rfl)
    have hid : canonicalId c.id = true := hpid ▸ hused p hp
    refine ⟨⟨h.books.canonical, h.books.drawn, h.books.distinct, fun id hmem => ?_⟩,
      h.entries.revoke hused c.canonicalId_target,
      hinstalls _ _ fun j c₂ hj => ?_,
      h.revokes.replace (List.subset_append_left _ _) (fun _ => ⟨p, hp, hpid, hpuid⟩)
        (fun _ => by simp [RevokeCall.goto]), h.numbered_insert hc⟩
    · rcases List.mem_append.mp hmem with hmem | hmem
      · exact h.books.revoked id hmem
      · exact ⟨p, hp, hpid.trans (List.mem_singleton.mp hmem).symm⟩
    · have hstands := (h.installs.stands j c₂ hj).frame (s.tree.sameBut_drop c.id)
        (fun _ => (ne_of_canonicalId hid c₂.canonicalId_staged).symm)
      exact hstands.frame ((s.tree.drop c.id).sameBut_put c.target d) (htarget c₂)
  | sweep hpc hpc' hsame =>
    rw [List.append_nil]
    have hrenamed : c.pc.renamed = true := by rw [hpc]; rfl
    have hcleared : c.pc.cleared = true := by rw [hpc]; rfl
    exact ⟨h.books, h.entries.frame hused c.canonicalId_target hsame,
      hinstalls _ _ fun j c₂ hj => (h.installs.stands j c₂ hj).frame hsame (htarget c₂),
      h.revokes.replace (List.Subset.refl _) (fun _ => h.revokes.owner i c hc hcleared)
        (fun _ => h.revokes.renamed i c hc hrenamed), h.numbered_insert hc⟩

theorem Inv.begin_install (h : Inv cfg s) {id : String} (hid : canonicalId id = true)
    (hnew : id ∉ s.used) (uid : ℕ) (contents : List β) (originalPath : String) :
    Inv cfg { s with
      calls := s.calls.insert s.next (.install { id, uid, contents, originalPath })
      next := s.next + 1
      used := insert id s.used } := by
  have hcases (j : ℕ) (c₂ : InstallCall β)
      (hj : (s.calls.insert s.next (.install { id, uid, contents, originalPath })).lookup j =
        some (.install c₂)) :
      (j = s.next ∧ c₂ = { id, uid, contents, originalPath }) ∨
        s.calls.lookup j = some (.install c₂) := by
    rcases Store.lookup_insert_cases hj with ⟨rfl, heq⟩ | ⟨-, hold⟩
    · exact Or.inl ⟨rfl, Call.install.inj heq⟩
    · exact Or.inr hold
  have hother (j : ℕ) (c₂ : InstallCall β) (hj : s.calls.lookup j = some (.install c₂)) :
      c₂.id ≠ id := fun heq => hnew (heq ▸ h.installs.drawn j c₂ hj)
  refine ⟨⟨fun id' hid' => ?_, fun p hp => Finset.mem_insert_of_mem (h.books.drawn p hp),
    h.books.distinct, h.books.revoked⟩, h.entries, ?_, ?_, fun j call hj => ?_⟩
  · rcases Finset.mem_insert.mp hid' with rfl | hold
    · exact hid
    · exact h.books.canonical id' hold
  · constructor
    case drawn =>
      intro j c₂ hj
      rcases hcases j c₂ hj with ⟨-, rfl⟩ | hold
      · exact Finset.mem_insert_self _ _
      · exact Finset.mem_insert_of_mem (h.installs.drawn j c₂ hold)
    case alone =>
      intro j k c₂ c₃ hj hk heq
      rcases hcases j c₂ hj with ⟨rfl, rfl⟩ | holdj <;> rcases hcases k c₃ hk with ⟨rfl, rfl⟩ | holdk
      · rfl
      · exact absurd heq.symm (hother k c₃ holdk)
      · exact absurd heq (hother j c₂ holdj)
      · exact h.installs.alone j k c₂ c₃ holdj holdk heq
    case pending =>
      intro j c₂ hj hp p hmem
      rcases hcases j c₂ hj with ⟨-, rfl⟩ | hold
      · intro heq
        have hpid : p.id = id := heq
        exact hnew (hpid ▸ h.books.drawn p hmem)
      · exact h.installs.pending j c₂ hold hp p hmem
    case apart =>
      intro j k c₂ c₃ hj hk hh hh' heq
      rcases hcases j c₂ hj with ⟨-, rfl⟩ | holdj
      · cases hh
      · rcases hcases k c₃ hk with ⟨-, rfl⟩ | holdk
        · cases hh'
        · exact h.installs.apart j k c₂ c₃ holdj holdk hh hh' heq
    case stands =>
      intro j c₂ hj
      rcases hcases j c₂ hj with ⟨-, rfl⟩ | hold
      · intro x hx; cases hx
      · exact h.installs.stands j c₂ hold
  · exact h.revokes.mono (fun _ _ => lookup_insert_install) (List.Subset.refl _)
      (List.Subset.refl _)
  · rcases Store.lookup_insert_cases hj with ⟨rfl, -⟩ | ⟨-, hold⟩
    · exact Nat.lt_succ_self _
    · exact Nat.lt_succ_of_lt (h.numbered j call hold)

theorem Inv.begin_revoke (h : Inv cfg s) (id : String) (uid : ℕ) :
    Inv cfg { s with calls := s.calls.insert s.next (.revoke { id, uid }), next := s.next + 1 } := by
  refine ⟨h.books, h.entries,
    h.installs.mono (fun _ _ => lookup_insert_revoke) h.installs.stands,
    h.revokes.replace (List.Subset.refl _) (fun hpc => by cases hpc) (fun hpc => by cases hpc),
    fun j call hj => ?_⟩
  rcases Store.lookup_insert_cases hj with ⟨rfl, -⟩ | ⟨-, hold⟩
  · exact Nat.lt_succ_self _
  · exact Nat.lt_succ_of_lt (h.numbered j call hold)

theorem Inv.crash (h : Inv cfg s) (i : ℕ) : Inv cfg { s with calls := s.calls.erase i } :=
  ⟨h.books, h.entries,
    h.installs.mono (fun _ _ hj => (Store.lookup_erase_cases hj).2) h.installs.stands,
    h.revokes.mono (fun _ _ hj => (Store.lookup_erase_cases hj).2) (List.Subset.refl _)
      (List.Subset.refl _),
    fun j call hj => h.numbered j call (Store.lookup_erase_cases hj).2⟩

/-- **What a step is**: a call begins or crashes, or one of the calls moves. -/
theorem step_cases {l : Label β} (hs : step cfg s l = some s') :
    s' = s ∨
    (∃ id uid contents originalPath, canonicalId id = true ∧ id ∉ s.used ∧ s' = { s with
      calls := s.calls.insert s.next (.install { id, uid, contents, originalPath })
      next := s.next + 1
      used := insert id s.used }) ∨
    (∃ id uid, s' = { s with
      calls := s.calls.insert s.next (.revoke { id, uid }), next := s.next + 1 }) ∨
    (∃ i c e, s.calls.lookup i = some (.install c) ∧ c.Moves cfg s.busy s.tree e ∧ s' = { s with
      tree := e.tree, calls := s.calls.insert i (.install e.call),
      published := s.published ++ e.published }) ∨
    (∃ i c e, s.calls.lookup i = some (.revoke c) ∧ c.Moves cfg s.tree e ∧ s' = { s with
      tree := e.tree, calls := s.calls.insert i (.revoke e.call),
      revoked := s.revoked ++ e.revoked }) ∨
    ∃ i, s' = { s with calls := s.calls.erase i } := by
  cases l with
  | install contents originalPath uid id =>
    simp only [step] at hs
    split_ifs at hs with hno hid
    · exact Or.inl (Option.some.inj hs).symm
    · exact Or.inr (Or.inl ⟨id, uid, contents, originalPath, hid.1, hid.2,
        (Option.some.inj hs).symm⟩)
  | revoke id uid => exact Or.inr (Or.inr (Or.inl ⟨id, uid, (Option.some.inj hs).symm⟩))
  | io i io =>
    simp only [step] at hs
    cases hi : s.calls.lookup i with
    | none => rw [hi] at hs; cases hs
    | some call =>
      rw [hi] at hs
      cases call with
      | install c =>
        obtain ⟨e, he, rfl⟩ := Option.map_eq_some_iff.mp hs
        exact Or.inr (Or.inr (Or.inr (Or.inl ⟨i, c, e, hi, InstallCall.step_moves he, rfl⟩)))
      | revoke c =>
        obtain ⟨e, he, rfl⟩ := Option.map_eq_some_iff.mp hs
        exact Or.inr (Or.inr (Or.inr (Or.inr (Or.inl ⟨i, c, e, hi, RevokeCall.step_moves he, rfl⟩))))
  | crash i => exact Or.inr (Or.inr (Or.inr (Or.inr (Or.inr ⟨i, (Option.some.inj hs).symm⟩))))

theorem Inv.step (h : Inv cfg s) {l : Label β} (hs : step cfg s l = some s') : Inv cfg s' := by
  rcases step_cases hs with rfl | ⟨id, uid, contents, path, hid, hnew, rfl⟩ | ⟨id, uid, rfl⟩ |
    ⟨i, c, e, hc, he, rfl⟩ | ⟨i, c, e, hc, he, rfl⟩ | ⟨i, rfl⟩
  · exact h
  · exact h.begin_install hid hnew uid contents path
  · exact h.begin_revoke id uid
  · exact h.install hc he
  · exact h.revoke hc he
  · exact h.crash i

theorem reachable_inv {owner mode : ℕ} (hs : (machine cfg owner mode).Reachable s) : Inv cfg s := by
  refine hs.invariant ?_ fun s l s' _ h hl => h.step hl
  refine ⟨⟨?_, ?_, ?_, ?_⟩, ⟨?_, ?_⟩, ⟨?_, ?_, ?_, ?_, ?_⟩, ⟨?_, ?_⟩, ?_⟩ <;>
    intros <;> simp_all [machine]

/-! ### What holds of every run -/

section Runs

variable {owner mode : ℕ} {ls : List (Label β)}

theorem Inv.run (h : Inv cfg s) (hr : (machine cfg owner mode).run s ls = some s') : Inv cfg s' :=
  Machine.run_keeps (fun _ _ _ h hl => h.step hl) ls s h hr

theorem step_records {l : Label β} (hs : step cfg s l = some s') :
    s.published ⊆ s'.published ∧ s.revoked ⊆ s'.revoked := by
  rcases step_cases hs with rfl | ⟨_, _, _, _, -, -, rfl⟩ | ⟨_, _, rfl⟩ | ⟨_, _, e, -, -, rfl⟩ |
    ⟨_, _, e, -, -, rfl⟩ | ⟨_, rfl⟩
  case inr.inr.inr.inl => exact ⟨List.subset_append_left _ _, List.Subset.refl _⟩
  case inr.inr.inr.inr.inl => exact ⟨List.Subset.refl _, List.subset_append_left _ _⟩
  all_goals exact ⟨List.Subset.refl _, List.Subset.refl _⟩

theorem run_published {p : Publication β} (hp : p ∈ s.published)
    (hr : (machine cfg owner mode).run s ls = some s') : p ∈ s'.published :=
  Machine.run_keeps (P := fun m => p ∈ m.published) (fun _ _ _ h hl => (step_records hl).1 h) ls s hp hr

theorem run_revoked {id : String} (hid : id ∈ s.revoked)
    (hr : (machine cfg owner mode).run s ls = some s') : id ∈ s'.revoked :=
  Machine.run_keeps (P := fun m => id ∈ m.revoked) (fun _ _ _ h hl => (step_records hl).2 h) ls s hid hr

/-- What resolves was published by the user, was not revoked when the script was opened, and is what
was approved. -/
theorem Inv.resolved (h : Inv cfg s) (hr : (machine cfg owner mode).run s ls = some s')
    {id : String} {uid : ℕ} {control : ℕ → Bool} {a : ApprovedScript}
    (ha : resolveAtWithControl cfg s.tree s'.tree id uid control = .ok a) :
    ∃ p ∈ s.published, p.id = id ∧ p.uid = uid ∧ id ∉ s'.revoked ∧ a.info = p.info cfg ∧
      s'.tree.read a.path = some p.contents := by
  obtain ⟨hread, hpath, d, owner, mode, contents, hd, hfile, -⟩ := resolveAtWithControl_ok ha
  obtain ⟨p, hp, hpid, hpuid, hinfo⟩ := h.metadata hread
  have hid : canonicalId id = true := hpid ▸ h.books.canonical_published p hp
  have h' := h.run hr
  obtain ⟨hrev, q, hq, hqid, d', hnode, hcomplete⟩ :=
    h'.entries.sound id _ hid (Tree.directory_eq_some.mp hd)
  obtain rfl := Node.directory.inj hnode
  -- an identifier is published once
  obtain rfl := h'.books.distinct q hq p (run_published hp hr) (hqid.trans hpid.symm)
  refine ⟨q, hp, hpid, hpuid, hrev, hinfo, ?_⟩
  simp only [hpath, Tree.read, hd, Option.bind_some, hcomplete.eq.1]

theorem Inv.not_resolved (h : Inv cfg s) (hr : (machine cfg owner mode).run s ls = some s')
    {id : String} (hid : (∀ p ∈ s.published, p.id ≠ id) ∨ id ∈ s'.revoked) (uid : ℕ)
    (control : ℕ → Bool) :
    (resolveAtWithControl cfg s.tree s'.tree id uid control).isOk = false := by
  by_contra hok
  rw [Bool.not_eq_false] at hok
  obtain ⟨a, ha⟩ := isOk_iff.mp hok
  obtain ⟨p, hp, hpid, -, hrev, -⟩ := h.resolved hr ha
  rcases hid with hnone | hmem
  · exact hnone p hp hpid
  · exact hrev hmem

theorem Inv.revoke_unowned (h : Inv cfg s) {i : ℕ} {c : RevokeCall} {io : Io}
    (hc : s.calls.lookup i = some (.revoke c))
    (hother : ∀ p ∈ s.published, p.id = c.id → p.uid ≠ c.uid)
    (hs : Approval.step cfg s (.io i io) = some s') :
    s'.tree = s.tree ∧ s'.published = s.published ∧ s'.revoked = s.revoked := by
  simp only [Approval.step, hc] at hs
  obtain ⟨e, he, rfl⟩ := Option.map_eq_some_iff.mp hs
  have hnot : c.pc.cleared = true → False := fun hpc => by
    obtain ⟨p, hp, hpid, hpuid⟩ := h.revokes.owner i c hc hpc
    exact hother p hp hpid hpuid
  cases RevokeCall.step_moves he with
  | stay | clear => exact ⟨rfl, rfl, List.append_nil _⟩
  | rename hpc | sweep hpc => exact (hnot (by rw [hpc]; rfl)).elim

/-- A revoke that was called when the publication stood; if it has succeeded, it has renamed. -/
structure Settled (cfg : Config β) (p : Publication β) (i : ℕ) (s : State β) : Prop where
  inv : Inv cfg s
  published : p ∈ s.published
  begun : i < s.next
  done : ∀ c, s.calls.lookup i = some (.revoke c) →
    c.id = p.id ∧ (c.pc = .done true → p.id ∈ s.revoked)

theorem Settled.keep {p : Publication β} {i : ℕ} (h : Settled cfg p i s) {l : Label β}
    (hs : step cfg s l = some s') (hnext : s.next ≤ s'.next)
    (hcall : ∀ c, s'.calls.lookup i = some (.revoke c) → s.calls.lookup i = some (.revoke c)) :
    Settled cfg p i s' where
  inv := h.inv.step hs
  published := (step_records hs).1 h.published
  begun := lt_of_lt_of_le h.begun hnext
  done c hc := by
    obtain ⟨hid, hdone⟩ := h.done c (hcall c hc)
    exact ⟨hid, fun hpc => (step_records hs).2 (hdone hpc)⟩

theorem Settled.step {p : Publication β} {i : ℕ} (h : Settled cfg p i s) {l : Label β}
    (hs : step cfg s l = some s') : Settled cfg p i s' := by
  have hkeep (hnext : s.next ≤ s'.next)
      (hcall : ∀ c, s'.calls.lookup i = some (.revoke c) → s.calls.lookup i = some (.revoke c)) :
      Settled cfg p i s' := h.keep hs hnext hcall
  rcases step_cases hs with rfl | ⟨_, _, _, _, -, -, rfl⟩ | ⟨_, _, rfl⟩ | ⟨_, _, _, -, -, rfl⟩ |
    ⟨j, c, e, hc, he, rfl⟩ | ⟨_, rfl⟩
  · exact h
  · exact hkeep (Nat.le_succ _) fun _ => lookup_insert_install
  · refine hkeep (Nat.le_succ _) fun c hc => ?_
    rwa [AList.lookup_insert_ne (Nat.ne_of_lt h.begun)] at hc
  · exact hkeep le_rfl fun _ => lookup_insert_install
  · by_cases hij : i = j
    · subst hij
      refine ⟨h.inv.step hs, h.published, h.begun, fun c' hc' => ?_⟩
      rw [AList.lookup_insert] at hc'
      obtain rfl := Call.revoke.inj (Option.some.inj hc')
      obtain ⟨hid, -⟩ := h.done c hc
      cases he with
      | stay _ _ hdone =>
        refine ⟨hid, fun hpc => List.mem_append_left _ ?_⟩
        rcases hdone hpc with hren | ⟨-, -, hnone⟩
        · exact hid ▸ h.inv.revokes.renamed i c hc hren
        · -- the approval was looked up and not found: it was there, so it was revoked
          by_contra hrev
          exact h.inv.entries.present p h.published hrev (hid ▸ hnone)
      | clear | rename => exact ⟨hid, fun hpc => by cases hpc⟩
      | @sweep _ pc _ hpc' _ =>
        refine ⟨hid, fun hpc => ?_⟩
        have hpc : pc = .done true := hpc
        rw [hpc] at hpc'
        cases hpc'
    · refine hkeep le_rfl fun c' hc' => ?_
      rwa [AList.lookup_insert_ne hij] at hc'
  · exact hkeep le_rfl fun _ hc => (Store.lookup_erase_cases hc).2

/-- The publisher's revoke, once it has succeeded, has renamed. -/
theorem Inv.settled_run (h : Inv cfg s) {p : Publication β} (hp : p ∈ s.published) {c : RevokeCall}
    (hr : (machine cfg owner mode).run s (.revoke p.id p.uid :: ls) = some s')
    (hc : s'.calls.lookup s.next = some (.revoke c)) (hdone : c.pc = .done true) :
    p.id ∈ s'.revoked := by
  obtain ⟨m, hm, hr⟩ := Machine.run_cons.mp hr
  have hbegun : Settled cfg p s.next m := by
    cases hm
    refine ⟨h.begin_revoke p.id p.uid, hp, Nat.lt_succ_self _, fun c hc => ?_⟩
    rw [AList.lookup_insert] at hc
    obtain rfl := Call.revoke.inj (Option.some.inj hc)
    exact ⟨rfl, fun hpc => by cases hpc⟩
  have hend : Settled cfg p s.next s' :=
    Machine.run_keeps (fun _ _ _ h hl => h.step hl) ls m hbegun hr
  exact (hend.done c hc).2 hdone

theorem Inv.revoke_again (h : Inv cfg s) {p : Publication β} (hp : p ∈ s.published)
    (hrev : p.id ∈ s.revoked) (uid : ℕ) :
    ∃ s', (machine cfg owner mode).run s [.revoke p.id uid, .io s.next .ok] = some s' ∧
      s'.tree = s.tree ∧
      s'.calls.lookup s.next = some (.revoke { id := p.id, uid, pc := .done true }) := by
  have hid : canonicalId p.id = true := h.books.canonical_published p hp
  have hvalid : (validateId cfg p.id).isOk = true := isOk_iff.mpr ⟨(), validateId_eq_ok.mpr hid⟩
  have hnone : s.tree.entries.lookup p.id = none := by
    cases hnode : s.tree.entries.lookup p.id with
    | none => rfl
    | some node => exact absurd hrev (h.entries.sound p.id node hid hnode).1
  let called : State β :=
    { s with calls := s.calls.insert s.next (.revoke { id := p.id, uid }), next := s.next + 1 }
  let done : RevokeCall := { id := p.id, uid, pc := .done true }
  have hstep : Approval.step cfg called (.io s.next .ok) =
      some { called with calls := called.calls.insert s.next (.revoke done) } := by
    simp [Approval.step, RevokeCall.step, RevokeCall.goto, called, done, hvalid, hnone]
  exact ⟨_, Machine.run_cons.mpr ⟨called, rfl, Machine.run_single.mpr hstep⟩, rfl,
    AList.lookup_insert _⟩

/-- The identifier was drawn, and no call can publish it any more. -/
structure Abandoned (cfg : Config β) (id : String) (s : State β) : Prop where
  inv : Inv cfg s
  drawn : id ∈ s.used
  unpublished : ∀ p ∈ s.published, p.id ≠ id
  ended : ∀ i c, s.calls.lookup i = some (.install c) → c.id = id → c.pending = false

theorem Abandoned.step {id : String} (h : Abandoned cfg id s) {l : Label β}
    (hs : step cfg s l = some s') : Abandoned cfg id s' := by
  have hinv := h.inv.step hs
  rcases step_cases hs with rfl | ⟨id', _, _, _, -, hnew, rfl⟩ | ⟨_, _, rfl⟩ | ⟨i, c, e, hc, he, rfl⟩ |
    ⟨_, _, _, -, -, rfl⟩ | ⟨_, rfl⟩
  · exact h
  · refine ⟨hinv, Finset.mem_insert_of_mem h.drawn, h.unpublished, fun j c₂ hj heq => ?_⟩
    rcases Store.lookup_insert_cases hj with ⟨-, hcall⟩ | ⟨-, hold⟩
    · obtain rfl := Call.install.inj hcall
      have hid : id' = id := heq
      exact absurd h.drawn (hid ▸ hnew)
    · exact h.ended j c₂ hold heq
  · exact ⟨hinv, h.drawn, h.unpublished, fun j c₂ hj => h.ended j c₂ (lookup_insert_revoke hj)⟩
  · have hended := h.ended i c hc
    have hcalls (c' : InstallCall β) (hid : c'.id = c.id)
        (hpending : c'.pending = true → c.pending = true) (j : ℕ) (c₂ : InstallCall β)
        (hj : (s.calls.insert i (.install c')).lookup j = some (.install c₂)) (heq : c₂.id = id) :
        c₂.pending = false := by
      rcases Store.lookup_insert_cases hj with ⟨-, hcall⟩ | ⟨-, hold⟩
      · obtain rfl := Call.install.inj hcall
        by_contra hp
        have hp' := hpending (Bool.not_eq_false _ ▸ hp)
        rw [hended (hid ▸ heq)] at hp'
        cases hp'
      · exact h.ended j c₂ hold heq
    cases he with
    | stay _ _ hpending =>
      exact ⟨hinv, h.drawn, by simpa using h.unpublished, hcalls _ rfl hpending⟩
    | make hitem hpc _ _ _ =>
      exact ⟨hinv, h.drawn, by simpa using h.unpublished, hcalls _ (congrArg _ hitem)
        fun _ => by simp [InstallCall.pending, hpc]⟩
    | edit _ hpending _ _ =>
      exact ⟨hinv, h.drawn, by simpa using h.unpublished, hcalls _ rfl hpending⟩
    | publish hpc _ =>
      refine ⟨hinv, h.drawn, forall_mem_snoc h.unpublished fun heq => ?_,
        hcalls _ rfl fun hp => by cases hp⟩
      have hp' := hended heq
      simp [InstallCall.pending, hpc] at hp'
  · exact ⟨hinv, h.drawn, h.unpublished, fun j c₂ hj => h.ended j c₂ (lookup_insert_revoke hj)⟩
  · exact ⟨hinv, h.drawn, h.unpublished, fun j c₂ hj => h.ended j c₂ (Store.lookup_erase_cases hj).2⟩

theorem Inv.abandon (h : Inv cfg s) {i : ℕ} {c : InstallCall β}
    (hc : s.calls.lookup i = some (.install c)) (hnone : ∀ p ∈ s.published, p.id ≠ c.id) :
    Abandoned cfg c.id { s with calls := s.calls.erase i } := by
  refine ⟨h.crash i, h.installs.drawn i c hc, hnone, fun j c₂ hj heq => ?_⟩
  obtain ⟨hne, hold⟩ := Store.lookup_erase_cases hj
  exact absurd (h.installs.alone j i c₂ c hold hc heq) hne

theorem Abandoned.run {id : String} (h : Abandoned cfg id s)
    (hr : (machine cfg owner mode).run s ls = some s') : Abandoned cfg id s' :=
  Machine.run_keeps (fun _ _ _ h hl => h.step hl) ls s h hr

theorem resolve_unchanged {i : ℕ} {c : InstallCall β} {io : Io}
    (hc : s.calls.lookup i = some (.install c)) (hs : step cfg s (.io i io) = some s')
    (hpub : s'.published = s.published) (id : String) (uid : ℕ) (budget : ℕ → Bool) :
    resolveAt cfg s'.tree id uid budget = resolveAt cfg s.tree id uid budget := by
  simp only [step, hc] at hs
  obtain ⟨e, he, rfl⟩ := Option.map_eq_some_iff.mp hs
  have hsame {name : String} {t' : Tree β} (hname : canonicalId name = false)
      (hsame : s.tree.SameBut t' name) :
      resolveAt cfg t' id uid budget = resolveAt cfg s.tree id uid budget :=
    resolveAt_congr hsame.owner hsame.mode fun hid =>
      hsame.lookup id (ne_of_canonicalId hid hname)
  cases InstallCall.step_moves he with
  | stay => rfl
  | @make c' d => exact hsame c'.canonicalId_staged (s.tree.sameBut_put c'.staged d)
  | edit _ _ h => exact hsame c.canonicalId_staged h
  | publish => simp at hpub

/-- **Approvals**: in every run of installs and revokes, interleaved and cut short by crashes,

* a script resolves only if its user published it and, when it was opened, no revoke had renamed it;
  it then holds what was approved;
* a revoke by a user who did not publish changes nothing;
* after the publisher's revoke has succeeded, nobody resolves the approval again, and a revoke made
  again succeeds and changes nothing;
* an install that crashes before its rename leaves an identifier that never resolves, and no step of
  an install but its rename changes what resolves;
* in any tree, the status for a desktop user is valid exactly when the approval resolves. -/
theorem approvals_not_forged (hs : (machine cfg owner mode).Reachable s) :
    (∀ ls s' id uid control a, (machine cfg owner mode).run s ls = some s' →
      resolveAtWithControl cfg s.tree s'.tree id uid control = .ok a →
      ∃ p ∈ s.published, p.id = id ∧ p.uid = uid ∧ id ∉ s'.revoked ∧
        s'.tree.read a.path = some p.contents) ∧
    (∀ i c io s', s.calls.lookup i = some (.revoke c) →
      (∀ p ∈ s.published, p.id = c.id → p.uid ≠ c.uid) → step cfg s (.io i io) = some s' →
      s'.tree = s.tree ∧ s'.published = s.published ∧ s'.revoked = s.revoked) ∧
    (∀ p ∈ s.published, ∀ ls s₁ c,
      (machine cfg owner mode).run s (.revoke p.id p.uid :: ls) = some s₁ →
      s₁.calls.lookup s.next = some (.revoke c) → c.pc = .done true →
      ∀ ls' s₂, (machine cfg owner mode).run s₁ ls' = some s₂ →
        (∀ ls'' s₃ uid control, (machine cfg owner mode).run s₂ ls'' = some s₃ →
          (resolveAtWithControl cfg s₂.tree s₃.tree p.id uid control).isOk = false) ∧
        ∃ s₃, (machine cfg owner mode).run s₂ [.revoke p.id p.uid, .io s₂.next .ok] = some s₃ ∧
          s₃.tree = s₂.tree ∧ s₃.calls.lookup s₂.next =
            some (.revoke { id := p.id, uid := p.uid, pc := .done true })) ∧
    (∀ i c s₀, s.calls.lookup i = some (.install c) → (∀ p ∈ s.published, p.id ≠ c.id) →
      step cfg s (.crash i) = some s₀ → s₀.tree = s.tree ∧
        ∀ ls s₁ ls' s₂ uid control, (machine cfg owner mode).run s₀ ls = some s₁ →
          (machine cfg owner mode).run s₁ ls' = some s₂ →
          (resolveAtWithControl cfg s₁.tree s₂.tree c.id uid control).isOk = false) ∧
    (∀ i c io s', s.calls.lookup i = some (.install c) → step cfg s (.io i io) = some s' →
      s'.published = s.published → ∀ id uid budget,
        resolveAt cfg s'.tree id uid budget = resolveAt cfg s.tree id uid budget) ∧
    ∀ (t : Tree β) id uid budget, uid ≠ 0 →
      (statusAt cfg t id uid budget = .ok .valid ↔
        (resolveAt cfg t id uid budget).isOk = true) := by
  have h : Inv cfg s := reachable_inv hs
  refine ⟨fun ls s' id uid control a hr ha => ?_,
    fun i c io s' hc hother hstep => h.revoke_unowned hc hother hstep, ?_, ?_,
    fun i c io s' hc hstep hpub id uid budget => resolve_unchanged hc hstep hpub id uid budget,
    fun t id uid budget huid => statusAt_eq_valid huid⟩
  · obtain ⟨p, hp, hpid, hpuid, hrev, -, hcontents⟩ := h.resolved hr ha
    exact ⟨p, hp, hpid, hpuid, hrev, hcontents⟩
  · intro p hp ls s₁ c hr hc hdone ls' s₂ hr'
    have hrevoked : p.id ∈ s₂.revoked := run_revoked (h.settled_run hp hr hc hdone) hr'
    have hpublished : p ∈ s₂.published := run_published (run_published hp hr) hr'
    have h₂ : Inv cfg s₂ := (h.run hr).run hr'
    exact ⟨fun ls'' s₃ uid control hr'' =>
      h₂.not_resolved hr'' (Or.inr (run_revoked hrevoked hr'')) uid control,
      h₂.revoke_again hpublished hrevoked p.uid⟩
  · intro i c s₀ hc hnone hcrash
    cases hcrash
    refine ⟨rfl, fun ls s₁ ls' s₂ uid control hr hr' => ?_⟩
    have habandoned : Abandoned cfg c.id s₁ := (h.abandon hc hnone).run hr
    exact habandoned.inv.not_resolved hr' (Or.inl habandoned.unpublished) uid control

end Runs

def exampleConfig : Config (StoredMetadata ⊕ Unit) where
  fileOwner := 0
  parseUuid value := if canonicalId value then some value else none
  parseUuid_self value := by simp
  encode stored := [.inl stored]
  decode
    | [.inl stored] => some stored
    | _ => none
  decode_encode _ := rfl
  sha256Hex contents := String.ofList ((List.range 64).map fun i =>
    if contents[i]?.any Sum.isRight then '1' else '0')

/-- An install up to its rename. -/
theorem approvals_not_forged_installed :
    ∃ s : State (StoredMetadata ⊕ Unit), (machine exampleConfig 0 0o700).Reachable s ∧
      ∃ a, resolveAt exampleConfig s.tree "01234567-89ab-4def-8123-456789abcdef" 1000
          (fun _ => true) = .ok a ∧
        ∃ p ∈ s.published, p.uid = 1000 ∧ s.tree.read a.path = some p.contents := by
  obtain ⟨s, hs, hok⟩ := Machine.Reachable.of_run (M := machine exampleConfig 0 0o700)
    ([.install [.inr ()] "/home/user/hip.sh" 1000 "01234567-89ab-4def-8123-456789abcdef",
      .io 0 (.create "x" 0o700), .io 0 .ok, .io 0 .ok, .io 0 .ok, .io 0 (.write 1), .io 0 .ok,
      .io 0 .ok, .io 0 (.write 1), .io 0 .ok, .io 0 .ok, .io 0 .ok, .io 0 .ok])
    (p := fun s => (resolveAt exampleConfig s.tree "01234567-89ab-4def-8123-456789abcdef" 1000
      (fun _ => true)).isOk) (by decide +kernel)
  obtain ⟨a, ha⟩ := isOk_iff.mp hok
  obtain ⟨p, hp, -, hpuid, -, hcontents⟩ := (approvals_not_forged hs).1 [] s _ _ _ a rfl ha
  exact ⟨s, hs, a, ha, p, hp, hpuid, hcontents⟩

end GlobalProtect.Hip.Approval
