import GlobalProtect.Hip.Report
import GlobalProtect.Service.Registry.Attach

/-! # Uploads of edited HIP reports

A client sends an edited report in chunks. `append_edited_hip_report_chunk` opens, extends, drops or
takes the upload of a session, `edited_hip_report` reads the report that was stored. The machine
`uploads` interleaves these calls, by any number of sessions, with the operations of the registry,
and keeps the calls and the revocations in its log.

`SessionRecord.appendChunk_cases` says what one call can do to a record. From it, every record is
explained by the log (`Explained`): its upload is what was accepted since the call that opened it,
and its report is an upload that was completed. The identifiers that the code draws are in the
labels, and nothing here needs them to be fresh. -/

namespace GlobalProtect.Service.Registry

open Lib Api Hip

/-! ### The operations -/

inductive HipUploadResult where
  | progress (uploadId : Uuid)
  | stored (reportId : Uuid)
  deriving DecidableEq, Repr

def maxChunkBytes : ℕ := 8 * 1024

/-- The arguments of `append_edited_hip_report_chunk` after the session, with the identifiers that
it draws if it opens an upload or stores a report. -/
structure Chunk where
  uploadId : Option Uuid
  offset : ℕ
  chunk : String
  complete : Bool
  newUpload : Uuid
  newReport : Uuid
  deriving DecidableEq, Repr

/-- `append_edited_hip_report_chunk`, from where it has the record of the session. -/
def SessionRecord.appendChunk (parse : String → Except String Element) (r : SessionRecord)
    (c : Chunk) : SessionRecord × Except SessionError HipUploadResult :=
  if r.isPending then (r, .error .unauthorized)
  else if c.uploadId = none ∧ c.offset ≠ 0 then (r, .error .invalidHipUpload)
  else
    let r := if c.uploadId = none then { r with editedHipUpload := some (c.newUpload, "") } else r
    match r.editedHipUpload with
    | none => (r, .error .invalidHipUpload)
    | some (currentId, xml) =>
      if c.uploadId.any (· ≠ currentId) ∨ c.offset ≠ xml.utf8ByteSize ∨
          maxChunkBytes < c.chunk.utf8ByteSize then
        (r, .error .invalidHipUpload)
      else if maxEditedReportBytes < xml.utf8ByteSize + c.chunk.utf8ByteSize then
        ({ r with editedHipUpload := none }, .error .invalidHipUpload)
      else if c.complete = false then
        ({ r with editedHipUpload := some (currentId, xml ++ c.chunk) }, .ok (.progress currentId))
      else
        match validateEditedReport parse (xml ++ c.chunk) with
        | .error _ => ({ r with editedHipUpload := none }, .error .invalidHipUpload)
        | .ok _ =>
          ({ r with
              editedHipUpload := none
              editedHipReport := some (c.newReport, xml ++ c.chunk) }, .ok (.stored c.newReport))

namespace Sessions

def appendEditedHipReportChunk (s : Sessions) (parse : String → Except String Element)
    (sessionId : Uuid) (c : Chunk) : Sessions × Except SessionError HipUploadResult :=
  match s.lookup sessionId with
  | none => (s, .error .unauthorized)
  | some record =>
    (s.insert sessionId (record.appendChunk parse c).1, (record.appendChunk parse c).2)

def editedHipReport (s : Sessions) (sessionId reportId : Uuid) : Except SessionError String :=
  match s.lookup sessionId with
  | none => .error .unauthorized
  | some record =>
    match record.editedHipReport.filter (·.1 = reportId) with
    | none => .error .unauthorized
    | some (_, xml) => .ok xml

/-- `SessionRegistry::store_hip_preview`, for a drawn identifier. -/
def storeHipPreview (s : Sessions) (sessionId : Uuid) (xml : String) (previewId : Uuid) :
    Sessions × Except SessionError Uuid :=
  match s.lookup sessionId with
  | none => (s, .error .unauthorized)
  | some record =>
    if record.isPending then (s, .error .unauthorized)
    else
      (s.insert sessionId { record with hipPreview := some (previewId, xml) }, .ok previewId)

end Sessions

/-! ### One call -/

variable {parse : String → Except String Element} {r r' : SessionRecord} {c : Chunk}
  {res : Except SessionError HipUploadResult}

/-- The upload that the call extends: one that it opens, or the one that it names. -/
def SessionRecord.Extends (r : SessionRecord) (c : Chunk) (id : Uuid) (xml : String) : Prop :=
  (c.uploadId = none ∧ c.offset = 0 ∧ id = c.newUpload ∧ xml = "") ∨
    (c.uploadId = some id ∧ r.editedHipUpload = some (id, xml))

/-- What one call can do to the record of its session. -/
inductive Appended (parse : String → Except String Element) (r : SessionRecord) (c : Chunk) :
    SessionRecord → Except SessionError HipUploadResult → Prop
  /-- Refused before an upload was opened. -/
  | refused {e : SessionError} (h : c.uploadId = none → c.offset = 0 → e = .unauthorized) :
    Appended parse r c r (.error e)
  /-- Refused, and the upload that it opened stays, empty. -/
  | opened (hid : c.uploadId = none) (hoffset : c.offset = 0) :
    Appended parse r c { r with editedHipUpload := some (c.newUpload, "") }
      (.error .invalidHipUpload)
  | dropped : Appended parse r c { r with editedHipUpload := none } (.error .invalidHipUpload)
  | extended {id : Uuid} {xml : String} (h : r.Extends c id xml) :
    Appended parse r c { r with editedHipUpload := some (id, xml ++ c.chunk) } (.ok (.progress id))
  | stored {id : Uuid} {xml : String} {e : Element} (h : r.Extends c id xml)
    (hvalid : validateEditedReport parse (xml ++ c.chunk) = .ok e) :
    Appended parse r c
      { r with editedHipUpload := none, editedHipReport := some (c.newReport, xml ++ c.chunk) }
      (.ok (.stored c.newReport))

theorem SessionRecord.appendChunk_cases (parse : String → Except String Element)
    (r : SessionRecord) (c : Chunk) :
    Appended parse r c (r.appendChunk parse c).1 (r.appendChunk parse c).2 := by
  unfold SessionRecord.appendChunk
  split
  · exact .refused fun _ _ => rfl
  split
  · next hoff => exact .refused fun _ h₀ => absurd h₀ hoff.2
  · next hoff =>
    by_cases hid : c.uploadId = none
    · have hzero : c.offset = 0 := by_contra fun hne => hoff ⟨hid, hne⟩
      have hext : r.Extends c c.newUpload "" := Or.inl ⟨hid, hzero, rfl, rfl⟩
      simp only [hid, if_true]
      split_ifs
      · exact .opened hid hzero
      · exact .dropped
      · exact .extended hext
      · split
        · exact .dropped
        · next hvalid => exact .stored hext hvalid
    · obtain ⟨id, hsome⟩ := Option.ne_none_iff_exists'.mp hid
      have hrefused : ∀ {e : SessionError}, Appended parse r c r (.error e) :=
        .refused fun h => absurd h hid
      simp only [hid, if_false]
      split
      · exact hrefused
      · next currentId xml hup =>
        split_ifs with hmatch
        · exact hrefused
        · exact .dropped
        all_goals
          have hcur : id = currentId := by
            by_contra hne
            exact hmatch (Or.inl (by simp [hsome, hne]))
          have hext : r.Extends c currentId xml := Or.inr ⟨hcur ▸ hsome, hup⟩
        · exact .extended hext
        · split
          · exact .dropped
          · next hvalid => exact .stored hext hvalid

/-! ### The machine -/

/-- A call of `append_edited_hip_report_chunk`, with what it returned. -/
structure Call extends Chunk where
  session : Uuid
  result : Except SessionError HipUploadResult

/-- The call opened an upload: it named none, and was not refused before. -/
def Call.opens (c : Call) : Bool :=
  match c.result with
  | .error .unauthorized => false
  | _ => c.uploadId = none && c.offset = 0

def Call.accepted (c : Call) : Bool :=
  match c.result with
  | .ok _ => true
  | .error _ => false

/-- The report that the call stored. -/
def Call.report (c : Call) : Option Uuid :=
  match c.result with
  | .ok (.stored reportId) => some reportId
  | _ => none

inductive Event where
  | call (c : Call)
  | revoked (sessionId : Uuid)

structure UploadState where
  registry : State := {}
  log : List Event := []

inductive UploadLabel where
  | registry (l : Label)
  | append (sessionId : Uuid) (c : Chunk)
  | preview (sessionId : Uuid) (xml : String) (previewId : Uuid)

/-- What an operation of the registry adds to the log. -/
def Label.events : Label → List Event
  | .revoke sid => [.revoked sid]
  | _ => []

/-- The session whose HIP data the call is about. -/
def UploadLabel.caller : UploadLabel → Option Uuid
  | .registry _ => none
  | .append sid _ => some sid
  | .preview sid _ _ => some sid

def uploadStep (parse : String → Except String Element) (inst : Uuid) (s : UploadState) :
    UploadLabel → Option UploadState
  | .registry l =>
    (step inst s.registry l).map fun registry => ⟨registry, s.log ++ l.events⟩
  | .append sid c =>
    let (sessions, result) := s.registry.sessions.appendEditedHipReportChunk parse sid c
    some ⟨{ s.registry with sessions }, s.log ++ [.call { toChunk := c, session := sid, result }]⟩
  | .preview sid xml previewId =>
    some { s with registry := { s.registry with
      sessions := (s.registry.sessions.storeHipPreview sid xml previewId).1 } }

def uploads (parse : String → Except String Element) (inst : Uuid) :
    Machine UploadState UploadLabel where
  init := {}
  step := uploadStep parse inst

/-! ### What the log says -/

/-- The calls of one session, in order. -/
def callsOf (sid : Uuid) (log : List Event) : List Call :=
  log.filterMap fun
    | .call c => if c.session = sid then some c else none
    | .revoked _ => none

/-- The chunks that were accepted, one after the other. -/
def assembled (calls : List Call) : String :=
  ((calls.filter Call.accepted).map (·.chunk)).foldl (· ++ ·) ""

/-- The calls from the one that opened the upload `id` on: none of the others opened an upload, and
those that were accepted named this one. -/
structure Segment (id : Uuid) (calls : List Call) : Prop where
  opener : ∃ c rest, calls = c :: rest ∧ c.opens = true ∧ c.newUpload = id ∧
    ∀ d ∈ rest, d.opens = false ∧ (d.accepted = true → d.uploadId = some id)

/-- The text is what the session has uploaded so far as `id`. -/
structure Uploading (log : List Event) (sid id : Uuid) (xml : String) : Prop where
  calls : ∃ before calls, callsOf sid log = before ++ calls ∧ Segment id calls ∧
    (∀ d ∈ calls, d.report = none) ∧ assembled calls = xml

/-- The text is what the session uploaded up to the call that stored it as `rid`; it has stored
nothing and was not revoked since. -/
structure Stored (log : List Event) (sid rid : Uuid) (xml : String) : Prop where
  calls : ∃ (before after : List Event) (c : Call), log = before ++ .call c :: after ∧
    c.session = sid ∧ c.report = some rid ∧
    (∃ id earlier calls, callsOf sid before = earlier ++ calls ∧ Segment id (calls ++ [c]) ∧
      (∀ d ∈ calls, d.report = none) ∧ assembled (calls ++ [c]) = xml) ∧
    (∀ d ∈ callsOf sid after, d.report = none) ∧ .revoked sid ∉ after

/-- The HIP data of a record is what the log says. -/
structure Explained (parse : String → Except String Element) (log : List Event) (sid : Uuid)
    (r : SessionRecord) : Prop where
  upload : ∀ id xml, r.editedHipUpload = some (id, xml) → Uploading log sid id xml
  report : ∀ rid xml, r.editedHipReport = some (rid, xml) →
    Stored log sid rid xml ∧ ∃ e, validateEditedReport parse xml = .ok e

variable {log : List Event} {sid id rid : Uuid} {xml : String} {calls : List Call} {d : Call}

theorem callsOf_append (sid : Uuid) (log log' : List Event) :
    callsOf sid (log ++ log') = callsOf sid log ++ callsOf sid log' := List.filterMap_append

@[simp] theorem callsOf_self (h : d.session = sid) : callsOf sid [.call d] = [d] := by
  simp [callsOf, h]

@[simp] theorem callsOf_other (h : d.session ≠ sid) : callsOf sid [.call d] = [] := by
  simp [callsOf, h]

theorem assembled_accepted (h : d.accepted = true) :
    assembled (calls ++ [d]) = assembled calls ++ d.chunk := by
  simp [assembled, h]

theorem assembled_refused (h : d.accepted = false) :
    assembled (calls ++ [d]) = assembled calls := by
  simp [assembled, h]

theorem Segment.single (h : d.opens = true) : Segment d.newUpload [d] :=
  ⟨d, [], rfl, h, rfl, by simp⟩

theorem Segment.snoc (hs : Segment id calls) (ho : d.opens = false)
    (ha : d.accepted = true → d.uploadId = some id) : Segment id (calls ++ [d]) := by
  obtain ⟨c, rest, rfl, hc, hid, hrest⟩ := hs.opener
  exact ⟨c, rest ++ [d], rfl, hc, hid, forall_mem_snoc hrest ⟨ho, ha⟩⟩

theorem Uploading.frame (h : Uploading log sid id xml) {events : List Event}
    (he : callsOf sid events = []) : Uploading (log ++ events) sid id xml := by
  obtain ⟨before, calls, hcalls, h⟩ := h.calls
  exact ⟨before, calls, by rw [callsOf_append, he, List.append_nil, hcalls], h⟩

theorem Uploading.refused (h : Uploading log sid id xml) (hd : d.session = sid)
    (ho : d.opens = false) (ha : d.accepted = false) (hr : d.report = none) :
    Uploading (log ++ [.call d]) sid id xml := by
  obtain ⟨before, calls, hcalls, hseg, hnone, hxml⟩ := h.calls
  refine ⟨before, calls ++ [d], ?_, hseg.snoc ho (by simp [ha]), forall_mem_snoc hnone hr, ?_⟩
  · rw [callsOf_append, hcalls, callsOf_self hd, List.append_assoc]
  · rw [assembled_refused ha, hxml]

theorem Stored.frame (h : Stored log sid rid xml) {events : List Event}
    (hc : ∀ d ∈ callsOf sid events, d.report = none) (hr : .revoked sid ∉ events) :
    Stored (log ++ events) sid rid xml := by
  obtain ⟨before, after, c, rfl, hsid, hrid, hcalls, hnone, hrev⟩ := h.calls
  refine ⟨before, after ++ events, c, by simp, hsid, hrid, hcalls, ?_, ?_⟩
  · intro x hx
    rw [callsOf_append] at hx
    exact (List.mem_append.mp hx).elim (hnone x) (hc x)
  · exact fun hx => (List.mem_append.mp hx).elim hrev hr

theorem Explained.frame (h : Explained parse log sid r) {events : List Event}
    (hc : callsOf sid events = []) (hr : .revoked sid ∉ events) :
    Explained parse (log ++ events) sid r where
  upload id xml hup := (h.upload id xml hup).frame hc
  report rid xml hrep :=
    ⟨(h.report rid xml hrep).1.frame (by simp [hc]) hr, (h.report rid xml hrep).2⟩

/-! ### One step -/

/-- The chunk that a call appends ends the calls of the upload that it extends. -/
theorem Explained.extends (h : Explained parse log sid r) (hx : r.Extends d.toChunk id xml)
    (ha : d.accepted = true) :
    ∃ before calls, callsOf sid log = before ++ calls ∧ Segment id (calls ++ [d]) ∧
      (∀ x ∈ calls, x.report = none) ∧ assembled (calls ++ [d]) = xml ++ d.chunk := by
  rcases hx with ⟨hid, hoff, rfl, rfl⟩ | ⟨hid, hup⟩
  · have ho : d.opens = true := by
      unfold Call.accepted at ha
      unfold Call.opens
      split at ha
      · next hres => simp [hres, hid, hoff]
      · cases ha
    exact ⟨callsOf sid log, [], by simp, Segment.single ho, by simp,
      by rw [assembled_accepted ha]; rfl⟩
  · obtain ⟨before, calls, hcalls, hseg, hnone, rfl⟩ := (h.upload id xml hup).calls
    have ho : d.opens = false := by
      unfold Call.opens
      split <;> simp [hid]
    exact ⟨before, calls, hcalls, hseg.snoc ho fun _ => hid, hnone, assembled_accepted ha⟩

theorem Explained.report_kept (h : Explained parse log sid r) (hd : d.session = sid)
    (hr : d.report = none) {xml : String} (hrep : r.editedHipReport = some (rid, xml)) :
    Stored (log ++ [.call d]) sid rid xml ∧ ∃ e, validateEditedReport parse xml = .ok e := by
  obtain ⟨hst, hvalid⟩ := h.report rid xml hrep
  refine ⟨hst.frame ?_ (by simp), hvalid⟩
  intro x hx
  rw [callsOf_self hd, List.mem_singleton] at hx
  rw [hx, hr]

theorem Explained.append (h : Explained parse log sid r) (hd : d.session = sid)
    (hstep : Appended parse r d.toChunk r' d.result) :
    Explained parse (log ++ [.call d]) sid r' := by
  have hlog : callsOf sid (log ++ [.call d]) = callsOf sid log ++ [d] := by
    rw [callsOf_append, callsOf_self hd]
  generalize hres : d.result = res at hstep
  cases hstep with
  | refused he =>
    have hreport : d.report = none := by simp [Call.report, hres]
    have haccepted : d.accepted = false := by simp [Call.accepted, hres]
    have hopens : d.opens = false := by
      unfold Call.opens
      split
      · rfl
      · next hne =>
        by_contra hopen
        simp only [Bool.not_eq_false, Bool.and_eq_true, decide_eq_true_eq] at hopen
        rw [he hopen.1 hopen.2] at hres
        exact hne hres
    exact ⟨fun id xml hup => (h.upload id xml hup).refused hd hopens haccepted hreport,
      fun rid xml => h.report_kept hd hreport⟩
  | opened hid hoff =>
    have hreport : d.report = none := by simp [Call.report, hres]
    have haccepted : d.accepted = false := by simp [Call.accepted, hres]
    have hopens : d.opens = true := by simp [Call.opens, hres, hid, hoff]
    refine ⟨fun id xml hup => ?_, fun rid xml => h.report_kept hd hreport⟩
    obtain ⟨rfl, rfl⟩ := Prod.mk.inj (Option.some.inj hup)
    exact ⟨callsOf sid log, [d], hlog, Segment.single hopens, by simp [hreport],
      by simp [assembled, haccepted]⟩
  | dropped =>
    have hreport : d.report = none := by simp [Call.report, hres]
    exact ⟨fun id xml hup => (by cases hup), fun rid xml => h.report_kept hd hreport⟩
  | extended hx =>
    have hreport : d.report = none := by simp [Call.report, hres]
    have haccepted : d.accepted = true := by simp [Call.accepted, hres]
    refine ⟨fun id xml hup => ?_, fun rid xml => h.report_kept hd hreport⟩
    obtain ⟨rfl, rfl⟩ := Prod.mk.inj (Option.some.inj hup)
    obtain ⟨before, calls, hcalls, hseg, hnone, hxml⟩ := h.extends hx haccepted
    exact ⟨before, calls ++ [d], by rw [hlog, hcalls, List.append_assoc], hseg,
      forall_mem_snoc hnone hreport, hxml⟩
  | @stored id xml e hx hvalid =>
    have hreport : d.report = some d.newReport := by simp [Call.report, hres]
    have haccepted : d.accepted = true := by simp [Call.accepted, hres]
    refine ⟨fun id xml hup => (by cases hup), fun rid text hrep => ?_⟩
    obtain ⟨rfl, rfl⟩ := Prod.mk.inj (Option.some.inj hrep)
    obtain ⟨before, calls, hcalls, hseg, hnone, hxml⟩ := h.extends hx haccepted
    exact ⟨⟨log, [], d, rfl, hd, hreport, ⟨id, before, calls, hcalls, hseg, hnone, hxml⟩,
      by simp [callsOf], by simp⟩, e, hvalid⟩

/-! ### Every run -/

theorem lookup_append_ne (ss : Sessions) (c : Chunk) {k : Uuid} (hk : k ≠ sid) :
    (ss.appendEditedHipReportChunk parse sid c).1.lookup k = ss.lookup k := by
  unfold Sessions.appendEditedHipReportChunk
  split
  · rfl
  · exact AList.lookup_insert_ne hk

theorem lookup_append (ss : Sessions) (c : Chunk)
    (h : (ss.appendEditedHipReportChunk parse sid c).1.lookup sid = some r') :
    ∃ r, ss.lookup sid = some r ∧
      Appended parse r c r' (ss.appendEditedHipReportChunk parse sid c).2 := by
  unfold Sessions.appendEditedHipReportChunk at h ⊢
  split at h
  · next hr => rw [hr] at h; cases h
  · next r hr =>
    rw [AList.lookup_insert] at h
    cases h
    rw [hr]
    exact ⟨r, rfl, r.appendChunk_cases parse c⟩

theorem lookup_storeHipPreview_ne (ss : Sessions) (xml : String) (previewId : Uuid) {k : Uuid}
    (hk : k ≠ sid) : (ss.storeHipPreview sid xml previewId).1.lookup k = ss.lookup k := by
  unfold Sessions.storeHipPreview
  split
  · rfl
  · split_ifs
    · rfl
    · exact AList.lookup_insert_ne hk

theorem lookup_storeHipPreview (ss : Sessions) (xml : String) (previewId : Uuid) {k : Uuid}
    (h : (ss.storeHipPreview sid xml previewId).1.lookup k = some r') :
    ∃ r, ss.lookup k = some r ∧ r'.editedHipUpload = r.editedHipUpload ∧
      r'.editedHipReport = r.editedHipReport := by
  unfold Sessions.storeHipPreview at h
  split at h
  · exact ⟨r', h, rfl, rfl⟩
  · next r hr =>
    split_ifs at h
    · exact ⟨r', h, rfl, rfl⟩
    · rcases Store.lookup_insert_cases h with ⟨rfl, rfl⟩ | ⟨-, h⟩
      · exact ⟨r, hr, rfl, rfl⟩
      · exact ⟨r', h, rfl, rfl⟩

theorem Explained.congr (h : Explained parse log sid r)
    (hup : r'.editedHipUpload = r.editedHipUpload)
    (hrep : r'.editedHipReport = r.editedHipReport) : Explained parse log sid r' :=
  ⟨by rw [hup]; exact h.upload, by rw [hrep]; exact h.report⟩

theorem Explained.empty (hr : r.hip = (none, none, none)) : Explained parse log sid r := by
  obtain ⟨hup, hrest⟩ := Prod.mk.inj hr
  obtain ⟨hrep, -⟩ := Prod.mk.inj hrest
  exact ⟨by simp [hup], by simp [hrep]⟩

theorem events_about {inst : Uuid} {s s' : State} {l : Label} (h : step inst s l = some s')
    (hr : s'.sessions.lookup sid = some r) :
    callsOf sid l.events = [] ∧ .revoked sid ∉ l.events := by
  cases l with
  | revoke k =>
    cases h
    refine ⟨rfl, fun hk => ?_⟩
    obtain rfl := Event.revoked.inj (List.mem_singleton.mp hk)
    rw [lookup_revoke, if_pos rfl] at hr
    cases hr
  | _ => exact ⟨rfl, List.not_mem_nil⟩

theorem reachable_explained {inst : Uuid} {s : UploadState}
    (hs : (uploads parse inst).Reachable s) :
    ∀ sid r, s.registry.sessions.lookup sid = some r → Explained parse s.log sid r := by
  refine hs.invariant (P := fun s => ∀ sid r, s.registry.sessions.lookup sid = some r →
    Explained parse s.log sid r) (fun sid r hr => by cases hr) ?_
  intro s l s' _ ih hstep sid r hr
  cases l with
  | registry l =>
    obtain ⟨registry, hreg, rfl⟩ := Option.map_eq_some_iff.mp hstep
    obtain ⟨hcalls, hrev⟩ := events_about hreg hr
    rcases step_keepsHip hreg sid r hr with ⟨r₀, hr₀, hhip⟩ | ⟨-, hempty⟩
    · obtain ⟨hup, hrest⟩ := Prod.mk.inj hhip
      exact ((ih sid r₀ hr₀).frame hcalls hrev).congr hup (Prod.mk.inj hrest).1
    · exact .empty hempty
  | append k c =>
    cases hstep
    by_cases hk : sid = k
    · subst hk
      obtain ⟨r₀, hr₀, happended⟩ := lookup_append s.registry.sessions c hr
      exact (ih sid r₀ hr₀).append rfl happended
    · have hr₀ := (lookup_append_ne s.registry.sessions c hk).symm.trans hr
      exact (ih sid r hr₀).frame (callsOf_other (Ne.symm hk)) (by simp)
  | preview k xml previewId =>
    cases hstep
    obtain ⟨r₀, hr₀, hup, hrep⟩ := lookup_storeHipPreview _ _ _ hr
    exact (ih sid r₀ hr₀).congr hup hrep

theorem editedHipReport_ok {ss : Sessions} (h : ss.editedHipReport sid rid = .ok xml) :
    ∃ r, ss.lookup sid = some r ∧ r.editedHipReport = some (rid, xml) := by
  unfold Sessions.editedHipReport at h
  split at h
  · cases h
  · next r hr =>
    split at h
    · cases h
    · next id text hrep =>
      obtain rfl := Except.ok.inj h
      obtain ⟨hfound, hid⟩ := Option.filter_eq_some_iff.mp hrep
      obtain rfl := of_decide_eq_true hid
      exact ⟨r, hr, hfound⟩

/-- **Upload assembly**: a report that is read is what its session uploaded, from the call that
opened the upload to the one that stored the report, which is the last one stored; it fits, it is
valid, and the session was not revoked since. A call changes the HIP data of its own session
only. -/
theorem edited_hip_report_assembled (parse : String → Except String Element) (inst : Uuid)
    {s : UploadState} (hs : (uploads parse inst).Reachable s) :
    (∀ sid rid xml, s.registry.sessions.editedHipReport sid rid = .ok xml →
      Stored s.log sid rid xml ∧ xml.utf8ByteSize ≤ maxEditedReportBytes ∧
        ∃ e, validateEditedReport parse xml = .ok e) ∧
    ∀ l s' caller, uploadStep parse inst s l = some s' → l.caller = some caller →
      ∀ sid ≠ caller, (s'.registry.sessions.lookup sid).map SessionRecord.hip =
        (s.registry.sessions.lookup sid).map SessionRecord.hip := by
  constructor
  · intro sid rid xml hread
    obtain ⟨r, hr, hrep⟩ := editedHipReport_ok hread
    obtain ⟨hstored, e, hvalid⟩ := (reachable_explained hs sid r hr).report rid xml hrep
    exact ⟨hstored, size_le_of_validate hvalid, e, hvalid⟩
  · intro l s' caller hstep hcaller sid hne
    cases l with
    | registry l => cases hcaller
    | append k c =>
      cases hstep
      cases hcaller
      exact congrArg _ (lookup_append_ne _ _ hne)
    | preview k xml previewId =>
      cases hstep
      cases hcaller
      exact congrArg _ (lookup_storeHipPreview_ne _ _ _ hne)

/-- The least report that is valid. -/
def minimalReport : Element :=
  let field (name : String) : Node := .element (.mk name [] [])
  .mk "hip-report" [] (rootFields.map field ++
    [.element (.mk "categories" []
      [.element (.mk "entry" [("name", "host-info")] (hostInfoFields.map field))])])

/-- Session 1 attaches and uploads a report in two chunks; a chunk at a wrong offset is refused in
between. -/
theorem edited_hip_report_assembled_two_chunks :
    ∃ s, (uploads (fun _ => .ok minimalReport) 0).Reachable s ∧
      s.registry.sessions.editedHipReport 1 21 = .ok "ab" ∧ Stored s.log 1 21 "ab" := by
  let permit : HandshakePermit :=
    { sessionId := 1, desktopUid := none, observedGeneration := 0, secret := 5, token := 7 }
  let labels : List UploadLabel :=
    [.registry (.issue 0 "v" none 1 5 true), .registry (.beginHandshake 1 0 1 "v" 7),
      .registry (.commitAttach permit 9), .append 1 ⟨none, 0, "a", false, 20, 21⟩,
      .append 1 ⟨some 20, 0, "x", true, 20, 21⟩, .append 1 ⟨some 20, 1, "b", true, 20, 21⟩]
  obtain ⟨s, hs, hread⟩ := Machine.Reachable.of_run
    (M := uploads (fun _ => .ok minimalReport) 0) labels
    (p := fun s => (s.registry.sessions.editedHipReport 1 21).toOption == some "ab")
    (by decide +kernel)
  have hok : s.registry.sessions.editedHipReport 1 21 = .ok "ab" := by
    cases h : s.registry.sessions.editedHipReport 1 21 with
    | error e => rw [h] at hread; cases hread
    | ok xml =>
      rw [h] at hread
      rw [Option.some.inj (eq_of_beq hread)]
  exact ⟨s, hs, hok, ((edited_hip_report_assembled _ 0 hs).1 1 21 "ab" hok).1⟩

end GlobalProtect.Service.Registry
