import Mathlib.Data.String.Basic
import GlobalProtect.Service.Registry.Upload

/-! # Refused chunks

What a chunk that does not fit leaves behind. A chunk does not fit (`SessionRecord.refuses`) if it
names an upload that is not in progress, if it does not start where the upload ends, or if it is too
long. All three are looked at after the call has opened the upload that it asked for, and so the
upload in progress is lost if the chunk that opens another one is too long: `appendChunk_refused`
gives the record after such a call. Every other call leaves the record as it was, and the upload can
be continued (`appendChunk_continues`). -/

namespace GlobalProtect.Service.Registry

open Lib Api Hip

/-! ### Chunks that do not fit -/

/-- The call names an upload that is not in progress. -/
def SessionRecord.wrongUploadId (r : SessionRecord) (c : Chunk) : Bool :=
  c.uploadId.any fun id => r.editedHipUpload.all fun upload => upload.1 ≠ id

/-- The chunk does not start where the upload ends; an upload that the call opens is empty. -/
def SessionRecord.wrongOffset (r : SessionRecord) (c : Chunk) : Bool :=
  match c.uploadId with
  | none => c.offset ≠ 0
  | some _ => r.editedHipUpload.any fun upload => c.offset ≠ upload.2.utf8ByteSize

def Chunk.tooLong (c : Chunk) : Bool := maxChunkBytes < c.chunk.utf8ByteSize

/-- The session is attached, and the chunk does not fit. -/
def SessionRecord.refuses (r : SessionRecord) (c : Chunk) : Bool :=
  !r.isPending && (r.wrongUploadId c || r.wrongOffset c || c.tooLong)

/-- The call asks for a new upload. -/
def Chunk.opening (c : Chunk) : Bool := c.uploadId = none && c.offset = 0

variable {parse : String → Except String Element} {r : SessionRecord} {c : Chunk}

/-- A chunk that does not fit is refused. The upload that it opens stays. -/
theorem SessionRecord.appendChunk_refused (h : r.refuses c = true) :
    r.appendChunk parse c =
      (if c.opening then { r with editedHipUpload := some (c.newUpload, "") } else r,
        .error .invalidHipUpload) := by
  obtain ⟨hactive, hmisfit⟩ := Bool.and_eq_true_iff.mp h
  have hactive : r.isPending = false := by simpa using hactive
  unfold SessionRecord.appendChunk
  rw [hactive, if_neg Bool.false_ne_true]
  cases hid : c.uploadId with
  | none =>
    by_cases hoff : c.offset = 0
    · -- only its length can be wrong, and the upload is open by then
      have hlong : maxChunkBytes < c.chunk.utf8ByteSize := by
        simpa [SessionRecord.wrongUploadId, SessionRecord.wrongOffset, Chunk.tooLong, hid, hoff]
          using hmisfit
      have hopening : c.opening = true := by simp [Chunk.opening, hid, hoff]
      rw [if_neg (fun hne => hne.2 hoff), hopening]
      simp only [if_true]
      rw [if_pos (Or.inr (Or.inr hlong))]
    · have hopening : c.opening = false := by simp [Chunk.opening, hoff]
      rw [if_pos ⟨rfl, hoff⟩, hopening, if_neg Bool.false_ne_true]
  | some id =>
    have hopening : c.opening = false := by simp [Chunk.opening, hid]
    rw [if_neg (fun hne => nomatch hne.1), hopening, if_neg Bool.false_ne_true]
    simp only [reduceCtorEq, if_false]
    cases hup : r.editedHipUpload with
    | none => rfl
    | some upload =>
      have hany : upload.1 ≠ id ∨ c.offset ≠ upload.2.utf8ByteSize ∨
          maxChunkBytes < c.chunk.utf8ByteSize := by
        simpa [SessionRecord.wrongUploadId, SessionRecord.wrongOffset, Chunk.tooLong, hid, hup,
          or_assoc] using hmisfit
      refine if_pos (hany.imp_left fun hne => ?_)
      simpa using hne.symm

/-- The next chunk of the upload in progress is taken. -/
theorem SessionRecord.appendChunk_continues {id : Uuid} {xml : String}
    (hactive : r.isPending = false) (hup : r.editedHipUpload = some (id, xml))
    (hid : c.uploadId = some id) (hoff : c.offset = xml.utf8ByteSize)
    (hlong : c.tooLong = false)
    (hroom : xml.utf8ByteSize + c.chunk.utf8ByteSize ≤ maxEditedReportBytes)
    (hmore : c.complete = false) :
    r.appendChunk parse c =
      ({ r with editedHipUpload := some (id, xml ++ c.chunk) }, .ok (.progress id)) := by
  have hlong : ¬ maxChunkBytes < c.chunk.utf8ByteSize := by simpa [Chunk.tooLong] using hlong
  unfold SessionRecord.appendChunk
  simp [hactive, hup, hid, hoff, hlong, hmore, Nat.not_lt.mpr hroom]

/-! ### The request -/

structure StoreEditedHipReportChunkRequest where
  uploadId : Option String
  offset : ℕ
  xml : String
  complete : Bool
  deriving DecidableEq, Repr

/-- The replies to the requests about HIP data. -/
inductive HipReply where
  | hipUploadProgress (uploadId : Uuid)
  | storedHipReport (reportId : Uuid)
  | hipPreviewChunk (previewId : Uuid) (offset : ℕ) (xml : String) (complete : Bool)
  | noSubmittedHipReport
  | rejected (code : ServiceErrorCode) (message : String)
  deriving DecidableEq, Repr

/-- The handler of the request, for the identifiers that may be drawn; `parseId` reads the text of
an identifier. -/
def storeEditedHipReportChunk (parse : String → Except String Element)
    (parseId : String → Option Uuid) (s : Sessions) (sessionId : Uuid)
    (report : StoreEditedHipReportChunkRequest) (newUpload newReport : Uuid) :
    Sessions × HipReply :=
  let uploadId := report.uploadId.bind parseId
  if report.uploadId.isSome ∧ uploadId.isNone then
    (s, .rejected .invalidRequest "Invalid HIP upload ID")
  else
    let (s, result) := s.appendEditedHipReportChunk parse sessionId
      { uploadId, offset := report.offset, chunk := report.xml, complete := report.complete,
        newUpload, newReport }
    match result with
    | .ok (.progress uploadId) => (s, .hipUploadProgress uploadId)
    | .ok (.stored reportId) => (s, .storedHipReport reportId)
    | .error _ => (s, .rejected .invalidRequest "Invalid HIP report upload")

/-- What the request hands to the registry; nothing if it names what is no identifier. -/
def StoreEditedHipReportChunkRequest.chunk? (parseId : String → Option Uuid)
    (report : StoreEditedHipReportChunkRequest) (newUpload newReport : Uuid) : Option Chunk :=
  let chunk (uploadId : Option Uuid) : Chunk :=
    { uploadId, offset := report.offset, chunk := report.xml, complete := report.complete,
      newUpload, newReport }
  match report.uploadId with
  | none => some (chunk none)
  | some text => (parseId text).map fun id => chunk (some id)

theorem storeEditedHipReportChunk_eq (parse : String → Except String Element)
    (parseId : String → Option Uuid) (s : Sessions) (sid : Uuid)
    (report : StoreEditedHipReportChunkRequest) (newUpload newReport : Uuid) :
    storeEditedHipReportChunk parse parseId s sid report newUpload newReport =
      match report.chunk? parseId newUpload newReport with
      | none => (s, .rejected .invalidRequest "Invalid HIP upload ID")
      | some c =>
        ((s.appendEditedHipReportChunk parse sid c).1,
          match (s.appendEditedHipReportChunk parse sid c).2 with
          | .ok (.progress uploadId) => .hipUploadProgress uploadId
          | .ok (.stored reportId) => .storedHipReport reportId
          | .error _ => .rejected .invalidRequest "Invalid HIP report upload") := by
  unfold storeEditedHipReportChunk StoreEditedHipReportChunkRequest.chunk?
  cases report.uploadId with
  | none =>
    simp only [Option.isSome_none, Bool.false_eq_true, false_and, if_false, Option.bind_none]
    split <;> simp_all
  | some text =>
    cases hid : parseId text with
    | none => simp [hid]
    | some id =>
      simp only [Option.bind_some, hid, Option.isNone_some, Bool.false_eq_true, and_false,
        if_false, Option.map_some]
      split <;> simp_all

/-! ### Every refusal -/

variable {s : Sessions} {sid : Uuid}

theorem append_eq (hr : s.lookup sid = some r) :
    s.appendEditedHipReportChunk parse sid c =
      (s.insert sid (r.appendChunk parse c).1, (r.appendChunk parse c).2) := by
  unfold Sessions.appendEditedHipReportChunk
  rw [hr]

theorem lookup_refused (parse : String → Except String Element) (hr : s.lookup sid = some r)
    (hrefuses : r.refuses c = true) :
    (s.appendEditedHipReportChunk parse sid c).1.lookup sid =
      some (if c.opening then { r with editedHipUpload := some (c.newUpload, "") } else r) := by
  rw [append_eq hr, SessionRecord.appendChunk_refused hrefuses, AList.lookup_insert]

/-- **Refused chunks**: a chunk that does not fit is refused. The HIP data of its session is as
before exactly if the call did not ask for a new upload (or has drawn, for the new one, the
identifier of an upload that is still empty); then every session is as before, and the upload in
progress can be continued. The request is answered alike, and one that names what is no identifier
changes nothing. -/
theorem refused_chunk_keeps (parse : String → Except String Element)
    (parseId : String → Option Uuid) (s : Sessions) (sid : Uuid) (r : SessionRecord) (c : Chunk)
    (report : StoreEditedHipReportChunkRequest)
    (hr : s.lookup sid = some r) (hrefuses : r.refuses c = true) :
    let s' := (s.appendEditedHipReportChunk parse sid c).1
    (s.appendEditedHipReportChunk parse sid c).2 = .error .invalidHipUpload ∧
    ((s'.lookup sid).map SessionRecord.hip = some r.hip ↔
      (c.opening = true → r.editedHipUpload = some (c.newUpload, ""))) ∧
    ((c.opening = true → r.editedHipUpload = some (c.newUpload, "")) →
      (∀ k, s'.lookup k = s.lookup k) ∧
      ∀ (id : Uuid) (xml : String) (next : Chunk), r.editedHipUpload = some (id, xml) →
        next.uploadId = some id → next.offset = xml.utf8ByteSize → next.tooLong = false →
        xml.utf8ByteSize + next.chunk.utf8ByteSize ≤ maxEditedReportBytes →
        next.complete = false →
        (s'.appendEditedHipReportChunk parse sid next).2 = .ok (.progress id)) ∧
    (report.chunk? parseId c.newUpload c.newReport = some c →
      storeEditedHipReportChunk parse parseId s sid report c.newUpload c.newReport =
        (s', .rejected .invalidRequest "Invalid HIP report upload")) ∧
    (report.chunk? parseId c.newUpload c.newReport = none →
      storeEditedHipReportChunk parse parseId s sid report c.newUpload c.newReport =
        (s, .rejected .invalidRequest "Invalid HIP upload ID")) := by
  intro s'
  have hresult : (s.appendEditedHipReportChunk parse sid c).2 = .error .invalidHipUpload := by
    rw [append_eq hr, SessionRecord.appendChunk_refused hrefuses]
  have hlookup : s'.lookup sid = _ := lookup_refused parse hr hrefuses
  refine ⟨hresult, ?_, ?_, ?_, ?_⟩
  · rw [hlookup]
    by_cases hopening : c.opening = true
    · simp [hopening, SessionRecord.hip, eq_comm]
    · simp [hopening]
  · intro hkept
    have hsame : s'.lookup sid = some r := by
      rw [hlookup]
      by_cases hopening : c.opening = true
      · rw [if_pos hopening, ← hkept hopening]
      · rw [if_neg hopening]
    constructor
    · intro k
      by_cases hk : k = sid
      · rw [hk, hsame, hr]
      · exact lookup_append_ne s c hk
    · intro id xml next hup hid hoff hlong hroom hmore
      have hactive : r.isPending = false := by
        simpa using (Bool.and_eq_true_iff.mp hrefuses).1
      rw [append_eq hsame,
        SessionRecord.appendChunk_continues hactive hup hid hoff hlong hroom hmore]
  · intro hchunk
    rw [storeEditedHipReportChunk_eq, hchunk]
    simp only [hresult]
    rfl
  · intro hchunk
    rw [storeEditedHipReportChunk_eq, hchunk]

/-- An attached session that has uploaded "a" as upload 20. -/
def uploadingRecord : SessionRecord where
  secret := 5
  productVersion := "v"
  desktopUid := none
  editedHipUpload := some (20, "a")
  status := .active 1 (some 9) none

def uploadingSessions : Sessions := (∅ : Sessions).insert 1 uploadingRecord

/-- Another client of session 1 guesses an upload; the upload in progress goes on. -/
theorem refused_chunk_keeps_guess :
    let s' := (uploadingSessions.appendEditedHipReportChunk (fun _ => .error "") 1
      ⟨some 3, 0, "x", false, 30, 31⟩).1
    (∀ k, s'.lookup k = uploadingSessions.lookup k) ∧
      (s'.appendEditedHipReportChunk (fun _ => .error "") 1 ⟨some 20, 1, "b", false, 32, 33⟩).2 =
        .ok (.progress 20) := by
  intro s'
  have h := (refused_chunk_keeps (fun _ => .error "") (fun _ => some 3) uploadingSessions 1
    uploadingRecord ⟨some 3, 0, "x", false, 30, 31⟩ ⟨some "3", 0, "x", false⟩
    (AList.lookup_insert _) (by decide)).2.2.1 (fun h => by cases h)
  exact ⟨h.1, h.2 20 "a" ⟨some 20, 1, "b", false, 32, 33⟩ rfl rfl (by decide) (by decide)
    (by decide) rfl⟩

theorem size_replicate (n : ℕ) : (String.ofList (List.replicate n 'a')).utf8ByteSize = n := by
  rw [String.utf8ByteSize_ofList]
  induction n with
  | zero => rfl
  | succ n ih => rw [List.replicate_succ, String.utf8Len_cons, ih]; rfl

/-- A call that asks for a new upload with a chunk that is one byte too long is refused. The upload
in progress is gone, and its next chunk is refused. -/
theorem refused_chunk_disturbs :
    ∃ (s s' : Sessions) (c next : Chunk) (parse : String → Except String Element),
      s' = (s.appendEditedHipReportChunk parse 1 c).1 ∧
      (s.appendEditedHipReportChunk parse 1 c).2 = .error .invalidHipUpload ∧
      (s.lookup 1).bind SessionRecord.editedHipUpload = some (20, "a") ∧
      (s'.lookup 1).bind SessionRecord.editedHipUpload = some (30, "") ∧
      (s.appendEditedHipReportChunk parse 1 next).2 = .ok (.progress 20) ∧
      (s'.appendEditedHipReportChunk parse 1 next).2 = .error .invalidHipUpload := by
  let c : Chunk :=
    ⟨none, 0, String.ofList (List.replicate (maxChunkBytes + 1) 'a'), false, 30, 31⟩
  have hrefuses : uploadingRecord.refuses c = true := by
    have hlong : c.tooLong = true := by simp [Chunk.tooLong, c, size_replicate]
    simp [SessionRecord.refuses, SessionRecord.isPending, uploadingRecord, hlong]
  have hbefore : uploadingSessions.lookup 1 = some uploadingRecord := AList.lookup_insert _
  have hafter := lookup_refused (fun _ => .error "") hbefore hrefuses
  refine ⟨uploadingSessions, _, c, ⟨some 20, 1, "b", false, 32, 33⟩, fun _ => .error "", rfl,
    ?_, rfl, ?_, by decide, ?_⟩
  · rw [append_eq hbefore, SessionRecord.appendChunk_refused hrefuses]
  · rw [hafter]
    rfl
  · rw [append_eq hafter]
    rfl

end GlobalProtect.Service.Registry
