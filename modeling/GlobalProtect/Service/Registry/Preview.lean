import GlobalProtect.Lib.Utf8
import GlobalProtect.Service.Registry.Refusal

/-! # Reading a preview

A preview is stored in one piece (`storeHipPreview`) and read in chunks of bounded size
(`hipPreviewChunk`), which end at a character. A client starts at offset 0 and asks for the text
from where the last chunk ended until it is told that the preview is complete (`readPreview`).

`hipPreviewChunk_stored` gives the chunk at a boundary: the longest beginning of the rest that fits.
It has at least one character unless nothing is left, and so the requests end, and their chunks are
the text (`preview_reconstructed`). -/

namespace GlobalProtect.Service.Registry

open Lib Api

open String (utf8Len)

/-! ### The operations -/

def hipPreviewChunkBytes : ℕ := 16 * 1024

namespace Sessions

def hipPreviewChunk (s : Sessions) (sessionId previewId : Uuid) (offset : ℕ) :
    Except SessionError (String × Bool) :=
  match s.lookup sessionId with
  | none => .error .unauthorized
  | some record =>
    match record.hipPreview.filter (·.1 = previewId) with
    | none => .error .unauthorized
    | some (_, xml) =>
      if xml.utf8ByteSize < offset ∨ Utf8.isCharBoundary xml.toList offset = false then
        .error .unauthorized
      else
        let stop := Utf8.floorBoundary xml.toList
          (min (offset + hipPreviewChunkBytes) xml.utf8ByteSize)
        .ok (String.ofList (Utf8.slice xml.toList offset stop), stop = xml.utf8ByteSize)

def lastSuccessfulHipReport (s : Sessions) (sessionId : Uuid) :
    Except SessionError (Option String) :=
  match s.lookup sessionId with
  | none => .error .unauthorized
  | some record => .ok record.lastSuccessfulHipReport

end Sessions

structure ReadHipPreviewChunkRequest where
  previewId : String
  offset : ℕ
  deriving DecidableEq, Repr

/-- The handler of the request; `parseId` reads the text of an identifier. -/
def readHipPreviewChunk (parseId : String → Option Uuid) (s : Sessions) (sessionId : Uuid)
    (chunk : ReadHipPreviewChunkRequest) : HipReply :=
  match (parseId chunk.previewId).bind fun previewId =>
      (s.hipPreviewChunk sessionId previewId chunk.offset).toOption.map fun (xml, complete) =>
        HipReply.hipPreviewChunk previewId chunk.offset xml complete with
  | some reply => reply
  | none => .rejected .invalidRequest "HIP preview is unavailable"

/-- The handler of the request for the last submitted report, for a drawn identifier: the report
becomes the preview, and the reply is its first chunk. -/
def getLastSubmittedHipReport (s : Sessions) (sessionId newPreview : Uuid) :
    Sessions × HipReply :=
  let unavailable := HipReply.rejected .internal "Submitted HIP report is unavailable"
  match s.lastSuccessfulHipReport sessionId with
  | .error _ => (s, .rejected .invalidRequest "Session is unavailable")
  | .ok none => (s, .noSubmittedHipReport)
  | .ok (some report) =>
    match s.storeHipPreview sessionId report newPreview with
    | (s, .error _) => (s, unavailable)
    | (s, .ok previewId) =>
      match s.hipPreviewChunk sessionId previewId 0 with
      | .error _ => (s, unavailable)
      | .ok (xml, complete) => (s, .hipPreviewChunk previewId 0 xml complete)

/-! ### The client -/

/-- Asks for chunk after chunk, from a number of requests and an offset on, with a bound on the
requests that are left. `none` if a request is rejected, or if the bound is reached. -/
def readPreview (ask : ℕ → ℕ → HipReply) : ℕ → ℕ → ℕ → Option (List (String × Bool))
  | 0, _, _ => none
  | fuel + 1, requests, offset =>
    match ask requests offset with
    | .hipPreviewChunk _ _ xml complete =>
      if complete then some [(xml, true)]
      else
        (readPreview ask fuel (requests + 1) (offset + xml.utf8ByteSize)).map ((xml, false) :: ·)
    | _ => none

/-! ### One chunk -/

/-- The session has the preview. -/
def Sessions.HasPreview (s : Sessions) (sid previewId : Uuid) (xml : String) : Prop :=
  ∃ record, s.lookup sid = some record ∧ record.hipPreview = some (previewId, xml)

variable {s : Sessions} {sid previewId : Uuid} {xml : String}

theorem storeHipPreview_hasPreview {s' : Sessions} {id : Uuid}
    (h : s.storeHipPreview sid xml previewId = (s', .ok id)) :
    id = previewId ∧ s'.HasPreview sid previewId xml := by
  unfold Sessions.storeHipPreview at h
  split at h
  · cases h
  · next record hr =>
    by_cases hpending : record.isPending = true
    · rw [if_pos hpending] at h
      cases h
    · rw [if_neg hpending] at h
      obtain ⟨rfl, hid⟩ := Prod.mk.inj h
      exact ⟨(Except.ok.inj hid).symm, _, AList.lookup_insert _, rfl⟩

/-- At a boundary, the chunk is the longest beginning of the rest that fits, and it is the last one
if that is all of it. -/
theorem hipPreviewChunk_stored (h : s.HasPreview sid previewId xml) {pre suf : List Char}
    (hxml : xml.toList = pre ++ suf) :
    s.hipPreviewChunk sid previewId (utf8Len pre) =
      .ok (String.ofList (Utf8.take hipPreviewChunkBytes suf),
        Utf8.take hipPreviewChunkBytes suf = suf) := by
  obtain ⟨record, hr, hpreview⟩ := h
  have hsize : xml.utf8ByteSize = utf8Len (pre ++ suf) := by
    rw [← hxml, ← String.utf8ByteSize_ofList, String.ofList_toList]
  have hboundary : Utf8.isCharBoundary xml.toList (utf8Len pre) = true :=
    Utf8.isCharBoundary_iff.mpr ⟨pre, suf, hxml, rfl⟩
  have hinside : ¬ (xml.utf8ByteSize < utf8Len pre ∨
      Utf8.isCharBoundary xml.toList (utf8Len pre) = false) := by
    rw [hboundary, hsize, String.utf8Len_append]
    simp
  have hstop : Utf8.floorBoundary xml.toList
      (min (utf8Len pre + hipPreviewChunkBytes) xml.utf8ByteSize) =
      utf8Len pre + utf8Len (Utf8.take hipPreviewChunkBytes suf) := by
    rw [hsize, hxml, Utf8.floorBoundary_min, Utf8.floorBoundary_eq, Utf8.take_append,
      String.utf8Len_append]
  unfold Sessions.hipPreviewChunk
  rw [hr]
  simp only [hpreview, Option.filter_some, decide_true, if_true]
  rw [if_neg hinside, hstop, hsize, String.utf8Len_append]
  have hslice := Utf8.slice_append pre suf hipPreviewChunkBytes
  rw [Utf8.floorBoundary_eq, Utf8.take_append, String.utf8Len_append, ← hxml] at hslice
  rw [hslice]
  congr 2
  rw [decide_eq_decide, Utf8.take_eq_self_iff]
  omega

theorem readHipPreviewChunk_stored {parseId : String → Option Uuid} {text : String}
    (hid : parseId text = some previewId) (h : s.HasPreview sid previewId xml)
    {pre suf : List Char} (hxml : xml.toList = pre ++ suf) :
    readHipPreviewChunk parseId s sid ⟨text, utf8Len pre⟩ =
      .hipPreviewChunk previewId (utf8Len pre) (String.ofList (Utf8.take hipPreviewChunkBytes suf))
        (Utf8.take hipPreviewChunkBytes suf = suf) := by
  unfold readHipPreviewChunk
  simp [hid, hipPreviewChunk_stored h hxml, Except.toOption]

/-! ### Every chunk -/

/-- The chunks are the text, cut as the registry cuts it. -/
structure Pieces (text : List Char) (chunks : List (String × Bool)) : Prop where
  whole : chunks.flatMap (·.1.toList) = text
  small : ∀ c ∈ chunks, c.1.utf8ByteSize ≤ hipPreviewChunkBytes
  nonempty : text ≠ [] → ∀ c ∈ chunks, c.1 ≠ ""
  complete : ∃ init xml, chunks = init ++ [(xml, true)] ∧ ∀ c ∈ init, c.2 = false

variable {text : List Char} {chunks : List (String × Bool)}

theorem ofList_take_ne_empty (h : text ≠ []) :
    String.ofList (Utf8.take hipPreviewChunkBytes text) ≠ "" := by
  intro hempty
  have hnil := congrArg String.toList hempty
  rw [String.toList_ofList] at hnil
  exact Utf8.take_ne_nil h (by decide) hnil

theorem Pieces.join (h : Pieces text chunks) :
    String.join (chunks.map (·.1)) = String.ofList text := by
  refine String.toList_injective ?_
  rw [String.toList_join, List.flatMap_map, String.toList_ofList]
  exact h.whole

theorem Pieces.last (h : Utf8.take hipPreviewChunkBytes text = text) :
    Pieces text [(String.ofList (Utf8.take hipPreviewChunkBytes text), true)] where
  whole := by simp [h]
  small := by simpa using Utf8.size_ofList_take_le hipPreviewChunkBytes text
  nonempty hne := by simpa using ofList_take_ne_empty hne
  complete := ⟨[], _, rfl, by simp⟩

theorem Pieces.cons (h : Utf8.take hipPreviewChunkBytes text ≠ text)
    (hrest : Pieces (Utf8.drop hipPreviewChunkBytes text) chunks) :
    Pieces text ((String.ofList (Utf8.take hipPreviewChunkBytes text), false) :: chunks) := by
  have hwhole := Utf8.take_append_drop hipPreviewChunkBytes text
  have hdrop : Utf8.drop hipPreviewChunkBytes text ≠ [] := by
    intro hnil
    rw [hnil, List.append_nil] at hwhole
    exact h hwhole
  obtain ⟨init, last, rfl, hinit⟩ := hrest.complete
  constructor
  · rw [List.flatMap_cons, hrest.whole]
    simpa using hwhole
  · intro c hc
    rcases List.mem_cons.mp hc with rfl | hc
    · exact Utf8.size_ofList_take_le hipPreviewChunkBytes text
    · exact hrest.small c hc
  · intro hne c hc
    rcases List.mem_cons.mp hc with rfl | hc
    · exact ofList_take_ne_empty hne
    · exact hrest.nonempty hdrop c hc
  · refine ⟨_ :: init, last, rfl, fun c hc => ?_⟩
    rcases List.mem_cons.mp hc with rfl | hc
    · rfl
    · exact hinit c hc

section Client

variable {parseId : String → Option Uuid} {id : String} {registries : ℕ → Sessions}

/-- From a boundary on, the client reads the rest: by induction on its length, as a chunk that is
not the last one leaves less of it. -/
theorem readPreview_rest (hid : parseId id = some previewId)
    (h : ∀ i, (registries i).HasPreview sid previewId xml) (suf : List Char) :
    ∀ (pre : List Char) (requests : ℕ), xml.toList = pre ++ suf →
      ∃ chunks, Pieces suf chunks ∧ ∀ fuel, chunks.length ≤ fuel →
        readPreview (fun i offset => readHipPreviewChunk parseId (registries i) sid ⟨id, offset⟩)
          fuel requests (utf8Len pre) = some chunks := by
  induction hn : suf.length using Nat.strong_induction_on generalizing suf with
  | _ n ih =>
    intro pre requests hxml
    have hreply := fun i => readHipPreviewChunk_stored hid (h i) hxml
    by_cases hlast : Utf8.take hipPreviewChunkBytes suf = suf
    · refine ⟨_, Pieces.last hlast, fun fuel hfuel => ?_⟩
      cases fuel with
      | zero => cases hfuel
      | succ fuel =>
        rw [readPreview, hreply]
        simp [hlast]
    · have hsplit := Utf8.take_append_drop hipPreviewChunkBytes suf
      have hshorter : (Utf8.drop hipPreviewChunkBytes suf).length < n := by
        have hne : suf ≠ [] := by
          rintro rfl
          exact hlast rfl
        have htaken : 0 < (Utf8.take hipPreviewChunkBytes suf).length :=
          List.length_pos_iff.mpr (Utf8.take_ne_nil hne (by decide))
        have hlengths := congrArg List.length hsplit
        rw [List.length_append] at hlengths
        omega
      obtain ⟨chunks, hpieces, hread⟩ := ih _ hshorter _ rfl
        (pre ++ Utf8.take hipPreviewChunkBytes suf) (requests + 1)
        (by rw [List.append_assoc, hsplit, hxml])
      refine ⟨_, Pieces.cons hlast hpieces, fun fuel hfuel => ?_⟩
      cases fuel with
      | zero => cases hfuel
      | succ fuel =>
        have hrest := hread fuel (Nat.le_of_succ_le_succ hfuel)
        rw [String.utf8Len_append] at hrest
        rw [readPreview, hreply]
        simp only [hlast, decide_false, Bool.false_eq_true, if_false, String.utf8ByteSize_ofList]
        rw [hrest, Option.map_some]

/-- **Reading a preview**: a client that starts at offset 0 and goes on where the last chunk ended
reads the preview, as long as its session has it. No request is rejected, only the last chunk is
reported to complete the preview, and the chunks are bounded and, unless the preview is empty, not
empty. -/
theorem preview_reconstructed (parseId : String → Option Uuid) (id : String)
    (registries : ℕ → Sessions) (sid previewId : Uuid) (xml : String)
    (hid : parseId id = some previewId)
    (h : ∀ i, (registries i).HasPreview sid previewId xml) :
    ∃ chunks : List (String × Bool),
      (∀ fuel, chunks.length ≤ fuel →
        readPreview (fun i offset => readHipPreviewChunk parseId (registries i) sid ⟨id, offset⟩)
          fuel 0 0 = some chunks) ∧
      (∀ c ∈ chunks, c.1.utf8ByteSize ≤ hipPreviewChunkBytes ∧ (xml ≠ "" → c.1 ≠ "")) ∧
      (∃ init last, chunks = init ++ [(last, true)] ∧ ∀ c ∈ init, c.2 = false) ∧
      String.join (chunks.map (·.1)) = xml := by
  obtain ⟨chunks, hpieces, hread⟩ :=
    readPreview_rest hid h xml.toList [] 0 rfl
  refine ⟨chunks, hread, fun c hc => ⟨hpieces.small c hc, fun hne => ?_⟩, hpieces.complete, ?_⟩
  · refine hpieces.nonempty (fun hnil => hne ?_) c hc
    exact String.toList_injective hnil
  · rw [hpieces.join, String.ofList_toList]

/-- The letter at the end begins before the end of the first chunk, and ends after it. -/
def longReport : String :=
  String.ofList (List.replicate (hipPreviewChunkBytes - 1) 'a' ++ ['é'])

theorem longReport_size : longReport.utf8ByteSize = hipPreviewChunkBytes + 1 := by
  have hsame : ∀ n, utf8Len (List.replicate n 'a') = n := by
    intro n
    induction n with
    | zero => rfl
    | succ n ih =>
      rw [List.replicate_succ, String.utf8Len_cons, ih]
      rfl
  rw [longReport, String.utf8ByteSize_ofList, String.utf8Len_append, hsame]
  rfl

theorem one_lt_length_of_long (hsmall : ∀ c ∈ chunks, c.1.utf8ByteSize ≤ hipPreviewChunkBytes)
    (hjoin : String.join (chunks.map (·.1)) = longReport) : 1 < chunks.length := by
  have hsize := longReport_size
  rw [← hjoin] at hsize
  match chunks with
  | [] => cases hsize
  | [c] =>
    have hc := hsmall c (List.mem_singleton_self c)
    rw [show String.join ([c].map (·.1)) = c.1 by simp [String.join]] at hsize
    omega
  | c :: d :: rest => simp

/-- The preview of session 1 is stored, and read in more than one chunk. -/
theorem preview_reconstructed_stored :
    ∃ s : Sessions, s.HasPreview 1 40 longReport ∧ ∃ chunks : List (String × Bool),
      readPreview (fun _ offset => readHipPreviewChunk (fun _ => some 40) s 1 ⟨"40", offset⟩)
        chunks.length 0 0 = some chunks ∧ 1 < chunks.length ∧
      String.join (chunks.map (·.1)) = longReport := by
  have hstore : uploadingSessions.storeHipPreview 1 longReport 40 =
      ((uploadingSessions.storeHipPreview 1 longReport 40).1, .ok 40) := rfl
  have hpreview := (storeHipPreview_hasPreview hstore).2
  obtain ⟨chunks, hread, hsmall, -, hjoin⟩ := preview_reconstructed (fun _ => some 40) "40"
    (fun _ => (uploadingSessions.storeHipPreview 1 longReport 40).1) 1 40 longReport rfl
    (fun _ => hpreview)
  exact ⟨_, hpreview, chunks, hread chunks.length (Nat.le_refl _),
    one_lt_length_of_long (fun c hc => (hsmall c hc).1) hjoin, hjoin⟩

/-- The last submitted report is stored as the preview: the reply is what a client gets that asks for
the preview from the start, and one that reads on gets the report. -/
theorem last_submitted_read (parseId : String → Option Uuid) (id : String) {record : SessionRecord}
    (hr : s.lookup sid = some record) (hactive : record.isPending = false)
    (hreport : record.lastSuccessfulHipReport = some xml) (hid : parseId id = some previewId) :
    let s' := (getLastSubmittedHipReport s sid previewId).1
    let ask := fun offset => readHipPreviewChunk parseId s' sid ⟨id, offset⟩
    (getLastSubmittedHipReport s sid previewId).2 = ask 0 ∧
      ∃ chunks, Pieces xml.toList chunks ∧ ∀ fuel, chunks.length ≤ fuel →
        readPreview (fun _ => ask) fuel 0 0 = some chunks := by
  have hlast : s.lastSuccessfulHipReport sid = .ok (some xml) := by
    unfold Sessions.lastSuccessfulHipReport
    rw [hr, ← hreport]
  have hstore : s.storeHipPreview sid xml previewId =
      (s.insert sid { record with hipPreview := some (previewId, xml) }, .ok previewId) := by
    unfold Sessions.storeHipPreview
    rw [hr]
    simp [hactive]
  have hpreview := (storeHipPreview_hasPreview hstore).2
  have hxml : xml.toList = [] ++ xml.toList := rfl
  have hchunk := hipPreviewChunk_stored hpreview hxml
  have hread := readHipPreviewChunk_stored hid hpreview hxml
  rw [String.utf8Len_nil] at hchunk hread
  unfold getLastSubmittedHipReport
  simp only [hlast, hstore, hchunk]
  exact ⟨hread.symm, readPreview_rest hid (fun _ => hpreview) xml.toList [] 0 rfl⟩

theorem last_submitted_read_one :
    ∃ (s : Sessions) (chunks : List (String × Bool)), Pieces longReport.toList chunks ∧
      1 < chunks.length ∧
      readPreview (fun _ offset => readHipPreviewChunk (fun _ => some 40) s 1 ⟨"40", offset⟩)
        chunks.length 0 0 = some chunks := by
  obtain ⟨-, chunks, hpieces, hread⟩ := last_submitted_read (fun _ => some 40) "40"
    (s := (∅ : Sessions).insert 1
      { uploadingRecord with lastSuccessfulHipReport := some longReport })
    (AList.lookup_insert _) rfl rfl rfl
  refine ⟨_, chunks, hpieces, one_lt_length_of_long hpieces.small ?_, hread _ (Nat.le_refl _)⟩
  rw [hpieces.join, String.ofList_toList]

end Client

end GlobalProtect.Service.Registry
