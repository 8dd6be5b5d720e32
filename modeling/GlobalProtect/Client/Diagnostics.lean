import GlobalProtect.Lib.Checks
import GlobalProtect.Lib.Substring
import GlobalProtect.Lib.Text
import GlobalProtect.Lib.Utf8
import GlobalProtect.Lib.Utf8Decode
import Mathlib.Algebra.Ring.Nat
import Mathlib.Data.Finmap

/-! # Diagnostics reports

The model of `DiagnosticsReport` in `gpclient/src/diagnostics.rs`: `parse` reads the output of the
collector, `text` prints a report.

`Canonical` says what a report is: version 1, the fields of `fieldNames`, and values that are clean
(`DiagnosticField.Clean`). What is accepted is canonical (`parse_canonical`: every record keeps
`Partial.Clean`), and the text of a canonical report is accepted and gives the report
(`parse_text`). -/

namespace GlobalProtect.Client.Diagnostics

open Lib
open Lib.Substring (FirstAt firstAt_append firstAt_nil dropInfix?_iff)
open Lib.Text (isControl)
open Lib.Utf8 (Bytes encode decodeLossy)
open String (utf8Len)

def maxReportBytes : ℕ := 64 * 1024

/-- The constant `FIELDS`. -/
def fieldNames : List String := [
  "os",
  "os_version",
  "kernel",
  "architecture",
  "execution_user",
  "ssh_session",
  "virtualization",
  "gpclient_path",
  "gpclient_version",
  "gpauth_path",
  "gpauth_version",
  "gpgui_path",
  "gpgui_version",
  "display_protocol",
  "graphics",
  "graphics_packages",
  "desktop_version",
  "env.XDG_CURRENT_DESKTOP",
  "env.XDG_SESSION_DESKTOP",
  "env.XDG_SESSION_TYPE",
  "env.DESKTOP_SESSION",
  "env.WEBKIT_DISABLE_DMABUF_RENDERER",
  "env.WEBKIT_DISABLE_COMPOSITING_MODE",
  "env.LIBGL_ALWAYS_SOFTWARE",
  "env.__NV_DISABLE_EXPLICIT_SYNC",
  "env.GDK_BACKEND",
  "env.GDK_GL"]

inductive ProbeStatus where
  | ok
  | unset
  | unavailable
  | failed
  | timedOut
  | notApplicable
  deriving DecidableEq, Repr

structure DiagnosticField where
  status : ProbeStatus
  value : Option String
  deriving DecidableEq, Repr

abbrev Fields := Finmap fun _ : String => DiagnosticField

structure DiagnosticsReport where
  schemaVersion : ℕ
  fields : Fields

/-! ### Reading -/

def ProbeStatus.parse (status : List Char) : Option ProbeStatus :=
  match String.ofList status with
  | "ok" => some .ok
  | "unset" => some .unset
  | "unavailable" => some .unavailable
  | "failed" => some .failed
  | "timed_out" => some .timedOut
  | "not_applicable" => some .notApplicable
  | _ => none

/-- A record before its field is known. -/
structure Framed where
  name : List Char
  status : ProbeStatus
  value : List Char

def separator : List Char := [':', ' ']

def isAsciiControl (c : Char) : Bool := c.toNat ≤ 0x1F || c.toNat = 0x7F

/-- The parts of a record. The length of the value is computed from the raw bytes. -/
def frame (rawLine : Bytes) : Except String Framed := do
  let line := decodeLossy rawLine
  let (name, rest) ← context (line.dropInfix? separator) "Invalid diagnostics record"
  let (status, value) ← context (rest.dropInfix? separator) "Invalid diagnostics status"
  ensure (utf8Len name + utf8Len status + 4 ≤ rawLine.length) "Invalid diagnostics framing"
  ensure (rawLine.length - (utf8Len name + utf8Len status + 4) ≤ 512)
    "Diagnostics field exceeds its size limit"
  ensure (!value.any isAsciiControl) "Invalid diagnostics value"
  let status ← context (ProbeStatus.parse status) "Unknown diagnostics status"
  pure { name, status, value }

/-- The loop that writes a value, with so many bytes written. -/
def normalizeFrom (written : ℕ) : List Char → List Char
  | [] => []
  | c :: value =>
    let c := if isControl c then ' ' else c
    if written + c.utf8Size > 512 then []
    else c :: normalizeFrom (written + c.utf8Size) value

def fieldValue (status : ProbeStatus) (value : List Char) : Except String (Option String) :=
  if status = .ok then pure (some (String.ofList (normalizeFrom 0 value)))
  else do
    ensure (value = []) "Unexpected value for unavailable diagnostics field"
    pure none

/-- What the records so far have given. -/
structure Partial where
  fields : Fields := ∅
  schemaVersion : Option ℕ := none

def Partial.version (s : Partial) (status : ProbeStatus) (value : List Char) :
    Except String Partial := do
  ensure s.schemaVersion.isNone "Duplicate diagnostics schema version"
  ensure (status = .ok && value = ['1']) "Unsupported diagnostics schema"
  pure { s with schemaVersion := some 1 }

def Partial.field (s : Partial) (name : String) (status : ProbeStatus) (value : List Char) :
    Except String Partial := do
  ensure (name ∈ fieldNames) "Unknown diagnostics field"
  let value ← fieldValue status value
  ensure (name ∉ s.fields) "Duplicate diagnostics field"
  pure { s with fields := s.fields.insert name { status, value } }

def Partial.record (s : Partial) (rawLine : Bytes) : Except String Partial := do
  let framed ← frame rawLine
  if String.ofList framed.name = "schema_version" then s.version framed.status framed.value
  else s.field (String.ofList framed.name) framed.status framed.value

def newline : UInt8 := 10

def parse (bytes : Bytes) : Except String DiagnosticsReport := do
  ensure (bytes.length ≤ maxReportBytes) "Diagnostics report exceeds its size limit"
  let s ← ((bytes.splitOn newline).filter (· ≠ [])).foldlM Partial.record {}
  ensure (s.fields.keys.card = fieldNames.length) "Incomplete diagnostics report"
  let schemaVersion ← context s.schemaVersion "Missing diagnostics schema version"
  pure { schemaVersion, fields := s.fields }

/-! ### Printing -/

def ProbeStatus.text : ProbeStatus → String
  | .ok => "ok"
  | .unset => "unset"
  | .unavailable => "unavailable"
  | .failed => "failed"
  | .timedOut => "timed_out"
  | .notApplicable => "not_applicable"

/-- A record without its newline. -/
def line (name status value : List Char) : List Char :=
  name ++ separator ++ (status ++ separator ++ value)

def DiagnosticField.line (name : String) (field : DiagnosticField) : List Char :=
  Diagnostics.line name.toList field.status.text.toList (field.value.getD "").toList

/-- The records of a report; a field that is missing is a panic. -/
def DiagnosticsReport.lines? (r : DiagnosticsReport) : Option (List (List Char)) := do
  let lines ← fieldNames.mapM fun name => (r.fields.lookup name).map (DiagnosticField.line name)
  pure (line "schema_version".toList "ok".toList (toString r.schemaVersion).toList :: lines)

def DiagnosticsReport.text? (r : DiagnosticsReport) : Option (List Char) :=
  r.lines?.map (·.flatMap (· ++ ['\n']))

/-! ### What is accepted -/

/-- A value stands for the status `ok`, is short and has no control character. -/
structure DiagnosticField.Clean (field : DiagnosticField) : Prop where
  present : field.value.isSome = true ↔ field.status = .ok
  short : ∀ value ∈ field.value, value.utf8ByteSize ≤ 512
  plain : ∀ value ∈ field.value, ∀ c ∈ value.toList, isControl c = false

structure DiagnosticsReport.Canonical (r : DiagnosticsReport) : Prop where
  version : r.schemaVersion = 1
  keys : r.fields.keys = fieldNames.toFinset
  clean : ∀ name field, r.fields.lookup name = some field → field.Clean

structure Partial.Clean (s : Partial) : Prop where
  version : ∀ version ∈ s.schemaVersion, version = 1
  known : ∀ name, name ∈ s.fields → name ∈ fieldNames
  clean : ∀ name field, s.fields.lookup name = some field → field.Clean

theorem normalizeFrom_eq {written : ℕ} (h : written ≤ 512) (value : List Char) :
    normalizeFrom written value =
      Utf8.take (512 - written) (value.map fun c => if isControl c then ' ' else c) := by
  induction value generalizing written with
  | nil => rfl
  | cons c value ih =>
    rw [normalizeFrom, List.map_cons, Utf8.take]
    generalize (if isControl c then ' ' else c) = d
    by_cases hfits : written + d.utf8Size ≤ 512
    · rw [if_neg (by omega), if_pos (by omega), ih hfits, Nat.sub_sub]
    · rw [if_pos (by omega), if_neg (by omega)]

theorem isControl_normalized {value : List Char} {c : Char} (h : c ∈ normalizeFrom 0 value) :
    isControl c = false := by
  rw [normalizeFrom_eq (Nat.zero_le _)] at h
  obtain ⟨d, -, rfl⟩ := List.mem_map.mp ((Utf8.take_prefix_self _ _).subset h)
  split_ifs with hcontrol
  · rfl
  · exact Bool.eq_false_iff.mpr hcontrol

theorem fieldValue_clean {status : ProbeStatus} {value : List Char} {stored : Option String}
    (h : fieldValue status value = .ok stored) :
    DiagnosticField.Clean { status, value := stored } := by
  unfold fieldValue at h
  split_ifs at h with hstatus
  · obtain rfl := pure_eq_ok.mp h
    refine ⟨by simp [hstatus], ?_, ?_⟩
    · rintro v ⟨⟩
      rw [normalizeFrom_eq (Nat.zero_le _)]
      exact Utf8.size_ofList_take_le _ _
    · rintro v ⟨⟩ c hc
      rw [String.toList_ofList] at hc
      exact isControl_normalized hc
  · obtain ⟨-, h⟩ := ensure_bind_eq_ok.mp h
    obtain rfl := pure_eq_ok.mp h
    exact ⟨by simp [hstatus], (fun _ hv => nomatch hv), (fun _ hv => nomatch hv)⟩

variable {s s' : Partial}

theorem version_clean {status : ProbeStatus} {value : List Char} (hs : s.Clean)
    (h : s.version status value = .ok s') : s'.Clean := by
  unfold Partial.version at h
  obtain ⟨-, h⟩ := ensure_bind_eq_ok.mp h
  obtain ⟨-, h⟩ := ensure_bind_eq_ok.mp h
  obtain rfl := pure_eq_ok.mp h
  refine ⟨?_, hs.known, hs.clean⟩
  rintro version ⟨⟩
  rfl

theorem field_clean {name : String} {status : ProbeStatus} {value : List Char} (hs : s.Clean)
    (h : s.field name status value = .ok s') : s'.Clean := by
  unfold Partial.field at h
  obtain ⟨hname, h⟩ := ensure_bind_eq_ok.mp h
  obtain ⟨stored, hstored, h⟩ := bind_eq_ok.mp h
  obtain ⟨-, h⟩ := ensure_bind_eq_ok.mp h
  obtain rfl := pure_eq_ok.mp h
  refine ⟨hs.version, fun other hother => ?_, fun other field hfield => ?_⟩
  · rcases Finmap.mem_insert.mp hother with rfl | hother
    · exact of_decide_eq_true hname
    · exact hs.known other hother
  · by_cases hother : other = name
    · subst hother
      rw [Finmap.lookup_insert] at hfield
      cases hfield
      exact fieldValue_clean hstored
    · rw [Finmap.lookup_insert_of_ne _ hother] at hfield
      exact hs.clean other field hfield

theorem record_clean {rawLine : Bytes} (hs : s.Clean) (h : s.record rawLine = .ok s') :
    s'.Clean := by
  unfold Partial.record at h
  obtain ⟨framed, -, h⟩ := bind_eq_ok.mp h
  split_ifs at h
  · exact version_clean hs h
  · exact field_clean hs h

theorem nodup_fieldNames : fieldNames.Nodup := by decide +kernel

theorem clean_empty : Partial.Clean {} where
  version _ hv := nomatch hv
  known name hname := absurd hname Finmap.notMem_empty
  clean name field hfield := by
    rw [Finmap.lookup_empty] at hfield
    cases hfield

theorem parse_eq_ok {bytes : Bytes} {r : DiagnosticsReport} : parse bytes = .ok r ↔
    bytes.length ≤ maxReportBytes ∧ ∃ s : Partial,
      ((bytes.splitOn newline).filter (· ≠ [])).foldlM Partial.record {} = .ok s ∧
      s.fields.keys.card = fieldNames.length ∧ s.schemaVersion = some r.schemaVersion ∧
      s.fields = r.fields := by
  unfold parse
  rw [ensure_bind_eq_ok, decide_eq_true_iff, bind_eq_ok]
  refine and_congr_right fun _ => exists_congr fun s => and_congr_right fun _ => ?_
  rw [ensure_bind_eq_ok, decide_eq_true_iff, context_bind_eq_ok]
  refine and_congr_right fun _ => ?_
  constructor
  · rintro ⟨version, hversion, h⟩
    obtain rfl := pure_eq_ok.mp h
    exact ⟨hversion, rfl⟩
  · rintro ⟨hversion, hfields⟩
    exact ⟨_, hversion, pure_eq_ok.mpr (by rw [hfields])⟩

theorem parse_canonical {bytes : Bytes} {r : DiagnosticsReport} (h : parse bytes = .ok r) :
    r.Canonical := by
  obtain ⟨-, s, hs, hcard, hversion, hfields⟩ := parse_eq_ok.mp h
  have hclean : s.Clean := foldlM_keeps (fun _ _ _ => record_clean) clean_empty hs
  refine ⟨hclean.version _ hversion, ?_, by rw [← hfields]; exact hclean.clean⟩
  rw [← hfields]
  -- as many keys as names, and each key is a name
  refine Finset.eq_of_subset_of_card_le (fun name hname => ?_) ?_
  · exact List.mem_toFinset.mpr (hclean.known name (Finmap.mem_keys.mp hname))
  · rw [hcard]
    exact List.toFinset_card_le _

/-! ### The text of a report -/

theorem dropInfix?_separator {before : List Char} (h : ∀ c ∈ before, c ∉ separator)
    (rest : List Char) :
    (before ++ separator ++ rest).dropInfix? separator = some (before, rest) := by
  refine dropInfix?_iff.mpr ⟨rfl, fun x y hxy => ?_⟩
  have hfirst : FirstAt separator (before ++ []) (separator ++ rest) :=
    (firstAt_append (by decide) h).mpr firstAt_nil
  rw [List.append_nil] at hfirst
  exact hfirst x y (by rw [← hxy, List.append_assoc])

/-- The names and the texts of the states have no character of a separator, and no newline. -/
def IsWord (text : List Char) : Prop := ∀ c ∈ text, c ∉ separator ∧ c ≠ '\n'

theorem isWord_of_all {text : List Char} (h : text.all (fun c => !(c ∈ separator) && c ≠ '\n') = true) :
    IsWord text := by
  intro c hc
  simpa using List.all_eq_true.mp h c hc

theorem isWord_fieldNames {name : String} (h : name ∈ fieldNames) : IsWord name.toList := by
  have hall : fieldNames.all (fun name =>
      name.toList.all fun c => !(c ∈ separator) && c ≠ '\n') = true := by decide +kernel
  exact isWord_of_all (List.all_eq_true.mp hall name h)

theorem isWord_status (status : ProbeStatus) : IsWord status.text.toList := by
  cases status <;> exact isWord_of_all (by decide)

theorem parse_status (status : ProbeStatus) :
    ProbeStatus.parse status.text.toList = some status := by
  cases status <;> decide

theorem utf8Len_line (name status value : List Char) :
    utf8Len (line name status value) = utf8Len name + utf8Len status + 4 + utf8Len value := by
  have hseparator : utf8Len separator = 2 := by decide
  simp only [line, String.utf8Len_append, hseparator]
  omega

theorem frame_line {name value : List Char} (hname : IsWord name) (status : ProbeStatus)
    (hshort : utf8Len value ≤ 512) (hplain : ∀ c ∈ value, isAsciiControl c = false) :
    frame (encode (line name status.text.toList value)) = .ok { name, status, value } := by
  have hlength : (encode (line name status.text.toList value)).length =
      utf8Len name + utf8Len status.text.toList + 4 + utf8Len value := by
    rw [Utf8.length_encode, utf8Len_line]
  have hvalue : value.any isAsciiControl = false := by
    simpa using hplain
  unfold frame
  rw [Utf8.decodeLossy_encode, hlength, context_bind_eq_ok]
  refine ⟨_, dropInfix?_separator (fun c hc => (hname c hc).1) _, ?_⟩
  rw [context_bind_eq_ok]
  refine ⟨_, dropInfix?_separator (fun c hc => (isWord_status status c hc).1) _, ?_⟩
  rw [ensure_bind_eq_ok, ensure_bind_eq_ok, ensure_bind_eq_ok, context_bind_eq_ok]
  refine ⟨by simp, by simpa using hshort, by simp [hvalue], status, parse_status status, rfl⟩

theorem isAsciiControl_of_isControl {c : Char} (h : isControl c = false) :
    isAsciiControl c = false := by
  unfold isControl at h
  unfold isAsciiControl
  simp only [Bool.or_eq_false_iff, Bool.and_eq_false_iff, decide_eq_false_iff_not] at h ⊢
  omega

theorem newline_ne_of_isControl {c : Char} (h : isControl c = false) : c ≠ '\n' := by
  rintro rfl
  exact absurd h (by decide)

section Clean

variable {field : DiagnosticField} (hfield : field.Clean)

include hfield

theorem DiagnosticField.Clean.printed :
    utf8Len (field.value.getD "").toList ≤ 512 ∧
      ∀ c ∈ (field.value.getD "").toList, isControl c = false := by
  cases hvalue : field.value with
  | none => exact ⟨Nat.zero_le _, fun c hc => nomatch hc⟩
  | some value =>
    have hshort := hfield.short value hvalue
    rw [← String.ofList_toList (s := value), String.utf8ByteSize_ofList] at hshort
    exact ⟨hshort, hfield.plain value hvalue⟩

theorem fieldValue_printed :
    fieldValue field.status (field.value.getD "").toList = .ok field.value := by
  obtain ⟨hshort, hplain⟩ := hfield.printed
  unfold fieldValue
  split_ifs with hstatus
  · obtain ⟨value, hvalue⟩ := Option.isSome_iff_exists.mp (hfield.present.mpr hstatus)
    rw [hvalue, Option.getD_some] at hshort hplain ⊢
    have hmap : value.toList.map (fun c => if isControl c then ' ' else c) = value.toList := by
      refine (List.map_congr_left fun c hc => ?_).trans (List.map_id _)
      rw [hplain c hc]
      rfl
    rw [normalizeFrom_eq (Nat.zero_le _), hmap, Utf8.take_of_utf8Len_le hshort, String.ofList_toList]
    rfl
  · have hvalue : field.value = none := by
      rw [← Option.not_isSome_iff_eq_none, hfield.present]
      exact hstatus
    rw [hvalue]
    rfl

theorem record_field {name : String} (hname : name ∈ fieldNames) (hnew : name ∉ s.fields) :
    s.record (encode (field.line name)) =
      .ok { s with fields := s.fields.insert name field } := by
  obtain ⟨hshort, hplain⟩ := hfield.printed
  have hversion : name ≠ "schema_version" := by
    rintro rfl
    exact absurd hname (by decide)
  have hframe := frame_line (isWord_fieldNames hname) field.status hshort
    fun c hc => isAsciiControl_of_isControl (hplain c hc)
  unfold Partial.record DiagnosticField.line
  rw [hframe]
  show (if String.ofList name.toList = "schema_version" then _ else _) = _
  rw [String.ofList_toList, if_neg hversion]
  unfold Partial.field
  rw [ensure_bind_eq_ok]
  refine ⟨decide_eq_true hname, bind_eq_ok.mpr ⟨_, fieldValue_printed hfield, ?_⟩⟩
  rw [ensure_bind_eq_ok]
  exact ⟨decide_eq_true hnew, rfl⟩

theorem newline_notMem_line {name : String} (hname : name ∈ fieldNames) :
    '\n' ∉ field.line name := by
  obtain ⟨-, hplain⟩ := hfield.printed
  have hseparator : '\n' ∉ separator := by decide
  simp only [DiagnosticField.line, line, List.mem_append, not_or]
  refine ⟨⟨?_, hseparator⟩, ⟨?_, hseparator⟩, ?_⟩
  · exact fun hmem => (isWord_fieldNames hname _ hmem).2 rfl
  · exact fun hmem => (isWord_status _ _ hmem).2 rfl
  · exact fun hmem => newline_ne_of_isControl (hplain _ hmem) rfl

theorem utf8Len_fieldLine_le (name : String) : utf8Len (field.line name) ≤ utf8Len name.toList + 530 := by
  have hstatus : ∀ status : ProbeStatus, utf8Len status.text.toList ≤ 14 := by
    intro status
    cases status <;> decide
  have := hstatus field.status
  have := hfield.printed.1
  rw [DiagnosticField.line, utf8Len_line]
  omega

end Clean

theorem record_version : Partial.record {} (encode (line "schema_version".toList "ok".toList ['1'])) =
    .ok { schemaVersion := some 1 } := by
  have hframe := @frame_line "schema_version".toList ['1'] (isWord_of_all (by decide)) .ok
    (by decide) (List.forall_mem_singleton.mpr rfl)
  unfold Partial.record
  rw [show "ok" = ProbeStatus.ok.text from rfl, hframe]
  rfl

/-- The fields with the names of a list. -/
def tabulate (f : String → DiagnosticField) (names : List String) (fields : Fields) : Fields :=
  names.foldl (fun fields name => fields.insert name (f name)) fields

theorem lookup_tabulate (f : String → DiagnosticField) (names : List String) (fields : Fields)
    (name : String) : (tabulate f names fields).lookup name =
      if name ∈ names then some (f name) else fields.lookup name := by
  induction names generalizing fields with
  | nil => simp [tabulate]
  | cons first names ih =>
    rw [tabulate, List.foldl_cons, ← tabulate, ih]
    by_cases hmem : name ∈ names
    · rw [if_pos hmem, if_pos (List.mem_cons_of_mem _ hmem)]
    rw [if_neg hmem]
    by_cases hfirst : name = first
    · subst hfirst
      rw [Finmap.lookup_insert, if_pos List.mem_cons_self]
    · rw [Finmap.lookup_insert_of_ne _ hfirst,
        if_neg (List.not_mem_cons_of_ne_of_not_mem hfirst hmem)]

theorem records_tabulate {f : String → DiagnosticField} {names : List String}
    (hnames : ∀ name ∈ names, name ∈ fieldNames) (hnodup : names.Nodup)
    (hf : ∀ name ∈ names, (f name).Clean) (hnew : ∀ name ∈ names, name ∉ s.fields) :
    (names.map fun name => encode ((f name).line name)).foldlM Partial.record s =
      .ok { s with fields := tabulate f names s.fields } := by
  induction names generalizing s with
  | nil => rfl
  | cons name names ih =>
    obtain ⟨hname, hnodup⟩ := List.nodup_cons.mp hnodup
    rw [List.map_cons, List.foldlM_cons, record_field (hf name List.mem_cons_self)
      (hnames name List.mem_cons_self) (hnew name List.mem_cons_self)]
    refine ih (fun n hn => hnames n (List.mem_cons_of_mem _ hn)) hnodup
      (fun n hn => hf n (List.mem_cons_of_mem _ hn)) fun n hn hmem => ?_
    rcases Finmap.mem_insert.mp hmem with rfl | hmem
    · exact hname hn
    · exact hnew n (List.mem_cons_of_mem _ hn) hmem

theorem lines_of_text {lines : List (List Char)} (hlines : ∀ l ∈ lines, '\n' ∉ l ∧ l ≠ []) :
    ((encode (lines.flatMap (· ++ ['\n']))).splitOn newline).filter (· ≠ []) =
      lines.map encode := by
  induction lines with
  | nil => rfl
  | cons l lines ih =>
    obtain ⟨hl, hne⟩ := hlines l List.mem_cons_self
    have hencode : encode ((l :: lines).flatMap (· ++ ['\n'])) =
        encode l ++ newline :: encode (lines.flatMap (· ++ ['\n'])) := by
      rw [List.flatMap_cons, Utf8.encode_append, Utf8.encode_append, List.append_assoc]
      rfl
    have hnewline : newline ∉ encode l := by
      rw [show newline = UInt8.ofNat '\n'.toNat from rfl, Utf8.ofNat_mem_encode (by decide)]
      exact hl
    have hl' : encode l ≠ [] := by
      intro h
      have hlength := congrArg List.length h
      obtain ⟨c, rest, rfl⟩ := List.exists_cons_of_ne_nil hne
      rw [Utf8.length_encode, String.utf8Len_cons] at hlength
      have := c.utf8Size_pos
      simp at hlength
      omega
    rw [hencode, List.splitOn_append_cons_self, List.splitOn_eq_singleton hnewline,
      List.filter_append, ih fun m hm => hlines m (List.mem_cons_of_mem _ hm)]
    simp [hl']

theorem mapM_eq_map {α β : Type} {f : α → Option β} {g : α → β} {l : List α}
    (h : ∀ a ∈ l, f a = some (g a)) : l.mapM f = some (l.map g) := by
  induction l with
  | nil => rfl
  | cons a l ih =>
    rw [List.mapM_cons, h a List.mem_cons_self, ih fun b hb => h b (List.mem_cons_of_mem _ hb)]
    rfl

theorem utf8Len_lines_le {f : String → DiagnosticField} {names : List String}
    (hf : ∀ name ∈ names, (f name).Clean) :
    utf8Len ((names.map fun name => (f name).line name).flatMap (· ++ ['\n'])) ≤
      (names.map fun name => utf8Len name.toList + 531).sum := by
  induction names with
  | nil => exact Nat.zero_le _
  | cons name names ih =>
    have hline := utf8Len_fieldLine_le (hf name List.mem_cons_self) name
    have hrest := ih fun n hn => hf n (List.mem_cons_of_mem _ hn)
    have hnewline : utf8Len ['\n'] = 1 := by decide
    rw [List.map_cons, List.flatMap_cons, String.utf8Len_append, String.utf8Len_append, hnewline,
      List.map_cons, List.sum_cons]
    omega

section Canonical

variable {r : DiagnosticsReport} (h : r.Canonical)

include h

theorem lookup_of_canonical {name : String} (hname : name ∈ fieldNames) :
    ∃ field, r.fields.lookup name = some field ∧ field.Clean := by
  have hmem : name ∈ r.fields.keys := by
    rw [h.keys]
    exact List.mem_toFinset.mpr hname
  obtain ⟨field, hfield⟩ := Finmap.mem_iff.mp (Finmap.mem_keys.mp hmem)
  exact ⟨field, hfield, h.clean name field hfield⟩

/-- **The text of a report gives the report.** -/
theorem parse_text : ∃ text, r.text? = some text ∧ parse (encode text) = .ok r := by
  classical
  have hlookup : ∀ name, ∃ field, name ∈ fieldNames →
      r.fields.lookup name = some field ∧ field.Clean := by
    intro name
    by_cases hname : name ∈ fieldNames
    · obtain ⟨field, hfield⟩ := lookup_of_canonical h hname
      exact ⟨field, fun _ => hfield⟩
    · exact ⟨⟨.unavailable, none⟩, fun hmem => absurd hmem hname⟩
  choose f hf using hlookup
  have hclean : ∀ name ∈ fieldNames, (f name).Clean := fun name hname => (hf name hname).2
  let version := line "schema_version".toList "ok".toList ['1']
  let lines := fieldNames.map fun name => (f name).line name
  have hlines : r.lines? = some (version :: lines) := by
    have hmapM := mapM_eq_map (l := fieldNames)
      (f := fun name => (r.fields.lookup name).map (DiagnosticField.line name))
      (g := fun name => (f name).line name) fun name hname => by rw [(hf name hname).1]; rfl
    rw [DiagnosticsReport.lines?, hmapM, h.version]
    rfl
  refine ⟨(version :: lines).flatMap (· ++ ['\n']), by rw [DiagnosticsReport.text?, hlines]; rfl, ?_⟩
  have hsplit := @lines_of_text (version :: lines) (by
    refine List.forall_mem_cons.mpr ⟨⟨by decide, by decide⟩, fun l hl => ?_⟩
    obtain ⟨name, hname, rfl⟩ := List.mem_map.mp hl
    refine ⟨newline_notMem_line (hclean name hname) hname, fun hnil => ?_⟩
    have hlength := congrArg utf8Len hnil
    rw [DiagnosticField.line, utf8Len_line] at hlength
    simp at hlength)
  have hrecords := records_tabulate (s := { schemaVersion := some 1 }) (fun _ hname => hname)
    nodup_fieldNames hclean fun _ _ hmem => absurd hmem Finmap.notMem_empty
  have hfields : tabulate f fieldNames ∅ = r.fields := by
    refine Finmap.ext_lookup fun name => ?_
    rw [lookup_tabulate]
    split_ifs with hname
    · exact (hf name hname).1.symm
    · rw [Finmap.lookup_empty, eq_comm, Finmap.lookup_eq_none]
      intro hmem
      rw [← Finmap.mem_keys, h.keys, List.mem_toFinset] at hmem
      exact hname hmem
  refine parse_eq_ok.mpr ⟨?_, { schemaVersion := some 1, fields := r.fields }, ?_, ?_, ?_, rfl⟩
  · have hsize := utf8Len_lines_le hclean
    have hbound : utf8Len (version ++ ['\n']) +
        (fieldNames.map fun name => utf8Len name.toList + 531).sum ≤ maxReportBytes := by
      decide +kernel
    rw [Utf8.length_encode, List.flatMap_cons, String.utf8Len_append]
    exact (Nat.add_le_add_left hsize _).trans hbound
  · rw [hsplit, List.map_cons, List.foldlM_cons, record_version, List.map_map]
    rw [hfields] at hrecords
    exact bind_eq_ok.mpr ⟨_, rfl, hrecords⟩
  · rw [h.keys, List.toFinset_card_of_nodup nodup_fieldNames]
  · rw [h.version]

end Canonical

/-- **Accepted reports are canonical.** -/
theorem accepted_report_canonical (bytes : Bytes) (r : DiagnosticsReport)
    (h : parse bytes = .ok r) :
    r.fields.keys = fieldNames.toFinset ∧ fieldNames.Nodup ∧
    (∀ name field, r.fields.lookup name = some field →
      (field.value.isSome = true ↔ field.status = .ok) ∧
      ∀ value ∈ field.value, value.utf8ByteSize ≤ 512 ∧ ∀ c ∈ value.toList, isControl c = false) ∧
    (∃ text, r.text? = some text ∧ parse (encode text) = .ok r) ∧
    ∀ bytes' r', parse bytes' = .ok r' → r'.text? = r.text? → r' = r := by
  have hcanonical := parse_canonical h
  obtain ⟨text, htext, hparse⟩ := parse_text hcanonical
  refine ⟨hcanonical.keys, nodup_fieldNames, fun name field hfield => ?_, ⟨text, htext, hparse⟩, ?_⟩
  · have hclean := hcanonical.clean name field hfield
    exact ⟨hclean.present, fun value hvalue => ⟨hclean.short value hvalue, hclean.plain value hvalue⟩⟩
  · intro bytes' r' h' hsame
    obtain ⟨text', htext', hparse'⟩ := parse_text (parse_canonical h')
    rw [hsame, htext] at htext'
    cases htext'
    exact Except.ok.inj (hparse'.symm.trans hparse)

/-- A report whose only value has a separator in it. -/
def sampleReport : DiagnosticsReport where
  schemaVersion := 1
  fields := tabulate (fun name =>
    if name = "os" then ⟨.ok, some "a: b"⟩ else ⟨.unavailable, none⟩) fieldNames ∅

theorem sampleReport_canonical : sampleReport.Canonical := by
  refine ⟨rfl, Finset.ext fun name => ?_, fun name field hfield => ?_⟩
  · rw [Finmap.mem_keys, ← Finmap.lookup_isSome, sampleReport, lookup_tabulate, List.mem_toFinset]
    split_ifs with hname <;> simp [hname]
  · rw [sampleReport, lookup_tabulate] at hfield
    split_ifs at hfield
    · cases hfield
      refine ⟨by decide, ?_, ?_⟩
      · rintro value ⟨⟩
        decide
      · rintro value ⟨⟩ c hc
        have hplain : ("a: b".toList.all fun c => !isControl c) = true := by decide
        simpa using List.all_eq_true.mp hplain c hc
    · cases hfield
      exact ⟨by decide, (fun _ hv => nomatch hv), (fun _ hv => nomatch hv)⟩
    · cases hfield

theorem accepted_report_canonical_sample : ∃ bytes, parse bytes = .ok sampleReport ∧
    ∃ text, sampleReport.text? = some text ∧ parse (encode text) = .ok sampleReport := by
  obtain ⟨text, -, hparse⟩ := parse_text sampleReport_canonical
  exact ⟨_, hparse, (accepted_report_canonical _ _ hparse).2.2.2.1⟩

end GlobalProtect.Client.Diagnostics
