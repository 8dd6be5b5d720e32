import GlobalProtect.Lib.Text

/-! # Edited HIP reports

`validate_edited_report` of `gphip`. Parsing of XML is done by a library and is a parameter here;
what is checked before and after it is as in the source. Lengths are in bytes of UTF-8. -/

namespace GlobalProtect.Hip

open Lib.Text

def maxEditedReportBytes : ℕ := 48 * 1024

mutual
inductive Element where
  | mk (name : String) (attributes : List (String × String)) (children : List Node)

/-- What may stand in an element; `other` is a comment, a CDATA section or an instruction. -/
inductive Node where
  | element (e : Element)
  | text (value : String)
  | other (value : String)
end

def Element.name : Element → String
  | .mk name _ _ => name

def Element.attribute (key : String) : Element → Option String
  | .mk _ attributes _ => attributes.lookup key

def Node.asElement : Node → Option Element
  | .element e => some e
  | _ => none

def Element.elements : Element → List Element
  | .mk _ _ children => children.filterMap Node.asElement

def uniqueChild (parent : Element) (name : String) : Except String Element :=
  match parent.elements.filter (·.name = name) with
  | [] => .error ("HIP report is missing <" ++ name ++ ">")
  | [child] => .ok child
  | _ => .error ("HIP report has duplicate <" ++ name ++ "> elements")

/-- `ensure!`. -/
def ensure (condition : Bool) (message : String) : Except String Unit :=
  if condition then .ok () else .error message

/-- The encoding that the XML declaration names, if there is a declaration, is UTF-8. -/
def declaresUtf8 (lower : List Char) : Bool :=
  if "<?xml".toList <+: lower then
    match beforeFirst "?>".toList (lower.drop 5) with
    | some declaration =>
      !contains declaration "encoding".toList || contains declaration "utf-8".toList ||
        contains declaration "utf8".toList
    | none => true
  else true

def rootFields : List String :=
  ["md5-sum", "user-name", "domain", "host-name", "host-id", "ip-address", "ipv6-address",
    "generate-time", "hip-report-version"]

def hostInfoFields : List String :=
  ["client-version", "os", "os-vendor", "domain", "host-name", "host-id"]

def validateEditedReport (parse : String → Except String Element) (xml : String) :
    Except String Element := do
  ensure (xml.utf8ByteSize ≤ maxEditedReportBytes) "HIP report exceeds 48 KiB"
  let lower := xml.toList.map Char.toLower
  ensure (!contains lower "<!doctype".toList && !contains lower "<!entity".toList)
    "HIP report must not contain a DTD or entity declaration"
  ensure (declaresUtf8 lower) "HIP report must use UTF-8 encoding"
  let root ← parse xml
  ensure (root.name = "hip-report") "HIP report root must be <hip-report>"
  rootFields.forM fun name => (uniqueChild root name).map fun _ => ()
  let categories ← uniqueChild root "categories"
  match categories.elements.filter fun entry =>
      entry.name = "entry" && entry.attribute "name" = some "host-info" with
  | [] => throw "HIP report is missing host-info"
  | [hostInfo] =>
    hostInfoFields.forM fun name => (uniqueChild hostInfo name).map fun _ => ()
    return root
  | _ => throw "HIP report has duplicate host-info entries"

theorem size_le_of_validate {parse : String → Except String Element} {xml : String} {e : Element}
    (h : validateEditedReport parse xml = .ok e) : xml.utf8ByteSize ≤ maxEditedReportBytes := by
  by_contra hlt
  have hfail : ensure (xml.utf8ByteSize ≤ maxEditedReportBytes) "HIP report exceeds 48 KiB" =
      .error "HIP report exceeds 48 KiB" := by simp [ensure, hlt]
  rw [validateEditedReport, hfail] at h
  cases h

end GlobalProtect.Hip
