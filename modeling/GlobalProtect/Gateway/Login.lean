import GlobalProtect.Api.Types
import GlobalProtect.Lib.Checks
import GlobalProtect.Lib.FormUrlencoded
import GlobalProtect.Lib.Text
import GlobalProtect.Lib.Xml

/-! # What a gateway login issues

A gateway answers a login with a list of arguments. `build_gateway_token` (`gateway/login.rs`) makes
the cookie of the session from seven of them and the name of the computer, and
`GatewayAuthentication::new` (`session/connection.rs`) checks the cookie and the connection type.

A token says the arguments that are present (`presentFields`), percent-decoded, and nothing else
(`parse_token`). -/

namespace GlobalProtect.Gateway

open Lib Api

/-! ### Arguments -/

def normalizeArgValue (value : String) : Except String (Option String) :=
  match Form.decode? value with
  | none => .error (Utf8.errorText (Form.percentDecode (Form.bytesOf value)))
  | some value =>
    if value = "" ∨ value = "(null)" ∨ value = "-1" then .ok none
    else if value.toList.any Text.isControl then
      .error "Gateway argument contains control characters"
    else .ok (some value)

def readArgValue (args : List String) (index : ℕ) : Except String (Option String) :=
  match args[index]? with
  | none => .ok none
  | some raw =>
    match normalizeArgValue raw with
    | .ok value => .ok value
    | .error err =>
      .error ("Failed to decode gateway login argument " ++ toString index ++ ": " ++ err)

def readRequiredArg (args : List String) (index : ℕ) (key : String) :
    Except String (Option (String × String)) := do
  match ← readArgValue args index with
  | none => .error ("Failed to read " ++ key ++ " from args")
  | some value => .ok (some (key, value))

def readOptionalArg (args : List String) (index : ℕ) (key : String) :
    Except String (Option (String × String)) := do
  return (← readArgValue args index).map (key, ·)

/-- The fields as they are written. -/
def token (params : List (String × String)) : String :=
  "&".intercalate (params.map fun p => p.1 ++ "=" ++ Form.encode p.2)

def buildGatewayToken (args : List String) (computer : String) : Except String String := do
  let authcookie ← readRequiredArg args 1 "authcookie"
  let persistentCookie ← readOptionalArg args 2 "persistent-cookie"
  let portal ← readOptionalArg args 3 "portal"
  let user ← readRequiredArg args 4 "user"
  let domain ← readOptionalArg args 7 "domain"
  let preferredIp ← readOptionalArg args 15 "preferred-ip"
  let preferredIpv6 ← readOptionalArg args 18 "preferred-ipv6"
  let params :=
    [authcookie, persistentCookie, portal, user, domain, preferredIp, preferredIpv6].reduceOption
  return token (params ++ [("computer", computer)])

/-- The cookie of an answer and, apart from it, the connection type. -/
def parseIssuedAuthentication (element : Xml.Node) (computer : String) :
    Except String (String × Except String String) := do
  ensure (element.hasName "jnlp") "Gateway login response is not JNLP"
  ensure ((element.attr "status").all (· = "success"))
    "Gateway login response rejected authentication"
  match element.child "application-desc" with
  | none => .error "Gateway login response has no application description"
  | some application =>
    let args := (application.children "argument").map fun e => e.getText.getD ""
    let cookie ← buildGatewayToken args computer
    let connectionType := do
      match ← readArgValue args 12 with
      | some mode => .ok mode
      | none => .error "Gateway login response has no connection type"
    return (cookie, connectionType)

/-! ### The arguments that are present -/

/-- An argument is present if the list has it and it is not one of the texts for nothing. -/
def present (args : List String) (field : ℕ × String) : Option (String × String) := do
  let value ← Form.decode? (← args[field.1]?)
  if value ∈ ["", "(null)", "-1"] then none else some (field.2, value)

/-- The fields of a token with the places of their arguments. -/
def tokenFields : List (ℕ × String) :=
  [(1, "authcookie"), (2, "persistent-cookie"), (3, "portal"), (4, "user"), (7, "domain"),
    (15, "preferred-ip"), (18, "preferred-ipv6")]

def presentFields (args : List String) : List (String × String) :=
  tokenFields.filterMap (present args)

def tokenParams (args : List String) (computer : String) : List (String × String) :=
  presentFields args ++ [("computer", computer)]

variable {args : List String} {index : ℕ} {key : String}

theorem normalizeArgValue_ok {raw : String} {value : Option String}
    (h : normalizeArgValue raw = .ok value) :
    ∃ decoded, Form.decode? raw = some decoded ∧
      value = if decoded ∈ ["", "(null)", "-1"] then none else some decoded := by
  unfold normalizeArgValue at h
  cases hdecode : Form.decode? raw with
  | none =>
    rw [hdecode] at h
    cases h
  | some decoded =>
    rw [hdecode] at h
    refine ⟨decoded, rfl, ?_⟩
    have hmem : decoded ∈ ["", "(null)", "-1"] ↔
        decoded = "" ∨ decoded = "(null)" ∨ decoded = "-1" := by simp
    simp only [hmem]
    dsimp only at h
    split_ifs at h ⊢ with hnull
    · exact (Except.ok.inj h).symm
    · exact (Except.ok.inj h).symm

theorem readArgValue_ok {value : Option String} (h : readArgValue args index = .ok value) :
    present args (index, key) = value.map (key, ·) := by
  unfold readArgValue at h
  cases hraw : args[index]? with
  | none =>
    rw [hraw] at h
    obtain rfl := Except.ok.inj h
    simp [present, hraw]
  | some raw =>
    rw [hraw] at h
    dsimp only at h
    cases hvalue : normalizeArgValue raw with
    | error err =>
      rw [hvalue] at h
      cases h
    | ok v =>
      rw [hvalue] at h
      obtain rfl := Except.ok.inj h
      obtain ⟨decoded, hdecode, rfl⟩ := normalizeArgValue_ok hvalue
      simp only [present, hraw, hdecode, Option.bind_eq_bind, Option.bind_some]
      split_ifs <;> rfl

theorem readOptionalArg_ok {p : Option (String × String)}
    (h : readOptionalArg args index key = .ok p) : p = present args (index, key) := by
  obtain ⟨value, hvalue, h⟩ := bind_eq_ok.mp h
  rw [readArgValue_ok hvalue]
  exact (Except.ok.inj h).symm

theorem readRequiredArg_ok {p : Option (String × String)}
    (h : readRequiredArg args index key = .ok p) :
    p = present args (index, key) ∧ ∃ value, p = some (key, value) := by
  obtain ⟨value, hvalue, h⟩ := bind_eq_ok.mp h
  rw [readArgValue_ok hvalue]
  cases value with
  | none => cases h
  | some value =>
    obtain rfl := Except.ok.inj h
    exact ⟨rfl, value, rfl⟩

theorem value_of_present {field : ℕ × String} {p : String × String}
    (h : present args field = some p) : p.1 = field.2 ∧ p.2 ∉ ["", "(null)", "-1"] := by
  unfold present at h
  obtain ⟨raw, -, h⟩ := Option.bind_eq_some_iff.mp h
  obtain ⟨value, -, h⟩ := Option.bind_eq_some_iff.mp h
  split_ifs at h with hnull
  cases h
  exact ⟨rfl, hnull⟩

theorem buildGatewayToken_ok {computer cookie : String}
    (h : buildGatewayToken args computer = .ok cookie) :
    cookie = token (tokenParams args computer) ∧
      (∃ value, present args (1, "authcookie") = some ("authcookie", value)) ∧
      ∃ value, present args (4, "user") = some ("user", value) := by
  obtain ⟨authcookie, hauthcookie, h⟩ := bind_eq_ok.mp h
  obtain ⟨persistentCookie, hpersistentCookie, h⟩ := bind_eq_ok.mp h
  obtain ⟨portal, hportal, h⟩ := bind_eq_ok.mp h
  obtain ⟨user, huser, h⟩ := bind_eq_ok.mp h
  obtain ⟨domain, hdomain, h⟩ := bind_eq_ok.mp h
  obtain ⟨preferredIp, hpreferredIp, h⟩ := bind_eq_ok.mp h
  obtain ⟨preferredIpv6, hpreferredIpv6, h⟩ := bind_eq_ok.mp h
  obtain ⟨rfl, hone⟩ := readRequiredArg_ok hauthcookie
  obtain rfl := readOptionalArg_ok hpersistentCookie
  obtain rfl := readOptionalArg_ok hportal
  obtain ⟨rfl, hone'⟩ := readRequiredArg_ok huser
  obtain rfl := readOptionalArg_ok hdomain
  obtain rfl := readOptionalArg_ok hpreferredIp
  obtain rfl := readOptionalArg_ok hpreferredIpv6
  exact ⟨(Except.ok.inj h).symm, hone, hone'⟩

theorem parseIssuedAuthentication_ok {element : Xml.Node} {computer : String}
    {issued : String × Except String String}
    (h : parseIssuedAuthentication element computer = .ok issued) :
    ∃ args, buildGatewayToken args computer = .ok issued.1 := by
  obtain ⟨-, -, h⟩ := bind_eq_ok.mp h
  obtain ⟨-, -, h⟩ := bind_eq_ok.mp h
  cases happlication : element.child "application-desc" with
  | none =>
    rw [happlication] at h
    cases h
  | some application =>
    rw [happlication] at h
    obtain ⟨cookie, hcookie, h⟩ := bind_eq_ok.mp h
    obtain rfl := Except.ok.inj h
    exact ⟨_, hcookie⟩

/-! ### Reading a token -/

/-- A name is written as it is. -/
def IsName (name : String) : Prop :=
  0x26 ∉ Form.bytesOf name ∧ 0x3D ∉ Form.bytesOf name ∧ Form.component (Form.bytesOf name) = name

instance (name : String) : Decidable (IsName name) := by
  delta IsName
  infer_instance

/-- A field as it is written. -/
def piece (p : String × String) : List Char := p.1.toList ++ '=' :: (Form.encode p.2).toList

theorem toList_token (params : List (String × String)) :
    (token params).toList = ['&'].intercalate (params.map piece) := by
  have hand : "&".toList = ['&'] ∧ "=".toList = ['='] := by decide
  rw [token, String.toList_intercalate, hand.1, List.map_map]
  refine congrArg _ (List.map_congr_left fun p _ => ?_)
  rw [Function.comp, String.toList_append, String.toList_append, hand.2, List.append_assoc,
    List.singleton_append, piece]

theorem bytesOf_token (params : List (String × String)) :
    Form.bytesOf (token params) = [0x26].intercalate
      (params.map fun p => Form.bytesOf p.1 ++ 0x3D :: Form.bytesOf (Form.encode p.2)) := by
  have hand : UInt8.ofNat '&'.toNat = 0x26 := by decide
  have hequals : String.utf8EncodeChar '=' = [0x3D] := by decide
  rw [Form.bytesOf, toList_token, Form.encode_intercalate (by decide), hand, List.map_map]
  refine congrArg _ (List.map_congr_left fun p _ => ?_)
  rw [Function.comp, piece, Utf8.encode_append, Utf8.encode_cons, hequals, List.singleton_append,
    Form.bytesOf, Form.bytesOf]

theorem notMem_token {x : Char} {params : List (String × String)} (hseparator : x ≠ '&' ∧ x ≠ '=')
    (hnames : ∀ p ∈ params, x ∉ p.1.toList) (hencode : ∀ s, x ∉ (Form.encode s).toList) :
    x ∉ (token params).toList := by
  rw [toList_token]
  intro hmem
  rcases Form.mem_intercalate hmem with hand | ⟨text, htext, hmem⟩
  · exact hseparator.1 hand
  · obtain ⟨p, hp, rfl⟩ := List.mem_map.mp htext
    rcases List.mem_append.mp hmem with hmem | hmem
    · exact hnames p hp hmem
    · rcases List.mem_cons.mp hmem with hequals | hmem
      · exact hseparator.2 hequals
      · exact hencode p.2 hmem

/-- **A token says its fields.** -/
theorem parse_token {params : List (String × String)} (hne : params ≠ [])
    (hnames : ∀ p ∈ params, IsName p.1) : Form.parse (Form.bytesOf (token params)) = params := by
  have hparse := Form.parse_intercalate
    (params.map fun p => (Form.bytesOf p.1, Form.bytesOf (Form.encode p.2))) (by simpa using hne) ?_
  · simp only [List.map_map, Function.comp_def, Form.component_encode] at hparse
    rw [bytesOf_token, hparse]
    exact Form.map_eq_self fun p hp => congrArg (·, p.2) (hnames p hp).2.2
  · intro f hf
    obtain ⟨p, hp, rfl⟩ := List.mem_map.mp hf
    refine ⟨(hnames p hp).1, ?_, (hnames p hp).2.1⟩
    rw [Form.bytesOf_encode]
    exact fun hb => (Form.mem_percentEncode hb).1 (by simp)

theorem fst_mem_of_present {p : String × String} (h : p ∈ presentFields args) :
    p.1 ∈ tokenFields.map Prod.snd := by
  obtain ⟨field, hfield, hp⟩ := List.mem_filterMap.mp h
  exact List.mem_map.mpr ⟨field, hfield, (value_of_present hp).1.symm⟩

theorem nodup_presentFields (args : List String) : ((presentFields args).map Prod.fst).Nodup := by
  have hsublist : ∀ fields : List (ℕ × String),
      ((fields.filterMap (present args)).map Prod.fst).Sublist (fields.map Prod.snd) := by
    intro fields
    induction fields with
    | nil => exact List.Sublist.refl _
    | cons field fields ih =>
      rw [List.filterMap_cons]
      cases hp : present args field with
      | none => exact ih.cons _
      | some p =>
        rw [List.map_cons, List.map_cons, (value_of_present hp).1]
        exact ih.cons_cons _
  exact (hsublist tokenFields).nodup (by decide)

theorem nodup_tokenParams (args : List String) (computer : String) :
    ((tokenParams args computer).map Prod.fst).Nodup := by
  rw [tokenParams, List.map_append, List.nodup_append]
  refine ⟨nodup_presentFields args, by simp, ?_⟩
  rintro name hname _ hcomputer rfl
  obtain ⟨p, hp, rfl⟩ := List.mem_map.mp hname
  have hmem := fst_mem_of_present hp
  have heq : p.1 = "computer" := List.mem_singleton.mp hcomputer
  rw [heq] at hmem
  exact absurd hmem (by decide)

theorem fst_mem_of_tokenParams {computer : String} {p : String × String}
    (hp : p ∈ tokenParams args computer) : p.1 ∈ tokenFields.map Prod.snd ++ ["computer"] := by
  rcases List.mem_append.mp hp with hp | hp
  · exact List.mem_append_left _ (fst_mem_of_present hp)
  · rw [List.mem_singleton.mp hp]
    simp

theorem isName_of_mem {computer : String} {p : String × String}
    (hp : p ∈ tokenParams args computer) : IsName p.1 := by
  have hnames : ∀ name ∈ tokenFields.map Prod.snd ++ ["computer"], IsName name := by decide
  exact hnames p.1 (fst_mem_of_tokenParams hp)

theorem quote_notMem_token (args : List String) (computer : String) :
    '\'' ∉ (token (tokenParams args computer)).toList ∧
      '\x00' ∉ (token (tokenParams args computer)).toList := by
  have hnames : ∀ name ∈ tokenFields.map Prod.snd ++ ["computer"],
      '\'' ∉ name.toList ∧ '\x00' ∉ name.toList := by decide
  constructor
  · exact notMem_token (by decide) (fun p hp => (hnames p.1 (fst_mem_of_tokenParams hp)).1)
      (Form.notMem_encode (by decide) (by decide))
  · exact notMem_token (by decide) (fun p hp => (hnames p.1 (fst_mem_of_tokenParams hp)).2)
      (Form.notMem_encode (by decide) (by decide))

end GlobalProtect.Gateway

namespace GlobalProtect.Api.GatewayAuthentication

open Lib

/-- The fields have this one exactly once, and not empty. -/
def hasOne (params : List (String × String)) (key : String) : Bool :=
  match params.filter (·.1 = key) with
  | [p] => p.2 ≠ ""
  | _ => false

def new (cookie connectionType : String) : Except String GatewayAuthentication := do
  ensure (cookie ≠ "" && cookie.utf8ByteSize ≤ 64 * 1024)
    "Gateway authentication cookie is missing or too large"
  let params := Form.parse (Form.bytesOf cookie)
  for key in ["authcookie", "user"] do
    ensure (hasOne params key) ("Gateway authentication requires one nonempty " ++ key)
  ensure (Text.trim connectionType.toList ≠ [] && connectionType ≠ "(null)" && connectionType ≠ "-1")
    "Gateway connection type is missing"
  return { cookie, connectionType }

theorem hasOne_of_mem {params : List (String × String)} (hnodup : (params.map Prod.fst).Nodup)
    {p : String × String} (hp : p ∈ params) (hvalue : p.2 ≠ "") : hasOne params p.1 = true := by
  have hfilter : params.filter (·.1 = p.1) = [p] := by
    induction params with
    | nil => cases hp
    | cons q params ih =>
      obtain ⟨hq, hnodup⟩ := List.nodup_cons.mp hnodup
      rcases List.mem_cons.mp hp with rfl | hp
      · have hrest : params.filter (·.1 = p.1) = [] := by
          rw [List.filter_eq_nil_iff]
          intro r hr heq
          exact hq (of_decide_eq_true heq ▸ List.mem_map_of_mem hr)
        rw [List.filter_cons_of_pos (by simp), hrest]
      · have hne : q.1 ≠ p.1 := fun heq => hq (heq ▸ List.mem_map_of_mem hp)
        rw [List.filter_cons_of_neg (by simpa using hne), ih hnodup hp]
  rw [hasOne, hfilter]
  exact decide_eq_true hvalue

theorem new_ok {cookie connectionType : String} (hcookie : cookie ≠ "")
    (hsize : cookie.utf8ByteSize ≤ 64 * 1024)
    (hauthcookie : hasOne (Form.parse (Form.bytesOf cookie)) "authcookie" = true)
    (huser : hasOne (Form.parse (Form.bytesOf cookie)) "user" = true)
    (htype : Text.trim connectionType.toList ≠ [])
    (hnull : connectionType ≠ "(null)" ∧ connectionType ≠ "-1") :
    new cookie connectionType = .ok { cookie, connectionType } := by
  have hone : (cookie ≠ "" && cookie.utf8ByteSize ≤ 64 * 1024) = true := by simp [hcookie, hsize]
  have htwo : (Text.trim connectionType.toList ≠ [] && connectionType ≠ "(null)" &&
      connectionType ≠ "-1") = true := by simp [htype, hnull]
  rw [new, hone, htwo]
  simp only [List.forIn_cons, List.forIn_nil, hauthcookie, huser]
  rfl

theorem cookie_of_new {cookie connectionType : String} {a : GatewayAuthentication}
    (h : new cookie connectionType = .ok a) : a.cookie = cookie := by
  obtain ⟨-, -, h⟩ := bind_eq_ok.mp h
  obtain ⟨-, -, h⟩ := bind_eq_ok.mp h
  obtain ⟨-, -, h⟩ := bind_eq_ok.mp h
  rw [← Except.ok.inj h]

end GlobalProtect.Api.GatewayAuthentication
