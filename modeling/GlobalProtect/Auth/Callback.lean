import GlobalProtect.Lib.Checks
import GlobalProtect.Lib.FormUrlencoded
import Mathlib.Logic.Function.Basic

/-! # Authentication data from a callback

`SamlAuthData::from_gpcallback` (`gpapi`, `auth.rs`). The data is a page in base 64, or a form of the
cloud authentication service. Some versions send the form percent-encoded, so it is decoded before
it is parsed, always.

A form that is not encoded once more is then decoded twice. Its values come out right exactly if they
have nothing that decoding takes for something else (`Form.Literal`, `callback_round_trip_iff`,
`plus_lost`). -/

namespace GlobalProtect.Auth

open Lib

inductive AuthDataParseError where
  | notFound
  | authenticationFailed (status : String)
  | invalid (message : String)
  deriving DecidableEq, Repr

def validateSamlAuthStatus : Option String → Except AuthDataParseError Unit
  | some "1" => .ok ()
  | some status => .error (.authenticationFailed status)
  | none => .error .notFound

structure SamlAuthData where
  username : String
  preloginCookie : Option String
  portalUserauthcookie : Option String
  token : Option String
  hostId : Option String
  deriving DecidableEq, Repr

/-! ### Pages -/

/-- The longest text in front of an occurrence of the part. -/
def beforeLast (part : List Char) : List Char → Option (List Char)
  | [] => if part = [] then some [] else none
  | c :: text =>
    match beforeLast part text with
    | some before => some (c :: before)
    | none => if part <+: c :: text then some [] else none

/-- The expression `<tag>(.*)</tag>`, where no newline is matched. -/
def matchTag (opening closing : List Char) : List Char → Option (List Char)
  | [] => none
  | c :: text =>
    let here := if opening <+: c :: text then
      beforeLast closing (((c :: text).drop opening.length).takeWhile (· ≠ '\n')) else none
    here.or (matchTag opening closing text)

def parseXmlTag (html tag : String) : Option String :=
  (matchTag ("<" ++ tag ++ ">").toList ("</" ++ tag ++ ">").toList html.toList).map String.ofList

namespace SamlAuthData

def new (username preloginCookie portalUserauthcookie : Option String) :
    Except String SamlAuthData :=
  let username := username.getD ""
  let preloginCookie := preloginCookie.getD ""
  let portalUserauthcookie := portalUserauthcookie.getD ""
  if username = "" then .error "Invalid username: <empty>"
  else if preloginCookie.utf8ByteSize ≤ 5 ∧ portalUserauthcookie.utf8ByteSize ≤ 5 then
    .error ("Invalid prelogin-cookie: " ++ preloginCookie ++ ", portal-userauthcookie: " ++
      portalUserauthcookie)
  else
    .ok { username, preloginCookie := some preloginCookie,
          portalUserauthcookie := some portalUserauthcookie, token := none, hostId := none }

def fromHtml (html : String) : Except AuthDataParseError SamlAuthData := do
  validateSamlAuthStatus (parseXmlTag html "saml-auth-status")
  match new (parseXmlTag html "saml-username") (parseXmlTag html "prelogin-cookie")
      (parseXmlTag html "portal-userauthcookie") with
  | .ok data => .ok data
  | .error message => .error (.invalid message)

end SamlAuthData

/-! ### Forms -/

inductive Field where
  | username
  | preloginCookie
  | portalUserauthcookie
  | token
  | hostId
  deriving DecidableEq, Repr

namespace Field

def name : Field → String
  | .username => "username"
  | .preloginCookie => "preloginCookie"
  | .portalUserauthcookie => "portalUserauthcookie"
  | .token => "token"
  | .hostId => "hostId"

/-- The field of a key; the user name has an alias. -/
def ofKey : String → Option Field
  | "username" => some .username
  | "un" => some .username
  | "preloginCookie" => some .preloginCookie
  | "portalUserauthcookie" => some .portalUserauthcookie
  | "token" => some .token
  | "hostId" => some .hostId
  | _ => none

end Field

/-- The fields that have been read. -/
abbrev Fields := Field → Option String

def Fields.visit (fields : Fields) (p : String × String) : Except String Fields :=
  match Field.ofKey p.1 with
  | none => .ok fields
  | some f =>
    if (fields f).isSome then .error ("duplicate field `" ++ f.name ++ "`")
    else .ok (Function.update fields f (some p.2))

def Fields.visitAll (fields : Fields) : List (String × String) → Except String Fields
  | [] => .ok fields
  | p :: pairs => do (← fields.visit p).visitAll pairs

namespace SamlAuthData

/-- Reading the data from the pairs of a form. -/
def fromStr (input : String) : Except String SamlAuthData := do
  let fields ← Fields.visitAll (fun _ => none) (Form.parse (Form.bytesOf input))
  match fields .username with
  | none => .error "missing field `username`"
  | some username =>
    .ok { username, preloginCookie := fields .preloginCookie,
          portalUserauthcookie := fields .portalUserauthcookie, token := fields .token,
          hostId := fields .hostId }

/-- The text without so many beginnings at most. -/
def trimStartMatches (part : List Char) : ℕ → List Char → List Char
  | 0, text => text
  | n + 1, text => if part <+: text then trimStartMatches part n (text.drop part.length) else text

/-- `decodeToString` reads base 64. -/
def fromGpcallback (decodeToString : String → Except String String) (data : String) :
    Except AuthDataParseError SamlAuthData :=
  let authData := trimStartMatches "globalprotectcallback:".toList data.length data.toList
  -- some versions of GP include a leading slash
  let authData := String.ofList (authData.dropWhile (· = '/'))
  if "cas-as".toList <+: authData.toList then
    match fromStr ((Form.decode? authData).getD authData) with
    | .ok data => .ok data
    | .error message => .error (.invalid message)
  else
    match decodeToString authData with
    | .ok html => fromHtml html
    | .error message => .error (.invalid message)

end SamlAuthData

/-! ### Reading pairs -/

theorem Fields.visit_cases {fields fields' : Fields} {p : String × String}
    (h : fields.visit p = .ok fields') :
    (Field.ofKey p.1 = none ∧ fields' = fields) ∨
      ∃ f, Field.ofKey p.1 = some f ∧ fields f = none ∧
        fields' = Function.update fields f (some p.2) := by
  unfold Fields.visit at h
  cases hkey : Field.ofKey p.1 with
  | none =>
    rw [hkey] at h
    exact Or.inl ⟨rfl, (Except.ok.inj h).symm⟩
  | some f =>
    rw [hkey] at h
    dsimp only at h
    split_ifs at h with hsome
    exact Or.inr ⟨f, rfl, by simpa using hsome, (Except.ok.inj h).symm⟩

theorem Fields.visitAll_kept {fields fields' : Fields} {pairs : List (String × String)}
    (h : fields.visitAll pairs = .ok fields') {f : Field} {value : String}
    (hf : fields f = some value) : fields' f = some value := by
  induction pairs generalizing fields with
  | nil =>
    obtain rfl := Except.ok.inj h
    exact hf
  | cons p pairs ih =>
    obtain ⟨middle, hvisit, hrest⟩ := bind_eq_ok.mp h
    refine ih hrest ?_
    rcases visit_cases hvisit with ⟨-, rfl⟩ | ⟨g, -, hnone, rfl⟩
    · exact hf
    · have hne : f ≠ g := by
        rintro rfl
        rw [hf] at hnone
        cases hnone
      rw [Function.update_of_ne hne, hf]

theorem Fields.visitAll_mem {fields fields' : Fields} {pairs : List (String × String)}
    (h : fields.visitAll pairs = .ok fields') {p : String × String} (hp : p ∈ pairs) {f : Field}
    (hf : Field.ofKey p.1 = some f) : fields' f = some p.2 := by
  induction pairs generalizing fields with
  | nil => cases hp
  | cons q pairs ih =>
    obtain ⟨middle, hvisit, hrest⟩ := bind_eq_ok.mp h
    rcases List.mem_cons.mp hp with rfl | hp
    · rcases visit_cases hvisit with ⟨hnone, -⟩ | ⟨g, hkey, -, rfl⟩
      · rw [hf] at hnone
        cases hnone
      · obtain rfl := Option.some.inj (hf.symm.trans hkey)
        exact visitAll_kept hrest (Function.update_self ..)
    · exact ih hrest hp

namespace SamlAuthData

theorem fromStr_ok {input : String} {data : SamlAuthData} (h : fromStr input = .ok data) :
    ∃ fields, Fields.visitAll (fun _ => none) (Form.parse (Form.bytesOf input)) = .ok fields ∧
      fields .username = some data.username ∧ fields .token = data.token := by
  obtain ⟨fields, hfields, h⟩ := bind_eq_ok.mp h
  cases hname : fields .username with
  | none =>
    rw [hname] at h
    cases h
  | some username =>
    rw [hname] at h
    obtain rfl := Except.ok.inj h
    exact ⟨fields, hfields, hname, rfl⟩

/-! ### Callbacks of the cloud authentication service -/

/-- The form that the service sends. -/
def casForm (username token : String) : String :=
  Form.serialize [("cas-as", "1"), ("un", username), ("token", token)]

/-- The data has this user name and this token. -/
def Yields (result : Except AuthDataParseError SamlAuthData) (username token : String) : Prop :=
  ∃ data, result = .ok data ∧ data.username = username ∧ data.token = some token

theorem trimStartMatches_of_not {part : List Char} {n : ℕ} {text : List Char}
    (h : ¬ part <+: text) : trimStartMatches part n text = text := by
  cases n with
  | zero => rfl
  | succ n => rw [trimStartMatches, if_neg h]

theorem fromGpcallback_cas (decodeToString : String → Except String String) {form : String}
    (h : "cas-as".toList <+: form.toList) {username token : String} :
    Yields (fromGpcallback decodeToString ("globalprotectcallback:" ++ form)) username token ↔
      ∃ data, fromStr ((Form.decode? form).getD form) = .ok data ∧ data.username = username ∧
        data.token = some token := by
  obtain ⟨rest, hrest⟩ := h
  have hstripped : trimStartMatches "globalprotectcallback:".toList
      ("globalprotectcallback:" ++ form).length ("globalprotectcallback:" ++ form).toList =
        form.toList := by
    have hlength : ("globalprotectcallback:" ++ form).length = form.length + 21 + 1 := by
      rw [String.length_append]
      exact Nat.add_comm 22 _
    rw [hlength, trimStartMatches, String.toList_append, if_pos (List.prefix_append _ _),
      List.drop_left]
    refine trimStartMatches_of_not ?_
    rw [← hrest]
    rintro ⟨more, hmore⟩
    exact absurd (List.cons.inj hmore).1 (by decide)
  have hslash : form.toList.dropWhile (· = '/') = form.toList := by
    rw [← hrest]
    rfl
  have hcas : "cas-as".toList <+: form.toList := ⟨rest, hrest⟩
  unfold Yields fromGpcallback
  rw [hstripped]
  dsimp only
  rw [hslash, String.ofList_toList, if_pos hcas]
  cases fromStr ((Form.decode? form).getD form) with
  | error message => simp
  | ok data => simp

theorem bytesOf_casForm (username token : String) :
    Form.bytesOf (casForm username token) =
      Form.bytesOf "cas-as=1&un=" ++ (Form.formEncode (Form.bytesOf username) ++
        (Form.bytesOf "&token=" ++ Form.formEncode (Form.bytesOf token))) := by
  have hcas : Form.formEncode (Form.bytesOf "cas-as") ++ 0x3D :: Form.formEncode (Form.bytesOf "1") ++
      0x26 :: Form.formEncode (Form.bytesOf "un") ++ [0x3D] = Form.bytesOf "cas-as=1&un=" := by decide
  have htoken : 0x26 :: Form.formEncode (Form.bytesOf "token") ++ [0x3D] = Form.bytesOf "&token=" := by
    decide
  rw [casForm, Form.bytesOf_serialize, ← hcas, ← htoken]
  simp [List.intercalate]

theorem casForm_begins (username token : String) :
    "cas-as".toList <+: (casForm username token).toList := by
  have hcas : "cas-as".toList =
      (Form.formEncode (Form.bytesOf "cas-as")).map fun b => Char.ofNat b.toNat := by decide
  rw [hcas, casForm, Form.serialize, Form.ofAscii, String.toList_ofList]
  refine List.IsPrefix.map _ ?_
  simp [List.intercalate]

theorem encode_casForm_begins (username token : String) :
    "cas-as".toList <+: (Form.encode (casForm username token)).toList := by
  have hcas : "cas-as".toList = (Form.percentEncode Form.isUnreserved
      (Form.bytesOf "cas-as")).map fun b => Char.ofNat b.toNat := by decide
  have hbytes : Form.bytesOf "cas-as=1&un=" = Form.bytesOf "cas-as" ++ Form.bytesOf "=1&un=" := by
    decide
  rw [hcas, Form.encode, Form.ofAscii, String.toList_ofList, bytesOf_casForm, hbytes,
    List.append_assoc, Form.percentEncode_append]
  exact (List.prefix_append _ _).map _

/-- The form is decoded although it is not encoded. -/
theorem decode?_casForm (username token : String) :
    ∃ text, Form.decode? (casForm username token) = some text ∧
      Form.bytesOf text = Form.bytesOf "cas-as=1&un=" ++
        ((Form.bytesOf username).map Form.spaceToPlus ++
          (Form.bytesOf "&token=" ++ (Form.bytesOf token).map Form.spaceToPlus)) := by
  have hmap : ∀ s : String, (Form.bytesOf s).map Form.spaceToPlus =
      Utf8.encode (s.toList.map fun c => if c = ' ' then '+' else c) :=
    fun s => Form.map_encode (x := ' ') (y := '+') (by decide) (by decide) s.toList
  have hdecode : Form.percentDecode (Form.bytesOf (casForm username token)) =
      Form.bytesOf "cas-as=1&un=" ++ ((Form.bytesOf username).map Form.spaceToPlus ++
        (Form.bytesOf "&token=" ++ (Form.bytesOf token).map Form.spaceToPlus)) := by
    rw [bytesOf_casForm, Form.percentDecode_append (by decide), Form.formEncode,
      Form.percentDecode_flatMap_append Form.percentDecode_formByte_append,
      Form.percentDecode_append (by decide), Form.formEncode,
      Form.percentDecode_flatMap Form.percentDecode_formByte_append]
  refine ⟨String.ofList ("cas-as=1&un=".toList ++
    (username.toList.map (fun c => if c = ' ' then '+' else c) ++
      ("&token=".toList ++ token.toList.map fun c => if c = ' ' then '+' else c))), ?_, ?_⟩
  · rw [Form.decode?, hdecode, hmap, hmap, Form.bytesOf, Form.bytesOf, ← Utf8.encode_append,
      ← Utf8.encode_append, ← Utf8.encode_append, Utf8.decode?_encode, Option.map_some]
  · rw [Form.bytesOf, String.toList_ofList, Utf8.encode_append, Utf8.encode_append,
      Utf8.encode_append, ← hmap, ← hmap]
    rfl

theorem parse_twice (username token : String) :
    ∃ more more', Form.parse (Form.bytesOf "cas-as=1&un=" ++
        ((Form.bytesOf username).map Form.spaceToPlus ++
          (Form.bytesOf "&token=" ++ (Form.bytesOf token).map Form.spaceToPlus))) =
        [("cas-as", "1"), ("un", String.ofList (Form.reading username.toList))] ++ more ++
          ("token", String.ofList (Form.reading token.toList)) :: more' ∧
      ('&' ∉ username.toList → more = []) ∧ ('&' ∉ token.toList → more' = []) := by
  have hamp : ∀ s : String, '&' ∉ s.toList → 0x26 ∉ (Form.bytesOf s).map Form.spaceToPlus := by
    intro s hs hmem
    obtain ⟨b, hb, heq⟩ := List.mem_map.mp hmem
    rw [Form.spaceToPlus] at heq
    split_ifs at heq
    · exact absurd heq (by decide)
    · subst heq
      exact hs ((Utf8.ofNat_mem_encode (x := '&') (by decide)).mp hb)
  obtain ⟨more, hun, hmore⟩ := Form.parse_field (Form.bytesOf "un")
    ((Form.bytesOf username).map Form.spaceToPlus) (by decide)
  obtain ⟨more', htoken, hmore'⟩ := Form.parse_field (Form.bytesOf "token")
    ((Form.bytesOf token).map Form.spaceToPlus) (by decide)
  refine ⟨more, more', ?_, fun h => hmore (hamp username h), fun h => hmore' (hamp token h)⟩
  have hcas : Form.parse (Form.bytesOf "cas-as=1") = [("cas-as", "1")] := by decide
  have hnames : Form.component (Form.bytesOf "un") = "un" ∧
      Form.component (Form.bytesOf "token") = "token" := by decide
  have hbytes : Form.bytesOf "cas-as=1&un=" =
        Form.bytesOf "cas-as=1" ++ 0x26 :: (Form.bytesOf "un" ++ [0x3D]) ∧
      Form.bytesOf "&token=" = 0x26 :: (Form.bytesOf "token" ++ [0x3D]) := by decide
  rw [Form.component_takeWhile_spaceToPlus, hnames.1] at hun
  rw [Form.component_takeWhile_spaceToPlus, hnames.2] at htoken
  rw [hbytes.1, hbytes.2]
  simp only [List.append_assoc, List.cons_append, List.nil_append]
  rw [Form.parse_append, hcas, ← List.cons_append, ← List.append_assoc, Form.parse_append, hun,
    htoken]
  simp

theorem fromStr_of_pairs {input username token : String}
    (h : Form.parse (Form.bytesOf input) =
      [("cas-as", "1"), ("un", username), ("token", token)]) :
    ∃ data, fromStr input = .ok data ∧ data.username = username ∧ data.token = some token := by
  rw [fromStr, h]
  exact ⟨_, rfl, rfl, rfl⟩

theorem encoded_yields (decodeToString : String → Except String String) (username token : String) :
    Yields (fromGpcallback decodeToString
      ("globalprotectcallback:" ++ Form.encode (casForm username token))) username token := by
  rw [fromGpcallback_cas decodeToString (encode_casForm_begins username token),
    Form.decode?_encode]
  exact fromStr_of_pairs (Form.parse_serialize (by simp))

theorem plain_yields_iff (decodeToString : String → Except String String)
    (username token : String) :
    Yields (fromGpcallback decodeToString ("globalprotectcallback:" ++ casForm username token))
      username token ↔ Form.Literal username.toList ∧ Form.Literal token.toList := by
  obtain ⟨text, hdecode, hbytes⟩ := decode?_casForm username token
  obtain ⟨more, more', hparse, hmore, hmore'⟩ := parse_twice username token
  rw [← hbytes] at hparse
  rw [fromGpcallback_cas decodeToString (casForm_begins username token), hdecode, Option.getD_some]
  constructor
  · rintro ⟨data, hdata, rfl, htoken⟩
    -- both pairs were read, whatever was in between
    obtain ⟨fields, hfields, hname, hfield⟩ := fromStr_ok hdata
    rw [hparse] at hfields
    have hun := Fields.visitAll_mem hfields
      (p := ("un", String.ofList (Form.reading data.username.toList))) (by simp) rfl
    have htok := Fields.visitAll_mem hfields
      (p := ("token", String.ofList (Form.reading token.toList))) (by simp) rfl
    rw [hname] at hun
    rw [hfield, htoken] at htok
    have hchars := fun (s : String) (h : some s = some (String.ofList (Form.reading s.toList))) =>
      (congrArg String.toList (Option.some.inj h)).trans String.toList_ofList
    constructor
    · exact (Form.reading_eq_iff _).mp (hchars _ hun).symm
    · exact (Form.reading_eq_iff _).mp (hchars _ htok).symm
  · rintro ⟨huser, htok⟩
    refine fromStr_of_pairs ?_
    rw [hparse, hmore huser.1, hmore' htok.1, (Form.reading_eq_iff _).mpr huser,
      (Form.reading_eq_iff _).mpr htok, String.ofList_toList, String.ofList_toList]
    rfl

/-- **A callback gives back the user name and the token, in both encodings, exactly if neither of
them has an `&`, a plus sign or an escape.** -/
theorem callback_round_trip_iff (decodeToString : String → Except String String)
    (username token : String) :
    (Yields (fromGpcallback decodeToString ("globalprotectcallback:" ++ casForm username token))
        username token ∧
      Yields (fromGpcallback decodeToString
        ("globalprotectcallback:" ++ Form.encode (casForm username token))) username token) ↔
      Form.Literal username.toList ∧ Form.Literal token.toList := by
  rw [plain_yields_iff, and_iff_left (encoded_yields decodeToString username token)]

/-- The plus sign of a user name is read as a space. -/
theorem plus_lost :
    fromGpcallback (fun _ => .error "") ("globalprotectcallback:" ++ casForm "a+b" "t") =
      .ok { username := "a b", preloginCookie := none, portalUserauthcookie := none,
            token := some "t", hostId := none } := by
  decide +kernel

end SamlAuthData

end GlobalProtect.Auth
