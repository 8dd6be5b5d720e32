import GlobalProtect.Gateway.Login

/-! # Requests of a session

The forms that `GatewayTransport` posts (`session/transport/mod.rs`) are made from the cookie: it is
read as a form, and some fields are set. The token of a report is a hash of the cookie's own text
without the fields that change from login to login.

`gateway_cookie_carried`: the values that the gateway has issued come through all of this. -/

namespace GlobalProtect.Session

open Api Gateway Lib

inductive ClientOs where
  | linux
  | windows
  | mac
  | ios
  deriving DecidableEq, Repr

def ClientOs.asStr : ClientOs → String
  | .linux => "Linux"
  | .windows => "Windows"
  | .mac => "Mac"
  | .ios => "iOS"

structure OsProfile where
  clientOs : ClientOs
  osVersion : String
  computer : String
  hostId : String
  serialno : String
  deriving DecidableEq, Repr

abbrev Pairs := List (String × String)

def setForm (form : Pairs) (key value : String) : Pairs :=
  form.filter (·.1 ≠ key) ++ [(key, value)]

def cookieForm (a : GatewayAuthentication) : Pairs := Form.parse (Form.bytesOf a.cookie)

/-- The addresses are given as they are shown. -/
def hipForm (a : GatewayAuthentication) (profile : OsProfile) (ipv4 ipv6 : Option String) : Pairs :=
  let form := cookieForm a
  let form := setForm form "client-role" "global-protect-full"
  let form := setForm form "computer" profile.computer
  let form := setForm form "host-id" profile.hostId
  let form := setForm form "serialno" profile.serialno
  let form := match ipv4 with
    | some ip => setForm form "client-ip" ip
    | none => form
  match ipv6 with
  | some ip => setForm form "client-ipv6" ip
  | none => form

/-- The form that `logout_cookie` posts. -/
def logoutForm (cookie : String) (profile : OsProfile) : Pairs :=
  let form := Form.parse (Form.bytesOf cookie)
  let form := setForm form "computer" profile.computer
  let form := setForm form "clientos" profile.clientOs.asStr
  setForm form "os-version" profile.osVersion

/-- The fields of a cookie that the token of a report does not depend on. -/
def volatile : List (List Char) :=
  ["authcookie".toList, "preferred-ip".toList, "preferred-ipv6".toList]

/-- The text of a cookie without those fields. -/
def stable (cookie : List Char) : List Char :=
  ['&'].intercalate ((cookie.splitOn '&').filter (·.takeWhile (· ≠ '=') ∉ volatile))

/-- `md5` computes a hash in hexadecimal. -/
def hipToken (md5 : Utf8.Bytes → String) (cookie : String) : String :=
  md5 (Utf8.encode (stable cookie.toList))

/-! ### Forms -/

/-- What is set in the form of a report. -/
def hipSettings (profile : OsProfile) (ipv4 ipv6 : Option String) : Pairs :=
  [("client-role", "global-protect-full"), ("computer", profile.computer),
    ("host-id", profile.hostId), ("serialno", profile.serialno)] ++
    (ipv4.map ("client-ip", ·)).toList ++ (ipv6.map ("client-ipv6", ·)).toList

def logoutSettings (profile : OsProfile) : Pairs :=
  [("computer", profile.computer), ("clientos", profile.clientOs.asStr),
    ("os-version", profile.osVersion)]

theorem foldl_setForm {settings : Pairs} (hnodup : (settings.map Prod.fst).Nodup) (form : Pairs) :
    settings.foldl (fun form p => setForm form p.1 p.2) form =
      form.filter (·.1 ∉ settings.map Prod.fst) ++ settings := by
  induction settings generalizing form with
  | nil => simp
  | cons s settings ih =>
    obtain ⟨hs, hnodup⟩ := List.nodup_cons.mp hnodup
    rw [List.foldl_cons, ih hnodup, setForm, List.filter_append, List.filter_filter]
    have hkept : [(s.1, s.2)].filter (·.1 ∉ settings.map Prod.fst) = [s] := by simpa using hs
    rw [hkept, List.append_assoc, List.singleton_append]
    congr 1
    refine List.filter_congr fun p _ => ?_
    have hcons : p.1 ∉ (s :: settings).map Prod.fst ↔
        p.1 ∉ settings.map Prod.fst ∧ p.1 ≠ s.1 := by
      rw [List.map_cons, List.mem_cons]
      tauto
    rw [← Bool.decide_and]
    exact decide_eq_decide.mpr hcons.symm

theorem hipForm_eq (a : GatewayAuthentication) (profile : OsProfile) (ipv4 ipv6 : Option String) :
    hipForm a profile ipv4 ipv6 = (hipSettings profile ipv4 ipv6).foldl
      (fun form p => setForm form p.1 p.2) (cookieForm a) := by
  cases ipv4 <;> cases ipv6 <;> rfl

theorem nodup_hipSettings (profile : OsProfile) (ipv4 ipv6 : Option String) :
    ((hipSettings profile ipv4 ipv6).map Prod.fst).Nodup := by
  cases ipv4 <;> cases ipv6 <;> simp [hipSettings]

theorem foldl_setForm_tokenParams (settings : Pairs) (args : List String) (computer : String)
    (hnodup : (settings.map Prod.fst).Nodup) (hcomputer : "computer" ∈ settings.map Prod.fst)
    (hother : ∀ name ∈ tokenFields.map Prod.snd, name ∉ settings.map Prod.fst) :
    settings.foldl (fun form p => setForm form p.1 p.2) (tokenParams args computer) =
        presentFields args ++ settings ∧
      ((presentFields args ++ settings).map Prod.fst).Nodup := by
  constructor
  · have hpresent : (presentFields args).filter (·.1 ∉ settings.map Prod.fst) =
        presentFields args := by
      rw [List.filter_eq_self]
      exact fun p hp => decide_eq_true (hother p.1 (fst_mem_of_present hp))
    have hreplaced : [("computer", computer)].filter (·.1 ∉ settings.map Prod.fst) = [] := by
      simpa using hcomputer
    rw [foldl_setForm hnodup, tokenParams, List.filter_append, hpresent, hreplaced,
      List.append_nil]
  · rw [List.map_append, List.nodup_append]
    refine ⟨nodup_presentFields args, hnodup, ?_⟩
    rintro name hname _ hset rfl
    obtain ⟨p, hp, rfl⟩ := List.mem_map.mp hname
    exact hother p.1 (fst_mem_of_present hp) hset

theorem hipForm_carries {a : GatewayAuthentication} {args : List String} {computer : String}
    (h : cookieForm a = tokenParams args computer) (profile : OsProfile)
    (ipv4 ipv6 : Option String) :
    hipForm a profile ipv4 ipv6 = presentFields args ++ hipSettings profile ipv4 ipv6 ∧
      ((hipForm a profile ipv4 ipv6).map Prod.fst).Nodup := by
  have hother : ∀ name ∈ tokenFields.map Prod.snd,
      name ∉ (hipSettings profile ipv4 ipv6).map Prod.fst := by
    cases ipv4 <;> cases ipv6 <;> simp [hipSettings, tokenFields]
  obtain ⟨heq, hnodup⟩ := foldl_setForm_tokenParams _ args computer
    (nodup_hipSettings profile ipv4 ipv6) (by simp [hipSettings]) hother
  rw [hipForm_eq, h, heq]
  exact ⟨rfl, hnodup⟩

theorem logoutForm_carries {cookie : String} {args : List String} {computer : String}
    (h : Form.parse (Form.bytesOf cookie) = tokenParams args computer) (profile : OsProfile) :
    logoutForm cookie profile = presentFields args ++ logoutSettings profile ∧
      ((logoutForm cookie profile).map Prod.fst).Nodup := by
  have hform : logoutForm cookie profile = (logoutSettings profile).foldl
      (fun form p => setForm form p.1 p.2) (Form.parse (Form.bytesOf cookie)) := rfl
  obtain ⟨heq, hnodup⟩ := foldl_setForm_tokenParams (logoutSettings profile) args computer
    (by simp [logoutSettings]) (by simp [logoutSettings]) (by simp [logoutSettings, tokenFields])
  rw [hform, h, heq]
  exact ⟨rfl, hnodup⟩

/-! ### The token of a report -/

theorem stable_token {params : Pairs} (hne : params ≠ []) (hnames : ∀ p ∈ params, IsName p.1) :
    stable (token params).toList =
      ['&'].intercalate ((params.filter (·.1.toList ∉ volatile)).map piece) := by
  have hname : ∀ p ∈ params, '&' ∉ p.1.toList ∧ '=' ∉ p.1.toList := by
    intro p hp
    rw [← Utf8.ofNat_mem_encode (by decide), ← Utf8.ofNat_mem_encode (by decide)]
    exact ⟨(hnames p hp).1, (hnames p hp).2.1⟩
  have hsplit : (token params).toList.splitOn '&' = params.map piece := by
    rw [toList_token]
    refine List.splitOn_intercalate '&' ?_ (by simpa using hne)
    intro text htext
    obtain ⟨p, hp, rfl⟩ := List.mem_map.mp htext
    have hvalue : '&' ∉ (Form.encode p.2).toList := Form.notMem_encode (by decide) (by decide) p.2
    simp [piece, (hname p hp).1, hvalue]
  rw [stable, hsplit, List.filter_map]
  congr 2
  refine List.filter_congr fun p hp => ?_
  rw [Function.comp, piece, Form.takeWhile_append_separator (hname p hp).2]

theorem filter_tokenParams {args args' : List String} (computer : String)
    (h : ∀ i, i ∉ [1, 15, 18] → args'[i]? = args[i]?) :
    (tokenParams args' computer).filter (·.1.toList ∉ volatile) =
      (tokenParams args computer).filter (·.1.toList ∉ volatile) := by
  have hvolatile : ∀ field ∈ tokenFields, field.1 ∈ [1, 15, 18] → field.2.toList ∈ volatile := by
    decide
  have hfield : ∀ field ∈ tokenFields,
      (present args' field).filter (·.1.toList ∉ volatile) =
        (present args field).filter (·.1.toList ∉ volatile) := by
    intro field hfield
    by_cases hindex : field.1 ∈ [1, 15, 18]
    · have hnone : ∀ list : List String,
          (present list field).filter (·.1.toList ∉ volatile) = none := by
        intro list
        rw [Option.filter_eq_none_iff]
        intro p hp
        rw [(value_of_present hp).1]
        simpa using hvolatile field hfield hindex
      rw [hnone, hnone]
    · rw [present, present, h _ hindex]
  rw [tokenParams, tokenParams, List.filter_append, List.filter_append, presentFields,
    presentFields, List.filter_filterMap, List.filter_filterMap, List.filterMap_congr hfield]

/-! ### What the gateway has issued -/

theorem new_buildGatewayToken {args : List String} {computer cookie connectionType : String}
    (h : buildGatewayToken args computer = .ok cookie)
    (hparse : Form.parse (Form.bytesOf cookie) = tokenParams args computer)
    (hsize : cookie.utf8ByteSize ≤ 64 * 1024) (htype : Text.trim connectionType.toList ≠ [])
    (hnull : connectionType ∉ ["(null)", "-1"]) :
    GatewayAuthentication.new cookie connectionType = .ok { cookie, connectionType } := by
  obtain ⟨-, ⟨authcookie, hauthcookie⟩, user, huser⟩ := buildGatewayToken_ok h
  have hone : ∀ field ∈ tokenFields, ∀ p, present args field = some p →
      GatewayAuthentication.hasOne (Form.parse (Form.bytesOf cookie)) p.1 = true := by
    intro field hfield p hp
    rw [hparse]
    refine GatewayAuthentication.hasOne_of_mem (nodup_tokenParams args computer)
      (List.mem_append_left _ (List.mem_filterMap.mpr ⟨field, hfield, hp⟩)) ?_
    intro hempty
    exact (value_of_present hp).2 (by simp [hempty])
  refine GatewayAuthentication.new_ok ?_ hsize
    (hone (1, "authcookie") (by decide) _ hauthcookie) (hone (4, "user") (by decide) _ huser) htype
    (by simpa using hnull)
  rintro rfl
  have hnil : Form.parse (Form.bytesOf "") = [] := by decide
  rw [hnil, tokenParams] at hparse
  simp at hparse

/-- **What a gateway login issues comes through the cookie.** The cookie says the arguments that are
present, and the name of the computer. It is accepted. The forms of reports and logouts have these
fields as they are, apart from the name of the computer, and no key twice. The token of a report does
not depend on the fields that change from login to login. -/
theorem gateway_cookie_carried {args : List String} {computer cookie : String}
    (h : buildGatewayToken args computer = .ok cookie) :
    Form.parse (Form.bytesOf cookie) = presentFields args ++ [("computer", computer)] ∧
    (∀ connectionType, readArgValue args 12 = .ok (some connectionType) →
      connectionType ∉ ["(null)", "-1"]) ∧
    (∀ connectionType, cookie.utf8ByteSize ≤ 64 * 1024 →
      Text.trim connectionType.toList ≠ [] → connectionType ∉ ["(null)", "-1"] →
      GatewayAuthentication.new cookie connectionType = .ok { cookie, connectionType }) ∧
    (∀ connectionType profile ipv4 ipv6,
      hipForm { cookie, connectionType } profile ipv4 ipv6 =
          presentFields args ++ hipSettings profile ipv4 ipv6 ∧
        ((hipForm { cookie, connectionType } profile ipv4 ipv6).map Prod.fst).Nodup) ∧
    (∀ profile, logoutForm cookie profile = presentFields args ++ logoutSettings profile ∧
      ((logoutForm cookie profile).map Prod.fst).Nodup) ∧
    ∀ (md5 : Utf8.Bytes → String) (args' : List String) (cookie' : String),
      (∀ i, i ∉ [1, 15, 18] → args'[i]? = args[i]?) →
      buildGatewayToken args' computer = .ok cookie' → hipToken md5 cookie' = hipToken md5 cookie := by
  have hne : ∀ list, tokenParams list computer ≠ [] := fun list => by simp [tokenParams]
  obtain ⟨htoken, -, -⟩ := buildGatewayToken_ok h
  have hparse : Form.parse (Form.bytesOf cookie) = tokenParams args computer := by
    rw [htoken]
    exact parse_token (hne args) fun p hp => isName_of_mem hp
  refine ⟨hparse, fun connectionType hread hmem => ?_,
    fun connectionType hsize htype hnull => new_buildGatewayToken h hparse hsize htype hnull,
    fun connectionType => hipForm_carries hparse, logoutForm_carries hparse, ?_⟩
  · have hpresent : present args (12, "") = some ("", connectionType) := readArgValue_ok hread
    exact (value_of_present hpresent).2 (List.mem_cons_of_mem _ hmem)
  · intro md5 args' cookie' hargs h'
    obtain ⟨htoken', -, -⟩ := buildGatewayToken_ok h'
    rw [hipToken, hipToken, htoken, htoken', stable_token (hne args) fun p hp => isName_of_mem hp,
      stable_token (hne args') fun p hp => isName_of_mem hp, filter_tokenParams computer hargs]

theorem gateway_cookie_carried_separators :
    buildGatewayToken ["", "a%26b", "%28null%29", "gw", "u%2B1%3D"] "pc" =
        .ok "authcookie=a%26b&portal=gw&user=u%2B1%3D&computer=pc" ∧
      Form.parse (Form.bytesOf "authcookie=a%26b&portal=gw&user=u%2B1%3D&computer=pc") =
        [("authcookie", "a&b"), ("portal", "gw"), ("user", "u+1="), ("computer", "pc")] ∧
      GatewayAuthentication.new "authcookie=a%26b&portal=gw&user=u%2B1%3D&computer=pc" "tunnel" =
        .ok { cookie := "authcookie=a%26b&portal=gw&user=u%2B1%3D&computer=pc",
              connectionType := "tunnel" } ∧
      hipToken Form.ofAscii "authcookie=c&portal=gw&user=u%2B1%3D&computer=pc" =
        hipToken Form.ofAscii "authcookie=a%26b&portal=gw&user=u%2B1%3D&computer=pc" := by
  have hbuild : buildGatewayToken ["", "a%26b", "%28null%29", "gw", "u%2B1%3D"] "pc" =
      .ok "authcookie=a%26b&portal=gw&user=u%2B1%3D&computer=pc" := by decide +kernel
  have hbuild' : buildGatewayToken ["", "c", "%28null%29", "gw", "u%2B1%3D"] "pc" =
      .ok "authcookie=c&portal=gw&user=u%2B1%3D&computer=pc" := by decide +kernel
  have hargs : ∀ i, i ∉ [1, 15, 18] → ["", "c", "%28null%29", "gw", "u%2B1%3D"][i]? =
      ["", "a%26b", "%28null%29", "gw", "u%2B1%3D"][i]? := by
    intro i hi
    match i with
    | 0 => rfl
    | 1 => exact absurd (by decide) hi
    | _ + 2 => rfl
  obtain ⟨hparse, -, hnew, -, -, hhip⟩ := gateway_cookie_carried hbuild
  exact ⟨hbuild, hparse.trans (by decide +kernel),
    hnew "tunnel" (by decide) (by decide) (by decide), hhip _ _ _ hargs hbuild'⟩

end GlobalProtect.Session
