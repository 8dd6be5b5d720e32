import GlobalProtect.Service.Stream
import GlobalProtect.Tunnel.Trimming

/-! # Fitting a snapshot into a message

`fit_snapshot_message` for the real configuration of a tunnel: the encoder that the event stream
leaves open (`Codec`) is the JSON text of the message, and the configuration is trimmed by
`limitEncodedSize`.

The space for the configuration is computed from two sizes: that of the message and that of the
configuration. This is right because the size of the text is the size of what is around the
configuration plus the size of the configuration (`size_withConfiguration`), and it carries the
three parts of `snapshot_fitted`. -/

namespace GlobalProtect.Service.Stream

open Lib Api Tunnel

/-! ### The encoding of messages -/

/-- The encodings of what the messages carry and this model does not look into; `σ` are the
snapshots of the statistics. -/
structure Encoders (σ : Type) where
  uuid : Uuid → String
  vpnState : VpnState → Json
  result : ServiceResult → Json
  event : WsEvent TunnelConfiguration → Json
  statistics : σ → Json

def phaseName : TunnelPhase → String
  | .establishing => "establishing"
  | .connected => "connected"
  | .reconnecting => "reconnecting"
  | .ended => "ended"

def transportName : TunnelTransport → String
  | .negotiating => "negotiating"
  | .ipsecEsp => "ipsecEsp"
  | .sslTls => "sslTls"
  | .unavailable => "unavailable"

def hostIdentity (h : HostIdentity) : Json :=
  .object [("computer", .string h.computer), ("hostId", .string h.hostId),
    ("serialno", .string h.serialNumber), ("macAddr", .string h.macAddress)]

/-- A number as a text. -/
def decimal (n : ℕ) : Json := .string (toString n)

namespace Encoders

variable {σ : Type} (e : Encoders σ)

def tunnelState (t : TunnelState TunnelConfiguration) : Json :=
  .object [("tunnelId", .string (e.uuid t.tunnelId)), ("sequence", decimal t.sequence),
    ("phase", .string (phaseName t.phase)),
    ("configurationRevision", decimal t.configurationRevision),
    ("configuration", .ofOption TunnelConfiguration.toJson t.configuration),
    ("transport", .string (transportName t.transport)), ("elapsedMs", decimal t.elapsedMs)]

def vpnEnv (env : VpnEnv TunnelConfiguration) : Json :=
  .object [("tunnel_state", .ofOption e.tunnelState env.tunnelState),
    ("vpn_state", e.vpnState env.vpnState), ("vpnc_script", .ofOption .string env.vpncScript),
    ("auth_executable", .string env.authExecutable),
    ("host_info", .object [("host_identity", hostIdentity env.hostInfo.hostIdentity)])]

/-- The tag of a message and its content. -/
def tagged (name : String) (data : List (String × Json)) : Json :=
  .object [("type", .string name), ("data", .object data)]

def message : ServerMessage TunnelConfiguration → Json
  | .attached connectionId currentRevision snapshot =>
    tagged "attached" [("connection_id", .string (e.uuid connectionId)),
      ("current_revision", .number currentRevision), ("snapshot", e.vpnEnv snapshot)]
  | .reply id result => tagged "reply" [("id", .string (e.uuid id)), ("result", e.result result)]
  | .event revision event =>
    tagged "event" [("revision", .number revision), ("event", e.event event)]
  | .snapshot currentRevision snapshot =>
    tagged "snapshot" [("current_revision", .number currentRevision),
      ("snapshot", e.vpnEnv snapshot)]

/-- The encoder that the service uses. -/
def codec : Codec TunnelConfiguration where
  messageSize m := some (e.message m).size
  configurationSize c := some c.encodedSize
  limitEncodedSize := TunnelConfiguration.limitEncodedSize

end Encoders

/-- All messages: statistics too. -/
inductive Outgoing (σ : Type) where
  | tunnelStatistics (snapshot : σ)
  | message (m : ServerMessage TunnelConfiguration)

namespace Encoders

variable {σ : Type} (e : Encoders σ)

def outgoing : Outgoing σ → Json
  | .tunnelStatistics snapshot => tagged "tunnelStatistics" [("snapshot", e.statistics snapshot)]
  | .message m => e.message m

/-- `fit_snapshot_message`; `none` is its error. Statistics carry no snapshot of the state. -/
def fitSnapshotMessage : Outgoing σ → Option (Outgoing σ)
  | .tunnelStatistics snapshot =>
    if (e.outgoing (.tunnelStatistics snapshot)).size ≤ maxPlaintext then
      some (.tunnelStatistics snapshot)
    else none
  | .message m => (e.codec.fitSnapshotMessage m).map .message

end Encoders

/-! ### The configuration in a message -/

variable {σ γ : Type}

def withEnv (f : VpnEnv γ → VpnEnv γ) : ServerMessage γ → ServerMessage γ
  | .attached id revision env => .attached id revision (f env)
  | .snapshot revision env => .snapshot revision (f env)
  | m => m

def envOf : ServerMessage γ → Option (VpnEnv γ)
  | .attached _ _ env => some env
  | .snapshot _ env => some env
  | _ => none

/-- The configuration that an `Attached` or `Snapshot` message carries. -/
def Outgoing.configuration : Outgoing σ → Option TunnelConfiguration
  | .message m => (envOf m).bind fun env => env.tunnelState.bind (·.configuration)
  | .tunnelStatistics _ => none

def setConfiguration (c : γ) (env : VpnEnv γ) : VpnEnv γ :=
  { env with tunnelState := env.tunnelState.map fun t => { t with configuration := some c } }

/-- The message with another configuration. -/
def Outgoing.withConfiguration (c : TunnelConfiguration) : Outgoing σ → Outgoing σ
  | .message m => .message (withEnv (setConfiguration c) m)
  | .tunnelStatistics snapshot => .tunnelStatistics snapshot

/-! ### Sizes -/

namespace Encoders

variable (e : Encoders σ) {c : TunnelConfiguration}

theorem size_tunnelState {t : TunnelState TunnelConfiguration} (h : t.configuration = some c)
    (c' : TunnelConfiguration) :
    (e.tunnelState { t with configuration := some c' }).size + c.encodedSize =
      (e.tunnelState t).size + c'.encodedSize := by
  simp only [tunnelState, Json.size_object, List.map_cons, List.map_nil, List.sum_cons,
    List.length_cons, Json.fieldSize, h, Json.ofOption, TunnelConfiguration.encodedSize]
  omega

theorem size_vpnEnv {env : VpnEnv TunnelConfiguration}
    (h : env.tunnelState.bind (·.configuration) = some c) (c' : TunnelConfiguration) :
    (e.vpnEnv (setConfiguration c' env)).size + c.encodedSize =
      (e.vpnEnv env).size + c'.encodedSize := by
  obtain ⟨t, ht, hc⟩ := Option.bind_eq_some_iff.mp h
  have hstate := e.size_tunnelState hc c'
  simp only [vpnEnv, setConfiguration, Json.size_object, List.map_cons, List.map_nil,
    List.sum_cons, List.length_cons, Json.fieldSize, ht, Option.map_some, Json.ofOption]
  omega

theorem size_tagged (name : String) (data : List (String × Json)) :
    (tagged name data).size =
      Json.quotedSize "type" + Json.quotedSize name + Json.quotedSize "data" + 5 +
        (Json.object data).size := by
  simp only [tagged, Json.size_object, List.map_cons, List.map_nil, List.sum_cons, List.sum_nil,
    List.length_cons, List.length_nil, Json.fieldSize, Json.size_string]
  omega

theorem size_withConfiguration {m : Outgoing σ} (h : m.configuration = some c)
    (c' : TunnelConfiguration) :
    (e.outgoing (m.withConfiguration c')).size + c.encodedSize =
      (e.outgoing m).size + c'.encodedSize := by
  cases m with
  | tunnelStatistics snapshot => cases h
  | message m =>
    obtain ⟨env, hm, hc⟩ := Option.bind_eq_some_iff.mp h
    have henv := e.size_vpnEnv hc c'
    cases m with
    | attached id revision snapshot | snapshot revision snapshot =>
      cases hm
      simp only [Outgoing.withConfiguration, withEnv, outgoing, message, size_tagged,
        Json.size_object, List.map_cons, List.sum_cons, List.length_cons, Json.fieldSize]
      omega
    | reply id result => cases hm
    | event revision event => cases hm

/-! ### Every message -/

theorem shorten_eq (excess : ℕ) (env : VpnEnv TunnelConfiguration) :
    e.codec.shorten excess env =
      (env.tunnelState.bind (·.configuration)).bind fun c =>
        (checkedSub c.encodedSize excess).bind fun remaining =>
          if (c.limitEncodedSize remaining).2 = true then
            some (setConfiguration (c.limitEncodedSize remaining).1 env)
          else none := by
  unfold Codec.shorten codec
  cases ht : env.tunnelState with
  | none => rfl
  | some t =>
    cases hc : t.configuration with
    | none => simp [hc]
    | some c => simp [hc, setConfiguration, ht]

theorem shortenMessage_eq (excess : ℕ) (m : ServerMessage TunnelConfiguration) :
    e.codec.shortenMessage excess m =
      (Outgoing.configuration (σ := σ) (.message m)).bind fun c =>
        (checkedSub c.encodedSize excess).bind fun remaining =>
          if (c.limitEncodedSize remaining).2 = true then
            some (withEnv (setConfiguration (c.limitEncodedSize remaining).1) m)
          else none := by
  cases m with
  | attached id revision env | snapshot revision env =>
    rw [Codec.shortenMessage, shorten_eq]
    simp only [Option.map_bind, Function.comp_def, apply_ite (Option.map _), Option.map_some,
      Option.map_none]
    rfl
  | reply id result => rfl
  | event revision event => rfl

/-- What the function does, for a message that does not fit: the configuration gets the space that
is left. -/
theorem fitSnapshotMessage_eq (m : Outgoing σ) (h : maxPlaintext < (e.outgoing m).size) :
    e.fitSnapshotMessage m =
      m.configuration.bind fun c =>
        (checkedSub c.encodedSize ((e.outgoing m).size - maxPlaintext)).bind fun remaining =>
          if (c.limitEncodedSize remaining).2 = true then
            if maxPlaintext <
                (e.outgoing (m.withConfiguration (c.limitEncodedSize remaining).1)).size then none
            else some (m.withConfiguration (c.limitEncodedSize remaining).1)
          else none := by
  cases m with
  | tunnelStatistics snapshot => exact if_neg (by omega)
  | message m =>
    have hexcess : checkedSub (e.message m).size maxPlaintext =
        some ((e.message m).size - maxPlaintext) :=
      checkedSub_eq_some.mpr (by rw [outgoing] at h; omega)
    obtain ⟨n, hn⟩ : ∃ n, (e.message m).size - maxPlaintext = n + 1 :=
      ⟨(e.message m).size - maxPlaintext - 1, by rw [outgoing] at h; omega⟩
    have hsize : ∀ m, e.codec.messageSize m = some (e.outgoing (.message m)).size := fun _ => rfl
    unfold fitSnapshotMessage Codec.fitSnapshotMessage
    rw [show e.outgoing (.message m) = e.message m from rfl, hn]
    simp only [hsize, Option.bind_eq_bind, Option.bind_some]
    rw [show e.outgoing (.message m) = e.message m from rfl, hexcess, hn]
    simp only [shortenMessage_eq]
    -- both sides take the same decisions
    cases (Outgoing.message m : Outgoing σ).configuration with
    | none => rfl
    | some c =>
      cases hremaining : checkedSub c.encodedSize (n + 1) with
      | none => simp [hremaining]
      | some remaining =>
        by_cases hfits : (c.limitEncodedSize remaining).2 = true
        · simp only [Option.bind_some, hremaining, hfits, if_true]
          exact apply_ite _ _ _ _
        · simp [hremaining, hfits]

theorem fitSnapshotMessage_of_le {m : Outgoing σ} (h : (e.outgoing m).size ≤ maxPlaintext) :
    e.fitSnapshotMessage m = some m := by
  cases m with
  | tunnelStatistics snapshot => exact if_pos h
  | message m =>
    have hsize : e.codec.messageSize m = some (e.message m).size := rfl
    rw [outgoing] at h
    simp only [fitSnapshotMessage, Codec.fitSnapshotMessage, hsize, Option.bind_eq_bind,
      Option.bind_some]
    rcases Nat.lt_or_eq_of_le h with hlt | heq
    · rw [checkedSub_eq_none.mpr hlt]
      rfl
    · rw [checkedSub_eq_some.mpr (heq.trans (Nat.zero_add _).symm)]
      rfl

/-- The space that is left for the configuration is right: a message whose configuration fits in it
fits. -/
theorem fits_of_remaining {m : Outgoing σ} {c : TunnelConfiguration} {remaining : ℕ}
    (hc : m.configuration = some c)
    (hremaining : checkedSub c.encodedSize ((e.outgoing m).size - maxPlaintext) = some remaining)
    (hlarge : maxPlaintext < (e.outgoing m).size) (c' : TunnelConfiguration) :
    (e.outgoing (m.withConfiguration c')).size ≤ maxPlaintext ↔ c'.encodedSize ≤ remaining := by
  have hsize := e.size_withConfiguration hc c'
  have hspace := checkedSub_eq_some.mp hremaining
  omega

/-- **Fitting a message**: a message that is accepted fits, and is the given one or has its
configuration trimmed. If a message with a snapshot that carries a configuration is refused, it is
too large even with the configuration after all steps of trimming. The last check of the size never
fails. -/
theorem snapshot_fitted (m : Outgoing σ) :
    (∀ m', e.fitSnapshotMessage m = some m' →
      (e.outgoing m').size ≤ maxPlaintext ∧
        (m' = m ∨ ∃ c limit, m.configuration = some c ∧
          m' = m.withConfiguration (c.limitEncodedSize limit).1)) ∧
    (∀ c, m.configuration = some c → e.fitSnapshotMessage m = none →
      maxPlaintext < (e.outgoing (m.withConfiguration c.fullyTrimmed)).size) ∧
    ∀ c remaining, m.configuration = some c → maxPlaintext < (e.outgoing m).size →
      checkedSub c.encodedSize ((e.outgoing m).size - maxPlaintext) = some remaining →
      (c.limitEncodedSize remaining).2 = true →
      (e.outgoing (m.withConfiguration (c.limitEncodedSize remaining).1)).size ≤ maxPlaintext := by
  have hlast : ∀ c remaining, m.configuration = some c → maxPlaintext < (e.outgoing m).size →
      checkedSub c.encodedSize ((e.outgoing m).size - maxPlaintext) = some remaining →
      (c.limitEncodedSize remaining).2 = true →
      (e.outgoing (m.withConfiguration (c.limitEncodedSize remaining).1)).size ≤ maxPlaintext := by
    intro c remaining hc hlarge hremaining hfits
    rw [TunnelConfiguration.limitEncodedSize_snd, decide_eq_true_iff] at hfits
    exact (e.fits_of_remaining hc hremaining hlarge _).mpr hfits
  refine ⟨?_, ?_, hlast⟩
  · intro m' hm'
    rcases Nat.lt_or_ge maxPlaintext (e.outgoing m).size with hlarge | hle
    · rw [e.fitSnapshotMessage_eq m hlarge] at hm'
      obtain ⟨c, hc, hm'⟩ := Option.bind_eq_some_iff.mp hm'
      obtain ⟨remaining, hremaining, hm'⟩ := Option.bind_eq_some_iff.mp hm'
      obtain ⟨hfits, hm'⟩ := Option.ite_none_right_eq_some.mp hm'
      obtain ⟨-, hm'⟩ := Option.ite_none_left_eq_some.mp hm'
      cases hm'
      exact ⟨hlast c remaining hc hlarge hremaining hfits, Or.inr ⟨c, remaining, hc, rfl⟩⟩
    · rw [e.fitSnapshotMessage_of_le hle] at hm'
      cases hm'
      exact ⟨hle, Or.inl rfl⟩
  · intro c hc hnone
    have hlarge : maxPlaintext < (e.outgoing m).size := by
      by_contra hle
      rw [e.fitSnapshotMessage_of_le (Nat.not_lt.mp hle)] at hnone
      cases hnone
    rw [e.fitSnapshotMessage_eq m hlarge, hc, Option.bind_some] at hnone
    cases hremaining : checkedSub c.encodedSize ((e.outgoing m).size - maxPlaintext) with
    | none =>
      -- the message is too large without any configuration
      have hsize := e.size_withConfiguration hc c.fullyTrimmed
      have hless := checkedSub_eq_none.mp hremaining
      omega
    | some remaining =>
      rw [hremaining, Option.bind_some] at hnone
      have hfails : (c.limitEncodedSize remaining).2 = false := by
        by_contra hfits
        have hfits := Bool.not_eq_false _ ▸ hfits
        rw [if_pos hfits, if_neg (Nat.not_lt.mpr (hlast c remaining hc hlarge hremaining hfits))]
          at hnone
        cases hnone
      rw [← TunnelConfiguration.limitEncodedSize_fails hfails]
      have hsize := (e.fits_of_remaining hc hremaining hlarge (c.limitEncodedSize remaining).1)
      rw [TunnelConfiguration.limitEncodedSize_snd, decide_eq_false_iff_not] at hfails
      exact Nat.not_le.mp fun hle => hfails (hsize.mp hle)

/-- Encoders that write nothing. -/
def blank : Encoders Unit where
  uuid _ := ""
  vpnState _ := .null
  result _ := .null
  event _ := .null
  statistics _ := .null

def routeConfiguration : TunnelConfiguration where
  includedRoutes := { items := ["10.0.0.0/8"], totalCount := 1 }

/-- A snapshot with a configuration that names one route. -/
def routeSnapshot : Outgoing Unit :=
  .message (.snapshot 9
    { tunnelState := some
        { tunnelId := 1, sequence := 4, phase := .connected, configurationRevision := 1
          configuration := some routeConfiguration
          transport := .ipsecEsp, elapsedMs := 600000 }
      vpnState := .disconnected, vpncScript := none, authExecutable := "/usr/bin/gpauth"
      hostInfo := ⟨⟨"host", "id", "", ""⟩⟩ })

/-- A configuration with a name of some length. -/
def namedConfiguration (length : ℕ) : TunnelConfiguration where
  interface := some (String.ofList (List.replicate length 'a'))

theorem lt_encodedSize_named (n : ℕ) : n < (namedConfiguration n).encodedSize := by
  have hescaped : Json.escaped (List.replicate n 'a') = List.replicate n 'a' := by
    induction n with
    | zero => rfl
    | succ n ih =>
      rw [List.replicate_succ, Json.escaped, List.flatMap_cons, ← Json.escaped, ih]
      rfl
  have hlen : String.utf8Len (List.replicate n 'a') = n := by
    rw [Json.utf8Len_of_ascii fun c hc => by rw [List.eq_of_mem_replicate hc]; rfl,
      List.length_replicate]
  have htext : n ≤ Json.quotedSize (String.ofList (List.replicate n 'a')) := by
    rw [Json.quotedSize, Json.writeString, String.utf8Len_append, String.utf8Len_append,
      String.toList_ofList (l := List.replicate n 'a'), hescaped, hlen]
    omega
  rw [TunnelConfiguration.encodedSize, TunnelConfiguration.toJson, Json.size_object]
  simp only [List.map_cons, List.sum_cons, Json.fieldSize, namedConfiguration, Json.ofOption,
    Json.size_string]
  omega

/-- The snapshot with one route is sent as it is, and one that is too long is trimmed. -/
theorem snapshot_fitted_route :
    (blank.fitSnapshotMessage routeSnapshot = some routeSnapshot ∧
      (blank.outgoing routeSnapshot).size ≤ maxPlaintext) ∧
    ∃ m', blank.fitSnapshotMessage
        (routeSnapshot.withConfiguration (namedConfiguration maxPlaintext)) = some m' ∧
      (blank.outgoing m').size ≤ maxPlaintext ∧ ∃ limit, m' =
        (routeSnapshot.withConfiguration (namedConfiguration maxPlaintext)).withConfiguration
          ((namedConfiguration maxPlaintext).limitEncodedSize limit).1 := by
  have hsmall : (blank.outgoing routeSnapshot).size ≤ 1000 := by decide +kernel
  have hpart : routeConfiguration.encodedSize ≤ (blank.outgoing routeSnapshot).size := by
    decide +kernel
  have hfits : blank.fitSnapshotMessage routeSnapshot = some routeSnapshot :=
    blank.fitSnapshotMessage_of_le (Nat.le_trans hsmall (by decide))
  refine ⟨⟨hfits, ((snapshot_fitted blank routeSnapshot).1 routeSnapshot hfits).1⟩, ?_⟩
  have hlong := lt_encodedSize_named maxPlaintext
  generalize namedConfiguration maxPlaintext = c at hlong ⊢
  obtain ⟨hfit, hfails, -⟩ := snapshot_fitted blank (routeSnapshot.withConfiguration c)
  have hsize := blank.size_withConfiguration
    (show routeSnapshot.configuration = some routeConfiguration from rfl)
  cases hm : blank.fitSnapshotMessage (routeSnapshot.withConfiguration c) with
  | none =>
    have htrimmed := c.exhausted_fullyTrimmed.encodedSize_le
    have hlarge : maxPlaintext <
        (blank.outgoing (routeSnapshot.withConfiguration c.fullyTrimmed)).size := hfails c rfl hm
    have := hsize c.fullyTrimmed
    unfold maxPlaintext at hlarge
    omega
  | some m' =>
    obtain ⟨hle, rfl | ⟨_, limit, hc, rfl⟩⟩ := hfit m' hm
    · -- it is larger than the configuration in it
      have := hsize c
      omega
    · cases hc
      exact ⟨_, rfl, hle, limit, rfl⟩

end Encoders

end GlobalProtect.Service.Stream
