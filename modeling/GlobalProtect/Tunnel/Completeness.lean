import GlobalProtect.Lib.Checks
import GlobalProtect.Lib.Utf8Decode
import GlobalProtect.Service.ScriptTun
import GlobalProtect.Tunnel.CopyBudget

/-! # Whether copied texts are complete

`CopyBudget::text` marks a text as truncated if it keeps fewer bytes than the native text has. A
byte that is not UTF-8 is decoded to a character of three, so a decoded text can be longer than the
native one. It is then cut to as many bytes as the native text has, and if that is between two
characters, it is not marked.

A copy step is described by `Consumes`: what it takes from the budget, and when nothing is marked.
The steps of `configuration` compose (`Consumes.trans`), so the flag of the whole is known from the
native texts (`Fits`). `unflagged_complete_iff` says for which of them an unmarked configuration is
complete, and `short_domain_unflagged` that this does not hold of all. -/

namespace GlobalProtect.Tunnel

open Lib
open Service.ScriptTun (observedNetwork NegotiatedNetwork ConfigurationError)

/-! ### The decoder -/

def fromUtf8Lossy (bytes : CString) : String := String.ofList (Utf8.decodeLossy bytes)

theorem utf8Bytes_eq (s : String) : utf8Bytes s = Utf8.encode s.toList := by
  rw [utf8Bytes, ← String.utf8Encode_toList, List.utf8Encode, Utf8.encode]
  simp

def lossyUtf8 : LossyUtf8 where
  decode := fromUtf8Lossy
  decode_utf8Bytes s := by
    rw [fromUtf8Lossy, utf8Bytes_eq, Utf8.decodeLossy_encode, String.ofList_toList]

/-! ### One text -/

/-- As many bytes as the native text has can be copied. -/
def Kept (bytes : CString) : Prop :=
  bytes.length ≤ textLimit ∧ Utf8.isCharBoundary (Utf8.decodeLossy bytes) bytes.length = true

/-- The text that is copied then. -/
def cut (bytes : CString) : String :=
  String.ofList (Utf8.take bytes.length (Utf8.decodeLossy bytes))

/-- The bytes of native texts. -/
def total (texts : List CString) : ℕ := (texts.map List.length).sum

/-- The texts were taken from the budget. `room` is what a list asks for besides. -/
structure Consumes (b b' : CopyBudget) (texts : List CString) (room : Prop) : Prop where
  unflagged : b'.truncated = false ↔
    b.truncated = false ∧ room ∧ (∀ t ∈ texts, Kept t) ∧ total texts ≤ b.remaining
  remaining : b'.truncated = false → b'.remaining + total texts = b.remaining

theorem Consumes.next {b b' b'' : CopyBudget} {texts texts' : List CString} {room room' : Prop}
    (h : Consumes b b' texts room)
    (h' : b'.truncated = false → Consumes b' b'' texts' room')
    (hmarked : b''.truncated = false → b'.truncated = false) :
    Consumes b b'' (texts ++ texts') (room ∧ room') := by
  have htotal : total (texts ++ texts') = total texts + total texts' := by simp [total]
  constructor
  · rw [htotal]
    constructor
    · intro hflag'
      have hflag := hmarked hflag'
      have hrest := h.remaining hflag
      obtain ⟨hstart, hroom, hkept, hfits⟩ := h.unflagged.mp hflag
      obtain ⟨-, hroom', hkept', hfits'⟩ := (h' hflag).unflagged.mp hflag'
      refine ⟨hstart, ⟨hroom, hroom'⟩, fun t ht => ?_, by omega⟩
      rcases List.mem_append.mp ht with ht | ht
      · exact hkept t ht
      · exact hkept' t ht
    · rintro ⟨hstart, ⟨hroom, hroom'⟩, hkept, hfits⟩
      have hflag : b'.truncated = false := h.unflagged.mpr
        ⟨hstart, hroom, fun t ht => hkept t (List.mem_append_left _ ht), by omega⟩
      have hrest := h.remaining hflag
      exact (h' hflag).unflagged.mpr
        ⟨hflag, hroom', fun t ht => hkept t (List.mem_append_right _ ht), by omega⟩
  · intro hflag'
    have hflag := hmarked hflag'
    have hrest' := (h' hflag).remaining hflag'
    have hrest := h.remaining hflag
    omega

theorem Consumes.trans {b b' b'' : CopyBudget} {texts texts' : List CString} {room room' : Prop}
    (h : Consumes b b' texts room) (h' : Consumes b' b'' texts' room') :
    Consumes b b'' (texts ++ texts') (room ∧ room') :=
  h.next (fun _ => h') fun hflag => (h'.unflagged.mp hflag).1

theorem Consumes.nothing (b : CopyBudget) : Consumes b b [] True where
  unflagged := by simp [total]
  remaining _ := rfl

theorem copied_whole_iff (bytes : CString) {remaining limit : ℕ}
    (hlimit : min (min remaining textLimit) bytes.length = limit) :
    ¬ Utf8.floorBoundary (Utf8.decodeLossy (bytes.take limit)) limit < bytes.length ↔
      Kept bytes ∧ bytes.length ≤ remaining := by
  have hle := Utf8.floorBoundary_le (Utf8.decodeLossy (bytes.take limit)) limit
  constructor
  · intro hstop
    have hall : limit = bytes.length := by omega
    rw [hall, List.take_length] at hstop hle
    have hend : Utf8.floorBoundary (Utf8.decodeLossy bytes) bytes.length = bytes.length := by
      omega
    have hboundary := Utf8.isCharBoundary_floor (Utf8.decodeLossy bytes) bytes.length
    rw [hend] at hboundary
    exact ⟨⟨by omega, hboundary⟩, by omega⟩
  · rintro ⟨⟨hshort, hboundary⟩, hfits⟩
    have hall : limit = bytes.length := by omega
    rw [hall, List.take_length]
    exact Nat.not_lt.mpr (Utf8.le_floorBoundary hboundary (Nat.le_refl _))

theorem text_consumes (b : CopyBudget) (bytes : CString) :
    ∃ b' s, b.text lossyUtf8 bytes = some (b', s) ∧ Consumes b b' [bytes] True ∧
      (b'.truncated = false → s = cut bytes) := by
  obtain ⟨b', s, htext, -, hsum, -⟩ := text_spec lossyUtf8 b bytes
  refine ⟨b', s, htext, ?_⟩
  unfold CopyBudget.text at htext
  simp only [Option.map_eq_some_iff, Prod.mk.injEq, lossyUtf8, fromUtf8Lossy,
    String.toList_ofList] at htext
  obtain ⟨r, -, hb, hs⟩ := htext
  generalize hlimit : min (min b.remaining textLimit) bytes.length = limit at hb hs
  rw [String.utf8ByteSize_ofList, Nat.min_comm, Utf8.floorBoundary_min] at hb hs
  rw [Utf8.take_floorBoundary] at hs
  have hle := Utf8.floorBoundary_le (Utf8.decodeLossy (bytes.take limit)) limit
  have hwhole := copied_whole_iff bytes hlimit
  have hflag : b'.truncated = false ↔ b.truncated = false ∧ Kept bytes ∧
      bytes.length ≤ b.remaining := by
    rw [← hwhole, ← hb]
    simp
  have hsize : b'.truncated = false → limit = bytes.length ∧ s.utf8ByteSize = bytes.length := by
    intro h
    obtain ⟨-, hkept, hfits⟩ := hflag.mp h
    have hstop := hwhole.mpr ⟨hkept, hfits⟩
    have hall : limit = bytes.length := by
      have := hkept.1
      omega
    refine ⟨hall, ?_⟩
    rw [← hs, String.utf8ByteSize_ofList, ← Utf8.floorBoundary_eq]
    omega
  refine ⟨⟨?_, fun h => ?_⟩, fun h => ?_⟩
  · rw [hflag]
    simp [total]
  · have := (hsize h).2
    simp only [total, List.map_cons, List.map_nil, List.sum_cons, List.sum_nil]
    omega
  · rw [← hs, (hsize h).1, List.take_length]
    rfl

theorem optional_consumes (b : CopyBudget) (value : Option CString) :
    ∃ b' o, b.optional lossyUtf8 value = some (b', o) ∧ Consumes b b' value.toList True ∧
      (b'.truncated = false → o = value.map cut) := by
  cases value with
  | none => exact ⟨b, none, rfl, .nothing b, fun _ => rfl⟩
  | some value =>
    obtain ⟨b', s, htext, hconsumes, hcut⟩ := text_consumes b (value.take (textLimit + 1))
    refine ⟨b', some s, ?_, ?_⟩
    · rw [CopyBudget.optional, htext]
      rfl
    · by_cases hshort : value.length ≤ textLimit
      · rw [List.take_of_length_le (by omega)] at hconsumes hcut
        exact ⟨hconsumes, fun h => congrArg some (hcut h)⟩
      · -- the scan stops one byte after the limit, and that is too long
        have hmarked : b'.truncated ≠ false := by
          intro h
          obtain ⟨-, -, hkept, -⟩ := hconsumes.unflagged.mp h
          have hlen := (hkept _ (List.mem_singleton_self _)).1
          rw [List.length_take] at hlen
          omega
        have hnot : ¬ ∀ t ∈ (some value).toList, Kept t := fun h =>
          hshort (h value (by simp)).1
        refine ⟨⟨iff_of_false hmarked fun h => hnot h.2.2.1, fun h => absurd h hmarked⟩,
          fun h => absurd h hmarked⟩

/-! ### Lists -/

theorem push_consumes (b : CopyBudget) (l : NativeList) (bytes : CString) :
    ∃ b' l', b.push lossyUtf8 l bytes = some (b', l') ∧
      Consumes b b' [bytes] (l.items.length < listLimit) ∧
      (b'.truncated = false → l'.items = l.items ++ [cut bytes] ∧ l'.truncated = l.truncated) := by
  unfold CopyBudget.push
  dsimp only
  by_cases hskip : listLimit ≤ l.items.length ∨ textLimit < bytes.length ∨
      b.remaining < bytes.length
  · rw [if_pos hskip]
    refine ⟨_, _, rfl, ⟨iff_of_false (by simp) ?_, by simp⟩, by simp⟩
    rintro ⟨-, hroom, hkept, hfits⟩
    have hshort := (hkept bytes (List.mem_singleton_self _)).1
    simp only [total, List.map_cons, List.map_nil, List.sum_cons, List.sum_nil] at hfits
    omega
  · rw [if_neg hskip]
    obtain ⟨b', s, htext, hconsumes, hcut⟩ := text_consumes b bytes
    rw [htext]
    refine ⟨b', _, rfl, ⟨?_, hconsumes.remaining⟩, fun h => ?_⟩
    · rw [hconsumes.unflagged]
      have hroom : l.items.length < listLimit := by omega
      simp [hroom]
    · have hkept := (hconsumes.unflagged.mp h).2.2.1 bytes (List.mem_singleton_self _)
      have hsize : (cut bytes).utf8ByteSize = bytes.length := by
        obtain ⟨pre, suf, htext, hlen⟩ := Utf8.isCharBoundary_iff.mp hkept.2
        have htake := Utf8.take_append pre suf 0
        rw [Utf8.take_zero, List.append_nil, Nat.add_zero, ← htext, hlen] at htake
        rw [cut, htake, String.utf8ByteSize_ofList, hlen]
      rw [hcut h]
      exact ⟨rfl, by simp [hsize]⟩

theorem pushEach_consumes (values : List (Option CString)) :
    ∀ (b : CopyBudget) (l : NativeList),
      ∃ b' l', b.pushEach lossyUtf8 l values = some (b', l') ∧
        (b'.truncated = false → b.truncated = false ∧
          l'.items = l.items ++ values.reduceOption.map cut ∧ l'.truncated = l.truncated) ∧
        (l.items.length ≤ listLimit → Consumes b b' values.reduceOption
          (l.items.length + values.reduceOption.length ≤ listLimit)) := by
  induction values with
  | nil =>
    intro b l
    refine ⟨b, l, rfl, by simp, fun hl => ?_⟩
    simpa [hl] using Consumes.nothing b
  | cons value values ih =>
    intro b l
    cases value with
    | none => exact ih b l
    | some bytes =>
      obtain ⟨b₁, l₁, hpush, hfirst, hitem⟩ := push_consumes b l bytes
      obtain ⟨b', l', heach, hitems, hrest⟩ := ih b₁ l₁
      refine ⟨b', l', ?_, fun h => ?_, fun hl => ?_⟩
      · rw [CopyBudget.pushEach, hpush, Option.bind_some]
        exact heach
      · obtain ⟨hflag₁, hitems', hmark'⟩ := hitems h
        obtain ⟨hitem', hmark⟩ := hitem hflag₁
        rw [hitems', hitem', hmark', hmark, List.append_assoc]
        exact ⟨(hfirst.unflagged.mp hflag₁).1, rfl, rfl⟩
      · -- as long as nothing is marked, the list has one item more
        have hnext : b₁.truncated = false → Consumes b₁ b' values.reduceOption
            (l.items.length + (values.reduceOption.length + 1) ≤ listLimit) := by
          intro h
          have hlen : l₁.items.length = l.items.length + 1 := by simp [(hitem h).1]
          have hroom := (hfirst.unflagged.mp h).2.1
          have hcopied := hrest (by omega)
          rwa [hlen, Nat.add_assoc, Nat.add_comm 1] at hcopied
        have hboth := hfirst.next hnext fun h => (hitems h).1
        rw [List.reduceOption_cons_of_some]
        refine ⟨hboth.unflagged.trans ?_, hboth.remaining⟩
        rw [List.singleton_append, List.length_cons]
        constructor
        · rintro ⟨hstart, ⟨-, hroom⟩, hkept⟩
          exact ⟨hstart, hroom, hkept⟩
        · rintro ⟨hstart, hroom, hkept⟩
          exact ⟨hstart, ⟨by omega, hroom⟩, hkept⟩

/-! ### The configuration -/

/-- The native texts that are not in a list, with the name of the interface. -/
def IpInfo.scalars (raw : IpInfo) (interface : Option CString) : List (Option CString) :=
  [interface, raw.addr, raw.netmask, raw.addr6, raw.netmask6, raw.gatewayAddr]

/-- All native texts, in the order in which they are copied. -/
def IpInfo.natives (raw : IpInfo) (interface : Option CString) : List CString :=
  (raw.scalars interface).flatMap Option.toList ++ raw.entries .dns ++ raw.entries .searchDomains ++
    raw.entries .splitDns ++ raw.entries .includedRoutes ++ raw.entries .excludedRoutes

def Configuration.scalars (c : Configuration) : List (Option String) :=
  [c.interface, c.ipv4, c.netmask, c.ipv6, c.netmask6, c.serverIp]

/-- The native texts are within the limits, and each can be cut at its own length. -/
structure Fits (interface : Option CString) (raw : IpInfo) : Prop where
  kept : ∀ t ∈ raw.natives interface, Kept t
  budget : total (raw.natives interface) ≤ copyBudget
  lists : ∀ f, (raw.entries f).length ≤ listLimit

theorem configuration_flag (interface : Option CString) (raw : IpInfo) :
    ∃ c, configuration lossyUtf8 interface raw = some c ∧
      (c.truncated = false ↔ Fits interface raw) ∧
      (c.truncated = false → c.scalars = (raw.scalars interface).map (Option.map cut) ∧
        ∀ f, (c.list f).truncated = false ∧ (c.list f).items = (raw.entries f).map cut) := by
  obtain ⟨b₁, interface', h₁, c₁, cut₁⟩ := optional_consumes {} interface
  obtain ⟨b₂, ipv4, h₂, c₂, cut₂⟩ := optional_consumes b₁ raw.addr
  obtain ⟨b₃, netmask, h₃, c₃, cut₃⟩ := optional_consumes b₂ raw.netmask
  obtain ⟨b₄, ipv6, h₄, c₄, cut₄⟩ := optional_consumes b₃ raw.addr6
  obtain ⟨b₅, netmask6, h₅, c₅, cut₅⟩ := optional_consumes b₄ raw.netmask6
  obtain ⟨b₆, serverIp, h₆, c₆, cut₆⟩ := optional_consumes b₅ raw.gatewayAddr
  obtain ⟨b₇, dns, h₇, cut₇, c₇⟩ := pushEach_consumes raw.dns.toList b₆ {}
  obtain ⟨b₈, search, h₈, cut₈, c₈⟩ := pushEach_consumes (domains raw.domain) b₇ {}
  obtain ⟨b₉, split, h₉, cut₉, c₉⟩ := pushEach_consumes raw.splitDns b₈ {}
  obtain ⟨b₁₀, included, h₁₀, cut₁₀, c₁₀⟩ := pushEach_consumes raw.splitIncludes b₉ {}
  obtain ⟨b₁₁, excluded, h₁₁, cut₁₁, c₁₁⟩ := pushEach_consumes raw.splitExcludes b₁₀ {}
  refine ⟨_, bind_of_eq_some h₁ <| bind_of_eq_some h₂ <| bind_of_eq_some h₃ <|
    bind_of_eq_some h₄ <| bind_of_eq_some h₅ <| bind_of_eq_some h₆ <| bind_of_eq_some h₇ <|
    bind_of_eq_some h₈ <| bind_of_eq_some h₉ <| bind_of_eq_some h₁₀ <| bind_of_eq_some h₁₁ rfl,
    ?_, ?_⟩
  · have hnone : ({} : NativeList).items.length ≤ listLimit := Nat.zero_le _
    have hall := c₁.trans c₂ |>.trans c₃ |>.trans c₄ |>.trans c₅ |>.trans c₆ |>.trans (c₇ hnone)
      |>.trans (c₈ hnone) |>.trans (c₉ hnone) |>.trans (c₁₀ hnone) |>.trans (c₁₁ hnone)
    have htexts : interface.toList ++ raw.addr.toList ++ raw.netmask.toList ++ raw.addr6.toList ++
        raw.netmask6.toList ++ raw.gatewayAddr.toList ++ raw.dns.toList.reduceOption ++
        (domains raw.domain).reduceOption ++ raw.splitDns.reduceOption ++
        raw.splitIncludes.reduceOption ++ raw.splitExcludes.reduceOption =
        raw.natives interface := by
      simp [IpInfo.natives, IpInfo.scalars, IpInfo.entries]
    rw [htexts] at hall
    refine hall.unflagged.trans ?_
    constructor
    · rintro ⟨-, ⟨⟨⟨⟨⟨-, hdns⟩, hsearch⟩, hsplit⟩, hincluded⟩, hexcluded⟩, hkept, hfits⟩
      refine ⟨hkept, hfits, fun f => ?_⟩
      cases f with
      | excludedRoutes => simpa [IpInfo.entries] using hexcluded
      | includedRoutes => simpa [IpInfo.entries] using hincluded
      | splitDns => simpa [IpInfo.entries] using hsplit
      | searchDomains => simpa [IpInfo.entries] using hsearch
      | dns => simpa [IpInfo.entries] using hdns
    · intro hfits
      have hroom : ∀ f, ({} : NativeList).items.length + (raw.entries f).length ≤ listLimit :=
        fun f => by simpa using hfits.lists f
      exact ⟨rfl, ⟨⟨⟨⟨⟨by simp, hroom .dns⟩, hroom .searchDomains⟩, hroom .splitDns⟩,
        hroom .includedRoutes⟩, hroom .excludedRoutes⟩, hfits.kept, hfits.budget⟩
  · intro h₁₁'
    obtain ⟨f₁₀, items₁₁, flag₁₁⟩ := cut₁₁ h₁₁'
    obtain ⟨f₉, items₁₀, flag₁₀⟩ := cut₁₀ f₁₀
    obtain ⟨f₈, items₉, flag₉⟩ := cut₉ f₉
    obtain ⟨f₇, items₈, flag₈⟩ := cut₈ f₈
    obtain ⟨f₆, items₇, flag₇⟩ := cut₇ f₇
    have f₅ := (c₆.unflagged.mp f₆).1
    have f₄ := (c₅.unflagged.mp f₅).1
    have f₃ := (c₄.unflagged.mp f₄).1
    have f₂ := (c₃.unflagged.mp f₃).1
    have f₁ := (c₂.unflagged.mp f₂).1
    constructor
    · simp only [Configuration.scalars, IpInfo.scalars, List.map_cons, List.map_nil]
      rw [cut₁ f₁, cut₂ f₂, cut₃ f₃, cut₄ f₄, cut₅ f₅, cut₆ f₆]
    · intro f
      cases f with
      | excludedRoutes => exact ⟨flag₁₁, items₁₁⟩
      | includedRoutes => exact ⟨flag₁₀, items₁₀⟩
      | splitDns => exact ⟨flag₉, items₉⟩
      | searchDomains => exact ⟨flag₈, items₈⟩
      | dns => exact ⟨flag₇, items₇⟩

/-! ### Complete texts -/

/-- The texts of the configuration are the decoded native ones; lists that are marked may have
fewer. -/
structure Complete (interface : Option CString) (raw : IpInfo) (c : Configuration) : Prop where
  scalars : c.scalars = (raw.scalars interface).map (Option.map fromUtf8Lossy)
  lists : ∀ f, (c.list f).truncated = false → (c.list f).items = (raw.entries f).map fromUtf8Lossy

/-- What the supervisor reads of the configuration. -/
def Configuration.observed (c : Configuration) : Service.ScriptTun.Configuration where
  ipv4 := c.ipv4
  ipv6 := c.ipv6
  netmask6 := c.netmask6
  dns := { items := c.dns.items, truncated := c.dns.truncated }
  searchDomains := { items := c.searchDomains.items, truncated := c.searchDomains.truncated }
  mtu := c.mtu.map UInt32.toNat
  truncated := c.truncated

theorem cut_eq_iff {bytes : CString} :
    cut bytes = fromUtf8Lossy bytes ↔ (fromUtf8Lossy bytes).utf8ByteSize ≤ bytes.length := by
  rw [cut, fromUtf8Lossy, String.utf8ByteSize_ofList, String.ofList_inj]
  constructor
  · intro h
    have hlen := Utf8.utf8Len_take_le bytes.length (Utf8.decodeLossy bytes)
    rwa [h] at hlen
  · exact Utf8.take_of_utf8Len_le

theorem map_cut_eq_iff {texts : List CString} :
    texts.map cut = texts.map fromUtf8Lossy ↔
      ∀ t ∈ texts, (fromUtf8Lossy t).utf8ByteSize ≤ t.length := by
  rw [List.map_inj_left]
  exact forall₂_congr fun _ _ => cut_eq_iff

theorem optional_cut_eq_iff {values : List (Option CString)} :
    values.map (Option.map cut) = values.map (Option.map fromUtf8Lossy) ↔
      ∀ t ∈ values.flatMap Option.toList, (fromUtf8Lossy t).utf8ByteSize ≤ t.length := by
  rw [List.map_inj_left]
  constructor
  · intro h t ht
    obtain ⟨value, hvalue, ht⟩ := List.mem_flatMap.mp ht
    obtain rfl := Option.mem_toList.mp ht
    exact cut_eq_iff.mp (Option.some.inj (h _ hvalue))
  · intro h value hvalue
    cases value with
    | none => rfl
    | some t =>
      exact congrArg some (cut_eq_iff.mpr (h t (List.mem_flatMap.mpr ⟨_, hvalue, by simp⟩)))

theorem complete_iff {interface : Option CString} {raw : IpInfo} {c : Configuration}
    (hscalars : c.scalars = (raw.scalars interface).map (Option.map cut))
    (hlists : ∀ f, (c.list f).truncated = false ∧ (c.list f).items = (raw.entries f).map cut) :
    Complete interface raw c ↔
      ∀ t ∈ raw.natives interface, (fromUtf8Lossy t).utf8ByteSize ≤ t.length := by
  constructor
  · intro h t ht
    have hscalar := optional_cut_eq_iff.mp (hscalars.symm.trans h.scalars)
    have hlist : ∀ f, ∀ t ∈ raw.entries f, (fromUtf8Lossy t).utf8ByteSize ≤ t.length := fun f =>
      map_cut_eq_iff.mp ((hlists f).2.symm.trans (h.lists f (hlists f).1))
    simp only [IpInfo.natives, List.mem_append] at ht
    rcases ht with ((((ht | ht) | ht) | ht) | ht) | ht
    · exact hscalar t ht
    all_goals exact hlist _ t ht
  · intro h
    refine ⟨?_, fun f _ => ?_⟩
    · rw [hscalars, optional_cut_eq_iff]
      intro t ht
      refine h t ?_
      simp only [IpInfo.natives, List.mem_append]
      exact .inl (.inl (.inl (.inl (.inl ht))))
    · rw [(hlists f).2, map_cut_eq_iff]
      intro t ht
      refine h t ?_
      simp only [IpInfo.natives, List.mem_append]
      cases f <;> simp [ht]

/-! ### The supervisor -/

theorem mapM_parse_ne_truncated {α : Type} (parse : String → Option α) (f : String → String)
    (texts : List String) :
    texts.mapM (fun text => Service.ScriptTun.parseAddress parse (f text)) ≠ .error .truncated := by
  induction texts with
  | nil => simp [pure, Except.pure]
  | cons text texts ih =>
    rw [List.mapM_cons]
    refine bind_ne_error ?_ fun a => bind_ne_error ih fun as => by simp [pure, Except.pure]
    unfold Service.ScriptTun.parseAddress
    split <;> simp

theorem observedNetwork_truncated_iff {α : Type} (parse : String → Option α)
    (c : Service.ScriptTun.Configuration) : observedNetwork parse c = .error .truncated ↔
      (c.truncated || c.dns.truncated || c.searchDomains.truncated) = true := by
  by_cases hflag : (c.truncated || c.dns.truncated || c.searchDomains.truncated) = true
  · refine iff_of_true ?_ hflag
    unfold observedNetwork
    rw [if_pos hflag]
    rfl
  · refine iff_of_false ?_ hflag
    unfold observedNetwork
    rw [if_neg hflag]
    refine bind_ne_error (mapM_parse_ne_truncated parse _ _) fun addresses => ?_
    refine bind_ne_error (mapM_parse_ne_truncated parse id _) fun dns => ?_
    cases c.mtu with
    | none => simp [throw, throwThe, MonadExceptOf.throw, bind, Except.bind]
    | some mtu => simp [pure, Except.pure, bind, Except.bind]

/-- **Unmarked texts are complete** exactly if no native text is lengthened by decoding, or one of
them is over a limit or cannot be cut at its own length. The supervisor accepts no configuration
with a mark, so the same holds of the networks that it builds. -/
theorem unflagged_complete_iff (interface : Option CString) (raw : IpInfo) :
    ∃ c, configuration lossyUtf8 interface raw = some c ∧
      (∀ (α : Type) (parse : String → Option α),
        observedNetwork parse c.observed = .error .truncated ↔ c.truncated = true) ∧
      (((c.truncated = false → Complete interface raw c) ∧
          ∀ (α : Type) (parse : String → Option α) (n : NegotiatedNetwork α),
            observedNetwork parse c.observed = .ok n → Complete interface raw c) ↔
        (Fits interface raw →
          ∀ t ∈ raw.natives interface, (fromUtf8Lossy t).utf8ByteSize ≤ t.length)) := by
  obtain ⟨c, hc, hflag, hcut⟩ := configuration_flag interface raw
  have hmarks : (c.observed.truncated || c.observed.dns.truncated ||
      c.observed.searchDomains.truncated) = true ↔ c.truncated = true := by
    cases ht : c.truncated with
    | true => simp [Configuration.observed, ht]
    | false =>
      have hlists := (hcut ht).2
      have hdns : c.dns.truncated = false := (hlists .dns).1
      have hsearch : c.searchDomains.truncated = false := (hlists .searchDomains).1
      simp [Configuration.observed, ht, hdns, hsearch]
  have hrefused : ∀ (α : Type) (parse : String → Option α),
      observedNetwork parse c.observed = .error .truncated ↔ c.truncated = true := fun α parse =>
    (observedNetwork_truncated_iff parse c.observed).trans hmarks
  refine ⟨c, hc, hrefused, ?_⟩
  constructor
  · rintro ⟨hcomplete, -⟩ hfits
    have hunmarked := hflag.mpr hfits
    obtain ⟨hscalars, hlists⟩ := hcut hunmarked
    exact (complete_iff hscalars hlists).mp (hcomplete hunmarked)
  · intro hsame
    have hcomplete : c.truncated = false → Complete interface raw c := by
      intro hunmarked
      obtain ⟨hscalars, hlists⟩ := hcut hunmarked
      exact (complete_iff hscalars hlists).mpr (hsame (hflag.mp hunmarked))
    refine ⟨hcomplete, fun α parse n hn => hcomplete (Bool.eq_false_iff.mpr fun hmarked => ?_)⟩
    rw [(hrefused α parse).mpr hmarked] at hn
    cases hn

/-- A tunnel whose search domain begins with a byte that is not UTF-8. -/
def shortDomain : IpInfo where
  addr := none
  netmask := none
  addr6 := none
  netmask6 := none
  dns := .replicate 3 none
  domain := some [0xFF, 97, 98, 99]
  mtu := 1400
  splitDns := []
  splitIncludes := []
  splitExcludes := []
  gatewayAddr := none

/-- Of the domain only two characters are kept, nothing is marked, and the supervisor uses it. -/
theorem short_domain_unflagged :
    ∃ c, configuration lossyUtf8 none shortDomain = some c ∧ c.truncated = false ∧
      c.searchDomains.truncated = false ∧ c.searchDomains.items = ["\uFFFDa"] ∧
      fromUtf8Lossy [0xFF, 97, 98, 99] = "\uFFFDabc" ∧ ¬ Complete none shortDomain c ∧
      observedNetwork (fun _ => (none : Option Unit)) c.observed =
        .ok { addresses := [], dns := [], search := ["\uFFFDa"], mtu := 1400 } := by
  refine ⟨_, rfl, rfl, rfl, by decide, by decide, fun h => ?_, by decide⟩
  have hitems := h.lists .searchDomains rfl
  revert hitems
  decide

end GlobalProtect.Tunnel
