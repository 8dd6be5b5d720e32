import Mathlib.Data.List.Forall2
import Mathlib.Data.List.ReduceOption
import GlobalProtect.Lib.Runtime
import GlobalProtect.Tunnel.Normalize

/-! # Copying the native configuration

The model of `CopyBudget` and of `configuration` (`openconnect`, `ffi/tunnel.rs`): the texts of the
native library are copied within a budget of bytes that all of them share. A text is decoded, and
cut so that replacement characters do not take more than the bytes that were read. Entries of a list
are copied as a whole or left out, and all are counted.

Native texts are lists of bytes, `none` for a null pointer; `none` as a result stands for an
underflow of the budget. `Copied` is what holds of a list while its entries are copied
(`push_copied`), `Truthful` what an observer can rely on. `Truthful.trimmed` carries it through
trimming, so it still holds of what a client sees (`counts_truthful`). -/

namespace GlobalProtect.Tunnel

open Lib

/-! ### The copy -/

abbrev CString := List UInt8

/-- The bytes of a text. -/
def utf8Bytes (s : String) : CString := s.toByteArray.data.toList

/-- `String::from_utf8_lossy`: some text for any bytes, and the text itself for its own bytes. -/
structure LossyUtf8 where
  decode : CString → String
  decode_utf8Bytes : ∀ s, decode (utf8Bytes s) = s

def textLimit : ℕ := 1024

def copyBudget : ℕ := 16 * 1024

def listLimit : ℕ := 256

structure CopyBudget where
  remaining : ℕ := copyBudget
  truncated : Bool := false
  deriving DecidableEq, Repr

/-- `u32::saturating_add(1)`. -/
def saturatingSucc (n : UInt32) : UInt32 := if n.toNat + 1 < 2 ^ 32 then n + 1 else n

namespace CopyBudget

variable (lossy : LossyUtf8)

def text (b : CopyBudget) (bytes : CString) : Option (CopyBudget × String) :=
  let limit := min (min b.remaining textLimit) bytes.length
  let text := lossy.decode (bytes.take limit)
  let stop := Utf8.floorBoundary text.toList (min text.utf8ByteSize limit)
  let text := String.ofList (Utf8.take stop text.toList)
  (checkedSub b.remaining text.utf8ByteSize).map fun remaining =>
    ({ remaining, truncated := b.truncated || decide (stop < bytes.length) }, text)

/-- The scan for the end of the text is bounded too. -/
def optional (b : CopyBudget) : Option CString → Option (CopyBudget × Option String)
  | none => some (b, none)
  | some value => (b.text lossy (value.take (textLimit + 1))).map fun (b, text) => (b, some text)

def push (b : CopyBudget) (list : NativeList) (bytes : CString) :
    Option (CopyBudget × NativeList) :=
  let list := { list with totalCount := saturatingSucc list.totalCount }
  if listLimit ≤ list.items.length ∨ textLimit < bytes.length ∨ b.remaining < bytes.length then
    some ({ b with truncated := true }, { list with truncated := true })
  else
    (b.text lossy bytes).map fun (b, text) =>
      (b, { list with
        truncated := list.truncated || decide (text.utf8ByteSize ≠ bytes.length)
        items := list.items ++ [text] })

/-- Pushes the entries that are there, one after the other. -/
def pushEach (b : CopyBudget) (list : NativeList) :
    List (Option CString) → Option (CopyBudget × NativeList)
  | [] => some (b, list)
  | none :: entries => pushEach b list entries
  | some bytes :: entries =>
    (b.push lossy list bytes).bind fun (b, list) => pushEach b list entries

end CopyBudget

/-- `oc_ip_info`, as far as it is read. -/
structure IpInfo where
  addr : Option CString
  netmask : Option CString
  addr6 : Option CString
  netmask6 : Option CString
  dns : Vector (Option CString) 3
  domain : Option CString
  mtu : Int32
  splitDns : List (Option CString)
  splitIncludes : List (Option CString)
  splitExcludes : List (Option CString)
  gatewayAddr : Option CString

def isAsciiWhitespace (b : UInt8) : Bool := b = 32 || b = 9 || b = 10 || b = 12 || b = 13

/-- The words of the search list; between two blanks there is none. -/
def domains (domain : Option CString) : List (Option CString) :=
  match domain with
  | none => []
  | some domain =>
    (domain.splitOnP isAsciiWhitespace).map fun word => if word.isEmpty then none else some word

def configuration (lossy : LossyUtf8) (interface : Option CString) (raw : IpInfo) :
    Option Configuration := do
  let b : CopyBudget := {}
  let (b, interface) ← b.optional lossy interface
  let (b, ipv4) ← b.optional lossy raw.addr
  let (b, netmask) ← b.optional lossy raw.netmask
  let (b, ipv6) ← b.optional lossy raw.addr6
  let (b, netmask6) ← b.optional lossy raw.netmask6
  let (b, serverIp) ← b.optional lossy raw.gatewayAddr
  let mtu := if 0 < raw.mtu.toInt then some (UInt32.ofNat raw.mtu.toInt.toNat) else none
  let (b, dns) ← b.pushEach lossy {} raw.dns.toList
  let (b, searchDomains) ← b.pushEach lossy {} (domains raw.domain)
  let (b, splitDns) ← b.pushEach lossy {} raw.splitDns
  let (b, includedRoutes) ← b.pushEach lossy {} raw.splitIncludes
  let (b, excludedRoutes) ← b.pushEach lossy {} raw.splitExcludes
  some
    { interface := interface, ipv4 := ipv4, netmask := netmask, ipv6 := ipv6, netmask6 := netmask6
      serverIp := serverIp, dns := dns, searchDomains := searchDomains, splitDns := splitDns
      includedRoutes := includedRoutes, excludedRoutes := excludedRoutes, mtu := mtu
      truncated := b.truncated }

/-- The entries of a native list, in order. -/
def IpInfo.entries (raw : IpInfo) : ListField → List CString
  | .excludedRoutes => raw.splitExcludes.reduceOption
  | .includedRoutes => raw.splitIncludes.reduceOption
  | .splitDns => raw.splitDns.reduceOption
  | .searchDomains => (domains raw.domain).reduceOption
  | .dns => raw.dns.toList.reduceOption

/-! ### Texts -/

variable {lossy : LossyUtf8} {b : CopyBudget}

/-- The bytes that texts take together. -/
def bytesOf (texts : List String) : ℕ := (texts.map String.utf8ByteSize).sum

theorem bytesOf_append (texts texts' : List String) :
    bytesOf (texts ++ texts') = bytesOf texts + bytesOf texts' := by
  simp [bytesOf]

theorem length_utf8Bytes (s : String) : (utf8Bytes s).length = s.utf8ByteSize := rfl

/-- A text is always copied. It takes no more bytes than were there, and those are taken from the
budget; a text in UTF-8 that fits is copied as it is. -/
theorem text_spec (lossy : LossyUtf8) (b : CopyBudget) (bytes : CString) :
    ∃ b' s, b.text lossy bytes = some (b', s) ∧ s.utf8ByteSize ≤ textLimit ∧
      s.utf8ByteSize + b'.remaining = b.remaining ∧
      (bytes.length ≤ textLimit → bytes.length ≤ b.remaining →
        ∀ t, bytes = utf8Bytes t → s = t) := by
  have hstop : ∀ (t : String) (k : ℕ), String.ofList (Utf8.take
      (Utf8.floorBoundary t.toList (min t.utf8ByteSize k)) t.toList) =
      String.ofList (Utf8.take k t.toList) := by
    intro t k
    rw [Nat.min_comm, ← String.utf8Len_toList, Utf8.floorBoundary_min, Utf8.take_floorBoundary]
  unfold CopyBudget.text
  dsimp only
  rw [hstop]
  generalize hlimit : min (min b.remaining textLimit) bytes.length = limit
  generalize hdecoded : lossy.decode (bytes.take limit) = decoded
  have hsize := Utf8.size_ofList_take_le limit decoded.toList
  have hroom : checkedSub b.remaining
      (String.ofList (Utf8.take limit decoded.toList)).utf8ByteSize =
      some (b.remaining - (String.ofList (Utf8.take limit decoded.toList)).utf8ByteSize) :=
    checkedSub_eq_some.mpr (by omega)
  rw [hroom]
  refine ⟨_, _, rfl, by omega, by dsimp only; omega, ?_⟩
  intro hshort hfits t ht
  have hall : limit = bytes.length := by omega
  have hsame : decoded = t := by
    rw [← hdecoded, hall, List.take_length, ht, lossy.decode_utf8Bytes]
  have hwhole : Utf8.take limit t.toList = t.toList := by
    refine Utf8.take_of_utf8Len_le ?_
    rw [String.utf8Len_toList, ← length_utf8Bytes, ← ht, hall]
  rw [hsame, hwhole, String.ofList_toList]

theorem optional_spec (lossy : LossyUtf8) (b : CopyBudget) (value : Option CString) :
    ∃ b' o, b.optional lossy value = some (b', o) ∧ (∀ s ∈ o.toList, s.utf8ByteSize ≤ textLimit) ∧
      bytesOf o.toList + b'.remaining = b.remaining := by
  cases value with
  | none => exact ⟨b, none, rfl, by simp, by simp [bytesOf]⟩
  | some value =>
    obtain ⟨b', s, htext, hshort, hsum, -⟩ := text_spec lossy b (value.take (textLimit + 1))
    refine ⟨b', some s, ?_, by simpa using hshort, by simpa [bytesOf] using hsum⟩
    rw [CopyBudget.optional, htext]
    rfl

/-! ### Lists -/

/-- The item is what the entry reads: it has as many bytes, and is the text if that is UTF-8. -/
structure CopyOf (entry : CString) (item : String) : Prop where
  size : item.utf8ByteSize = entry.length
  same : ∀ t, entry = utf8Bytes t → item = t

/-- The entries have been copied to the list. -/
structure Copied (entries : List CString) (l : NativeList) : Prop where
  count : l.totalCount.toNat = entries.length
  fewer : l.items.length ≤ entries.length
  bounded : l.items.length ≤ listLimit
  short : ∀ s ∈ l.items, s.utf8ByteSize ≤ textLimit
  whole : l.truncated = false → List.Forall₂ CopyOf entries l.items

variable {entries : List CString} {l : NativeList}

theorem Copied.empty : Copied [] {} where
  count := rfl
  fewer := Nat.le_refl 0
  bounded := by decide
  short := by simp
  whole _ := .nil

theorem toNat_saturatingSucc {n : UInt32} (h : n.toNat + 1 < 2 ^ 32) :
    (saturatingSucc n).toNat = n.toNat + 1 := by
  rw [saturatingSucc, if_pos h, UInt32.toNat_add]
  exact Nat.mod_eq_of_lt h

theorem push_copied (lossy : LossyUtf8) (b : CopyBudget) (h : Copied entries l) (bytes : CString)
    (hlen : entries.length + 1 < 2 ^ 32) :
    ∃ b' l', b.push lossy l bytes = some (b', l') ∧ Copied (entries ++ [bytes]) l' ∧
      bytesOf l'.items + b'.remaining = bytesOf l.items + b.remaining := by
  have hcount : (saturatingSucc l.totalCount).toNat = (entries ++ [bytes]).length := by
    rw [toNat_saturatingSucc (by rw [h.count]; exact hlen), h.count, List.length_append]
    rfl
  have hfewer := h.fewer
  unfold CopyBudget.push
  dsimp only
  by_cases hskip : listLimit ≤ l.items.length ∨ textLimit < bytes.length ∨
      b.remaining < bytes.length
  · rw [if_pos hskip]
    refine ⟨_, _, rfl, ⟨hcount, ?_, h.bounded, h.short, fun ht => by cases ht⟩, rfl⟩
    rw [List.length_append]
    exact Nat.le_add_right_of_le hfewer
  · rw [if_neg hskip]
    obtain ⟨b', s, htext, hshort, hsum, hsame⟩ := text_spec lossy b bytes
    rw [htext]
    refine ⟨b', _, rfl, ⟨hcount, ?_, ?_, ?_, ?_⟩, ?_⟩
    · rw [List.length_append, List.length_append]
      exact Nat.add_le_add_right hfewer 1
    · rw [List.length_append]
      simp only [List.length_singleton]
      omega
    · intro t ht
      rcases List.mem_append.mp ht with ht | ht
      · exact h.short t ht
      · obtain rfl := List.mem_singleton.mp ht
        exact hshort
    · intro ht
      obtain ⟨hl, hs⟩ := Bool.or_eq_false_iff.mp ht
      have hsize : s.utf8ByteSize = bytes.length := by simpa using hs
      refine List.rel_append (h.whole hl) (.cons ⟨hsize, ?_⟩ .nil)
      exact hsame (by omega) (by omega)
    · rw [bytesOf_append]
      simp only [bytesOf, List.map_cons, List.map_nil, List.sum_cons, List.sum_nil]
      omega

theorem pushEach_copied (lossy : LossyUtf8) (values : List (Option CString)) :
    ∀ {b : CopyBudget} {entries : List CString} {l : NativeList}, Copied entries l →
      (entries ++ values.reduceOption).length < 2 ^ 32 →
      ∃ b' l', b.pushEach lossy l values = some (b', l') ∧
        Copied (entries ++ values.reduceOption) l' ∧
        bytesOf l'.items + b'.remaining = bytesOf l.items + b.remaining := by
  induction values with
  | nil =>
    intro b entries l h _
    exact ⟨b, l, rfl, by simpa using h, rfl⟩
  | cons value values ih =>
    intro b entries l h hlen
    cases value with
    | none => exact ih h (by simpa using hlen)
    | some bytes =>
      rw [List.reduceOption_cons_of_some, List.append_cons] at hlen ⊢
      have hnext : entries.length + 1 < 2 ^ 32 := by
        rw [List.length_append, List.length_append, List.length_singleton] at hlen
        omega
      obtain ⟨b₁, l₁, hpush, hcopied, hsum⟩ := push_copied lossy b h bytes hnext
      obtain ⟨b', l', heach, hall, hsum'⟩ := ih (b := b₁) hcopied hlen
      refine ⟨b', l', ?_, hall, by omega⟩
      rw [CopyBudget.pushEach, hpush, Option.bind_some]
      exact heach

/-! ### The configuration -/

namespace Configuration

def list (c : Configuration) : ListField → NativeList
  | .excludedRoutes => c.excludedRoutes
  | .includedRoutes => c.includedRoutes
  | .splitDns => c.splitDns
  | .searchDomains => c.searchDomains
  | .dns => c.dns

/-- All texts of the configuration. -/
def texts (c : Configuration) : List String :=
  c.interface.toList ++ c.ipv4.toList ++ c.netmask.toList ++ c.ipv6.toList ++ c.netmask6.toList ++
    c.serverIp.toList ++ c.dns.items ++ c.searchDomains.items ++ c.splitDns.items ++
    c.includedRoutes.items ++ c.excludedRoutes.items

end Configuration

theorem bind_of_eq_some {α β : Type} {x : Option α} {f : α → Option β} {a : α} {c : β}
    (h : x = some a) (hf : f a = some c) : x.bind f = some c := by
  rw [h, Option.bind_some, hf]

theorem configuration_spec (lossy : LossyUtf8) (interface : Option CString) (raw : IpInfo)
    (hlen : ∀ f, (raw.entries f).length < 2 ^ 32 - 1) :
    ∃ c, configuration lossy interface raw = some c ∧ (∀ f, Copied (raw.entries f) (c.list f)) ∧
      bytesOf c.texts ≤ copyBudget ∧ ∀ t ∈ c.texts, t.utf8ByteSize ≤ textLimit := by
  have hlist : ∀ (b : CopyBudget) (f : ListField) (values : List (Option CString)),
      values.reduceOption = raw.entries f → ∃ b' l', b.pushEach lossy {} values = some (b', l') ∧
        Copied (raw.entries f) l' ∧ bytesOf l'.items + b'.remaining = b.remaining := by
    intro b f values hvalues
    have hfits : ([] ++ values.reduceOption).length < 2 ^ 32 := by
      have := hlen f
      rw [List.nil_append, hvalues]
      omega
    obtain ⟨b', l', hpush, hcopied, hsum⟩ := pushEach_copied lossy values (b := b) .empty hfits
    rw [List.nil_append, hvalues] at hcopied
    exact ⟨b', l', hpush, hcopied, by simpa [bytesOf] using hsum⟩
  obtain ⟨b₁, interface', h₁, short₁, sum₁⟩ := optional_spec lossy {} interface
  obtain ⟨b₂, ipv4, h₂, short₂, sum₂⟩ := optional_spec lossy b₁ raw.addr
  obtain ⟨b₃, netmask, h₃, short₃, sum₃⟩ := optional_spec lossy b₂ raw.netmask
  obtain ⟨b₄, ipv6, h₄, short₄, sum₄⟩ := optional_spec lossy b₃ raw.addr6
  obtain ⟨b₅, netmask6, h₅, short₅, sum₅⟩ := optional_spec lossy b₄ raw.netmask6
  obtain ⟨b₆, serverIp, h₆, short₆, sum₆⟩ := optional_spec lossy b₅ raw.gatewayAddr
  obtain ⟨b₇, dns, h₇, copied₇, sum₇⟩ := hlist b₆ .dns raw.dns.toList rfl
  obtain ⟨b₈, search, h₈, copied₈, sum₈⟩ := hlist b₇ .searchDomains (domains raw.domain) rfl
  obtain ⟨b₉, split, h₉, copied₉, sum₉⟩ := hlist b₈ .splitDns raw.splitDns rfl
  obtain ⟨b₁₀, included, h₁₀, copied₁₀, sum₁₀⟩ := hlist b₉ .includedRoutes raw.splitIncludes rfl
  obtain ⟨b₁₁, excluded, h₁₁, copied₁₁, sum₁₁⟩ := hlist b₁₀ .excludedRoutes raw.splitExcludes rfl
  refine ⟨_, bind_of_eq_some h₁ <| bind_of_eq_some h₂ <| bind_of_eq_some h₃ <|
    bind_of_eq_some h₄ <| bind_of_eq_some h₅ <| bind_of_eq_some h₆ <| bind_of_eq_some h₇ <|
    bind_of_eq_some h₈ <| bind_of_eq_some h₉ <| bind_of_eq_some h₁₀ <| bind_of_eq_some h₁₁ rfl,
    ?_, ?_, ?_⟩
  · intro f
    cases f <;> assumption
  · have hstart : ({} : CopyBudget).remaining = copyBudget := rfl
    simp only [Configuration.texts, bytesOf_append]
    omega
  · intro t ht
    simp only [Configuration.texts, List.mem_append] at ht
    rcases ht with (((((((((ht | ht) | ht) | ht) | ht) | ht) | ht) | ht) | ht) | ht) | ht
    · exact short₁ t ht
    · exact short₂ t ht
    · exact short₃ t ht
    · exact short₄ t ht
    · exact short₅ t ht
    · exact short₆ t ht
    · exact copied₇.short t ht
    · exact copied₈.short t ht
    · exact copied₉.short t ht
    · exact copied₁₀.short t ht
    · exact copied₁₁.short t ht

/-! ### What observers see -/

/-- The list says how many entries there are, and whether it has all of them. -/
structure Truthful (entries : List CString) (l : TunnelList) : Prop where
  count : l.totalCount.toNat = entries.length
  fewer : l.items.length ≤ l.totalCount.toNat
  whole : l.truncated = false →
    l.items.length = l.totalCount.toNat ∧ List.Forall₂ CopyOf entries l.items

theorem Copied.truthful (h : Copied entries l) : Truthful entries l.toTunnelList where
  count := h.count
  fewer := h.fewer.trans_eq h.count.symm
  whole ht := ⟨(h.whole ht).length_eq.symm.trans h.count.symm, h.whole ht⟩

theorem Truthful.trimmed {l l' : TunnelList} (h : Truthful entries l) (ht : l.Trimmed l') :
    Truthful entries l' where
  count := by rw [ht.totalCount, h.count]
  fewer := by
    rw [ht.totalCount]
    exact Nat.le_trans ht.items.length_le h.fewer
  whole hwhole := by
    have hsame : l'.items = l.items := by
      by_contra hne
      rw [ht.truncated.mpr (Or.inr hne)] at hwhole
      cases hwhole
    have hbefore : l.truncated = false := by
      by_contra hmarked
      rw [ht.truncated.mpr (Or.inl (Bool.not_eq_false _ ▸ hmarked))] at hwhole
      cases hwhole
    rw [ht.totalCount, hsame]
    exact h.whole hbefore

/-- The configuration after it was made to fit several times. -/
def TunnelConfiguration.limitAll (c : TunnelConfiguration) (limits : List ℕ) :
    TunnelConfiguration :=
  limits.foldl (fun c limit => (c.limitEncodedSize limit).1) c

theorem truthful_limitAll {raw : IpInfo} (limits : List ℕ) {c : TunnelConfiguration}
    (h : ∀ f, Truthful (raw.entries f) (c.list f)) :
    ∀ f, Truthful (raw.entries f) ((c.limitAll limits).list f) := by
  induction limits generalizing c with
  | nil => exact h
  | cons limit limits ih =>
    exact ih fun f => (h f).trimmed ((c.trimmed_limitEncodedSize limit).list f)

theorem list_untrimmed (p : Parsers) (c : Configuration) (f : ListField) :
    (p.untrimmed c).list f = (c.list f).toTunnelList := by
  cases f <;> rfl

/-- **Counts are truthful**: copying the native configuration never exceeds the budget, and what is
copied is within the limits. Every list says how many entries the native one has, and has all of
them in order unless it is marked; this still holds after the configuration was normalized and made
to fit any number of times. -/
theorem counts_truthful (lossy : LossyUtf8) (interface : Option CString) (raw : IpInfo)
    (hlen : ∀ f, (raw.entries f).length < 2 ^ 32 - 1) :
    ∃ c, configuration lossy interface raw = some c ∧
      (∀ f, Truthful (raw.entries f) (c.list f).toTunnelList) ∧
      (∀ (p : Parsers) (limits : List ℕ), ∃ c', p.normalize c = some c' ∧
        ∀ f, Truthful (raw.entries f) ((c'.limitAll limits).list f)) ∧
      bytesOf c.texts ≤ copyBudget ∧ (∀ t ∈ c.texts, t.utf8ByteSize ≤ textLimit) ∧
      ∀ f, (c.list f).items.length ≤ listLimit := by
  obtain ⟨c, hc, hcopied, hbudget, hshort⟩ := configuration_spec lossy interface raw hlen
  refine ⟨c, hc, fun f => (hcopied f).truthful, fun p limits => ?_, hbudget, hshort,
    fun f => (hcopied f).bounded⟩
  refine ⟨_, normalize_eq p c, truthful_limitAll limits fun f => ?_⟩
  refine Truthful.trimmed ?_ (((p.untrimmed c).trimmed_limitEncodedSize _).list f)
  rw [list_untrimmed]
  exact (hcopied f).truthful

/-- A decoder that replaces all of what is not UTF-8. -/
def wholeUtf8 : LossyUtf8 where
  decode bytes := (String.fromUTF8? ⟨bytes.toArray⟩).getD "\uFFFD"
  decode_utf8Bytes s := by
    have hbytes : (⟨(utf8Bytes s).toArray⟩ : ByteArray) = s.toByteArray := rfl
    rw [hbytes, String.fromUTF8?, dif_pos s.isValidUTF8]
    rfl

def sampleInfo : IpInfo where
  addr := none
  netmask := none
  addr6 := none
  netmask6 := none
  dns := #v[none, none, none]
  domain := some [97, 32, 32, 98]
  mtu := 1400
  splitDns := []
  splitIncludes := [some [49, 48], none]
  splitExcludes := []
  gatewayAddr := none

/-- Both domains are counted. -/
theorem counts_truthful_domains :
    ∃ c, configuration wholeUtf8 none sampleInfo = some c ∧
      c.searchDomains.totalCount.toNat = 2 := by
  obtain ⟨c, hc, htruthful, -⟩ := counts_truthful wholeUtf8 none sampleInfo
    (fun f => by cases f <;> decide)
  exact ⟨c, hc, (htruthful .searchDomains).count⟩

end GlobalProtect.Tunnel
