import GlobalProtect.Tunnel.Configuration

/-! # What trimming leaves of a configuration

`Trimmed c c'` says how `c'` can be less than `c`: the lists are beginnings of what they were, with
the same counts and truthful flags, and a list has lost items only if those before it in the order
are empty; texts are beginnings of what they were, an address is whole or the longest beginning of
128 bytes, and texts have changed only if all lists are empty. Every step of the loop keeps it
(`Trimmed.step`), so it relates a configuration to the result of `limitEncodedSize`
(`trimmed_limitEncodedSize`).

A run that takes all steps ends in a configuration that is small whatever it was before
(`Exhausted.encodedSize_le`), as only two addresses of 128 bytes are left. -/

namespace GlobalProtect.Tunnel

open Lib

open String (utf8Len)

/-! ### The relation -/

/-- The text is a beginning of the other one. -/
def Begins (s s' : String) : Prop := s'.toList <+: s.toList

/-- The longest beginning that has at most so many bytes. -/
structure LongestBeginning (k : ℕ) (s s' : String) : Prop where
  begins : Begins s s'
  fits : s'.utf8ByteSize ≤ k
  longest : ∀ t, Begins s t → t.utf8ByteSize ≤ k → Begins s' t

structure TunnelList.Trimmed (l l' : TunnelList) : Prop where
  items : l'.items <+: l.items
  totalCount : l'.totalCount = l.totalCount
  truncated : l'.truncated = true ↔ l.truncated = true ∨ l'.items ≠ l.items

structure TunnelAddress.Trimmed (a a' : TunnelAddress) : Prop where
  netmask : Option.Rel Begins a.netmask a'.netmask
  address : (a'.address = a.address ∧ a'.prefixLength = a.prefixLength) ∨
    (addressLimit < a.address.utf8ByteSize ∧ LongestBeginning addressLimit a.address a'.address ∧
      a'.prefixLength = none)

/-- The texts of a configuration. -/
def TunnelConfiguration.texts (c : TunnelConfiguration) :
    Option String × Option String × Option TunnelAddress × Option TunnelAddress :=
  (c.interface, c.serverIp, c.ipv4, c.ipv6)

structure TunnelConfiguration.Trimmed (c c' : TunnelConfiguration) : Prop where
  list : ∀ f, (c.list f).Trimmed (c'.list f)
  order : ∀ f g, g.rank < f.rank → (c'.list f).items ≠ (c.list f).items → (c'.list g).items = []
  interface : Option.Rel Begins c.interface c'.interface
  serverIp : Option.Rel Begins c.serverIp c'.serverIp
  ipv4 : Option.Rel TunnelAddress.Trimmed c.ipv4 c'.ipv4
  ipv6 : Option.Rel TunnelAddress.Trimmed c.ipv6 c'.ipv6
  texts : c'.texts ≠ c.texts → ∀ f, (c'.list f).items = []
  mtu : c'.mtu = c.mtu

/-! ### Texts and addresses -/

theorem rel_refl {α : Type*} {r : α → α → Prop} (hr : ∀ a, r a a) : ∀ o, Option.Rel r o o
  | none => .none
  | some a => .some (hr a)

theorem begins_truncate (s : String) (k : ℕ) : Begins s (Utf8.truncate s k) := by
  unfold Begins
  rw [Utf8.toList_truncate]
  exact Utf8.take_prefix_self k s.toList

theorem longestBeginning_truncate (s : String) (k : ℕ) :
    LongestBeginning k s (Utf8.truncate s k) where
  begins := begins_truncate s k
  fits := Utf8.size_truncate_le s k
  longest t ht hk := by
    unfold Begins
    rw [Utf8.toList_truncate]
    exact Utf8.prefix_take ht (by rwa [String.utf8Len_toList])

theorem rel_map {α : Type*} {r : α → α → Prop} {g : α → α} {o o' : Option α}
    (h : Option.Rel r o o') (hg : ∀ a b, o' = some b → r a b → r a (g b)) :
    Option.Rel r o (o'.map g) := by
  cases h with
  | some h => exact .some (hg _ _ rfl h)
  | none => exact .none

theorem rel_truncate {o : Option String} {s : String} (h : Option.Rel Begins o (some s)) (k : ℕ) :
    Option.Rel Begins o (some (Utf8.truncate s k)) := by
  cases h with
  | some h => exact .some ((begins_truncate s k).trans h)

namespace TunnelAddress

variable {a a' : TunnelAddress}

theorem Trimmed.refl (a : TunnelAddress) : a.Trimmed a :=
  ⟨rel_refl (fun s => List.prefix_refl s.toList) a.netmask, Or.inl ⟨rfl, rfl⟩⟩

theorem Trimmed.shorten (h : a.Trimmed a') : a.Trimmed a'.shorten := by
  unfold TunnelAddress.shorten
  split_ifs with hlong
  · refine ⟨h.netmask, Or.inr ?_⟩
    rcases h.address with ⟨hsame, -⟩ | ⟨-, hshort, -⟩
    · rw [← hsame]
      exact ⟨hlong, longestBeginning_truncate a'.address addressLimit, rfl⟩
    · have := hshort.fits
      omega
  · exact h

theorem Trimmed.halve (h : a.Trimmed a') {s : String} (hs : a'.netmask = some s) (k : ℕ) :
    a.Trimmed { a' with netmask := some (Utf8.truncate s k) } :=
  ⟨rel_truncate (hs ▸ h.netmask) k, h.address⟩

theorem size_shorten_le (a : TunnelAddress) : a.shorten.address.utf8ByteSize ≤ addressLimit := by
  unfold TunnelAddress.shorten
  split_ifs with hlong
  · exact Utf8.size_truncate_le a.address addressLimit
  · omega

end TunnelAddress

/-! ### The steps -/

namespace TunnelConfiguration

variable {c c' x : TunnelConfiguration}

theorem Trimmed.refl (c : TunnelConfiguration) : c.Trimmed c where
  list f := ⟨List.prefix_refl _, rfl, by simp⟩
  order f g _ h := absurd rfl h
  interface := rel_refl (fun s => List.prefix_refl s.toList) c.interface
  serverIp := rel_refl (fun s => List.prefix_refl s.toList) c.serverIp
  ipv4 := rel_refl TunnelAddress.Trimmed.refl c.ipv4
  ipv6 := rel_refl TunnelAddress.Trimmed.refl c.ipv6
  texts h := absurd rfl h
  mtu := rfl

theorem Trimmed.flag (h : c.Trimmed x) : c.Trimmed x.flag where
  list f := by rw [list_flag]; exact h.list f
  order f g hg hf := by
    rw [list_flag] at hf ⊢
    exact h.order f g hg hf
  interface := h.interface
  serverIp := h.serverIp
  ipv4 := h.ipv4
  ipv6 := h.ipv6
  texts ht f := by rw [list_flag]; exact h.texts ht f
  mtu := h.mtu

theorem TunnelList.Trimmed.pop {l l' : TunnelList} (h : l.Trimmed l') (hne : l'.items ≠ []) :
    l.Trimmed { l' with items := l'.items.dropLast, truncated := true } where
  items := (List.dropLast_prefix l'.items).trans h.items
  totalCount := h.totalCount
  truncated := by
    refine iff_of_true rfl (Or.inr fun heq => ?_)
    have hlen := congrArg List.length heq
    have hpos := List.length_pos_iff.mpr hne
    have hle := h.items.length_le
    rw [List.length_dropLast] at hlen
    omega

theorem texts_pop (x : TunnelConfiguration) (f : ListField) : (x.pop f).texts = x.texts := by
  cases f <;> rfl

theorem Trimmed.pop (h : c.Trimmed x) {f : ListField} (hne : (x.list f).items ≠ [])
    (hfirst : ∀ g, g.rank < f.rank → (x.list g).items = []) : c.Trimmed (x.pop f) := by
  have hlist : ∀ g, (x.pop f).list g = if g = f then
      { x.list f with items := (x.list f).items.dropLast, truncated := true } else x.list g :=
    fun g => list_setList x _ f g
  have hempty : ∀ g, (x.list g).items = [] → ((x.pop f).list g).items = [] := by
    intro g hg
    rw [hlist]
    split_ifs with hgf
    · exact absurd (hgf ▸ hg) hne
    · exact hg
  constructor
  · intro g
    rw [hlist]
    split_ifs with hgf
    · rw [hgf]
      exact TunnelList.Trimmed.pop (h.list f) hne
    · exact h.list g
  · intro k g hg hk
    by_cases hkf : k = f
    · exact hempty g (hfirst g (hkf ▸ hg))
    · rw [hlist, if_neg hkf] at hk
      exact hempty g (h.order k g hg hk)
  · cases f <;> exact h.interface
  · cases f <;> exact h.serverIp
  · cases f <;> exact h.ipv4
  · cases f <;> exact h.ipv6
  · intro ht g
    rw [texts_pop] at ht
    exact absurd (h.texts ht f) hne
  · cases f <;> exact h.mtu

theorem Trimmed.of_lists_eq (h : c.Trimmed x) (hlists : ∀ f, (x.list f).items = [])
    {y : TunnelConfiguration} (hlist : ∀ f, y.list f = x.list f) (hmtu : y.mtu = x.mtu)
    (hinterface : Option.Rel Begins c.interface y.interface)
    (hserverIp : Option.Rel Begins c.serverIp y.serverIp)
    (hipv4 : Option.Rel TunnelAddress.Trimmed c.ipv4 y.ipv4)
    (hipv6 : Option.Rel TunnelAddress.Trimmed c.ipv6 y.ipv6) : c.Trimmed y where
  list f := by rw [hlist]; exact h.list f
  order f g _ _ := by rw [hlist, hlists]
  interface := hinterface
  serverIp := hserverIp
  ipv4 := hipv4
  ipv6 := hipv6
  texts _ f := by rw [hlist, hlists]
  mtu := hmtu.trans h.mtu

theorem Trimmed.shortenAddresses (h : c.Trimmed x) (hlists : ∀ f, (x.list f).items = []) :
    c.Trimmed x.shortenAddresses :=
  h.of_lists_eq hlists (list_shortenAddresses x) rfl h.interface h.serverIp
    (rel_map h.ipv4 fun _ _ _ ha => ha.shorten) (rel_map h.ipv6 fun _ _ _ ha => ha.shorten)

theorem Trimmed.halve (h : c.Trimmed x) (hlists : ∀ f, (x.list f).items = []) {f : TextField}
    {s : String} (hs : x.text f = some s) (k : ℕ) :
    c.Trimmed (x.setText (Utf8.truncate s k) f) := by
  have hlist := list_setText x (Utf8.truncate s k) f
  cases f with
  | interface =>
    have hinterface : Option.Rel Begins c.interface (some s) := hs ▸ h.interface
    exact h.of_lists_eq hlists hlist rfl (rel_truncate hinterface k) h.serverIp h.ipv4 h.ipv6
  | serverIp =>
    have hserverIp : Option.Rel Begins c.serverIp (some s) := hs ▸ h.serverIp
    exact h.of_lists_eq hlists hlist rfl h.interface (rel_truncate hserverIp k) h.ipv4 h.ipv6
  | netmask =>
    have hmask : ∀ b, x.ipv4 = some b → b.netmask = some s := by
      intro b hb
      have hmask : x.ipv4.bind (·.netmask) = some s := hs
      rwa [hb] at hmask
    have hipv4 : Option.Rel TunnelAddress.Trimmed c.ipv4
        (x.setText (Utf8.truncate s k) .netmask).ipv4 :=
      rel_map h.ipv4 fun _ b hb ha => ha.halve (hmask b hb) k
    exact h.of_lists_eq hlists hlist rfl h.interface h.serverIp hipv4 h.ipv6
  | netmask6 =>
    have hmask : ∀ b, x.ipv6 = some b → b.netmask = some s := by
      intro b hb
      have hmask : x.ipv6.bind (·.netmask) = some s := hs
      rwa [hb] at hmask
    have hipv6 : Option.Rel TunnelAddress.Trimmed c.ipv6
        (x.setText (Utf8.truncate s k) .netmask6).ipv6 :=
      rel_map h.ipv6 fun _ b hb ha => ha.halve (hmask b hb) k
    exact h.of_lists_eq hlists hlist rfl h.interface h.serverIp h.ipv4 hipv6

theorem Trimmed.step (h : c.Trimmed x) {r : Shrunk TunnelConfiguration} (hs : Step x r) :
    c.Trimmed r.value ∧ r.value.truncated = true := by
  have hflag : ∀ f, x.flag.list f = x.list f := list_flag x
  cases hs with
  | @popped f hitems hfirst =>
    refine ⟨h.flag.pop (by rwa [hflag]) fun g hg => by rw [hflag, hfirst g hg], ?_⟩
    cases f <;> rfl
  | @halved f text hlists htext hne =>
    have hempty : ∀ g, (x.flag.list g).items = [] := fun g => by rw [hflag, hlists]
    refine ⟨(h.flag.shortenAddresses hempty).halve (fun g => ?_) ?_ _, ?_⟩
    · rw [list_shortenAddresses, hempty]
    · rw [text_shortenAddresses, text_flag, htext]
    · cases f <;> rfl
  | exhausted hlists htexts =>
    exact ⟨h.flag.shortenAddresses fun g => by rw [hflag, hlists], rfl⟩

/-! ### The loop -/

theorem limitEncodedSize_snd (c : TunnelConfiguration) (limit : ℕ) :
    (c.limitEncodedSize limit).2 = decide ((c.limitEncodedSize limit).1.encodedSize ≤ limit) :=
  trimmer.run_snd _ c

theorem limitEncodedSize_of_fits {limit : ℕ} (h : c.encodedSize ≤ limit) :
    c.limitEncodedSize limit = (c, true) :=
  Shrinker.run_of_fits (S := trimmer) (decide_eq_true h)

theorem trimmed_limitEncodedSize (c : TunnelConfiguration) (limit : ℕ) :
    c.Trimmed (c.limitEncodedSize limit).1 :=
  Shrinker.run_invariant (S := trimmer) (fun x hx => (hx.step (trim_cases x)).1) (.refl c)

theorem truncated_limitEncodedSize {limit : ℕ} (h : limit < c.encodedSize) :
    (c.limitEncodedSize limit).1.truncated = true :=
  Shrinker.run_stepped (S := trimmer) (P := fun x => x.truncated = true)
    (fun x => ((Trimmed.refl x).step (trim_cases x)).2) (decide_eq_false (by omega))

/-- The configuration after all steps. -/
def fullyTrimmed (c : TunnelConfiguration) : TunnelConfiguration := trimmer.exhaust c

theorem limitEncodedSize_fails {limit : ℕ} (h : (c.limitEncodedSize limit).2 = false) :
    (c.limitEncodedSize limit).1 = c.fullyTrimmed :=
  Shrinker.run_fails h

/-! ### Nothing left to take away -/

structure Exhausted (c : TunnelConfiguration) : Prop where
  lists : ∀ f, (c.list f).items = []
  texts : ∀ f, c.textSize f = 0
  ipv4 : ∀ a, c.ipv4 = some a → a.address.utf8ByteSize ≤ addressLimit
  ipv6 : ∀ a, c.ipv6 = some a → a.address.utf8ByteSize ≤ addressLimit

theorem exhausted_fullyTrimmed (c : TunnelConfiguration) : c.fullyTrimmed.Exhausted := by
  obtain ⟨x, hx⟩ := trimmer.exists_done c
  have hcases := trim_cases x
  rw [show x.trim = .done c.fullyTrimmed from hx] at hcases
  generalize c.fullyTrimmed = y at hcases
  cases hcases with
  | exhausted hlists htexts =>
    constructor
    · intro f
      rw [list_shortenAddresses, list_flag, hlists]
    · intro f
      rw [textSize, text_shortenAddresses, text_flag]
      exact htexts f
    · intro a ha
      obtain ⟨b, -, rfl⟩ := Option.map_eq_some_iff.mp ha
      exact b.size_shorten_le
    · intro a ha
      obtain ⟨b, -, rfl⟩ := Option.map_eq_some_iff.mp ha
      exact b.size_shorten_le

end TunnelConfiguration

theorem TunnelList.size_toJson_le {l : TunnelList} (h : l.items = []) : l.toJson.size ≤ 54 := by
  have hcount : (Json.number l.totalCount.toNat).size ≤ 10 :=
    Json.size_number_le (by decide) (Nat.lt_trans l.totalCount.toNat_lt (by decide))
  have hflag := Json.size_bool_le l.truncated
  have hnames : Json.quotedSize "items" = 7 ∧ Json.quotedSize "totalCount" = 12 ∧
      Json.quotedSize "truncated" = 11 := ⟨rfl, rfl, rfl⟩
  rw [TunnelList.toJson, Json.size_object, h]
  simp only [List.map_cons, List.map_nil, List.sum_cons, List.sum_nil, List.length_cons,
    List.length_nil, Json.fieldSize, Json.size_array_nil]
  omega

theorem size_empty_le {o : Option String} (h : ∀ s, o = some s → s.utf8ByteSize = 0) :
    (Json.ofOption Json.string o).size ≤ 4 := by
  refine Json.size_ofOption_le (Nat.le_refl 4) fun s hs => ?_
  have hsize := Json.size_string_le s
  rw [h s hs] at hsize
  omega

theorem TunnelAddress.size_toJson_le {a : TunnelAddress}
    (haddress : a.address.utf8ByteSize ≤ addressLimit)
    (hmask : ∀ s, a.netmask = some s → s.utf8ByteSize = 0) : a.toJson.size ≤ 817 := by
  have hsize := Json.size_string_le a.address
  have hmask := size_empty_le hmask
  have hlength : (Json.ofOption (fun n : UInt8 => .number n.toNat) a.prefixLength).size ≤ 4 := by
    refine Json.size_ofOption_le (Nat.le_refl 4) fun n _ => ?_
    exact Json.size_number_le (by decide) (Nat.lt_trans n.toNat_lt (by decide))
  have hnames : Json.quotedSize "address" = 9 ∧ Json.quotedSize "netmask" = 9 ∧
      Json.quotedSize "prefixLength" = 14 := ⟨rfl, rfl, rfl⟩
  rw [TunnelAddress.toJson, Json.size_object]
  simp only [List.map_cons, List.map_nil, List.sum_cons, List.sum_nil, List.length_cons,
    List.length_nil, Json.fieldSize]
  unfold addressLimit at haddress
  omega

namespace TunnelConfiguration

variable {c : TunnelConfiguration}

theorem textSize_zero {f : TextField} (h : c.textSize f = 0) :
    ∀ s, c.text f = some s → s.utf8ByteSize = 0 := by
  intro s hs
  rwa [textSize, hs] at h

/-- What is left after all steps has a bounded size. -/
theorem Exhausted.encodedSize_le (h : c.Exhausted) : c.encodedSize ≤ 2061 := by
  have hinterface := size_empty_le (textSize_zero (h.texts .interface))
  have hserverIp := size_empty_le (textSize_zero (h.texts .serverIp))
  have hipv4 : (Json.ofOption TunnelAddress.toJson c.ipv4).size ≤ 817 := by
    refine Json.size_ofOption_le (by decide) fun a ha => ?_
    refine TunnelAddress.size_toJson_le (h.ipv4 a ha) fun s hs => ?_
    exact textSize_zero (h.texts .netmask) s (by rw [text, ha, Option.bind_some, hs])
  have hipv6 : (Json.ofOption TunnelAddress.toJson c.ipv6).size ≤ 817 := by
    refine Json.size_ofOption_le (by decide) fun a ha => ?_
    refine TunnelAddress.size_toJson_le (h.ipv6 a ha) fun s hs => ?_
    exact textSize_zero (h.texts .netmask6) s (by rw [text, ha, Option.bind_some, hs])
  have hmtu : (Json.ofOption (fun n : UInt32 => .number n.toNat) c.mtu).size ≤ 10 := by
    refine Json.size_ofOption_le (by decide) fun n _ => ?_
    exact Json.size_number_le (by decide) (Nat.lt_trans n.toNat_lt (by decide))
  have hdns := TunnelList.size_toJson_le (h.lists .dns)
  have hsearch := TunnelList.size_toJson_le (h.lists .searchDomains)
  have hsplit := TunnelList.size_toJson_le (h.lists .splitDns)
  have hincluded := TunnelList.size_toJson_le (h.lists .includedRoutes)
  have hexcluded := TunnelList.size_toJson_le (h.lists .excludedRoutes)
  have hflag := Json.size_bool_le c.truncated
  have hnames : Json.quotedSize "interface" = 11 ∧ Json.quotedSize "ipv4" = 6 ∧
      Json.quotedSize "ipv6" = 6 ∧ Json.quotedSize "serverIp" = 10 ∧ Json.quotedSize "dns" = 5 ∧
      Json.quotedSize "searchDomains" = 15 ∧ Json.quotedSize "splitDns" = 10 ∧
      Json.quotedSize "includedRoutes" = 16 ∧ Json.quotedSize "excludedRoutes" = 16 ∧
      Json.quotedSize "mtu" = 5 ∧ Json.quotedSize "truncated" = 11 :=
    ⟨rfl, rfl, rfl, rfl, rfl, rfl, rfl, rfl, rfl, rfl, rfl⟩
  rw [encodedSize, toJson, Json.size_object]
  simp only [List.map_cons, List.map_nil, List.sum_cons, List.sum_nil, List.length_cons,
    List.length_nil, Json.fieldSize]
  simp only [text, list] at hinterface hserverIp hdns hsearch hsplit hincluded hexcluded
  omega

theorem limitEncodedSize_succeeds (c : TunnelConfiguration) {limit : ℕ} (h : 2061 ≤ limit) :
    (c.limitEncodedSize limit).2 = true := by
  by_contra hfails
  have hlast := limitEncodedSize_fails (Bool.eq_false_iff.mpr hfails)
  have hsmall := c.exhausted_fullyTrimmed.encodedSize_le
  rw [limitEncodedSize_snd, hlast, decide_eq_true_iff] at hfails
  omega

end TunnelConfiguration

end GlobalProtect.Tunnel
