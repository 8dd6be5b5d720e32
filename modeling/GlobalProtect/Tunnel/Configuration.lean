import GlobalProtect.Lib.Json
import GlobalProtect.Lib.Shrink

/-! # The observed configuration of a tunnel

The model of `TunnelConfiguration` and of `limit_encoded_size` (`gpapi`, `tunnel.rs`), which makes a
configuration fit in a number of bytes: it removes the last item of the first list that has one, and
once all lists are empty it cuts the addresses and halves the longest of the other texts. The size
is that of the JSON text that the service sends.

The five lists and the four texts are named (`ListField`, `TextField`), so that the steps and the
lemmas are about any of them. `trim` is the body of the loop, with `trim_cases` for what it can do;
the loop is the run of a `Shrinker`, and every text in its result is a beginning of the text before.
-/

namespace GlobalProtect.Tunnel

open Lib

/-! ### Data -/

structure TunnelList where
  items : List String := []
  totalCount : UInt32 := 0
  truncated : Bool := false
  deriving DecidableEq, Repr

structure TunnelAddress where
  address : String
  netmask : Option String
  prefixLength : Option UInt8
  deriving DecidableEq, Repr

structure TunnelConfiguration where
  interface : Option String := none
  ipv4 : Option TunnelAddress := none
  ipv6 : Option TunnelAddress := none
  serverIp : Option String := none
  dns : TunnelList := {}
  searchDomains : TunnelList := {}
  splitDns : TunnelList := {}
  includedRoutes : TunnelList := {}
  excludedRoutes : TunnelList := {}
  mtu : Option UInt32 := none
  truncated : Bool := false
  deriving DecidableEq, Repr

def maxConfigurationBytes : ℕ := 16 * 1024

/-! ### The encoding -/

def TunnelList.toJson (l : TunnelList) : Json :=
  .object [("items", .array (l.items.map .string)), ("totalCount", .number l.totalCount.toNat),
    ("truncated", .bool l.truncated)]

def TunnelAddress.toJson (a : TunnelAddress) : Json :=
  .object [("address", .string a.address), ("netmask", .ofOption .string a.netmask),
    ("prefixLength", .ofOption (fun n => .number n.toNat) a.prefixLength)]

def TunnelConfiguration.toJson (c : TunnelConfiguration) : Json :=
  .object [("interface", .ofOption .string c.interface),
    ("ipv4", .ofOption TunnelAddress.toJson c.ipv4),
    ("ipv6", .ofOption TunnelAddress.toJson c.ipv6),
    ("serverIp", .ofOption .string c.serverIp),
    ("dns", c.dns.toJson), ("searchDomains", c.searchDomains.toJson),
    ("splitDns", c.splitDns.toJson), ("includedRoutes", c.includedRoutes.toJson),
    ("excludedRoutes", c.excludedRoutes.toJson),
    ("mtu", .ofOption (fun n => .number n.toNat) c.mtu), ("truncated", .bool c.truncated)]

/-- The bytes of the JSON text. -/
def TunnelConfiguration.encodedSize (c : TunnelConfiguration) : ℕ := c.toJson.size

/-! ### Lists and texts by name -/

inductive ListField where
  | excludedRoutes
  | includedRoutes
  | splitDns
  | searchDomains
  | dns
  deriving DecidableEq, Repr

/-- The order in which the lists are emptied. -/
def ListField.order : List ListField :=
  [.excludedRoutes, .includedRoutes, .splitDns, .searchDomains, .dns]

/-- The place in the order. -/
def ListField.rank : ListField → ℕ
  | .excludedRoutes => 0
  | .includedRoutes => 1
  | .splitDns => 2
  | .searchDomains => 3
  | .dns => 4

/-- The texts that are halved. -/
inductive TextField where
  | interface
  | serverIp
  | netmask
  | netmask6
  deriving DecidableEq, Repr

namespace TunnelConfiguration

def list (c : TunnelConfiguration) : ListField → TunnelList
  | .excludedRoutes => c.excludedRoutes
  | .includedRoutes => c.includedRoutes
  | .splitDns => c.splitDns
  | .searchDomains => c.searchDomains
  | .dns => c.dns

def setList (c : TunnelConfiguration) (l : TunnelList) : ListField → TunnelConfiguration
  | .excludedRoutes => { c with excludedRoutes := l }
  | .includedRoutes => { c with includedRoutes := l }
  | .splitDns => { c with splitDns := l }
  | .searchDomains => { c with searchDomains := l }
  | .dns => { c with dns := l }

def text (c : TunnelConfiguration) : TextField → Option String
  | .interface => c.interface
  | .serverIp => c.serverIp
  | .netmask => c.ipv4.bind (·.netmask)
  | .netmask6 => c.ipv6.bind (·.netmask)

def setText (c : TunnelConfiguration) (s : String) : TextField → TunnelConfiguration
  | .interface => { c with interface := some s }
  | .serverIp => { c with serverIp := some s }
  | .netmask => { c with ipv4 := c.ipv4.map fun a => { a with netmask := some s } }
  | .netmask6 => { c with ipv6 := c.ipv6.map fun a => { a with netmask := some s } }

/-- `scalars`: the netmasks are among the texts if there is an address. -/
def scalars (c : TunnelConfiguration) : List TextField :=
  [.interface, .serverIp] ++ (if c.ipv4.isSome then [.netmask] else []) ++
    (if c.ipv6.isSome then [.netmask6] else [])

def textSize (c : TunnelConfiguration) (f : TextField) : ℕ :=
  match c.text f with
  | some text => text.utf8ByteSize
  | none => 0

end TunnelConfiguration

/-! ### The loop -/

/-- `max_by_key`: of several greatest elements, the last one. -/
def maxByKey {α : Type*} (key : α → ℕ) : List α → Option α
  | [] => none
  | a :: rest => some (rest.foldl (fun best b => if key best ≤ key b then b else best) a)

def addressLimit : ℕ := 128

def TunnelAddress.shorten (a : TunnelAddress) : TunnelAddress :=
  if addressLimit < a.address.utf8ByteSize then
    { a with address := Utf8.truncate a.address addressLimit, prefixLength := none }
  else a

namespace TunnelConfiguration

def pop (c : TunnelConfiguration) (f : ListField) : TunnelConfiguration :=
  c.setList { c.list f with items := (c.list f).items.dropLast, truncated := true } f

def shortenAddresses (c : TunnelConfiguration) : TunnelConfiguration :=
  { c with
    ipv4 := c.ipv4.map TunnelAddress.shorten
    ipv6 := c.ipv6.map TunnelAddress.shorten }

def flag (c : TunnelConfiguration) : TunnelConfiguration := { c with truncated := true }

/-- The body of the loop. -/
def trim (c : TunnelConfiguration) : Shrunk TunnelConfiguration :=
  let c := c.flag
  match ListField.order.find? fun f => !(c.list f).items.isEmpty with
  | some f => .again (c.pop f)
  | none =>
    let c := c.shortenAddresses
    match maxByKey c.textSize c.scalars with
    | none => .done c
    | some f =>
      match c.text f with
      | none => .done c
      | some text =>
        if text.isEmpty then .done c
        else .again (c.setText (Utf8.truncate text (text.utf8ByteSize / 2)) f)

end TunnelConfiguration

/-! ### Choosing -/

theorem find_least {α : Type*} {p : α → Bool} {rank : α → ℕ} {a : α} {l : List α}
    (hl : l.Pairwise (rank · < rank ·)) (h : l.find? p = some a) :
    p a = true ∧ ∀ b ∈ l, rank b < rank a → p b = false := by
  induction l with
  | nil => cases h
  | cons x l ih =>
    obtain ⟨hx, hl⟩ := List.pairwise_cons.mp hl
    rw [List.find?_cons] at h
    cases hp : p x with
    | true =>
      rw [hp] at h
      cases h
      refine ⟨hp, fun b hb hlt => ?_⟩
      rcases List.mem_cons.mp hb with rfl | hb
      · omega
      · have := hx b hb
        omega
    | false =>
      rw [hp] at h
      obtain ⟨ha, hleast⟩ := ih hl h
      refine ⟨ha, fun b hb hlt => ?_⟩
      rcases List.mem_cons.mp hb with rfl | hb
      · exact hp
      · exact hleast b hb hlt

theorem foldl_max {α : Type*} (key : α → ℕ) (l : List α) (a : α) :
    let best := l.foldl (fun best b => if key best ≤ key b then b else best) a
    key a ≤ key best ∧ ∀ b ∈ l, key b ≤ key best := by
  induction l generalizing a with
  | nil => exact ⟨Nat.le_refl _, fun b hb => nomatch hb⟩
  | cons x l ih =>
    obtain ⟨hfirst, hrest⟩ := ih (if key a ≤ key x then x else a)
    have hboth : key a ≤ key (if key a ≤ key x then x else a) ∧
        key x ≤ key (if key a ≤ key x then x else a) := by
      split_ifs <;> omega
    refine ⟨Nat.le_trans hboth.1 hfirst, fun b hb => ?_⟩
    rcases List.mem_cons.mp hb with rfl | hb
    · exact Nat.le_trans hboth.2 hfirst
    · exact hrest b hb

theorem le_maxByKey {α : Type*} {key : α → ℕ} {l : List α} {a : α} (h : maxByKey key l = some a) :
    ∀ b ∈ l, key b ≤ key a := by
  cases l with
  | nil => cases h
  | cons x l =>
    cases h
    obtain ⟨hfirst, hrest⟩ := foldl_max key l x
    intro b hb
    rcases List.mem_cons.mp hb with rfl | hb
    · exact hfirst
    · exact hrest b hb

/-! ### What one step does -/

theorem ListField.mem_order (f : ListField) : f ∈ ListField.order := by cases f <;> decide

theorem ListField.order_increasing : ListField.order.Pairwise (·.rank < ·.rank) := by decide

namespace TunnelConfiguration

variable {c c' : TunnelConfiguration}

theorem list_setList (c : TunnelConfiguration) (l : TunnelList) (f g : ListField) :
    (c.setList l f).list g = if g = f then l else c.list g := by
  cases f <;> cases g <;> rfl

theorem text_setList (c : TunnelConfiguration) (l : TunnelList) (f : ListField) (g : TextField) :
    (c.setList l f).text g = c.text g := by
  cases f <;> cases g <;> rfl

@[simp] theorem list_flag (c : TunnelConfiguration) (f : ListField) :
    c.flag.list f = c.list f := by
  cases f <;> rfl

@[simp] theorem text_flag (c : TunnelConfiguration) (f : TextField) : c.flag.text f = c.text f := by
  cases f <;> rfl

@[simp] theorem list_shortenAddresses (c : TunnelConfiguration) (f : ListField) :
    c.shortenAddresses.list f = c.list f := by
  cases f <;> rfl

theorem netmask_shorten (a : TunnelAddress) : a.shorten.netmask = a.netmask := by
  unfold TunnelAddress.shorten
  split_ifs <;> rfl

@[simp] theorem text_shortenAddresses (c : TunnelConfiguration) (f : TextField) :
    c.shortenAddresses.text f = c.text f := by
  cases f with
  | interface => rfl
  | serverIp => rfl
  | netmask => cases h : c.ipv4 <;> simp [text, shortenAddresses, h, netmask_shorten]
  | netmask6 => cases h : c.ipv6 <;> simp [text, shortenAddresses, h, netmask_shorten]

theorem list_setText (c : TunnelConfiguration) (s : String) (f : TextField) (g : ListField) :
    (c.setText s f).list g = c.list g := by
  cases f <;> cases g <;> rfl

theorem text_setText (c : TunnelConfiguration) (s : String) (f g : TextField) {t : String}
    (h : c.text f = some t) : (c.setText s f).text g = if g = f then some s else c.text g := by
  cases f with
  | interface => cases g <;> rfl
  | serverIp => cases g <;> rfl
  | netmask | netmask6 =>
    obtain ⟨a, ha, -⟩ := Option.bind_eq_some_iff.mp h
    cases g <;> simp [text, setText, ha]

theorem textSize_eq_zero {f : TextField} (h : f ∉ c.scalars) : c.textSize f = 0 := by
  cases f with
  | interface | serverIp => exact absurd (by simp [scalars]) h
  | netmask =>
    have hnone : c.ipv4 = none := by
      cases hip : c.ipv4 with
      | none => rfl
      | some a => exact absurd (by simp [scalars, hip]) h
    simp [textSize, text, hnone]
  | netmask6 =>
    have hnone : c.ipv6 = none := by
      cases hip : c.ipv6 with
      | none => rfl
      | some a => exact absurd (by simp [scalars, hip]) h
    simp [textSize, text, hnone]

/-- What the body of the loop can do. -/
inductive Step (c : TunnelConfiguration) : Shrunk TunnelConfiguration → Prop
  | popped {f : ListField} (hitems : (c.list f).items ≠ [])
    (hfirst : ∀ g, g.rank < f.rank → (c.list g).items = []) : Step c (.again (c.flag.pop f))
  | halved {f : TextField} {text : String} (hlists : ∀ g, (c.list g).items = [])
    (htext : c.text f = some text) (hne : 0 < text.utf8ByteSize) :
    Step c (.again (c.flag.shortenAddresses.setText
      (Utf8.truncate text (text.utf8ByteSize / 2)) f))
  | exhausted (hlists : ∀ g, (c.list g).items = []) (htexts : ∀ f, c.textSize f = 0) :
    Step c (.done c.flag.shortenAddresses)

theorem trim_cases (c : TunnelConfiguration) : Step c c.trim := by
  unfold trim
  dsimp only
  cases hfind : ListField.order.find? fun f => !(c.flag.list f).items.isEmpty with
  | some f =>
    obtain ⟨hf, hleast⟩ := find_least ListField.order_increasing hfind
    refine .popped (by simpa using hf) fun g hg => ?_
    simpa using hleast g g.mem_order hg
  | none =>
    have hlists : ∀ g, (c.list g).items = [] := by
      intro g
      simpa using List.find?_eq_none.mp hfind g g.mem_order
    have hsize : ∀ f, c.flag.shortenAddresses.textSize f = c.textSize f := by
      intro f
      simp [textSize]
    -- an empty text that is chosen is one of the longest, so all of them are empty
    have hdone : ∀ f, maxByKey c.flag.shortenAddresses.textSize c.flag.shortenAddresses.scalars =
        some f → c.textSize f = 0 → ∀ g, c.textSize g = 0 := by
      intro f hmax hzero g
      by_cases hg : g ∈ c.flag.shortenAddresses.scalars
      · have hle := le_maxByKey hmax g hg
        rw [hsize, hsize, hzero] at hle
        exact Nat.le_zero.mp hle
      · rw [← hsize]
        exact textSize_eq_zero hg
    dsimp only
    cases hmax : maxByKey c.flag.shortenAddresses.textSize c.flag.shortenAddresses.scalars with
    | none => cases hmax
    | some f =>
      dsimp only
      rw [text_shortenAddresses, text_flag]
      cases htext : c.text f with
      | none => exact .exhausted hlists (hdone f hmax (by simp [textSize, htext]))
      | some text =>
        dsimp only
        by_cases hempty : text.isEmpty = true
        · rw [if_pos hempty]
          have hzero := String.isEmpty_iff_utf8ByteSize_eq_zero.mp hempty
          exact .exhausted hlists (hdone f hmax (by simp [textSize, htext, hzero]))
        · rw [if_neg hempty]
          refine .halved hlists htext (Nat.pos_of_ne_zero fun hzero => hempty ?_)
          exact String.isEmpty_iff_utf8ByteSize_eq_zero.mpr hzero

/-- The items that are left, and the bytes of the texts that can be halved. -/
def weight (c : TunnelConfiguration) : ℕ :=
  (ListField.order.map fun f => (c.list f).items.length).sum +
    (c.textSize .interface + c.textSize .serverIp + c.textSize .netmask + c.textSize .netmask6)

theorem length_pop (c : TunnelConfiguration) (f g : ListField) :
    ((c.flag.pop f).list g).items.length =
      if g = f then (c.list f).items.length - 1 else (c.list g).items.length := by
  rw [pop, list_setList]
  split_ifs <;> simp

theorem textSize_halved {f : TextField} {text : String} (h : c.text f = some text) (s : String)
    (g : TextField) :
    (c.flag.shortenAddresses.setText s f).textSize g =
      if g = f then s.utf8ByteSize else c.textSize g := by
  have htext : c.flag.shortenAddresses.text f = some text := by simpa using h
  rw [textSize, text_setText _ s f g htext]
  split_ifs
  · rfl
  · simp [textSize]

theorem trim_lighter (h : c.trim = .again c') : c'.weight < c.weight := by
  have hstep := trim_cases c
  rw [h] at hstep
  cases hstep with
  | @popped f hitems _ =>
    have hpos := List.length_pos_iff.mpr hitems
    have htexts : ∀ g, (c.flag.pop f).textSize g = c.textSize g := by
      intro g
      simp [textSize, pop, text_setList]
    have hless : (ListField.order.map fun g => ((c.flag.pop f).list g).items.length).sum <
        (ListField.order.map fun g => (c.list g).items.length).sum := by
      simp only [length_pop, ListField.order, List.map_cons, List.map_nil, List.sum_cons,
        List.sum_nil]
      cases f <;> simp <;> omega
    simp only [weight, htexts]
    omega
  | @halved f text hlists htext hne =>
    have hhalf : (Utf8.truncate text (text.utf8ByteSize / 2)).utf8ByteSize < text.utf8ByteSize := by
      have hle := Utf8.size_truncate_le text (text.utf8ByteSize / 2)
      omega
    have hsize : c.textSize f = text.utf8ByteSize := by rw [textSize, htext]
    simp only [weight, textSize_halved htext, list_setText, list_shortenAddresses, list_flag]
    cases f <;> simp <;> omega

/-- The steps of `limit_encoded_size`. -/
def trimmer : Shrinker TunnelConfiguration where
  step := trim
  weight := weight
  lighter := trim_lighter

/-- `TunnelConfiguration::limit_encoded_size`: the configuration after the call, and what it
returns. -/
def limitEncodedSize (c : TunnelConfiguration) (limit : ℕ) : TunnelConfiguration × Bool :=
  trimmer.run (fun c => c.encodedSize ≤ limit) c

end TunnelConfiguration

end GlobalProtect.Tunnel
