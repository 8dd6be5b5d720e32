import GlobalProtect.Lib.Checks
import Mathlib.Algebra.Ring.Nat
import Mathlib.Data.Finset.Image
import Mathlib.Data.List.Perm.Basic
import Mathlib.Data.List.Perm.Lattice

/-! # The identity of a physical network

The model of `gpapi/src/session/desktop/network/mod.rs`: snapshots of the interfaces
(`InterfaceIdentity`, `snapshot`), taken of sorted interfaces by `capture` and of unsorted ones by
`inspect`, and the attribution of a route to an interface (`physicalInterfaceForSource`).

`Description` says what an interface is, with sets in place of the two parallel lists of addresses
and scopes. An identity is a function of the description, and an injective one as formatting is
injective (`Description.identity_injective`). So snapshots agree exactly if the lists describe the
same interfaces, in whatever order and however often. -/

namespace GlobalProtect.Desktop.Network

open Lib

/-! ### Interfaces -/

abbrev Ipv4Addr := BitVec 32

abbrev Ipv6Addr := BitVec 128

abbrev MacAddr := BitVec 48

structure Ipv4Net where
  addr : Ipv4Addr
  prefixLen : Fin 33
  deriving DecidableEq, Repr

structure Ipv6Net where
  addr : Ipv6Addr
  prefixLen : Fin 129
  deriving DecidableEq, Repr

inductive InterfaceType where
  | ethernet
  | wireless80211
  | fastEthernetT
  | fastEthernetFx
  | gigabitEthernet
  | other
  deriving DecidableEq, Repr

structure Interface where
  index : UInt32
  name : String
  ifType : InterfaceType
  macAddr : Option MacAddr
  ipv4 : List Ipv4Net
  ipv6 : List Ipv6Net
  ipv6ScopeIds : List UInt32
  flags : UInt32
  deriving DecidableEq, Repr

/-- Each IPv6 network with its scope; a missing scope is 0. -/
def Interface.scoped (i : Interface) : List (Ipv6Net × UInt32) :=
  i.ipv6.mapIdx fun index ip => (ip, i.ipv6ScopeIds[index]?.getD 0)

/-! ### Snapshots -/

/-- How networks and hardware addresses are written (`ipnet` and `netdev`). -/
structure Formats where
  ipv4 : Ipv4Net → String
  ipv6 : Ipv6Net → String
  mac : MacAddr → String
  ipv4_injective : Function.Injective ipv4
  ipv6_injective : Function.Injective ipv6
  mac_injective : Function.Injective mac
  ipv4_ne_ipv6 : ∀ a b, ipv4 a ≠ ipv6 b

structure InterfaceIdentity where
  index : UInt32
  name : String
  mac : Option String
  flags : UInt32
  addresses : Finset (String × UInt32)
  deriving DecidableEq

structure RouteContext where
  destination : String
  gateway : String
  interface : String
  table : String
  metric : String
  deriving DecidableEq, Repr

structure ResolverContext where
  interface : Option String
  servers : List String
  domains : List String
  deriving DecidableEq, Repr

structure NetworkSnapshot where
  interfaces : Finset InterfaceIdentity
  routes : Finset RouteContext
  resolvers : List ResolverContext
  deriving DecidableEq

structure PhysicalNetwork where
  snapshot : NetworkSnapshot
  interfaces : List Interface

/-- What the control and the platform answer. -/
structure Platform where
  check : Except String Unit
  routes : Except String (List RouteContext)
  resolvers : Except String (List ResolverContext)

section

variable (f : Formats) (p : Platform)

/-- `InterfaceIdentity::from`. -/
def Interface.identity (i : Interface) : InterfaceIdentity where
  index := i.index
  name := i.name
  mac := i.macAddr.map f.mac
  flags := i.flags
  addresses := (i.ipv4.map fun ip => (f.ipv4 ip, 0)).toFinset ∪
    (i.scoped.map fun (ip, scope) => (f.ipv6 ip, scope)).toFinset

def snapshot (interfaces : List Interface) : Except String NetworkSnapshot := do
  p.check
  let routes ← p.routes
  let resolvers ← p.resolvers
  pure {
    interfaces := (interfaces.map (Interface.identity f)).toFinset
    routes := routes.toFinset
    resolvers }

/-- The derived order of networks. -/
def Ipv4Net.le (a b : Ipv4Net) : Bool :=
  a.addr < b.addr || (a.addr = b.addr && a.prefixLen ≤ b.prefixLen)

def Ipv6Net.lt (a b : Ipv6Net) : Bool :=
  a.addr < b.addr || (a.addr = b.addr && a.prefixLen < b.prefixLen)

def scopedLe (a b : Ipv6Net × UInt32) : Bool := a.1.lt b.1 || (a.1 = b.1 && a.2 ≤ b.2)

/-- The addresses in order, each with its scope. -/
def Interface.sort (i : Interface) : Interface :=
  let ipv6 := i.scoped.mergeSort scopedLe
  { i with
    ipv4 := i.ipv4.mergeSort Ipv4Net.le
    ipv6 := ipv6.map Prod.fst
    ipv6ScopeIds := ipv6.map Prod.snd }

def capture (interfaces : List Interface) : Except String PhysicalNetwork := do
  p.check
  let interfaces := interfaces.map Interface.sort
  let snapshot ← snapshot f p interfaces
  p.check
  pure { snapshot, interfaces }

def inspect (interfaces : List Interface) : Except String NetworkSnapshot := do
  let result ← snapshot f p interfaces
  p.check
  pure result

/-- `fingerprint`, with the serialization and the checksum. -/
def NetworkSnapshot.fingerprint {β : Type} (toVec : NetworkSnapshot → Except String β)
    (sha256Hex : β → String) (s : NetworkSnapshot) : Except String String := do
  let bytes ← toVec s
  pure (sha256Hex bytes)

end

/-! ### The interface of a route -/

inductive IpAddr where
  | v4 (ip : Ipv4Addr)
  | v6 (ip : Ipv6Addr)
  deriving DecidableEq, Repr

def IpAddr.isUnspecified : IpAddr → Bool
  | .v4 ip => ip = 0
  | .v6 ip => ip = 0

def IpAddr.isLoopback : IpAddr → Bool
  | .v4 ip => ip.toNat / 2 ^ 24 = 127
  | .v6 ip => ip = 1

inductive SocketAddr where
  | v4 (ip : Ipv4Addr) (port : UInt16)
  | v6 (ip : Ipv6Addr) (port : UInt16) (flowinfo scopeId : UInt32)
  deriving DecidableEq, Repr

def SocketAddr.ip : SocketAddr → IpAddr
  | .v4 ip _ => .v4 ip
  | .v6 ip _ _ _ => .v6 ip

/-- The scope of an address that has one. -/
def SocketAddr.scope? : SocketAddr → Option UInt32
  | .v4 _ _ => none
  | .v6 _ _ _ scopeId => if scopeId ≠ 0 then some scopeId else none

/-- The loop over the two addresses. -/
def commonScope : List SocketAddr → Option UInt32 → Except String (Option UInt32)
  | [], scope => pure scope
  | address :: addresses, scope =>
    match address.scope? with
    | none => commonScope addresses scope
    | some id => do
      ensure (scope.all (· = id)) "Network source and destination have different interface scopes"
      commonScope addresses (some id)

/-- The interface has the address. -/
def Interface.carries (i : Interface) (source : IpAddr) : Bool :=
  i.ipv4.any (fun ip => .v4 ip.addr = source) || i.ipv6.any (fun ip => .v6 ip.addr = source)

def InterfaceType.isPhysical : InterfaceType → Bool
  | .ethernet | .wireless80211 | .fastEthernetT | .fastEthernetFx | .gigabitEthernet => true
  | .other => false

/-- What follows the search, by the interfaces that match. -/
def onlyPhysical : List Interface → Except String Interface
  | [] => .error "Network route has no matching physical interface"
  | [interface] => do
    ensure interface.ifType.isPhysical
      ("Network route uses an unsupported physical interface: " ++ interface.name)
    pure interface
  | _ :: _ :: _ => .error "Network route has ambiguous physical interfaces"

def physicalInterfaceForSource (interfaces : List Interface) (source endpoint : SocketAddr) :
    Except String Interface := do
  let scope ← commonScope [source, endpoint] none
  ensure (!source.ip.isUnspecified && !source.ip.isLoopback)
    "Network route has no physical source address"
  onlyPhysical (interfaces.filter fun interface =>
    scope.all (· = interface.index) && interface.carries source.ip)

/-! ### Descriptions -/

structure Description where
  index : UInt32
  name : String
  mac : Option MacAddr
  flags : UInt32
  ipv4 : Finset Ipv4Net
  ipv6 : Finset (Ipv6Net × UInt32)
  deriving DecidableEq

def Interface.describe (i : Interface) : Description where
  index := i.index
  name := i.name
  mac := i.macAddr
  flags := i.flags
  ipv4 := i.ipv4.toFinset
  ipv6 := i.scoped.toFinset

/-- The interfaces are the same, up to the order and repetition of their addresses. -/
structure Interface.Same (i j : Interface) : Prop where
  index : i.index = j.index
  name : i.name = j.name
  mac : i.macAddr = j.macAddr
  flags : i.flags = j.flags
  ipv4 : ∀ ip, ip ∈ i.ipv4 ↔ ip ∈ j.ipv4
  ipv6 : ∀ ip scope, (ip, scope) ∈ i.scoped ↔ (ip, scope) ∈ j.scoped

/-- Each interface of one list is in the other one. -/
def SameInterfaces (is js : List Interface) : Prop :=
  (∀ i ∈ is, ∃ j ∈ js, i.Same j) ∧ ∀ j ∈ js, ∃ i ∈ is, i.Same j

theorem same_iff (i j : Interface) : i.Same j ↔ i.describe = j.describe := by
  constructor
  · rintro ⟨hindex, hname, hmac, hflags, hipv4, hipv6⟩
    simp only [Interface.describe, Description.mk.injEq]
    refine ⟨hindex, hname, hmac, hflags, Finset.ext fun ip => ?_, Finset.ext fun ⟨ip, scope⟩ => ?_⟩
    · rw [List.mem_toFinset, List.mem_toFinset, hipv4]
    · rw [List.mem_toFinset, List.mem_toFinset, hipv6]
  · intro h
    simp only [Interface.describe, Description.mk.injEq] at h
    obtain ⟨hindex, hname, hmac, hflags, hipv4, hipv6⟩ := h
    refine ⟨hindex, hname, hmac, hflags, fun ip => ?_, fun ip scope => ?_⟩
    · rw [← List.mem_toFinset, ← List.mem_toFinset, hipv4]
    · rw [← List.mem_toFinset, ← List.mem_toFinset, hipv6]

theorem sameInterfaces_iff (is js : List Interface) : SameInterfaces is js ↔
    (is.map Interface.describe).toFinset = (js.map Interface.describe).toFinset := by
  unfold SameInterfaces
  simp only [same_iff]
  constructor
  · rintro ⟨hforward, hback⟩
    refine Finset.ext fun d => ?_
    rw [List.mem_toFinset, List.mem_toFinset, List.mem_map, List.mem_map]
    constructor
    · rintro ⟨i, hi, rfl⟩
      obtain ⟨j, hj, hsame⟩ := hforward i hi
      exact ⟨j, hj, hsame.symm⟩
    · rintro ⟨j, hj, rfl⟩
      obtain ⟨i, hi, hsame⟩ := hback j hj
      exact ⟨i, hi, hsame⟩
  · intro h
    have hmem : ∀ d, d ∈ is.map Interface.describe ↔ d ∈ js.map Interface.describe := by
      intro d
      rw [← List.mem_toFinset, h, List.mem_toFinset]
    refine ⟨fun i hi => ?_, fun j hj => ?_⟩
    · obtain ⟨j, hj, hsame⟩ := List.mem_map.mp ((hmem _).mp (List.mem_map_of_mem hi))
      exact ⟨j, hj, hsame.symm⟩
    · obtain ⟨i, hi, hsame⟩ := List.mem_map.mp ((hmem _).mpr (List.mem_map_of_mem hj))
      exact ⟨i, hi, hsame⟩

section

variable (f : Formats)

/-- The addresses of a description, as they are written. -/
def Description.addresses (d : Description) : Finset (String × UInt32) :=
  d.ipv4.image (fun ip => (f.ipv4 ip, 0)) ∪ d.ipv6.image fun (ip, scope) => (f.ipv6 ip, scope)

def Description.identity (d : Description) : InterfaceIdentity where
  index := d.index
  name := d.name
  mac := d.mac.map f.mac
  flags := d.flags
  addresses := d.addresses f

theorem identity_describe (i : Interface) : i.identity f = i.describe.identity f := by
  simp only [Interface.identity, Description.identity, Description.addresses, Interface.describe,
    InterfaceIdentity.mk.injEq, true_and]
  refine congrArg₂ (· ∪ ·) ?_ ?_ <;> (ext; simp)

theorem mem_addresses_ipv4 (d : Description) (ip : Ipv4Net) :
    (f.ipv4 ip, 0) ∈ d.addresses f ↔ ip ∈ d.ipv4 := by
  rw [Description.addresses, Finset.mem_union, Finset.mem_image, Finset.mem_image]
  constructor
  · rintro (⟨ip', hip', heq⟩ | ⟨⟨ip', scope⟩, -, heq⟩)
    · rwa [← f.ipv4_injective (Prod.mk.inj heq).1]
    · exact absurd (Prod.mk.inj heq).1.symm (f.ipv4_ne_ipv6 _ _)
  · exact fun hip => .inl ⟨ip, hip, rfl⟩

theorem mem_addresses_ipv6 (d : Description) (ip : Ipv6Net) (scope : UInt32) :
    (f.ipv6 ip, scope) ∈ d.addresses f ↔ (ip, scope) ∈ d.ipv6 := by
  rw [Description.addresses, Finset.mem_union, Finset.mem_image, Finset.mem_image]
  constructor
  · rintro (⟨ip', -, heq⟩ | ⟨⟨ip', scope'⟩, hip', heq⟩)
    · exact absurd (Prod.mk.inj heq).1 (f.ipv4_ne_ipv6 _ _)
    · obtain ⟨hip, rfl⟩ := Prod.mk.inj heq
      rwa [← f.ipv6_injective hip]
  · exact fun hip => .inr ⟨(ip, scope), hip, rfl⟩

/-- **Nothing of a description is lost in the identity.** -/
theorem Description.identity_injective : Function.Injective (Description.identity f) := by
  intro d e h
  simp only [Description.identity, InterfaceIdentity.mk.injEq] at h
  obtain ⟨hindex, hname, hmac, hflags, haddresses⟩ := h
  have hmac : d.mac = e.mac := Option.map_injective f.mac_injective hmac
  have hipv4 : d.ipv4 = e.ipv4 := by
    ext ip
    rw [← mem_addresses_ipv4 f, haddresses, mem_addresses_ipv4]
  have hipv6 : d.ipv6 = e.ipv6 := by
    ext ⟨ip, scope⟩
    rw [← mem_addresses_ipv6 f, haddresses, mem_addresses_ipv6]
  cases d
  cases e
  simp_all

theorem identities_eq_iff (is js : List Interface) :
    (is.map (Interface.identity f)).toFinset = (js.map (Interface.identity f)).toFinset ↔
      SameInterfaces is js := by
  have himage : ∀ ls : List Interface, (ls.map (Interface.identity f)).toFinset =
      (ls.map Interface.describe).toFinset.image (Description.identity f) := by
    intro ls
    ext identity
    simp [identity_describe]
  rw [himage, himage, (Finset.image_injective (Description.identity_injective f)).eq_iff,
    sameInterfaces_iff]

end

/-! ### Sorting -/

theorem scoped_sort (i : Interface) : i.sort.scoped = i.scoped.mergeSort scopedLe := by
  unfold Interface.sort
  dsimp only
  generalize i.scoped.mergeSort scopedLe = pairs
  refine List.ext_getElem (by simp [Interface.scoped]) fun k hk hk' => ?_
  simp [Interface.scoped, hk']

/-- **Sorting keeps every address with its scope.** -/
theorem sort_keeps (i : Interface) :
    i.sort.ipv4.Perm i.ipv4 ∧ i.sort.scoped.Perm i.scoped ∧
      i.sort.ipv6ScopeIds.length = i.sort.ipv6.length := by
  refine ⟨List.mergeSort_perm _ _, ?_, ?_⟩
  · rw [scoped_sort]
    exact List.mergeSort_perm _ _
  · simp [Interface.sort]

theorem describe_sort (i : Interface) : i.sort.describe = i.describe := by
  obtain ⟨hipv4, hscoped, -⟩ := sort_keeps i
  rw [← same_iff]
  exact ⟨rfl, rfl, rfl, rfl, fun _ => hipv4.mem_iff, fun _ _ => hscoped.mem_iff⟩

theorem identity_sort (f : Formats) (is : List Interface) :
    (is.map Interface.sort).map (Interface.identity f) = is.map (Interface.identity f) := by
  rw [List.map_map]
  refine List.map_congr_left fun i _ => ?_
  rw [Function.comp_apply, identity_describe, identity_describe, describe_sort]

theorem snapshot_sort (f : Formats) (p : Platform) (is : List Interface) :
    snapshot f p (is.map Interface.sort) = snapshot f p is := by
  unfold snapshot
  rw [identity_sort]

theorem inspect_of_capture {f : Formats} {p : Platform} {is : List Interface}
    {network : PhysicalNetwork} (h : capture f p is = .ok network) :
    inspect f p is = .ok network.snapshot ∧ network.interfaces = is.map Interface.sort := by
  unfold capture at h
  obtain ⟨_, -, h⟩ := bind_eq_ok.mp h
  obtain ⟨s, hs, h⟩ := bind_eq_ok.mp h
  obtain ⟨_, hcheck, h⟩ := bind_eq_ok.mp h
  obtain rfl := pure_eq_ok.mp h
  rw [snapshot_sort] at hs
  refine ⟨?_, rfl⟩
  unfold inspect
  exact bind_eq_ok.mpr ⟨s, hs, bind_eq_ok.mpr ⟨_, hcheck, rfl⟩⟩

theorem snapshot_eq_ok {f : Formats} {p : Platform} {is : List Interface} {s : NetworkSnapshot} :
    snapshot f p is = .ok s ↔ p.check = .ok () ∧ ∃ routes resolvers, p.routes = .ok routes ∧
      p.resolvers = .ok resolvers ∧
      s = ⟨(is.map (Interface.identity f)).toFinset, routes.toFinset, resolvers⟩ := by
  unfold snapshot
  constructor
  · intro h
    obtain ⟨_, hcheck, h⟩ := bind_eq_ok.mp h
    obtain ⟨routes, hroutes, h⟩ := bind_eq_ok.mp h
    obtain ⟨resolvers, hresolvers, h⟩ := bind_eq_ok.mp h
    exact ⟨hcheck, routes, resolvers, hroutes, hresolvers, (pure_eq_ok.mp h).symm⟩
  · rintro ⟨hcheck, routes, resolvers, hroutes, hresolvers, rfl⟩
    rw [hcheck, hroutes, hresolvers]
    rfl

/-! ### Attribution -/

/-- The interface has the scope of the address, if the address has one. -/
def Interface.Agrees (i : Interface) (address : SocketAddr) : Prop :=
  ∀ scope ∈ address.scope?, i.index = scope

theorem commonScope_agrees {source endpoint : SocketAddr} {scope : Option UInt32}
    (h : commonScope [source, endpoint] none = .ok scope) (i : Interface) :
    scope.all (· = i.index) = true ↔ i.Agrees source ∧ i.Agrees endpoint := by
  unfold commonScope commonScope commonScope at h
  unfold Interface.Agrees
  cases hsource : source.scope? with
  | none =>
    rw [hsource] at h
    cases hendpoint : endpoint.scope? with
    | none =>
      rw [hendpoint] at h
      obtain rfl := pure_eq_ok.mp h
      simp
    | some b =>
      rw [hendpoint] at h
      obtain ⟨-, h⟩ := ensure_bind_eq_ok.mp h
      obtain rfl := pure_eq_ok.mp h
      simp [eq_comm]
  | some a =>
    rw [hsource] at h
    obtain ⟨-, h⟩ := ensure_bind_eq_ok.mp h
    cases hendpoint : endpoint.scope? with
    | none =>
      rw [hendpoint] at h
      obtain rfl := pure_eq_ok.mp h
      simp [eq_comm]
    | some b =>
      rw [hendpoint] at h
      obtain ⟨hsame, h⟩ := ensure_bind_eq_ok.mp h
      obtain rfl := pure_eq_ok.mp h
      simp only [Option.all_some, decide_eq_true_iff] at hsame
      simp [hsame, eq_comm]

theorem onlyPhysical_perm {is js : List Interface} (h : is.Perm js) :
    onlyPhysical is = onlyPhysical js := by
  match is with
  | [] => rw [List.nil_perm.mp h]
  | [i] => rw [List.singleton_perm.mp h]
  | i :: i' :: is =>
    have hlength := h.length_eq
    match js with
    | [] => simp at hlength
    | [j] => simp at hlength
    | j :: j' :: js => rfl

theorem onlyPhysical_eq_ok {is : List Interface} {i : Interface}
    (h : onlyPhysical is = .ok i) : is = [i] := by
  match is with
  | [] => cases h
  | [j] =>
    obtain ⟨-, h⟩ := ensure_bind_eq_ok.mp h
    rw [pure_eq_ok.mp h]
  | _ :: _ :: _ => cases h

theorem physicalInterfaceForSource_perm {is js : List Interface} (h : is.Perm js)
    (source endpoint : SocketAddr) :
    physicalInterfaceForSource is source endpoint =
      physicalInterfaceForSource js source endpoint := by
  unfold physicalInterfaceForSource
  refine bind_congr fun scope => bind_congr fun _ => ?_
  exact onlyPhysical_perm (h.filter _)

theorem physicalInterfaceForSource_unique {is : List Interface} {source endpoint : SocketAddr}
    {i : Interface} (h : physicalInterfaceForSource is source endpoint = .ok i) :
    ∃ before after, is = before ++ i :: after ∧
      (i.carries source.ip = true ∧ i.Agrees source ∧ i.Agrees endpoint) ∧
      ∀ j ∈ before ++ after,
        ¬ (j.carries source.ip = true ∧ j.Agrees source ∧ j.Agrees endpoint) := by
  unfold physicalInterfaceForSource at h
  obtain ⟨scope, hscope, h⟩ := bind_eq_ok.mp h
  obtain ⟨-, h⟩ := ensure_bind_eq_ok.mp h
  have hmatches : ∀ j : Interface, (scope.all (· = j.index) && j.carries source.ip) = true ↔
      j.carries source.ip = true ∧ j.Agrees source ∧ j.Agrees endpoint := by
    intro j
    rw [Bool.and_eq_true, commonScope_agrees hscope j, and_comm]
  obtain ⟨before, after, rfl, hbefore, hi, hafter⟩ :=
    List.filter_eq_cons_iff.mp (onlyPhysical_eq_ok h)
  refine ⟨before, after, rfl, (hmatches i).mp hi, fun j hj => ?_⟩
  rw [← hmatches]
  rcases List.mem_append.mp hj with hj | hj
  · exact hbefore j hj
  · exact List.filter_eq_nil_iff.mp hafter j hj

/-- **Network identity.** Snapshots agree exactly if what they were taken of does, `inspect` sees
what `capture` saw, and a route is attributed to the same interface in any order. -/
theorem network_identity (f : Formats) :
    (∀ (p p' : Platform) (is js : List Interface) (s s' : NetworkSnapshot)
        (routes routes' : List RouteContext) (resolvers resolvers' : List ResolverContext),
      p.routes = .ok routes → p'.routes = .ok routes' → p.resolvers = .ok resolvers →
      p'.resolvers = .ok resolvers' → snapshot f p is = .ok s → snapshot f p' js = .ok s' →
      (s = s' ↔ SameInterfaces is js ∧ routes.toFinset = routes'.toFinset ∧
        resolvers = resolvers') ∧
      ∀ (β : Type) (toVec : NetworkSnapshot → Except String β) (sha256Hex : β → String),
        SameInterfaces is js → routes.toFinset = routes'.toFinset → resolvers = resolvers' →
        s.fingerprint toVec sha256Hex = s'.fingerprint toVec sha256Hex) ∧
    (∀ (p : Platform) (is : List Interface) (network : PhysicalNetwork),
      capture f p is = .ok network → inspect f p is = .ok network.snapshot ∧
        network.interfaces = is.map Interface.sort) ∧
    (∀ i : Interface, i.sort.ipv4.Perm i.ipv4 ∧ i.sort.scoped.Perm i.scoped ∧
      i.sort.ipv6ScopeIds.length = i.sort.ipv6.length) ∧
    ∀ (is js : List Interface) (source endpoint : SocketAddr), is.Perm js →
      physicalInterfaceForSource is source endpoint =
        physicalInterfaceForSource js source endpoint ∧
      ∀ i, physicalInterfaceForSource is source endpoint = .ok i →
        ∃ before after, is = before ++ i :: after ∧
          (i.carries source.ip = true ∧ i.Agrees source ∧ i.Agrees endpoint) ∧
          ∀ j ∈ before ++ after,
            ¬ (j.carries source.ip = true ∧ j.Agrees source ∧ j.Agrees endpoint) := by
  refine ⟨?_, fun _ _ _ => inspect_of_capture, sort_keeps, fun is js source endpoint hperm =>
    ⟨physicalInterfaceForSource_perm hperm source endpoint,
      fun _ => physicalInterfaceForSource_unique⟩⟩
  intro p p' is js s s' routes routes' resolvers resolvers' hroutes hroutes' hresolvers hresolvers'
    hs hs'
  have hiff : s = s' ↔ SameInterfaces is js ∧ routes.toFinset = routes'.toFinset ∧
      resolvers = resolvers' := by
    obtain ⟨-, r, res, hr, hres, rfl⟩ := snapshot_eq_ok.mp hs
    obtain ⟨-, r', res', hr', hres', rfl⟩ := snapshot_eq_ok.mp hs'
    obtain rfl := Except.ok.inj (hr.symm.trans hroutes)
    obtain rfl := Except.ok.inj (hr'.symm.trans hroutes')
    obtain rfl := Except.ok.inj (hres.symm.trans hresolvers)
    obtain rfl := Except.ok.inj (hres'.symm.trans hresolvers')
    rw [NetworkSnapshot.mk.injEq, identities_eq_iff]
  refine ⟨hiff, fun β toVec sha256Hex hsame hset heq => ?_⟩
  rw [hiff.mpr ⟨hsame, hset, heq⟩]

/-! ### A format -/

/-- Two numbers as a text. -/
def unary (m n : ℕ) : List Char := List.replicate m 'm' ++ List.replicate n 'n'

theorem unary_inj {m n m' n' : ℕ} (h : unary m n = unary m' n') : m = m' ∧ n = n' := by
  have hm := congrArg (List.count 'm') h
  have hn := congrArg (List.count 'n') h
  simp only [unary, List.count_append, List.count_replicate] at hm hn
  simpa using And.intro hm hn

def unaryFormats : Formats where
  ipv4 net := String.ofList ('4' :: unary net.addr.toNat net.prefixLen)
  ipv6 net := String.ofList ('6' :: unary net.addr.toNat net.prefixLen)
  mac address := String.ofList (unary address.toNat 0)
  ipv4_injective := by
    rintro ⟨a, n⟩ ⟨b, m⟩ h
    obtain ⟨ha, hn⟩ := unary_inj (List.cons.inj (String.ofList_injective h)).2
    have haddr : a = b := BitVec.eq_of_toNat_eq ha
    have hlen : n = m := Fin.ext hn
    rw [haddr, hlen]
  ipv6_injective := by
    rintro ⟨a, n⟩ ⟨b, m⟩ h
    obtain ⟨ha, hn⟩ := unary_inj (List.cons.inj (String.ofList_injective h)).2
    have haddr : a = b := BitVec.eq_of_toNat_eq ha
    have hlen : n = m := Fin.ext hn
    rw [haddr, hlen]
  mac_injective := by
    intro a b h
    exact BitVec.eq_of_toNat_eq (unary_inj (String.ofList_injective h)).1
  ipv4_ne_ipv6 a b h := absurd (List.cons.inj (String.ofList_injective h)).1 (by decide)

/-- A listing of one interface, and one with its addresses in another order and with a scope that was
left out before. -/
def listing : Interface :=
  ⟨1, "a", .ethernet, none, [⟨1, 24⟩, ⟨2, 24⟩], [⟨3, 64⟩, ⟨4, 64⟩], [7], 0⟩

def reordered : Interface :=
  ⟨1, "a", .ethernet, none, [⟨2, 24⟩, ⟨1, 24⟩], [⟨4, 64⟩, ⟨3, 64⟩], [0, 7], 0⟩

def quietPlatform : Platform := ⟨.ok (), .ok [], .ok []⟩

theorem network_identity_reordered : ∃ s s',
    snapshot unaryFormats quietPlatform [listing] = .ok s ∧
    snapshot unaryFormats quietPlatform [reordered, reordered] = .ok s' ∧ s = s' := by
  have hsame : listing.Same reordered :=
    ⟨rfl, rfl, rfl, rfl, fun ip => by simp [listing, reordered, or_comm],
      fun ip scope => by simp [Interface.scoped, listing, reordered, or_comm]⟩
  refine ⟨_, _, rfl, rfl, ?_⟩
  exact ((network_identity unaryFormats).1 quietPlatform quietPlatform [listing]
    [reordered, reordered] _ _ [] [] [] [] rfl rfl rfl rfl rfl rfl).1.mpr
    ⟨⟨by simp [hsame], by simp [hsame]⟩, rfl, rfl⟩

end GlobalProtect.Desktop.Network
