import GlobalProtect.Tunnel.Trimming

/-! # From the native configuration to the observed one

The model of `normalize` (`gptunnel`, `configuration.rs`): the prefix lengths are read from the
netmasks, and the result is trimmed to the size that observers may rely on. The code asserts that it
then fits. `bounded_configuration` says what trimming does in general, and that the assertion cannot
fail. -/

namespace GlobalProtect.Tunnel

open Lib

/-! ### Native data -/

structure NativeList where
  items : List String := []
  totalCount : UInt32 := 0
  truncated : Bool := false
  deriving DecidableEq, Repr

structure Configuration where
  interface : Option String := none
  ipv4 : Option String := none
  netmask : Option String := none
  ipv6 : Option String := none
  netmask6 : Option String := none
  serverIp : Option String := none
  dns : NativeList := {}
  searchDomains : NativeList := {}
  splitDns : NativeList := {}
  includedRoutes : NativeList := {}
  excludedRoutes : NativeList := {}
  mtu : Option UInt32 := none
  truncated : Bool := false
  deriving DecidableEq, Repr

/-! ### Prefix lengths -/

/-- The parsers of the standard library. -/
structure Parsers where
  ipv4 : String → Option (BitVec 32)
  ipv6 : String → Option (BitVec 128)
  u8 : String → Option UInt8

def leadingOnes (m : BitVec 32) : ℕ := ((List.range 32).takeWhile m.getMsbD).length

def Parsers.ipv4Prefix (p : Parsers) (mask : String) : Option UInt8 :=
  (p.ipv4 mask).bind fun mask =>
    let length := leadingOnes mask
    let expected := if length = 0 then 0 else BitVec.allOnes 32 <<< (32 - length)
    if mask = expected then some (UInt8.ofNat length) else none

/-- `split_once`: what is before and after the first such character. -/
def splitOnce (s : String) (separator : Char) : Option (String × String) :=
  match s.toList.span (· ≠ separator) with
  | (_, []) => none
  | (before, _ :: after) => some (String.ofList before, String.ofList after)

def Parsers.ipv6Prefix (p : Parsers) (address mask : String) : Option UInt8 :=
  (splitOnce mask '/').bind fun (network, length) =>
    (p.ipv6 network).bind fun network =>
      (p.ipv6 address).bind fun address =>
        if network ≠ address then none
        else (p.u8 length).filter (· ≤ 128)

/-! ### Normalizing -/

def NativeList.toTunnelList (l : NativeList) : TunnelList where
  items := l.items
  totalCount := l.totalCount
  truncated := l.truncated

/-- The configuration before it is trimmed. -/
def Parsers.untrimmed (p : Parsers) (c : Configuration) : TunnelConfiguration where
  interface := c.interface
  ipv4 := c.ipv4.map fun address =>
    { address, netmask := c.netmask
      prefixLength := (p.ipv4 address).bind fun _ => c.netmask.bind p.ipv4Prefix }
  ipv6 := c.ipv6.map fun address =>
    { address, netmask := c.netmask6, prefixLength := c.netmask6.bind (p.ipv6Prefix address) }
  serverIp := c.serverIp
  dns := c.dns.toTunnelList
  searchDomains := c.searchDomains.toTunnelList
  splitDns := c.splitDns.toTunnelList
  includedRoutes := c.includedRoutes.toTunnelList
  excludedRoutes := c.excludedRoutes.toTunnelList
  mtu := c.mtu
  truncated := c.truncated

/-- `normalize`; `none` where its assertion fails. -/
def Parsers.normalize (p : Parsers) (c : Configuration) : Option TunnelConfiguration :=
  match (p.untrimmed c).limitEncodedSize maxConfigurationBytes with
  | (c, true) => some c
  | (_, false) => none

theorem normalize_eq (p : Parsers) (c : Configuration) :
    p.normalize c = some ((p.untrimmed c).limitEncodedSize maxConfigurationBytes).1 := by
  have hfits : ((p.untrimmed c).limitEncodedSize maxConfigurationBytes).2 = true :=
    (p.untrimmed c).limitEncodedSize_succeeds (by decide)
  unfold Parsers.normalize
  split
  · next c' h => rw [h]
  · next c' h => rw [h] at hfits; cases hfits

/-- **Bounding a configuration**: trimming returns whether the result fits. A configuration that
fits is not changed, any other one is marked and trimmed as `Trimmed` says. Whatever the native
configuration is, the assertion that the normalized one fits holds. -/
theorem bounded_configuration (c : TunnelConfiguration) (limit : ℕ) :
    ((c.limitEncodedSize limit).2 = true ↔ (c.limitEncodedSize limit).1.encodedSize ≤ limit) ∧
    (c.encodedSize ≤ limit → (c.limitEncodedSize limit).1 = c) ∧
    (limit < c.encodedSize → (c.limitEncodedSize limit).1.truncated = true ∧
      c.Trimmed (c.limitEncodedSize limit).1) ∧
    ∀ (p : Parsers) (native : Configuration), ∃ c', p.normalize native = some c' ∧
      c'.encodedSize ≤ maxConfigurationBytes := by
  refine ⟨?_, ?_, ?_, ?_⟩
  · rw [c.limitEncodedSize_snd, decide_eq_true_iff]
  · intro hfits
    rw [TunnelConfiguration.limitEncodedSize_of_fits hfits]
  · intro hlarge
    exact ⟨TunnelConfiguration.truncated_limitEncodedSize hlarge, c.trimmed_limitEncodedSize limit⟩
  · intro p native
    refine ⟨_, normalize_eq p native, ?_⟩
    have hfits : ((p.untrimmed native).limitEncodedSize maxConfigurationBytes).2 = true :=
      (p.untrimmed native).limitEncodedSize_succeeds (by decide)
    rwa [TunnelConfiguration.limitEncodedSize_snd, decide_eq_true_iff] at hfits

/-- One route does not fit in 240 bytes. -/
theorem bounded_configuration_route :
    let c : TunnelConfiguration :=
      { includedRoutes := { items := ["10.0.0.0/8"], totalCount := 1 } }
    (c.limitEncodedSize 240).1.truncated = true ∧ c.Trimmed (c.limitEncodedSize 240).1 :=
  (bounded_configuration _ 240).2.2.1 (by decide +kernel)

end GlobalProtect.Tunnel
