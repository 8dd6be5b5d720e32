import GlobalProtect.Api.Types
import Mathlib.Algebra.Ring.Nat

/-! # The gateways of a portal configuration

`PortalConfig` of `portal/config.rs` as far as the choice of a gateway needs it. `select_gateways`
falls back to the portal itself when the portal lists no gateway, so a configuration always has a
first one. -/

namespace GlobalProtect.Portal

open Api

structure PortalConfig where
  first : Gateway
  others : List Gateway
  canAuthenticateGateway : Bool := true
  allowExtendSession : Option Bool := none
  deriving DecidableEq, Repr

def u32Max : ℕ := 2 ^ 32 - 1

namespace PortalConfig

variable (c : PortalConfig)

def gateways : List Gateway := c.first :: c.others

def findGateway (nameOrAddress : String) : Option Gateway :=
  c.gateways.find? fun g => g.name = nameOrAddress || g.address = nameOrAddress

/-- The inner loop of `find_preferred_gateway`: the rules of a gateway, given the choice so far. -/
def scanRules (region : String) (g : Gateway) (best : Option Gateway × ℕ) : Option Gateway × ℕ :=
  g.priorityRules.foldl (fun best rule =>
    if (rule.name = region ∨ rule.name = "Any") ∧ rule.priority < best.2 then
      (some g, rule.priority)
    else best) best

/-- `min_by_key` over the priorities: the first of the smallest. -/
def lowestPriority : Gateway :=
  c.others.foldl (fun best g => if g.priority < best.priority then g else best) c.first

def findPreferredGateway (region : String) : Gateway :=
  (c.gateways.foldl (fun best g => scanRules region g best) (none, u32Max)).1.getD c.lowestPriority

/-- `sort_gateways`: the preferred gateway, looked up by its name, is swapped with the first. -/
def sortGateways (region : String) : PortalConfig :=
  match c.gateways.findIdx fun g => g.name = (c.findPreferredGateway region).name with
  | 0 => c
  | i + 1 =>
    { c with first := c.others.getD i c.first, others := c.others.set i c.first }

end PortalConfig

end GlobalProtect.Portal
