import GlobalProtect.Lib.Decimal
import GlobalProtect.Lib.Xml
import GlobalProtect.Portal.Gateways

/-! # The gateways of a portal's answer

`parse_gateways` (`gateway/parse_gateways.rs`) on the parsed document. The name of a gateway is the
text of its description, its address an attribute; a server chooses both freely, and either may be
missing. -/

namespace GlobalProtect.Portal

open Api Lib Lib.Xml

def parsePriority (element : Node) : ℕ :=
  ((element.childText "priority").bind fun s => parseUnsigned u32Max s.toList).getD u32Max

def parsePriorityRules (element : Node) : List PriorityRule :=
  (element.children "entry").map fun n =>
    { name := (n.attr "name").getD "", priority := parsePriority n }

def parseGateway (kind : GatewayKind) (item : Node) : Gateway where
  name := (item.childText "description").getD ""
  address := (item.attr "name").getD ""
  kind := kind
  priority := parsePriority item
  priorityRules := ((item.child "priority-rule").map parsePriorityRules).getD []

/-- The list of internal gateways if it is preferred and there is one, else that of the others. -/
def gatewayList (gateways : Node) (preferInternal : Bool) : Option (Node × GatewayKind) :=
  let list (part : String) := (gateways.descendant part).bind (·.child "list")
  let internal := if preferInternal then list "internal" else none
  (internal.map (·, .internal)).or ((list "external").map (·, .external))

def parseGateways (element : Node) (preferInternal : Bool) : Option (List Gateway) := do
  let gateways ← element.descendant "gateways"
  let (list, kind) ← gatewayList gateways preferInternal
  return (list.children "entry").map (parseGateway kind)

end GlobalProtect.Portal
