import Mathlib.Data.List.Basic

/-! # Documents of elements

A document as a parser leaves it: elements with attributes and children, and texts. Names are
compared as they are. -/

namespace GlobalProtect.Lib.Xml

inductive Node where
  | element (name : String) (attributes : List (String × String)) (children : List Node)
  /-- Characters or a CDATA section. -/
  | text (content : String)
  | other

namespace Node

def hasName (name : String) : Node → Bool
  | .element n _ _ => n = name
  | _ => false

def nodes : Node → List Node
  | .element _ _ children => children
  | _ => []

def content? : Node → Option String
  | .text content => some content
  | _ => none

/-- The first child with the name. -/
def child (e : Node) (name : String) : Option Node := e.nodes.find? (hasName name)

def children (e : Node) (name : String) : List Node := e.nodes.filter (hasName name)

def attr (e : Node) (name : String) : Option String :=
  match e with
  | .element _ attributes _ => attributes.lookup name
  | _ => none

/-- The texts of the element together, if it has any. -/
def getText (e : Node) : Option String :=
  match e.nodes.filterMap content? with
  | [] => none
  | texts => some (String.join texts)

def childText (e : Node) (name : String) : Option String := (e.child name).bind getText

mutual

/-- The first element with the name, from the element itself on. -/
def descendant (name : String) : Node → Option Node
  | .element n attributes children =>
    if n = name then some (.element n attributes children) else descendantOf name children
  | _ => none

def descendantOf (name : String) : List Node → Option Node
  | [] => none
  | e :: rest => (descendant name e).or (descendantOf name rest)

end

end Node

end GlobalProtect.Lib.Xml
