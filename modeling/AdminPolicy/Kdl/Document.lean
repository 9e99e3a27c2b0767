/-!
# KDL documents

A document is a list of nodes; a node has a name, arguments and properties in one order, and children. Type
annotations, and whatever is commented out, leave no trace. Of a property that is written twice the last counts
(`Node.property?`).
-/

namespace AdminPolicy.Kdl

inductive Value where
  | text (s : String)
  /-- A number, as it is spelt. -/
  | number (spelling : String)
  | boolean (b : Bool)
  | null
  deriving DecidableEq, Repr

/-- The text that a value is. -/
def Value.text? : Value → Option String
  | text s => some s
  | _ => none

/-- What stands behind the name of a node. -/
inductive Item where
  | argument (value : Value)
  | property (name : String) (value : Value)
  deriving DecidableEq, Repr

/-- The value of an argument. -/
def Item.argument? : Item → Option Value
  | argument v => some v
  | property .. => none

/-- The value of a property of a name. -/
def Item.property? (name : String) : Item → Option Value
  | argument _ => none
  | property n v => if n = name then some v else none

inductive Node where
  | mk (name : String) (items : List Item) (children : List Node)
  deriving Repr

namespace Node

def name : Node → String
  | mk n _ _ => n

def items : Node → List Item
  | mk _ is _ => is

def children : Node → List Node
  | mk _ _ cs => cs

/-- The first argument of a node. -/
def argument? (n : Node) : Option Value := n.items.findSome? Item.argument?

/-- The property of a name, as it was last written. -/
def property? (n : Node) (name : String) : Option Value := n.items.reverse.findSome? (Item.property? name)

/-- The first argument of a node, if it is text. -/
def textArgument? (n : Node) : Option String := n.argument?.bind Value.text?

end Node

abbrev Document := List Node

end AdminPolicy.Kdl
