import AdminPolicy.Kdl.Document

/-!
# Annotated KDL documents

A document as it is written, with the type annotations of its nodes and values. `plain` is the document that it stands
for: annotations mean nothing.
-/

namespace AdminPolicy.Kdl.Annotated

/-- A value behind its annotation, if it has one. -/
structure Value where
  tag? : Option String
  value : Kdl.Value
  deriving DecidableEq, Repr

inductive Item where
  | argument (value : Value)
  | property (name : String) (value : Value)
  deriving DecidableEq, Repr

def Item.plain : Item → Kdl.Item
  | argument v => .argument v.value
  | property n v => .property n v.value

inductive Node where
  | mk (tag? : Option String) (name : String) (items : List Item) (children : List Node)
  deriving Repr

mutual

/-- Whether two nodes are the same. -/
def Node.decEq : (n m : Node) → Decidable (n = m)
  | .mk a x is cs, .mk b y js ds =>
    haveI := decEqAll cs ds
    decidable_of_iff (a = b ∧ x = y ∧ is = js ∧ cs = ds) (by rw [Node.mk.injEq])

def decEqAll : (ns ms : List Node) → Decidable (ns = ms)
  | [], [] => isTrue rfl
  | [], _ :: _ => isFalse nofun
  | _ :: _, [] => isFalse nofun
  | n :: ns, m :: ms =>
    haveI := Node.decEq n m
    haveI := decEqAll ns ms
    decidable_of_iff (n = m ∧ ns = ms) (by rw [List.cons.injEq])

end

instance : DecidableEq Node := Node.decEq

def Node.name : Node → String
  | mk _ n _ _ => n

abbrev Document := List Node

mutual

def Node.plain : Node → Kdl.Node
  | .mk _ n is cs => .mk n (is.map Item.plain) (plain cs)

/-- A document without its annotations. -/
def plain : Document → Kdl.Document
  | [] => []
  | n :: ns => n.plain :: plain ns

end

theorem plain_eq_map (d : Document) : plain d = d.map Node.plain := by
  induction d with
  | nil => rfl
  | cons n ns ih => rw [plain, ih, List.map_cons]

@[simp] theorem Node.name_plain (n : Node) : n.plain.name = n.name := by
  obtain ⟨a, name, is, cs⟩ := n
  rw [plain]
  rfl

end AdminPolicy.Kdl.Annotated
