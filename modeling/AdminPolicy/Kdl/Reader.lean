import AdminPolicy.Kdl.Annotated
import AdminPolicy.Kdl.Text
import AdminPolicy.Text.Utf8

/-!
# Reading KDL documents

`read` takes a text as a document or refuses it as a whole, and `parse` leaves the annotations out. A reader takes one
thing off the front of a text; the readers of nodes get a reader of nested nodes, so that each level of nesting is one
step of `nodesWithin`.

A node ends with a line or a `;`. One that ends otherwise is the last of its list, and only commented-out nodes may
stand behind it.
-/

namespace AdminPolicy.Kdl

open Text

/-! ## Values -/

/-- A type annotation in parentheses. -/
def annotation? : Reader String := fun cs =>
  match cs with
  | '(' :: cs =>
    match text? (skipMany nodeSpace? cs) with
    | some (tag, rest) =>
      match skipMany nodeSpace? rest with
      | ')' :: rest => some (tag, rest)
      | _ => none
    | none => none
  | _ => none

/-- What `read` takes, with an annotation in front if there is one. -/
def annotated? {α : Type} (read : Reader α) : Reader (Option String × α) := fun cs =>
  match cs with
  | '(' :: _ => do
    let (tag, rest) ← annotation? cs
    let (a, rest) ← read (skipMany nodeSpace? rest)
    pure ((some tag, a), rest)
  | _ => (read cs).map fun (a, rest) => ((none, a), rest)

/-- The values that are written as a word behind `#`. -/
def keywords : List (String × Value) :=
  [("#true", .boolean true), ("#false", .boolean false), ("#null", .null), ("#inf", .number "#inf"),
    ("#-inf", .number "#-inf"), ("#nan", .number "#nan")]

/-- A word behind `#`. -/
def keyword? : Reader Value := fun cs =>
  keywords.findSome? fun (word, v) => (word? word cs).map fun rest => (v, rest)

def bareValue? : Reader Value := fun cs =>
  if beginsNumber cs then (number? cs).map fun (spelling, rest) => (.number spelling, rest)
  else
    match keyword? cs with
    | some r => some r
    | none => (text? cs).map fun (s, rest) => (.text s, rest)

/-- A value, perhaps with an annotation. -/
def value? : Reader Annotated.Value := fun cs =>
  (annotated? bareValue? cs).map fun ((tag?, v), rest) => (⟨tag?, v⟩, rest)

/-! ## Arguments and properties -/

/-- An argument, or a property if text is followed by an equals sign. -/
def item? : Reader Annotated.Item := fun cs =>
  match value? cs with
  | some (⟨none, .text s⟩, rest) =>
    match skipMany nodeSpace? rest with
    | '=' :: rest => (value? (skipMany nodeSpace? rest)).map fun (v, rest) => (.property s v, rest)
    | _ => some (.argument ⟨none, .text s⟩, rest)
  | r => r.map fun (v, rest) => (.argument v, rest)

/-- The text behind the mark that comments out what follows it. -/
def slashdash? : Skipper
  | '/' :: '-' :: cs => some (skipMany lineSpace? cs)
  | _ => none

/-- The text behind what `skip` takes away behind white space, or the text itself if that takes nothing away. -/
def withoutNext (skip : Skipper) (cs : List Char) : List Char := ((skipSome nodeSpace? cs).bind skip).getD cs

mutual

/-- The text behind arguments and properties that are commented out. -/
def droppedItems? : Nat → Skipper
  | 0, _ => none
  | fuel + 1, cs => do
    let (_, rest) ← nextItem? fuel (← slashdash? cs)
    pure (withoutNext (droppedItems? fuel) rest)

/-- An argument or a property, behind those before it that are commented out. -/
def nextItem? : Nat → Reader Annotated.Item
  | 0, _ => none
  | fuel + 1, cs =>
    let cs := skipMany nodeSpace? cs
    item? (((droppedItems? fuel cs).bind (skipSome nodeSpace?)).getD cs)

end

/-- The arguments and properties of a node, each behind white space. -/
def items : Nat → List Char → List Annotated.Item × List Char
  | 0, cs => ([], cs)
  | fuel + 1, cs =>
    match (skipSome nodeSpace? cs).bind (nextItem? (cs.length + 1)) with
    | some (item, rest) =>
      let (items, rest) := items fuel rest
      (item :: items, rest)
    | none => ([], cs)

/-! ## Nodes -/

section

variable (nodes? : Reader Annotated.Document)

def children? : Reader Annotated.Document := fun cs =>
  match cs with
  | c :: cs =>
    if c = openBrace then
      (nodes? cs).bind fun (children, rest) =>
        match rest with
        | d :: rest => if d = closeBrace then some (children, rest) else none
        | [] => none
    else none
  | [] => none

/-- The text behind children that are commented out. -/
def droppedChildren? : Nat → Skipper
  | 0, _ => none
  | fuel + 1, cs => do
    let (_, rest) ← children? nodes? (← slashdash? cs)
    pure (withoutNext (droppedChildren? fuel) rest)

/-- The text where a node's children stand if it has some: behind what is commented out, first arguments and
properties, then children. -/
def beforeChildren (cs : List Char) : List Char :=
  let cs := withoutNext (droppedItems? (cs.length + 1)) cs
  skipMany nodeSpace? (withoutNext (droppedChildren? nodes? (cs.length + 1)) cs)

/-- The children of a node, between any that are commented out. -/
def allChildren? : Reader Annotated.Document := fun cs =>
  let next := beforeChildren nodes? cs
  if next.head? = some openBrace then
    (children? nodes? next).map fun (children, rest) =>
      (children, (droppedChildren? nodes? (rest.length + 1) (skipMany nodeSpace? rest)).getD rest)
  else some ([], next)

/-- A node up to its end. -/
def node? : Reader Annotated.Node := fun cs => do
  let ((tag?, name), rest) ← annotated? text? cs
  let (items, rest) := items (rest.length + 1) rest
  let (children, rest) ← allChildren? nodes? rest
  pure (.mk tag? name items children, rest)

/-- White space between nodes, or a node that is commented out. -/
def between? (cs : List Char) : Option (List Char) :=
  match slashdash? cs with
  | some rest => (node? nodes? rest).map Prod.snd
  | none => lineSpace? cs

/-- Whether a list of nodes ends here. -/
def endsNodes (cs : List Char) : Bool := cs = [] || cs.head? = some closeBrace

/-- The text behind the end of a node. -/
def nodeEnd? (cs : List Char) : Option (List Char) :=
  match skipMany nodeSpace? cs with
  | ';' :: rest => some rest
  | cs => lineEnd? cs

/-- The nodes of one list. -/
def siblings? : Nat → Reader Annotated.Document
  | 0, _ => none
  | fuel + 1, cs =>
    let cs := skipMany (between? nodes?) cs
    if endsNodes cs then some ([], cs)
    else do
      let (node, rest) ← node? nodes? cs
      match nodeEnd? rest with
      | some rest => do
        let (nodes, rest) ← siblings? fuel rest
        pure (node :: nodes, rest)
      | none =>
        let rest := skipMany (between? nodes?) rest
        if endsNodes rest then some ([node], rest) else none

end

/-- The nodes of a list that has fewer than `depth` levels. -/
def nodesWithin : Nat → Reader Annotated.Document
  | 0, _ => none
  | depth + 1, cs => siblings? (nodesWithin depth) (cs.length + 1) cs

/-- The document that a text is. Each level of nesting has a brace, so there are no more levels than characters. -/
def read (source : String) : Option Annotated.Document :=
  let cs := dropMark source.toList
  match nodesWithin (cs.length + 1) cs with
  | some (nodes, []) => some nodes
  | _ => none

/-- The document that a text is, apart from annotations. -/
def parse (source : String) : Option Document := (read source).map Annotated.plain

end AdminPolicy.Kdl
