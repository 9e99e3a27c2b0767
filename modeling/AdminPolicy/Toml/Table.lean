import AdminPolicy.Toml.Value

/-!
# Tables of TOML documents

A document is a list of statements: assignments, and headers that open a table or a further element of an array of
tables. `build` carries them out one after the other. A table can be opened once, but one that only came about on the
way to another can still be opened, and then counts as written after its neighbours; a dotted key adds only to tables
that dotted keys made.
-/

namespace AdminPolicy.Toml

/-- A statement of a document. -/
inductive Statement where
  | assign (path : List String) (name : String) (value : Value)
  /-- `[a.b]` -/
  | openTable (path : List String)
  /-- `[[a.b]]` -/
  | openElement (path : List String)

/-- How a table came about. -/
inductive Origin where
  /-- By its header, or as the document itself. -/
  | header
  /-- On the way to a header. -/
  | way
  /-- On the way of a dotted key. -/
  | dotted
  deriving DecidableEq, Repr

/-- A document while it is built. -/
inductive Node where
  /-- A finished value. -/
  | value (v : Value)
  | table (origin : Origin) (fields : List (String × Node))
  /-- An array of tables, the last of which can still be added to. -/
  | tables (elements : List Node)

namespace Node

def putField (name : String) (n : Node) : List (String × Node) → List (String × Node)
  | [] => [(name, n)]
  | (m, o) :: fs => if m = name then (m, n) :: fs else (m, o) :: putField name n fs

/-- A change of a table, which may be refused. -/
abbrev Change := Node → Option Node

/-- A change of the last table of an array. -/
def changeLast (f : Change) (elements : List Node) : Option Node :=
  match elements.getLast? with
  | some t => (f t).map fun t => .tables (elements.dropLast ++ [t])
  | none => none

/-- A change of the table that a path leads to. Tables that are missing on the way are made; a dotted key goes only
through those that were not opened by a header. -/
def change (made : Origin) (f : Change) : List String → Change
  | [], n => f n
  | name :: path, .table origin fields =>
    let next := change made f path
    let child? :=
      match (fields.lookup name).getD (.table made []) with
      | .value _ => none
      | .tables elements => changeLast next elements
      | .table o fs => if made = Origin.dotted && o = Origin.header then none else next (.table o fs)
    child?.map fun child => .table origin (putField name child fields)
  | _ :: _, _ => none

/-- The assignment of a value in a table. A dotted key ends in a table that dotted keys made. -/
def assignField (viaPath : Bool) (name : String) (v : Value) : Change
  | .table origin fields =>
    if viaPath != decide (origin = .dotted) then none
    else if (fields.lookup name).isSome then none
    else some (.table origin (fields ++ [(name, .value v)]))
  | _ => none

/-- An assignment to a key. -/
def assign (path : List String) (name : String) (v : Value) : Change :=
  change .dotted (assignField (!path.isEmpty) name v) path

/-- The opening of a table by its header. -/
def openField (name : String) : Change
  | .table origin fields =>
    match fields.lookup name with
    | none => some (.table origin (fields ++ [(name, .table .header [])]))
    | some (.table .way fs) => some (.table origin (fields.filter (·.1 ≠ name) ++ [(name, .table .header fs)]))
    | some _ => none
  | _ => none

/-- The opening of a further element. -/
def openElementField (name : String) : Change
  | .table origin fields =>
    match fields.lookup name with
    | none => some (.table origin (fields ++ [(name, .tables [.table .header []])]))
    | some (.tables elements) =>
      some (.table origin (putField name (.tables (elements ++ [.table .header []])) fields))
    | some _ => none
  | _ => none

/-- The change of the table that the last name of a path stands in. -/
def changeParent (f : String → Change) (path : List String) : Change := fun n =>
  match path.getLast? with
  | some name => change .way (f name) path.dropLast n
  | none => none

mutual

def toValue : Node → Value
  | value v => v
  | table _ fields => .table (toFields fields)
  | tables elements => .array (toValues elements)

def toValues : List Node → List Value
  | [] => []
  | n :: ns => n.toValue :: toValues ns

def toFields : List (String × Node) → List (String × Value)
  | [] => []
  | (name, n) :: fs => (name, n.toValue) :: toFields fs

end

end Node

/-- The document after one statement, and the path of the table that is open. -/
def Statement.carryOut (s : Statement) (opened : List String) (document : Node) : Option (List String × Node) :=
  match s with
  | .assign path name v => (Node.change .way (Node.assign path name v) opened document).map (opened, ·)
  | .openTable path => (Node.changeParent Node.openField path document).map (path, ·)
  | .openElement path => (Node.changeParent Node.openElementField path document).map (path, ·)

def carryOutAll : List Statement → List String → Node → Option Node
  | [], _, document => some document
  | s :: ss, opened, document =>
    (s.carryOut opened document).bind fun (opened, document) => carryOutAll ss opened document

/-- The document of statements. -/
def build (statements : List Statement) : Option Value :=
  (carryOutAll statements [] (.table .header [])).map Node.toValue

/-- The table of assignments in braces. -/
def buildInline : List (List String × String × Value) → Node → Option Node
  | [], table => some table
  | (path, name, v) :: rest, table => (Node.assign path name v table).bind (buildInline rest)

end AdminPolicy.Toml
