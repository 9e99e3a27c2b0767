import AdminPolicy.Action
import AdminPolicy.Entry
import AdminPolicy.Kdl.Reader

/-!
# Policy documents

A policy is written as a KDL document whose `entry` nodes are its directives, in order. The first argument is the key,
`disabled` and `value` are properties, and each child `-` adds a line to the value. Other nodes are reported and left
out. The first node that is no directive refuses the whole document.
-/

namespace AdminPolicy.PolicyDocument

def entryName : String := "entry"

/-- Whether a node is meant as a directive. -/
def isEntry (n : Kdl.Node) : Bool := n.name = entryName

/-- Why a node is no directive. -/
inductive Fault where
  /-- The first argument is no text, or there is none. -/
  | missingKey
  /-- `disabled` is no truth value. -/
  | disabledNotBoolean (key : String)
  /-- `value` is no text. -/
  | valueNotText (key : String)
  deriving DecidableEq, Repr

def Fault.message : Fault → String
  | missingKey => "entry node requires a key argument (e.g. entry \"client-admins\")"
  | disabledNotBoolean key => "entry `" ++ key ++ "` has a non-boolean `disabled` property (use #true or #false)"
  | valueNotText key => "entry `" ++ key ++ "` has a non-string `value`"

/-- The lines that the children `-` of a node add to its value. -/
def listLines (n : Kdl.Node) : List String :=
  (n.children.filter fun c => c.name = "-").filterMap Kdl.Node.textArgument?

def readKey (n : Kdl.Node) : Except Fault String :=
  match n.textArgument? with
  | some key => .ok key
  | none => .error .missingKey

def readDisabled (key : String) (n : Kdl.Node) : Except Fault Bool :=
  match n.property? "disabled" with
  | none => .ok false
  | some (.boolean b) => .ok b
  | some _ => .error (.disabledNotBoolean key)

/-- The value that a directive has as a property. -/
def readValue (key : String) (n : Kdl.Node) : Except Fault (Option String) :=
  match n.property? "value" with
  | none => .ok none
  | some (.text s) => .ok (some s)
  | some _ => .error (.valueNotText key)

/-- The directive that a node is. -/
def readEntry (n : Kdl.Node) : Except Fault Entry := do
  let key ← readKey n
  let disabled ← readDisabled key n
  let value? ← readValue key n
  pure ⟨.ofName key, Text.joinStrings "\n" (value?.toList ++ listLines n), disabled⟩

def entries : Kdl.Document → Except Fault (List Entry)
  | [] => .ok []
  | n :: ns =>
    if isEntry n then do
      let e ← readEntry n
      let es ← entries ns
      pure (e :: es)
    else entries ns

/-- The events of reading a document, up to the first node that refuses it. -/
def events : Kdl.Document → List Event
  | [] => []
  | n :: ns =>
    if isEntry n then
      match readEntry n with
      | .ok _ => events ns
      | .error _ => []
    else .unknownNode n.name :: events ns

def noDocument : String := "Failed to parse KDL document"

/-- The directives of a document. -/
def directives (document : Kdl.Document) : Action (List Entry) :=
  Action.of <| (Program.emitAll (events document)).bind fun _ =>
    .done ((entries document).mapError fun f => .invalidEntry f.message)

/-- The directives of a policy text. -/
def parse (source : String) : Action (List Entry) :=
  match Kdl.parse source with
  | none => Action.fail (.kdlParse noDocument)
  | some document => directives document

/-- The directives of the policy file at a path. -/
def load (path : HostPath) : Action (List Entry) :=
  Action.of <| .request (.readText path) fun
    | .error e => .done (.error (.policyLoad path.text e))
    | .ok source =>
      (parse source).program.bind fun
        | .error e => .done (.error e)
        | .ok es => .report (.loadedEntries path.text es.length) (.done (.ok es))

end AdminPolicy.PolicyDocument
