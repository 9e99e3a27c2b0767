/-!
# Events

What the program reports while it works. An event is a value: its level, wording and fields are read off it, so the
functions that report can be compared by what they report.
-/

namespace AdminPolicy

/-- How urgent an event is. -/
inductive Level where
  | debug
  | info
  | warn
  deriving DecidableEq, Repr

/-- The value of an event's field. -/
inductive FieldValue where
  | text (s : String)
  | count (n : Nat)
  | flag (b : Bool)
  deriving DecidableEq, Repr

/-- Something worth reporting. -/
inductive Event where
  /-- A token of an identity list was written differently. -/
  | changedIdentity (written normalized : String)
  /-- A token of an identity list names nobody. -/
  | droppedIdentity (written : String)
  /-- An entry has a key that means nothing here. -/
  | unsupportedKey (key : String)
  /-- A policy document has a node that is no entry. -/
  | unknownNode (name : String)
  | loadedEntries (path : String) (count : Nat)
  | noFragmentDirectory (directory : String)
  | fragmentIsDirectory (path : String)
  | applyingPolicy (object : String)
  | removedPolicy (object : String)
  | appliedPolicy (object : String) (blocks : Nat) (authorizationWritten : Bool)
  | removedFile (path : String)
  | installedRules (path : String)
  | installedAuthorization (path : String)
  /-- A temporary file could not be removed. -/
  | leftoverFile (path error : String)
  deriving DecidableEq, Repr

namespace Event

def level : Event → Level
  | changedIdentity .. | droppedIdentity _ | unknownNode _ | fragmentIsDirectory _ | leftoverFile .. => .warn
  | loadedEntries .. | removedPolicy _ | appliedPolicy .. => .info
  | _ => .debug

def message : Event → String
  | changedIdentity .. => "Changed user or group: invalid characters or domain\\user format"
  | droppedIdentity _ => "Dropped user or group with no valid name"
  | unsupportedKey _ => "Ignoring unsupported privilege policy key"
  | unknownNode name => "ignoring unknown top-level KDL node `" ++ name ++ "`"
  | loadedEntries .. => "Loaded privilege policy entries"
  | noFragmentDirectory _ => "No authorization fragment directory"
  | fragmentIsDirectory _ => "Authorization fragment is a directory. Ignoring."
  | applyingPolicy _ => "Applying privilege policy"
  | removedPolicy _ => "No privilege policy, removed generated files"
  | appliedPolicy .. => "Applied privilege policy"
  | removedFile _ => "Removed"
  | installedRules _ => "Installed escalation rules"
  | installedAuthorization _ => "Installed authorization override"
  | leftoverFile .. => "Failed to remove temporary file"

def fields : Event → List (String × FieldValue)
  | changedIdentity written normalized => [("original", .text written), ("normalized", .text normalized)]
  | droppedIdentity written => [("original", .text written)]
  | unsupportedKey key => [("key", .text key)]
  | unknownNode _ => []
  | loadedEntries path count => [("path", .text path), ("entries", .count count)]
  | noFragmentDirectory directory => [("dir", .text directory)]
  | fragmentIsDirectory path | removedFile path | installedRules path | installedAuthorization path =>
    [("path", .text path)]
  | applyingPolicy object | removedPolicy object => [("object", .text object)]
  | appliedPolicy object blocks written =>
    [("object", .text object), ("rules", .count blocks), ("admins", .flag written)]
  | leftoverFile path error => [("path", .text path), ("error", .text error)]

end Event

end AdminPolicy
