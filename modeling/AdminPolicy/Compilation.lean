import AdminPolicy.CompiledPolicy
import AdminPolicy.Entry
import AdminPolicy.IdentityList

/-!
# Compiling a policy

Entries are read in order. A disabled `allow-local-admins` revokes the host's administrators and contributes a block
that denies them; an enabled one restores them. An enabled `client-admins` that names anyone contributes a block of
grants and replaces the granted names of the authorization document. All other entries contribute nothing.
-/

namespace AdminPolicy

/-- The sudoers lines that deny the host's administrators. -/
def denyBlock : RuleBlock := ["%admin\tALL=(ALL) !ALL", "%sudo\tALL=(ALL:ALL) !ALL"]

/-- The sudoers line that grants an identity everything. -/
def grantLine (i : Identity) : String := "\"" ++ i.token ++ "\"\tALL=(ALL:ALL) ALL"

/-- What the entries read so far come to. -/
structure Draft where
  /-- The last word on the host's administrators. -/
  localAdmins : Bool := true
  blocks : List RuleBlock := []
  /-- The granted names of the last entry that granted anyone. -/
  granted? : Option (List String) := none
  deriving DecidableEq, Repr

namespace Draft

def add (d : Draft) (e : Entry) : Draft :=
  match e.key with
  | .allowLocalAdmins =>
    if e.disabled then { d with localAdmins := false, blocks := d.blocks ++ [denyBlock] }
    else { d with localAdmins := true }
  | .clientAdmins =>
    if e.disabled then d
    else
      match IdentityList.identities e.value with
      | [] => d
      | ids =>
        { d with
          blocks := d.blocks ++ [ids.map grantLine]
          granted? := some (ids.map Identity.authorizationName) }
  | .unknown _ => d

/-- The authorization document of a draft, given the administrators that the host names. -/
def authorization (d : Draft) (system : String) : Authorization :=
  match d.localAdmins, d.granted? with
  | true, none => .absent
  | true, some granted => .merged system granted
  | false, granted? => .explicitOnly (granted?.getD [])

end Draft

/-- The policy that entries come to, given the administrators that the host names. -/
def compile (entries : List Entry) (system : String) : CompiledPolicy :=
  let d := entries.foldl Draft.add {}
  ⟨d.blocks, d.authorization system⟩

/-- The events of compiling one entry. -/
def Entry.events (e : Entry) : List Event :=
  match e.key with
  | .allowLocalAdmins => []
  | .clientAdmins => if e.disabled then [] else IdentityList.events e.value
  | .unknown name => [.unsupportedKey name]

def compileEvents (entries : List Entry) : List Event := entries.flatMap Entry.events

end AdminPolicy
