import AdminPolicy.Action
import AdminPolicy.CompiledPolicy
import AdminPolicy.KeyFile

/-!
# Authorization fragments

A directory of key files says who the host's administrators are. The fragments are layered in the order of their
names, and the last that sets the administrators counts. `systemAdmins` is the value that the fragments of others
come to: the fragment that this program writes is left out. A fragment that cannot be examined, read or parsed makes
the value unknown, which is an error; a missing directory sets nobody.
-/

namespace AdminPolicy.Fragments

/-- The ending of a fragment's name. -/
def suffix : String := ".conf"

def isFragmentName (name : String) : Bool := suffix.toList.isSuffixOf name.toList

/-- The fragments among the names of a directory that `keep` admits, in the order of layering. -/
def layers (keep : String → Bool) (names : List String) : List String :=
  (names.filter fun name => isFragmentName name && keep name).mergeSort fun a b => decide (a ≤ b)

/-- The key file of a text, or the error that names the fragment. -/
def parse (path : HostPath) (source : String) : Action KeyFile :=
  match KeyFile.parse source with
  | .ok f => pure f
  | .error e => Action.fail (.fragmentParse path e.line e.fault.message)

/-- The value after the fragments of these names, `value` being the one before them. -/
def layerAll (directory : HostPath) (value : String) : List String → Action String
  | [] => pure value
  | name :: names => do
    let path := directory.join name
    let isDir : Bool ← Action.attempt .stat path (.isDir path)
    if isDir then
      Action.emit (.fragmentIsDirectory path.text)
      layerAll directory value names
    else
      let source : String ← Action.attempt .read path (.readText path)
      let file ← parse path source
      layerAll directory ((file.get? Authorization.sectionName Authorization.keyName).getD value) names

/-- The administrators that the admitted fragments of a directory set. -/
def layeredAdmins (keep : String → Bool) (directory : HostPath) : Action String :=
  Action.of <| .request (.listDir directory) fun
    | .ok names => (layerAll directory "" (layers keep names)).program
    | .error e =>
      if e.kind = .notFound then .report (.noFragmentDirectory directory.text) (.done (.ok ""))
      else .done (.error (.io .list directory e))

end AdminPolicy.Fragments
