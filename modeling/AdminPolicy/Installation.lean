import AdminPolicy.Action
import AdminPolicy.CompiledPolicy

/-!
# Installing a policy

The two generated files of a host and how they are changed. Each file is written beside its place under a temporary
name and then renamed, so no reader meets half a file; the sudoers rules go in before the authorization document.
When the document cannot be staged, the staged rules are given up.
-/

namespace AdminPolicy

/-- The places of the two generated files. -/
structure Targets where
  rules : HostPath
  authorization : HostPath
  deriving DecidableEq, Repr

/-- What an installation did to the authorization document. -/
inductive Outcome where
  | written
  | removed
  deriving DecidableEq, Repr

namespace Installation

/-- Only the owner reads and writes the rules. -/
def rulesMode : Mode := 0o600

/-- Everyone reads the authorization document. -/
def authorizationMode : Mode := 0o644

/-- Everyone may look into the directories. -/
def directoryMode : Mode := 0o755

/-- The ending of temporary names. -/
def temporarySuffix : String := ".new"

/-- The temporary place beside a file. sudo skips names with a dot, and no fragment ends this way. -/
def temporary (p : HostPath) : HostPath := ⟨p.text ++ temporarySuffix⟩

/-- Make the directory that holds a path. -/
def ensureParent (p : HostPath) : Action Unit :=
  match p.parent? with
  | some parent =>
    if parent.isEmpty then pure ()
    else Action.attempt .createDirectory parent (.createDirAll parent directoryMode)
  | none => pure ()

/-- Write a file at its temporary place. -/
def stage (p : HostPath) (contents : String) (mode : Mode) : Action Unit := do
  ensureParent p
  Action.attempt .write (temporary p) (.writeFile (temporary p) contents.toUTF8 mode)

/-- Move a staged file to its place. -/
def install (p : HostPath) : Action Unit :=
  Action.attempt .rename (temporary p) (.rename (temporary p) p)

/-- Give up a staged file; a failure is reported and changes nothing else. -/
def discard (p : HostPath) : Program Unit :=
  .request (.removeFile (temporary p)) fun
    | .ok _ => .done ()
    | .error e => .report (.leftoverFile (temporary p).text e.message) (.done ())

def removeIfExists (p : HostPath) : Action Unit :=
  Action.of <| .request (.removeFile p) fun
    | .ok _ => .report (.removedFile p.text) (.done (.ok ()))
    | .error e => if e.kind = .notFound then .done (.ok ()) else .done (.error (.io .remove p e))

/-- Stage the authorization document, giving up the staged rules if that fails. -/
def stageAuthorization (t : Targets) (document : String) : Action Unit :=
  Action.of <| (stage t.authorization document authorizationMode).program.bind fun
    | .ok _ => .done (.ok ())
    | .error e => (discard t.rules).bind fun _ => .done (.error e)

/-- Put both files of a policy in their places; without a document the old one is removed. -/
def commit (t : Targets) (p : CompiledPolicy) : Action Outcome := do
  stage t.rules p.renderRules rulesMode
  match p.authorization.render? with
  | some document => do
    stageAuthorization t document
    install t.rules
    Action.emit (.installedRules t.rules.text)
    install t.authorization
    Action.emit (.installedAuthorization t.authorization.text)
    pure .written
  | none => do
    install t.rules
    Action.emit (.installedRules t.rules.text)
    removeIfExists t.authorization
    pure .removed

def removeAll (t : Targets) : Action Unit := do
  removeIfExists t.rules
  removeIfExists t.authorization

end Installation

end AdminPolicy
