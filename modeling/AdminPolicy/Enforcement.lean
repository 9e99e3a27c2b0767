import AdminPolicy.Compilation
import AdminPolicy.Fragments
import AdminPolicy.Installation

/-!
# Enforcing a policy

An `Enforcer` knows the directories of a host. `Enforcer.compile` compiles entries against the administrators that
others have set; `Enforcer.apply` makes the generated files agree with the entries. Only computers carry a policy,
and without entries there are no generated files.
-/

namespace AdminPolicy

/-- The name that both generated files are built from. -/
def baseFileName : String := "99-privguard-privilege-enforcement"

/-- The name of the generated authorization fragment. -/
def ownFragmentName : String := baseFileName ++ Fragments.suffix

/-- The directory of fragments below the polkit directory. -/
def fragmentDirectoryName : String := "localauthority.conf.d"

def defaultSudoersDirectory : HostPath := ⟨"/etc/sudoers.d"⟩

def defaultPolkitDirectory : HostPath := ⟨"/etc/polkit-1"⟩

/-- The directories in which a policy is enforced. -/
structure Enforcer where
  sudoersDirectory : HostPath
  fragmentDirectory : HostPath
  deriving DecidableEq, Repr

namespace Enforcer

def orDefault (directory default : HostPath) : HostPath := if directory.isEmpty then default else directory

/-- The enforcer for two directories, of which an empty one means the default. -/
def of (sudoersDirectory polkitDirectory : HostPath) : Enforcer where
  sudoersDirectory := orDefault sudoersDirectory defaultSudoersDirectory
  fragmentDirectory := (orDefault polkitDirectory defaultPolkitDirectory).join fragmentDirectoryName

def targets (e : Enforcer) : Targets where
  rules := e.sudoersDirectory.join baseFileName
  authorization := e.fragmentDirectory.join ownFragmentName

/-- The administrators that the fragments of others set in a directory. -/
def systemAdmins (directory : HostPath) : Action String :=
  Fragments.layeredAdmins (fun name => name ≠ ownFragmentName) directory

/-- The policy that entries come to on this host. -/
def compile (e : Enforcer) (entries : List Entry) : Action CompiledPolicy := do
  let system ← systemAdmins e.fragmentDirectory
  Action.of <| (Program.emitAll (compileEvents entries)).bind fun _ =>
    .done (.ok (AdminPolicy.compile entries system))

/-- Make the generated files agree with the entries of a computer. -/
def enforce (e : Enforcer) (object : String) (entries : List Entry) : Action Unit := do
  Action.emit (.applyingPolicy object)
  if entries.isEmpty then
    Installation.removeAll e.targets
    Action.emit (.removedPolicy object)
  else
    let policy ← e.compile entries
    let outcome ← Installation.commit e.targets policy
    Action.emit (.appliedPolicy object policy.blocks.length (outcome = .written))

/-- Enforce the entries of an object; an error names the object. -/
def apply (e : Enforcer) (object : String) (isComputer : Bool) (entries : List Entry) : Action Unit :=
  if isComputer then
    Action.of <| (e.enforce object entries).program.bind fun
      | .ok _ => .done (.ok ())
      | .error cause => .done (.error (.apply object cause))
  else pure ()

end Enforcer

end AdminPolicy
