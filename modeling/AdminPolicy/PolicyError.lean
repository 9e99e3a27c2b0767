import AdminPolicy.Host.Call

/-!
# Errors

Why a policy could not be read, compiled or installed. Each error has a wording, a code, for some a hint, and the
error behind it. `root` looks through the wrapper that names the object of an enforcement.
-/

namespace AdminPolicy

/-- What was attempted on a file. -/
structure FileOperation where
  name : String
  deriving DecidableEq, Repr

namespace FileOperation

def list : FileOperation := ⟨"list"⟩
def stat : FileOperation := ⟨"stat"⟩
def read : FileOperation := ⟨"read"⟩
def write : FileOperation := ⟨"write"⟩
def rename : FileOperation := ⟨"rename"⟩
def remove : FileOperation := ⟨"remove"⟩
def createDirectory : FileOperation := ⟨"create directory"⟩

end FileOperation

/-- Why something about a policy failed. -/
inductive PolicyError where
  /-- The policy of an object could not be enforced. -/
  | apply (object : String) (cause : PolicyError)
  /-- The host refused an operation. -/
  | io (operation : FileOperation) (path : HostPath) (cause : IoError)
  /-- A fragment is no key file. -/
  | fragmentParse (path : HostPath) (line : Nat) (detail : String)
  /-- The policy file could not be read. -/
  | policyLoad (path : String) (cause : IoError)
  /-- The policy file is no KDL document. -/
  | kdlParse (detail : String)
  /-- A node of the policy file is no entry. -/
  | invalidEntry (detail : String)
  deriving DecidableEq, Repr

namespace PolicyError

def message : PolicyError → String
  | apply object _ => "can't apply privilege policy to " ++ object
  | io operation path _ => "failed to " ++ operation.name ++ " `" ++ path.text ++ "`"
  | fragmentParse path line detail =>
    "can't parse authorization fragment `" ++ path.text ++ "` at line " ++ toString line ++ ": " ++ detail
  | policyLoad path _ => "Failed to load policy file `" ++ path ++ "`"
  | kdlParse detail => "KDL parse error: " ++ detail
  | invalidEntry detail => "Invalid policy entry: " ++ detail

def code : PolicyError → String
  | apply .. => "privguard::privilege::apply"
  | io .. => "privguard::privilege::io"
  | fragmentParse .. => "privguard::privilege::fragment_parse"
  | policyLoad .. => "privguard::privilege::policy_load"
  | kdlParse _ => "privguard::privilege::kdl_parse"
  | invalidEntry _ => "privguard::privilege::invalid_entry"

/-- What to do about an error, where there is something to say. -/
def help? : PolicyError → Option String
  | apply .. | io .. => none
  | fragmentParse .. =>
    some "Fragments must contain `[Section]` headers followed by `Key=Value` lines; fix or remove the file"
  | policyLoad .. => some "Check that the file exists and contains valid KDL syntax"
  | kdlParse _ => some "Check the entry file against the KDL syntax described at https://kdl.dev"
  | invalidEntry _ => some "Entry syntax: entry \"client-admins\" value=\"alice,bob\" disabled=#false"

/-- The innermost error. -/
def root : PolicyError → PolicyError
  | apply _ cause => cause.root
  | e => e

end PolicyError

end AdminPolicy
