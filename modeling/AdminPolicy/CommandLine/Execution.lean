import AdminPolicy.CommandLine.Invocation
import AdminPolicy.PolicyDocument
import AdminPolicy.Settings

/-!
# Carrying out a request

The program of a request: it reads the settings and the policy and then installs the policy, or prints what it would
install. A `Report` is what the caller sees of it: text, an exit code, and what went wrong.
-/

namespace AdminPolicy.CommandLine

/-- Why a request was not carried out. -/
inductive Failure where
  /-- The command line makes no sense. -/
  | usage
  | settings (fault : Settings.Fault)
  | policy (error : PolicyError)
  deriving DecidableEq, Repr

/-- The messages of an error and of those behind it. -/
def messages : PolicyError → List String
  | .apply object cause => PolicyError.message (.apply object cause) :: messages cause
  | .io operation path cause => [PolicyError.message (.io operation path cause), cause.message]
  | .policyLoad path cause => [PolicyError.message (.policyLoad path cause), cause.message]
  | e => [e.message]

def Failure.lines : Failure → List String
  | usage => ["the command line is not understood; try '--help'"]
  | settings fault => [fault.message]
  | policy e => e.code :: messages e ++ (e.root.help?.map ("help: " ++ ·)).toList

/-- What the caller sees of a request. -/
structure Report where
  output : String := ""
  failure? : Option Failure := none
  deriving DecidableEq, Repr

namespace Report

def exitCode (r : Report) : Nat :=
  match r.failure? with
  | none => 0
  | some .usage => 2
  | some _ => 1

/-- The code of the error that the report ends with, if it is a policy's. -/
def errorCode? (r : Report) : Option String :=
  match r.failure? with
  | some (.policy e) => some e.code
  | _ => none

end Report

/-! ## Commands -/

/-- A file as it is printed: its path, and its contents if it would be there. -/
def listing (path : HostPath) (contents? : Option String) : String :=
  "==> " ++ path.text ++ "\n" ++ contents?.getD "(removed)\n"

/-- What applying entries to a computer would install. Without entries nothing is read. -/
def preview (e : Enforcer) (entries : List Entry) : Action String :=
  if entries.isEmpty then pure (listing e.targets.rules none ++ listing e.targets.authorization none)
  else do
    let policy ← e.compile entries
    pure (listing e.targets.rules (some policy.renderRules) ++
      listing e.targets.authorization policy.authorization.render?)

/-- The output of a command. -/
def Command.execute (e : Enforcer) : Command → Action String
  | apply object kind policy => do
    let entries ← PolicyDocument.load policy
    e.apply object (kind = .computer) entries
    pure ""
  | compile policy => do
    let entries ← PolicyDocument.load policy
    preview e entries

/-! ## Help -/

def programName : String := "privguard"

def programVersion : String := "0.1.0"

def programHelp : String :=
  "Enforce privilege escalation policy for sudo and polkit\n\n" ++
    "Usage: privguard [OPTIONS] <COMMAND>\n\n" ++
    "Commands:\n" ++
    "  apply    Compile the policy entries and install the generated files\n" ++
    "  compile  Print what `apply` would install, without touching the host\n" ++
    "  help     Print this message or the help of the given subcommand(s)\n\n" ++
    "Options:\n" ++
    "  -c, --config <CONFIG>  Path to configuration file [default: privguard.toml]\n" ++
    "  -h, --help             Print help\n" ++
    "  -V, --version          Print version\n"

def applyHelp : String :=
  "Compile the policy entries and install the generated files\n\n" ++
    "Usage: privguard apply [OPTIONS] --object <OBJECT> --policy <POLICY>\n\n" ++
    "Options:\n" ++
    "      --object <OBJECT>  Name of the directory object the entries belong to\n" ++
    "      --kind <KIND>      [default: computer] [possible values: computer, user]\n" ++
    "      --policy <POLICY>  KDL file listing the policy entries in order\n" ++
    "  -h, --help             Print help\n"

def compileHelp : String :=
  "Print what `apply` would install, without touching the host\n\n" ++
    "Usage: privguard compile --policy <POLICY>\n\n" ++
    "Options:\n" ++
    "      --policy <POLICY>  \n" ++
    "  -h, --help             Print help\n"

def helpHelp : String :=
  "Print this message or the help of the given subcommand(s)\n\n" ++
    "Usage: privguard help [COMMAND]...\n\n" ++
    "Arguments:\n" ++
    "  [COMMAND]...  Print help for the subcommand(s)\n"

/-- What a command does, or the program. -/
def helpText (command? : Option String) : String :=
  if command? = some applyName then applyHelp
  else if command? = some compileName then compileHelp
  else if command? = some helpName then helpHelp
  else programHelp

/-! ## Requests -/

def Report.ofResult : Except PolicyError String → Report
  | .ok output => { output }
  | .error e => { failure? := some (.policy e) }

def Request.program (workingDirectory : HostPath) (environment : List (String × String)) : Request → Program Report
  | run settings command =>
    (Settings.load workingDirectory environment settings).bind fun
      | .error fault => .done { failure? := some (.settings fault) }
      | .ok settings => (command.execute settings.enforcer).program.bind fun r => .done (.ofResult r)
  | version => .done { output := programName ++ " " ++ programVersion ++ "\n" }
  | help command? => .done { output := helpText command? }
  | refused => .done { failure? := some .usage }

end AdminPolicy.CommandLine
