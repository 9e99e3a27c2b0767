import AdminPolicy.CommandLine.Options
import AdminPolicy.HostPath

/-!
# Invocations

What this program can be asked for: to apply a policy to an object, or to print what applying it to a computer would
install. `Request.of` reads the words of a command line as a request.
-/

namespace AdminPolicy.CommandLine

/-- The kinds of objects that a policy can be for. -/
inductive ObjectKind where
  | computer
  | user
  deriving DecidableEq, Repr

def ObjectKind.name : ObjectKind → String
  | computer => "computer"
  | user => "user"

def ObjectKind.ofName? (name : String) : Option ObjectKind := [computer, user].find? fun k => k.name = name

/-- What is to be done. -/
inductive Command where
  /-- Install what the policy file of an object comes to. -/
  | apply (object : String) (kind : ObjectKind) (policy : HostPath)
  /-- Print what would be installed. -/
  | compile (policy : HostPath)
  deriving DecidableEq, Repr

/-- What a command line asks for. -/
inductive Request where
  | run (settings : HostPath) (command : Command)
  | version
  /-- What can be asked for, about one command or all of them. -/
  | help (command? : Option String)
  /-- The command line makes no sense. -/
  | refused
  deriving DecidableEq, Repr

/-- The settings file of a command line that names none. -/
def defaultSettingsPath : HostPath := ⟨"privguard.toml"⟩

def applyName : String := "apply"

def compileName : String := "compile"

def helpName : String := "help"

/-- The words before a command. -/
def programGrammar : Grammar where
  options := [⟨"config", some 'c', fun _ => true⟩]
  hasVersion := true
  commands := [applyName, compileName, helpName]

def policyOption : OptionForm := ⟨"policy", none, fun v => v ≠ ""⟩

def applyGrammar : Grammar where
  options := [⟨"object", none, fun _ => true⟩, ⟨"kind", none, fun v => (ObjectKind.ofName? v).isSome⟩, policyOption]
  hasVersion := false
  commands := []

def compileGrammar : Grammar where
  options := [policyOption]
  hasVersion := false
  commands := []

def applyCommand? (values : Values) : Option Command :=
  match values.lookup "object", values.lookup "policy" with
  | some object, some policy =>
    let kind := ((values.lookup "kind").bind ObjectKind.ofName?).getD .computer
    some (.apply object kind ⟨policy⟩)
  | _, _ => none

def compileCommand? (values : Values) : Option Command :=
  (values.lookup "policy").map fun policy => .compile ⟨policy⟩

namespace Request

/-- The request of a command's words, once it is known which settings file is meant. -/
def ofCommand (settings : HostPath) (name : String) (g : Grammar) (command? : Values → Option Command)
    (words : List String) : Request :=
  match g.read [] words with
  | .finished values =>
    match command? values with
    | some c => .run settings c
    | none => .refused
  | .help => .help (some name)
  | _ => .refused

def ofHelp : List String → Request
  | [] => .help none
  | [name] => if programGrammar.commands.contains name then .help (some name) else .refused
  | _ => .refused

/-- The request of a command line. -/
def of (words : List String) : Request :=
  match programGrammar.read [] words with
  | .command values name rest =>
    let settings := ((values.lookup "config").map HostPath.mk).getD defaultSettingsPath
    if name = applyName then ofCommand settings name applyGrammar applyCommand? rest
    else if name = compileName then ofCommand settings name compileGrammar compileCommand? rest
    else ofHelp rest
  | .version => .version
  | .help => .help none
  | _ => .refused

end Request

end AdminPolicy.CommandLine
