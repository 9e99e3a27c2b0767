import AdminPolicy.Config.KeyPath
import AdminPolicy.Enforcement
import AdminPolicy.Json.Reader
import AdminPolicy.Text.Quoted
import AdminPolicy.Toml.Reader

/-!
# Settings

The directories that a policy is enforced in. They come from three sources, each laid over the one before: what a host
has if it is not told otherwise, a settings file in TOML or JSON, and the environment. A missing file is no source;
one that cannot be read as what its name says it is, is an error.
-/

namespace AdminPolicy

/-- The directories that a policy is enforced in. -/
structure Settings where
  sudoersDirectory : HostPath
  polkitDirectory : HostPath
  deriving DecidableEq, Repr

namespace Settings

open Config

def enforcer (s : Settings) : Enforcer := .of s.sudoersDirectory s.polkitDirectory

/-! ## Names -/

def tableName : String := "privilege"

def sudoersName : String := "sudoers_dir"

def polkitName : String := "policykit_dir"

/-- What the names of this program's variables begin with, in small letters. -/
def variableStart : String := "privguard__"

/-- What an environment is called as a source. -/
def environmentSource : Source := "the environment"

/-! ## Faults -/

/-- Why there are no settings. -/
inductive Fault where
  /-- The file could not be read. -/
  | unreadable (cause : IoError)
  /-- There is a directory in the place of the file, and no file beside it. -/
  | noFile (path : HostPath)
  /-- The file's name does not say what it is. -/
  | unknownFormat (path : HostPath)
  /-- The file is not what its name says. -/
  | malformed (path : HostPath)
  /-- The file is something else than a table. -/
  | noRoot (found : String) (source : Source)
  /-- The table of the settings is something else. -/
  | noTable (found : Scalar)
  /-- The settings are in an array that is too short. -/
  | tooFew (count : Nat)
  /-- A directory is not given. -/
  | missing (name : String)
  /-- A directory is not given as text. -/
  | noText (found : String) (key : String) (source? : Option Source)
  deriving DecidableEq, Repr

/-- A floating-point number with a point in it. -/
def pointed (x : Number.Real64) : String :=
  match x with
  | .finite .. => if x.text.toList.contains '.' then x.text else x.text ++ ".0"
  | _ => x.text

/-- A scalar in a message. -/
def describe : Scalar → String
  | .null => "unit value"
  | .boolean b => "boolean `" ++ toString b ++ "`"
  | .integer i => "integer `" ++ toString i ++ "`"
  | .real x => "floating point `" ++ pointed x ++ "`"
  | .text s => "string " ++ Text.quoted s

/-- What a value is called that stands where a table has to. -/
def describeRoot : Value → String
  | .scalar _ (.integer i) => "64-bit integer `" ++ toString i ++ "`"
  | .scalar _ (.real x) => "floating point `" ++ x.text ++ "`"
  | .scalar _ s => describe s
  | .array .. => "sequence"
  | .table .. => "map"

def Fault.message : Fault → String
  | unreadable cause => cause.message
  | noFile path => "configuration file \"" ++ path.text ++ "\" not found"
  | unknownFormat path => "configuration file \"" ++ path.text ++ "\" is not of a registered file format"
  | malformed path => "configuration file \"" ++ path.text ++ "\" is malformed"
  | noRoot found source => "invalid type: " ++ found ++ ", expected a map in " ++ source
  | noTable found => "invalid type: " ++ describe found ++ ", expected struct Privilege"
  | tooFew count => "invalid length " ++ toString count ++ ", expected struct Privilege with 2 elements"
  | missing name => "missing field `" ++ name ++ "`"
  | noText found key source? =>
    "invalid type: " ++ found ++ ", expected a string for key `" ++ key ++ "`" ++
      match source? with
      | some source => " in " ++ source
      | none => ""

/-! ## Reading -/

/-- The text that a value is or can be written as. -/
def textOf (key : String) : Value → Except Fault String
  | .scalar _ (.text s) => .ok s
  | .scalar _ (.boolean b) => .ok (toString b)
  | .scalar _ (.integer i) => .ok (toString i)
  | .scalar _ (.real x) => .ok x.text
  | .scalar source? .null => .error (.noText (describe .null) key source?)
  | .array source? _ => .error (.noText "sequence" key source?)
  | .table source? _ => .error (.noText "map" key source?)

/-- A field of the settings' table, if it is there. -/
def field? (fs : Fields) (name : String) : Except Fault (Option String) :=
  match Fields.lookup name fs with
  | none => .ok none
  | some v => (textOf (tableName ++ "." ++ name) v).map some

def element (vs : List Value) (i : Nat) : Except Fault String :=
  match vs[i]? with
  | none => .error (.tooFew i)
  | some v => textOf (tableName ++ "[" ++ toString i ++ "]") v

def required (name : String) : Option String → Except Fault String
  | some s => .ok s
  | none => .error (.missing name)

/-- The settings in a configuration. -/
def ofConfiguration (root : Value) : Except Fault Settings :=
  match Fields.lookup tableName root.fields with
  | none => .error (.missing tableName)
  | some (.scalar _ s) => .error (.noTable s)
  | some (.array _ vs) => do
    let sudoers ← element vs 0
    let polkit ← element vs 1
    pure ⟨⟨sudoers⟩, ⟨polkit⟩⟩
  | some (.table _ fs) => do
    let sudoers? ← field? fs sudoersName
    let polkit? ← field? fs polkitName
    let sudoers ← required sudoersName sudoers?
    let polkit ← required polkitName polkit?
    pure ⟨⟨sudoers⟩, ⟨polkit⟩⟩

/-! ## Sources -/

/-- The configuration of a host that is not told otherwise. -/
def defaults : Value :=
  let key (name : String) : String := tableName ++ "." ++ name
  Value.emptyTable.laySource
    [(key sudoersName, .ofText defaultSudoersDirectory.text), (key polkitName, .ofText defaultPolkitDirectory.text)]

/-- The name of a variable with a point for each pair of underscores. -/
def pointPairs : List Char → List Char
  | '_' :: '_' :: cs => '.' :: pointPairs cs
  | c :: cs => c :: pointPairs cs
  | [] => []

/-- The key that a variable sets, if it is one of this program's. -/
def variableKey? (name : String) : Option String :=
  (variableStart.toList.isPrefixOf? (smallLetters name).toList).map fun rest => String.ofList (pointPairs rest)

/-- The fields that an environment sets. -/
def environmentFields (environment : List (String × String)) : Fields :=
  environment.filterMap fun (name, s) =>
    (variableKey? name).map fun key => (key, (Value.ofText s).writtenIn environmentSource)

/-- The settings that the fields of a file and an environment come to. -/
def ofSources (file : Fields) (environment : List (String × String)) : Except Fault Settings :=
  let told := (Value.emptyTable.laySource file).laySource (environmentFields environment)
  ofConfiguration (defaults.laySource told.fields)

/-! ## The file -/

/-- What a settings file can be written in. -/
inductive Format where
  | toml
  | json
  deriving DecidableEq, Repr

/-- The ending of the names of files in a format. -/
def Format.extension : Format → String
  | toml => "toml"
  | json => "json"

/-- The formats, in the order in which they are looked for. -/
def Format.all : List Format := [.toml, .json]

def Format.parse : Format → String → Option Value
  | toml => Toml.parse
  | json => Json.parse

/-- What follows the last point of a name, unless the name begins with it. -/
def extension? (name : String) : Option String :=
  match Text.splitOn '.' name.toList with
  | [] | [_] => none
  | [[], _] => none
  | pieces => pieces.getLast?.map String.ofList

/-- The format that the name of a file tells. -/
def Format.of? (p : HostPath) : Option Format :=
  (p.fileName?.bind extension?).bind fun e => Format.all.find? fun f => f.extension = e

/-- The path of the file beside a directory whose name has an extension more. -/
def beside? (p : HostPath) (f : Format) : Option HostPath :=
  match p.parent?, p.fileName? with
  | some parent, some name => some (parent.join (name ++ "." ++ f.extension))
  | _, _ => none

/-- The fields of a file's contents. -/
def fileFields (f : Format) (path : HostPath) (contents : String) : Except Fault Fields :=
  match f.parse contents with
  | some (.table _ fs) => .ok (Value.writtenInFields path.text fs)
  | some v => .error (.noRoot (describeRoot v) path.text)
  | none => .error (.malformed path)

/-- The settings from a file and an environment. -/
def loadFile (f : Format) (path : HostPath) (environment : List (String × String)) :
    Program (Except Fault Settings) :=
  .request (.readText path) fun
    | .error e => .done (.error (.unreadable e))
    | .ok contents => .done ((fileFields f path contents).bind fun fs => ofSources fs environment)

/-- The settings from the first file that stands beside a directory. -/
def loadBeside (path directory : HostPath) (environment : List (String × String)) :
    List Format → Program (Except Fault Settings)
  | [] => .done (.error (.noFile path))
  | f :: fs =>
    match beside? directory f with
    | none => loadBeside path directory environment fs
    | some file =>
      .request (.isDir file) fun
        | .ok false => loadFile f file environment
        | _ => loadBeside path directory environment fs

/-- The settings from the file at a path, if there is one, and an environment. -/
def load (workingDirectory : HostPath) (environment : List (String × String)) (path : HostPath) :
    Program (Except Fault Settings) :=
  .request (.isDir path) fun
    | .error _ => .done (ofSources [] environment)
    | .ok true => loadBeside path (workingDirectory.join path.text) environment Format.all
    | .ok false =>
      let file := workingDirectory.join path.text
      match Format.of? file with
      | none => .done (.error (.unknownFormat file))
      | some f => loadFile f file environment

end Settings

end AdminPolicy
