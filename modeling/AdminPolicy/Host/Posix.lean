import AdminPolicy.Host.Call
import AdminPolicy.Text.Utf8

/-!
# A POSIX file system

A host with directories, files and symbolic links. A name stands for a directory or for an inode, which may have other
names (`State.SameFile`): what is written under one of them is read under all (`State.store`). A path is walked name by
name (`walk`): `.` stays, `..` goes up, links are followed, at most `maxLinks` of them, and only the last name may lead
to nothing. Calls that change a directory entry walk to the directory (`State.slot`) and look the last name up there
(`State.entry`), so they act on a link and not on what it leads to. Apart from `createDirAll`, which keeps what it made
before it failed, a failing call changes nothing.
-/

namespace AdminPolicy.Posix

/-- What an inode holds. -/
inductive Inode where
  | file (contents : ByteArray) (mode : Mode)
  | link (target : String)

/-- What a name stands for: a directory, or an inode, for which other names may stand as well. -/
inductive Binding where
  | directory (mode : Mode)
  | inode (number : Nat)

/-- What is found under a name. -/
inductive Node where
  | directory (mode : Mode)
  | file (contents : ByteArray) (mode : Mode)
  | link (target : String)

def Inode.node : Inode → Node
  | file contents m => .file contents m
  | link target => .link target

def Binding.number? : Binding → Option Nat
  | directory _ => none
  | inode k => some k

/-- A place: the names that lead to it from the root, without links. -/
abbrev Place := List String

/-- A file system and what a process knows of it. -/
structure State where
  /-- What stands where, but for the root. -/
  bindings : List (Place × Binding) := []
  /-- What the inodes hold, by their numbers. A number that has no name can be given to a new inode. -/
  inodes : Nat → Inode := fun _ => .file .empty 0
  /-- The place that relative paths begin at. -/
  workingDirectory : Place := []
  /-- The permissions that new nodes do not get. -/
  umask : Mode := 0o022

/-- Why a call failed. -/
inductive Fault where
  | notFound
  | busy
  | alreadyExists
  | notADirectory
  | isADirectory
  | invalid
  | nameTooLong
  | notEmpty
  | tooManyLinks
  deriving DecidableEq, Repr

def Fault.all : List Fault :=
  [.notFound, .busy, .alreadyExists, .notADirectory, .isADirectory, .invalid, .nameTooLong, .notEmpty, .tooManyLinks]

def Fault.kind : Fault → IoErrorKind
  | notFound => .notFound
  | busy => .resourceBusy
  | alreadyExists => .alreadyExists
  | notADirectory => .notADirectory
  | isADirectory => .isADirectory
  | invalid => .invalidInput
  | nameTooLong => .invalidFilename
  | notEmpty => .directoryNotEmpty
  | tooManyLinks => .filesystemLoop

def Fault.number : Fault → Nat
  | notFound => 2
  | busy => 16
  | alreadyExists => 17
  | notADirectory => 20
  | isADirectory => 21
  | invalid => 22
  | nameTooLong => 36
  | notEmpty => 39
  | tooManyLinks => 40

def Fault.description : Fault → String
  | notFound => "No such file or directory"
  | busy => "Device or resource busy"
  | alreadyExists => "File exists"
  | notADirectory => "Not a directory"
  | isADirectory => "Is a directory"
  | invalid => "Invalid argument"
  | nameTooLong => "File name too long"
  | notEmpty => "Directory not empty"
  | tooManyLinks => "Too many levels of symbolic links"

/-- A fault as the failure of a call. -/
def Fault.error (f : Fault) : IoError := ⟨f.kind, s!"{f.description} (os error {f.number})"⟩

def notText : IoError := ⟨.invalidData, "stream did not contain valid UTF-8"⟩

/-- A path holds a NUL, which ends a path. -/
def nulInPath : IoError := ⟨.invalidInput, "file name contained an unexpected NUL byte"⟩

/-! ## Places -/

namespace State

/-- What stands at a place. The root is a directory. -/
def binding? (s : State) (here : Place) : Option Binding :=
  if here = [] then some (.directory 0o755) else (s.bindings.find? fun e => e.1 = here).map Prod.snd

def resolve (s : State) : Binding → Node
  | .directory m => .directory m
  | .inode k => (s.inodes k).node

/-- The node at a place. -/
def lookup (s : State) (here : Place) : Option Node := (s.binding? here).map s.resolve

/-- All nodes but the root. -/
def nodes (s : State) : List (Place × Node) := s.bindings.map fun e => (e.1, s.resolve e.2)

/-- The number of the inode at a place. -/
def inode? (s : State) (here : Place) : Option Nat := (s.binding? here).bind Binding.number?

/-- Both names stand for one inode. -/
def SameFile (s : State) (p q : Place) : Prop := (s.inode? p).isSome = true ∧ s.inode? p = s.inode? q

instance (s : State) (p q : Place) : Decidable (s.SameFile p q) := inferInstanceAs (Decidable (_ ∧ _))

/-- A number for which no name stands. -/
def fresh (s : State) : Nat := (s.bindings.filterMap fun e => e.2.number?).foldr max 0 + 1

def put (s : State) (here : Place) (b : Binding) : State :=
  { s with bindings := (here, b) :: s.bindings.filter fun e => e.1 ≠ here }

/-- The state in which a name stands for a file or link: for the inode that it stood for, whose other names show the
change as well, or else for a new one. -/
def store (s : State) (here : Place) (i : Inode) : State :=
  let k := (s.inode? here).getD s.fresh
  { s.put here (.inode k) with inodes := fun n => if n = k then i else s.inodes n }

def erase (s : State) (here : Place) : State := { s with bindings := s.bindings.filter fun e => e.1 ≠ here }

/-- The names in a directory, in order. -/
def namesIn (s : State) (here : Place) : List String :=
  (s.bindings.filterMap fun e => if e.1.dropLast = here then e.1.getLast? else none).mergeSort
    fun a b => decide (a ≤ b)

/-- The state in which everything below a place is moved below another one. -/
def moveBelow (s : State) (source target : Place) : State :=
  { s with bindings := s.bindings.map fun e =>
      match source.isPrefixOf? e.1 with
      | some below => (target ++ below, e.2)
      | none => e }

end State

/-! ## Walking -/

/-- How many links are followed in one walk. -/
def maxLinks : Nat := 40

def maxNameBytes : Nat := 255

def maxPathBytes : Nat := 4095

/-- The segments of a path between slashes. -/
def segments (path : String) : List String := (Text.splitOn '/' path.toList).map String.ofList

/-- The names of a path, without the slashes between them. -/
def namesOf (path : String) : List String := (segments path).filter (· ≠ "")

def endsInSlash (path : String) : Bool := path.toList.getLast? = some '/'

def isAbsolute (path : String) : Bool := path.toList.head? = some '/'

/-- The steps of a walk along a path: its names, and an empty one for a slash at its end, which asks for a
directory. -/
def stepsOf (path : String) : List String := if endsInSlash path then namesOf path ++ [""] else namesOf path

/-- The place that steps lead to from a directory, up to the first link: `follow` goes on from there with the steps of
the link and those behind it. The last step may lead to nothing. If a file is to be made there when it is missing, no
slash may follow its name. -/
def walkTo (s : State) (making : Bool) (follow : Place → List String → Except Fault Place) :
    Place → List String → Except Fault Place
  | here, [] => .ok here
  | here, name :: rest =>
    if name = "" || name = "." then walkTo s making follow here rest
    else if name = ".." then walkTo s making follow here.dropLast rest
    else if making && rest = [""] then .error .isADirectory
    else if maxNameBytes < name.utf8ByteSize then .error .nameTooLong
    else
      let next := here ++ [name]
      match s.lookup next with
      | none => if rest = [] then .ok next else .error .notFound
      | some (.directory _) => walkTo s making follow next rest
      | some (.file ..) => if rest = [] then .ok next else .error .notADirectory
      | some (.link target) => follow (if isAbsolute target then [] else here) (stepsOf target ++ rest)

/-- The place that steps lead to from a directory, over no more than so many links. -/
def walk (s : State) (making : Bool) : Nat → Place → List String → Except Fault Place
  | 0 => walkTo s making fun _ _ => .error .tooManyLinks
  | links + 1 => walkTo s making (walk s making links)

/-- Why no call takes a path. -/
def pathFault? (p : HostPath) : Option Fault :=
  if p.isEmpty then some .notFound
  else if maxPathBytes < p.text.utf8ByteSize then some .nameTooLong
  else none

namespace State

/-- The place that a path begins at. -/
def origin (s : State) (path : String) : Place := if isAbsolute path then [] else s.workingDirectory

/-- The place that a path leads to, with links followed; there may be nothing. -/
def locate (s : State) (making : Bool) (p : HostPath) : Except Fault Place :=
  match pathFault? p with
  | some f => .error f
  | none => walk s making maxLinks (s.origin p.text) (stepsOf p.text)

/-- The node that a path leads to, with links followed. -/
def node (s : State) (p : HostPath) : Except Fault (Place × Node) := do
  let here ← s.locate false p
  match s.lookup here with
  | some n => .ok (here, n)
  | none => .error .notFound

def isDirectory (s : State) (p : HostPath) : Bool :=
  match s.node p with
  | .ok (_, .directory _) => true
  | _ => false

end State

/-- A directory entry as a path names it. -/
structure Slot where
  directory : Place
  /-- The last name; `.`, `..` and the root are no entries. -/
  name? : Option String
  /-- Whether a slash follows the name. -/
  slash : Bool

/-- The slot that a path names: its last name is left alone. -/
def State.slot (s : State) (p : HostPath) : Except Fault Slot := do
  if let some f := pathFault? p then .error f
  let names := namesOf p.text
  let directory ← walk s false maxLinks (s.origin p.text) names.dropLast
  match s.lookup directory with
  | some (.directory _) =>
    let name? := names.getLast?.filter fun n => n ≠ "." && n ≠ ".."
    .ok ⟨directory, name?, endsInSlash p.text⟩
  | some _ => .error .notADirectory
  | none => .error .notFound

/-- The place of a slot and what is there; what is no entry has the fault that is given. -/
def State.entry (s : State) (slot : Slot) (noEntry : Fault) : Except Fault (Place × Option Node) :=
  match slot.name? with
  | none => .error noEntry
  | some name =>
    if maxNameBytes < name.utf8ByteSize then .error .nameTooLong
    else .ok (slot.directory ++ [name], s.lookup (slot.directory ++ [name]))

/-! ## Calls -/

/-- The mode that a new directory gets below a directory: what was asked for without what the process withholds, and
the group bit of the directory above. -/
def State.newDirectoryMode (s : State) (above : Place) (mode : Mode) : Mode :=
  let inherited : Mode :=
    match s.lookup above with
    | some (.directory m) => m &&& 0o2000
    | _ => 0
  (mode &&& 0o1777 &&& ~~~s.umask) ||| inherited

def makeDirectory (p : HostPath) (mode : Mode) (s : State) : Except Fault State := do
  let slot ← s.slot p
  match ← s.entry slot .alreadyExists with
  | (_, some _) => .error .alreadyExists
  | (here, none) => .ok (s.put here (.directory (s.newDirectoryMode slot.directory mode)))

/-- Make the directory at the first of these paths; those behind it are above it. -/
def makeDirectories (mode : Mode) : List HostPath → State → Except Fault Unit × State
  | [], s => (.error .notFound, s)
  | p :: above, s =>
    let settle (e : Fault) (s : State) : Except Fault Unit × State :=
      if s.isDirectory p then (.ok (), s) else (.error e, s)
    if p.isEmpty then (.ok (), s)
    else
      match makeDirectory p mode s with
      | .ok s => (.ok (), s)
      | .error .notFound =>
        match makeDirectories mode above s with
        | (.error e, s) => (.error e, s)
        | (.ok (), s) =>
          match makeDirectory p mode s with
          | .ok s => (.ok (), s)
          | .error e => settle e s
      | .error e => settle e s

/-- Make a directory and those above it. -/
def createDirAll (p : HostPath) (mode : Mode) (s : State) : Except Fault Unit × State :=
  makeDirectories mode p.ancestors s

/-- Put contents into the file that a path leads to, which is made if it is missing; `mode` gets the mode that the
file had. -/
def writeWith (p : HostPath) (contents : ByteArray) (mode : Option Mode → Mode) (s : State) : Except Fault State := do
  let here ← s.locate true p
  match s.lookup here with
  | some (.file _ old) => .ok (s.store here (.file contents (mode (some old))))
  | none => .ok (s.store here (.file contents (mode none)))
  | some _ => .error .isADirectory

/-- Put contents into a file and set its mode. -/
def writeFile (p : HostPath) (contents : ByteArray) (mode : Mode) (s : State) : Except Fault State :=
  writeWith p contents (fun _ => mode &&& 0o7777) s

def Node.isDirectory : Node → Bool
  | directory _ => true
  | _ => false

/-- Move a node to another place, where it replaces a node of its own kind. Nothing moves between two names of one
inode. -/
def rename (source target : HostPath) (s : State) : Except Fault State := do
  let old ← s.slot source
  let new ← s.slot target
  if new.name?.isNone then .error .busy
  match ← s.entry old .busy with
  | (_, none) => .error .notFound
  | (a, some n) =>
    let (b, replaced?) ← s.entry new .busy
    if !n.isDirectory && (old.slash || new.slash) then .error .notADirectory
    if a ≠ b && a.isPrefixOf b then .error .invalid
    if a ≠ b && b.isPrefixOf a then .error .notEmpty
    if a = b ∨ s.SameFile a b then .ok s
    else
      let moved := (s.erase b).moveBelow a b
      match replaced? with
      | none => .ok moved
      | some m =>
        if n.isDirectory && !m.isDirectory then .error .notADirectory
        else if !n.isDirectory && m.isDirectory then .error .isADirectory
        else if m.isDirectory && s.namesIn b ≠ [] then .error .notEmpty
        else .ok moved

/-- Take a file or link away. -/
def removeFile (p : HostPath) (s : State) : Except Fault State := do
  let slot ← s.slot p
  match ← s.entry slot .isADirectory with
  | (_, none) => .error .notFound
  | (_, some (.directory _)) => .error .isADirectory
  | (here, some _) => if slot.slash then .error .notADirectory else .ok (s.erase here)

def readBytes (p : HostPath) (s : State) : Except Fault ByteArray := do
  match ← s.node p with
  | (_, .file contents _) => .ok contents
  | _ => .error .isADirectory

def readText (p : HostPath) (s : State) : Except IoError String :=
  match readBytes p s with
  | .error f => .error f.error
  | .ok bytes =>
    match Text.decode bytes with
    | .ok text => .ok text
    | .error _ => .error notText

/-- The names in the directory that a path leads to. -/
def listDir (p : HostPath) (s : State) : Except Fault (List String) := do
  match ← s.node p with
  | (here, .directory _) => .ok (s.namesIn here)
  | _ => .error .notADirectory

def isDir (p : HostPath) (s : State) : Except Fault Bool := do
  let (_, n) ← s.node p
  pure n.isDirectory

/-- The answer of a call that changes the state or fails. -/
def changing (s : State) : Except Fault State → Except IoError Unit × State
  | .ok s => (.ok (), s)
  | .error f => (.error f.error, s)

/-- The host for paths without NUL. -/
def answer : Host State
  | .createDirAll p mode, s => let (r, s) := createDirAll p mode s; (r.mapError Fault.error, s)
  | .writeFile p contents mode, s => changing s (writeFile p contents mode s)
  | .rename p q, s => changing s (rename p q s)
  | .removeFile p, s => changing s (removeFile p s)
  | .readText p, s => (readText p s, s)
  | .listDir p, s => ((listDir p s).mapError Fault.error, s)
  | .isDir p, s => ((isDir p s).mapError Fault.error, s)

def pathsOf : HostCall → List HostPath
  | .rename p q => [p, q]
  | c => [c.path]

def host : Host State := fun c s =>
  if (pathsOf c).any fun p => p.text.toList.contains '\x00' then (.error nulInPath, s) else answer c s

/-! ## Setting up a state -/

/-- The state with the directories above a path. -/
def withParents (p : HostPath) (s : State) : State :=
  match p.parent? with
  | some q => (createDirAll q 0o777 s).2
  | none => s

/-- The state with a directory and those above it. -/
def seedDirectory (p : HostPath) (s : State) : State := (createDirAll p 0o777 s).2

/-- The state with a file and the directories above it; a file that is replaced keeps its mode. -/
def seedFile (p : HostPath) (contents : ByteArray) (s : State) : State :=
  let s := withParents p s
  (writeWith p contents (fun old => old.getD (0o666 &&& ~~~s.umask)) s).toOption.getD s

def makeLink (p : HostPath) (target : String) (s : State) : Except Fault State := do
  if let some f := pathFault? ⟨target⟩ then .error f
  let slot ← s.slot p
  match ← s.entry slot .alreadyExists with
  | (_, some _) => .error .alreadyExists
  | (here, none) => if slot.slash then .error .notFound else .ok (s.store here (.link target))

def seedLink (p : HostPath) (target : String) (s : State) : State :=
  let s := withParents p s
  (makeLink p target s).toOption.getD s

/-- The state in which the node that a path leads to has a mode. -/
def changeMode (p : HostPath) (mode : Mode) (s : State) : State :=
  match s.node p with
  | .ok (here, .directory _) => s.put here (.directory (mode &&& 0o7777))
  | .ok (here, .file contents _) => s.store here (.file contents (mode &&& 0o7777))
  | _ => s

end AdminPolicy.Posix
