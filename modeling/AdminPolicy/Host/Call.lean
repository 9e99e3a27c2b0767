import AdminPolicy.HostPath

/-!
# Calls on the host's file system

The requests that the program makes, as data: what each asks for, what its answer holds (`HostCall.Reply`) and how it
can fail. A `Host` answers calls and moves from state to state; the real file system, a tree in memory and a host
that is told to fail are all hosts.
-/

namespace AdminPolicy

/-- What kind of failure a call met. -/
inductive IoErrorKind where
  | notFound
  | permissionDenied
  | alreadyExists
  | invalidInput
  | invalidData
  | invalidFilename
  | interrupted
  | timedOut
  | isADirectory
  | notADirectory
  | directoryNotEmpty
  | resourceBusy
  | filesystemLoop
  | other
  deriving DecidableEq, Repr

/-- The failure of a call. -/
structure IoError where
  kind : IoErrorKind
  message : String
  deriving DecidableEq, Repr

/-- The permission bits of a file or directory. -/
abbrev Mode := UInt32

/-- A request to the host's file system. -/
inductive HostCall where
  /-- Make the directory and those above it that are missing. -/
  | createDirAll (path : HostPath) (mode : Mode)
  /-- Make the file, or replace its contents, and set its mode. -/
  | writeFile (path : HostPath) (contents : ByteArray) (mode : Mode)
  | rename (source target : HostPath)
  | removeFile (path : HostPath)
  | readText (path : HostPath)
  /-- The names in a directory. -/
  | listDir (path : HostPath)
  /-- Whether the path leads to a directory. -/
  | isDir (path : HostPath)

namespace HostCall

/-- What a successful call answers with. -/
def Reply : HostCall → Type
  | readText _ => String
  | listDir _ => List String
  | isDir _ => Bool
  | _ => Unit

/-- The path that a call is about; for a renaming, the path that is given up. -/
def path : HostCall → HostPath
  | createDirAll p _ | writeFile p _ _ | rename p _ | removeFile p | readText p | listDir p | isDir p => p

/-- Whether a call can change the file system. -/
def isMutation : HostCall → Bool
  | createDirAll .. | writeFile .. | rename .. | removeFile _ => true
  | _ => false

/-- The answer to a call, or its failure. -/
abbrev Answer (c : HostCall) := Except IoError c.Reply

end HostCall

/-- Something that answers calls, from state to state. -/
abbrev Host (σ : Type) := (c : HostCall) → σ → c.Answer × σ

end AdminPolicy
