import AdminPolicy.Host.Call

/-!
# Hosts that are told to fail

An `Injector` decides, call by call, which calls fail without reaching the host (`injecting`). `Faults.host` is the
host in front of which a schedule of faults decides. A fault waits for calls of one kind, perhaps only on one path; it
lets some of them pass, then fails some, and is spent. The first fault of the schedule that is not spent and waits for
a call decides about it.
-/

namespace AdminPolicy.Faults

/-- What decides about calls, from state to state: the error of a call that is to fail. -/
abbrev Injector (ι : Type) := HostCall → ι → Option IoError × ι

/-- A host in front of which an injector decides. A call that is made to fail does not reach the host. -/
def injecting {ι σ : Type} (inject : Injector ι) (h : Host σ) : Host (ι × σ)
  | c, (i, s) =>
    match inject c i with
    | (some e, i) => (.error e, (i, s))
    | (none, i) => let (answer, s) := h c s; (answer, (i, s))

inductive CallKind where
  | createDirAll
  | writeFile
  | rename
  | removeFile
  | readText
  | listDir
  | isDir
  deriving DecidableEq, Repr

def CallKind.of : HostCall → CallKind
  | .createDirAll .. => .createDirAll
  | .writeFile .. => .writeFile
  | .rename .. => .rename
  | .removeFile _ => .removeFile
  | .readText _ => .readText
  | .listDir _ => .listDir
  | .isDir _ => .isDir

/-- A fault of a schedule. -/
structure Fault where
  kind : CallKind
  /-- The spelling of the path that the fault is limited to. -/
  path? : Option HostPath
  /-- How many more calls pass. -/
  passes : Nat
  /-- How many calls then fail. -/
  failures : Nat
  error : IoError
  deriving DecidableEq, Repr

/-- Whether a fault decides about a call. -/
def Fault.waitsFor (f : Fault) (c : HostCall) : Bool :=
  decide (f.kind = .of c) && f.path?.all (fun p => p = c.path) && (f.passes != 0 || f.failures != 0)

/-- The error of a call under a schedule, if it fails, and the schedule after it. -/
def consult (c : HostCall) : List Fault → Option IoError × List Fault
  | [] => (none, [])
  | f :: fs =>
    if f.waitsFor c then
      match f.passes with
      | n + 1 => (none, { f with passes := n } :: fs)
      | 0 => (some f.error, { f with failures := f.failures - 1 } :: fs)
    else
      let (error?, fs) := consult c fs
      (error?, f :: fs)

/-- A host under a schedule of faults. -/
def host {σ : Type} (h : Host σ) : Host (List Fault × σ) := injecting consult h

end AdminPolicy.Faults
