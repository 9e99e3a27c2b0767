import AdminPolicy.CommandLine.Execution
import AdminPolicy.Host.Posix

/-!
# The command line

The outer layer: it carries out the calls of a program on the machine's own file system, and prints what the program
reports. All decisions are made by the program.
-/

namespace AdminPolicy.Main

/-- The failure of a call that the machine refused. -/
def failure (e : IO.Error) : IoError :=
  let number : UInt32 → Nat := fun c => if c < 0x80000000 then c.toNat else Nat.pow 2 32 - c.toNat
  let known (c : UInt32) : Option Posix.Fault := Posix.Fault.all.find? fun f => f.number = number c
  match e with
  | .noFileOrDirectory _ c _ | .alreadyExists _ c _ | .inappropriateType _ c _ | .invalidArgument _ c _ |
    .resourceBusy c _ | .unsatisfiedConstraints c _ | .otherError c _ =>
    ((known c).map Posix.Fault.error).getD ⟨.other, toString e⟩
  | .permissionDenied .. => ⟨.permissionDenied, toString e⟩
  | .interrupted .. => ⟨.interrupted, toString e⟩
  | _ => ⟨.other, toString e⟩

/-- The answer of an operation of the machine. -/
def answer {α : Type} (operation : IO α) : IO (Except IoError α) := do
  try return .ok (← operation)
  catch e => return .error (failure e)

/-- The rights that a mode gives. -/
def rights (mode : Mode) : IO.FileRight :=
  let bits (shift : UInt32) : IO.AccessRight :=
    let b := mode >>> shift
    ⟨b &&& 4 ≠ 0, b &&& 2 ≠ 0, b &&& 1 ≠ 0⟩
  ⟨bits 6, bits 3, bits 0⟩

def isDirectory (p : HostPath) : IO Bool := do
  return (← (← IO.FS.realPath p.text).metadata).type matches .dir

def makeDirectory (p : HostPath) (mode : Mode) : IO Unit := do
  if p.isEmpty then return
  try
    IO.FS.createDir p.text
    IO.setAccessRights p.text (rights mode)
  catch e => unless ← (isDirectory p <|> pure false) do throw e

/-- Put contents into a file that has its mode before it has them. -/
def writeFile (p : HostPath) (contents : ByteArray) (mode : Mode) : IO Unit :=
  IO.FS.withFile p.text .write fun h => do
    IO.setAccessRights p.text (rights mode)
    h.write contents
    h.flush

/-- The answer of the machine to a call. -/
def machine : (c : HostCall) → IO c.Answer
  | .createDirAll p mode => answer (p.ancestors.reverse.forM fun q => makeDirectory q mode)
  | .writeFile p contents mode => answer (writeFile p contents mode)
  | .rename p q => answer (IO.FS.rename p.text q.text)
  | .removeFile p => answer (IO.FS.removeFile p.text)
  | .readText p => do
    match ← answer (IO.FS.readBinFile p.text) with
    | .error e => return .error e
    | .ok bytes => return (Text.decode bytes).mapError fun _ => Posix.notText
  | .listDir p => answer do
    let entries ← (← IO.FS.realPath p.text).readDir
    return (entries.map fun e => e.fileName).toList
  | .isDir p => answer (isDirectory p)

/-- A line about an event. -/
def eventLine (e : Event) : String :=
  let value : FieldValue → String
    | .text s => s
    | .count n => toString n
    | .flag b => toString b
  e.fields.foldl (fun line (name, v) => line ++ " " ++ name ++ "=" ++ value v) e.message

/-- Carry out a program. Events that are worth more than a look at the details are written as they come. -/
def perform {α : Type} : Program α → IO α
  | .done a => return a
  | .report e rest => do
    if e.level ≠ .debug then IO.eprintln (eventLine e)
    perform rest
  | .request c next => do
    let a ← machine c
    perform (next a)

/-- The variables of the process, between zero bytes, each with an equals sign behind its name. -/
def environment : IO (List (String × String)) := do
  let bytes ← IO.FS.readBinFile "/proc/self/environ" <|> pure .empty
  let assignments := Text.splitOn '\x00' (Text.decodeLossy bytes).toList
  return assignments.filterMap fun a =>
    match CommandLine.splitEquals a with
    | (name, some value) => some (String.ofList name, String.ofList value)
    | _ => none

end AdminPolicy.Main

/-- Read the command line, do what it asks for and print the outcome. -/
def main (words : List String) : IO UInt32 := do
  let directory ← IO.FS.realPath "."
  let environment ← AdminPolicy.Main.environment
  let request := AdminPolicy.CommandLine.Request.of words
  let report ← AdminPolicy.Main.perform (request.program ⟨directory.toString⟩ environment)
  IO.print report.output
  for line in (report.failure?.map AdminPolicy.CommandLine.Failure.lines).getD [] do
    IO.eprintln line
  return UInt32.ofNat report.exitCode
