import AdminPolicy.Host.Call
import AdminPolicy.Text.Utf8

/-!
# A file system in memory

A host whose state is an ordered list of paths with their nodes. Paths that name the same place share one node, which
keeps the spelling under which the place was first filled. `Tree.lookup` is the view: what it finds after `put` and
`erase` (`lookup_put`, `lookup_erase`) is all that the calls depend on.
-/

namespace AdminPolicy.Memory

open Text

/-- A directory or a file. -/
inductive Node where
  | directory (mode : Mode)
  | file (contents : ByteArray) (mode : Mode)

def Node.mode : Node → Mode
  | directory m | file _ m => m

def Node.isDirectory : Node → Bool
  | directory _ => true
  | file .. => false

def Node.isFile (n : Node) : Bool := !n.isDirectory

/-- The nodes of a file system, in the order of their paths. -/
abbrev Tree := List (HostPath × Node)

namespace Tree

def lookup (t : Tree) (p : HostPath) : Option Node := (t.find? fun e => e.1.Same p).map Prod.snd

/-- The tree with a node at a place; a place that is filled keeps its spelling. -/
def put (p : HostPath) (n : Node) : Tree → Tree
  | [] => [(p, n)]
  | (q, m) :: rest =>
    if q.Same p then (q, n) :: rest
    else if p.order q = .lt then (p, n) :: (q, m) :: rest
    else (q, m) :: put p n rest

def erase (t : Tree) (p : HostPath) : Tree := t.filter fun e => !decide (e.1.Same p)

/-- The tree with a directory at a place where there is nothing. -/
def putMissing (p : HostPath) (mode : Mode) (t : Tree) : Tree :=
  match t.lookup p with
  | some _ => t
  | none => t.put p (.directory mode)

/-- The tree with directories at a path and at those above it, wherever there is nothing. The empty path is no
place. -/
def putDirectories (p : HostPath) (mode : Mode) (t : Tree) : Tree :=
  p.ancestors.foldl (fun t q => if q.isEmpty then t else t.putMissing q mode) t

theorem lookup_put (t : Tree) (p q : HostPath) (n : Node) :
    (t.put p n).lookup q = if p.Same q then some n else t.lookup q := by
  induction t with
  | nil => by_cases h : p.Same q <;> simp [put, lookup, h]
  | cons e rest ih =>
    obtain ⟨r, m⟩ := e
    unfold put
    by_cases hr : r.Same p
    · have hs : r.Same q ↔ p.Same q := by unfold HostPath.Same at *; rw [hr]
      by_cases hq : p.Same q
      · simp [hr, lookup, hs, hq]
      · simp [hr, lookup, hs, hq]
    · by_cases hlt : p.order r = .lt
      · by_cases hq : p.Same q <;> simp [hr, hlt, lookup, hq]
      · simp only [hr, ↓reduceIte, hlt]
        by_cases hrq : r.Same q
        · have hq : ¬ p.Same q := fun h => hr (by unfold HostPath.Same at *; rw [hrq, h])
          simp [lookup, hrq, hq]
        · unfold lookup at ih ⊢
          simpa [hrq] using ih

theorem lookup_erase (t : Tree) (p q : HostPath) :
    (t.erase p).lookup q = if p.Same q then none else t.lookup q := by
  induction t with
  | nil => simp [erase, lookup]
  | cons e rest ih =>
    obtain ⟨r, m⟩ := e
    unfold erase lookup at *
    by_cases hr : r.Same p
    · have hs : r.Same q ↔ p.Same q := by unfold HostPath.Same at *; rw [hr]
      by_cases hq : p.Same q
      · simpa [hr, hs, hq] using ih
      · simpa [hr, hs, hq] using ih
    · by_cases hrq : r.Same q
      · have hq : ¬ p.Same q := fun h => hr (by unfold HostPath.Same at *; rw [hrq, h])
        simp [hr, hrq, hq]
      · simpa [hr, hrq] using ih

end Tree

/-! ## Failures -/

/-- There is nothing at the path. -/
def notFound (p : HostPath) : IoError := ⟨.notFound, p.text ++ ": no such file or directory"⟩

def isADirectory (p : HostPath) : IoError := ⟨.other, p.text ++ ": is a directory"⟩

def notADirectory (p : HostPath) : IoError := ⟨.other, p.text ++ ": not a directory"⟩

def fileExists (p : HostPath) : IoError := ⟨.alreadyExists, p.text ++ ": file exists"⟩

def directoryRename (p : HostPath) : IoError := ⟨.other, p.text ++ ": renaming directories is not supported"⟩

def notText (f : Utf8Fault) : IoError := ⟨.invalidData, f.message⟩

/-! ## Calls -/

/-- Why a node cannot be put at a path: the place above it is no directory. Nothing is above the root, and the empty
path above a relative one is always there. -/
def parentFault? (t : Tree) (p : HostPath) : Option IoError :=
  match p.parent? with
  | none => none
  | some q =>
    if q.isEmpty then none
    else
      match t.lookup q with
      | some (.directory _) => none
      | some (.file ..) => some (notADirectory q)
      | none => some (notFound q)

def createDirAll (p : HostPath) (mode : Mode) (t : Tree) : Except IoError Unit × Tree :=
  match p.ancestors.find? fun q => (t.lookup q).any Node.isFile with
  | some q => (.error (fileExists q), t)
  | none => (.ok (), t.putDirectories p mode)

def writeFile (p : HostPath) (contents : ByteArray) (mode : Mode) (t : Tree) : Except IoError Unit × Tree :=
  match parentFault? t p with
  | some e => (.error e, t)
  | none =>
    match t.lookup p with
    | some (.directory _) => (.error (isADirectory p), t)
    | _ => (.ok (), t.put p (.file contents mode))

/-- Move a file to another place. A directory that is not moved takes the spelling of the attempt. -/
def rename (source target : HostPath) (t : Tree) : Except IoError Unit × Tree :=
  match parentFault? t target with
  | some e => (.error e, t)
  | none =>
    match t.lookup target with
    | some (.directory _) => (.error (isADirectory target), t)
    | _ =>
      match t.lookup source with
      | some (.file contents mode) => (.ok (), (t.erase source).put target (.file contents mode))
      | some (.directory mode) => (.error (directoryRename source), (t.erase source).put source (.directory mode))
      | none => (.error (notFound source), t)

def removeFile (p : HostPath) (t : Tree) : Except IoError Unit × Tree :=
  match t.lookup p with
  | some (.file ..) => (.ok (), t.erase p)
  | some (.directory _) => (.error (isADirectory p), t)
  | none => (.error (notFound p), t)

def readBytes (p : HostPath) (t : Tree) : Except IoError ByteArray :=
  match t.lookup p with
  | some (.file contents _) => .ok contents
  | some (.directory _) => .error (isADirectory p)
  | none => .error (notFound p)

def readText (p : HostPath) (t : Tree) : Except IoError String := do
  match decode (← readBytes p t) with
  | .ok s => .ok s
  | .error f => .error (notText f)

/-- The names directly below a directory. -/
def listDir (p : HostPath) (t : Tree) : Except IoError (List String) :=
  match t.lookup p with
  | some (.directory _) =>
    .ok <| (t.filter fun e => e.1.parent?.any fun q => q.Same p).filterMap fun e => e.1.fileName?
  | some (.file ..) => .error (notADirectory p)
  | none => .error (notFound p)

def isDir (p : HostPath) (t : Tree) : Except IoError Bool :=
  match t.lookup p with
  | some n => .ok n.isDirectory
  | none => .error (notFound p)

def host : Host Tree
  | .createDirAll p mode, t => createDirAll p mode t
  | .writeFile p contents mode, t => writeFile p contents mode t
  | .rename p q, t => rename p q t
  | .removeFile p, t => removeFile p t
  | .readText p, t => (readText p t, t)
  | .listDir p, t => (listDir p t, t)
  | .isDir p, t => (isDir p t, t)

/-! ## Setting up a tree -/

/-- The tree with a file and the directories above it. -/
def seedFile (p : HostPath) (contents : String) (t : Tree) : Tree :=
  let t := match p.parent? with
    | some q => t.putDirectories q 0o755
    | none => t
  t.put p (.file contents.toUTF8 0o644)

def seedDirectory (p : HostPath) (t : Tree) : Tree := t.putDirectories p 0o755

/-- The contents of a file, with U+FFFD for bytes that are no text. -/
def contents? (t : Tree) (p : HostPath) : Option String :=
  match t.lookup p with
  | some (.file contents _) => some (decodeLossy contents)
  | _ => none

end AdminPolicy.Memory
