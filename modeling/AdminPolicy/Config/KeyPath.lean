import AdminPolicy.Config.Value
import AdminPolicy.Text.Reader

/-!
# Putting configurations together

A later source is laid over an earlier one. Its tables are merged into the tables that are there, name by name, and
anything else takes the place of what is there. The keys at the top of a source can be paths, such as
`privilege.sudoers_dir` or `hosts[0]`; a key that is no path stands for itself. Names are compared in small letters.
-/

namespace AdminPolicy.Config

open Text

/-! ## Names -/

/-- The small letter of a character that has an ASCII one: of the capital letters and of the Kelvin sign. -/
def smallLetter (c : Char) : Char := if c = Char.ofNat 0x212A then 'k' else c.toLower

def smallLetters (name : String) : String := String.ofList (name.toList.map smallLetter)

/-! ## Merging -/

namespace Value

/-- The field of a name, in a table where nothing else is. -/
def fieldOr (root : Value) (name : String) (default : Value) : Value := (Fields.lookup name root.fields).getD default

mutual

/-- A value laid over the field of a name. -/
def layField (name : String) : Value → Value → Value
  | table _ fs, root =>
    let name := smallLetters name
    root.withFields (Fields.put name (layFields fs (root.fieldOr name emptyTable)) root.fields)
  | v, root => root.withFields (Fields.put (smallLetters name) v root.fields)

/-- Fields laid over a value. -/
def layFields : Fields → Value → Value
  | [], root => root
  | (name, v) :: fs, root => layFields fs (layField name v root)

end

end Value

/-! ## Paths -/

/-- A step from a value to a part of it. -/
inductive Step where
  | field (name : String)
  | element (index : Int)
  deriving DecidableEq, Repr

/-- Whether a name in a path may hold the character. -/
def isNameChar (c : Char) : Bool := c.isAlphanum || c = ' ' || c = '_' || c = '-'

def maxIndex : Int := Nat.pow 2 63 - 1

/-- An index between brackets, behind the opening one. -/
def index? : Reader Int := fun cs =>
  let cs := cs.dropWhile fun c => c = ' ' || c = '\t'
  let (negative, cs) := match cs with
    | '-' :: rest => (true, rest)
    | _ => (false, cs)
  let (digits, rest) := span Char.isDigit cs
  let i : Int := if negative then -numberOf 10 digits else numberOf 10 digits
  match rest.dropWhile fun c => c = ' ' || c = '\t' with
  | ']' :: rest => if digits = [] || maxIndex < i || i < -maxIndex - 1 then none else some (i, rest)
  | _ => none

/-- The steps of a path behind its first name. -/
def steps? : Nat → List Char → Option (List Step)
  | _, [] => some []
  | 0, _ => none
  | fuel + 1, '.' :: cs =>
    let (name, rest) := span isNameChar cs
    if name = [] then none else (steps? fuel rest).map (.field (String.ofList name) :: ·)
  | fuel + 1, '[' :: cs => (index? cs).bind fun (i, rest) => (steps? fuel rest).map (.element i :: ·)
  | _, _ => none

/-- The path that a key is, if it is one. -/
def path? (key : String) : Option (List Step) :=
  let (name, rest) := span isNameChar key.toList
  if name = [] then none else (steps? rest.length rest).map (.field (String.ofList name) :: ·)

/-- The place in an array of a length that an index means; a negative one counts from the end. -/
def placeOf (index : Int) (length : Nat) : Option Nat :=
  if 0 ≤ index then some index.toNat
  else if index.natAbs ≤ length then some (length - index.natAbs) else none

/-- The elements with at least `n + 1` of them; new ones are null. -/
def reaching (n : Nat) (vs : List Value) : List Value :=
  vs ++ List.replicate (n + 1 - vs.length) (.scalar none .null)

namespace Value

/-- A value laid over the part of `root` that a path leads to. -/
def lay (v : Value) : List Step → Value → Value
  | [], _ => v
  | [.field name], root => layField name v root
  | .field name :: steps, root =>
    let name := smallLetters name
    root.withFields (Fields.put name (lay v steps (root.fieldOr name (.scalar none .null))) root.fields)
  | .element index :: steps, root =>
    match placeOf index root.elements.length with
    | none => root
    | some i => root.withElements ((reaching i root.elements).modify i (lay v steps))

/-- The fields of a source laid over a value; a key can be a path. -/
def laySource (source : Fields) (root : Value) : Value :=
  source.foldl (fun root (key, v) => v.lay ((path? key).getD [.field key]) root) root

end Value

end AdminPolicy.Config
